import TradeIntake.Path.Reader
import TradeIntake.Path.Select
import TradeIntake.Settings.Extract
import TradeIntake.TradeData

/-!
# Extraction of trade data

Each field has paths in order of preference; the first that yields a value wins. The first `party`
element of a document is taken for party A and the second for party B, wherever they stand; one
whose identifier of the configured scheme cannot be read is left out. The paths of an extractor
are read once, and one that cannot be read is dropped. A field can be asked for by itself, and
extraction fills a record with all of them.

Model of `ExtractError` and of `Extractor` with `new`, `field` and `extract_fields`
(`crates/extract/src/lib.rs`), and of `candidates`, `compile` and `party_lei_expression`
(`crates/extract/src/fields.rs`).
-/

namespace TradeIntake

/-- Why extraction gave nothing. -/
inductive ExtractionFailure where
  | aborted (reason : String)
  deriving Repr, DecidableEq

namespace ExtractionFailure

/-- The wording of a failure. -/
def message : ExtractionFailure → String
  | aborted reason => "trade data extraction aborted: " ++ reason

/-- The stable code of a failure. -/
def code : ExtractionFailure → String := fun _ => "EXTRACTION_ERROR"

/-- Another attempt is worthwhile: the input was well formed. -/
def isRetryable : ExtractionFailure → Bool := fun _ => true

end ExtractionFailure

/-- The scheme of unique transaction identifiers. -/
def utiScheme : String :=
  "http://www.fpml.org/coding-scheme/external/unique-transaction-identifier"

/-- The paths of a field, the preferred one first. -/
def TradeField.candidates : TradeField → List String
  | tradeId => ["//tradeId"]
  | uti => ["//uti", "//tradeId[@tradeIdScheme='" ++ utiScheme ++ "']"]
  | usi => ["//usi"]
  | tradeDate => ["//tradeDate"]
  | effectiveDate =>
    ["//effectiveDate/unadjustedDate", "//effectiveDate/adjustedDate", "//effectiveDate"]
  | maturityDate => ["//maturityDate", "//terminationDate/unadjustedDate", "//terminationDate"]
  | notionalAmount =>
    ["//notionalAmount", "//notionalStepSchedule/initialValue", "//notional/amount"]
  | currency => ["//currency"]
  | productType => ["//productType"]

namespace Role

/-- The place of the role's element among the parties, from one. -/
def position : Role → Nat
  | partyA => 1
  | partyB => 2

/-- The mark around a scheme: an apostrophe, unless the scheme holds one. -/
def quoteMark (scheme : String) : String :=
  if scheme.toList.contains '\'' then "\"" else "'"

/-- The path of the identifier of that scheme. -/
def leiPath (role : Role) (scheme : String) : String :=
  let mark := quoteMark scheme
  s!"//party[{role.position}]/partyId[@partyIdScheme=" ++ mark ++ scheme ++ mark ++ "]"

end Role

/-- The paths that can be read. -/
def Path.readable (texts : List String) : List Path :=
  texts.filterMap fun text => (Path.parse text).toOption

/-- The first value that the paths yield. -/
def Path.firstOf? (paths : List Path) (root : Element) : Option String :=
  paths.findSome? fun p => p.firstValue? root

/-- Paths that have been read. -/
structure Extractor where
  fieldPaths : List (TradeField × List Path)
  partyPaths : List (Role × List Path)

namespace Extractor

/-- The extractor for some settings. -/
def ofSettings (settings : ExtractSettings) : Extractor where
  fieldPaths := TradeField.all.map fun f => (f, Path.readable f.candidates)
  partyPaths := Role.spelling.all.map fun r => (r, Path.readable [r.leiPath settings.leiScheme])

/-- The value of one field. -/
def field? (x : Extractor) (d : Document) (f : TradeField) : Option String :=
  (x.fieldPaths.find? fun p => p.1 == f).bind fun p => Path.firstOf? p.2 d.root

/-- The counterparties, party A before party B. -/
def counterparties (x : Extractor) (d : Document) : List Counterparty :=
  x.partyPaths.filterMap fun p => (Path.firstOf? p.2 d.root).map fun lei => ⟨lei, p.1, .principal⟩

/-- The values of all fields, put one after another into a record that has none. -/
def values (x : Extractor) (d : Document) : TradeData :=
  x.fieldPaths.foldl (fun data p => data.set (Path.firstOf? p.2 d.root) p.1) {}

/-- The trade data of a document. -/
def extract (x : Extractor) (d : Document) : TradeData :=
  { x.values d with counterparties := x.counterparties d }

end Extractor
end TradeIntake
