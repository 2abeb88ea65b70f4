import TradeIntake.Json.Read

/-!
# Findings

What validation has to say about a document: how much it matters, a stable code, a wording, and
perhaps where it was seen, what was expected there and what was found.

Model of `Severity` and `ValidationFinding` (`crates/validate/src/finding.rs`).

* **`ofJson?_toJson`**: a finding reads back from its JSON.
-/

namespace TradeIntake

/-- How much a finding matters. Only an error keeps a document from being used. -/
inductive Severity where
  | info
  | warning
  | error
  deriving Repr, DecidableEq

namespace Severity

/-- Every severity, the lightest first. -/
def all : List Severity := [.info, .warning, .error]

/-- The word of a severity. -/
def word : Severity → String
  | info => "INFO"
  | warning => "WARNING"
  | error => "ERROR"

/-- How many severities are lighter. -/
def rank : Severity → Nat
  | info => 0
  | warning => 1
  | error => 2

/-- A warning becomes an error. -/
def promote : Severity → Severity
  | warning => error
  | s => s

/-- Severities as words. -/
def spelling : Spelling Severity where
  all := all
  word := word
  mem_all s := by cases s <;> decide
  word_injective s t h := by cases s <;> cases t <;> first | rfl | exact absurd h (by decide)

end Severity

/-- An observation about the structure of a document. -/
structure Finding where
  /-- The kind of validation that made it. -/
  validationType : String
  severity : Severity
  code : String
  message : String
  fieldPath? : Option String := none
  expected? : Option String := none
  actual? : Option String := none
  deriving Repr, DecidableEq

namespace Finding

/-- The kind of every finding that is made here. -/
def structural : String := "SCHEMA"

/-- A structural finding. -/
def of (severity : Severity) (code message : String) : Finding :=
  ⟨structural, severity, code, message, none, none, none⟩

/-- The finding keeps a document from being used. -/
def isError (f : Finding) : Bool :=
  f.severity == .error

/-- A warning becomes an error. -/
def promote (f : Finding) : Finding :=
  { f with severity := f.severity.promote }

/-! ## JSON -/

/-- The names of the fields. -/
def fieldNames : List String :=
  ["validationType", "severity", "errorCode", "errorMessage", "fieldPath", "expectedValue",
    "actualValue"]

/-- Read a finding. -/
def ofJson? (v : Json) : Option Finding :=
  match Json.fields? fieldNames v with
  | some [validationType, severity, code, message, fieldPath, expected, actual] => do
    return {
      validationType := ← Field.required Json.text? validationType
      severity := ← Field.required (Json.spelled? Severity.spelling) severity
      code := ← Field.required Json.text? code
      message := ← Field.required Json.text? message
      fieldPath? := ← Json.optional? Json.text? fieldPath
      expected? := ← Json.optional? Json.text? expected
      actual? := ← Json.optional? Json.text? actual }
  | _ => none

/-- The fields with their values. -/
def fields (f : Finding) : List (String × Option Json) := [
  ("validationType", some (.string f.validationType)),
  ("severity", some (.ofSpelling Severity.spelling f.severity)),
  ("errorCode", some (.string f.code)),
  ("errorMessage", some (.string f.message)),
  ("fieldPath", f.fieldPath?.map .string),
  ("expectedValue", f.expected?.map .string),
  ("actualValue", f.actual?.map .string)]

/-- The finding as JSON. -/
def toJson (f : Finding) : Json := .record f.fields

theorem ofJson?_toJson (f : Finding) : ofJson? f.toJson = some f := by
  have h : Json.fields? fieldNames f.toJson = some (f.fields.map (·.2)) :=
    Json.fields?_record rfl (by decide)
  simp [ofJson?, h, fields]

end Finding
end TradeIntake
