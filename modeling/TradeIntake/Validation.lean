import TradeIntake.DocumentType
import TradeIntake.Finding
import TradeIntake.Path.Reader
import TradeIntake.Path.Select

/-!
# Validation of structure

The root element must be a known document type; nothing else is looked at when it is not. A type
that must hold a trade needs a `trade` element somewhere, which is an error otherwise, and a
document should hold a `party` element somewhere, which is a warning otherwise. When there is
nothing to say, one finding says so.

Model of `ValidationReport` and `validate` (`crates/validate/src/lib.rs`) and of `run_checks` and
`exists` (`crates/validate/src/checks.rs`).

* **`hasErrors_promoteWarnings_iff`**: after promotion, a warning is as bad as an error.
-/

namespace TradeIntake

/-- What validation found. -/
structure Report where
  documentType? : Option DocumentType
  findings : List Finding
  deriving Repr, DecidableEq

namespace Report

/-- Some finding is an error. -/
def hasErrors (r : Report) : Bool :=
  r.findings.any Finding.isError

/-- How many findings are errors. -/
def errorCount (r : Report) : Nat :=
  r.findings.countP Finding.isError

/-- Every warning becomes an error. -/
def promoteWarnings (r : Report) : Report :=
  { r with findings := r.findings.map Finding.promote }

theorem hasErrors_iff (r : Report) :
    r.hasErrors = true ↔ ∃ f ∈ r.findings, f.severity = .error := by
  simp [hasErrors, Finding.isError]

theorem hasErrors_eq_false_iff (r : Report) :
    r.hasErrors = false ↔ ∀ f ∈ r.findings, f.severity ≠ .error := by
  rw [← Bool.not_eq_true, hasErrors_iff]
  simp only [not_exists, not_and, ne_eq]

theorem errorCount_eq_zero_iff (r : Report) : r.errorCount = 0 ↔ r.hasErrors = false := by
  simp [hasErrors, errorCount, List.countP_eq_zero]

theorem hasErrors_promoteWarnings_iff (r : Report) :
    r.promoteWarnings.hasErrors = true ↔ ∃ f ∈ r.findings, f.severity ≠ .info := by
  have key : ∀ f : Finding, f.promote.isError = true ↔ f.severity ≠ .info := by
    intro f
    rcases h : f.severity <;> simp [Finding.promote, Finding.isError, Severity.promote, h]
  simp [hasErrors, promoteWarnings, key]

end Report

namespace Validation

/-- The root is no known document type. -/
def invalidRoot (name : String) : Finding :=
  { Finding.of .error "INVALID_ROOT"
      ("Document must have a supported FpML root element. Supported types: " ++
        DocumentType.supportedNames) with
    fieldPath? := some "/"
    actual? := some name }

/-- The path of trades. -/
def tradePath : String := "//trade"

/-- The path of parties. -/
def partyPath : String := "//party"

/-- The type must hold a trade and there is none. -/
def missingTrade (type : DocumentType) : Finding :=
  { Finding.of .error "MISSING_TRADE"
      ("FpML document of type '" ++ type.elementName ++ "' must contain a trade element") with
    fieldPath? := some tradePath
    expected? := some "trade" }

/-- There is no party. -/
def missingParties : Finding :=
  { Finding.of .warning "MISSING_PARTIES" "FpML document should contain party information" with
    fieldPath? := some partyPath
    expected? := some "party" }

/-- There is nothing to say. -/
def success : Finding :=
  Finding.of .info "VALIDATION_SUCCESS" "FpML document structure is valid"

/-- A check could not be made. -/
def checkFailed (reason : String) : Finding :=
  Finding.of .error "XPATH_ERROR" ("Error during XML validation: " ++ reason)

/-- The path selects an element of the document. -/
def selectsAny (d : Document) (path : String) : Except Path.Malformed Bool := do
  let p ← Path.parse path
  return !(p.select d.root).isEmpty

/-- Whether a trade is missing from a document of that type. -/
def lacksTrade (type : DocumentType) (d : Document) : Except Path.Malformed Bool :=
  if type.requiresTrade then (selectsAny d tradePath).map (!·) else .ok false

/-- The findings for a document of that type. -/
def check (type : DocumentType) (d : Document) : Except Path.Malformed (List Finding) := do
  let noTrade ← lacksTrade type d
  let anyParty ← selectsAny d partyPath
  let findings :=
    (if noTrade then [missingTrade type] else []) ++ (if anyParty then [] else [missingParties])
  return if findings.isEmpty then [success] else findings

end Validation

/-- What validation finds in a document. -/
def Document.validate (d : Document) : Report :=
  match DocumentType.ofElementName? d.rootName with
  | none => ⟨none, [Validation.invalidRoot d.rootName]⟩
  | some type =>
    match Validation.check type d with
    | .ok findings => ⟨some type, findings⟩
    | .error malformed => ⟨none, [Validation.checkFailed malformed.message]⟩

end TradeIntake
