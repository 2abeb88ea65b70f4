import TradeIntake.Proofs.Validation.Findings

/-!
# What validation makes of a tree

Three facts about a tree decide what validation reports: which type its root is named for, whether
the name of trades occurs in it, and whether the name of parties does. The checks find the last two
out by following paths, which comes to the same (`select_everywhere_eq_nil_iff`).

* **`complaints_eq`**: what is wrong with a document, from the names that occur in it.
* **`validate_determined`**: the whole report, and that no check fails.
-/

namespace TradeIntake

/-- What kind of finding it is: how much it matters, and its code. -/
def Finding.kind (f : Finding) : Severity × String := (f.severity, f.code)

namespace Validation

/-- Documents of that type must hold a trade, and this one holds none. -/
def TradeMissing (type : DocumentType) (d : Document) : Prop :=
  type.requiresTrade = true ∧ ¬ d.root.Occurs "trade"

/-- The document holds no party. -/
def PartiesMissing (d : Document) : Prop :=
  ¬ d.root.Occurs "party"

instance (type : DocumentType) (d : Document) : Decidable (TradeMissing type d) :=
  inferInstanceAs (Decidable (_ ∧ _))

instance (d : Document) : Decidable (PartiesMissing d) :=
  inferInstanceAs (Decidable (¬ _))

/-- **What is wrong with a document follows from the names that occur in it.** -/
theorem complaints_eq (type : DocumentType) (d : Document) :
    complaints type d =
      (if TradeMissing type d then [missingTrade type] else []) ++
        if PartiesMissing d then [missingParties] else [] := by
  have hempty (name : String) :
      ((Path.everywhere name).select d.root).isEmpty = decide (¬ d.root.Occurs name) := by
    rw [Bool.eq_iff_iff, List.isEmpty_iff, Path.select_everywhere_eq_nil_iff, decide_eq_true_eq]
  unfold complaints TradeMissing PartiesMissing
  rw [hempty, hempty]
  congr 1
  · by_cases hr : type.requiresTrade = true <;> by_cases ht : d.root.Occurs "trade" <;>
      simp [hr, ht]
  · by_cases hp : d.root.Occurs "party" <;> simp [hp]

/-- There is nothing to say exactly when nothing is wrong. -/
theorem complaints_eq_nil_iff {type : DocumentType} {d : Document} :
    complaints type d = [] ↔ ¬ TradeMissing type d ∧ ¬ PartiesMissing d := by
  rw [complaints_eq]
  by_cases ht : TradeMissing type d <;> by_cases hp : PartiesMissing d <;> simp [ht, hp]

end Validation

open Validation

/-- **The report says what the tree is like.** A root of no known type is all that there is to say.
Otherwise the error about trades comes before the warning about parties, and when there is neither,
one finding says so. -/
structure Report.Determined (r : Report) (d : Document) : Prop where
  unknown : (∀ type : DocumentType, type.elementName ≠ d.rootName) →
    r.documentType? = none ∧ r.findings = [invalidRoot d.rootName] ∧
      r.findings.map Finding.kind = [(.error, "INVALID_ROOT")] ∧
      r.findings.map Finding.actual? = [some d.rootName]
  known : ∀ type : DocumentType, type.elementName = d.rootName →
    r.documentType? = some type ∧
    r.findings =
      (if TradeMissing type d then [missingTrade type] else []) ++
        (if PartiesMissing d then [missingParties] else []) ++
        (if TradeMissing type d ∨ PartiesMissing d then [] else [success]) ∧
    r.findings.map Finding.kind =
      (if TradeMissing type d then [(.error, "MISSING_TRADE")] else []) ++
        (if PartiesMissing d then [(.warning, "MISSING_PARTIES")] else []) ++
        (if TradeMissing type d ∨ PartiesMissing d then [] else [(.info, "VALIDATION_SUCCESS")])

theorem Document.validate_of_unknown {d : Document}
    (h : ∀ type : DocumentType, type.elementName ≠ d.rootName) :
    d.validate = ⟨none, [invalidRoot d.rootName]⟩ := by
  unfold validate
  cases ht : DocumentType.ofElementName? d.rootName with
  | none => rfl
  | some type => exact absurd (DocumentType.ofElementName?_eq_some_iff.mp ht) (h type)

theorem Document.validate_of_known {d : Document} {type : DocumentType}
    (h : type.elementName = d.rootName) :
    d.validate = ⟨some type,
      if (complaints type d).isEmpty then [success] else complaints type d⟩ := by
  unfold validate
  rw [DocumentType.ofElementName?_eq_some_iff.mpr h]
  dsimp only
  rw [check_eq]

/-- **The report of every document is determined by its tree**, every check of it is made, and none
fails. -/
theorem Document.validate_determined (d : Document) :
    d.validate.Determined d ∧
    (∀ type, ∃ findings, check type d = .ok findings) ∧
    ∀ f ∈ d.validate.findings, f.code ≠ "XPATH_ERROR" := by
  refine ⟨⟨fun h => ?_, fun type h => ?_⟩, fun type => ⟨_, check_eq type d⟩, fun f hf hc => ?_⟩
  · rw [validate_of_unknown h]
    exact ⟨rfl, rfl, rfl, rfl⟩
  · rw [validate_of_known h]
    simp only [List.isEmpty_iff, complaints_eq_nil_iff]
    rw [complaints_eq]
    by_cases ht : TradeMissing type d <;> by_cases hp : PartiesMissing d <;>
      simp [ht, hp, Finding.kind, missingTrade, missingParties, success, Finding.of]
  · have hcode := d.code_of_mem_findings f hf
    rw [hc] at hcode
    exact absurd hcode (by decide +kernel)

end TradeIntake
