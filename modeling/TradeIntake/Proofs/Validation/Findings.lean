import TradeIntake.Proofs.Path.Everywhere
import TradeIntake.Validation

/-!
# The findings of validation

The paths that validation follows can be read, so every check is made.

* **`check_eq`**: which findings there are, from what the two paths select.
* **`code_of_mem_findings`**: the codes of findings; that of a check that failed is not among them.
-/

namespace TradeIntake

namespace Validation

theorem parse_tradePath : Path.parse tradePath = .ok (.everywhere "trade") := rfl

theorem parse_partyPath : Path.parse partyPath = .ok (.everywhere "party") := rfl

theorem selectsAny_of_parse {path : String} {p : Path} (h : Path.parse path = .ok p)
    (d : Document) : selectsAny d path = .ok (!(p.select d.root).isEmpty) := by
  unfold selectsAny
  rw [h]
  rfl

theorem lacksTrade_eq (type : DocumentType) (d : Document) :
    lacksTrade type d =
      .ok (type.requiresTrade && ((Path.everywhere "trade").select d.root).isEmpty) := by
  unfold lacksTrade
  rw [selectsAny_of_parse parse_tradePath]
  cases type.requiresTrade <;> simp [Except.map]

/-- What is wrong with a document of that type: the error first, then the warning. -/
def complaints (type : DocumentType) (d : Document) : List Finding :=
  (if type.requiresTrade && ((Path.everywhere "trade").select d.root).isEmpty
    then [missingTrade type] else []) ++
  (if !((Path.everywhere "party").select d.root).isEmpty then [] else [missingParties])

/-- **Every check is made.** -/
theorem check_eq (type : DocumentType) (d : Document) :
    check type d =
      .ok (if (complaints type d).isEmpty then [success] else complaints type d) := by
  unfold check
  rw [lacksTrade_eq, selectsAny_of_parse parse_partyPath]
  rfl

theorem mem_complaints {type : DocumentType} {d : Document} {f : Finding}
    (h : f ∈ complaints type d) : f = missingTrade type ∨ f = missingParties := by
  unfold complaints at h
  rcases List.mem_append.mp h with h | h
  · split at h
    · exact Or.inl (List.mem_singleton.mp h)
    · cases h
  · split at h
    · cases h
    · exact Or.inr (List.mem_singleton.mp h)

/-- The codes of the findings that there may be. -/
def codes : List String :=
  ["INVALID_ROOT", "MISSING_TRADE", "MISSING_PARTIES", "VALIDATION_SUCCESS"]

theorem code_of_mem_check {type : DocumentType} {d : Document} {findings : List Finding}
    (h : check type d = .ok findings) : ∀ f ∈ findings, f.code ∈ codes := by
  rw [check_eq] at h
  obtain rfl := Except.ok.inj h
  intro f hf
  split at hf
  · rw [List.mem_singleton.mp hf]
    simp [codes, success, Finding.of]
  · rcases mem_complaints hf with rfl | rfl
    · simp [codes, missingTrade, Finding.of]
    · simp [codes, missingParties, Finding.of]

end Validation

open Validation

/-- **No check fails.** -/
theorem Document.code_of_mem_findings (d : Document) :
    ∀ f ∈ d.validate.findings, f.code ∈ codes := by
  unfold Document.validate
  cases DocumentType.ofElementName? d.rootName with
  | none =>
    intro f hf
    rw [List.mem_singleton.mp hf]
    simp [codes, invalidRoot, Finding.of]
  | some type =>
    dsimp only
    split
    · rename_i findings hc
      exact code_of_mem_check hc
    · rename_i malformed hc
      rw [check_eq] at hc
      cases hc

/-- Promotion keeps the codes. -/
theorem Report.code_of_mem_promoteWarnings {r : Report} {f : Finding}
    (h : f ∈ r.promoteWarnings.findings) : ∃ g ∈ r.findings, g.code = f.code := by
  obtain ⟨g, hg, rfl⟩ := List.mem_map.mp h
  exact ⟨g, hg, rfl⟩

end TradeIntake
