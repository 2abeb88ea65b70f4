/-!
# Spelled enumerations

The values of an enumeration travel as words. A spelling lists the values with their words; no two
values share one, so a word stands for at most one value.

Stands for the words that are derived for enumerations, such as `Severity`
(`crates/validate/src/finding.rs`) and `ProcessingStatus` (`src/result.rs`).

* **`read?_eq_some_iff`**: reading a word gives exactly the value that is written with it.
-/

namespace TradeIntake

/-- The words of an enumeration. -/
structure Spelling (α : Type) where
  /-- Every value. -/
  all : List α
  /-- The word of a value. -/
  word : α → String
  mem_all : ∀ a, a ∈ all
  word_injective : ∀ a b, word a = word b → a = b

namespace Spelling

variable {α : Type}

/-- The value whose word this is; case matters. -/
def read? (s : Spelling α) (word : String) : Option α :=
  s.all.find? fun a => s.word a == word

theorem read?_eq_some_iff {s : Spelling α} {word : String} {a : α} :
    s.read? word = some a ↔ s.word a = word := by
  constructor
  · intro h
    simpa using List.find?_some h
  · rintro rfl
    cases h : s.read? (s.word a) with
    | none => exact absurd (List.find?_eq_none.mp h a (s.mem_all a)) (by simp)
    | some b =>
      have hb : s.word b = s.word a := by simpa using List.find?_some h
      rw [s.word_injective b a hb]

theorem read?_word (s : Spelling α) (a : α) : s.read? (s.word a) = some a :=
  read?_eq_some_iff.mpr rfl

end Spelling
end TradeIntake
