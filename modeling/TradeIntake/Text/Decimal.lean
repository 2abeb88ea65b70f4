/-!
# Decimal numerals

`ofDigits?` reads a run of ASCII digits, `toDigits` writes the shortest one. A *word* is a numeral
whose value fits in so many bits; settings and positions are read as words.

Stands for the number reading of `predicate` (`crates/ingest/src/path.rs`), which reads 64 bits, and
for the writing of positions there.

* **`ofDigits?_toDigits`**: what is written reads back.
* **`ofDigits?_padded`**: so does what is written with leading zeros.
* **`word?_eq_some_iff`**: a word is a numeral below the bound, with at most one plus sign.
-/

namespace TradeIntake.Text.Decimal

/-- The value of a run of decimal digits; none when there is no digit or another character. -/
def ofDigits? (cs : List Char) : Option Nat :=
  if !cs.isEmpty && cs.all Char.isDigit then some (Nat.ofDigitChars 10 cs 0) else none

/-- The decimal digits of a number, with no leading zero. -/
def toDigits (n : Nat) : List Char :=
  Nat.toDigits 10 n

/-- Numbers that fit in `bits` bits. -/
def fits (bits n : Nat) : Bool :=
  n < 1 <<< bits

/-- A numeral of at most `bits` bits, with an optional plus sign. -/
def word? (bits : Nat) : List Char → Option Nat
  | '+' :: cs => (ofDigits? cs).filter (fits bits)
  | cs => (ofDigits? cs).filter (fits bits)

/-- A number written with at least `width` digits. -/
def padded (width n : Nat) : List Char :=
  let ds := toDigits n
  List.replicate (width - ds.length) '0' ++ ds

theorem ofDigits?_toDigits (n : Nat) : ofDigits? (toDigits n) = some n := by
  have hall : (toDigits n).all Char.isDigit = true :=
    List.all_eq_true.mpr fun c hc => Nat.isDigit_of_mem_toDigits (by decide) (by decide) hc
  have hne : (toDigits n).isEmpty = false := by
    simp [toDigits, Nat.toDigits_ne_nil]
  rw [ofDigits?, hall, hne]
  simp [toDigits, Nat.ofDigitChars_ten_toDigits]

theorem isDigit_of_mem_padded {width n : Nat} {c : Char} (h : c ∈ padded width n) :
    c.isDigit = true := by
  rcases List.mem_append.mp h with h | h
  · rw [List.eq_of_mem_replicate h]
    rfl
  · exact Nat.isDigit_of_mem_toDigits (by decide) (by decide) h

theorem ofDigits?_padded (width n : Nat) : ofDigits? (padded width n) = some n := by
  have hall : (padded width n).all Char.isDigit = true :=
    List.all_eq_true.mpr fun c hc => isDigit_of_mem_padded hc
  have hne : (padded width n).isEmpty = false := by
    simp [padded, toDigits, Nat.toDigits_ne_nil]
  rw [ofDigits?, hall, hne]
  simp [padded, toDigits, Nat.ofDigitChars_append, Nat.ofDigitChars_replicate_zero,
    Nat.ofDigitChars_ten_toDigits]

theorem word?_eq_some_iff {bits n : Nat} {cs : List Char} :
    word? bits cs = some n ↔
      n < 1 <<< bits ∧ (ofDigits? cs = some n ∨ ∃ ds, cs = '+' :: ds ∧ ofDigits? ds = some n) := by
  unfold word?
  split
  · rename_i ds
    have : ofDigits? ('+' :: ds) = none := by simp [ofDigits?, Char.isDigit]
    simp [this, fits, Option.filter_eq_some_iff, and_comm]
  · rename_i h
    simp only [Option.filter_eq_some_iff, fits, decide_eq_true_eq]
    constructor
    · exact fun ⟨a, b⟩ => ⟨b, Or.inl a⟩
    · rintro ⟨b, a | ⟨ds, rfl, _⟩⟩
      · exact ⟨a, b⟩
      · exact absurd rfl (h ds)

end TradeIntake.Text.Decimal
