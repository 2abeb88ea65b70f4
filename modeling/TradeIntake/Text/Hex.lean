/-!
# Hexadecimal digits

Bytes are written with two lower-case digits each; digits of either case are read.

Stands for the digits of `fingerprint` (`crates/dedup/src/hash.rs`).

* **`value?_digit`**: a written digit reads back.
* **`length_ofBytes`**: a byte takes two digits.
-/

namespace TradeIntake.Text.Hex

/-- The lower-case digit of a number below sixteen. -/
def digit (n : Nat) : Char :=
  Nat.digitChar (n % 16)

/-- The value of a digit of either case. -/
def value? (c : Char) : Option Nat :=
  if c.isDigit then some (c.toNat - '0'.toNat)
  else if 'a' ≤ c && c ≤ 'f' then some (c.toNat - 'a'.toNat + 10)
  else if 'A' ≤ c && c ≤ 'F' then some (c.toNat - 'A'.toNat + 10)
  else none

/-- The value of a non-empty run of digits. -/
def ofDigits? (cs : List Char) : Option Nat :=
  if cs.isEmpty then none
  else cs.foldl (fun acc c => acc.bind fun n => (value? c).map (16 * n + ·)) (some 0)

/-- Two digits for each byte. -/
def ofBytes (bytes : List UInt8) : List Char :=
  bytes.flatMap fun b => [digit (b.toNat / 16), digit b.toNat]

theorem value?_digit (n : Nat) : value? (digit n) = some (n % 16) := by
  have h : n % 16 < 16 := Nat.mod_lt _ (by decide)
  have key : ∀ d, d < 16 → value? (Nat.digitChar d) = some d := by decide
  exact key _ h

theorem length_ofBytes (bytes : List UInt8) : (ofBytes bytes).length = 2 * bytes.length := by
  induction bytes with
  | nil => rfl
  | cons b bytes ih =>
    simp only [ofBytes, List.flatMap_cons] at ih ⊢
    simp [ih]
    omega

end TradeIntake.Text.Hex
