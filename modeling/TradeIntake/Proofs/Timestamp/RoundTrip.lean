import Mathlib.Algebra.Group.Nat.Defs
import Mathlib.Data.List.TakeDrop
import Mathlib.Data.List.TakeWhile
import TradeIntake.Proofs.Timestamp.Calendar
import TradeIntake.Timestamp.Text

/-!
# Timestamps read back

What is written of a timestamp is read part by part: each part takes as many digits as it was
written with, whatever follows, and leaves the rest. So the text of an ordinary timestamp (a year
that needs no sign, no leap second) stands for that timestamp.

* **`parse?_render`**: an ordinary timestamp reads back from its text.
-/

namespace TradeIntake.Timestamp

open TradeIntake.Text

/-! ## Parts -/

theorem length_padded {width n : Nat} (hw : 0 < width) (hn : n < 10 ^ width) :
    (Decimal.padded width n).length = width := by
  have hle := (Nat.length_toDigits_le_iff (by decide) hw).mpr hn
  rw [Decimal.padded, List.length_append, List.length_replicate]
  unfold Decimal.toDigits
  omega

theorem isBlank_of_isDigit {c : Char} (h : c.isDigit = true) : isBlank c = false := by
  have hc : 48 ≤ c.toNat ∧ c.toNat ≤ 57 := by
    simpa [Char.isDigit, UInt32.le_iff_toNat_le] using h
  simp only [isBlank, Bool.or_eq_false_iff, Bool.and_eq_false_iff, decide_eq_false_iff_not,
    beq_eq_false_iff_ne]
  omega

variable {width n : Nat} (hw : 0 < width) (hn : n < 10 ^ width)
include hw hn

theorem exists_padded_eq_cons : ∃ c cs, Decimal.padded width n = c :: cs ∧ c.isDigit = true := by
  cases h : Decimal.padded width n with
  | nil =>
    have hl := length_padded hw hn
    rw [h] at hl
    exact absurd hl (Nat.ne_of_lt hw)
  | cons c cs => exact ⟨c, cs, rfl, Decimal.isDigit_of_mem_padded (h ▸ List.mem_cons_self)⟩

theorem trimStart_padded (rest : List Char) :
    trimStart (Decimal.padded width n ++ rest) = Decimal.padded width n ++ rest := by
  obtain ⟨c, cs, h, hc⟩ := exists_padded_eq_cons hw hn
  rw [h, trimStart, List.cons_append, List.dropWhile_cons, isBlank_of_isDigit hc]
  rfl

/-- **A number** is read in its width, whatever follows. -/
theorem number?_padded (rest : List Char) :
    number? width (Decimal.padded width n ++ rest) = some (n, rest) := by
  have hl := length_padded hw hn
  have htake : ((Decimal.padded width n ++ rest).take width).takeWhile Char.isDigit =
      Decimal.padded width n := by
    rw [List.take_left' hl, List.takeWhile_eq_self_iff]
    exact fun c hc => Decimal.isDigit_of_mem_padded hc
  unfold number?
  rw [trimStart_padded hw hn]
  dsimp only
  rw [htake, Decimal.ofDigits?_padded, List.drop_left]
  rfl

omit hw hn

/-- **A year** that needs no sign. -/
theorem year?_renderYear {year : Int} (h : 0 ≤ year ∧ year ≤ 9999) (rest : List Char) :
    year? (renderYear year ++ rest) = some (year, rest) := by
  have hn : year.natAbs < 10 ^ 4 := by omega
  obtain ⟨c, cs, hcs, hc⟩ := exists_padded_eq_cons (by decide) hn
  have hrender : renderYear year = Decimal.padded 4 year.natAbs := by
    rw [renderYear, if_neg (by omega), if_neg (by omega)]
  have hnumber := number?_padded (by decide) hn rest
  unfold year?
  rw [hrender, trimStart_padded (by decide) hn]
  rw [hcs] at hnumber ⊢
  split
  · rename_i heq
    obtain rfl := List.head_eq_of_cons_eq heq
    exact absurd hc (by decide)
  · rename_i heq
    obtain rfl := List.head_eq_of_cons_eq heq
    exact absurd hc (by decide)
  · rw [hnumber]
    exact congrArg (fun y => some (y, rest)) (Int.natAbs_of_nonneg h.1)

/-- **A fraction** of one to nine digits. -/
theorem fraction?_padded {k n : Nat} (hk : 0 < k ∧ k ≤ 9) (hn : n < 10 ^ k) :
    fraction? ('.' :: (Decimal.padded k n ++ ['Z'])) = some (n * 10 ^ (9 - k), ['Z']) := by
  have hd : ∀ c ∈ Decimal.padded k n, c.isDigit = true := fun _ => Decimal.isDigit_of_mem_padded
  have hl := length_padded hk.1 hn
  have hspan : (Decimal.padded k n ++ ['Z']).span Char.isDigit = (Decimal.padded k n, ['Z']) := by
    rw [List.span_eq_takeWhile_dropWhile, List.takeWhile_append_of_pos hd,
      List.dropWhile_append_of_pos hd]
    exact congrArg (·, ['Z']) (List.append_nil _)
  simp only [fraction?, hspan]
  rw [List.take_of_length_le (by omega), Decimal.ofDigits?_padded, hl]
  rfl

theorem fraction?_renderFraction {nanos : Nat} (h : nanos < 1000000000) :
    fraction? (renderFraction nanos ++ ['Z']) = some (nanos, ['Z']) := by
  unfold renderFraction
  split
  · rename_i h0
    rw [h0]
    rfl
  split
  · rw [List.cons_append, fraction?_padded (by decide) (by omega)]
    congr
    omega
  split
  · rw [List.cons_append, fraction?_padded (by decide) (by omega)]
    congr
    omega
  · rw [List.cons_append, fraction?_padded (by decide) (by omega)]
    congr
    omega

/-! ## The whole -/

/-- **An ordinary timestamp**: its year needs no sign, and it is not in a leap second. -/
structure Ordinary (t : Timestamp) : Prop where
  year_mem : 0 ≤ (Date.ofDays (t.seconds / 86400)).year ∧ (Date.ofDays (t.seconds / 86400)).year ≤ 9999
  nanos_lt : t.nanos < 1000000000

variable {t : Timestamp}

theorem Ordinary.ofLocal?_eq (h : t.Ordinary) :
    let second := (t.seconds % 86400).toNat
    ofLocal? (Date.ofDays (t.seconds / 86400)) (second / 3600) (second / 60 % 60) (second % 60)
      t.nanos 0 = some t := by
  intro second
  obtain ⟨hyear, hnanos⟩ := h
  have hdays := (year_ofDays_mem_iff (t.seconds / 86400)).mp hyear
  have hleap : (if second % 60 = 60 then 1 else 0) = 0 := if_neg (by omega)
  have hseconds : t.seconds / 86400 * 86400 +
      ((second / 3600 * 3600 + second / 60 % 60 * 60 + (second % 60 - 0) : Nat) : Int) - 0 =
        t.seconds := by
    omega
  unfold ofLocal?
  rw [if_pos ⟨isValid_ofDays _, by omega, by omega, by omega, by omega, by omega⟩]
  dsimp only
  rw [hleap, toDays_ofDays, hseconds, if_pos (by simp only [firstSecond, lastSecond]; omega),
    dif_pos (by omega)]
  rfl

/-- A mark is read where it stands. -/
theorem mark?_cons {c : Char} (hc : isBlank c = false) (rest : List Char) :
    mark? c (c :: rest) = some rest := by
  unfold mark?
  rw [trimStart, List.dropWhile_cons, hc]
  simp

/-- **An ordinary timestamp reads back from its text.** -/
theorem parse?_render (h : t.Ordinary) : parse? t.render = some t := by
  have hvalid := isValid_ofDays (t.seconds / 86400)
  simp only [Date.isValid, Bool.and_eq_true, decide_eq_true_eq] at hvalid
  have hday : daysInMonth (Date.ofDays (t.seconds / 86400)).year
      (Date.ofDays (t.seconds / 86400)).month ≤ 31 := by
    unfold daysInMonth
    split
    · split <;> omega
    · split <;> omega
  have hnanos := h.nanos_lt
  have hleap : (if 1000000000 ≤ t.nanos then 1 else 0) = 0 := if_neg (by omega)
  unfold parse? render
  rw [String.toList_ofList]
  unfold parseList? renderList
  simp only [hleap, Nat.mod_eq_of_lt hnanos, List.append_assoc, List.cons_append, Nat.add_zero]
  -- every number but the year has two digits
  have hmonth := number?_padded (by decide : 0 < 2) (n := (Date.ofDays (t.seconds / 86400)).month)
    (by omega)
  have hday := number?_padded (by decide : 0 < 2) (n := (Date.ofDays (t.seconds / 86400)).day)
    (by omega)
  have hhour := number?_padded (by decide : 0 < 2) (n := (t.seconds % 86400).toNat / 3600) (by omega)
  have hminute := number?_padded (by decide : 0 < 2) (n := (t.seconds % 86400).toNat / 60 % 60)
    (by omega)
  have hsecond := number?_padded (by decide : 0 < 2) (n := (t.seconds % 86400).toNat % 60)
    (by omega)
  have hzone : offset? (trimStart ['Z']) = some (0, []) := rfl
  simp only [year?_renderYear h.year_mem, mark?_cons (by decide : isBlank '-' = false),
    mark?_cons (by decide : isBlank ':' = false), hmonth, hday, hhour, hminute, hsecond,
    fraction?_renderFraction hnanos, hzone, bind, Option.bind]
  rw [if_pos (by decide), if_pos (by decide)]
  exact h.ofLocal?_eq

example : (⟨951786061, 5000, by decide⟩ : Timestamp).render = "2000-02-29T01:01:01.000005Z" := by
  decide +kernel

end TradeIntake.Timestamp
