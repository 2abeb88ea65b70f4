import Mathlib.Order.Basic
import TradeIntake.DuplicateCheck

/-!
# Timestamps are linearly ordered

The order of timestamps is that of their ranks, so it is linear. The start of a window follows the
end of it:

* **`windowStart_mono`**: a window of the same length that ends later starts no earlier. Windows
  that reach back beyond what can be represented all start at the earliest timestamp.
* **`windowStart_anti`**: a longer window that ends at the same time starts no later.
* **`windowStart_mem`**: the start of a window can be represented when its end can.
* **`windowStart_le_iff`**: what was received in a window was received so many seconds ago at most.
-/

namespace TradeIntake

namespace Timestamp

theorem le_iff_rank (s t : Timestamp) : s ≤ t ↔ s.rank ≤ t.rank := Iff.rfl

instance : LinearOrder Timestamp where
  le_refl t := Int.le_refl t.rank
  le_trans _ _ _ := Int.le_trans
  lt_iff_le_not_ge _ _ := Int.lt_iff_le_and_not_ge
  le_antisymm _ _ h h' := eq_of_rank_eq (Int.le_antisymm h h')
  le_total s t := Int.le_total s.rank t.rank
  toDecidableLE := inferInstance
  toDecidableLT := inferInstance

end Timestamp

open Timestamp

/-- **A window that ends later starts no earlier.** -/
theorem windowStart_mono {now later : Timestamp} (h : now ≤ later) (w : Nat) :
    windowStart now w ≤ windowStart later w := by
  rw [le_iff] at h ⊢
  simp only [windowStart_eq]
  split
  · rw [if_pos (by omega)]
    simp only
    omega
  · split
    · simp only [earliest, ofSeconds]
      omega
    · exact Or.inr ⟨rfl, Nat.le_refl _⟩

/-- **A longer window starts no later.** -/
theorem windowStart_anti (now : Timestamp) {w longer : Nat} (h : w ≤ longer) :
    windowStart now longer ≤ windowStart now w := by
  rw [le_iff]
  simp only [windowStart_eq]
  split
  · rw [if_pos (by omega)]
    simp only
    omega
  · split
    · simp only [earliest, ofSeconds]
      omega
    · exact Or.inr ⟨rfl, Nat.le_refl _⟩

/-- **A window starts no later than it ends**, at a time that can be represented. -/
theorem windowStart_mem {now : Timestamp} (h : firstSecond ≤ now.seconds) (w : Nat) :
    earliest ≤ windowStart now w ∧ windowStart now w ≤ now := by
  simp only [le_iff, windowStart_eq]
  split
  · simp only [earliest, ofSeconds]
    omega
  · refine ⟨Or.inr ⟨rfl, Nat.le_refl _⟩, ?_⟩
    simp only [earliest, ofSeconds]
    omega

/-- **A window reaches back so many seconds**, among the timestamps that can be represented. -/
theorem windowStart_le_iff {now t : Timestamp} (hn : now.seconds ≤ lastSecond)
    (ht : firstSecond ≤ t.seconds) (w : Nat) :
    windowStart now w ≤ t ↔ now.rank ≤ t.rank + w * 2000000000 := by
  have hnn := now.nanos_lt
  rw [le_iff_rank, windowStart_eq]
  by_cases hw : w ≤ longestSpan ∧ firstSecond ≤ now.seconds - w
  · rw [if_pos hw]
    simp only [rank]
    omega
  · rw [if_neg hw]
    simp only [longestSpan, firstSecond, lastSecond, not_and_or] at hn ht hw
    refine iff_of_true ?_ ?_
    · simp only [rank, earliest, ofSeconds, firstSecond]
      omega
    · simp only [rank]
      omega

end TradeIntake
