import TradeIntake.Timestamp

/-!
# The calendar

The days are counted in cycles of 400 years, which are counted in centuries, fours and single years
(`InCycles`). From that decomposition it is read off that every day is a day of the calendar, and
that its date counts the same day again.

* **`toDays_ofDays`**, **`isValid_ofDays`**: the date of a day.
* **`year_ofDays_mem_iff`**: the days of the years that are written without a sign.
-/

namespace TradeIntake.Timestamp

/-- The date of a day of a year that starts in March, both counted from zero. -/
def Date.ofMarch (year : Int) (n : Nat) : Date :=
  let month := (5 * n + 2) / 153
  let day := n - (153 * month + 2) / 5 + 1
  if month < 10 then ⟨year, month + 3, day⟩ else ⟨year + 1, month - 9, day⟩

/-- **A day in its cycles**: of 400 years, of 100, of 4 and of one, and which day it is then. Only the
last year of four has a 366th day, and the last year of a century only if it ends a cycle. -/
structure InCycles (days cycle century four one : Int) (n : Nat) : Prop where
  century_mem : 0 ≤ century ∧ century ≤ 3
  four_mem : 0 ≤ four ∧ four ≤ 24
  one_mem : 0 ≤ one ∧ one ≤ 3
  day_mem : n < 365 ∨ n = 365 ∧ one = 3 ∧ (four = 24 → century = 3)
  sum : days + epochDay = 146097 * cycle + 36524 * century + 1461 * four + 365 * one + n

theorem exists_inCycles (days : Int) :
    ∃ cycle century four one n, InCycles days cycle century four one n ∧
      Date.ofDays days = .ofMarch (400 * cycle + 100 * century + 4 * four + one) n := by
  refine ⟨_, _, _, _, _, ⟨?_, ?_, ?_, ?_, ?_⟩, rfl⟩
  · omega
  · omega
  · omega
  · omega
  · omega

/-- Days of a date of a year that starts in March. -/
theorem toDays_ofMarch (year : Int) {n : Nat} (hn : n ≤ 365) :
    (Date.ofMarch year n).toDays =
      year * 365 + year / 4 - year / 100 + year / 400 + n - epochDay := by
  unfold Date.ofMarch
  dsimp only
  split
  · simp only [Date.toDays]
    rw [if_neg (by omega), if_neg (by omega)]
    omega
  · simp only [Date.toDays]
    rw [if_pos (by omega), if_pos (by omega)]
    omega

theorem toDays_ofDays (days : Int) : (Date.ofDays days).toDays = days := by
  obtain ⟨cycle, century, four, one, n, h, hd⟩ := exists_inCycles days
  obtain ⟨hc, hf, ho, hn, hsum⟩ := h
  rw [hd, toDays_ofMarch _ (by omega)]
  omega

/-- Every day of a year that starts in March is a day of the calendar, the 366th in leap years. -/
theorem isValid_ofMarch {year : Int} {n : Nat}
    (hn : n < 365 ∨ n = 365 ∧ isLeapYear (year + 1) = true) :
    (Date.ofMarch year n).isValid = true := by
  simp only [Date.isValid, Bool.and_eq_true, decide_eq_true_eq]
  unfold Date.ofMarch
  dsimp only
  split
  · simp only [daysInMonth]
    rw [if_neg (by omega)]
    refine ⟨⟨⟨by omega, by omega⟩, by omega⟩, ?_⟩
    split <;> omega
  · simp only [daysInMonth]
    refine ⟨⟨⟨by omega, by omega⟩, by omega⟩, ?_⟩
    split
    · rcases hn with hn | ⟨hn, hleap⟩
      · split <;> omega
      · rw [if_pos hleap]
        omega
    · split <;> omega

/-- **Every day is a day of the calendar.** -/
theorem isValid_ofDays (days : Int) : (Date.ofDays days).isValid = true := by
  obtain ⟨cycle, century, four, one, n, h, hd⟩ := exists_inCycles days
  rw [hd]
  refine isValid_ofMarch (h.day_mem.imp_right fun ⟨hn, ho, hf⟩ => ⟨hn, ?_⟩)
  obtain ⟨hc, hf', -, -, -⟩ := h
  simp only [isLeapYear, Bool.and_eq_true, Bool.or_eq_true, beq_iff_eq, bne_iff_ne, ne_eq]
  omega

/-- The years from 0 to 9999 are so many days. -/
theorem year_ofDays_mem_iff (days : Int) :
    (0 ≤ (Date.ofDays days).year ∧ (Date.ofDays days).year ≤ 9999) ↔
      -719528 ≤ days ∧ days ≤ 2932896 := by
  obtain ⟨cycle, century, four, one, n, h, hd⟩ := exists_inCycles days
  obtain ⟨hc, hf, ho, hn, hsum⟩ := h
  simp only [epochDay] at hsum
  -- year 9999 is the last of the twenty-fifth cycle but for its last two months
  have hcycle : cycle < 0 ∨ 0 ≤ cycle ∧ cycle < 25 ∨ 25 ≤ cycle := by omega
  rw [hd]
  unfold Date.ofMarch
  dsimp only
  split
  · have hn' : n ≤ 305 := by omega
    dsimp only
    rcases hcycle with h | h | h <;> omega
  · have hn' : 306 ≤ n := by omega
    dsimp only
    rcases hcycle with h | h | h <;> omega

end TradeIntake.Timestamp
