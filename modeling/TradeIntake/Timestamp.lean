/-!
# Points in time

A timestamp counts whole seconds since the epoch and nanoseconds within the second. Nanoseconds
from 10⁹ on belong to a leap second, which is counted with the second before it. Timestamps are
ordered by second, then by nanosecond; `rank` is that order as one integer.

The calendar is proleptic Gregorian. Its years are counted from the first of March, so that a leap
day is the last day of its year.

Stands for the times that `src/pipeline.rs` takes and that `window_start`
(`crates/dedup/src/checker.rs`) subtracts from.

* **`le_iff`**: the order is that of the pairs.
* **`eq_of_rank_eq`**: two timestamps of one rank are equal.
-/

namespace TradeIntake

/-- A point in time. -/
structure Timestamp where
  seconds : Int
  nanos : Nat
  nanos_lt : nanos < 2000000000
  deriving Repr, DecidableEq

namespace Timestamp

/-- The place of a timestamp in the order. -/
def rank (t : Timestamp) : Int :=
  t.seconds * 2000000000 + t.nanos

instance : LE Timestamp := ⟨fun s t => s.rank ≤ t.rank⟩

instance : LT Timestamp := ⟨fun s t => s.rank < t.rank⟩

instance (s t : Timestamp) : Decidable (s ≤ t) :=
  inferInstanceAs (Decidable (s.rank ≤ t.rank))

instance (s t : Timestamp) : Decidable (s < t) :=
  inferInstanceAs (Decidable (s.rank < t.rank))

theorem le_iff (s t : Timestamp) :
    s ≤ t ↔ s.seconds < t.seconds ∨ s.seconds = t.seconds ∧ s.nanos ≤ t.nanos := by
  have hs := s.nanos_lt
  have ht := t.nanos_lt
  change s.rank ≤ t.rank ↔ _
  simp only [rank]
  omega

theorem eq_of_rank_eq {s t : Timestamp} (h : s.rank = t.rank) : s = t := by
  have hs := s.nanos_lt
  have ht := t.nanos_lt
  simp only [rank] at h
  obtain ⟨a, m, _⟩ := s
  obtain ⟨b, n, _⟩ := t
  simp only at h hs ht
  obtain rfl : a = b := by omega
  obtain rfl : m = n := by omega
  rfl

/-- A whole second. -/
def ofSeconds (seconds : Int) : Timestamp :=
  ⟨seconds, 0, by decide⟩

/-- A number of nanoseconds since the epoch. -/
def ofNanos (n : Int) : Timestamp :=
  ⟨n / 1000000000, (n % 1000000000).toNat, by omega⟩

/-- The first second that can be represented, the start of the year -262143. -/
def firstSecond : Int := -8334601228800

/-- The last second that can be represented, the end of the year 262142. -/
def lastSecond : Int := 8210266876799

/-- The earliest timestamp. -/
def earliest : Timestamp := ofSeconds firstSecond

/-- The longest span of whole seconds, 2⁶³ - 1 milliseconds cut to seconds. -/
def longestSpan : Nat := 9223372036854775

/-- The timestamp so many seconds before, when both the span and the answer can be represented. -/
def minusSeconds? (t : Timestamp) (span : Nat) : Option Timestamp :=
  if span ≤ longestSpan ∧ firstSecond ≤ t.seconds - span then
    some { t with seconds := t.seconds - span }
  else none

/-! ## The calendar -/

/-- A day of the calendar. -/
structure Date where
  year : Int
  month : Nat
  day : Nat
  deriving Repr, DecidableEq

/-- The year has a leap day. -/
def isLeapYear (year : Int) : Bool :=
  year % 4 == 0 && (year % 100 != 0 || year % 400 == 0)

/-- How many days a month has. -/
def daysInMonth (year : Int) (month : Nat) : Nat :=
  if month = 2 then (if isLeapYear year then 29 else 28)
  else if month = 4 ∨ month = 6 ∨ month = 9 ∨ month = 11 then 30 else 31

/-- The month and the day exist in that year. -/
def Date.isValid (d : Date) : Bool :=
  1 ≤ d.month && d.month ≤ 12 && 1 ≤ d.day && d.day ≤ daysInMonth d.year d.month

/-- Days from the first of March of the year 0 to the epoch. -/
def epochDay : Int := 719468

/-- Days from the epoch to a date. -/
def Date.toDays (d : Date) : Int :=
  let year := if d.month ≤ 2 then d.year - 1 else d.year
  let month := if d.month ≤ 2 then d.month + 9 else d.month - 3
  let inYear : Int := ((153 * month + 2) / 5 + d.day : Nat) - 1
  year * 365 + year / 4 - year / 100 + year / 400 + inYear - epochDay

/-- The date so many days from the epoch. -/
def Date.ofDays (days : Int) : Date :=
  let n := days + epochDay
  let cycle := n / 146097
  let n := n % 146097
  let century := min (n / 36524) 3
  let n := n - 36524 * century
  let four := n / 1461
  let n := n % 1461
  let one := min (n / 365) 3
  let n := (n - 365 * one).toNat
  let year := 400 * cycle + 100 * century + 4 * four + one
  let month := (5 * n + 2) / 153
  let day := n - (153 * month + 2) / 5 + 1
  if month < 10 then ⟨year, month + 3, day⟩ else ⟨year + 1, month - 9, day⟩

end Timestamp
end TradeIntake
