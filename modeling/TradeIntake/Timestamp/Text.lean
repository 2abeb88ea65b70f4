import TradeIntake.Text.Blank
import TradeIntake.Text.Decimal
import TradeIntake.Timestamp

/-!
# Timestamps as text

`render` writes RFC 3339 in UTC, with a fraction of 0, 3, 6 or 9 digits, the fewest that are
exact. A year outside 0 … 9999 carries its sign.

`parse?` reads a date, one `T`, `t` or space, a time with seconds, and an offset. It is more lenient
than the standard: blanks may stand before a number or a mark, a part may have one digit, a fraction
any number of digits of which nine count, and `UTC` or a lower-case `z` may stand for the offset.
Second 60 is a leap second.

Stands for how the times of `src/result.rs` and `src/entity.rs` are written and read.
-/

namespace TradeIntake.Timestamp

open TradeIntake.Text

/-! ## Writing -/

/-- The digits after the point, with the point. -/
def renderFraction (nanos : Nat) : List Char :=
  if nanos = 0 then []
  else if nanos % 1000000 = 0 then '.' :: Decimal.padded 3 (nanos / 1000000)
  else if nanos % 1000 = 0 then '.' :: Decimal.padded 6 (nanos / 1000)
  else '.' :: Decimal.padded 9 nanos

/-- The year, signed outside 0 … 9999. -/
def renderYear (year : Int) : List Char :=
  if year < 0 then '-' :: Decimal.padded 4 year.natAbs
  else if 9999 < year then '+' :: Decimal.padded 4 year.natAbs
  else Decimal.padded 4 year.natAbs

/-- The characters of a timestamp. -/
def renderList (t : Timestamp) : List Char :=
  let date := Date.ofDays (t.seconds / 86400)
  let second := (t.seconds % 86400).toNat
  let leap := if 1000000000 ≤ t.nanos then 1 else 0
  renderYear date.year ++ '-' :: Decimal.padded 2 date.month ++ '-' :: Decimal.padded 2 date.day ++
    'T' :: Decimal.padded 2 (second / 3600) ++ ':' :: Decimal.padded 2 (second / 60 % 60) ++
    ':' :: Decimal.padded 2 (second % 60 + leap) ++ renderFraction (t.nanos % 1000000000) ++ ['Z']

/-- The text of a timestamp. -/
def render (t : Timestamp) : String :=
  String.ofList t.renderList

/-! ## Reading -/

/-- A number of one to `width` digits after blanks, and what follows it. -/
def number? (width : Nat) (cs : List Char) : Option (Nat × List Char) :=
  let cs := trimStart cs
  let digits := (cs.take width).takeWhile Char.isDigit
  (Decimal.ofDigits? digits).map fun n => (n, cs.drop digits.length)

/-- A year: up to four digits, or any number of them after a sign. -/
def year? (cs : List Char) : Option (Int × List Char) :=
  match trimStart cs with
  | '-' :: cs => signed cs fun n => -n
  | '+' :: cs => signed cs fun n => n
  | cs => (number? 4 cs).map fun (n, rest) => ((n : Int), rest)
where
  /-- Digits right after the sign. -/
  signed (cs : List Char) (sign : Int → Int) : Option (Int × List Char) :=
    let (digits, rest) := cs.span Char.isDigit
    (Decimal.ofDigits? digits).map fun n => (sign n, rest)

/-- A mark after blanks. -/
def mark? (c : Char) (cs : List Char) : Option (List Char) :=
  match trimStart cs with
  | d :: rest => if d == c then some rest else none
  | [] => none

/-- The nanoseconds of an optional fraction. -/
def fraction? : List Char → Option (Nat × List Char)
  | '.' :: cs =>
    let (digits, rest) := cs.span Char.isDigit
    let used := digits.take 9
    (Decimal.ofDigits? used).map fun n => (n * Nat.pow 10 (9 - used.length), rest)
  | cs => some (0, cs)

/-- Hours and minutes of an offset, as seconds; colons and blanks may stand between them. -/
def offsetSeconds? : List Char → Option (Nat × List Char)
  | a :: b :: cs =>
    if a.isDigit && b.isDigit then
      match cs.dropWhile fun c => c == ':' || isBlank c with
      | c :: d :: rest =>
        if c.isDigit && d.isDigit then do
          let hours ← Decimal.ofDigits? [a, b]
          let minutes ← Decimal.ofDigits? [c, d]
          if minutes < 60 && hours < 24 then some (hours * 3600 + minutes * 60, rest) else none
        else none
      | _ => none
    else none
  | _ => none

/-- An offset from UTC in seconds. -/
def offset? : List Char → Option (Int × List Char)
  | 'Z' :: cs => some (0, cs)
  | 'z' :: cs => some (0, cs)
  | '+' :: cs => (offsetSeconds? cs).map fun (n, rest) => ((n : Int), rest)
  | '-' :: cs => (offsetSeconds? cs).map fun (n, rest) => (-(n : Int), rest)
  | '\u2212' :: cs => (offsetSeconds? cs).map fun (n, rest) => (-(n : Int), rest)
  | u :: t :: c :: cs =>
    if [u, t, c].map Char.toLower == ['u', 't', 'c'] then some (0, cs) else none
  | _ => none

/-- A local time of day on a date as a timestamp. -/
def ofLocal? (date : Date) (hour minute second nanos : Nat) (offset : Int) : Option Timestamp :=
  if date.isValid ∧ -262143 ≤ date.year ∧ date.year ≤ 262142 ∧ hour < 24 ∧ minute < 60 ∧
      second ≤ 60 then
    let leap : Nat := if second = 60 then 1 else 0
    let inDay : Nat := hour * 3600 + minute * 60 + (second - leap)
    let seconds := date.toDays * 86400 + inDay - offset
    if firstSecond ≤ seconds ∧ seconds ≤ lastSecond then
      if h : nanos + leap * 1000000000 < 2000000000 then
        some ⟨seconds, nanos + leap * 1000000000, h⟩
      else none
    else none
  else none

/-- The timestamp that the characters stand for. -/
def parseList? (cs : List Char) : Option Timestamp := do
  let (year, cs) ← year? cs
  let cs ← mark? '-' cs
  let (month, cs) ← number? 2 cs
  let cs ← mark? '-' cs
  let (day, cs) ← number? 2 cs
  let cs ← match cs with
    | c :: cs => if c == 'T' || c == 't' || c == ' ' then some cs else none
    | [] => none
  let (hour, cs) ← number? 2 cs
  let cs ← mark? ':' cs
  let (minute, cs) ← number? 2 cs
  let cs ← mark? ':' cs
  let (second, cs) ← number? 2 cs
  let (nanos, cs) ← fraction? cs
  let (offset, cs) ← offset? (trimStart cs)
  if (trimStart cs).isEmpty then ofLocal? ⟨year, month, day⟩ hour minute second nanos offset
  else none

/-- The timestamp that a text stands for. -/
def parse? (s : String) : Option Timestamp :=
  parseList? s.toList

end TradeIntake.Timestamp
