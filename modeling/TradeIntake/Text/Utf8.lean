/-!
# Reading UTF-8

`decode` turns bytes into characters. A fault names the byte index of the first bad sequence: how
long its longest valid beginning is, or that the input ends inside a sequence that was valid so
far.

Stands for the check of UTF-8 that `parse_xml` (`crates/ingest/src/document.rs`) makes.
-/

namespace TradeIntake.Text.Utf8

/-- Why bytes are not UTF-8. -/
inductive Fault where
  /-- The sequence at `index` is bad; its longest valid beginning has `length` bytes. -/
  | invalid (index length : Nat)
  /-- The input ends inside the sequence that starts at `index`. -/
  | incomplete (index : Nat)
  deriving Repr, DecidableEq

/-- The wording of a fault. -/
def Fault.message : Fault → String
  | .invalid index length => s!"invalid utf-8 sequence of {length} bytes from index {index}"
  | .incomplete index => s!"incomplete utf-8 byte sequence from index {index}"

/-- The lowest and the highest byte that may follow a lead byte, and how many bytes follow. -/
def follow (lead : UInt8) : Option (Nat × UInt8 × UInt8) :=
  if 0xC2 ≤ lead && lead ≤ 0xDF then some (1, 0x80, 0xBF)
  else if lead == 0xE0 then some (2, 0xA0, 0xBF)
  else if lead == 0xED then some (2, 0x80, 0x9F)
  else if 0xE1 ≤ lead && lead ≤ 0xEF then some (2, 0x80, 0xBF)
  else if lead == 0xF0 then some (3, 0x90, 0xBF)
  else if 0xF1 ≤ lead && lead ≤ 0xF3 then some (3, 0x80, 0xBF)
  else if lead == 0xF4 then some (3, 0x80, 0x8F)
  else none

/-- Where a reading stands: between characters, or inside a sequence. -/
inductive State where
  | between
  /-- `seen` bytes of a sequence read, `left` still to come, the next one in `low … high`. -/
  | inside (seen left : Nat) (low high : UInt8) (bits : Nat)

/-- Read on from byte `index`; `acc` holds the characters so far, the last one first. -/
def decodeFrom (index : Nat) : State → List UInt8 → List Char → Except Fault (List Char)
  | .between, [], acc => .ok acc.reverse
  | .inside seen _ _ _ _, [], _ => .error (.incomplete (index - seen))
  | .between, b :: rest, acc =>
    if b < 0x80 then decodeFrom (index + 1) .between rest (Char.ofNat b.toNat :: acc)
    else match follow b with
      | none => .error (.invalid index 1)
      | some (left, low, high) =>
        let mask := if left = 1 then 0x20 else if left = 2 then 0x10 else 0x08
        decodeFrom (index + 1) (.inside 1 left low high (b.toNat % mask)) rest acc
  | .inside seen left low high bits, b :: rest, acc =>
    if low ≤ b && b ≤ high then
      let bits := bits * 64 + b.toNat % 64
      if left ≤ 1 then decodeFrom (index + 1) .between rest (Char.ofNat bits :: acc)
      else decodeFrom (index + 1) (.inside (seen + 1) (left - 1) 0x80 0xBF bits) rest acc
    else .error (.invalid (index - seen) seen)

/-- The characters that the bytes encode. -/
def decode (bytes : List UInt8) : Except Fault (List Char) :=
  decodeFrom 0 .between bytes []

/-- The bytes of a text. -/
def encode (s : String) : List UInt8 :=
  s.toUTF8.data.toList

end TradeIntake.Text.Utf8
