import TradeIntake.Text.Hex

/-!
# Processing ids

A processing id is a random identifier of version 4: sixteen bytes in hexadecimal digits, in groups
of four, two, two, two and six bytes, of which six bits are fixed.

Stands for the library that `process` (`src/pipeline.rs`) takes the id of a message from.

* **`length_ofBytes`**: sixteen bytes make thirty-six characters.
-/

namespace TradeIntake.ProcessingId

/-- Fix the version in byte 6 and the variant in byte 8. -/
def mark (bytes : List UInt8) : List UInt8 :=
  (bytes.modify 6 fun b => b % 16 + 0x40).modify 8 fun b => b % 64 + 0x80

/-- Groups of so many bytes, in digits. -/
def groups : List Nat → List UInt8 → List (List Char)
  | [], _ => []
  | n :: ns, bytes => Text.Hex.ofBytes (bytes.take n) :: groups ns (bytes.drop n)

/-- The characters of the id of sixteen random bytes. -/
def ofBytesList (bytes : List UInt8) : List Char :=
  ['-'].intercalate (groups [4, 2, 2, 2, 6] (mark bytes))

/-- The id of sixteen random bytes. -/
def ofBytes (bytes : List UInt8) : String :=
  String.ofList (ofBytesList bytes)

theorem length_ofBytes {bytes : List UInt8} (h : bytes.length = 16) :
    (ofBytesList bytes).length = 36 := by
  have hm : (mark bytes).length = 16 := by simp [mark, h]
  simp [ofBytesList, groups, List.intercalate, List.intersperse, Text.Hex.length_ofBytes, hm]

end TradeIntake.ProcessingId
