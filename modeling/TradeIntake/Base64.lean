/-!
# Base64

The standard alphabet with required padding, as bytes. `encode` writes; `decode` is strict: it
reads what `encode` writes and nothing else, and a fault names the first byte in the way.

Reading works on groups of four. Every group but the last holds four symbols. The last one holds
two symbols or more, then padding up to four, and the bits that stand for no byte are zero.

Stands for the engine that `decode_base64` (`crates/ingest/src/decode.rs`) decodes with.

* **`value?_symbol`**: a written symbol reads back.
-/

namespace TradeIntake.Base64

/-- Why bytes are no base64. Offsets count from zero. -/
inductive Fault where
  | invalidSymbol (byte : UInt8) (offset : Nat)
  | invalidLastSymbol (byte : UInt8) (offset : Nat)
  | invalidLength (length : Nat)
  | invalidPadding
  deriving Repr, DecidableEq

/-- The wording of a fault. -/
def Fault.message : Fault → String
  | .invalidSymbol byte offset => s!"Invalid symbol {byte.toNat}, offset {offset}."
  | .invalidLastSymbol byte offset => s!"Invalid last symbol {byte.toNat}, offset {offset}."
  | .invalidLength length => s!"Invalid input length: {length}"
  | .invalidPadding => "Invalid padding"

/-- The padding byte, an equals sign. -/
def pad : UInt8 := 0x3D

/-- The symbol of a number below sixty-four. -/
def symbol (n : Nat) : UInt8 :=
  let n := n % 64
  if n < 26 then UInt8.ofNat (0x41 + n)
  else if n < 52 then UInt8.ofNat (0x61 + (n - 26))
  else if n < 62 then UInt8.ofNat (0x30 + (n - 52))
  else if n = 62 then 0x2B else 0x2F

/-- The number that a symbol stands for. -/
def value? (b : UInt8) : Option Nat :=
  if 0x41 ≤ b && b ≤ 0x5A then some (b.toNat - 0x41)
  else if 0x61 ≤ b && b ≤ 0x7A then some (b.toNat - 0x61 + 26)
  else if 0x30 ≤ b && b ≤ 0x39 then some (b.toNat - 0x30 + 52)
  else if b == 0x2B then some 62
  else if b == 0x2F then some 63
  else none

theorem value?_symbol (n : Nat) : value? (symbol n) = some (n % 64) := by
  have key : ∀ d, d < 64 → value? (symbol d) = some d := by decide
  have hs : symbol n = symbol (n % 64) := by simp [symbol]
  rw [hs, key _ (Nat.mod_lt _ (by decide))]

/-! ## Writing -/

/-- The padded symbols of the bytes. -/
def encode : List UInt8 → List UInt8
  | a :: b :: c :: rest =>
    let n := a.toNat * 65536 + b.toNat * 256 + c.toNat
    symbol (n / 262144) :: symbol (n / 4096) :: symbol (n / 64) :: symbol n :: encode rest
  | [a, b] =>
    let n := a.toNat * 1024 + b.toNat * 4
    [symbol (n / 4096), symbol (n / 64), symbol n, pad]
  | [a] =>
    let n := a.toNat * 16
    [symbol (n / 64), symbol n, pad, pad]
  | [] => []

/-! ## Reading -/

/-- The number that the symbol at `offset` stands for. -/
def valueAt (offset : Nat) (b : UInt8) : Except Fault Nat :=
  match value? b with
  | some n => .ok n
  | none => .error (.invalidSymbol b offset)

/-- The three bytes of four symbol values, the last byte first, in front of `acc`. -/
def pushBytes (p q r s : Nat) (acc : List UInt8) : List UInt8 :=
  UInt8.ofNat (r * 64 + s) :: UInt8.ofNat (q * 16 + r / 4) :: UInt8.ofNat (p * 4 + q / 16) :: acc

/-- The symbol values of the last group from its position `at` on, with the number of padding
bytes after them. -/
def lastValues (offset position : Nat) : List UInt8 → Except Fault (List Nat × Nat)
  | [] => .ok ([], 0)
  | b :: rest =>
    if b == pad then
      if position < 2 then .error (.invalidSymbol pad (offset + position))
      else if rest.all (· == pad) then .ok ([], rest.length + 1)
      else .error (.invalidSymbol pad (offset + position))
    else do
      let n ← valueAt (offset + position) b
      let (ns, padding) ← lastValues offset (position + 1) rest
      return (n :: ns, padding)

/-- The bytes of the last group, the last one first, in front of `acc`. -/
def decodeLast (offset : Nat) (group acc : List UInt8) : Except Fault (List UInt8) := do
  let (ns, padding) ← lastValues offset 0 group
  if ns.length < 2 then throw (.invalidLength (offset + ns.length))
  if ns.length + padding ≠ 4 then throw .invalidPadding
  let faultAt (i : Nat) : Fault := .invalidLastSymbol (group.getD i 0) (offset + i)
  match ns with
  | [p, q] => if q % 16 = 0 then return UInt8.ofNat (p * 4 + q / 16) :: acc else throw (faultAt 1)
  | [p, q, r] =>
    if r % 4 = 0 then
      return UInt8.ofNat (q * 16 + r / 4) :: UInt8.ofNat (p * 4 + q / 16) :: acc
    else throw (faultAt 2)
  | [p, q, r, s] => return pushBytes p q r s acc
  | _ => throw .invalidPadding

/-- Read the groups from `offset` on; `acc` holds the bytes so far, the last one first. -/
def decodeGroups (offset : Nat) : List UInt8 → List UInt8 → Except Fault (List UInt8)
  | a :: b :: c :: d :: e :: rest, acc => do
    let p ← valueAt offset a
    let q ← valueAt (offset + 1) b
    let r ← valueAt (offset + 2) c
    let s ← valueAt (offset + 3) d
    decodeGroups (offset + 4) (e :: rest) (pushBytes p q r s acc)
  | last, acc => decodeLast offset last acc

/-- A symbol that can start no group: one byte too many, and that byte is no symbol. -/
def strayLast? (symbols : List UInt8) : Option Fault :=
  if symbols.length % 4 = 1 then
    symbols.getLast?.bind fun b =>
      if b == pad || (value? b).isSome then none
      else some (.invalidSymbol b (symbols.length - 1))
  else none

/-- The bytes that the symbols stand for. -/
def decode (symbols : List UInt8) : Except Fault (List UInt8) :=
  if symbols.isEmpty then .ok []
  else match strayLast? symbols with
    | some fault => .error fault
    | none => (decodeGroups 0 symbols []).map List.reverse

end TradeIntake.Base64
