import TradeIntake.Text.Hex

/-!
# SHA-256

The digest of FIPS 180-4 over bytes. A message is padded to whole blocks of sixteen words; each
block is stretched to a schedule of sixty-four words, and one round per word stirs the state.

Model of `fingerprint` (`crates/dedup/src/hash.rs`) with the digest that it takes from a library.

* **`digest_length`**: a digest has thirty-two bytes.
-/

namespace TradeIntake.Sha256

/-- The eight words that a digest is made of. -/
structure State where
  a : UInt32
  b : UInt32
  c : UInt32
  d : UInt32
  e : UInt32
  f : UInt32
  g : UInt32
  h : UInt32

/-- The state before the first block. -/
def initial : State :=
  ⟨0x6a09e667, 0xbb67ae85, 0x3c6ef372, 0xa54ff53a, 0x510e527f, 0x9b05688c, 0x1f83d9ab, 0x5be0cd19⟩

/-- The constant of each round. -/
def roundConstants : List UInt32 := [
  0x428a2f98, 0x71374491, 0xb5c0fbcf, 0xe9b5dba5, 0x3956c25b, 0x59f111f1, 0x923f82a4, 0xab1c5ed5,
  0xd807aa98, 0x12835b01, 0x243185be, 0x550c7dc3, 0x72be5d74, 0x80deb1fe, 0x9bdc06a7, 0xc19bf174,
  0xe49b69c1, 0xefbe4786, 0x0fc19dc6, 0x240ca1cc, 0x2de92c6f, 0x4a7484aa, 0x5cb0a9dc, 0x76f988da,
  0x983e5152, 0xa831c66d, 0xb00327c8, 0xbf597fc7, 0xc6e00bf3, 0xd5a79147, 0x06ca6351, 0x14292967,
  0x27b70a85, 0x2e1b2138, 0x4d2c6dfc, 0x53380d13, 0x650a7354, 0x766a0abb, 0x81c2c92e, 0x92722c85,
  0xa2bfe8a1, 0xa81a664b, 0xc24b8b70, 0xc76c51a3, 0xd192e819, 0xd6990624, 0xf40e3585, 0x106aa070,
  0x19a4c116, 0x1e376c08, 0x2748774c, 0x34b0bcb5, 0x391c0cb3, 0x4ed8aa4a, 0x5b9cca4f, 0x682e6ff3,
  0x748f82ee, 0x78a5636f, 0x84c87814, 0x8cc70208, 0x90befffa, 0xa4506ceb, 0xbef9a3f7, 0xc67178f2]

/-- Rotate right. -/
def rotr (x : UInt32) (n : UInt32) : UInt32 :=
  (x >>> n) ||| (x <<< (32 - n))

/-- The schedule word after `w`, of which it reads the second, seventh, fifteenth and sixteenth
from the end. -/
def nextWord (w : Array UInt32) : UInt32 :=
  let back (i : Nat) : UInt32 := w.getD (w.size - i) 0
  let x := back 15
  let y := back 2
  let s0 := rotr x 7 ^^^ rotr x 18 ^^^ (x >>> 3)
  let s1 := rotr y 17 ^^^ rotr y 19 ^^^ (y >>> 10)
  back 16 + s0 + back 7 + s1

/-- The sixty-four words of a block of sixteen. -/
def schedule (block : Array UInt32) : Array UInt32 :=
  (List.range 48).foldl (fun w _ => w.push (nextWord w)) block

/-- One round, with the sum of its constant and its schedule word. -/
def round (s : State) (kw : UInt32) : State :=
  let s1 := rotr s.e 6 ^^^ rotr s.e 11 ^^^ rotr s.e 25
  let choice := (s.e &&& s.f) ^^^ ((~~~ s.e) &&& s.g)
  let t1 := s.h + s1 + choice + kw
  let s0 := rotr s.a 2 ^^^ rotr s.a 13 ^^^ rotr s.a 22
  let majority := (s.a &&& s.b) ^^^ (s.a &&& s.c) ^^^ (s.b &&& s.c)
  ⟨t1 + s0 + majority, s.a, s.b, s.c, s.d + t1, s.e, s.f, s.g⟩

/-- Stir one block into the state. -/
def compress (s : State) (block : Array UInt32) : State :=
  let t := (List.zipWith (· + ·) roundConstants (schedule block).toList).foldl round s
  ⟨s.a + t.a, s.b + t.b, s.c + t.c, s.d + t.d, s.e + t.e, s.f + t.f, s.g + t.g, s.h + t.h⟩

/-- The big-endian bytes of a number, `n` of them. -/
def bigEndian (n value : Nat) : List UInt8 :=
  (List.range n).map fun i => UInt8.ofNat (value >>> (8 * (n - 1 - i)))

/-- The message, a one bit, zeros up to a whole block, and the length in bits. -/
def padded (message : List UInt8) : List UInt8 :=
  let n := message.length
  message ++ 0x80 :: List.replicate ((119 - n % 64) % 64) 0 ++ bigEndian 8 (8 * n)

/-- Where the reading of a message stands: the state, the part of a word and the part of a block
read since. -/
structure Absorbing where
  state : State
  word : UInt32
  bytes : Nat
  block : Array UInt32

/-- Take in one byte. -/
def Absorbing.push (r : Absorbing) (b : UInt8) : Absorbing :=
  let word := (r.word <<< 8) ||| UInt32.ofNat b.toNat
  if r.bytes < 3 then { r with word, bytes := r.bytes + 1 }
  else
    let block := r.block.push word
    if block.size < 16 then { r with word := 0, bytes := 0, block }
    else ⟨compress r.state block, 0, 0, #[]⟩

/-- The bytes of the eight words. -/
def State.bytes (s : State) : List UInt8 :=
  [s.a, s.b, s.c, s.d, s.e, s.f, s.g, s.h].flatMap fun w => bigEndian 4 w.toNat

/-- The digest of a message. -/
def digest (message : List UInt8) : List UInt8 :=
  ((padded message).foldl Absorbing.push ⟨initial, 0, 0, #[]⟩).state.bytes

theorem digest_length (message : List UInt8) : (digest message).length = 32 := by
  simp [digest, State.bytes, bigEndian]

end TradeIntake.Sha256

namespace TradeIntake

/-- The fingerprint of decoded content: its SHA-256 digest in lower-case hexadecimal. -/
def fingerprint (bytes : List UInt8) : String :=
  String.ofList (Text.Hex.ofBytes (Sha256.digest bytes))

end TradeIntake
