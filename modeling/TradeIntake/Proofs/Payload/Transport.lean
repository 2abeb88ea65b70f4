import Mathlib.Algebra.Group.Nat.Defs
import TradeIntake.Payload
import TradeIntake.Proofs.Payload.Base64

/-!
# Payloads travel exactly

A text carries bytes when the characters left without the blanks are their padded base64. What
decoding does with a text depends on those characters alone: bytes within the limit come back, more
of them are refused, by the estimate before decoding or by their number after it, and nothing else
is accepted.

* **`symbols_eq`**: the bytes of a text that are looked at are the bytes of the characters left.
* **`carries_iff`**: a text carries bytes when it holds their symbols.
* **`le_estimate`**, **`estimate_le`**: the estimate is at most two bytes above what is carried.
* **`decodeSymbols_eq_ok_iff`**: what is accepted.
* **`exact_decode`**: all of this about texts and limits.
-/

namespace TradeIntake

/-! ## Characters and bytes -/

namespace Text

/-- Space, tab, line feed, form feed or carriage return. -/
def isAsciiBlank (c : Char) : Bool :=
  c == ' ' || c == '\t' || c == '\n' || c == '\x0c' || c == '\r'

theorem isBlankByte_ofNat {n : Nat} (h : n < 0x80) :
    isBlankByte (UInt8.ofNat n) = isAsciiBlank (Char.ofNat n) := by
  have key : ∀ n < 0x80, isBlankByte (UInt8.ofNat n) = isAsciiBlank (Char.ofNat n) := by
    decide +kernel
  exact key n h

theorem isBlankByte_of_le {b : UInt8} (h : 0x80 ≤ b.toNat) : isBlankByte b = false := by
  have hne : ∀ d : UInt8, d.toNat < 0x80 → b ≠ d := by
    rintro d hd rfl
    omega
  simp [isBlankByte, hne]

theorem isAsciiBlank_of_le {c : Char} (h : 0x80 ≤ c.toNat) : isAsciiBlank c = false := by
  have hne : ∀ d : Char, d.toNat < 0x80 → c ≠ d := by
    rintro d hd rfl
    omega
  simp [isAsciiBlank, hne]

namespace Utf8

theorem encode_eq (s : String) : encode s = s.toList.flatMap String.utf8EncodeChar := by
  unfold encode
  rw [String.toUTF8_eq_toByteArray, ← String.utf8Encode_toList, List.utf8Encode,
    List.toList_data_toByteArray]

theorem encode_injective {s t : String} (h : encode s = encode t) : s = t := by
  unfold encode at h
  exact String.toByteArray_inj.mp (ByteArray.ext (Array.toList_inj.mp h))

theorem encodeChar_of_lt {c : Char} (h : c.toNat < 0x80) :
    String.utf8EncodeChar c = [UInt8.ofNat c.toNat] := by
  unfold String.utf8EncodeChar
  dsimp only
  rw [if_pos (show c.val.toNat ≤ 127 from Nat.le_of_lt_succ h)]
  rfl

/-- The bytes of a character beyond ASCII are beyond ASCII. -/
theorem le_of_mem_encodeChar {c : Char} (h : 0x80 ≤ c.toNat) :
    ∀ b ∈ String.utf8EncodeChar c, 0x80 ≤ b.toNat := by
  intro b hb
  unfold String.utf8EncodeChar at hb
  dsimp only at hb
  rw [if_neg (show ¬ c.val.toNat ≤ 127 from Nat.not_le.mpr h)] at hb
  split at hb
  · simp only [List.mem_cons, List.not_mem_nil, or_false] at hb
    rcases hb with rfl | rfl <;> rw [UInt8.toNat_ofNat'] <;> omega
  split at hb
  · simp only [List.mem_cons, List.not_mem_nil, or_false] at hb
    rcases hb with rfl | rfl | rfl <;> rw [UInt8.toNat_ofNat'] <;> omega
  · simp only [List.mem_cons, List.not_mem_nil, or_false] at hb
    rcases hb with rfl | rfl | rfl | rfl <;> rw [UInt8.toNat_ofNat'] <;> omega

/-- The characters that bytes below 128 stand for are encoded as these bytes. -/
theorem encode_ofAscii {bytes : List UInt8} (h : ∀ b ∈ bytes, b.toNat < 0x80) :
    encode (String.ofList (bytes.map fun b => Char.ofNat b.toNat)) = bytes := by
  have toNat_ofNat : ∀ n < 0x80, (Char.ofNat n).toNat = n := by decide +kernel
  rw [encode_eq, String.toList_ofList, List.flatMap_map]
  induction bytes with
  | nil => rfl
  | cons b bytes ih =>
    have hb := h b List.mem_cons_self
    rw [List.flatMap_cons, ih fun c hc => h c (List.mem_cons_of_mem b hc),
      encodeChar_of_lt (by rwa [toNat_ofNat _ hb]), toNat_ofNat _ hb, UInt8.ofNat_toNat]
    rfl

/-- Blanks go from the bytes of a character as they go from the characters. -/
theorem filter_encodeChar (c : Char) :
    (String.utf8EncodeChar c).filter (fun b => !isBlankByte b) =
      if isAsciiBlank c then [] else String.utf8EncodeChar c := by
  by_cases hc : c.toNat < 0x80
  · have hblank := isBlankByte_ofNat hc
    rw [Char.ofNat_toNat] at hblank
    rw [encodeChar_of_lt hc, List.filter_cons, List.filter_nil, hblank]
    cases isAsciiBlank c <;> rfl
  · have hc := Nat.not_lt.mp hc
    rw [isAsciiBlank_of_le hc, if_neg Bool.false_ne_true, List.filter_eq_self]
    intro b hb
    rw [isBlankByte_of_le (le_of_mem_encodeChar hc b hb)]
    rfl

end Utf8

end Text

/-! ## What a text carries -/

namespace Payload

open Text

/-- The characters of a text without the blanks. -/
def remaining (text : String) : List Char :=
  text.toList.filter fun c => !isAsciiBlank c

/-- **The bytes looked at are those of the characters left.** -/
theorem symbols_eq (text : String) :
    symbols text = Utf8.encode (String.ofList (remaining text)) := by
  unfold symbols remaining
  rw [Utf8.encode_eq, Utf8.encode_eq, String.toList_ofList, List.filter_flatMap]
  induction text.toList with
  | nil => rfl
  | cons c cs ih =>
    rw [List.flatMap_cons, ih, Utf8.filter_encodeChar, List.filter_cons]
    cases isAsciiBlank c <;> simp

theorem symbols_eq_iff {s t : String} : symbols s = symbols t ↔ remaining s = remaining t := by
  rw [symbols_eq, symbols_eq]
  constructor
  · intro h
    exact String.ofList_injective (Utf8.encode_injective h)
  · intro h
    rw [h]

/-- **The text carries the bytes**: what is left of it without the blanks is their padded base64. -/
def Carries (text : String) (bytes : List UInt8) : Prop :=
  remaining text = (Base64.encode bytes).map fun b => Char.ofNat b.toNat

theorem carries_iff {text : String} {bytes : List UInt8} :
    Carries text bytes ↔ symbols text = Base64.encode bytes := by
  have hascii := Utf8.encode_ofAscii (@Base64.lt_of_mem_encode bytes)
  rw [symbols_eq, Carries]
  constructor
  · intro h
    rw [h, hascii]
  · intro h
    rw [← hascii] at h
    exact String.ofList_injective (Utf8.encode_injective h)

/-! ## Limits -/

/-- So many bytes are within the limit, if there is one. -/
def Fits (limit : Option Nat) (size : Nat) : Prop := ∀ n, limit = some n → size ≤ n

theorem oversize?_eq_some_iff {slack size : Nat} {limit : Option Nat} {failure : IngestFailure} :
    oversize? slack size limit = some failure ↔
      ∃ n, limit = some n ∧ n + slack < size ∧ failure = .payloadTooLarge size n := by
  unfold oversize?
  rw [Option.bind_eq_some_iff]
  refine exists_congr fun n => and_congr_right fun _ => ?_
  split
  · rename_i h
    simp [h, eq_comm]
  · rename_i h
    simp [h]

theorem oversize?_eq_none_iff {slack size : Nat} {limit : Option Nat} :
    oversize? slack size limit = none ↔ ∀ n, limit = some n → size ≤ n + slack := by
  unfold oversize?
  rw [Option.bind_eq_none_iff]
  refine forall_congr' fun n => forall_congr' fun _ => ?_
  split
  · rename_i h
    simp [h]
  · rename_i h
    simp [Nat.not_lt.mp h]

/-- Words are enough for the limit with its slack: where the sum stops at the greatest word, no size
that is a word is above either. -/
theorem oversize?_some_eq_saturated {slack size limit : Nat} (h : size < 2 ^ 64) :
    oversize? slack size (some limit) =
      if min (limit + slack) (2 ^ 64 - 1) < size then some (.payloadTooLarge size limit)
      else none := by
  change (if limit + slack < size then _ else _) = _
  have hiff : min (limit + slack) (2 ^ 64 - 1) < size ↔ limit + slack < size := by omega
  simp only [hiff]

theorem le_estimate (bytes : List UInt8) :
    bytes.length ≤ estimate (Base64.encode bytes).length := by
  rw [Base64.length_encode, estimate]
  omega

theorem estimate_le (bytes : List UInt8) :
    estimate (Base64.encode bytes).length ≤ bytes.length + 2 := by
  rw [Base64.length_encode, estimate]
  omega

/-! ## Decoding -/

/-- Written symbols are refused for the estimate or for the size, or the bytes come back. -/
theorem decodeSymbols_encode (limit : Option Nat) {bytes : List UInt8} (h : bytes ≠ []) :
    decodeSymbols limit (Base64.encode bytes) =
      match (oversize? 2 (estimate (Base64.encode bytes).length) limit).or
        (oversize? 0 bytes.length limit) with
      | some failure => .error failure
      | none => .ok bytes := by
  have hempty : (Base64.encode bytes).isEmpty = false := by
    rw [List.isEmpty_eq_false_iff]
    exact fun he => h (Base64.encode_eq_nil_iff.mp he)
  unfold decodeSymbols
  rw [hempty, if_neg Bool.false_ne_true]
  cases oversize? 2 (estimate (Base64.encode bytes).length) limit with
  | some failure => rfl
  | none =>
    have hdecode : Base64.decode (Base64.encode bytes) = .ok bytes :=
      Base64.decode_eq_ok_iff.mpr rfl
    have hbytes : bytes.isEmpty = false := List.isEmpty_eq_false_iff.mpr h
    rw [hdecode, Option.none_or]
    cases hover : oversize? 0 bytes.length limit <;> simp [hbytes, hover]

/-- **What is accepted**: the symbols of some bytes, one at least, within the limit. -/
theorem decodeSymbols_eq_ok_iff {limit : Option Nat} {symbols bytes : List UInt8} :
    decodeSymbols limit symbols = .ok bytes ↔
      bytes ≠ [] ∧ Fits limit bytes.length ∧ symbols = Base64.encode bytes := by
  constructor
  · intro h
    unfold decodeSymbols at h
    split at h
    · cases h
    split at h
    · cases h
    split at h
    · cases h
    rename_i decoded hdecode
    split at h
    · cases h
    rename_i hne
    split at h
    · cases h
    rename_i hsize
    obtain rfl := Except.ok.inj h
    refine ⟨fun he => hne (List.isEmpty_iff.mpr he), ?_, Base64.decode_eq_ok_iff.mp hdecode⟩
    exact oversize?_eq_none_iff.mp hsize
  · rintro ⟨hne, hfits, rfl⟩
    have hestimate : oversize? 2 (estimate (Base64.encode bytes).length) limit = none := by
      rw [oversize?_eq_none_iff]
      intro n hn
      exact Nat.le_trans (estimate_le bytes) (Nat.add_le_add_right (hfits n hn) 2)
    have hsize : oversize? 0 bytes.length limit = none := oversize?_eq_none_iff.mpr hfits
    rw [decodeSymbols_encode limit hne, hestimate, hsize]
    rfl

theorem decodeSymbols_eq_empty_iff {limit : Option Nat} {symbols : List UInt8} :
    decodeSymbols limit symbols = .error .emptyPayload ↔ symbols = [] := by
  constructor
  · intro h
    have hoversize {slack size : Nat} : oversize? slack size limit ≠ some .emptyPayload := by
      intro he
      obtain ⟨n, -, -, hn⟩ := oversize?_eq_some_iff.mp he
      cases hn
    unfold decodeSymbols at h
    split at h
    · rename_i hempty
      exact List.isEmpty_iff.mp hempty
    split at h
    · rename_i failure hestimate
      rw [Except.error.inj h] at hestimate
      exact absurd hestimate hoversize
    split at h
    · cases h
    rename_i bytes hdecode
    split at h
    · rename_i hempty
      rw [Base64.decode_eq_ok_iff.mp hdecode, List.isEmpty_iff.mp hempty]
      rfl
    split at h
    · rename_i failure hsize
      rw [Except.error.inj h] at hsize
      exact absurd hsize hoversize
    · cases h
  · rintro rfl
    rfl

/-- Bytes beyond the limit are refused for their size, of which the estimate may be told. -/
theorem decodeSymbols_encode_of_lt {limit : Nat} {bytes : List UInt8} (h : limit < bytes.length) :
    ∃ size, decodeSymbols (some limit) (Base64.encode bytes) =
        .error (.payloadTooLarge size limit) ∧
      limit < size ∧ bytes.length ≤ size ∧ size ≤ bytes.length + 2 := by
  have hne : bytes ≠ [] := List.ne_nil_of_length_pos (by omega)
  have hle := le_estimate bytes
  have hge := estimate_le bytes
  rw [decodeSymbols_encode (some limit) hne]
  by_cases hestimate : limit + 2 < estimate (Base64.encode bytes).length
  · have hsome := oversize?_eq_some_iff.mpr ⟨limit, rfl, hestimate, rfl⟩
    rw [hsome]
    exact ⟨_, rfl, by omega, hle, hge⟩
  · have hnone : oversize? 2 (estimate (Base64.encode bytes).length) (some limit) = none := by
      rw [oversize?_eq_none_iff]
      rintro n ⟨⟩
      omega
    have hsome : oversize? 0 bytes.length (some limit) =
        some (.payloadTooLarge bytes.length limit) :=
      oversize?_eq_some_iff.mpr ⟨limit, rfl, h, rfl⟩
    rw [hnone, hsome]
    exact ⟨_, rfl, h, Nat.le_refl _, by omega⟩

/-- **Texts and bytes within a limit.** -/
structure Exact (settings : IngestSettings) : Prop where
  /-- Blanks make no difference. -/
  blanks : ∀ s t, remaining s = remaining t → decode settings s = decode settings t
  fits : ∀ text bytes, bytes ≠ [] → Carries text bytes →
    Fits settings.maxPayloadBytes bytes.length → decode settings text = .ok bytes
  /-- The size told may be the estimate, which is at most two bytes above. -/
  tooLarge : ∀ text bytes limit, Carries text bytes → settings.maxPayloadBytes = some limit →
    limit < bytes.length → ∃ size, decode settings text = .error (.payloadTooLarge size limit) ∧
      limit < size ∧ bytes.length ≤ size ∧ size ≤ bytes.length + 2
  /-- Nothing else is accepted. -/
  carried : ∀ text bytes, decode settings text = .ok bytes →
    bytes ≠ [] ∧ Fits settings.maxPayloadBytes bytes.length ∧ Carries text bytes
  injective : ∀ s t bytes, decode settings s = .ok bytes → decode settings t = .ok bytes →
    remaining s = remaining t
  empty : ∀ text, decode settings text = .error .emptyPayload ↔ remaining text = []
  /-- Words are enough for the limit with the slack of the estimate. -/
  inWords : ∀ size limit, size < 2 ^ 64 → oversize? 2 size (some limit) =
    if min (limit + 2) (2 ^ 64 - 1) < size then some (.payloadTooLarge size limit) else none

/-- **Payloads travel exactly**, whatever the limit. -/
theorem exact_decode (settings : IngestSettings) : Exact settings where
  blanks s t h := decode_eq_of_symbols_eq settings (symbols_eq_iff.mpr h)
  fits text bytes hne hcarries hfits :=
    decodeSymbols_eq_ok_iff.mpr ⟨hne, hfits, carries_iff.mp hcarries⟩
  tooLarge text bytes limit hcarries hlimit hlt := by
    unfold decode
    rw [carries_iff.mp hcarries, hlimit]
    exact decodeSymbols_encode_of_lt hlt
  carried text bytes h := by
    obtain ⟨hne, hfits, hsymbols⟩ := decodeSymbols_eq_ok_iff.mp h
    exact ⟨hne, hfits, carries_iff.mpr hsymbols⟩
  injective s t bytes hs ht := by
    obtain ⟨-, -, hs⟩ := decodeSymbols_eq_ok_iff.mp hs
    obtain ⟨-, -, ht⟩ := decodeSymbols_eq_ok_iff.mp ht
    rw [← symbols_eq_iff, hs, ht]
  empty text := by
    rw [decode, decodeSymbols_eq_empty_iff]
    exact symbols_eq_iff (t := "")
  inWords size limit h := oversize?_some_eq_saturated h

/-- Two bytes over a limit of none are refused for the estimate, which takes them for three. -/
example : decode { maxPayloadBytes := some 0 } "YW I=\r\n" = .error (.payloadTooLarge 3 0) := rfl

end Payload

end TradeIntake
