import Mathlib.Tactic.ByContra
import TradeIntake.Base64
import TradeIntake.Proofs.Except

/-!
# Base64 is read strictly

Four symbols stand for three bytes and three bytes are written as four symbols, so a group has one
written form. The last group may stand for fewer bytes; then padding is required, and the bits to
spare are zero.

* **`decode_eq_ok_iff`**: what is read is what is written of some bytes, and those are the bytes.
* **`length_encode`**: four symbols for every three bytes begun.
-/

namespace TradeIntake.Base64

/-! ## Symbols -/

theorem symbol_congr {m n : Nat} (h : m % 64 = n % 64) : symbol m = symbol n := by
  unfold symbol
  rw [h]

theorem value?_eq_some_iff {b : UInt8} {n : Nat} : value? b = some n ↔ n < 64 ∧ symbol n = b := by
  constructor
  · have key : ∀ i, i < 256 → ∀ n ∈ value? (UInt8.ofNat i), n < 64 ∧ symbol n = UInt8.ofNat i := by
      decide +kernel
    intro h
    have hb := key b.toNat b.toNat_lt n
    rw [UInt8.ofNat_toNat] at hb
    exact hb h
  · rintro ⟨hn, rfl⟩
    rw [value?_symbol, Nat.mod_eq_of_lt hn]

theorem valueAt_eq_ok_iff {offset n : Nat} {b : UInt8} :
    valueAt offset b = .ok n ↔ n < 64 ∧ symbol n = b := by
  rw [← value?_eq_some_iff]
  unfold valueAt
  cases value? b <;> simp

theorem value?_pad : value? pad = none := rfl

theorem symbol_ne_pad (n : Nat) : symbol n ≠ pad := by
  intro h
  have := value?_symbol n
  rw [h, value?_pad] at this
  cases this

/-! ## Groups -/

/-- Four values stand for three bytes, which are written as the four symbols. -/
theorem encode_ofFour {p q r s : Nat} (hq : q < 64) (hr : r < 64) (hs : s < 64)
    (rest : List UInt8) :
    encode (UInt8.ofNat (p * 4 + q / 16) :: UInt8.ofNat (q * 16 + r / 4) ::
        UInt8.ofNat (r * 64 + s) :: rest) =
      [p, q, r, s].map symbol ++ encode rest := by
  rw [encode]
  simp only [UInt8.toNat_ofNat', List.map_cons, List.map_nil, List.cons_append, List.nil_append,
    List.cons.injEq, and_true]
  refine ⟨?_, ?_, ?_, ?_⟩ <;> exact symbol_congr (by omega)

/-- Three values stand for two bytes when the last two bits are zero. -/
theorem encode_ofThree {p q r : Nat} (hq : q < 64) (hr : r < 64) (h : r % 4 = 0) :
    encode [UInt8.ofNat (p * 4 + q / 16), UInt8.ofNat (q * 16 + r / 4)] =
      [p, q, r].map symbol ++ List.replicate 1 pad := by
  rw [encode]
  simp only [UInt8.toNat_ofNat', List.map_cons, List.map_nil, List.cons_append, List.nil_append,
    List.replicate, List.cons.injEq, and_true]
  refine ⟨?_, ?_, ?_⟩ <;> exact symbol_congr (by omega)

/-- Two values stand for one byte when the last four bits are zero. -/
theorem encode_ofTwo {p q : Nat} (hq : q < 64) (h : q % 16 = 0) :
    encode [UInt8.ofNat (p * 4 + q / 16)] = [p, q].map symbol ++ List.replicate 2 pad := by
  rw [encode]
  simp only [UInt8.toNat_ofNat', List.map_cons, List.map_nil, List.cons_append, List.nil_append,
    List.replicate, List.cons.injEq, and_true]
  refine ⟨?_, ?_⟩ <;> exact symbol_congr (by omega)

/-- Three bytes come from four values; where a byte is zero, bits of the value before it are. -/
theorem exists_values (a b c : UInt8) :
    ∃ p q r s, p < 64 ∧ q < 64 ∧ r < 64 ∧ s < 64 ∧ UInt8.ofNat (p * 4 + q / 16) = a ∧
      UInt8.ofNat (q * 16 + r / 4) = b ∧ UInt8.ofNat (r * 64 + s) = c ∧
      (b = 0 → q % 16 = 0) ∧ (c = 0 → r % 4 = 0) := by
  have ha := a.toNat_lt
  have hb := b.toNat_lt
  have hc := c.toNat_lt
  have ofNat_eq {n : Nat} {x : UInt8} (h : n % 256 = x.toNat) : UInt8.ofNat n = x := by
    rw [← UInt8.toNat_inj, UInt8.toNat_ofNat']
    exact h
  refine ⟨a.toNat / 4, a.toNat % 4 * 16 + b.toNat / 16, b.toNat % 16 * 4 + c.toNat / 64,
    c.toNat % 64, by omega, by omega, by omega, by omega, ofNat_eq (by omega), ofNat_eq (by omega),
    ofNat_eq (by omega), ?_, ?_⟩
  · rintro rfl
    change (a.toNat % 4 * 16 + 0 / 16) % 16 = 0
    omega
  · rintro rfl
    change (b.toNat % 16 * 4 + 0 / 64) % 4 = 0
    omega

theorem length_encode (bytes : List UInt8) :
    (encode bytes).length = (bytes.length + 2) / 3 * 4 := by
  fun_induction encode bytes with
  | case1 a b c rest n ih =>
    simp only [List.length_cons, ih]
    omega
  | case2 | case3 | case4 => simp

theorem encode_eq_nil_iff {bytes : List UInt8} : encode bytes = [] ↔ bytes = [] := by
  rw [← List.length_eq_zero_iff, length_encode, ← List.length_eq_zero_iff]
  omega

theorem lt_of_mem_encode {bytes : List UInt8} : ∀ b ∈ encode bytes, b.toNat < 0x80 := by
  have symbol_lt (n : Nat) : (symbol n).toNat < 0x80 := by
    have key : ∀ m < 64, (symbol m).toNat < 0x80 := by decide
    rw [symbol_congr (Nat.mod_mod n 64).symm]
    exact key _ (Nat.mod_lt n (by decide))
  have pad_lt : pad.toNat < 0x80 := by decide
  fun_induction encode bytes with
  | case1 a b c rest n ih =>
    simp only [List.forall_mem_cons]
    exact ⟨symbol_lt _, symbol_lt _, symbol_lt _, symbol_lt _, ih⟩
  | case2 => simp [symbol_lt, pad_lt]
  | case3 => simp [symbol_lt, pad_lt]
  | case4 => simp

/-! ## The last group -/

/-- Values and padding are read off the symbols of the last group; padding comes after the second
symbol at the earliest. -/
theorem lastValues_symbols {offset position padding : Nat} {ns : List Nat} (h : ∀ n ∈ ns, n < 64)
    (hp : padding ≠ 0 → 2 ≤ position + ns.length) :
    lastValues offset position (ns.map symbol ++ List.replicate padding pad) = .ok (ns, padding) := by
  induction ns generalizing position with
  | nil =>
    cases padding with
    | zero => rfl
    | succ padding =>
      have hposition : 2 ≤ position := hp (Nat.succ_ne_zero padding)
      simp [List.replicate_succ, lastValues, Nat.not_lt.mpr hposition]
  | cons n ns ih =>
    have hn : valueAt (offset + position) (symbol n) = .ok n :=
      valueAt_eq_ok_iff.mpr ⟨h n List.mem_cons_self, rfl⟩
    have hns : lastValues offset (position + 1) (ns.map symbol ++ List.replicate padding pad) =
        .ok (ns, padding) := by
      refine ih (fun m hm => h m (List.mem_cons_of_mem n hm)) fun hne => ?_
      have := hp hne
      simp only [List.length_cons] at this
      omega
    have hpad : ¬ (symbol n == pad) = true := by simpa using symbol_ne_pad n
    simp [lastValues, hpad, hn, hns, bind, Except.bind, pure, Except.pure]

/-- Nothing else is read as such a group. -/
theorem symbols_of_lastValues {offset position padding : Nat} {group : List UInt8} {ns : List Nat}
    (h : lastValues offset position group = .ok (ns, padding)) :
    group = ns.map symbol ++ List.replicate padding pad ∧ ∀ n ∈ ns, n < 64 := by
  induction group generalizing position ns with
  | nil =>
    obtain ⟨rfl, rfl⟩ := Prod.mk.inj (Except.ok.inj h)
    simp
  | cons b group ih =>
    rw [lastValues] at h
    split at h
    · rename_i hb
      split at h
      · cases h
      · split at h
        · rename_i hall
          obtain ⟨rfl, rfl⟩ := Prod.mk.inj (Except.ok.inj h)
          have hgroup := List.eq_replicate_of_mem fun c hc => beq_iff_eq.mp (List.all_eq_true.mp hall c hc)
          simp [List.replicate_succ, ← hgroup, beq_iff_eq.mp hb]
        · cases h
    · cases hn : valueAt (offset + position) b with
      | error fault =>
        rw [hn] at h
        cases h
      | ok n =>
        cases hr : lastValues offset (position + 1) group with
        | error fault =>
          rw [hn, hr] at h
          cases h
        | ok r =>
          obtain ⟨ms, k⟩ := r
          rw [hn, hr] at h
          obtain ⟨rfl, rfl⟩ := Prod.mk.inj (Except.ok.inj h)
          obtain ⟨hgroup, hms⟩ := ih hr
          obtain ⟨hn, hb⟩ := valueAt_eq_ok_iff.mp hn
          refine ⟨by rw [hgroup, ← hb]; rfl, fun m hm => ?_⟩
          rcases List.mem_cons.mp hm with rfl | hm
          · exact hn
          · exact hms m hm

/-- What the values of a last group stand for: one, two or three bytes, no bit left over. -/
theorem encode_of_decodeLast {offset : Nat} {group acc out : List UInt8}
    (h : decodeLast offset group acc = .ok out) :
    ∃ bytes, bytes ≠ [] ∧ group = encode bytes ∧ out = bytes.reverse ++ acc := by
  unfold decodeLast at h
  cases hv : lastValues offset 0 group with
  | error fault =>
    rw [hv] at h
    cases h
  | ok v =>
    obtain ⟨ns, padding⟩ := v
    obtain ⟨rfl, hns⟩ := symbols_of_lastValues hv
    rw [hv] at h
    simp only [bind, Except.bind, throw, throwThe, MonadExceptOf.throw, pure, Except.pure] at h
    split at h
    · cases h
    split at h
    · cases h
    rename_i hlength hpadding
    match ns with
    | [] | [_] => simp at hlength
    | [p, q] =>
      obtain rfl : padding = 2 := by
        simp only [List.length_cons, List.length_nil] at hpadding
        omega
      have hq : q < 64 := hns q (by simp)
      dsimp only at h
      split at h
      · rename_i hbits
        exact ⟨_, by simp, (encode_ofTwo hq hbits).symm, (Except.ok.inj h).symm⟩
      · cases h
    | [p, q, r] =>
      obtain rfl : padding = 1 := by
        simp only [List.length_cons, List.length_nil] at hpadding
        omega
      have hq : q < 64 := hns q (by simp)
      have hr : r < 64 := hns r (by simp)
      dsimp only at h
      split at h
      · rename_i hbits
        exact ⟨_, by simp, (encode_ofThree hq hr hbits).symm, (Except.ok.inj h).symm⟩
      · cases h
    | [p, q, r, s] =>
      obtain rfl : padding = 0 := by
        simp only [List.length_cons, List.length_nil] at hpadding
        omega
      have hq : q < 64 := hns q (by simp)
      have hr : r < 64 := hns r (by simp)
      have hs : s < 64 := hns s (by simp)
      exact ⟨_, by simp, (encode_ofFour hq hr hs []).symm, (Except.ok.inj h).symm⟩
    | _ :: _ :: _ :: _ :: _ :: _ =>
      simp only [List.length_cons] at hpadding
      omega

/-- One, two or three bytes come back from their last group. -/
theorem decodeLast_encode {offset : Nat} {bytes acc : List UInt8} (hne : bytes ≠ [])
    (h : bytes.length ≤ 3) : decodeLast offset (encode bytes) acc = .ok (bytes.reverse ++ acc) := by
  match bytes with
  | [] => exact absurd rfl hne
  | [a] =>
    obtain ⟨p, q, -, -, hp, hq, -, -, rfl, -, -, hbits, -⟩ := exists_values a 0 0
    rw [encode_ofTwo hq (hbits rfl), decodeLast, lastValues_symbols (by simp [hp, hq]) (by simp)]
    simp [bind, Except.bind, pure, Except.pure, hbits]
  | [a, b] =>
    obtain ⟨p, q, r, -, hp, hq, hr, -, rfl, rfl, -, -, hbits⟩ := exists_values a b 0
    rw [encode_ofThree hq hr (hbits rfl), decodeLast,
      lastValues_symbols (by simp [hp, hq, hr]) (by simp)]
    simp [bind, Except.bind, pure, Except.pure, hbits]
  | [a, b, c] =>
    obtain ⟨p, q, r, s, hp, hq, hr, hs, rfl, rfl, rfl, -, -⟩ := exists_values a b c
    have hv : lastValues offset 0 ([p, q, r, s].map symbol ++ List.replicate 0 pad) =
        .ok ([p, q, r, s], 0) :=
      lastValues_symbols (by simp [hp, hq, hr, hs]) (by simp)
    rw [encode_ofFour hq hr hs [], show encode [] = List.replicate 0 pad from rfl, decodeLast, hv]
    rfl
  | _ :: _ :: _ :: _ :: _ =>
    simp only [List.length_cons] at h
    omega

/-! ## All groups -/

/-- **Groups are read as bytes are written**, one byte at least. -/
theorem decodeGroups_eq_ok_iff {offset : Nat} {symbols acc out : List UInt8} :
    decodeGroups offset symbols acc = .ok out ↔
      ∃ bytes, bytes ≠ [] ∧ symbols = encode bytes ∧ out = bytes.reverse ++ acc := by
  fun_induction decodeGroups offset symbols acc with
  | case1 offset a b c d e rest acc ih =>
    simp only [Except.bind_eq_ok_iff, valueAt_eq_ok_iff, ih]
    constructor
    · rintro ⟨p, ⟨-, rfl⟩, q, ⟨hq, rfl⟩, r, ⟨hr, rfl⟩, s, ⟨hs, rfl⟩, bytes, -, hrest, rfl⟩
      have hencode := encode_ofFour (p := p) hq hr hs bytes
      rw [← hrest] at hencode
      exact ⟨_, List.cons_ne_nil _ _, hencode.symm, by simp [pushBytes]⟩
    · rintro ⟨bytes, -, hsymbols, rfl⟩
      have hlength := congrArg List.length hsymbols
      simp only [length_encode, List.length_cons] at hlength
      match bytes with
      | [] | [_] | [_, _] | [_, _, _] =>
        simp only [List.length_cons, List.length_nil] at hlength
        omega
      | x :: y :: z :: w :: bytes =>
        obtain ⟨p, q, r, s, hp, hq, hr, hs, rfl, rfl, rfl, -, -⟩ := exists_values x y z
        rw [encode_ofFour hq hr hs] at hsymbols
        simp only [List.map_cons, List.map_nil, List.cons_append, List.nil_append,
          List.cons.injEq] at hsymbols
        obtain ⟨rfl, rfl, rfl, rfl, hrest⟩ := hsymbols
        exact ⟨p, ⟨hp, rfl⟩, q, ⟨hq, rfl⟩, r, ⟨hr, rfl⟩, s, ⟨hs, rfl⟩, w :: bytes, by simp, hrest,
          by simp [pushBytes]⟩
  | case2 offset last acc hlast =>
    constructor
    · exact encode_of_decodeLast
    · rintro ⟨bytes, hne, rfl, rfl⟩
      refine decodeLast_encode hne ?_
      by_contra hlength
      have := length_encode bytes
      match hs : encode bytes with
      | a :: b :: c :: d :: e :: rest => exact hlast a b c d e rest hs
      | [] | [_] | [_, _] | [_, _, _] | [_, _, _, _] =>
        rw [hs] at this
        simp only [List.length_cons, List.length_nil] at this
        omega

theorem strayLast?_encode (bytes : List UInt8) : strayLast? (encode bytes) = none := by
  unfold strayLast?
  rw [if_neg]
  rw [length_encode]
  omega

/-- **Reading is strict**: what is read is what is written of the bytes. -/
theorem decode_eq_ok_iff {symbols bytes : List UInt8} :
    decode symbols = .ok bytes ↔ symbols = encode bytes := by
  unfold decode
  split
  · rename_i hempty
    rw [List.isEmpty_iff.mp hempty, Except.ok.injEq, eq_comm, eq_comm (a := []), encode_eq_nil_iff]
  rename_i hne
  rw [List.isEmpty_iff] at hne
  constructor
  · intro h
    split at h
    · cases h
    · obtain ⟨out, hout, rfl⟩ := Except.map_eq_ok_iff.mp h
      obtain ⟨bytes, -, rfl, rfl⟩ := decodeGroups_eq_ok_iff.mp hout
      simp
  · rintro rfl
    rw [strayLast?_encode]
    refine Except.map_eq_ok_iff.mpr ⟨bytes.reverse, ?_, List.reverse_reverse bytes⟩
    exact decodeGroups_eq_ok_iff.mpr
      ⟨bytes, fun h => hne (encode_eq_nil_iff.mpr h), rfl, (List.append_nil _).symm⟩

end TradeIntake.Base64
