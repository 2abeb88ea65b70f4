import TradeIntake.Inspection
import TradeIntake.Proofs.Document.Nesting
import TradeIntake.Proofs.Payload.Transport
import TradeIntake.Proofs.Xml.NodeLimit

/-!
# Limits only filter

Three limits are looked at in five places: the payload before it is decoded and after, the nesting on
the tokens and in the copy, and the nodes while the tree is built. Each of them refuses a message or
lets it pass as it is. So what is accepted stays accepted, and comes to the same, when a limit is
raised, and what is accepted is within every limit.

* **`parse_eq_ok_iff`**: the documents that bytes come to.
* **`limits_only_filter`**: raised limits, and what is within the limits.
* `limits_only_filter_pair`: two elements, with limits that just admit them.
-/

namespace TradeIntake

/-- **No limit is above that of the other settings**, where no limit on the payload is above all. -/
structure IngestSettings.AtMost (s t : IngestSettings) : Prop where
  maxPayloadBytes : ∀ n, t.maxPayloadBytes = some n → ∃ k, s.maxPayloadBytes = some k ∧ k ≤ n
  maxDepth : s.maxDepth ≤ t.maxDepth
  maxNodes : s.maxNodes ≤ t.maxNodes

variable {s t : IngestSettings} {bytes : List UInt8}

/-! ## Payloads -/

theorem Payload.fits_mono (h : s.AtMost t) {size : Nat} (hfits : Fits s.maxPayloadBytes size) :
    Fits t.maxPayloadBytes size := by
  intro n hn
  obtain ⟨k, hk, hkn⟩ := h.maxPayloadBytes n hn
  exact Nat.le_trans (hfits k hk) hkn

/-- A payload that is decoded within limits is decoded within higher ones. -/
theorem Payload.decode_mono (h : s.AtMost t) {text : String}
    (hdecode : decode s text = .ok bytes) : decode t text = .ok bytes := by
  obtain ⟨hne, hfits, hsymbols⟩ := decodeSymbols_eq_ok_iff.mp hdecode
  exact decodeSymbols_eq_ok_iff.mpr ⟨hne, fits_mono h hfits, hsymbols⟩

/-! ## Documents -/

namespace Document

variable {root : Xml.Node} {d : Document}

/-- Bytes that hold a tree within a number of nodes hold it within more of them. -/
theorem Holds.mono (hle : s.maxNodes ≤ t.maxNodes) (h : Holds s bytes root) : Holds t bytes root := by
  obtain ⟨text, hdecode, hfault, hbuilt⟩ := h
  exact ⟨text, hdecode, hfault, Xml.ofTokens_mono hle hbuilt⟩

/-- What holds a tree has fewer elements than nodes are allowed. -/
theorem Holds.count_lt (h : Holds s bytes root) {e : Element} (he : root.element? = some e) :
    e.count < s.maxNodes := by
  obtain ⟨text, -, -, hbuilt⟩ := h
  exact Xml.count_lt_of_ofTokens (Xml.sequenced_scan text) hbuilt he

/-- **The documents that bytes come to**: the elements of the tree that they hold, unless it is
nested too deep. -/
theorem parse_eq_ok_iff :
    parse s bytes = .ok d ↔ ∃ root e, Holds s bytes root ∧ root.element? = some e ∧
      root.depth ≤ depthLimit s ∧ d = ⟨e, (withoutMark bytes).length, e.count⟩ := by
  constructor
  · intro h
    obtain ⟨root, hholds⟩ := holds_of_parse h
    obtain ⟨e, he, hparse⟩ := parse_of_holds hholds
    rw [hparse] at h
    split at h
    · cases h
    · rename_i hdepth
      exact ⟨root, e, hholds, he, Nat.not_lt.mp hdepth, (Except.ok.inj h).symm⟩
  · rintro ⟨root, e, hholds, he, hdepth, rfl⟩
    obtain ⟨e', he', hparse⟩ := parse_of_holds hholds
    obtain rfl := Option.some.inj (he.symm.trans he')
    rw [hparse, if_neg (Nat.not_lt.mpr hdepth)]

theorem parse_mono (h : s.AtMost t) (hparse : parse s bytes = .ok d) : parse t bytes = .ok d := by
  obtain ⟨root, e, hholds, he, hdepth, rfl⟩ := parse_eq_ok_iff.mp hparse
  have hlimit : depthLimit s ≤ depthLimit t := by
    have := h.maxDepth
    unfold depthLimit
    omega
  exact parse_eq_ok_iff.mpr
    ⟨root, e, hholds.mono h.maxNodes, he, Nat.le_trans hdepth hlimit, rfl⟩

/-- A document is within the limits on nesting and nodes. -/
theorem within_of_parse (h : parse s bytes = .ok d) :
    d.root.depth ≤ depthLimit s ∧ d.elementCount = d.root.count ∧ d.elementCount < s.maxNodes := by
  obtain ⟨root, e, hholds, he, hdepth, rfl⟩ := parse_eq_ok_iff.mp h
  refine ⟨?_, rfl, hholds.count_lt he⟩
  rw [Xml.Node.depth_of_element? he]
  exact hdepth

end Document

/-! ## Messages -/

namespace Message

/-- **Limits only filter.** A message that comes to bytes and a document within limits comes to the
same bytes and the same document within higher ones, whatever the limits are, and both are within
each of the limits that admitted them. -/
theorem limits_only_filter :
    (∀ (s t : IngestSettings) (m : Message) bytes d, s.AtMost t → m.decode s = .ok (bytes, d) →
      m.decode t = .ok (bytes, d)) ∧
    ∀ (s : IngestSettings) (m : Message) bytes d, m.decode s = .ok (bytes, d) →
      (∀ limit, s.maxPayloadBytes = some limit → bytes.length ≤ limit) ∧
        d.root.depth ≤ min s.maxDepth 1024 ∧
        d.elementCount = d.root.count ∧ d.elementCount < s.maxNodes := by
  constructor
  · intro s t m bytes d hle h
    obtain ⟨hdecode, hparse⟩ := decode_eq_ok_iff.mp h
    exact decode_eq_ok_iff.mpr ⟨Payload.decode_mono hle hdecode, Document.parse_mono hle hparse⟩
  · intro s m bytes d h
    obtain ⟨hdecode, hparse⟩ := decode_eq_ok_iff.mp h
    exact ⟨(Payload.decodeSymbols_eq_ok_iff.mp hdecode).2.1, Document.within_of_parse hparse⟩

/-- A message with an element in another. -/
def carryingPair : Message where
  messageId := "m1"
  messageType := "trade"
  fpmlVersion := "5-12"
  senderLei := ""
  content := "PGE+PGIvPjwvYT4="

/-- Limits that just admit it. -/
def tightLimits : IngestSettings where
  maxPayloadBytes := some 11
  maxDepth := 2
  maxNodes := 3

/-- Within limits that just admit it and with one of them lifted, the message comes to the same. -/
theorem limits_only_filter_pair :
    ∃ bytes d, carryingPair.decode tightLimits = .ok (bytes, d) ∧
      carryingPair.decode { tightLimits with maxPayloadBytes := none } = .ok (bytes, d) ∧
      bytes.length ≤ 11 ∧ d.root.depth ≤ 2 ∧ d.elementCount < 3 := by
  have htight : carryingPair.decode tightLimits = .ok (Document.pair,
      ⟨⟨"a", none, [], "", [⟨"b", none, [], "", []⟩]⟩, 11, 2⟩) := rfl
  have hle : tightLimits.AtMost { tightLimits with maxPayloadBytes := none } :=
    ⟨by rintro n ⟨⟩, Nat.le_refl _, Nat.le_refl _⟩
  obtain ⟨hsize, hdepth, -, hcount⟩ := limits_only_filter.2 _ _ _ _ htight
  exact ⟨_, _, htight, limits_only_filter.1 _ _ _ _ _ hle htight, hsize 11 rfl, hdepth, hcount⟩

end Message

end TradeIntake
