import Mathlib.Data.List.Induction
import TradeIntake.Proofs.Timestamp.Order
import TradeIntake.Store.Memory

/-!
# What the store in memory keeps

The store keeps submissions under two kinds of keys in the same way, so its state is read here as
one map from keys to submissions (`Memory.kept?`). A lookup sees of a key what was received in the
window (`Memory.sighted?`), and what a sweep drops no later lookup would see.

* **`mem_of_kept?`**: under a key there is a submission with that key that was remembered.
* **`exists_sighted?`**: when submissions with a key are remembered one window apart, or received at
  the same time, a lookup sees a key's latest ones: whatever was remembered of the window under the
  key, a submission received at the same time is still there.
-/

namespace TradeIntake

/-- What a submission is kept under. -/
inductive StoreKey where
  | messageId (id : String)
  | fingerprint (fp : String)
  deriving DecidableEq

namespace Submission

/-- The submission is kept under the key. -/
def HasKey (s : Submission) : StoreKey → Prop
  | .messageId id => s.messageId = id
  | .fingerprint fp => s.fingerprint = fp

instance (s : Submission) : (k : StoreKey) → Decidable (s.HasKey k)
  | .messageId id => inferInstanceAs (Decidable (s.messageId = id))
  | .fingerprint fp => inferInstanceAs (Decidable (s.fingerprint = fp))

/-- Some key is one of both. -/
def SharesKey (s t : Submission) : Prop :=
  s.messageId = t.messageId ∨ s.fingerprint = t.fingerprint

instance (s t : Submission) : Decidable (s.SharesKey t) :=
  inferInstanceAs (Decidable (_ ∨ _))

theorem sharesKey_of_hasKey {s t : Submission} {k : StoreKey} (hs : s.HasKey k) (ht : t.HasKey k) :
    s.SharesKey t := by
  cases k with
  | messageId id => exact Or.inl (hs.trans ht.symm)
  | fingerprint fp => exact Or.inr (hs.trans ht.symm)

theorem exists_hasKey_of_sharesKey {s t : Submission} (h : s.SharesKey t) :
    ∃ k, s.HasKey k ∧ t.HasKey k := by
  rcases h with h | h
  · exact ⟨.messageId t.messageId, h, rfl⟩
  · exact ⟨.fingerprint t.fingerprint, h, rfl⟩

theorem matchesKey_iff (s : Submission) (id fp : String) :
    s.matchesKey id fp = true ↔ s.HasKey (.messageId id) ∨ s.HasKey (.fingerprint fp) := by
  simp [matchesKey, HasKey]

end Submission

namespace Lookup

/-- The keys that a lookup asks about. -/
def keys (q : Lookup) : List StoreKey :=
  [.messageId q.messageId, .fingerprint q.fingerprint]

/-- The submission was received in the window, with the id or the fingerprint. -/
def Admits (q : Lookup) (s : Submission) : Prop :=
  q.since ≤ s.receivedAt ∧ s.matchesKey q.messageId q.fingerprint = true

theorem admits_iff {q : Lookup} {s : Submission} :
    q.Admits s ↔ q.since ≤ s.receivedAt ∧ ∃ k ∈ q.keys, s.HasKey k := by
  simp [Admits, keys, Submission.matchesKey_iff]

end Lookup

namespace Memory

/-! ## The state as one map -/

/-- The submission under a key. -/
def kept? (m : Memory) : StoreKey → Option Submission
  | .messageId id => m.byMessageId.get? id
  | .fingerprint fp => m.byFingerprint.get? fp

@[simp]
theorem kept?_empty (k : StoreKey) : empty.kept? k = none := by
  cases k <;> rfl

theorem kept?_note (m : Memory) (x : Sighting) (k : StoreKey) :
    (m.note x).kept? k =
      if x.submission.HasKey k then
        some (((m.kept? k).map fun s => Sightings.earlier x.since s x.submission).getD x.submission)
      else m.kept? k := by
  cases k with
  | messageId id =>
    by_cases h : x.submission.messageId = id
    · simp [kept?, note, Sightings.get?_record, Submission.HasKey, h]
    · simp [kept?, note, Sightings.get?_record, Submission.HasKey, h, Ne.symm h]
  | fingerprint fp =>
    by_cases h : x.submission.fingerprint = fp
    · simp [kept?, note, Sightings.get?_record, Submission.HasKey, h]
    · simp [kept?, note, Sightings.get?_record, Submission.HasKey, h, Ne.symm h]

theorem kept?_evictBefore (m : Memory) (cutoff : Timestamp) (k : StoreKey) :
    (m.evictBefore cutoff).kept? k = (m.kept? k).filter fun s => cutoff ≤ s.receivedAt := by
  cases k <;> exact Sightings.get?_retain ..

/-- A request to remember notes the submission, and may sweep as well. -/
theorem remember_eq (m : Memory) (x : Sighting) :
    m.remember x = m.note x ∨ m.remember x = (m.note x).evictBefore x.since := by
  unfold remember
  dsimp only
  split
  · exact Or.inr rfl
  · exact Or.inl rfl

/-- What is kept once a submission was noted was kept before, unless it is that submission. -/
theorem kept?_of_note {m : Memory} {x : Sighting} {k : StoreKey} {s : Submission}
    (h : (m.note x).kept? k = some s) :
    m.kept? k = some s ∨ s.HasKey k ∧ x.submission = s := by
  rw [kept?_note] at h
  split at h
  · rename_i hx
    cases hp : m.kept? k with
    | none =>
      rw [hp] at h
      obtain rfl := Option.some.inj h
      exact Or.inr ⟨hx, rfl⟩
    | some p =>
      rw [hp] at h
      have he : Sightings.earlier x.since p x.submission = s := Option.some.inj h
      unfold Sightings.earlier at he
      split at he
      · exact Or.inr ⟨he ▸ hx, he⟩
      · exact Or.inl (congrArg _ he)
  · exact Or.inl h

/-- A sweep brings nothing in. -/
theorem kept?_of_evictBefore {m : Memory} {cutoff : Timestamp} {k : StoreKey} {s : Submission}
    (h : (m.evictBefore cutoff).kept? k = some s) : m.kept? k = some s := by
  rw [kept?_evictBefore] at h
  exact (Option.filter_eq_some_iff.mp h).1

theorem kept?_of_remember {m : Memory} {x : Sighting} {k : StoreKey} {s : Submission}
    (h : (m.remember x).kept? k = some s) :
    m.kept? k = some s ∨ s.HasKey k ∧ x.submission = s := by
  rcases remember_eq m x with e | e <;> rw [e] at h
  · exact kept?_of_note h
  · exact kept?_of_note (kept?_of_evictBefore h)

/-! ## What a lookup sees -/

/-- The submission under a key, if it was received in the window. -/
def sighted? (since : Timestamp) (m : Memory) (k : StoreKey) : Option Submission :=
  (m.kept? k).filter fun s => since ≤ s.receivedAt

theorem sighted?_eq_some_iff {since : Timestamp} {m : Memory} {k : StoreKey} {s : Submission} :
    m.sighted? since k = some s ↔ m.kept? k = some s ∧ since ≤ s.receivedAt := by
  simp [sighted?, Option.filter_eq_some_iff]

theorem find?_eq (q : Lookup) (m : Memory) :
    m.find? q =
      earliest? (m.sighted? q.since (.messageId q.messageId))
        (m.sighted? q.since (.fingerprint q.fingerprint)) := rfl

theorem isSome_find? {q : Lookup} {m : Memory} :
    (m.find? q).isSome ↔ ∃ k ∈ q.keys, (m.sighted? q.since k).isSome := by
  rw [find?_eq]
  simp only [Lookup.keys, List.mem_cons, List.not_mem_nil, or_false, exists_eq_or_imp,
    exists_eq_left]
  cases m.sighted? q.since (.messageId q.messageId) <;>
    cases m.sighted? q.since (.fingerprint q.fingerprint) <;> simp [earliest?]

/-- What is found is seen under a key, and nothing seen under either key is earlier. -/
theorem sighted?_of_find? {q : Lookup} {m : Memory} {s : Submission} (h : m.find? q = some s) :
    (∃ k ∈ q.keys, m.sighted? q.since k = some s) ∧
      ∀ k ∈ q.keys, ∀ t, m.sighted? q.since k = some t → s.receivedAt ≤ t.receivedAt := by
  rw [find?_eq] at h
  simp only [Lookup.keys, List.mem_cons, List.not_mem_nil, or_false, exists_eq_or_imp,
    exists_eq_left, forall_eq_or_imp, forall_eq]
  cases ha : m.sighted? q.since (.messageId q.messageId) with
  | none =>
    rw [ha] at h
    refine ⟨Or.inr h, by simp, fun t ht => ?_⟩
    obtain rfl : s = t := by simpa [earliest?, ht] using h.symm
    exact le_rfl
  | some a =>
    cases hb : m.sighted? q.since (.fingerprint q.fingerprint) with
    | none =>
      rw [ha, hb] at h
      obtain rfl : a = s := Option.some.inj h
      simp
    | some b =>
      rw [ha, hb] at h
      have h : (if b.receivedAt < a.receivedAt then b else a) = s := Option.some.inj h
      split at h
      · rename_i hlt
        subst h
        simpa using hlt.le
      · rename_i hge
        subst h
        simpa using not_lt.mp hge

/-- Of two that are equally early, the one with the id is found. -/
theorem eq_of_find?_of_le {q : Lookup} {m : Memory} {s t : Submission} (h : m.find? q = some s)
    (ht : m.sighted? q.since (.messageId q.messageId) = some t)
    (hle : t.receivedAt ≤ s.receivedAt) : s = t := by
  rw [find?_eq, ht] at h
  cases hb : m.sighted? q.since (.fingerprint q.fingerprint) with
  | none =>
    rw [hb] at h
    exact (Option.some.inj h).symm
  | some b =>
    rw [hb] at h
    have h : (if b.receivedAt < t.receivedAt then b else t) = s := Option.some.inj h
    split at h
    · rename_i hlt
      subst h
      exact absurd hle (not_le.mpr hlt)
    · exact h.symm

/-- **A lookup does not see what a sweep dropped before it.** -/
theorem sighted?_evictBefore {cutoff since : Timestamp} (h : cutoff ≤ since) (m : Memory)
    (k : StoreKey) : (m.evictBefore cutoff).sighted? since k = m.sighted? since k := by
  unfold sighted?
  rw [kept?_evictBefore, Option.filter_filter]
  congr 1
  funext s
  simpa using fun hs : since ≤ s.receivedAt => h.trans hs

theorem sighted?_remember {x : Sighting} {since : Timestamp} (h : x.since ≤ since) (m : Memory)
    (k : StoreKey) : (m.remember x).sighted? since k = (m.note x).sighted? since k := by
  rcases remember_eq m x with e | e
  · rw [e]
  · rw [e, sighted?_evictBefore h]

/-! ## What was remembered and is seen -/

/-- The store after these requests to remember, the first one first. -/
def ofSightings (xs : List Sighting) : Memory :=
  xs.foldl (fun m x => m.remember x) empty

@[simp]
theorem ofSightings_concat (xs : List Sighting) (y : Sighting) :
    ofSightings (xs ++ [y]) = (ofSightings xs).remember y := by
  simp [ofSightings]

/-- **Only what was remembered is kept**, and under its own keys. -/
theorem mem_of_kept? {xs : List Sighting} {k : StoreKey} {s : Submission}
    (h : (ofSightings xs).kept? k = some s) : s.HasKey k ∧ ∃ x ∈ xs, x.submission = s := by
  induction xs using List.reverseRecOn with
  | nil => simp [ofSightings] at h
  | append_singleton xs y ih =>
    rw [ofSightings_concat] at h
    rcases kept?_of_remember h with hs | ⟨hk, rfl⟩
    · obtain ⟨hk, x, hx, rfl⟩ := ih hs
      exact ⟨hk, x, List.mem_append_left _ hx, rfl⟩
    · exact ⟨hk, y, by simp, rfl⟩

/-- Of two submissions with a key, the one remembered first was out of the window by then, or both
were received at the same time. -/
def Spaced (xs : List Sighting) : Prop :=
  xs.Pairwise fun x y => x.submission.SharesKey y.submission →
    x.submission.receivedAt < y.since ∨ x.submission.receivedAt = y.submission.receivedAt

/-- **What was remembered of the window is seen**, as far as the time of receipt goes. -/
theorem exists_sighted? {xs : List Sighting} (hs : Spaced xs) {since : Timestamp}
    (hw : ∀ x ∈ xs, x.since ≤ since) {x : Sighting} (hx : x ∈ xs) {k : StoreKey}
    (hk : x.submission.HasKey k) (hr : since ≤ x.submission.receivedAt) :
    ∃ s, (ofSightings xs).sighted? since k = some s ∧ s.receivedAt = x.submission.receivedAt := by
  induction xs using List.reverseRecOn with
  | nil => cases hx
  | append_singleton xs y ih =>
    obtain ⟨hs, -, hy⟩ := List.pairwise_append.mp hs
    have hwy : y.since ≤ since := hw y (by simp)
    have ih := ih hs fun z hz => hw z (List.mem_append_left _ hz)
    -- what is kept under a key of `y` was out of the window or received when `y` was
    have kept : ∀ {p}, (ofSightings xs).kept? k = some p → y.submission.HasKey k →
        p.receivedAt < y.since ∨ p.receivedAt = y.submission.receivedAt := by
      intro p hp hyk
      obtain ⟨hpk, z, hz, rfl⟩ := mem_of_kept? hp
      exact hy z hz y (by simp) (Submission.sharesKey_of_hasKey hpk hyk)
    rw [ofSightings_concat, sighted?_remember hwy]
    simp only [sighted?_eq_some_iff, kept?_note] at ih ⊢
    rcases List.mem_append.mp hx with hx | hx
    · obtain ⟨s, ⟨hks, hrs⟩, hsx⟩ := ih hx
      refine ⟨s, ⟨?_, hrs⟩, hsx⟩
      split
      · rename_i hyk
        have hin : ¬ s.receivedAt < y.since := not_lt.mpr (hwy.trans hrs)
        have heq := (kept hks hyk).resolve_left hin
        rw [hks, Option.map_some, Option.getD_some, Sightings.earlier,
          if_neg (not_or.mpr ⟨hin, heq.not_gt⟩)]
      · exact hks
    · obtain rfl := List.mem_singleton.mp hx
      rw [if_pos hk]
      cases hp : (ofSightings xs).kept? k with
      | none => exact ⟨x.submission, ⟨rfl, hr⟩, rfl⟩
      | some p =>
        rw [Option.map_some, Option.getD_some, Sightings.earlier]
        split
        · exact ⟨x.submission, ⟨rfl, hr⟩, rfl⟩
        · rename_i hn
          have heq := (kept hp hk).resolve_left fun h => hn (Or.inl h)
          exact ⟨p, ⟨rfl, heq ▸ hr⟩, heq⟩

end Memory
end TradeIntake
