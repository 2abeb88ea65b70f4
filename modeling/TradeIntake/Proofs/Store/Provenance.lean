import TradeIntake.Proofs.Store.Kept

/-!
# Where answers come from

Here the store in memory is asked in any order: requests to remember, lookups and sweeps, with
windows and cutoffs that may go back and forth. Whatever it keeps was remembered before and is kept
under its own keys, so no message is ever taken for a duplicate of one that shares nothing with it.

* **`provenance_after`**: what the store keeps and what its lookups find, after any requests.
-/

namespace TradeIntake

namespace Memory

/-- A request to the store in memory. -/
inductive Request where
  | remember (x : Sighting)
  | find (q : Lookup)
  | evictBefore (cutoff : Timestamp)

/-- The store after a request; a lookup leaves it as it is. -/
def Request.perform : Request → Memory → Memory
  | .remember x, m => m.remember x
  | .find _, m => m
  | .evictBefore cutoff, m => m.evictBefore cutoff

/-- The store after requests, the first one first. -/
def after (rs : List Request) : Memory :=
  rs.foldl (fun m r => r.perform m) empty

@[simp]
theorem after_concat (rs : List Request) (r : Request) :
    after (rs ++ [r]) = r.perform (after rs) := by
  simp [after]

/-- One of the requests was to remember that submission. -/
def Remembered (rs : List Request) (s : Submission) : Prop :=
  ∃ since, Request.remember ⟨s, since⟩ ∈ rs

theorem Remembered.concat {rs : List Request} {s : Submission} (h : Remembered rs s) (r : Request) :
    Remembered (rs ++ [r]) s := by
  obtain ⟨since, h⟩ := h
  exact ⟨since, List.mem_append_left _ h⟩

/-! ## What is kept -/

/-- A request brings in nothing but the submission that it asks to remember. -/
theorem kept?_of_perform {r : Request} {m : Memory} {k : StoreKey} {s : Submission}
    (h : (r.perform m).kept? k = some s) :
    m.kept? k = some s ∨ s.HasKey k ∧ ∃ since, r = .remember ⟨s, since⟩ := by
  cases r with
  | remember x =>
    rcases kept?_of_remember h with h | ⟨hk, rfl⟩
    · exact Or.inl h
    · exact Or.inr ⟨hk, x.since, rfl⟩
  | find q => exact Or.inl h
  | evictBefore cutoff => exact Or.inl (kept?_of_evictBefore h)

/-- **What is kept was remembered**, and is kept under its own keys. -/
theorem remembered_of_kept? {rs : List Request} {k : StoreKey} {s : Submission}
    (h : (after rs).kept? k = some s) : s.HasKey k ∧ Remembered rs s := by
  induction rs using List.reverseRecOn with
  | nil => simp [after] at h
  | append_singleton rs r ih =>
    rw [after_concat] at h
    rcases kept?_of_perform h with h | ⟨hk, since, rfl⟩
    · exact ⟨(ih h).1, (ih h).2.concat r⟩
    · exact ⟨hk, since, by simp⟩

/-! ## What is found -/

/-- The submission is stored under a key of the lookup. -/
def StoredFor (m : Memory) (q : Lookup) (s : Submission) : Prop :=
  (q.messageId, s) ∈ m.byMessageId.entries ∨ (q.fingerprint, s) ∈ m.byFingerprint.entries

theorem storedFor_iff {m : Memory} {q : Lookup} {s : Submission} :
    m.StoredFor q s ↔ ∃ k ∈ q.keys, m.kept? k = some s := by
  simp [StoredFor, Lookup.keys, kept?, Sightings.get?_eq_some_iff]

/-- **A genuine answer** to a lookup: it was remembered before, it was received in the window, it
has the id or the fingerprint, and nothing of the window that is stored under them is earlier. -/
structure Genuine (rs : List Request) (q : Lookup) (s : Submission) : Prop where
  remembered : Remembered rs s
  inWindow : q.since ≤ s.receivedAt
  shares : s.messageId = q.messageId ∨ s.fingerprint = q.fingerprint
  earliest : ∀ t, (after rs).StoredFor q t → q.since ≤ t.receivedAt → s.receivedAt ≤ t.receivedAt

theorem genuine_of_find? {rs : List Request} {q : Lookup} {s : Submission}
    (h : (after rs).find? q = some s) : Genuine rs q s := by
  obtain ⟨⟨k, hk, hs⟩, hmin⟩ := sighted?_of_find? h
  obtain ⟨hkept, hr⟩ := sighted?_eq_some_iff.mp hs
  obtain ⟨hsk, hrem⟩ := remembered_of_kept? hkept
  refine ⟨hrem, hr, ?_, fun t ht htr => ?_⟩
  · have hm := (Lookup.admits_iff.mpr ⟨hr, k, hk, hsk⟩).2
    simpa [Submission.matchesKey] using hm
  · obtain ⟨k', hk', ht⟩ := storedFor_iff.mp ht
    exact hmin k' hk' t (sighted?_eq_some_iff.mpr ⟨ht, htr⟩)

/-- A lookup finds something when anything of the window is stored under its keys. -/
theorem isSome_find?_iff_storedFor {m : Memory} {q : Lookup} :
    (m.find? q).isSome ↔ ∃ s, m.StoredFor q s ∧ q.since ≤ s.receivedAt := by
  rw [isSome_find?]
  simp only [Option.isSome_iff_exists, sighted?_eq_some_iff, storedFor_iff]
  constructor
  · rintro ⟨k, hk, s, hs, hr⟩
    exact ⟨s, ⟨k, hk, hs⟩, hr⟩
  · rintro ⟨s, ⟨k, hk, hs⟩, hr⟩
    exact ⟨k, hk, s, hs, hr⟩

/-- **No false duplicates**, whatever the store was asked before: each of its entries stands under
the key that it has and was remembered by one of the requests, a lookup finds something exactly when
there is an entry for it in its window, and what it finds is genuine. -/
theorem provenance_after (rs : List Request) :
    (∀ e ∈ (after rs).byMessageId.entries, e.1 = e.2.messageId ∧ Remembered rs e.2) ∧
    (∀ e ∈ (after rs).byFingerprint.entries, e.1 = e.2.fingerprint ∧ Remembered rs e.2) ∧
    ∀ q : Lookup,
      (((after rs).find? q).isSome ↔ ∃ s, (after rs).StoredFor q s ∧ q.since ≤ s.receivedAt) ∧
      ∀ s, (after rs).find? q = some s → Genuine rs q s := by
  refine ⟨fun e he => ?_, fun e he => ?_, fun q =>
    ⟨isSome_find?_iff_storedFor, fun s hs => genuine_of_find? hs⟩⟩
  · have hk : (after rs).kept? (.messageId e.1) = some e.2 :=
      (Sightings.get?_eq_some_iff ..).mpr he
    exact ⟨(remembered_of_kept? hk).1.symm, (remembered_of_kept? hk).2⟩
  · have hk : (after rs).kept? (.fingerprint e.1) = some e.2 :=
      (Sightings.get?_eq_some_iff ..).mpr he
    exact ⟨(remembered_of_kept? hk).1.symm, (remembered_of_kept? hk).2⟩

end Memory
end TradeIntake
