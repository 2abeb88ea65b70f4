import TradeIntake.Store

/-!
# The store in memory

Submissions are kept twice, by message id and by fingerprint. A key keeps one submission: the
earliest, until it falls out of the window and the next submission takes its place. Every 256th
request to remember sweeps out what is older than its window; the requests are counted in 64 bits.

Model of `InMemoryDuplicateStore` (`crates/dedup/src/store.rs`): `record` is `Sightings.record`,
`find` is `Memory.find?`, `evict_before` is `Memory.evictBefore`, and `PRUNE_EVERY` is `sweepEvery`.

* **`get?_record`**: only the recorded key changes.
* **`get?_retain`**: a key loses its submission exactly when that is older than the cutoff.
-/

namespace TradeIntake

/-- Submissions by key. -/
structure Sightings where
  entries : List (String × Submission)
  keys_nodup : (entries.map (·.1)).Nodup

namespace Sightings

/-- No submission. -/
def empty : Sightings := ⟨[], List.nodup_nil⟩

/-- How many keys have a submission. -/
def size (m : Sightings) : Nat := m.entries.length

/-- The submission of a key. -/
def get? (m : Sightings) (key : String) : Option Submission :=
  m.entries.lookup key

/-- Which of two submissions a key keeps: the new one when the prior one is out of the window or
was received later. -/
def earlier (since : Timestamp) (prior new : Submission) : Submission :=
  if prior.receivedAt < since ∨ new.receivedAt < prior.receivedAt then new else prior

/-- The entries after a submission of that key. -/
def recordIn (since : Timestamp) (key : String) (new : Submission) :
    List (String × Submission) → List (String × Submission)
  | [] => [(key, new)]
  | e :: es =>
    if e.1 = key then (key, earlier since e.2 new) :: es else e :: recordIn since key new es

theorem keys_recordIn (since : Timestamp) (key : String) (new : Submission)
    (es : List (String × Submission)) :
    (recordIn since key new es).map (·.1) =
      if key ∈ es.map (·.1) then es.map (·.1) else es.map (·.1) ++ [key] := by
  induction es with
  | nil => rfl
  | cons e es ih =>
    unfold recordIn
    by_cases h : e.1 = key
    · simp [h]
    · simp only [h, if_false, List.map_cons, ih]
      have h' : key ≠ e.1 := fun x => h x.symm
      by_cases hm : key ∈ es.map (·.1) <;> simp [hm, h']

/-- Note a submission under a key. -/
def record (since : Timestamp) (key : String) (new : Submission) (m : Sightings) : Sightings where
  entries := recordIn since key new m.entries
  keys_nodup := by
    rw [keys_recordIn]
    split
    · exact m.keys_nodup
    · rename_i h
      exact List.nodup_append.mpr
        ⟨m.keys_nodup, by simp, fun a ha b hb e => h (by simp_all)⟩

/-- Drop what was received before the cutoff. -/
def retain (cutoff : Timestamp) (m : Sightings) : Sightings where
  entries := m.entries.filter fun e => cutoff ≤ e.2.receivedAt
  keys_nodup := (List.filter_sublist.map _).nodup m.keys_nodup

/-! ## What a key keeps -/

theorem lookup_recordIn (since : Timestamp) (key k : String) (new : Submission)
    (es : List (String × Submission)) :
    (recordIn since key new es).lookup k =
      if k = key then some (((es.lookup key).map fun prior => earlier since prior new).getD new)
      else es.lookup k := by
  induction es with
  | nil =>
    by_cases h : k = key
    · simp [recordIn, h]
    · have : (k == key) = false := by simpa using h
      simp [recordIn, List.lookup_cons, this, h]
  | cons e es ih =>
    obtain ⟨ek, ev⟩ := e
    unfold recordIn
    by_cases h : ek = key
    · subst h
      by_cases hk : k = ek
      · simp [hk]
      · have : (k == ek) = false := by simpa using hk
        simp [List.lookup_cons, this, hk]
    · have hke : (key == ek) = false := by simpa using fun x : key = ek => h x.symm
      simp only [h, if_false, List.lookup_cons, hke]
      by_cases hk : k = ek
      · subst hk
        have : k ≠ key := h
        simp [this]
      · have : (k == ek) = false := by simpa using hk
        simp only [this, ih]

theorem get?_record (since : Timestamp) (key k : String) (new : Submission) (m : Sightings) :
    (m.record since key new).get? k =
      if k = key then some (((m.get? key).map fun prior => earlier since prior new).getD new)
      else m.get? k :=
  lookup_recordIn since key k new m.entries

theorem get?_eq_some_iff (m : Sightings) (key : String) (s : Submission) :
    m.get? key = some s ↔ (key, s) ∈ m.entries := by
  obtain ⟨es, hd⟩ := m
  simp only [get?]
  induction es with
  | nil => simp
  | cons e es ih =>
    obtain ⟨k, v⟩ := e
    simp only [List.map_cons, List.nodup_cons] at hd
    by_cases h : key = k
    · subst h
      have : ∀ s, (key, s) ∉ es := fun s hs => hd.1 (List.mem_map_of_mem (f := (·.1)) hs)
      simp [this, eq_comm]
    · have hb : (key == k) = false := by simpa using h
      simp [List.lookup_cons, hb, ih hd.2, h]

theorem get?_retain (cutoff : Timestamp) (m : Sightings) (key : String) :
    (m.retain cutoff).get? key = (m.get? key).filter fun s => cutoff ≤ s.receivedAt := by
  apply Option.ext
  intro s
  rw [get?_eq_some_iff, Option.filter_eq_some_iff, get?_eq_some_iff]
  simp [retain]

end Sightings

/-- The state of the store in memory. -/
structure Memory where
  byMessageId : Sightings
  byFingerprint : Sightings
  /-- How many submissions were remembered, modulo 2⁶⁴. -/
  inserts : UInt64

namespace Memory

/-- Nothing remembered yet. -/
def empty : Memory := ⟨.empty, .empty, 0⟩

/-- How many fingerprints are kept. -/
def size (m : Memory) : Nat := m.byFingerprint.size

/-- Nothing is kept under either key. -/
def isEmpty (m : Memory) : Bool :=
  m.byFingerprint.size == 0 && m.byMessageId.size == 0

/-- Drop what was received before the cutoff. -/
def evictBefore (cutoff : Timestamp) (m : Memory) : Memory :=
  { m with
    byMessageId := m.byMessageId.retain cutoff
    byFingerprint := m.byFingerprint.retain cutoff }

/-- How many fingerprints an eviction drops. -/
def evictedCount (cutoff : Timestamp) (m : Memory) : Nat :=
  m.size - (m.evictBefore cutoff).size

/-- The earlier of two submissions, the first of two that are equally early. -/
def earliest? : Option Submission → Option Submission → Option Submission
  | some a, some b => some (if b.receivedAt < a.receivedAt then b else a)
  | some a, none => some a
  | none, b => b

/-- The earliest submission in the window that is kept under the id or the fingerprint. -/
def find? (q : Lookup) (m : Memory) : Option Submission :=
  let inWindow (s : Submission) : Bool := q.since ≤ s.receivedAt
  earliest? ((m.byMessageId.get? q.messageId).filter inWindow)
    ((m.byFingerprint.get? q.fingerprint).filter inWindow)

/-- Note a submission under both of its keys and count it. -/
def note (s : Sighting) (m : Memory) : Memory where
  byMessageId := m.byMessageId.record s.since s.submission.messageId s.submission
  byFingerprint := m.byFingerprint.record s.since s.submission.fingerprint s.submission
  inserts := m.inserts + 1

/-- After how many submissions old ones are swept out. -/
def sweepEvery : UInt64 := 256

/-- Remember a submission, and sweep when its turn has come. -/
def remember (s : Sighting) (m : Memory) : Memory :=
  let noted := m.note s
  if m.inserts % sweepEvery = sweepEvery - 1 then noted.evictBefore s.since else noted

end Memory

/-- The store in memory. It answers at once. -/
def Store.memory : Store Memory where
  find _ q m := (.answered (m.find? q), m)
  remember _ s m := (.answered (), m.remember s)

end TradeIntake
