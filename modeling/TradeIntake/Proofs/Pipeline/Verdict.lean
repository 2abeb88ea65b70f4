import Mathlib.Data.List.Pairwise
import TradeIntake.Proofs.Pipeline.Run

/-!
# Who is a duplicate of whom

Over a clock that never goes backwards, the submissions that a run has remembered come one window
apart: whatever is remembered was looked for just before, and nothing with one of its keys was in
the window then. So no submission is lost while it is in the window of a later turn, however often
the store sweeps and however often a key is used again.

* **`apart_sightings`**: submissions with a key come one window apart.
* **`isDuplicate_iff_original`**: a message is a duplicate exactly of the messages in its window
  with its id or its content that are no duplicates themselves; the earliest one is its original.
-/

namespace TradeIntake

/-! ## The clock -/

/-- The times that are read during a call, in the order in which they are read. -/
def Readings.times (r : Readings) : List Timestamp :=
  [r.received, r.lookedUp, r.checked, r.processed, r.recorded]

/-- The clock never goes backwards, within a call and from one to the next. -/
def ClockForward (calls : List (Message × Call)) : Prop :=
  (calls.flatMap fun c => c.2.clock.times).Pairwise (· ≤ ·)

namespace ClockForward

variable {calls earlier later : List (Message × Call)} {c d : Message × Call}

theorem lookedUp_le_recorded (h : ClockForward calls) (hc : c ∈ calls) :
    c.2.clock.lookedUp ≤ c.2.clock.recorded := by
  have := (List.pairwise_flatMap.mp h).1 c hc
  simp only [Readings.times, List.pairwise_cons] at this
  exact this.2.1 _ (by simp)

theorem recorded_le_lookedUp (h : ClockForward (earlier ++ c :: later)) (hd : d ∈ earlier) :
    d.2.clock.recorded ≤ c.2.clock.lookedUp := by
  have := (List.pairwise_append.mp (List.pairwise_flatMap.mp h).2).2.2 d hd c (by simp)
  exact this _ (by simp [Readings.times]) _ (by simp [Readings.times])

theorem of_append (h : ClockForward (earlier ++ later)) : ClockForward earlier := by
  unfold ClockForward at h
  rw [List.flatMap_append] at h
  exact (List.pairwise_append.mp h).1

end ClockForward

namespace Pipeline

variable {p : Pipeline Memory}

/-! ## Submissions of a run -/

/-- The submissions that the turns of a run leave, in order. -/
def sightings (p : Pipeline Memory) (ts : List Turn) : List Sighting :=
  ts.filterMap p.sighting?

theorem mem_sightings_iff {ts : List Turn} {x : Sighting} :
    x ∈ p.sightings ts ↔ ∃ t ∈ ts, p.sighting? t = some x := List.mem_filterMap

theorem sighting?_eq_some_iff {t : Turn} {x : Sighting} :
    p.sighting? t = some x ↔ t.isDuplicate = false ∧
      ∃ fp, t.message.checkable? p.settings.ingest = some fp ∧
        x = ⟨⟨t.message.messageId, fp, t.call.clock.received⟩, p.since t.call.clock.recorded⟩ := by
  unfold sighting?
  cases t.isDuplicate <;> simp [eq_comm]

/-- What a turn leaves tells its id, its content and when it was received. -/
theorem submission_of_sighting? {calls : List (Message × Call)} {m : Memory} {t : Turn}
    (ht : t ∈ p.turns calls m) {x : Sighting} (hx : p.sighting? t = some x) :
    x.submission.messageId = t.message.messageId ∧
      t.output.fingerprint? = some x.submission.fingerprint ∧
      x.submission.receivedAt = t.call.clock.received := by
  obtain ⟨c, -, m', rfl⟩ := p.exists_of_mem_turns _ _ ht
  obtain ⟨-, fp, hfp, rfl⟩ := sighting?_eq_some_iff.mp hx
  exact ⟨rfl, p.fingerprint?_process_of_checked _ _ _ hfp, rfl⟩

/-- Every window of the past starts before the window of a turn. -/
theorem since_le_of_mem_sightings {earlier later : List (Message × Call)} {c : Message × Call}
    {m : Memory} (h : ClockForward (earlier ++ c :: later)) {x : Sighting}
    (hx : x ∈ p.sightings (p.turns earlier m)) : x.since ≤ p.since c.2.clock.lookedUp := by
  obtain ⟨t, ht, hx⟩ := mem_sightings_iff.mp hx
  obtain ⟨d, hd, _, rfl⟩ := p.exists_of_mem_turns _ _ ht
  obtain ⟨-, fp, -, rfl⟩ := sighting?_eq_some_iff.mp hx
  exact windowStart_mono (h.recorded_le_lookedUp hd) _

/-- Of two submissions with a key, the earlier one was out of the window when the later one was
remembered. -/
def Apart (xs : List Sighting) : Prop :=
  xs.Pairwise fun x y =>
    x.submission.SharesKey y.submission → x.submission.receivedAt < y.since

theorem Apart.spaced {xs : List Sighting} (h : Apart xs) : Memory.Spaced xs :=
  h.imp fun hxy hs => Or.inl (hxy hs)

/-- In one window there is one submission for a key. -/
theorem Apart.eq_of_sharesKey {xs : List Sighting} (h : Apart xs) {since : Timestamp}
    (hle : ∀ x ∈ xs, x.since ≤ since) {x y : Sighting} (hx : x ∈ xs) (hy : y ∈ xs)
    (hs : x.submission.SharesKey y.submission) (hrx : since ≤ x.submission.receivedAt)
    (hry : since ≤ y.submission.receivedAt) : x = y := by
  have : Std.Symm fun x y : Sighting => x.submission.SharesKey y.submission →
      x.submission.receivedAt < since ∨ y.submission.receivedAt < since :=
    ⟨fun _ _ hxy hs => (hxy (hs.imp Eq.symm Eq.symm)).symm⟩
  have key : xs.Pairwise fun x y => x.submission.SharesKey y.submission →
      x.submission.receivedAt < since ∨ y.submission.receivedAt < since :=
    List.Pairwise.imp_of_mem (fun _ hb hxy hs => Or.inl ((hxy hs).trans_le (hle _ hb))) h
  by_contra hne
  rcases key.forall hx hy hne hs with hlt | hlt
  · exact absurd hrx (not_le.mpr hlt)
  · exact absurd hry (not_le.mpr hlt)

variable {calls earlier later : List (Message × Call)} {c : Message × Call} {q : Lookup}
variable (hp : p.RemembersInMemory)

theorem since_le_of_lookup? {m : Memory} (hclock : ClockForward (earlier ++ c :: later))
    (hq : p.lookup? c.1 c.2 = some q) :
    ∀ x ∈ p.sightings (p.turns earlier m), x.since ≤ q.since := by
  obtain ⟨fp, -, rfl⟩ := Option.map_eq_some_iff.mp hq
  exact fun x hx => since_le_of_mem_sightings hclock hx

theorem messageId_of_lookup? (hq : p.lookup? c.1 c.2 = some q) : q.messageId = c.1.messageId := by
  obtain ⟨fp, -, rfl⟩ := Option.map_eq_some_iff.mp hq
  rfl

include hp

/-- A lookup is answered as it should be when what it asks about was remembered one window apart. -/
theorem answers_of_apart (hclock : ClockForward (earlier ++ c :: later))
    (hapart : Apart (p.sightings (p.turns earlier .empty))) (hq : p.lookup? c.1 c.2 = some q) :
    Memory.Answers (p.sightings (p.turns earlier .empty)) q
      ((p.stateAfter earlier .empty).find? q) := by
  rw [stateAfter_eq hp]
  exact Memory.answers_of_spaced hapart.spaced (since_le_of_lookup? hclock hq)

/-- **The submissions of a run come one window apart.** -/
theorem apart_sightings (hclock : ClockForward calls) :
    Apart (p.sightings (p.turns calls .empty)) := by
  induction calls using List.reverseRecOn with
  | nil => exact List.Pairwise.nil
  | append_singleton calls c ih =>
    have ih := ih hclock.of_append
    unfold sightings at ih ⊢
    rw [turns_concat, List.filterMap_append]
    refine List.pairwise_append.mpr ⟨ih, ?_, fun x hx y hy hshare => ?_⟩
    · cases h : p.sighting? (p.turn c (p.stateAfter calls .empty)) <;> simp [h]
    · obtain ⟨t, ht, hy⟩ := mem_sightings_iff.mp hy
      obtain rfl := List.mem_singleton.mp ht
      obtain ⟨hfresh, fp, hfp, rfl⟩ := sighting?_eq_some_iff.mp hy
      have hq : p.lookup? c.1 c.2 = some ⟨c.1.messageId, fp, p.since c.2.clock.lookedUp⟩ :=
        Option.map_eq_some_iff.mpr ⟨fp, hfp, rfl⟩
      -- were the earlier one in the window, the turn would have found it
      by_contra hin
      have hle : p.since c.2.clock.lookedUp ≤ x.submission.receivedAt :=
        (windowStart_mono (hclock.lookedUp_le_recorded (by simp)) _).trans (not_lt.mp hin)
      have hsome := (answers_of_apart hp hclock ih hq).isSome_iff.mpr
        ⟨x, hx, hle, by simpa [Submission.matchesKey, Submission.SharesKey, turn] using hshare⟩
      have hdup := (isDuplicate_turn hp c _).mpr ⟨_, hq, hsome⟩
      rw [hfresh] at hdup
      cases hdup

omit hp

/-! ## Originals -/

/-- An earlier message that a later one may be a duplicate of: it was checked and is no duplicate
itself, it was received in the window of the later one, and both share the id or the content. -/
structure Original (p : Pipeline Memory) (s t : Turn) : Prop where
  decoded : ∃ x, s.message.decode p.settings.ingest = .ok x
  wanted : s.message.flags.skipDuplicateCheck = false
  fresh : s.isDuplicate = false
  inWindow : windowStart t.call.clock.lookedUp p.settings.dedup.windowSecs ≤ s.call.clock.received
  shares : s.message.messageId = t.message.messageId ∨
    s.output.fingerprint? = t.output.fingerprint?

/-- The earliest original; of two that are equally early, the one that shares the id. -/
structure First (p : Pipeline Memory) (before : List Turn) (s t : Turn) : Prop where
  original : p.Original s t
  earliest : ∀ r ∈ before, p.Original r t → s.call.clock.received ≤ r.call.clock.received
  sharesId : ∀ r ∈ before, p.Original r t → r.call.clock.received = s.call.clock.received →
    r.message.messageId = t.message.messageId → s.message.messageId = t.message.messageId

/-- **Originals are what a lookup admits** of the submissions of a run. -/
theorem original_turn_iff {s : Turn} (hs : s ∈ p.turns earlier .empty) {m : Memory}
    (hq : p.lookup? c.1 c.2 = some q) :
    p.Original s (p.turn c m) ↔ ∃ x, p.sighting? s = some x ∧ q.Admits x.submission := by
  obtain ⟨fp, hfp, rfl⟩ := Option.map_eq_some_iff.mp hq
  have ht : (p.turn c m).output.fingerprint? = some fp :=
    p.fingerprint?_process_of_checked _ _ _ hfp
  have hshares : ∀ x, p.sighting? s = some x → (x.submission.matchesKey c.1.messageId fp = true ↔
      s.message.messageId = (p.turn c m).message.messageId ∨
        s.output.fingerprint? = (p.turn c m).output.fingerprint?) := by
    intro x hx
    obtain ⟨hid, hxfp, -⟩ := submission_of_sighting? hs hx
    rw [ht, hxfp, Option.some_inj, ← hid]
    simp [Submission.matchesKey, turn]
  constructor
  · intro h
    obtain ⟨fp', hfp'⟩ := Option.isSome_iff_exists.mp
      (Message.isSome_checkable?.mpr ⟨h.decoded, h.wanted⟩)
    have hx := sighting?_eq_some_iff.mpr ⟨h.fresh, fp', hfp', rfl⟩
    exact ⟨_, hx, h.inWindow, (hshares _ hx).mpr h.shares⟩
  · rintro ⟨x, hx, hle, hm⟩
    obtain ⟨hfresh, fp', hfp', -⟩ := sighting?_eq_some_iff.mp hx
    obtain ⟨hdecoded, hwanted⟩ :=
      Message.isSome_checkable?.mp (Option.isSome_iff_exists.mpr ⟨_, hfp'⟩)
    rw [(submission_of_sighting? hs hx).2.2] at hle
    exact ⟨hdecoded, hwanted, hfresh, hle, (hshares x hx).mp hm⟩

include hp

/-- A lookup finds something exactly when there is an original. -/
theorem isSome_find?_iff (hclock : ClockForward (earlier ++ c :: later))
    (hq : p.lookup? c.1 c.2 = some q) (m : Memory) :
    ((p.stateAfter earlier .empty).find? q).isSome ↔
      ∃ s ∈ p.turns earlier .empty, p.Original s (p.turn c m) := by
  rw [(answers_of_apart hp hclock (apart_sightings hp hclock.of_append) hq).isSome_iff]
  constructor
  · rintro ⟨x, hx, ha⟩
    obtain ⟨s, hs, hsx⟩ := mem_sightings_iff.mp hx
    exact ⟨s, hs, (original_turn_iff hs hq).mpr ⟨x, hsx, ha⟩⟩
  · rintro ⟨s, hs, ho⟩
    obtain ⟨x, hsx, ha⟩ := (original_turn_iff hs hq).mp ho
    exact ⟨x, mem_sightings_iff.mpr ⟨s, hs, hsx⟩, ha⟩

/-- What a lookup finds is the submission of the first original. -/
theorem exists_first_of_find? (hclock : ClockForward (earlier ++ c :: later))
    (hq : p.lookup? c.1 c.2 = some q) {found : Submission}
    (hf : (p.stateAfter earlier .empty).find? q = some found) (m : Memory) :
    ∃ s ∈ p.turns earlier .empty,
      p.First (p.turns earlier .empty) s (p.turn c m) ∧ s.message.messageId = found.messageId := by
  have hapart := apart_sightings hp hclock.of_append
  obtain ⟨⟨x, hx, rfl⟩, ha, hmin⟩ :=
    (answers_of_apart hp hclock hapart hq).earliest found hf
  obtain ⟨s, hs, hsx⟩ := mem_sightings_iff.mp hx
  obtain ⟨-, fp, -, rfl⟩ := sighting?_eq_some_iff.mp hsx
  have ho := (original_turn_iff (m := m) hs hq).mpr ⟨_, hsx, ha⟩
  refine ⟨s, hs, ⟨ho, fun r hr ho => ?_, fun r hr ho he hid => ?_⟩, rfl⟩
  · obtain ⟨y, hry, hay⟩ := (original_turn_iff hr hq).mp ho
    have hle := hmin y (mem_sightings_iff.mpr ⟨r, hr, hry⟩) hay
    rwa [(submission_of_sighting? hr hry).2.2] at hle
  · obtain ⟨y, hry, hay⟩ := (original_turn_iff hr hq).mp ho
    rw [stateAfter_eq hp] at hf
    have hmem : y ∈ p.sightings (p.turns earlier .empty) := mem_sightings_iff.mpr ⟨r, hr, hry⟩
    obtain ⟨hyid, -, hyr⟩ := submission_of_sighting? hr hry
    have hqid := messageId_of_lookup? hq
    exact (Memory.messageId_of_find? hapart.spaced (since_le_of_lookup? hclock hq) hf hmem
      (hyid.trans (hid.trans hqid.symm)) hay.1 (hyr.trans he).le).trans hqid

/-- There is one first original, as far as its id goes. -/
theorem messageId_eq_of_first (hclock : ClockForward (earlier ++ c :: later))
    (hq : p.lookup? c.1 c.2 = some q) {m : Memory} {r s : Turn} (hr : r ∈ p.turns earlier .empty)
    (hs : s ∈ p.turns earlier .empty) (hfr : p.First (p.turns earlier .empty) r (p.turn c m))
    (hfs : p.First (p.turns earlier .empty) s (p.turn c m)) :
    r.message.messageId = s.message.messageId := by
  have he : r.call.clock.received = s.call.clock.received :=
    le_antisymm (hfr.earliest s hs hfs.original) (hfs.earliest r hr hfr.original)
  rcases hfr.original.shares with hid | hfpr
  · exact hid.trans (hfs.sharesId r hr hfr.original he hid).symm
  rcases hfs.original.shares with hid | hfps
  · exact (hfr.sharesId s hs hfs.original he.symm hid).trans hid.symm
  -- both share the content, and in one window there is one submission for it
  obtain ⟨x, hrx, hx⟩ := (original_turn_iff hr hq).mp hfr.original
  obtain ⟨y, hsy, hy⟩ := (original_turn_iff hs hq).mp hfs.original
  obtain ⟨hxid, hxfp, -⟩ := submission_of_sighting? hr hrx
  obtain ⟨hyid, hyfp, -⟩ := submission_of_sighting? hs hsy
  have hfp : x.submission.fingerprint = y.submission.fingerprint :=
    Option.some.inj (hxfp.symm.trans ((hfpr.trans hfps.symm).trans hyfp))
  obtain rfl := (apart_sightings hp hclock.of_append).eq_of_sharesKey
    (since_le_of_lookup? hclock hq) (mem_sightings_iff.mpr ⟨r, hr, hrx⟩)
    (mem_sightings_iff.mpr ⟨s, hs, hsy⟩) (Or.inr hfp) hx.1 hy.1
  exact hxid.symm.trans hyid

omit hp

/-! ## Verdicts -/

/-- **Who is a duplicate of whom**: a message is told to be a duplicate exactly when it has a
document, its sender wants the check, and there is an original among the messages before it. Its
sender is told the id of the first one. -/
theorem isDuplicate_iff_original {p : Pipeline Memory} (hp : p.RemembersInMemory)
    {calls : List (Message × Call)} (hclock : ClockForward calls) {before after : List Turn}
    {t : Turn} (h : p.turns calls .empty = before ++ t :: after) :
    (t.isDuplicate = true ↔
      (∃ x, t.message.decode p.settings.ingest = .ok x) ∧
        t.message.flags.skipDuplicateCheck = false ∧ ∃ s ∈ before, p.Original s t) ∧
    ∀ id, t.originalMessageId? = some id ↔
      t.isDuplicate = true ∧ ∃ s ∈ before, p.First before s t ∧ s.message.messageId = id := by
  obtain ⟨earlier, c, later, rfl, rfl, rfl⟩ := p.exists_of_turns_eq _ _ h
  have hchecked : (∃ q, p.lookup? c.1 c.2 = some q) ↔
      (∃ x, c.1.decode p.settings.ingest = .ok x) ∧ c.1.flags.skipDuplicateCheck = false := by
    rw [← Message.isSome_checkable?, ← Option.isSome_iff_exists, lookup?, Option.isSome_map]
  rw [isDuplicate_turn hp]
  constructor
  · rw [← and_assoc]
    constructor
    · rintro ⟨q, hq, hf⟩
      exact ⟨hchecked.mp ⟨q, hq⟩, (isSome_find?_iff hp hclock hq _).mp hf⟩
    · rintro ⟨hc, ho⟩
      obtain ⟨q, hq⟩ := hchecked.mpr hc
      exact ⟨q, hq, (isSome_find?_iff hp hclock hq _).mpr ho⟩
  · intro id
    rw [originalMessageId?_turn hp]
    constructor
    · rintro ⟨q, found, hq, hf, rfl⟩
      exact ⟨⟨q, hq, by rw [hf]; rfl⟩, exists_first_of_find? hp hclock hq hf _⟩
    · rintro ⟨⟨q, hq, hf⟩, s, hs, hfirst, rfl⟩
      obtain ⟨found, hf⟩ := Option.isSome_iff_exists.mp hf
      obtain ⟨r, hr, hfr, hid⟩ := exists_first_of_find? hp hclock hq hf _
      exact ⟨q, found, hq, hf, hid.symm.trans (messageId_eq_of_first hp hclock hq hr hs hfr hfirst)⟩

/-- A pipeline with a window of ten seconds over a store that is a little slow. -/
def tenSeconds : Pipeline Memory :=
  ⟨{ dedup := { windowSecs := 10 } }, .delayed .memory 5⟩

/-- The same small document under an id, processed within that second. -/
def resubmission (id : String) (second : Int) : Message × Call :=
  let now : Timestamp := .ofSeconds second
  ({ messageId := id, messageType := "trade", fpmlVersion := "5-12", senderLei := ""
     content := "PGEvPg==" }, ⟨id, ⟨now, now, now, now, now⟩⟩)

/-- The document comes again within the window, then after it, and then a fourth time. -/
def resubmissions : List (Message × Call) :=
  [resubmission "m1" 0, resubmission "m2" 5, resubmission "m3" 20]

theorem first_resubmissions :
    let before := tenSeconds.turns resubmissions .empty
    let t := tenSeconds.turn (resubmission "m4" 25) (tenSeconds.stateAfter resubmissions .empty)
    before.map Turn.originalMessageId? = [none, some "m1", none] ∧
      t.originalMessageId? = some "m3" ∧
      ∃ s ∈ before, tenSeconds.First before s t ∧ s.message.messageId = "m3" := by
  intro before t
  have hp : tenSeconds.RemembersInMemory := remembersInMemory_of_delayed rfl rfl (by decide)
  have hclock : ClockForward (resubmissions ++ [resubmission "m4" 25]) := by
    unfold ClockForward
    decide
  have ht : t.originalMessageId? = some "m3" := by decide +kernel
  refine ⟨by decide +kernel, ht, ?_⟩
  exact (((isDuplicate_iff_original hp hclock (turns_concat ..)).2 "m3").mp ht).2

end Pipeline
end TradeIntake
