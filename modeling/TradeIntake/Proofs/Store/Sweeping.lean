import TradeIntake.Proofs.Store.Provenance

/-!
# Sweeping is unobservable

The store in memory drops what fell out of the window: every now and then while it remembers, and
whenever it is told to. Here it is compared with a store that never drops anything. The two states
part for good, since a key that was swept is empty in the one and holds an old submission in the
other. But a submission that comes under such a key takes its place either way, so the two states
show the same of every window that is still to come, as long as windows start later and later.

* **`kept?_note_of_hasKey`**: what a key keeps follows from what is seen under it.
* **`SeenAlike.step`**: a request leaves states alike that were.
* **`answers_swept`**: sweeps change no answer, whether the store makes them itself or is told to.
-/

namespace TradeIntake

namespace Memory

/-! ## What a key keeps -/

/-- **What a key keeps follows from what is seen under it**: it makes no difference whether there is
no submission under the key or one from before the window. -/
theorem kept?_note_of_hasKey {x : Sighting} {k : StoreKey} (hk : x.submission.HasKey k)
    (m : Memory) :
    (m.note x).kept? k =
      some (((m.sighted? x.since k).map fun s =>
        if x.submission.receivedAt < s.receivedAt then x.submission else s).getD x.submission) := by
  rw [kept?_note, if_pos hk, sighted?]
  cases m.kept? k with
  | none => rfl
  | some s =>
    by_cases hs : x.since ≤ s.receivedAt
    · simp [Sightings.earlier, Option.filter, hs, not_lt.mpr hs]
    · simp [Sightings.earlier, Option.filter, hs, not_le.mp hs]

/-! ## Two states that show the same -/

/-- Both states show the same under every key of the window that starts then. -/
def SeenAlike (since : Timestamp) (m n : Memory) : Prop :=
  ∀ k, m.sighted? since k = n.sighted? since k

variable {since later : Timestamp} {m n : Memory}

/-- What is seen of a window is seen in what is seen of one that started earlier. -/
theorem sighted?_eq_filter (h : since ≤ later) (m : Memory) (k : StoreKey) :
    m.sighted? later k = (m.sighted? since k).filter fun s => later ≤ s.receivedAt := by
  unfold sighted?
  rw [Option.filter_filter]
  congr 1
  funext s
  simpa using fun hs : later ≤ s.receivedAt => h.trans hs

namespace SeenAlike

theorem refl (since : Timestamp) (m : Memory) : SeenAlike since m m := fun _ => rfl

/-- Windows that start later are seen alike as well. -/
theorem mono (h : SeenAlike since m n) (hle : since ≤ later) : SeenAlike later m n := by
  intro k
  rw [sighted?_eq_filter hle, h k, ← sighted?_eq_filter hle]

theorem find?_eq {q : Lookup} (h : SeenAlike q.since m n) : m.find? q = n.find? q := by
  rw [Memory.find?_eq, Memory.find?_eq, h, h]

theorem note {x : Sighting} (h : SeenAlike x.since m n) :
    SeenAlike x.since (m.note x) (n.note x) := by
  intro k
  by_cases hk : x.submission.HasKey k
  · rw [sighted?, sighted?, kept?_note_of_hasKey hk, kept?_note_of_hasKey hk, h k]
  · rw [sighted?, sighted?, kept?_note, kept?_note, if_neg hk, if_neg hk]
    exact h k

end SeenAlike

/-! ## Requests with and without sweeps -/

namespace Request

/-- The start of the window that a request is about; an eviction is about none. -/
def windowStart? : Request → Option Timestamp
  | .remember x => some x.since
  | .find q => some q.since
  | .evictBefore _ => none

/-- What was received before that time does not matter to the request, or is dropped by it. -/
def time : Request → Timestamp
  | .remember x => x.since
  | .find q => q.since
  | .evictBefore cutoff => cutoff

/-- The request is an eviction. -/
def isEviction : Request → Bool
  | .evictBefore _ => true
  | _ => false

/-- The store after a request, if it never drops anything. -/
def performKept : Request → Memory → Memory
  | .remember x, m => m.note x
  | .find _, m => m
  | .evictBefore _, m => m

/-- What a lookup is answered. -/
def answer? : Request → Memory → Option (Option Submission)
  | .find q, m => some (m.find? q)
  | _, _ => none

theorem answer?_eq {r : Request} (h : ∀ t ∈ r.windowStart?, SeenAlike t m n) :
    r.answer? m = r.answer? n := by
  cases r with
  | remember x => rfl
  | find q => exact congrArg some (h q.since rfl).find?_eq
  | evictBefore cutoff => rfl

end Request

/-- **A request leaves states alike that were alike for its window**, whether it sweeps or not. An
eviction leaves them alike for any window that starts no earlier than it cuts. -/
theorem SeenAlike.step {r : Request} (h : SeenAlike (r.windowStart?.getD later) m n)
    (hle : r.time ≤ later) : SeenAlike later (r.perform m) (r.performKept n) := by
  cases r with
  | remember x =>
    have hnote : SeenAlike later (m.note x) (n.note x) := (SeenAlike.note h).mono hle
    intro k
    exact (sighted?_remember hle m k).trans (hnote k)
  | find q => exact SeenAlike.mono h hle
  | evictBefore cutoff =>
    intro k
    exact (sighted?_evictBefore hle m k).trans (h k)

section Runs

variable (perform : Request → Memory → Memory)

/-- The answers to the lookups among the requests, in order, when requests are performed so. -/
def answers : List Request → Memory → List (Option Submission)
  | [], _ => []
  | r :: rs, m => (r.answer? m).toList ++ answers rs (perform r m)

/-- The store after the requests, when they are performed so. -/
def performAll (rs : List Request) (m : Memory) : Memory :=
  rs.foldl (fun m r => perform r m) m

end Runs

/-- The window starts of the requests, in order. -/
def windowStarts (rs : List Request) : List Timestamp :=
  rs.filterMap Request.windowStart?

/-- The requests without the evictions among them. -/
def withoutEvictions (rs : List Request) : List Request :=
  rs.filter fun r => !r.isEviction

/-- **Requests come in order**: the windows start later and later, and an eviction cuts no later
than the next window starts. -/
structure InOrder (rs : List Request) : Prop where
  ascending : (windowStarts rs).Pairwise (· ≤ ·)
  timely : ∀ before cutoff after, rs = before ++ .evictBefore cutoff :: after →
    ∀ t ∈ (windowStarts after).head?, cutoff ≤ t

variable {r : Request} {rs : List Request}

theorem windowStarts_cons (r : Request) (rs : List Request) :
    windowStarts (r :: rs) = r.windowStart?.toList ++ windowStarts rs := by
  unfold windowStarts
  cases r <;> rfl

theorem inOrder_nil : InOrder [] where
  ascending := List.Pairwise.nil
  timely before cutoff after he := by simp at he

/-- The order of requests is settled by each one and the window that is next. -/
theorem inOrder_cons_iff :
    InOrder (r :: rs) ↔ (∀ t ∈ (windowStarts rs).head?, r.time ≤ t) ∧ InOrder rs := by
  constructor
  · intro h
    have hasc := h.ascending
    rw [windowStarts_cons, List.pairwise_append] at hasc
    refine ⟨fun t ht => ?_, hasc.2.1, fun before cutoff after he =>
      h.timely (r :: before) cutoff after (congrArg _ he)⟩
    have hstart := fun since hr => hasc.2.2 since hr t (List.mem_of_mem_head? ht)
    cases r with
    | remember x => exact hstart _ (List.mem_singleton.mpr rfl)
    | find q => exact hstart _ (List.mem_singleton.mpr rfl)
    | evictBefore cutoff => exact h.timely [] cutoff rs rfl t ht
  · rintro ⟨hnext, hasc, htimely⟩
    refine ⟨?_, fun before cutoff after he => ?_⟩
    · rw [windowStarts_cons, List.pairwise_append]
      refine ⟨by cases r <;> simp [Request.windowStart?], hasc, fun since hr t ht => ?_⟩
      obtain rfl : r.time = since := by
        cases r <;> simp_all [Request.windowStart?, Request.time]
      cases hs : windowStarts rs with
      | nil => simp [hs] at ht
      | cons u us =>
        rw [hs] at hnext ht hasc
        have hu := hnext u rfl
        rcases List.mem_cons.mp ht with rfl | ht
        · exact hu
        · exact hu.trans ((List.pairwise_cons.mp hasc).1 t ht)
    · rcases List.cons_eq_append_iff.mp he with ⟨rfl, hr⟩ | ⟨before, rfl, hrs⟩
      · obtain ⟨rfl, rfl⟩ := List.cons.inj hr
        exact hnext
      · exact htimely before cutoff after hrs

instance : (rs : List Request) → Decidable (InOrder rs)
  | [] => isTrue inOrder_nil
  | _ :: rs =>
    have : Decidable (InOrder rs) := instDecidableInOrder rs
    decidable_of_iff _ inOrder_cons_iff.symm

/-- Evictions are about no window. -/
theorem windowStarts_withoutEvictions (rs : List Request) :
    windowStarts (withoutEvictions rs) = windowStarts rs := by
  unfold windowStarts withoutEvictions
  rw [List.filterMap_filter]
  congr 1
  funext r
  cases r <;> rfl

theorem InOrder.withoutEvictions (h : InOrder rs) : InOrder (withoutEvictions rs) where
  ascending := by
    rw [windowStarts_withoutEvictions]
    exact h.ascending
  timely before cutoff after he := by
    have hmem : Request.evictBefore cutoff ∈ Memory.withoutEvictions rs := by simp [he]
    exact absurd (List.mem_filter.mp hmem).2 (by simp [Request.isEviction])

/-- A store that never drops anything takes no notice of evictions. -/
theorem answers_withoutEvictions (rs : List Request) (m : Memory) :
    answers Request.performKept (withoutEvictions rs) m = answers Request.performKept rs m := by
  induction rs generalizing m with
  | nil => rfl
  | cons r rs ih =>
    cases r with
    | remember x => exact ih _
    | find q => exact congrArg (_ :: ·) (ih m)
    | evictBefore cutoff => exact ih m

/-! ## Runs -/

/-- The next window, if there is one, and else any later time. -/
theorem seenAlike_next (h : ∀ t ∈ (windowStarts (r :: rs)).head?, SeenAlike t m n) {t : Timestamp}
    (ht : t ∈ (windowStarts rs).head?) : SeenAlike (r.windowStart?.getD t) m n := by
  rw [windowStarts_cons] at h
  cases hr : r.windowStart? with
  | none => exact h t (by simpa [hr] using ht)
  | some since => exact h since (by simp [hr])

/-- **States that are alike for the next window answer alike from there on.** -/
theorem answers_eq_of_seenAlike (h : InOrder rs)
    (hs : ∀ t ∈ (windowStarts rs).head?, SeenAlike t m n) :
    answers Request.perform rs m = answers Request.performKept rs n := by
  induction rs generalizing m n with
  | nil => rfl
  | cons r rs ih =>
    obtain ⟨hnext, h⟩ := inOrder_cons_iff.mp h
    have hanswer : r.answer? m = r.answer? n := by
      refine r.answer?_eq fun t ht => hs t ?_
      rw [windowStarts_cons, Option.mem_def.mp ht]
      rfl
    rw [answers, answers, hanswer, ih h fun t ht => (seenAlike_next hs ht).step (hnext t ht)]

/-- **What is left is alike** for any window that starts after all of the requests. -/
theorem seenAlike_performAll (h : InOrder rs) (hle : ∀ r ∈ rs, r.time ≤ since)
    (hs : SeenAlike ((windowStarts rs).head?.getD since) m n) :
    SeenAlike since (performAll Request.perform rs m) (performAll Request.performKept rs n) := by
  induction rs generalizing m n with
  | nil => exact hs
  | cons r rs ih =>
    obtain ⟨hnext, h⟩ := inOrder_cons_iff.mp h
    obtain ⟨hr, hle⟩ := List.forall_mem_cons.mp hle
    refine ih h hle (SeenAlike.step ?_ ?_)
    · rw [windowStarts_cons] at hs
      cases r <;> exact hs
    · cases ht : (windowStarts rs).head? with
      | none => exact hr
      | some t => exact hnext t ht

/-- **Sweeping is unobservable.** Whatever the store holds at first, lookups are answered as by a
store that never drops anything, also when evictions come between the requests; and what is left
shows the same under every key of any window that is still to come. -/
theorem answers_swept (h : InOrder rs) (m : Memory) :
    answers Request.perform (withoutEvictions rs) m =
      answers Request.performKept (withoutEvictions rs) m ∧
    answers Request.perform rs m = answers Request.performKept (withoutEvictions rs) m ∧
    ∀ since, (∀ r ∈ rs, r.time ≤ since) → ∀ k,
      (performAll Request.perform rs m).sighted? since k =
        (performAll Request.performKept rs m).sighted? since k := by
  have halike {t : Timestamp} : SeenAlike t m m := .refl t m
  refine ⟨answers_eq_of_seenAlike h.withoutEvictions fun _ _ => halike, ?_,
    fun since hle => seenAlike_performAll h hle halike⟩
  rw [answers_withoutEvictions]
  exact answers_eq_of_seenAlike h fun _ _ => halike

/-- A store that has one more submission to come before it sweeps. -/
def beforeSweep : Memory :=
  ofSightings (List.replicate 255 ⟨⟨"m0", "a", .ofSeconds 10⟩, .ofSeconds 0⟩)

/-- A submission that has the store sweep, an eviction, and a submission under a key that was
swept. -/
def swept : List Request := [
  .remember ⟨⟨"m1", "b", .ofSeconds 22⟩, .ofSeconds 20⟩,
  .evictBefore (.ofSeconds 25),
  .remember ⟨⟨"m2", "a", .ofSeconds 30⟩, .ofSeconds 25⟩,
  .find ⟨"m3", "a", .ofSeconds 25⟩,
  .find ⟨"m0", "b", .ofSeconds 25⟩]

/-- The sweep and the eviction drop submissions, but the answers are the same. -/
theorem answers_swept_twice :
    InOrder swept ∧
    (performAll Request.perform swept beforeSweep).size = 1 ∧
    (performAll Request.performKept swept beforeSweep).size = 2 ∧
    answers Request.perform swept beforeSweep =
      answers Request.performKept (withoutEvictions swept) beforeSweep ∧
    answers Request.perform swept beforeSweep =
      [some ⟨"m2", "a", .ofSeconds 30⟩, none] := by
  have h : InOrder swept := by decide
  exact ⟨h, by decide +kernel, by decide +kernel, (answers_swept h beforeSweep).2.1,
    by decide +kernel⟩

end Memory
end TradeIntake
