import Mathlib.Data.Fintype.EquivFin
import TradeIntake.Proofs.Store.Kept

/-!
# When lookups keep their contract

A lookup is asked for the earliest submission in the window that shares the id or the fingerprint.
The store in memory keeps one submission for a key, the earliest until it falls out of the window.
So a submission that comes while another one with its key is in the window is lost when it was
received at another time: once the earlier one is out of the window, nothing is found any more.

* **`answers_iff_spaced`**: over a run of requests to remember, all lookups keep the contract
  exactly when no two submissions with a key are remembered within one window, unless they were
  received at the same time.
* `not_answers_overlapping`: two submissions with one fingerprint, five seconds into the window.
-/

namespace TradeIntake

/-- A lookup by one key, with something else in the place of the other. -/
def StoreKey.lookup (k : StoreKey) (other : String) (since : Timestamp) : Lookup :=
  match k with
  | .messageId id => ⟨id, other, since⟩
  | .fingerprint fp => ⟨other, fp, since⟩

namespace Memory

/-- Requests to remember as a clock lets them come: the windows start later and later, and what is
remembered was received in its own window. -/
structure Windowed (xs : List Sighting) : Prop where
  since_le : xs.Pairwise fun x y => x.since ≤ y.since
  received : ∀ x ∈ xs, x.since ≤ x.submission.receivedAt

/-- **The contract of a lookup**: the answer is the earliest submission that the lookup admits. -/
structure Answers (xs : List Sighting) (q : Lookup) (answer : Option Submission) : Prop where
  isSome_iff : answer.isSome ↔ ∃ x ∈ xs, q.Admits x.submission
  earliest : ∀ s, answer = some s →
    (∃ x ∈ xs, x.submission = s) ∧ q.Admits s ∧
      ∀ x ∈ xs, q.Admits x.submission → s.receivedAt ≤ x.submission.receivedAt

/-! ## One window apart, nothing is lost -/

/-- What is seen was remembered, with that key, and received in the window. -/
theorem mem_of_sighted? {xs : List Sighting} {since : Timestamp} {k : StoreKey} {s : Submission}
    (h : (ofSightings xs).sighted? since k = some s) :
    since ≤ s.receivedAt ∧ s.HasKey k ∧ ∃ x ∈ xs, x.submission = s := by
  obtain ⟨hk, hr⟩ := sighted?_eq_some_iff.mp h
  exact ⟨hr, mem_of_kept? hk⟩

theorem answers_of_spaced {xs : List Sighting} (hs : Spaced xs) {q : Lookup}
    (hq : ∀ x ∈ xs, x.since ≤ q.since) : Answers xs q ((ofSightings xs).find? q) := by
  have seen : ∀ x ∈ xs, q.Admits x.submission → ∃ k ∈ q.keys, ∃ s,
      (ofSightings xs).sighted? q.since k = some s ∧ s.receivedAt = x.submission.receivedAt := by
    intro x hx ha
    obtain ⟨hr, k, hk, hxk⟩ := Lookup.admits_iff.mp ha
    exact ⟨k, hk, exists_sighted? hs hq hx hxk hr⟩
  constructor
  · rw [isSome_find?]
    constructor
    · rintro ⟨k, hk, hs⟩
      obtain ⟨s, hs⟩ := Option.isSome_iff_exists.mp hs
      obtain ⟨hr, hsk, x, hx, rfl⟩ := mem_of_sighted? hs
      exact ⟨x, hx, Lookup.admits_iff.mpr ⟨hr, k, hk, hsk⟩⟩
    · rintro ⟨x, hx, ha⟩
      obtain ⟨k, hk, s, hs, -⟩ := seen x hx ha
      exact ⟨k, hk, by rw [hs]; rfl⟩
  · intro s h
    obtain ⟨⟨k, hk, hks⟩, hmin⟩ := sighted?_of_find? h
    obtain ⟨hr, hsk, hx⟩ := mem_of_sighted? hks
    refine ⟨hx, Lookup.admits_iff.mpr ⟨hr, k, hk, hsk⟩, fun x hx ha => ?_⟩
    obtain ⟨k, hk, t, ht, htx⟩ := seen x hx ha
    exact htx ▸ hmin k hk t ht

/-- Of submissions that are equally early, one with the id is found. -/
theorem messageId_of_find? {xs : List Sighting} (hs : Spaced xs) {q : Lookup}
    (hq : ∀ x ∈ xs, x.since ≤ q.since) {s : Submission} (h : (ofSightings xs).find? q = some s)
    {x : Sighting} (hx : x ∈ xs) (hid : x.submission.messageId = q.messageId)
    (hr : q.since ≤ x.submission.receivedAt) (hle : x.submission.receivedAt ≤ s.receivedAt) :
    s.messageId = q.messageId := by
  obtain ⟨t, ht, htx⟩ := exists_sighted? hs hq (k := .messageId q.messageId) hx hid hr
  obtain rfl := eq_of_find?_of_le h ht (htx ▸ hle)
  exact (mem_of_sighted? ht).2.1

/-! ## Within one window, something is lost -/

/-- **What its key does not show is not found**: some lookup that admits the submission finds
nothing. -/
theorem exists_not_answers {xs : List Sighting} {x : Sighting} (hx : x ∈ xs) {k : StoreKey}
    (hk : x.submission.HasKey k)
    (hn : (ofSightings xs).sighted? x.submission.receivedAt k = none) :
    ∃ q : Lookup, q.since = x.submission.receivedAt ∧
      ¬ Answers xs q ((ofSightings xs).find? q) := by
  -- the other key of the lookup is one that nothing was remembered under
  obtain ⟨other, ho⟩ := Infinite.exists_notMem_finset
    (xs.flatMap fun y => [y.submission.messageId, y.submission.fingerprint]).toFinset
  have ho : ∀ y ∈ xs, y.submission.messageId ≠ other ∧ y.submission.fingerprint ≠ other := by
    intro y hy
    constructor <;> rintro rfl <;> exact ho (by simpa using ⟨y, hy, by simp⟩)
  have hsince : (k.lookup other x.submission.receivedAt).since = x.submission.receivedAt := by
    cases k <;> rfl
  have hkeys : ∀ k' ∈ (k.lookup other x.submission.receivedAt).keys,
      k' = k ∨ ∀ y ∈ xs, ¬ y.submission.HasKey k' := by
    intro k' hk'
    cases k with
    | messageId id =>
      rcases List.mem_pair.mp hk' with rfl | rfl
      · exact Or.inl rfl
      · exact Or.inr fun y hy => (ho y hy).2
    | fingerprint fp =>
      rcases List.mem_pair.mp hk' with rfl | rfl
      · exact Or.inr fun y hy => (ho y hy).1
      · exact Or.inl rfl
  have hmem : k ∈ (k.lookup other x.submission.receivedAt).keys := by
    cases k <;> simp [StoreKey.lookup, Lookup.keys]
  refine ⟨k.lookup other x.submission.receivedAt, hsince, fun h => ?_⟩
  have hsome := h.isSome_iff.mpr ⟨x, hx, Lookup.admits_iff.mpr ⟨hsince.le, k, hmem, hk⟩⟩
  obtain ⟨k', hk', hs⟩ := isSome_find?.mp hsome
  obtain ⟨s, hs⟩ := Option.isSome_iff_exists.mp hs
  rcases hkeys k' hk' with rfl | hnone
  · rw [hsince, hn] at hs
    cases hs
  · obtain ⟨-, hsk, y, hy, rfl⟩ := mem_of_sighted? hs
    exact hnone y hy hsk

theorem Windowed.of_concat {xs : List Sighting} {y : Sighting} (h : Windowed (xs ++ [y])) :
    Windowed xs ∧ y.since ≤ y.submission.receivedAt ∧ ∀ x ∈ xs, x.since ≤ y.since := by
  obtain ⟨hx, -, hy⟩ := List.pairwise_append.mp h.since_le
  exact ⟨⟨hx, fun x hx => h.received x (List.mem_append_left _ hx)⟩, h.received y (by simp),
    fun x hx => hy x hx y (by simp)⟩

/-- All lookups made on the way answer as they should. -/
def AnswersThroughout (xs : List Sighting) : Prop :=
  ∀ ys, ys <+: xs → ∀ q : Lookup, (∀ x ∈ ys, x.since ≤ q.since) →
    Answers ys q ((ofSightings ys).find? q)

/-- **A later submission than the one its key keeps is lost**, whichever of both was remembered
last. -/
theorem not_answers_of_kept? {xs : List Sighting} {y z : Sighting} {k : StoreKey} {s : Submission}
    (hle : ∀ x ∈ xs, x.since ≤ y.since) (hz : z ∈ xs ++ [y]) (hk : z.submission.HasKey k)
    (hin : y.since ≤ z.submission.receivedAt) (hs : ((ofSightings xs).note y).kept? k = some s)
    (hlt : s.receivedAt < z.submission.receivedAt) : ¬ AnswersThroughout (xs ++ [y]) := by
  intro h
  have hnone : (ofSightings (xs ++ [y])).sighted? z.submission.receivedAt k = none := by
    rw [ofSightings_concat, sighted?_remember hin, sighted?, hs]
    simpa using hlt
  obtain ⟨q, hq, hna⟩ := exists_not_answers hz hk hnone
  refine hna (h _ (List.prefix_refl _) q fun x hx => ?_)
  rw [hq]
  rcases List.mem_append.mp hx with hx | hx
  · exact (hle x hx).trans hin
  · exact List.mem_singleton.mp hx ▸ hin

theorem spaced_of_answers {xs : List Sighting} (hw : Windowed xs) (h : AnswersThroughout xs) :
    Spaced xs := by
  induction xs using List.reverseRecOn with
  | nil => exact List.Pairwise.nil
  | append_singleton xs y ih =>
    obtain ⟨hwx, hyr, hle⟩ := hw.of_concat
    have hs := ih hwx fun ys hys => h ys (hys.trans (List.prefix_append xs [y]))
    refine List.pairwise_append.mpr ⟨hs, List.pairwise_singleton _ _, fun x hx y' hy' hshare => ?_⟩
    obtain rfl := List.mem_singleton.mp hy'
    obtain ⟨k, hxk, hyk⟩ := Submission.exists_hasKey_of_sharesKey hshare
    by_contra hn
    obtain ⟨hin, hne⟩ := not_or.mp hn
    have hin := not_lt.mp hin
    -- before `y`, the key shows what was received when `x` was
    obtain ⟨s, hks, hsx⟩ := exists_sighted? hs hle hx hxk hin
    have hks := (sighted?_eq_some_iff.mp hks).1
    have hkept : ((ofSightings xs).note y').kept? k =
        some (Sightings.earlier y'.since s y'.submission) := by
      rw [kept?_note, if_pos hyk, hks, Option.map_some, Option.getD_some]
    unfold Sightings.earlier at hkept
    rw [← hsx] at hin hne
    rcases lt_or_gt_of_ne hne with hlt | hlt
    · rw [if_neg (not_or.mpr ⟨not_lt.mpr hin, not_lt.mpr hlt.le⟩)] at hkept
      exact not_answers_of_kept? hle (by simp) hyk hyr hkept hlt h
    · rw [if_pos (Or.inr hlt)] at hkept
      exact not_answers_of_kept? hle (List.mem_append_left _ hx) hxk (hsx ▸ hin) hkept
        (hsx ▸ hlt) h

/-! ## The exact condition -/

instance (xs : List Sighting) : Decidable (Spaced xs) :=
  inferInstanceAs (Decidable (xs.Pairwise _))

theorem Spaced.of_isPrefix {xs ys : List Sighting} (h : Spaced xs) (hp : ys <+: xs) : Spaced ys :=
  h.sublist hp.sublist

/-- **Lookups keep their contract throughout a run exactly when what shares a key comes one window
apart**, unless it was received at the same time. -/
theorem answers_iff_spaced {xs : List Sighting} (hw : Windowed xs) :
    AnswersThroughout xs ↔ Spaced xs :=
  ⟨spaced_of_answers hw, fun h _ hys _ hq => answers_of_spaced (h.of_isPrefix hys) hq⟩

/-- A run in which a message id comes again after its window, and two submissions with one content
arrive at once. -/
def reregistered : List Sighting := [
  ⟨⟨"m1", "a", .ofSeconds 10⟩, .ofSeconds 0⟩,
  ⟨⟨"m2", "a", .ofSeconds 10⟩, .ofSeconds 0⟩,
  ⟨⟨"m1", "b", .ofSeconds 30⟩, .ofSeconds 20⟩]

theorem answers_reregistered : Windowed reregistered ∧ AnswersThroughout reregistered := by
  have hw : Windowed reregistered := ⟨by decide, by decide⟩
  exact ⟨hw, (answers_iff_spaced hw).mpr (by decide +kernel)⟩

/-- A content that comes twice within one window. -/
def overlapping : List Sighting := [
  ⟨⟨"m1", "a", .ofSeconds 10⟩, .ofSeconds 0⟩,
  ⟨⟨"m2", "a", .ofSeconds 20⟩, .ofSeconds 0⟩]

/-- **One window does not do**: of two submissions with one content, the later one is not found once
the earlier one is out of the window. -/
theorem not_answers_overlapping :
    ¬ ∀ (xs : List Sighting) (q : Lookup), Windowed xs → (∀ x ∈ xs, x.since ≤ q.since) →
      Answers xs q ((ofSightings xs).find? q) := by
  intro h
  have hnone : (ofSightings overlapping).find? ⟨"m3", "a", .ofSeconds 15⟩ = none := by
    decide +kernel
  have ha := h overlapping ⟨"m3", "a", .ofSeconds 15⟩ ⟨by decide, by decide⟩ (by decide)
  rw [hnone] at ha
  have hm : ∃ x ∈ overlapping, Lookup.Admits ⟨"m3", "a", .ofSeconds 15⟩ x.submission :=
    ⟨⟨⟨"m2", "a", .ofSeconds 20⟩, .ofSeconds 0⟩, by simp [overlapping], by decide, by decide⟩
  exact absurd (ha.isSome_iff.mpr hm) (by simp)

end Memory
end TradeIntake
