import Mathlib.Data.List.Perm.Subperm
import TradeIntake.Proofs.Store.Kept

/-!
# How long expired submissions stay

The store in memory counts the requests to remember, and every 256th one sweeps: what was received
before its window goes. A submission that comes after a sweep may have been received before that
window all the same, so expired submissions turn up again. But each of them was written by a request
since the sweep, and of those there are 255 at most. The count starts over after 2⁶⁴ requests; since
that is a multiple of 256, no sweep comes early or late.

* **`due_iff`**: which requests sweep, however many came before.
* **`written_of_kept?`**: what a key keeps now and did not keep before some requests was written by
  one of them.
* **`expired_soon_swept`**: the sweeps of a run, and what is expired in either map after it.
-/

namespace TradeIntake

/-- The entries that were received before that time. -/
def Sightings.expired (cutoff : Timestamp) (m : Sightings) : List (String × Submission) :=
  m.entries.filter fun e => e.2.receivedAt < cutoff

namespace Memory

/-! ## Which requests sweep -/

/-- The next request to remember sweeps. -/
def Due (m : Memory) : Prop :=
  m.inserts % sweepEvery = sweepEvery - 1

theorem remember_of_due {m : Memory} (h : m.Due) (x : Sighting) :
    m.remember x = (m.note x).evictBefore x.since :=
  if_pos h

theorem remember_of_not_due {m : Memory} (h : ¬ m.Due) (x : Sighting) : m.remember x = m.note x :=
  if_neg h

theorem inserts_ofSightings (xs : List Sighting) :
    (ofSightings xs).inserts = UInt64.ofNat xs.length := by
  induction xs using List.reverseRecOn with
  | nil => rfl
  | append_singleton xs x ih =>
    have hcount : ((ofSightings xs).remember x).inserts = (ofSightings xs).inserts + 1 := by
      rcases remember_eq (ofSightings xs) x with e | e <;> rw [e] <;> rfl
    rw [ofSightings_concat, hcount, ih, List.length_append, UInt64.ofNat_add]
    rfl

theorem toNat_inserts_ofSightings (xs : List Sighting) :
    (ofSightings xs).inserts.toNat = xs.length % UInt64.size := by
  rw [inserts_ofSightings, UInt64.toNat_ofNat']

/-- **Every 256th request sweeps.** The count loses nothing of that when it starts over. -/
theorem due_iff (xs : List Sighting) : (ofSightings xs).Due ↔ 256 ∣ xs.length + 1 := by
  have hdvd : 256 ∣ UInt64.size := by decide
  have hmod : ((ofSightings xs).inserts % sweepEvery).toNat = xs.length % 256 := by
    rw [UInt64.toNat_mod, toNat_inserts_ofSightings]
    exact Nat.mod_mod_of_dvd _ hdvd
  have hlast : (sweepEvery - 1).toNat = 255 := rfl
  rw [Due, ← UInt64.toNat_inj, hmod, hlast]
  omega

/-- What is left by a sweep was received in its window. -/
theorem since_le_of_kept? {xs : List Sighting} {x : Sighting} (hdue : (ofSightings xs).Due)
    {k : StoreKey} {s : Submission} (h : (ofSightings (xs ++ [x])).kept? k = some s) :
    x.since ≤ s.receivedAt := by
  rw [ofSightings_concat, remember_of_due hdue, kept?_evictBefore] at h
  simpa using (Option.filter_eq_some_iff.mp h).2

/-- **The last sweep of a run** came with the request `x`. -/
structure LastSweep (xs before : List Sighting) (x : Sighting) (recent : List Sighting) : Prop where
  run : xs = before ++ x :: recent
  due : (ofSightings before).Due
  not_due : ∀ ys y zs, recent = ys ++ y :: zs → ¬ (ofSightings (before ++ x :: ys)).Due

variable {xs before recent : List Sighting} {x : Sighting}

/-- Fewer than 256 requests have come since. -/
theorem LastSweep.length_recent (h : LastSweep xs before x recent) : recent.length ≤ 255 := by
  by_contra hlong
  have hlt : 255 < recent.length := Nat.lt_of_not_le hlong
  -- the 256th of them would have swept as well
  have hsplit : recent = recent.take 255 ++ recent[255] :: recent.drop 256 := by
    rw [List.getElem_cons_drop, List.take_append_drop]
  refine h.not_due _ _ _ hsplit ((due_iff _).mpr ?_)
  have hbefore := (due_iff before).mp h.due
  rw [List.length_append, List.length_cons, List.length_take]
  omega

/-- A run has a last sweep as soon as it is long enough. -/
theorem exists_lastSweep_iff :
    (∃ before x recent, LastSweep xs before x recent) ↔ 256 ≤ xs.length := by
  constructor
  · rintro ⟨before, x, recent, h⟩
    have hbefore := Nat.le_of_dvd (Nat.succ_pos _) ((due_iff before).mp h.due)
    rw [h.run, List.length_append, List.length_cons]
    omega
  · intro hlong
    obtain ⟨n, hn⟩ : ∃ n, n + 1 = 256 * (xs.length / 256) :=
      ⟨256 * (xs.length / 256) - 1, by omega⟩
    have hlt : n < xs.length := by omega
    refine ⟨xs.take n, xs[n], xs.drop (n + 1), ?_, ?_, fun ys y zs hrecent => ?_⟩
    · rw [List.getElem_cons_drop, List.take_append_drop]
    · rw [due_iff, List.length_take]
      omega
    · have hlength := congrArg List.length hrecent
      rw [List.length_drop, List.length_append, List.length_cons] at hlength
      rw [due_iff, List.length_append, List.length_cons, List.length_take]
      omega

/-! ## Who wrote an entry -/

/-- One of the recent requests wrote the submission under the key, which did not keep it until then,
and it has been there ever since. -/
def Written (before recent : List Sighting) (k : StoreKey) (s : Submission) : Prop :=
  ∃ ys y zs, recent = ys ++ y :: zs ∧ y.submission = s ∧ s.HasKey k ∧
    (ofSightings (before ++ ys)).kept? k ≠ some s ∧
    ∀ us, us <+: zs → (ofSightings (before ++ (ys ++ y :: us))).kept? k = some s

theorem Written.exists_mem {k : StoreKey} {s : Submission} (h : Written before recent k s) :
    s.HasKey k ∧ ∃ y ∈ recent, y.submission = s := by
  obtain ⟨ys, y, zs, rfl, hy, hk, -⟩ := h
  exact ⟨hk, y, by simp, hy⟩

/-- **What a key keeps and did not keep before was written since.** -/
theorem written_of_kept? {k : StoreKey} {s : Submission}
    (hbefore : (ofSightings before).kept? k ≠ some s)
    (h : (ofSightings (before ++ recent)).kept? k = some s) : Written before recent k s := by
  induction recent using List.reverseRecOn with
  | nil =>
    rw [List.append_nil] at h
    exact absurd h hbefore
  | append_singleton recent y ih =>
    by_cases hkept : (ofSightings (before ++ recent)).kept? k = some s
    · -- an earlier request wrote it, and this one left it there
      obtain ⟨ys, z, zs, rfl, hz, hk, hnew, hstays⟩ := ih hkept
      refine ⟨ys, z, zs ++ [y], by simp, hz, hk, hnew, fun us hus => ?_⟩
      rcases List.prefix_concat_iff.mp hus with rfl | hus
      · simpa using h
      · exact hstays us hus
    · have hwrote := h
      rw [← List.append_assoc, ofSightings_concat] at hwrote
      obtain ⟨hk, hy⟩ := (kept?_of_remember hwrote).resolve_left hkept
      refine ⟨recent, y, [], rfl, hy, hk, hkept, fun us hus => ?_⟩
      rw [List.prefix_nil.mp hus]
      exact h

/-! ## What is expired in a map -/

/-- **What a map holds from before the window of the last sweep**: at most 255 submissions, each of
them written since. -/
structure Leftover (before : List Sighting) (x : Sighting) (recent : List Sighting)
    (key : String → StoreKey) (m : Sightings) : Prop where
  written : ∀ e ∈ m.expired x.since, Written (before ++ [x]) recent (key e.1) e.2
  length_le : (m.expired x.since).length ≤ 255

theorem LastSweep.written (h : LastSweep xs before x recent) {k : StoreKey} {s : Submission}
    (hkept : (ofSightings xs).kept? k = some s) (hs : s.receivedAt < x.since) :
    Written (before ++ [x]) recent k s := by
  have hswept : (ofSightings (before ++ [x])).kept? k ≠ some s := fun hk =>
    absurd (since_le_of_kept? h.due hk) (not_le.mpr hs)
  refine written_of_kept? hswept ?_
  rwa [List.append_assoc, List.singleton_append, ← h.run]

/-- Both maps are alike: `field` is what their keys are taken from. -/
theorem LastSweep.leftover (h : LastSweep xs before x recent) {key : String → StoreKey}
    {field : Submission → String} {m : Sightings}
    (hkept : ∀ k, (ofSightings xs).kept? (key k) = m.get? k)
    (hfield : ∀ {s k}, s.HasKey (key k) → field s = k) : Leftover before x recent key m := by
  have hwritten : ∀ e ∈ m.expired x.since, Written (before ++ [x]) recent (key e.1) e.2 := by
    intro e he
    obtain ⟨he, hlt⟩ := List.mem_filter.mp he
    exact h.written ((hkept e.1).trans ((Sightings.get?_eq_some_iff ..).mpr he))
      (of_decide_eq_true hlt)
  -- no key has two entries, so each takes a request of its own
  have hnodup : ((m.expired x.since).map (·.1)).Nodup :=
    (List.filter_sublist.map _).nodup m.keys_nodup
  have hsubset : (m.expired x.since).map (·.1) ⊆ recent.map fun y => field y.submission := by
    intro k hk
    obtain ⟨e, he, rfl⟩ := List.mem_map.mp hk
    obtain ⟨hkey, y, hy, hs⟩ := (hwritten e he).exists_mem
    exact List.mem_map.mpr ⟨y, hy, by rw [hs, hfield hkey]⟩
  have hlength := (List.subperm_of_subset hnodup hsubset).length_le
  rw [List.length_map, List.length_map] at hlength
  exact ⟨hwritten, Nat.le_trans hlength h.length_recent⟩

/-- **Expired submissions are soon swept**, over a run of any length. The count of its requests is
kept in 64 bits, and a sweep follows every 256th request all the same. Once there was a sweep, what
either map holds from before its window was written since, and is no more than 255 submissions. -/
theorem expired_soon_swept (xs : List Sighting) :
    (ofSightings xs).inserts.toNat = xs.length % UInt64.size ∧
    (∀ x, ofSightings (xs ++ [x]) =
      if 256 ∣ xs.length + 1 then ((ofSightings xs).note x).evictBefore x.since
      else (ofSightings xs).note x) ∧
    ((∃ before x recent, LastSweep xs before x recent) ↔ 256 ≤ xs.length) ∧
    ∀ before x recent, LastSweep xs before x recent →
      Leftover before x recent .messageId (ofSightings xs).byMessageId ∧
      Leftover before x recent .fingerprint (ofSightings xs).byFingerprint := by
  refine ⟨toNat_inserts_ofSightings xs, fun x => ?_, exists_lastSweep_iff,
    fun before x recent h => ⟨?_, ?_⟩⟩
  · rw [ofSightings_concat]
    split
    · rename_i hdvd
      exact remember_of_due ((due_iff xs).mpr hdvd) x
    · rename_i hdvd
      exact remember_of_not_due (fun hdue => hdvd ((due_iff xs).mp hdue)) x
  · exact h.leftover (fun _ => rfl) (fun hk => hk)
  · exact h.leftover (fun _ => rfl) (fun hk => hk)

/-- Two requests after a sweep, the first with a submission from before the window of the sweep. -/
def lateArrivals : List Sighting :=
  [⟨⟨"m2", "c", .ofSeconds 5⟩, .ofSeconds 20⟩, ⟨⟨"m3", "d", .ofSeconds 30⟩, .ofSeconds 20⟩]

/-- The sweep drops what came before it, and the late submission is there until the next one. -/
theorem leftover_lateArrivals :
    let before := List.replicate 255 ⟨⟨"m0", "a", .ofSeconds 10⟩, .ofSeconds 0⟩
    let x : Sighting := ⟨⟨"m1", "b", .ofSeconds 22⟩, .ofSeconds 20⟩
    let m := ofSightings (before ++ x :: lateArrivals)
    LastSweep (before ++ x :: lateArrivals) before x lateArrivals ∧
    m.byFingerprint.entries.map (·.1) = ["b", "c", "d"] ∧
    m.byFingerprint.expired x.since = [("c", ⟨"m2", "c", .ofSeconds 5⟩)] ∧
    Leftover before x lateArrivals .messageId m.byMessageId ∧
    Leftover before x lateArrivals .fingerprint m.byFingerprint := by
  intro before x m
  have h : LastSweep (before ++ x :: lateArrivals) before x lateArrivals := by
    refine ⟨rfl, (due_iff before).mpr ⟨1, by rw [List.length_replicate]⟩, fun ys y zs hrecent => ?_⟩
    have hlength := congrArg List.length hrecent
    rw [List.length_append, List.length_cons] at hlength
    have htwo : lateArrivals.length = 2 := rfl
    rw [due_iff, List.length_append, List.length_cons, List.length_replicate]
    omega
  exact ⟨h, by decide +kernel, by decide +kernel,
    (expired_soon_swept (before ++ x :: lateArrivals)).2.2.2 _ _ _ h⟩

end Memory
end TradeIntake
