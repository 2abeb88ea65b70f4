import Mathlib.Data.List.Nodup
import TradeIntake.Proofs.Store.Kept

/-!
# The order of arrival

Submissions that were all received within one window may be remembered in any order. None of them is
out of the window for another one, and a sweep drops none of them, so all that counts is which one
was received first: a key comes to the earliest submission with it. Of those that are equally early
a key keeps the one that came first, so what is found may be another submission in another order,
but not one that was received at another time.

* **`KeepsEarliest.remember`**: one more submission of the window leaves the keys with the earliest.
* **`orderless_arrived`**: what the keys and the lookups come to, whatever the order.
-/

namespace TradeIntake

namespace Memory

/-- The store after these submissions, remembered one after another for one window. -/
def arrived (since : Timestamp) (ss : List Submission) : Memory :=
  ofSightings (ss.map fun s => ⟨s, since⟩)

theorem arrived_concat (since : Timestamp) (ss : List Submission) (s : Submission) :
    arrived since (ss ++ [s]) = (arrived since ss).remember ⟨s, since⟩ := by
  rw [arrived, List.map_append]
  exact ofSightings_concat ..

/-- No submission with the key was received before this one. -/
structure Earliest (ss : List Submission) (k : StoreKey) (s : Submission) : Prop where
  mem : s ∈ ss
  hasKey : s.HasKey k
  le : ∀ t ∈ ss, t.HasKey k → s.receivedAt ≤ t.receivedAt

/-- **Every key has an earliest submission with it**, if there is a submission with it. -/
structure KeepsEarliest (ss : List Submission) (m : Memory) : Prop where
  isNone_iff : ∀ k, m.kept? k = none ↔ ∀ s ∈ ss, ¬ s.HasKey k
  earliest : ∀ k s, m.kept? k = some s → Earliest ss k s

variable {since : Timestamp} {ss ts : List Submission} {m n : Memory}

/-! ## One more submission -/

theorem keepsEarliest_empty : KeepsEarliest [] empty where
  isNone_iff k := by simp
  earliest k s h := by simp at h

/-- A later submission does not take the place of an earlier one. -/
theorem Earliest.concat {k : StoreKey} {s t : Submission} (h : Earliest ss k s)
    (ht : t.HasKey k → s.receivedAt ≤ t.receivedAt) : Earliest (ss ++ [t]) k s where
  mem := List.mem_append_left _ h.mem
  hasKey := h.hasKey
  le u hu huk := by
    rcases List.mem_append.mp hu with hu | hu
    · exact h.le u hu huk
    · obtain rfl := List.mem_singleton.mp hu
      exact ht huk

/-- What is kept while the whole window is remembered: the earliest one, as before or new. -/
theorem KeepsEarliest.note (h : KeepsEarliest ss m) {x : Sighting}
    (hw : ∀ s ∈ ss, x.since ≤ s.receivedAt) :
    KeepsEarliest (ss ++ [x.submission]) (m.note x) where
  isNone_iff k := by
    rw [kept?_note, List.forall_mem_append, ← h.isNone_iff]
    split <;> rename_i hk <;> simp [hk]
  earliest k s hs := by
    rw [kept?_note] at hs
    split at hs
    · rename_i hk
      cases hp : m.kept? k with
      | none =>
        rw [hp] at hs
        obtain rfl : x.submission = s := Option.some.inj hs
        have hnone := (h.isNone_iff k).mp hp
        refine ⟨by simp, hk, fun t ht htk => ?_⟩
        rcases List.mem_append.mp ht with ht | ht
        · exact absurd htk (hnone t ht)
        · rw [List.mem_singleton.mp ht]
      | some p =>
        rw [hp] at hs
        obtain rfl : Sightings.earlier x.since p x.submission = s := Option.some.inj hs
        have hearliest := h.earliest k p hp
        have hin : ¬ p.receivedAt < x.since := not_lt.mpr (hw p hearliest.mem)
        unfold Sightings.earlier
        split
        · rename_i hlt
          have hlt := hlt.resolve_left hin
          refine ⟨by simp, hk, fun t ht htk => ?_⟩
          rcases List.mem_append.mp ht with ht | ht
          · exact hlt.le.trans (hearliest.le t ht htk)
          · rw [List.mem_singleton.mp ht]
        · rename_i hge
          exact hearliest.concat fun _ => not_lt.mp (not_or.mp hge).2
    · rename_i hk
      exact (h.earliest k s hs).concat fun hk' => absurd hk' hk

/-- A sweep drops nothing of the window. -/
theorem kept?_remember_of_le {x : Sighting} {k : StoreKey}
    (h : ∀ s, (m.note x).kept? k = some s → x.since ≤ s.receivedAt) :
    (m.remember x).kept? k = (m.note x).kept? k := by
  rcases remember_eq m x with e | e
  · rw [e]
  · rw [e, kept?_evictBefore]
    cases hs : (m.note x).kept? k with
    | none => rfl
    | some s => simp [Option.filter, h s hs]

/-- **One more submission of the window** leaves every key with an earliest one. -/
theorem KeepsEarliest.remember (h : KeepsEarliest ss m) {x : Sighting}
    (hw : ∀ s ∈ ss ++ [x.submission], x.since ≤ s.receivedAt) :
    KeepsEarliest (ss ++ [x.submission]) (m.remember x) := by
  have hnote := h.note (x := x) fun s hs => hw s (List.mem_append_left _ hs)
  have hkept : ∀ k, (m.remember x).kept? k = (m.note x).kept? k := fun k =>
    kept?_remember_of_le fun s hs => hw s (hnote.earliest k s hs).mem
  exact ⟨fun k => by rw [hkept]; exact hnote.isNone_iff k,
    fun k s hs => hnote.earliest k s (by rwa [← hkept])⟩

theorem keepsEarliest_arrived (hw : ∀ s ∈ ss, since ≤ s.receivedAt) :
    KeepsEarliest ss (arrived since ss) := by
  induction ss using List.reverseRecOn with
  | nil => exact keepsEarliest_empty
  | append_singleton ss s ih =>
    rw [arrived_concat]
    exact (ih fun t ht => hw t (List.mem_append_left _ ht)).remember (x := ⟨s, since⟩) hw

/-! ## Another order -/

/-- What the keys have is said without an order. -/
theorem KeepsEarliest.of_perm (h : KeepsEarliest ts m) (hp : ts.Perm ss) : KeepsEarliest ss m where
  isNone_iff k := by
    rw [h.isNone_iff]
    exact forall_congr' fun s => imp_congr_left hp.mem_iff
  earliest k s hs :=
    have he := h.earliest k s hs
    ⟨hp.mem_iff.mp he.mem, he.hasKey, fun t ht => he.le t (hp.mem_iff.mpr ht)⟩

/-- Both states have submissions that are equally early under a key. -/
theorem KeepsEarliest.map_kept?_eq (hm : KeepsEarliest ss m) (hn : KeepsEarliest ss n)
    (k : StoreKey) : (m.kept? k).map (·.receivedAt) = (n.kept? k).map (·.receivedAt) := by
  cases hs : m.kept? k with
  | none =>
    have ht : n.kept? k = none := (hn.isNone_iff k).mpr ((hm.isNone_iff k).mp hs)
    rw [ht]
  | some s =>
    have hs := hm.earliest k s hs
    cases ht : n.kept? k with
    | none => exact absurd hs.hasKey ((hn.isNone_iff k).mp ht s hs.mem)
    | some t =>
      have ht := hn.earliest k t ht
      exact congrArg some (le_antisymm (hs.le t ht.mem ht.hasKey) (ht.le s hs.mem hs.hasKey))

/-- Without submissions that were received at the same time, both states have the same ones. -/
theorem KeepsEarliest.kept?_eq (hm : KeepsEarliest ss m) (hn : KeepsEarliest ss n)
    (hd : (ss.map (·.receivedAt)).Nodup) (k : StoreKey) : m.kept? k = n.kept? k := by
  have htimes := hm.map_kept?_eq hn k
  cases hs : m.kept? k with
  | none =>
    rw [hs] at htimes
    exact (Option.map_eq_none_iff.mp htimes.symm).symm
  | some s =>
    rw [hs] at htimes
    obtain ⟨t, ht, hts⟩ := Option.map_eq_some_iff.mp htimes.symm
    have hmem := (hn.earliest k t ht).mem
    rw [ht, List.inj_on_of_nodup_map hd hmem (hm.earliest k s hs).mem hts]

/-! ## Lookups -/

/-- When the earlier one of two submissions was received follows from when both were. -/
theorem map_earliest? (a b : Option Submission) :
    (earliest? a b).map (·.receivedAt) =
      Option.merge (fun t u => if u < t then u else t) (a.map (·.receivedAt))
        (b.map (·.receivedAt)) := by
  cases a with
  | none => cases b <;> rfl
  | some a =>
    cases b with
    | none => rfl
    | some b =>
      change some (if b.receivedAt < a.receivedAt then b else a).receivedAt =
        some (if b.receivedAt < a.receivedAt then b.receivedAt else a.receivedAt)
      split <;> rfl

theorem map_sighted? (m : Memory) (k : StoreKey) :
    (m.sighted? since k).map (·.receivedAt) =
      ((m.kept? k).map (·.receivedAt)).filter fun t => since ≤ t := by
  unfold sighted?
  cases m.kept? k with
  | none => rfl
  | some s =>
    by_cases hs : since ≤ s.receivedAt <;> simp [Option.filter, hs]

/-- When an answer was received follows from when the submissions under the keys were. -/
theorem map_find?_eq (h : ∀ k, (m.kept? k).map (·.receivedAt) = (n.kept? k).map (·.receivedAt))
    (q : Lookup) : (m.find? q).map (·.receivedAt) = (n.find? q).map (·.receivedAt) := by
  simp only [find?_eq, map_earliest?, map_sighted?, h]

/-- An answer follows from the submissions under the keys. -/
theorem find?_eq_of_kept?_eq (h : ∀ k, m.kept? k = n.kept? k) (q : Lookup) :
    m.find? q = n.find? q := by
  simp only [find?_eq, sighted?, h]

/-- **Within one window the order of arrival does not matter.** In any order, every key comes to an
earliest submission with it; so lookups for any window find something in one order when they do in
another, received at the same time, and the same if no two submissions were received at the same
time. -/
theorem orderless_arrived (hw : ∀ s ∈ ss, since ≤ s.receivedAt) :
    (∀ ts, ts.Perm ss → KeepsEarliest ss (arrived since ts)) ∧
    ∀ ts us, ts.Perm ss → us.Perm ss → ∀ q : Lookup,
      ((arrived since ts).find? q).map (·.receivedAt) =
        ((arrived since us).find? q).map (·.receivedAt) ∧
      ((ss.map (·.receivedAt)).Nodup → (arrived since ts).find? q = (arrived since us).find? q) := by
  have hkeeps : ∀ ts, ts.Perm ss → KeepsEarliest ss (arrived since ts) := by
    intro ts hts
    have hwts : ∀ s ∈ ts, since ≤ s.receivedAt := fun s hs => hw s (hts.mem_iff.mp hs)
    exact (keepsEarliest_arrived hwts).of_perm hts
  refine ⟨hkeeps, fun ts us hts hus q => ⟨?_, fun hd => ?_⟩⟩
  · exact map_find?_eq ((hkeeps ts hts).map_kept?_eq (hkeeps us hus)) q
  · exact find?_eq_of_kept?_eq ((hkeeps ts hts).kept?_eq (hkeeps us hus) hd) q

/-- Submissions with overlapping keys: the first has its content in common with the second and its
id with the third. -/
def overlappingKeys : List Submission := [
  ⟨"m1", "a", .ofSeconds 30⟩,
  ⟨"m2", "a", .ofSeconds 10⟩,
  ⟨"m1", "b", .ofSeconds 20⟩]

/-- The last one of them to come is the first one that was received with its id. -/
theorem find?_overlappingKeys :
    (∀ s ∈ overlappingKeys, Timestamp.ofSeconds 10 ≤ s.receivedAt) ∧
    (arrived (.ofSeconds 10) overlappingKeys).find? ⟨"m1", "c", .ofSeconds 15⟩ =
      some ⟨"m1", "b", .ofSeconds 20⟩ ∧
    ∀ q : Lookup, (arrived (.ofSeconds 10) overlappingKeys).find? q =
      (arrived (.ofSeconds 10) overlappingKeys.reverse).find? q := by
  have hw : ∀ s ∈ overlappingKeys, Timestamp.ofSeconds 10 ≤ s.receivedAt := by decide
  have hsame := (orderless_arrived hw).2 _ _ (List.Perm.refl _) (List.reverse_perm _)
  exact ⟨hw, by decide +kernel, fun q => (hsame q).2 (by decide)⟩

end Memory
end TradeIntake
