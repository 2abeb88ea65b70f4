import Mathlib.Algebra.Group.Nat.Defs
import TradeIntake.Proofs.Pipeline.Run

/-!
# Longer windows

The window of a duplicate check ends when the store is asked and starts so many seconds before. When
that many seconds cannot be represented, or the time so long ago cannot, the window has no start but
the earliest timestamp, so that everything ever received is in it. A longer window starts no later
then, whatever its length, and what a lookup sees of a key in a window it sees in a longer one.

* **`find?_of_since_le`**: what a lookup finds from an earlier start on.
* **`longer_window_keeps`**: a longer window never loses a duplicate.
* `longer_window_keeps_forever`: the longest window there is finds what a day does not.
-/

namespace TradeIntake

open Timestamp

namespace Memory

variable {m : Memory} {since earlier : Timestamp} {k : StoreKey} {s : Submission}

theorem sighted?_of_since_le (h : earlier ≤ since) (hs : m.sighted? since k = some s) :
    m.sighted? earlier k = some s := by
  obtain ⟨hkept, hr⟩ := sighted?_eq_some_iff.mp hs
  exact sighted?_eq_some_iff.mpr ⟨hkept, h.trans hr⟩

/-- A window that starts earlier shows nothing new under a key while all it shows is later. -/
theorem sighted?_eq_of_since_le (h : earlier ≤ since)
    (hlate : ∀ t, m.sighted? earlier k = some t → since ≤ t.receivedAt) :
    m.sighted? earlier k = m.sighted? since k := by
  refine Option.ext fun t => ⟨fun ht => ?_, sighted?_of_since_le h⟩
  exact sighted?_eq_some_iff.mpr ⟨(sighted?_eq_some_iff.mp ht).1, hlate t ht⟩

/-- **A lookup from an earlier start on** finds something when the other one does: the same, or
something that was received before the later start. -/
theorem find?_of_since_le {id fp : String} (h : earlier ≤ since)
    (hs : m.find? ⟨id, fp, since⟩ = some s) :
    ∃ t, m.find? ⟨id, fp, earlier⟩ = some t ∧ t.receivedAt ≤ s.receivedAt ∧
      (t = s ∨ t.receivedAt < since) := by
  obtain ⟨⟨k, hk, hsk⟩, -⟩ := sighted?_of_find? hs
  have hseen : m.sighted? earlier k = some s := sighted?_of_since_le h hsk
  have hsome : (m.find? ⟨id, fp, earlier⟩).isSome :=
    isSome_find?.mpr ⟨k, hk, Option.isSome_iff_exists.mpr ⟨s, hseen⟩⟩
  obtain ⟨t, ht⟩ := Option.isSome_iff_exists.mp hsome
  have hmin := (sighted?_of_find? ht).2
  refine ⟨t, ht, hmin k hk s hseen, ?_⟩
  by_cases hlt : t.receivedAt < since
  · exact Or.inr hlt
  -- nothing under either key is earlier than `t`, so both starts show the same
  · have hsame : ∀ k ∈ Lookup.keys ⟨id, fp, earlier⟩, m.sighted? earlier k = m.sighted? since k :=
      fun k hk => sighted?_eq_of_since_le h fun x hx => (not_lt.mp hlt).trans (hmin k hk x hx)
    have hfound : m.find? ⟨id, fp, earlier⟩ = m.find? ⟨id, fp, since⟩ := by
      rw [find?_eq, find?_eq, hsame _ (by simp [Lookup.keys]), hsame _ (by simp [Lookup.keys])]
    rw [hfound, hs] at ht
    exact Or.inl (Option.some.inj ht).symm

end Memory

namespace Pipeline

/-- The pipeline with a window of so many seconds. -/
def withWindow {σ : Type} (p : Pipeline σ) (secs : Nat) : Pipeline σ :=
  { p with settings := { p.settings with dedup := { p.settings.dedup with windowSecs := secs } } }

variable {p : Pipeline Memory}

theorem RemembersInMemory.withWindow (hp : p.RemembersInMemory) (secs : Nat) :
    (p.withWindow secs).RemembersInMemory :=
  ⟨hp.enabled, hp.find, hp.remember⟩

/-- **A duplicate in a window is one in a longer window.** -/
theorem isDuplicate_withWindow (hp : p.RemembersInMemory) {w longer : Nat} (h : w ≤ longer)
    (c : Message × Call) (m : Memory) (hdup : ((p.withWindow w).turn c m).isDuplicate = true) :
    ((p.withWindow longer).turn c m).isDuplicate = true := by
  obtain ⟨q, hq, hfound⟩ := (isDuplicate_turn (hp.withWindow w) c m).mp hdup
  obtain ⟨fp, hfp, rfl⟩ := Option.map_eq_some_iff.mp hq
  obtain ⟨s, hs⟩ := Option.isSome_iff_exists.mp hfound
  obtain ⟨t, ht, -⟩ := Memory.find?_of_since_le (windowStart_anti c.2.clock.lookedUp h) hs
  refine (isDuplicate_turn (hp.withWindow longer) c m).mpr
    ⟨_, ?_, Option.isSome_iff_exists.mpr ⟨t, ht⟩⟩
  exact Option.map_eq_some_iff.mpr ⟨fp, hfp, rfl⟩

end Pipeline

/-- The window of `v` seconds starts `v` seconds before it ends, unless so many seconds are more
than 2⁶³ - 1 milliseconds or the time so long ago comes before the first second. -/
theorem windowStart_eq_of_millis (now : Timestamp) (v : Nat) :
    windowStart now v =
      if 1000 * v ≤ 2 ^ 63 - 1 ∧ firstSecond ≤ now.seconds - v then
        { now with seconds := now.seconds - v }
      else earliest := by
  have hspan : v ≤ longestSpan ↔ 1000 * v ≤ 2 ^ 63 - 1 := by
    unfold longestSpan
    omega
  simp only [windowStart_eq, hspan]

/-- **A longer window never loses a duplicate**, whatever its length. It starts no later, at a time
that can be represented; a lookup on the same state finds something received no later; and a message
that is a duplicate in the one window is a duplicate in the other. -/
theorem longer_window_keeps (now : Timestamp) {w longer : Nat} (h : w ≤ longer) :
    windowStart now longer ≤ windowStart now w ∧
    (∀ v, windowStart now v =
      if 1000 * v ≤ 2 ^ 63 - 1 ∧ firstSecond ≤ now.seconds - v then
        { now with seconds := now.seconds - v }
      else earliest) ∧
    (firstSecond ≤ now.seconds → ∀ v, earliest ≤ windowStart now v ∧ windowStart now v ≤ now) ∧
    (∀ (m : Memory) (id fp : String) (s : Submission),
      m.find? ⟨id, fp, windowStart now w⟩ = some s →
      ∃ t, m.find? ⟨id, fp, windowStart now longer⟩ = some t ∧ t.receivedAt ≤ s.receivedAt ∧
        (t = s ∨ t.receivedAt < windowStart now w)) ∧
    ∀ p : Pipeline Memory, p.RemembersInMemory → ∀ (m : Message) (call : Call) (st : Memory),
      ((p.withWindow w).process m call st).1.1.result.isDuplicate = true →
      ((p.withWindow longer).process m call st).1.1.result.isDuplicate = true := by
  refine ⟨windowStart_anti now h, windowStart_eq_of_millis now, fun hnow => windowStart_mem hnow,
    fun m id fp s hs => Memory.find?_of_since_le (windowStart_anti now h) hs, ?_⟩
  intro p hp m call st hdup
  exact Pipeline.isDuplicate_withWindow hp h (m, call) st hdup

/-- Two submissions that share nothing, one at the epoch and one a good deal later. -/
def farApart : Memory :=
  .ofSightings [⟨⟨"m1", "a", ofSeconds 0⟩, earliest⟩, ⟨⟨"m2", "b", ofSeconds 1709000000⟩, earliest⟩]

/-- The longest window there is starts at the earliest timestamp. A lookup by the id of the later
submission and the content of the earlier one finds the former within a day, and the latter within
that window. -/
theorem longer_window_keeps_forever :
    let now := ofSeconds 1709050000
    let longest := 2 ^ 64 - 1
    86400 ≤ longest ∧ windowStart now longest = earliest ∧
      farApart.find? ⟨"m2", "a", windowStart now 86400⟩ =
        some ⟨"m2", "b", ofSeconds 1709000000⟩ ∧
      ∃ t, farApart.find? ⟨"m2", "a", windowStart now longest⟩ = some t ∧ t.messageId = "m1" ∧
        t.receivedAt ≤ ofSeconds 1709000000 := by
  intro now longest
  have hle : 86400 ≤ longest := by decide
  have hday : farApart.find? ⟨"m2", "a", windowStart now 86400⟩ =
      some ⟨"m2", "b", ofSeconds 1709000000⟩ := by decide +kernel
  have hfirst : farApart.find? ⟨"m2", "a", windowStart now longest⟩ =
      some ⟨"m1", "a", ofSeconds 0⟩ := by decide +kernel
  obtain ⟨-, hstart, -, hfind, -⟩ := longer_window_keeps now hle
  obtain ⟨t, ht, hr, -⟩ := hfind farApart "m2" "a" _ hday
  refine ⟨hle, (hstart longest).trans (by decide), hday, t, ht, ?_, hr⟩
  rw [hfirst] at ht
  rw [← Option.some.inj ht]

end TradeIntake
