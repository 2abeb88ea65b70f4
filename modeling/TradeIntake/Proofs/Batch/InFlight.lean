import TradeIntake.Batch
import TradeIntake.Proofs.Pipeline.Writes

/-!
# Resubmissions in flight

A message is looked up in its second step and remembered in its third, and between the two others
may take their steps. So of messages with one document that are processed side by side, more than
one may be told to be new: all that are looked up before one of them is remembered. This is said
here of any number of calls inside one window, over the store in memory in any state, and of any
order of their steps.

* **`CameTo.next`**, **`After.advance`**: one step of one call, alone and among the others.
* **`toldNew_iff_amongFirst`**: which calls are told to be new, and when at most one is.
* **`not_caught_overlapping`**: two may be.
-/

namespace TradeIntake

/-! ## Orders of steps -/

/-- The second step of one message, which looks it up, comes before the third step of the other one,
which has it remembered. -/
def LooksUpBefore (order : List Nat) (i j : Nat) : Prop :=
  ∃ before after, order = before ++ i :: after ∧ before.count i = 1 ∧ before.count j < 3

section Steps

variable {order : List Nat} {i k : Nat}

theorem count_concat_self : (order ++ [k]).count k = order.count k + 1 := by
  rw [List.count_append, List.count_singleton_self]

theorem count_concat_of_ne (h : k ≠ i) : (order ++ [k]).count i = order.count i := by
  simp [List.count_append, h]

end Steps

namespace LooksUpBefore

variable {order : List Nat} {i j k : Nat}

theorem two_le_count (h : LooksUpBefore order i j) : 2 ≤ order.count i := by
  obtain ⟨before, after, rfl, hi, -⟩ := h
  rw [List.count_append, List.count_cons_self]
  omega

theorem concat_iff :
    LooksUpBefore (order ++ [k]) i j ↔
      LooksUpBefore order i j ∨ k = i ∧ order.count i = 1 ∧ order.count j < 3 := by
  constructor
  · rintro ⟨before, after, h, hi, hj⟩
    rcases List.eq_nil_or_concat after with rfl | ⟨after, l, rfl⟩
    · obtain ⟨rfl, hk⟩ := List.append_inj' h rfl
      exact Or.inr ⟨List.head_eq_of_cons_eq hk, hi, hj⟩
    · have h' : order ++ [k] = (before ++ i :: after) ++ [l] := by simpa using h
      obtain ⟨rfl, -⟩ := List.append_inj' h' rfl
      exact Or.inl ⟨before, after, rfl, hi, hj⟩
  · rintro (⟨before, after, rfl, hi, hj⟩ | ⟨rfl, hi, hj⟩)
    · exact ⟨before, after ++ [k], by simp, hi, hj⟩
    · exact ⟨order, [], rfl, hi, hj⟩

/-- A message that was looked up was so before another one, or that one is through. -/
theorem or_three_le_count (h : 2 ≤ order.count i) :
    LooksUpBefore order i j ∨ 3 ≤ order.count j := by
  induction order using List.reverseRecOn with
  | nil => cases h
  | append_singleton order k ih =>
    rw [concat_iff]
    rw [List.count_append] at h ⊢
    by_cases hi : 2 ≤ order.count i
    · rcases ih hi with hb | hj
      · exact Or.inl (Or.inl hb)
      · exact Or.inr (by omega)
    · -- the step that was added is the second one of `i`
      have hk : k = i := by
        by_contra hne
        rw [List.count_singleton, if_neg (by simpa using hne)] at h
        exact hi h
      subst hk
      rw [List.count_singleton_self] at h
      by_cases hj : order.count j < 3
      · exact Or.inl (Or.inr ⟨rfl, by omega, hj⟩)
      · exact Or.inr (by omega)

/-- Only the second step of a message settles what it is looked up before. -/
theorem concat_iff_of_ne (h : k = i → order.count i ≠ 1) :
    LooksUpBefore (order ++ [k]) i j ↔ LooksUpBefore order i j := by
  rw [concat_iff]
  exact or_iff_left fun hk => h hk.1 hk.2.1

/-- The second step of a message comes before the third step of those that have not taken it. -/
theorem concat_self_iff (h : order.count i = 1) :
    LooksUpBefore (order ++ [i]) i j ↔ order.count j < 3 := by
  rw [concat_iff]
  constructor
  · rintro (hb | ⟨-, -, hj⟩)
    · exact absurd hb.two_le_count (by omega)
    · exact hj
  · exact fun hj => Or.inr ⟨rfl, h, hj⟩

end LooksUpBefore

/-! ## Keeping a submission -/

/-- A key keeps the submission that is remembered, or one that was there and is still in the
window. -/
theorem Memory.kept?_remember_of_hasKey {m : Memory} {x : Sighting} {k : StoreKey}
    (hk : x.submission.HasKey k) (hr : x.since ≤ x.submission.receivedAt) :
    ∃ s, (m.remember x).kept? k = some s ∧
      (s = x.submission ∨ m.kept? k = some s ∧ x.since ≤ s.receivedAt) := by
  obtain ⟨s, hs, hsr, hso⟩ : ∃ s, (m.note x).kept? k = some s ∧ x.since ≤ s.receivedAt ∧
      (s = x.submission ∨ m.kept? k = some s) := by
    rw [kept?_note, if_pos hk]
    cases m.kept? k with
    | none => exact ⟨_, rfl, hr, Or.inl rfl⟩
    | some prior =>
      simp only [Option.map_some, Option.getD_some, Sightings.earlier]
      split
      · exact ⟨_, rfl, hr, Or.inl rfl⟩
      · rename_i h
        exact ⟨_, rfl, not_lt.mp fun hlt => h (Or.inl hlt), Or.inr rfl⟩
  refine ⟨s, ?_, hso.imp_right (⟨·, hsr⟩)⟩
  rcases m.remember_eq x with h | h
  · rw [h, hs]
  · rw [h, kept?_evictBefore, hs]
    simpa using hsr

namespace Pipeline

variable (p : Pipeline Memory)

/-! ## Resubmissions -/

/-- **One document again and again**: every call checks the content of that fingerprint, and all
calls are inside one window, which is open when any of them is received. -/
structure Resubmissions (fp : String) (calls : List (Message × Call)) : Prop where
  checkable : ∀ c ∈ calls, c.1.checkable? p.settings.ingest = some fp
  clock : ∀ c ∈ calls, c.2.clock.lookedUp ≤ c.2.clock.recorded
  oneWindow : ∀ c ∈ calls, ∀ d ∈ calls, p.since c.2.clock.recorded ≤ d.2.clock.received

/-- What a call asks the store for. -/
def lookupOf (fp : String) (c : Message × Call) : Lookup :=
  ⟨c.1.messageId, fp, p.since c.2.clock.lookedUp⟩

/-- What a call has the store remember. -/
def sightingOf (fp : String) (c : Message × Call) : Sighting :=
  ⟨⟨c.1.messageId, fp, c.2.clock.received⟩, p.since c.2.clock.recorded⟩

/-- The store finds nothing for that call. -/
def Unknown (fp : String) (m : Memory) (calls : List (Message × Call)) (i : Nat) : Prop :=
  ∃ c, calls[i]? = some c ∧ m.find? (p.lookupOf fp c) = none

/-- **The call is among the first**: the store finds nothing for it, and it is looked up before any
call for which the store finds nothing is remembered. -/
def AmongFirst (fp : String) (m : Memory) (calls : List (Message × Call)) (order : List Nat)
    (i : Nat) : Prop :=
  p.Unknown fp m calls i ∧ ∀ j, p.Unknown fp m calls j → LooksUpBefore order i j

/-- The store has the document, received in the window of every call. -/
def Known (fp : String) (calls : List (Message × Call)) (m : Memory) : Prop :=
  ∃ s, m.kept? (.fingerprint fp) = some s ∧
    ∀ c ∈ calls, p.since c.2.clock.recorded ≤ s.receivedAt

variable {p} {fp : String} {calls : List (Message × Call)}

theorem Resubmissions.lookupOf_since_le (h : p.Resubmissions fp calls) {c : Message × Call}
    (hc : c ∈ calls) : (p.lookupOf fp c).since ≤ (p.sightingOf fp c).since :=
  windowStart_mono (h.clock c hc) _

theorem Resubmissions.isSome_find?_of_known (h : p.Resubmissions fp calls) {m : Memory}
    (hm : p.Known fp calls m) {c : Message × Call} (hc : c ∈ calls) :
    (m.find? (p.lookupOf fp c)).isSome := by
  obtain ⟨s, hs, hr⟩ := hm
  refine Memory.isSome_find?.mpr ⟨.fingerprint fp, by simp [Lookup.keys, lookupOf], ?_⟩
  rw [Memory.sighted?_eq_some_iff.mpr ⟨hs, (h.lookupOf_since_le hc).trans (hr c hc)⟩]
  rfl

/-- A call that is remembered is known then: where nothing was found for it, and where the document
was known before. -/
theorem Resubmissions.known_remember (h : p.Resubmissions fp calls) {m : Memory}
    {c : Message × Call} (hc : c ∈ calls)
    (hm : m.find? (p.lookupOf fp c) = none ∨ p.Known fp calls m) :
    p.Known fp calls (m.remember (p.sightingOf fp c)) := by
  obtain ⟨s, hs, rfl | ⟨hprior, hr⟩⟩ := Memory.kept?_remember_of_hasKey (m := m)
    (k := .fingerprint fp) (x := p.sightingOf fp c) rfl (h.oneWindow c hc c hc)
  · exact ⟨_, hs, fun d hd => h.oneWindow d hd c hc⟩
  · rcases hm with hnone | ⟨t, ht, hall⟩
    · -- what is kept and in the window of the request is found by the lookup before it
      have hsome : (m.find? (p.lookupOf fp c)).isSome := by
        refine Memory.isSome_find?.mpr ⟨.fingerprint fp, by simp [Lookup.keys, lookupOf], ?_⟩
        rw [Memory.sighted?_eq_some_iff.mpr ⟨hprior, (h.lookupOf_since_le hc).trans hr⟩]
        rfl
      rw [hnone] at hsome
      cases hsome
    · obtain rfl := Option.some.inj (hprior.symm.trans ht)
      exact ⟨_, hs, hall⟩

/-! ## The steps of one call -/

/-- Where a call is after so many of its steps, when it is among the first or not. -/
inductive CameTo (p : Pipeline Memory) (fp : String) (c : Message × Call) (first : Prop) :
    Nat → Stage → Prop
  | waiting : CameTo p fp c first 0 .waiting
  | received : CameTo p fp c first 1 (.received (p.receive c.1 c.2).1)
  | lookedUp (hf : first) (x : InFlight) (hx : x.call = c.2)
      (hs : x.submission? = some (p.sightingOf fp c).submission)
      (hd : x.result.isDuplicate = false) : CameTo p fp c first 2 (.lookedUp x)
  | duplicate (hf : ¬ first) (n : Nat) (out : Processed) (hd : out.result.isDuplicate = true) :
      CameTo p fp c first (n + 2) (.finished out)
  | fresh (hf : first) (n : Nat) (out : Processed) (hd : out.result.isDuplicate = false) :
      CameTo p fp c first (n + 3) (.finished out)

variable (hp : p.RemembersInMemory) {c : Message × Call}
  (hc : c.1.checkable? p.settings.ingest = some fp)
include hp hc

/-- **The second step**: a call for which nothing is found is about to be remembered, any other one
is finished. -/
theorem next_received (m : Memory) :
    let out := (Stage.received (p.receive c.1 c.2).1).next p c.1 c.2 m
    CameTo p fp c (m.find? (p.lookupOf fp c) = none) 2 out.1.1 ∧ out.2 = m := by
  intro out
  have hw := (p.wanted?_receive c.1 c.2).trans hc
  have hx := p.lookUp_receive c.1 c.2 m
  have hs := p.submission?_lookUp c.1 c.2 m
  have hd : (p.process c.1 c.2 m).1.1.result.isDuplicate =
      (m.find? (p.lookupOf fp c)).isSome := by
    rw [p.isDuplicate_process_of_checked c.1 c.2 m hc, hp.check_eq]
    rfl
  have hstage : out.1.1 = if (p.lookUp (p.receive c.1 c.2).1 m).1.1.submission?.isSome
      then .lookedUp (p.lookUp (p.receive c.1 c.2).1 m).1.1
      else .finished (p.lookUp (p.receive c.1 c.2).1 m).1.1.processed := rfl
  constructor
  · rw [hd, hc] at hs
    rw [hs] at hstage
    rw [fst_process] at hd
    cases hf : m.find? (p.lookupOf fp c) with
    | none =>
      rw [hf] at hstage hd hs
      rw [hstage]
      exact .lookedUp rfl _ (by rw [hx]) hs hd
    | some s =>
      rw [hf] at hstage hd
      rw [hstage]
      exact .duplicate (by simp) 0 _ hd
  · change (p.lookUp (p.receive c.1 c.2).1 m).2 = m
    rw [p.snd_lookUp m hw, hp.check_eq]

/-- **A step of a call.** The second one settles whether it is among the first; the third one of
such a call has it remembered, and no other step changes the store. -/
theorem CameTo.next {first : Prop} {n : Nat} {s : Stage} (h : CameTo p fp c first n s)
    (m : Memory) (first' : Prop) (hsettled : n = 1 → (first' ↔ m.find? (p.lookupOf fp c) = none))
    (hkept : n ≠ 1 → (first' ↔ first)) :
    let out := s.next p c.1 c.2 m
    CameTo p fp c first' (n + 1) out.1.1 ∧
      (n = 2 ∧ first → out.2 = m.remember (p.sightingOf fp c)) ∧
      (¬ (n = 2 ∧ first) → out.2 = m) := by
  cases h with
  | waiting =>
    refine ⟨?_, fun h => absurd h.1 (by decide), fun _ => rfl⟩
    have hw : (p.receive c.1 c.2).1.wanted?.isSome := by
      rw [p.wanted?_receive, hc]
      rfl
    simp only [Stage.next, if_pos hw]
    exact .received
  | received =>
    obtain ⟨hcame, hst⟩ := next_received hp hc m
    refine ⟨?_, fun h => absurd h.1 (by decide), fun _ => hst⟩
    rwa [propext (hsettled rfl)]
  | lookedUp hf x hx hs hd =>
    refine ⟨?_, fun _ => ?_, fun hn => absurd ⟨rfl, hf⟩ hn⟩
    · simp only [Stage.next, fst_complete]
      exact .fresh ((hkept (by decide)).mpr hf) 0 _ hd
    · simp only [Stage.next, snd_complete, hs, hx]
      exact hp.remember_eq _ _ m
  | duplicate hf k out hd =>
    refine ⟨?_, fun h => absurd h.2 hf, fun _ => rfl⟩
    exact .duplicate (fun h => hf ((hkept (by omega)).mp h)) (k + 1) _ hd
  | fresh hf k out hd =>
    refine ⟨?_, fun h => absurd h.1 (by omega), fun _ => rfl⟩
    exact .fresh ((hkept (by omega)).mpr hf) (k + 1) _ hd

omit hp hc

theorem unknown_iff {m : Memory} {i : Nat} (hi : calls[i]? = some c) :
    p.Unknown fp m calls i ↔ m.find? (p.lookupOf fp c) = none := by
  unfold Unknown
  rw [hi]
  simp

/-! ## The steps of a batch -/

theorem amongFirst_concat_of_ne {m : Memory} {order : List Nat} {i k : Nat}
    (h : k = i → order.count i ≠ 1) :
    p.AmongFirst fp m calls (order ++ [k]) i ↔ p.AmongFirst fp m calls order i := by
  simp only [AmongFirst, LooksUpBefore.concat_iff_of_ne h]

/-- What holds of the resubmissions after steps in that order: each call is where its steps took it,
the store is untouched until a call for which it finds nothing is through, and from then on it has
the document. -/
structure After (p : Pipeline Memory) (fp : String) (m : Memory) (calls : List (Message × Call))
    (order : List Nat) (b : Batch Memory) : Prop where
  length : b.items.length = calls.length
  came : ∀ i c, calls[i]? = some c → ∃ item, b.items[i]? = some item ∧ item.message = c.1 ∧
    item.call = c.2 ∧ CameTo p fp c (p.AmongFirst fp m calls order i) (order.count i) item.stage
  untouched : (∀ i, p.Unknown fp m calls i → order.count i < 3) → b.state = m
  known : ∀ i, p.Unknown fp m calls i → 3 ≤ order.count i → p.Known fp calls b.state

theorem after_ofCalls (m : Memory) : After p fp m calls [] (.ofCalls calls m) where
  length := List.length_map _
  came i c hi := by
    refine ⟨_, by rw [Batch.ofCalls, List.getElem?_map, hi]; rfl, rfl, rfl, .waiting⟩
  untouched _ := rfl
  known _ _ h := absurd h (by simp)

theorem After.untouched_or_known {m : Memory} {order : List Nat} {b : Batch Memory}
    (hb : After p fp m calls order b) : b.state = m ∨ p.Known fp calls b.state := by
  by_cases hall : ∀ j, p.Unknown fp m calls j → order.count j < 3
  · exact Or.inl (hb.untouched hall)
  · push Not at hall
    obtain ⟨j, hj, hjn⟩ := hall
    exact Or.inr (hb.known j hj hjn)

/-- A call that was looked up and is not among the first met the document in the store. -/
theorem After.known_of_late {m : Memory} {order : List Nat} {b : Batch Memory}
    (hb : After p fp m calls order b) {k : Nat} (hk : p.Unknown fp m calls k)
    (hn : 2 ≤ order.count k) (hlate : ¬ p.AmongFirst fp m calls order k) :
    p.Known fp calls b.state := by
  have hlate : ¬ ∀ j, p.Unknown fp m calls j → LooksUpBefore order k j :=
    fun hall => hlate ⟨hk, hall⟩
  push Not at hlate
  obtain ⟨j, hj, hbefore⟩ := hlate
  exact hb.known j hj ((LooksUpBefore.or_three_le_count hn).resolve_left hbefore)

/-- The second step of a call tells whether it is among the first. -/
theorem After.settled {m : Memory} {order : List Nat} {b : Batch Memory}
    (hb : After p fp m calls order b) (h : p.Resubmissions fp calls) {k : Nat}
    (hk : calls[k]? = some c) (hn : order.count k = 1) :
    p.AmongFirst fp m calls (order ++ [k]) k ↔ b.state.find? (p.lookupOf fp c) = none := by
  have hiff : p.AmongFirst fp m calls (order ++ [k]) k ↔
      p.Unknown fp m calls k ∧ ∀ j, p.Unknown fp m calls j → order.count j < 3 := by
    simp only [AmongFirst, LooksUpBefore.concat_self_iff hn]
  rw [hiff]
  by_cases hall : ∀ j, p.Unknown fp m calls j → order.count j < 3
  · rw [hb.untouched hall, ← unknown_iff hk]
    exact and_iff_left hall
  · obtain ⟨j, hj, hjn⟩ : ∃ j, p.Unknown fp m calls j ∧ 3 ≤ order.count j := by
      push Not at hall
      exact hall
    have hf := h.isSome_find?_of_known (hb.known j hj hjn) (List.mem_of_getElem? hk)
    refine iff_of_false (fun h => hall h.2) fun hnone => ?_
    rw [hnone] at hf
    cases hf

/-- A step of another call leaves a call where it came to. -/
theorem After.came_concat {m : Memory} {order : List Nat} {b : Batch Memory}
    (hb : After p fp m calls order b) {i k : Nat} (hki : k ≠ i) (hi : calls[i]? = some c) :
    ∃ item, b.items[i]? = some item ∧ item.message = c.1 ∧ item.call = c.2 ∧
      CameTo p fp c (p.AmongFirst fp m calls (order ++ [k]) i) ((order ++ [k]).count i)
        item.stage := by
  rw [count_concat_of_ne hki, propext (amongFirst_concat_of_ne fun e => absurd e hki)]
  exact hb.came i c hi

/-- A call for which nothing was found is through after a step that has nothing remembered: the
document was in the store before. -/
theorem After.known_concat {m : Memory} {order : List Nat} {b : Batch Memory}
    (hb : After p fp m calls order b) {i k : Nat}
    (hquiet : ¬ (order.count k = 2 ∧ p.AmongFirst fp m calls order k))
    (hi : p.Unknown fp m calls i) (hn : 3 ≤ (order ++ [k]).count i) :
    p.Known fp calls b.state := by
  by_cases hi3 : 3 ≤ order.count i
  · exact hb.known i hi hi3
  · -- the third step of a call that was not among the first
    have hki : k = i := by
      by_contra hki
      exact hi3 (count_concat_of_ne hki ▸ hn)
    subst hki
    rw [count_concat_self] at hn
    have hn2 : order.count k = 2 := by omega
    exact hb.known_of_late hi hn2.ge fun hf => hquiet ⟨hn2, hf⟩

theorem After.untouched_concat {m : Memory} {order : List Nat} {b : Batch Memory}
    (hb : After p fp m calls order b) {k : Nat}
    (hall : ∀ i, p.Unknown fp m calls i → (order ++ [k]).count i < 3) : b.state = m :=
  hb.untouched fun i hi =>
    ((List.sublist_append_left order [k]).count_le i).trans_lt (hall i hi)

theorem After.advance_of_none {m : Memory} {order : List Nat} {b : Batch Memory}
    (hb : After p fp m calls order b) {k : Nat} (hk : calls[k]? = none) :
    After p fp m calls (order ++ [k]) (b.advance p k) := by
  have hitem : b.items[k]? = none := by
    rw [List.getElem?_eq_none_iff, hb.length]
    exact List.getElem?_eq_none_iff.mp hk
  have hne : ∀ {i c}, calls[i]? = some c → k ≠ i := fun hi e => by
    rw [e, hi] at hk
    cases hk
  have hadvance : b.advance p k = b := by
    unfold Batch.advance
    rw [hitem]
  rw [hadvance]
  refine ⟨hb.length, fun i c hi => hb.came_concat (hne hi) hi, hb.untouched_concat,
    fun i hi => hb.known_concat (fun hf => ?_) hi⟩
  obtain ⟨c, hc, -⟩ := hf.2.1
  exact hne hc rfl

/-- **A step of one call**, whichever it is. -/
theorem After.advance (hp : p.RemembersInMemory) (h : p.Resubmissions fp calls) {m : Memory}
    {order : List Nat} {b : Batch Memory} (hb : After p fp m calls order b) (k : Nat) :
    After p fp m calls (order ++ [k]) (b.advance p k) := by
  cases hk : calls[k]? with
  | none => exact hb.advance_of_none hk
  | some c =>
    have hmem := List.mem_of_getElem? hk
    obtain ⟨item, hitem, hmessage, hcall, hcame⟩ := hb.came k c hk
    obtain ⟨hnext, htold, hquiet⟩ := hcame.next hp (h.checkable c hmem) b.state
      (p.AmongFirst fp m calls (order ++ [k]) k) (hb.settled h hk)
      fun hn => amongFirst_concat_of_ne fun _ => hn
    have hadvance : b.advance p k =
      { items := b.items.set k
          { item with
            stage := (item.stage.next p c.1 c.2 b.state).1.1
            due := max b.now item.due + p.checker.pause }
        events := b.events ++ (item.stage.next p c.1 c.2 b.state).1.2
        state := (item.stage.next p c.1 c.2 b.state).2
        now := max b.now item.due } := by
      unfold Batch.advance
      rw [hitem, ← hmessage, ← hcall]
    rw [hadvance]
    refine ⟨by rw [List.length_set, hb.length], fun i d hi => ?_, fun hall => ?_, fun i hi hn => ?_⟩
    · by_cases hki : k = i
      · subst hki
        obtain rfl := Option.some.inj (hk.symm.trans hi)
        have hlt := (List.getElem?_eq_some_iff.mp hitem).1
        refine ⟨_, List.getElem?_set_self hlt, hmessage, hcall, ?_⟩
        rw [count_concat_self]
        exact hnext
      · rw [List.getElem?_set_ne hki]
        exact hb.came_concat hki hi
    · refine (hquiet fun hk2 => ?_).trans (hb.untouched_concat hall)
      have hlt := hall k hk2.2.1
      rw [count_concat_self, hk2.1] at hlt
      exact absurd hlt (by decide)
    · by_cases hk2 : order.count k = 2 ∧ p.AmongFirst fp m calls order k
      · rw [htold hk2]
        refine h.known_remember hmem (hb.untouched_or_known.imp (fun hm => ?_) id)
        rw [hm]
        exact (unknown_iff hk).mp hk2.2.1
      · rw [hquiet hk2]
        exact hb.known_concat hk2 hi hn

/-- **Any steps in any order.** -/
theorem after_follow (hp : p.RemembersInMemory) (h : p.Resubmissions fp calls) (m : Memory)
    (order : List Nat) : After p fp m calls order ((Batch.ofCalls calls m).follow p order) := by
  induction order using List.reverseRecOn with
  | nil => exact after_ofCalls m
  | append_singleton order k ih =>
    rw [Batch.follow, List.foldl_append]
    exact ih.advance hp h k

/-- A call that took its three steps is finished. -/
theorem After.exists_output {m : Memory} {order : List Nat} {b : Batch Memory}
    (hb : After p fp m calls order b) {i : Nat} (hi : i < calls.length) (hn : 3 ≤ order.count i) :
    ∃ out, b.outputs[i]? = some (some out) := by
  obtain ⟨item, hitem, -, -, hcame⟩ := hb.came i _ (List.getElem?_eq_getElem hi)
  rw [Batch.outputs, List.getElem?_map, hitem]
  generalize order.count i = n at hcame hn
  generalize hs : item.stage = s at hcame
  cases hcame with
  | waiting | received | lookedUp => exact absurd hn (by decide)
  | duplicate _ _ out => exact ⟨out, by simp [hs, Stage.output?]⟩
  | fresh _ _ out => exact ⟨out, by simp [hs, Stage.output?]⟩

/-- A finished call is told to be no duplicate when it is among the first, and then it took its
three steps. -/
theorem After.isDuplicate_iff {m : Memory} {order : List Nat} {b : Batch Memory}
    (hb : After p fp m calls order b) {i : Nat} {out : Processed}
    (ho : b.outputs[i]? = some (some out)) :
    (out.result.isDuplicate = false ↔ p.AmongFirst fp m calls order i) ∧
      (out.result.isDuplicate = false → 3 ≤ order.count i) := by
  rw [Batch.outputs, List.getElem?_map] at ho
  obtain ⟨item, hitem, hout⟩ := Option.map_eq_some_iff.mp ho
  have hlt : i < calls.length := hb.length ▸ (List.getElem?_eq_some_iff.mp hitem).1
  obtain ⟨item', hitem', -, -, hcame⟩ := hb.came i _ (List.getElem?_eq_getElem hlt)
  obtain rfl := Option.some.inj (hitem.symm.trans hitem')
  generalize item.stage = s, order.count i = n at hcame hout
  cases hcame with
  | waiting | received | lookedUp => cases hout
  | duplicate hf _ _ hd =>
    obtain rfl := Option.some.inj hout
    simp [hd, hf]
  | fresh hf _ _ hd =>
    obtain rfl := Option.some.inj hout
    simp [hd, hf]

end Pipeline

/-- The message is finished and told to be no duplicate. -/
def Batch.ToldNew (b : Batch Memory) (i : Nat) : Prop :=
  ∃ out, b.outputs[i]? = some (some out) ∧ out.result.isDuplicate = false

theorem Batch.toldNew_iff_any {b : Batch Memory} {i : Nat} :
    b.ToldNew i ↔ b.outputs[i]?.join.any (!·.result.isDuplicate) = true := by
  unfold ToldNew
  rcases b.outputs[i]? with _ | _ | out <;> simp

instance (b : Batch Memory) (i : Nat) : Decidable (b.ToldNew i) :=
  decidable_of_iff _ Batch.toldNew_iff_any.symm

namespace Pipeline

variable {p : Pipeline Memory} {fp : String} {calls : List (Message × Call)}

theorem After.toldNew_iff {m : Memory} {order : List Nat} {b : Batch Memory}
    (hb : After p fp m calls order b) (i : Nat) :
    b.ToldNew i ↔ p.AmongFirst fp m calls order i ∧ 3 ≤ order.count i := by
  constructor
  · rintro ⟨out, ho, hd⟩
    obtain ⟨hiff, hn⟩ := hb.isDuplicate_iff ho
    exact ⟨hiff.mp hd, hn hd⟩
  · rintro ⟨hf, hn⟩
    obtain ⟨c, hc, -⟩ := hf.1
    obtain ⟨out, ho⟩ := hb.exists_output (List.getElem?_eq_some_iff.mp hc).1 hn
    exact ⟨out, ho, (hb.isDuplicate_iff ho).1.mpr hf⟩

/-- **Which resubmissions in flight are caught**, whatever the order of the steps. A call that took
its steps is told to be no duplicate when it is among the first: the store finds nothing for it, and
it is looked up before any such call is remembered; every other one is told to be a duplicate. So at
most one is told to be new exactly when no two that are among the first come through. -/
theorem toldNew_iff_amongFirst (hp : p.RemembersInMemory) (h : p.Resubmissions fp calls)
    (m : Memory) (order : List Nat) :
    let b := (Batch.ofCalls calls m).follow p order
    (∀ i < calls.length, 3 ≤ order.count i → ∃ out, b.outputs[i]? = some (some out)) ∧
    (∀ i, b.ToldNew i ↔ p.AmongFirst fp m calls order i ∧ 3 ≤ order.count i) ∧
    ((∀ i j, b.ToldNew i → b.ToldNew j → i = j) ↔
      ∀ i j, p.AmongFirst fp m calls order i → p.AmongFirst fp m calls order j →
        3 ≤ order.count i → 3 ≤ order.count j → i = j) := by
  intro b
  have hb : After p fp m calls order b := after_follow hp h m order
  refine ⟨fun i => hb.exists_output, hb.toldNew_iff, ?_⟩
  simp only [hb.toldNew_iff]
  exact ⟨fun hone i j hi hj hin hjn => hone i j ⟨hi, hin⟩ ⟨hj, hjn⟩,
    fun hone i j hi hj => hone i j hi.1 hj.1 hi.2 hj.2⟩

/-- The same document twice within a second. -/
def twins : List (Message × Call) := [resubmission "m1" 0, resubmission "m2" 0]

theorem resubmissions_twins :
    tenSeconds.Resubmissions (fingerprint [60, 97, 47, 62]) twins where
  checkable := by decide +kernel
  clock := by decide +kernel
  oneWindow := by decide +kernel

/-- Of the two, the second one is caught when it comes after the first one is through. -/
theorem toldNew_twins :
    let b := (Batch.ofCalls twins .empty).follow tenSeconds [0, 1, 0, 0, 1, 1]
    b.ToldNew 0 ∧ ¬ b.ToldNew 1 ∧
      ¬ tenSeconds.AmongFirst (fingerprint [60, 97, 47, 62]) .empty twins [0, 1, 0, 0, 1, 1] 1 := by
  intro b
  have hp : tenSeconds.RemembersInMemory := remembersInMemory_of_delayed rfl rfl (by decide)
  have hnew : b.ToldNew 0 ∧ ¬ b.ToldNew 1 := by decide +kernel
  obtain ⟨-, hiff, -⟩ := toldNew_iff_amongFirst hp resubmissions_twins .empty [0, 1, 0, 0, 1, 1]
  exact ⟨hnew.1, hnew.2, fun hf => hnew.2 ((hiff 1).mpr ⟨hf, by decide⟩)⟩

/-- **Resubmissions in flight together may all pass**: when two are looked up before one of them is
remembered, both are told to be new. -/
theorem not_caught_overlapping :
    ¬ ∀ (p : Pipeline Memory) (fp content : String) (calls : List (Message × Call))
      (order : List Nat), p.RemembersInMemory → p.Resubmissions fp calls →
        (∀ c ∈ calls, c.1.content = content) →
          ∀ i j, ((Batch.ofCalls calls .empty).follow p order).ToldNew i →
            ((Batch.ofCalls calls .empty).follow p order).ToldNew j → i = j := by
  intro h
  have hp : tenSeconds.RemembersInMemory := remembersInMemory_of_delayed rfl rfl (by decide)
  have hboth : ((Batch.ofCalls twins .empty).follow tenSeconds [0, 1, 0, 1, 0, 1]).ToldNew 0 ∧
      ((Batch.ofCalls twins .empty).follow tenSeconds [0, 1, 0, 1, 0, 1]).ToldNew 1 := by
    decide +kernel
  exact absurd (h tenSeconds _ "PGEvPg==" twins _ hp resubmissions_twins (by decide) 0 1 hboth.1
    hboth.2) (by decide)

end Pipeline
end TradeIntake
