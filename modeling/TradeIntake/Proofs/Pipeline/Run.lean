import TradeIntake.Proofs.Pipeline.Outcome
import TradeIntake.Proofs.Store.Contract

/-!
# Runs over the store in memory

A run processes messages one after another. Over a store that remembers in memory and answers in
time, a turn asks for the earliest submission in its window and leaves its own behind, if it was
checked and found to be no duplicate (`Pipeline.sighting?`).

* **`stateAfter_eq`**: after a run the store has remembered the submissions of its turns, in order.
* **`duplicateCheck?_turn`**: the verdict of a turn is what a lookup finds among them.
-/

namespace TradeIntake

/-- One message of a run, with what became of it. -/
structure Turn where
  message : Message
  call : Call
  output : Processed

/-- The message is told to be a duplicate. -/
def Turn.isDuplicate (t : Turn) : Bool := t.output.result.isDuplicate

/-- The original of a duplicate, as its sender is told of it. -/
def Turn.originalMessageId? (t : Turn) : Option String :=
  t.output.result.duplicateCheck?.bind (·.originalMessageId?)

namespace Pipeline

section Run

variable {σ : Type} (p : Pipeline σ)

/-- The turn of a message. -/
def turn (c : Message × Call) (st : σ) : Turn :=
  ⟨c.1, c.2, (p.process c.1 c.2 st).1.1⟩

/-- The state of the store after a run. -/
def stateAfter (calls : List (Message × Call)) (st : σ) : σ :=
  (p.processAll calls st).2

/-- The turns of a run. -/
def turns (calls : List (Message × Call)) (st : σ) : List Turn :=
  List.zipWith (fun c out => ⟨c.1, c.2, out.1⟩) calls (p.processAll calls st).1

variable (c : Message × Call) (calls : List (Message × Call)) (st : σ)

theorem turns_cons :
    p.turns (c :: calls) st = p.turn c st :: p.turns calls (p.process c.1 c.2 st).2 := rfl

theorem stateAfter_concat :
    p.stateAfter (calls ++ [c]) st = (p.process c.1 c.2 (p.stateAfter calls st)).2 := by
  induction calls generalizing st with
  | nil => rfl
  | cons d calls ih => exact ih _

theorem turns_concat :
    p.turns (calls ++ [c]) st = p.turns calls st ++ [p.turn c (p.stateAfter calls st)] := by
  induction calls generalizing st with
  | nil => rfl
  | cons d calls ih => exact congrArg _ (ih _)

/-- Each turn meets the state that the turns before it left. -/
theorem exists_of_turns_eq {before after : List Turn} {t : Turn}
    (h : p.turns calls st = before ++ t :: after) :
    ∃ earlier c later, calls = earlier ++ c :: later ∧ p.turns earlier st = before ∧
      t = p.turn c (p.stateAfter earlier st) := by
  induction before generalizing calls st with
  | nil =>
    cases calls with
    | nil => cases h
    | cons c calls => exact ⟨[], c, calls, rfl, rfl, (List.cons.inj h).1.symm⟩
  | cons b before ih =>
    cases calls with
    | nil => cases h
    | cons c calls =>
      rw [turns_cons] at h
      obtain ⟨hb, h⟩ := List.cons.inj h
      obtain ⟨earlier, d, later, rfl, hbefore, ht⟩ := ih _ _ h
      exact ⟨c :: earlier, d, later, rfl, by rw [turns_cons, hb, hbefore], ht⟩

theorem exists_of_mem_turns {t : Turn} (h : t ∈ p.turns calls st) :
    ∃ c ∈ calls, ∃ st', t = p.turn c st' := by
  obtain ⟨before, after, h⟩ := List.append_of_mem h
  obtain ⟨earlier, c, later, rfl, -, rfl⟩ := p.exists_of_turns_eq _ _ h
  exact ⟨c, by simp, _, rfl⟩

end Run

/-! ## What a turn asks for and leaves -/

variable (p : Pipeline Memory)

/-- Duplicates are looked for, and the store remembers in memory and answers in time. -/
structure RemembersInMemory : Prop where
  enabled : p.settings.dedup.enabled = true
  find : ∀ q m, p.store.find p.settings.dedup.lookupTimeoutMs q m = (.answered (m.find? q), m)
  remember : ∀ s m,
    p.store.remember p.settings.dedup.lookupTimeoutMs s m = (.answered (), m.remember s)

theorem remembersInMemory_of_memory {p : Pipeline Memory} (he : p.settings.dedup.enabled = true)
    (hs : p.store = Store.memory) : p.RemembersInMemory where
  enabled := he
  find q m := by rw [hs]; rfl
  remember s m := by rw [hs]; rfl

/-- A store in memory answers in time unless it is delayed for longer than is waited for it. -/
theorem remembersInMemory_of_delayed {p : Pipeline Memory} {ms : Nat}
    (he : p.settings.dedup.enabled = true) (hs : p.store = Store.memory.delayed ms)
    (hms : ms ≤ p.settings.dedup.lookupTimeoutMs) : p.RemembersInMemory where
  enabled := he
  find q m := by rw [hs, Store.find_delayed, if_neg (Nat.not_lt.mpr hms)]; rfl
  remember s m := by rw [hs, Store.remember_delayed, if_neg (Nat.not_lt.mpr hms)]; rfl

/-- The start of the window of a turn that asks at that time. -/
def since (now : Timestamp) : Timestamp :=
  windowStart now p.settings.dedup.windowSecs

/-- What a turn asks the store for, if it does. -/
def lookup? (m : Message) (call : Call) : Option Lookup :=
  (m.checkable? p.settings.ingest).map fun fp => ⟨m.messageId, fp, p.since call.clock.lookedUp⟩

/-- What a turn has the store remember, if it does: it was checked and is no duplicate. -/
def sighting? (t : Turn) : Option Sighting :=
  if t.isDuplicate then none
  else (t.message.checkable? p.settings.ingest).map fun fp =>
    ⟨⟨t.message.messageId, fp, t.call.clock.received⟩, p.since t.call.clock.recorded⟩

variable {p} (hp : p.RemembersInMemory)
include hp

theorem RemembersInMemory.check_eq (id fp : String) (lookedUp checked : Timestamp) (m : Memory) :
    p.checker.check id fp lookedUp checked m =
      (.found checked (m.find? ⟨id, fp, p.since lookedUp⟩), m) := by
  unfold DuplicateChecker.check
  rw [if_pos (show p.checker.settings.enabled = true from hp.enabled)]
  change (p.checker.conclude checked (p.store.find _ ⟨id, fp, p.since lookedUp⟩ m).1,
    (p.store.find _ ⟨id, fp, p.since lookedUp⟩ m).2) = _
  rw [show p.checker.settings = p.settings.dedup from rfl, hp.find]
  rfl

theorem RemembersInMemory.remember_eq (s : Submission) (recorded : Timestamp) (m : Memory) :
    p.checker.remember s recorded m = m.remember ⟨s, p.since recorded⟩ := by
  unfold DuplicateChecker.remember
  rw [if_pos (show p.checker.settings.enabled = true from hp.enabled)]
  change (p.store.remember p.settings.dedup.lookupTimeoutMs ⟨s, p.since recorded⟩ m).2 = _
  rw [hp.remember]

/-- **The verdict of a turn** is what its lookup finds. -/
theorem duplicateCheck?_turn (c : Message × Call) (m : Memory) :
    (p.turn c m).output.result.duplicateCheck? =
      (p.lookup? c.1 c.2).map fun q => .found c.2.clock.checked (m.find? q) := by
  unfold turn
  rw [duplicateCheck?_process, check?, lookup?, Option.map_map]
  congr 1
  funext fp
  rw [hp.check_eq]
  rfl

theorem isDuplicate_turn (c : Message × Call) (m : Memory) :
    (p.turn c m).isDuplicate = true ↔ ∃ q, p.lookup? c.1 c.2 = some q ∧ (m.find? q).isSome := by
  unfold Turn.isDuplicate Result.isDuplicate
  rw [duplicateCheck?_turn hp]
  cases p.lookup? c.1 c.2 with
  | none => simp
  | some q => simp [DuplicateCheck.found]

theorem originalMessageId?_turn (c : Message × Call) (m : Memory) (id : String) :
    (p.turn c m).originalMessageId? = some id ↔
      ∃ q s, p.lookup? c.1 c.2 = some q ∧ m.find? q = some s ∧ s.messageId = id := by
  unfold Turn.originalMessageId?
  rw [duplicateCheck?_turn hp]
  cases p.lookup? c.1 c.2 with
  | none => simp
  | some q => simp [DuplicateCheck.found]

/-- **What a turn leaves**: the store has remembered its submission, if there is one. -/
theorem snd_process (c : Message × Call) (m : Memory) :
    (p.process c.1 c.2 m).2 = ((p.sighting? (p.turn c m)).map m.remember).getD m := by
  have hmessage : (p.turn c m).message = c.1 := rfl
  have hcall : (p.turn c m).call = c.2 := rfl
  unfold sighting?
  rw [hmessage, hcall]
  cases h : c.1.checkable? p.settings.ingest with
  | none =>
    rw [snd_process_of_unchecked p c.1 c.2 m h]
    cases (p.turn c m).isDuplicate <;> rfl
  | some fp =>
    have hdup : (p.turn c m).isDuplicate =
        (m.find? ⟨c.1.messageId, fp, p.since c.2.clock.lookedUp⟩).isSome := by
      unfold Turn.isDuplicate Result.isDuplicate
      rw [duplicateCheck?_turn hp, lookup?, h]
      rfl
    rw [snd_process_of_checked p c.1 c.2 m h, hp.check_eq, hp.remember_eq, hdup]
    dsimp only [DuplicateCheck.found]
    split <;> rename_i hf <;> simp [hf]

/-- **What a run leaves**: the store has remembered the submissions of its turns, in order. -/
theorem stateAfter_eq (calls : List (Message × Call)) :
    p.stateAfter calls .empty =
      Memory.ofSightings ((p.turns calls .empty).filterMap p.sighting?) := by
  induction calls using List.reverseRecOn with
  | nil => rfl
  | append_singleton calls c ih =>
    rw [stateAfter_concat, turns_concat, List.filterMap_append, snd_process hp, ih]
    cases h : p.sighting? (p.turn c (Memory.ofSightings _)) with
    | none => simp [h]
    | some x => simp [h]

end Pipeline
end TradeIntake
