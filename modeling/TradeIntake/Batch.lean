import TradeIntake.Pipeline

/-!
# Batches

The messages of a batch are processed side by side. Each takes the steps of the pipeline in their
order, and between two steps of one message the others may take theirs. `Batch.advance` is one step
of one message, and a list of message numbers is an order of steps (`Batch.follow`).

The order that is taken is set by how long the store takes. A request takes effect when it is over.
Requests that are over at the same time take effect in the order of their messages. A message is
received once no request is over, all messages before it are received, and so few of them are
unfinished that it is within the width of the batch, counted from the first unfinished one.

Model of `process_batch` (`src/pipeline.rs`), which buffers up to `max_concurrency` calls of
`process`.

* **`exists_follow_eq_run`**: the order that is taken is one of the orders of steps.
* **`remaining_run`**: in the end every message is finished.
* **`length_processBatch`**: a batch answers every message.
-/

namespace TradeIntake

/-- How far a message has come. -/
inductive Stage where
  | waiting
  /-- Received, and the store is being asked about it. -/
  | received (x : InFlight)
  /-- Looked up, and the store is being told about it. -/
  | lookedUp (x : InFlight)
  | finished (out : Processed)

namespace Stage

/-- What came of a finished message. -/
def output? : Stage → Option Processed
  | .finished out => some out
  | _ => none

def isWaiting : Stage → Bool
  | .waiting => true
  | _ => false

/-- Does the message wait for the store? -/
def isPending : Stage → Bool
  | .received _ | .lookedUp _ => true
  | _ => false

/-- How many steps the message may still take. -/
def remaining : Stage → Nat
  | .waiting => 3
  | .received _ => 2
  | .lookedUp _ => 1
  | .finished _ => 0

variable {σ : Type}

/-- The next step of a message, with its events. A message that has nothing to ask of the store or
to tell it is finished. -/
def next (p : Pipeline σ) (m : Message) (call : Call) : Stage → σ → (Stage × List Event) × σ
  | .waiting, st =>
    let (x, events) := p.receive m call
    ((if x.wanted?.isSome then .received x else .finished x.processed, events), st)
  | .received x, st =>
    let ((x, events), st) := p.lookUp x st
    ((if x.submission?.isSome then .lookedUp x else .finished x.processed, events), st)
  | .lookedUp x, st =>
    let (out, st) := p.complete x st
    ((.finished out, []), st)
  | .finished out, st => ((.finished out, []), st)

theorem remaining_eq_zero {s : Stage} : s.remaining = 0 ↔ s.output?.isSome := by
  cases s <;> simp [remaining, output?]

theorem remaining_next (p : Pipeline σ) (m : Message) (call : Call) (s : Stage) (st : σ) :
    (s.next p m call st).1.1.remaining ≤ s.remaining - 1 := by
  cases s with
  | waiting =>
    simp only [next]
    split <;> simp [remaining]
  | received x =>
    simp only [next]
    split <;> simp [remaining]
  | lookedUp x => simp [next, remaining]
  | finished out => simp [next, remaining]

end Stage

/-- A message of a batch. -/
structure BatchItem where
  message : Message
  call : Call
  stage : Stage := .waiting
  /-- When its request to the store is over, in milliseconds from the start of the batch. -/
  due : Nat := 0

/-- A batch over a store with states of type `σ`. -/
structure Batch (σ : Type) where
  items : List BatchItem
  /-- What the stages left so far. -/
  events : List Event := []
  state : σ
  /-- Milliseconds from the start of the batch. -/
  now : Nat := 0

namespace Batch

variable {σ : Type}

/-- A batch of which no message has been received. -/
def ofCalls (calls : List (Message × Call)) (st : σ) : Batch σ where
  items := calls.map fun c => { message := c.1, call := c.2 }
  state := st

/-- What came of the messages so far. -/
def outputs (b : Batch σ) : List (Option Processed) :=
  b.items.map (·.stage.output?)

/-- How many steps may still be taken. -/
def remaining (b : Batch σ) : Nat :=
  (b.items.map (·.stage.remaining)).foldr (· + ·) 0

/-- Message number `i` takes its next step. -/
def advance (p : Pipeline σ) (i : Nat) (b : Batch σ) : Batch σ :=
  match b.items[i]? with
  | none => b
  | some item =>
    let now := max b.now item.due
    let ((stage, events), st) := item.stage.next p item.message item.call b.state
    { items := b.items.set i { item with stage := stage, due := now + p.checker.pause }
      events := b.events ++ events
      state := st
      now := now }

/-- Messages take their steps in this order. -/
def follow (p : Pipeline σ) (order : List Nat) (b : Batch σ) : Batch σ :=
  order.foldl (fun b i => b.advance p i) b

/-- The pending message whose request is over first, with its number. -/
def soonest? (b : Batch σ) : Option (BatchItem × Nat) :=
  (b.items.zipIdx.filter (·.1.stage.isPending)).minOn? (·.1.due)

/-- The first message that waits, if it is within the width. -/
def nextWaiting? (width : Nat) (b : Batch σ) : Option Nat :=
  match b.items.findIdx? (·.stage.isWaiting), b.items.findIdx? (·.stage.output?.isNone) with
  | some i, some first => if i < first + width then some i else none
  | _, _ => none

/-- The message whose turn it is. -/
def next? (width : Nat) (b : Batch σ) : Option Nat :=
  match b.soonest?, b.nextWaiting? width with
  | some (item, i), some j => some (if item.due ≤ b.now then i else j)
  | some (_, i), none => some i
  | none, j? => j?

/-- Take up to `fuel` steps, each message in its turn. -/
def run (p : Pipeline σ) : Nat → Batch σ → Batch σ
  | 0, b => b
  | fuel + 1, b =>
    match b.next? (max 1 p.settings.maxConcurrency) with
    | some i => run p fuel (b.advance p i)
    | none => b

theorem exists_follow_eq_run (p : Pipeline σ) (fuel : Nat) (b : Batch σ) :
    ∃ order, b.follow p order = run p fuel b := by
  fun_induction run p fuel b with
  | case1 b => exact ⟨[], rfl⟩
  | case2 fuel b i h ih =>
    obtain ⟨order, ho⟩ := ih
    exact ⟨i :: order, ho⟩
  | case3 fuel b h => exact ⟨[], rfl⟩

/-! ## Every message is finished in the end -/

theorem length_advance (p : Pipeline σ) (i : Nat) (b : Batch σ) :
    (b.advance p i).items.length = b.items.length := by
  unfold advance
  split <;> simp

theorem length_run (p : Pipeline σ) (fuel : Nat) (b : Batch σ) :
    (run p fuel b).items.length = b.items.length := by
  fun_induction run p fuel b with
  | case1 => rfl
  | case2 fuel b i h ih => rw [ih, length_advance]
  | case3 => rfl

theorem foldr_map_set_lt {α : Type} (f : α → Nat) (y : α) : ∀ {xs : List α} {i : Nat} {x : α},
    xs[i]? = some x → f y < f x →
      ((xs.set i y).map f).foldr (· + ·) 0 < (xs.map f).foldr (· + ·) 0
  | [], _, _, h, _ => by simp at h
  | x :: xs, 0, _, h, hlt => by
    obtain rfl : x = _ := by simpa using h
    simpa using hlt
  | x :: xs, i + 1, _, h, hlt => by
    have := foldr_map_set_lt f y (by simpa using h : xs[i]? = some _) hlt
    simpa using this

theorem remaining_advance (p : Pipeline σ) {i : Nat} {b : Batch σ} {item : BatchItem}
    (hi : b.items[i]? = some item) (h : 0 < item.stage.remaining) :
    (b.advance p i).remaining < b.remaining := by
  unfold advance remaining
  rw [hi]
  refine foldr_map_set_lt _ _ hi ?_
  have := item.stage.remaining_next p item.message item.call b.state
  exact Nat.lt_of_le_of_lt this (by omega)

theorem remaining_of_soonest? {b : Batch σ} {item : BatchItem} {i : Nat}
    (h : b.soonest? = some (item, i)) : b.items[i]? = some item ∧ 0 < item.stage.remaining := by
  have hm := List.minOn?_mem h
  obtain ⟨hz, hp⟩ := List.mem_filter.1 hm
  refine ⟨List.mem_zipIdx_iff_getElem?.1 hz, ?_⟩
  revert hp
  cases item.stage <;> simp [Stage.isPending, Stage.remaining]

theorem remaining_of_nextWaiting? {width : Nat} {b : Batch σ} {i : Nat}
    (h : b.nextWaiting? width = some i) :
    ∃ item, b.items[i]? = some item ∧ 0 < item.stage.remaining := by
  unfold nextWaiting? at h
  split at h
  · next j first hj _ =>
    split at h
    · obtain rfl : j = i := by simpa using h
      obtain ⟨hl, hw, _⟩ := List.findIdx?_eq_some_iff_getElem.1 hj
      refine ⟨_, List.getElem?_eq_getElem hl, ?_⟩
      revert hw
      cases b.items[j].stage <;> simp [Stage.isWaiting, Stage.remaining]
    · simp at h
  · simp at h

theorem remaining_of_next? {width : Nat} {b : Batch σ} {i : Nat} (h : b.next? width = some i) :
    ∃ item, b.items[i]? = some item ∧ 0 < item.stage.remaining := by
  unfold next? at h
  split at h
  · next hs hw =>
    obtain rfl := Option.some.inj h
    split
    · exact ⟨_, remaining_of_soonest? hs⟩
    · exact remaining_of_nextWaiting? hw
  · next hs _ =>
    obtain rfl := Option.some.inj h
    exact ⟨_, remaining_of_soonest? hs⟩
  · exact remaining_of_nextWaiting? h

theorem isWaiting_of_soonest?_eq_none {b : Batch σ} (h : b.soonest? = none) {item : BatchItem}
    (hm : item ∈ b.items) (ho : item.stage.output?.isNone) : item.stage.isWaiting := by
  obtain ⟨i, hi⟩ := List.mem_iff_getElem?.1 hm
  have hz : (item, i) ∈ b.items.zipIdx := List.mem_zipIdx_iff_getElem?.2 hi
  have hp : b.items.zipIdx.filter (·.1.stage.isPending) = [] := by
    have hn : ¬ b.soonest?.isSome := by simp [h]
    simpa only [soonest?, List.isSome_minOn?_iff, Decidable.not_not] using hn
  have := List.filter_eq_nil_iff.1 hp _ hz
  revert this ho
  cases item.stage <;> simp [Stage.isPending, Stage.isWaiting, Stage.output?]

theorem nextWaiting?_ne_none {width : Nat} {b : Batch σ} (hw : 0 < width) (h : 0 < b.remaining)
    (hs : b.soonest? = none) : b.nextWaiting? width ≠ none := by
  obtain ⟨r, hr, hpos⟩ := List.sum_pos_iff_exists_pos_nat.1 h
  obtain ⟨item, hm, rfl⟩ := List.mem_map.1 hr
  have hunfinished : ∀ item : BatchItem, item.stage.output?.isNone ↔ 0 < item.stage.remaining := by
    intro item
    cases item.stage <;> simp [Stage.output?, Stage.remaining]
  obtain ⟨first, hfirst⟩ : ∃ i, b.items.findIdx? (·.stage.output?.isNone) = some i := by
    refine Option.isSome_iff_exists.1 ?_
    rw [List.findIdx?_isSome, List.any_eq_true]
    exact ⟨item, hm, (hunfinished item).2 hpos⟩
  obtain ⟨hl, ho, _⟩ := List.findIdx?_eq_some_iff_getElem.1 hfirst
  have hwait := isWaiting_of_soonest?_eq_none hs (List.getElem_mem hl) ho
  obtain ⟨i, hi⟩ : ∃ i, b.items.findIdx? (·.stage.isWaiting) = some i := by
    refine Option.isSome_iff_exists.1 ?_
    rw [List.findIdx?_isSome, List.any_eq_true]
    exact ⟨_, List.getElem_mem hl, hwait⟩
  have hle : i ≤ first := by
    obtain ⟨_, _, hmin⟩ := List.findIdx?_eq_some_iff_getElem.1 hi
    exact Nat.le_of_not_lt fun hlt => hmin first hlt hwait
  unfold nextWaiting?
  simp only [hi, hfirst]
  rw [if_pos (by omega)]
  simp

theorem next?_ne_none {width : Nat} {b : Batch σ} (hw : 0 < width) (h : 0 < b.remaining) :
    b.next? width ≠ none := by
  cases hs : b.soonest? with
  | some x =>
    unfold next?
    rw [hs]
    split <;> simp_all
  | none =>
    unfold next?
    rw [hs]
    exact nextWaiting?_ne_none hw h hs

/-- With fuel enough, no message is left unfinished. -/
theorem remaining_run (p : Pipeline σ) (fuel : Nat) (b : Batch σ) (h : b.remaining ≤ fuel) :
    (run p fuel b).remaining = 0 := by
  fun_induction run p fuel b with
  | case1 b => omega
  | case2 fuel b i hn ih =>
    obtain ⟨item, hi, hr⟩ := remaining_of_next? hn
    have := remaining_advance p hi hr
    exact ih (by omega)
  | case3 fuel b hn =>
    exact Nat.eq_zero_of_not_pos fun hr => next?_ne_none (by omega) hr hn

theorem remaining_ofCalls (calls : List (Message × Call)) (st : σ) :
    (ofCalls calls st).remaining = 3 * calls.length := by
  simp only [ofCalls, remaining]
  induction calls with
  | nil => rfl
  | cons c calls ih =>
    simp only [List.map_cons, List.foldr_cons, Stage.remaining, List.length_cons] at ih ⊢
    omega

theorem isSome_of_mem_outputs {b : Batch σ} (h : b.remaining = 0) :
    ∀ o ∈ b.outputs, o.isSome := by
  change List.sum _ = 0 at h
  simpa [outputs, List.sum_eq_zero_iff_forall_eq_nat, Stage.remaining_eq_zero] using h

end Batch

namespace Pipeline

variable {σ : Type}

/-- Process the messages of a batch, with the events that the stages left. A message takes at most
three steps. -/
def processBatch (p : Pipeline σ) (calls : List (Message × Call)) (st : σ) :
    (List Processed × List Event) × σ :=
  let b := Batch.run p (3 * calls.length) (.ofCalls calls st)
  ((b.outputs.filterMap id, b.events), b.state)

/-- **A batch answers its messages in their order.** -/
theorem outputs_processBatch (p : Pipeline σ) (calls : List (Message × Call)) (st : σ) :
    (Batch.run p (3 * calls.length) (.ofCalls calls st)).outputs =
      (p.processBatch calls st).1.1.map some := by
  have hdone := Batch.remaining_run p (3 * calls.length) (.ofCalls calls st)
    (Nat.le_of_eq (Batch.remaining_ofCalls calls st))
  have hsome := Batch.isSome_of_mem_outputs hdone
  change _ = (List.filterMap id _).map some
  rw [List.map_filterMap_some_eq_filter_map_isSome, List.map_id, List.filter_eq_self.mpr hsome]

theorem length_processBatch (p : Pipeline σ) (calls : List (Message × Call)) (st : σ) :
    (p.processBatch calls st).1.1.length = calls.length := by
  have h := congrArg List.length (outputs_processBatch p calls st)
  rw [List.length_map, Batch.outputs, List.length_map, Batch.length_run] at h
  rw [← h, Batch.ofCalls, List.length_map]

end Pipeline
end TradeIntake
