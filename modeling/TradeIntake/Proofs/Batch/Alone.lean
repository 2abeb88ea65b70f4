import TradeIntake.Batch
import TradeIntake.Proofs.Pipeline.Outcome

/-!
# Each message of a batch as if alone

A step of a batch is a step of one message. It changes nothing about the other messages, and all
that a message takes from outside is the state of the store. So whatever the order of the steps, a
message comes to a result that it has when it is processed alone, over some state of the store.

* **`alone_follow`**: after any steps in any order, every message is where it would be alone.
* **`getElem?_processBatch`**: what a batch answers, message by message.
-/

namespace TradeIntake

variable {σ : Type} {p : Pipeline σ}

/-- A message gets to that stage alone, when its lookup meets some state of the store. -/
def Stage.Alone (p : Pipeline σ) (m : Message) (call : Call) : Stage → Prop
  | .waiting => True
  | .received x => x = (p.receive m call).1
  | .lookedUp x => ∃ st, x = (p.lookUp (p.receive m call).1 st).1.1
  | .finished out => ∃ st, out = (p.process m call st).1.1

theorem Stage.alone_next {m : Message} {call : Call} {s : Stage} (h : s.Alone p m call) (st : σ) :
    (s.next p m call st).1.1.Alone p m call := by
  cases s with
  | waiting =>
    simp only [next]
    split
    · rfl
    · rename_i hw
      refine ⟨st, ?_⟩
      rw [p.fst_process, p.lookUp_unwanted (Option.not_isSome_iff_eq_none.mp hw)]
  | received x =>
    obtain rfl : x = (p.receive m call).1 := h
    simp only [next]
    split
    · exact ⟨st, rfl⟩
    · exact ⟨st, (p.fst_process m call st).symm⟩
  | lookedUp x =>
    obtain ⟨st', rfl⟩ := h
    exact ⟨st', (p.fst_complete st _).trans (p.fst_process m call st').symm⟩
  | finished out => exact h

namespace Batch

/-- Every message of the batch is where it would be alone. -/
structure Alone (p : Pipeline σ) (calls : List (Message × Call)) (b : Batch σ) : Prop where
  calls : b.items.map (fun item => (item.message, item.call)) = calls
  stages : ∀ item ∈ b.items, item.stage.Alone p item.message item.call

variable {calls : List (Message × Call)} {b : Batch σ}

theorem alone_ofCalls (calls : List (Message × Call)) (st : σ) :
    (ofCalls calls st).Alone p calls where
  calls := by
    rw [ofCalls, List.map_map]
    exact List.map_id _
  stages := by
    intro item hm
    obtain ⟨c, -, rfl⟩ := List.mem_map.mp hm
    trivial

/-- **A step of one message leaves the others as they are.** -/
theorem alone_advance (h : b.Alone p calls) (i : Nat) : (b.advance p i).Alone p calls := by
  unfold advance
  split
  · exact h
  · rename_i item hi
    obtain ⟨hl, rfl⟩ := List.getElem?_eq_some_iff.mp hi
    constructor
    · rw [List.map_set, ← h.calls]
      refine Eq.trans ?_ (List.set_getElem_self (i := i) (by rwa [List.length_map]))
      rw [List.getElem_map]
    · intro x hx
      rcases List.mem_or_eq_of_mem_set hx with hx | rfl
      · exact h.stages x hx
      · exact Stage.alone_next (h.stages _ (List.getElem_mem hl)) b.state

/-- **After any steps in any order**, every message is where it would be alone. -/
theorem alone_follow (h : b.Alone p calls) (order : List Nat) :
    (b.follow p order).Alone p calls := by
  induction order generalizing b with
  | nil => exact h
  | cons i order ih => exact ih (alone_advance h i)

/-- What came of a message is what comes of it alone, over some state of the store. -/
theorem Alone.of_getElem?_outputs (h : b.Alone p calls) {i : Nat} {out : Processed}
    (ho : b.outputs[i]? = some (some out)) :
    ∃ m call st, calls[i]? = some (m, call) ∧ out = (p.process m call st).1.1 := by
  rw [outputs, List.getElem?_map] at ho
  obtain ⟨item, hi, ho⟩ := Option.map_eq_some_iff.mp ho
  have hs := h.stages item (List.mem_of_getElem? hi)
  have hc : calls[i]? = some (item.message, item.call) := by
    rw [← h.calls, List.getElem?_map, hi]
    rfl
  cases hstage : item.stage with
  | finished out' =>
    rw [hstage] at ho hs
    obtain rfl := Option.some.inj ho
    obtain ⟨st, hst⟩ := hs
    exact ⟨item.message, item.call, st, hc, hst⟩
  | waiting | received _ | lookedUp _ =>
    rw [hstage] at ho
    cases ho

end Batch

/-- **What a batch answers** for a message is what comes of it alone, over some state of the
store. -/
theorem Pipeline.getElem?_processBatch {calls : List (Message × Call)} {i : Nat} {m : Message}
    {call : Call} (h : calls[i]? = some (m, call)) (st : σ) :
    ∃ st', (p.processBatch calls st).1.1[i]? = some (p.process m call st').1.1 := by
  have hl : i < (p.processBatch calls st).1.1.length := by
    rw [p.length_processBatch]
    exact (List.getElem?_eq_some_iff.mp h).1
  obtain ⟨order, ho⟩ := Batch.exists_follow_eq_run p (3 * calls.length) (.ofCalls calls st)
  have halone := Batch.alone_follow (p := p) (Batch.alone_ofCalls calls st) order
  rw [ho] at halone
  obtain ⟨m', call', st', hc, hout⟩ := halone.of_getElem?_outputs (i := i) (by
    rw [p.outputs_processBatch, List.getElem?_map, List.getElem?_eq_getElem hl]
    rfl)
  obtain ⟨rfl, rfl⟩ := Prod.mk.inj (Option.some.inj (h.symm.trans hc))
  exact ⟨st', by rw [List.getElem?_eq_getElem hl, hout]⟩

end TradeIntake
