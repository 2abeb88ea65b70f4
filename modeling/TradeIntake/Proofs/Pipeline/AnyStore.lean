import TradeIntake.Proofs.Batch.Alone

/-!
# What the store cannot change

A message is inspected before the store is asked, and what the store replies goes into the duplicate
check and nowhere else. So two runs of one message over different stores tell the same result, but
for what belongs to the call (its processing id, which is also in the links, and its times, which
are also in the errors) and for the check. The check in turn tells what the store replied.

* **`process_eq_retold`**: one message over any two stores, in any states, at any times.
* **`reflects_check`**: which replies leave a note, and which make a duplicate.
* **`store_changes_check_only`**: both together, for messages alone and in batches.
-/

namespace TradeIntake

/-! ## Retelling -/

/-- The result as it would be told of that call, with that duplicate check. -/
def Result.retold (r : Result) (call : Call) (check? : Option DuplicateCheck) : Result :=
  { r with
    processingId := call.processingId
    links := .ofProcessingId call.processingId
    receivedAt := call.clock.received
    processedAt := call.clock.processed
    errors := r.errors.map fun e => { e with timestamp := call.clock.processed }
    duplicateCheck? := check? }

/-- The processed message as it would be told of that call, with that duplicate check. -/
def Processed.retold (x : Processed) (call : Call) (check? : Option DuplicateCheck) : Processed :=
  { x with result := x.result.retold call check? }

/-- **A result is told of its call and its check**: of another call and with another check, the same
inspection tells the same. -/
theorem InFlight.result_eq_retold (m : Message) (call call' : Call) (i : Inspection)
    (check? check'? : Option DuplicateCheck) :
    let r := (⟨m, call, i, check?⟩ : InFlight).result
    r = (⟨m, call', i, check'?⟩ : InFlight).result.retold call r.duplicateCheck? := by
  obtain ⟨fp, len, examined⟩ := i
  cases examined with
  | error failure => rfl
  | ok x =>
    obtain ⟨report, extraction⟩ := x
    simp only [result, outcome, Result.assemble, Result.ofChecked]
    split
    · rfl
    · rcases extraction with _ | failure | data <;> rfl

/-! ## What a check reflects -/

/-- What the store replies to a check; nothing when checks are switched off. -/
def DuplicateChecker.reply? {σ : Type} (c : DuplicateChecker σ) (messageId fingerprint : String)
    (lookedUpAt : Timestamp) (st : σ) : Option (Reply (Option Submission)) :=
  if c.settings.enabled then
    some (c.store.find c.settings.lookupTimeoutMs
      ⟨messageId, fingerprint, windowStart lookedUpAt c.settings.windowSecs⟩ st).1
  else none

/-- **A check reflects a reply**: there is a note when the lookup was switched off, failed, or was
not answered in time, and then the message is no duplicate; it is one when there is an original, and
the original is what was found. -/
structure DuplicateCheck.Reflects (c : DuplicateCheck)
    (reply? : Option (Reply (Option Submission))) : Prop where
  isDuplicate_iff : c.isDuplicate = true ↔ c.originalMessageId?.isSome
  note_iff : c.note?.isSome ↔
    reply? = none ∨ (∃ failure, reply? = some (.failed failure)) ∨ reply? = some .noAnswer
  fresh_of_note : c.note?.isSome → c.isDuplicate = false
  original_iff : ∀ id, c.originalMessageId? = some id ↔
    ∃ s, reply? = some (.answered (some s)) ∧ s.messageId = id

namespace DuplicateCheck

theorem reflects_found (checkedAt : Timestamp) (earlier? : Option Submission) :
    (found checkedAt earlier?).Reflects (some (.answered earlier?)) where
  isDuplicate_iff := by cases earlier? <;> simp [found]
  note_iff := by simp [found]
  fresh_of_note h := by simp [found] at h
  original_iff id := by cases earlier? <;> simp [found]

theorem reflects_degraded (checkedAt : Timestamp) (note : String)
    {reply? : Option (Reply (Option Submission))}
    (h : reply? = none ∨ (∃ failure, reply? = some (.failed failure)) ∨ reply? = some .noAnswer) :
    (degraded checkedAt note).Reflects reply? where
  isDuplicate_iff := by simp [degraded, found]
  note_iff := by simpa [degraded] using h
  fresh_of_note _ := rfl
  original_iff id := by rcases h with rfl | ⟨failure, rfl⟩ | rfl <;> simp [degraded, found]

end DuplicateCheck

/-- **Every check reflects what the store replied.** -/
theorem DuplicateChecker.reflects_check {σ : Type} (c : DuplicateChecker σ)
    (messageId fingerprint : String) (lookedUpAt checkedAt : Timestamp) (st : σ) :
    (c.check messageId fingerprint lookedUpAt checkedAt st).1.Reflects
      (c.reply? messageId fingerprint lookedUpAt st) := by
  unfold check reply?
  split
  · dsimp only
    cases (c.store.find _ _ st).1 with
    | answered earlier? => exact DuplicateCheck.reflects_found ..
    | failed failure => exact DuplicateCheck.reflects_degraded _ _ (Or.inr (Or.inl ⟨failure, rfl⟩))
    | noAnswer => exact DuplicateCheck.reflects_degraded _ _ (Or.inr (Or.inr rfl))
  · exact DuplicateCheck.reflects_degraded _ _ (Or.inl rfl)

namespace Pipeline

variable {σ τ : Type}

/-! ## One message -/

/-- **One message over any two stores**: the result is the same, told of its own call and with its
own check. -/
theorem process_eq_retold (settings : PipelineSettings) (s : Store σ) (t : Store τ) (m : Message)
    (call call' : Call) (st : σ) (st' : τ) :
    let out := ((⟨settings, s⟩ : Pipeline σ).process m call st).1.1
    out = ((⟨settings, t⟩ : Pipeline τ).process m call' st').1.1.retold call
      out.result.duplicateCheck? := by
  intro out
  simp only [out, fst_process, lookUp_receive]
  unfold InFlight.processed Processed.retold
  rw [← InFlight.result_eq_retold]

/-- The check that a sender is told of reflects what the store replied about the content. -/
theorem reflects_process (p : Pipeline σ) {m : Message} {call : Call} {st : σ} {c : DuplicateCheck}
    (h : (p.process m call st).1.1.result.duplicateCheck? = some c) :
    ∃ fp, (p.process m call st).1.1.fingerprint? = some fp ∧
      c.Reflects (p.checker.reply? m.messageId fp call.clock.lookedUp st) := by
  rw [duplicateCheck?_process] at h
  obtain ⟨fp, hfp, rfl⟩ := Option.map_eq_some_iff.mp h
  exact ⟨fp, p.fingerprint?_process_of_checked m call st hfp,
    p.checker.reflects_check m.messageId fp call.clock.lookedUp call.clock.checked st⟩

/-! ## Messages alone and in batches -/

/-- The message comes to that output also alone, whenever that store is asked and in whatever state
it is then: the output differs in what belongs to the call and in the check only. -/
def ToldAlone (settings : PipelineSettings) (t : Store τ) (m : Message) (call : Call)
    (out : Processed) : Prop :=
  ∀ call' st', out = ((⟨settings, t⟩ : Pipeline τ).process m call' st').1.1.retold call
    out.result.duplicateCheck?

theorem toldAlone_process (settings : PipelineSettings) (s : Store σ) (t : Store τ) (m : Message)
    (call : Call) (st : σ) :
    ToldAlone settings t m call ((⟨settings, s⟩ : Pipeline σ).process m call st).1.1 :=
  fun call' st' => process_eq_retold settings s t m call call' st st'

/-- **The store changes nothing but the duplicate check.** The output for a message is the one that
it has over any other store, but for the call and the check. A check reflects what the store
replied. The steps of a batch may be taken in any order, and its width may be any: what comes of a
message is what comes of it alone, and the answers are in the order of the messages. -/
theorem store_changes_check_only (settings : PipelineSettings) (s : Store σ) (t : Store τ) :
    let p : Pipeline σ := ⟨settings, s⟩
    (∀ m call st, ToldAlone settings t m call (p.process m call st).1.1) ∧
    (∀ m call st c, (p.process m call st).1.1.result.duplicateCheck? = some c →
      ∃ fp, (p.process m call st).1.1.fingerprint? = some fp ∧
        c.Reflects (p.checker.reply? m.messageId fp call.clock.lookedUp st)) ∧
    (∀ calls st order (i : Nat) out,
      ((Batch.ofCalls calls st).follow p order).outputs[i]? = some (some out) →
        ∃ m call st', calls[i]? = some (m, call) ∧ out = (p.process m call st').1.1 ∧
          ToldAlone settings t m call out) ∧
    ∀ calls st, (p.processBatch calls st).1.1.length = calls.length ∧
      ∀ (i : Nat) m call, calls[i]? = some (m, call) →
        ∃ out st', (p.processBatch calls st).1.1[i]? = some out ∧
          out = (p.process m call st').1.1 ∧ ToldAlone settings t m call out := by
  intro p
  refine ⟨fun m call st => toldAlone_process settings s t m call st,
    fun m call st c => p.reflects_process, fun calls st order i out ho => ?_,
    fun calls st => ⟨p.length_processBatch calls st, fun i m call h => ?_⟩⟩
  · have halone := Batch.alone_follow (p := p) (Batch.alone_ofCalls calls st) order
    obtain ⟨m, call, st', hc, rfl⟩ := halone.of_getElem?_outputs ho
    exact ⟨m, call, st', hc, rfl, toldAlone_process settings s t m call st'⟩
  · obtain ⟨st', hout⟩ := p.getElem?_processBatch h st
    exact ⟨_, st', hout, rfl, toldAlone_process settings s t m call st'⟩

end Pipeline
end TradeIntake
