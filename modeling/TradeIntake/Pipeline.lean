import TradeIntake.Assembly
import TradeIntake.Inspection

/-!
# The pipeline

Processing a message takes three steps, between which other messages may take theirs. `receive`
inspects it. `lookUp` asks the store whether it is a duplicate, unless its document cannot be had or
the sender does not want the check. `complete` has it remembered, when it was checked, processed,
and is no duplicate.

Model of `Pipeline` with `process` (`src/pipeline.rs`), whose `process_with_id` is cut into steps
where it waits for the store.

* **`process_eq`**: processing a message alone takes its three steps in a row.
* **`lookUp_unwanted`**: a message that goes unchecked passes the second step as it is.
-/

namespace TradeIntake

/-- When the clock is read while a message is processed. -/
structure Readings where
  received : Timestamp
  lookedUp : Timestamp
  checked : Timestamp
  processed : Timestamp
  recorded : Timestamp
  deriving Repr, DecidableEq

/-- One call for one message: what comes from outside besides the message. -/
structure Call where
  processingId : String
  clock : Readings
  deriving Repr, DecidableEq

/-- A processed message. -/
structure Processed where
  result : Result
  /-- The fingerprint of the decoded content, if it could be decoded. -/
  fingerprint? : Option String
  /-- The size of the decoded content, if it could be decoded. -/
  decodedLength? : Option Nat

/-- A pipeline over a store with states of type `σ`. -/
structure Pipeline (σ : Type) where
  settings : PipelineSettings
  store : Store σ

/-- A message that has been received. -/
structure InFlight where
  message : Message
  call : Call
  inspection : Inspection
  /-- The duplicate check, once it is made. -/
  duplicateCheck? : Option DuplicateCheck := none

namespace InFlight

/-- The fingerprint to ask the store about: none when the message failed or goes unchecked. -/
def wanted? (x : InFlight) : Option String :=
  match x.inspection.examined with
  | .ok _ => if x.message.flags.skipDuplicateCheck then none else x.inspection.fingerprint?
  | .error _ => none

/-- What the stages produced. -/
def outcome (x : InFlight) : Outcome :=
  match x.inspection.examined with
  | .ok e => .checked e.report e.extraction x.duplicateCheck?
  | .error failure => .failed failure

/-- The message's envelope. -/
def envelope (x : InFlight) : Envelope where
  messageId := x.message.messageId
  processingId := x.call.processingId
  receivedAt := x.call.clock.received
  processedAt := x.call.clock.processed

/-- The result of the message. -/
def result (x : InFlight) : Result :=
  .assemble x.envelope x.outcome

/-- The processed message. -/
def processed (x : InFlight) : Processed :=
  ⟨x.result, x.inspection.fingerprint?, x.inspection.decodedLength?⟩

/-- What is to be remembered of the message. -/
def submission? (x : InFlight) : Option Submission :=
  match x.wanted? with
  | some fp =>
    if x.result.isProcessed && !x.result.isDuplicate then
      some ⟨x.message.messageId, fp, x.call.clock.received⟩
    else none
  | none => none

end InFlight

namespace Pipeline

variable {σ : Type}

/-- The pipeline that never finds a duplicate. -/
def ofSettings (settings : PipelineSettings) : Pipeline σ := ⟨settings, .never⟩

/-- The duplicate checker of the pipeline. -/
def checker (p : Pipeline σ) : DuplicateChecker σ := ⟨p.settings.dedup, p.store⟩

/-- The first step. -/
def receive (p : Pipeline σ) (m : Message) (call : Call) : InFlight × List Event :=
  let (inspection, events) := m.inspect p.settings
  (⟨m, call, inspection, none⟩, events)

/-- The second step. -/
def lookUp (p : Pipeline σ) (x : InFlight) (st : σ) : (InFlight × List Event) × σ :=
  match x.wanted? with
  | none => ((x, []), st)
  | some fp =>
    let clock := x.call.clock
    let (check, st) := p.checker.check x.message.messageId fp clock.lookedUp clock.checked st
    (({ x with duplicateCheck? := some check }, [.duplicateChecked check]), st)

/-- The third step. -/
def complete (p : Pipeline σ) (x : InFlight) (st : σ) : Processed × σ :=
  match x.submission? with
  | some s => (x.processed, p.checker.remember s x.call.clock.recorded st)
  | none => (x.processed, st)

/-- Process one message, with the events that its stages left. -/
def process (p : Pipeline σ) (m : Message) (call : Call) (st : σ) :
    (Processed × List Event) × σ :=
  let (x, received) := p.receive m call
  let ((x, lookedUp), st) := p.lookUp x st
  let (processed, st) := p.complete x st
  ((processed, received ++ lookedUp), st)

/-- Process messages one after another. -/
def processAll (p : Pipeline σ) : List (Message × Call) → σ → List (Processed × List Event) × σ
  | [], st => ([], st)
  | (m, call) :: rest, st =>
    let (out, st) := p.process m call st
    let (outs, st) := p.processAll rest st
    (out :: outs, st)

theorem process_eq (p : Pipeline σ) (m : Message) (call : Call) (st : σ) :
    let received := p.receive m call
    let lookedUp := p.lookUp received.1 st
    let completed := p.complete lookedUp.1.1 lookedUp.2
    p.process m call st = ((completed.1, received.2 ++ lookedUp.1.2), completed.2) := rfl

theorem lookUp_unwanted (p : Pipeline σ) {x : InFlight} (h : x.wanted? = none) (st : σ) :
    p.lookUp x st = ((x, []), st) := by
  unfold lookUp
  rw [h]

theorem processAll_cons (p : Pipeline σ) (c : Message × Call) (calls : List (Message × Call))
    (st : σ) :
    let processed := p.process c.1 c.2 st
    p.processAll (c :: calls) st =
      (processed.1 :: (p.processAll calls processed.2).1, (p.processAll calls processed.2).2) := rfl

end Pipeline
end TradeIntake
