import TradeIntake.Proofs.Pipeline.Run

/-!
# What an observer sees of a run

Every stage that runs leaves one event (`Event`), so what an observer sees of a run can be told from
its messages and results alone. Decoding is a stage of every turn. Validation is one of the turns
whose content could be decoded and parsed, extraction of those among them without errors, and the
duplicate check of those among them whose sender wants it.

* **`observed_process`**: the events of one turn, stage by stage.
* **`observed_run`**: the events of a run are those of its turns, in order.
-/

namespace TradeIntake

/-- How many errors a result tells of. -/
def Result.errorCount (r : Result) : Nat :=
  r.findings.countP fun f => f.severity = .error

/-- The content of a message could be decoded and parsed. -/
def Message.IsRead (settings : IngestSettings) (m : Message) : Prop :=
  ∃ x, m.decode settings = .ok x

/-- What a stage leaves: one event that `told` is true of if it ran, and else nothing. -/
structure Leaves (ran : Prop) (told : Event → Prop) (events : List Event) : Prop where
  one : ran → ∃ e, events = [e] ∧ told e
  none : ¬ran → events = []

section Leaves

variable {ran : Prop} {told : Event → Prop} {e : Event}

theorem Leaves.of_ran (hran : ran) (he : told e) : Leaves ran told [e] :=
  ⟨fun _ => ⟨e, rfl, he⟩, fun hn => absurd hran hn⟩

theorem Leaves.of_not (hran : ¬ran) : Leaves ran told [] :=
  ⟨fun hr => absurd hr hran, fun _ => rfl⟩

end Leaves

/-- What the four stages leave of a turn, each told from the message and its result. -/
structure Stages (settings : IngestSettings) (t : Turn)
    (decoding validation extraction checking : List Event) : Prop where
  decoding : Leaves True (fun e => ∃ outcome, e = .decoded outcome ∧
    (outcome.isOk ↔ t.message.IsRead settings) ∧
    ∀ failure, outcome = .error failure → t.output.result.Refuses failure) decoding
  validation : Leaves (t.message.IsRead settings)
    (fun e => e = .validated t.output.result.errorCount) validation
  extraction : Leaves (t.message.IsRead settings ∧ t.output.result.errorCount = 0)
    (fun e => ∃ outcome, e = .extracted outcome ∧
      (outcome.isOk ↔ t.output.result.tradeData?.isSome)) extraction
  checking : Leaves (t.message.IsRead settings ∧ t.message.flags.skipDuplicateCheck = false)
    (fun e => ∃ check, e = .duplicateChecked check ∧
      t.output.result.duplicateCheck? = some check) checking

/-- **What an observer sees of a turn**: what its stages leave, in order, and nothing else. -/
def Observed (settings : IngestSettings) (t : Turn) (events : List Event) : Prop :=
  ∃ decoding validation extraction checking,
    events = decoding ++ validation ++ extraction ++ checking ∧
      Stages settings t decoding validation extraction checking

theorem Result.Reports.errorCount {r : Result} {report : Report} {data : TradeData}
    (h : r.Reports report data) : r.errorCount = report.errorCount := by
  rw [Result.errorCount, h.findings]
  rfl

/-! ## The events of the steps -/

theorem Document.events_examine (extractor : Extractor) (strict : Bool) (d : Document) :
    (d.examine extractor strict).2 = .validated (d.report strict).errorCount ::
      if (d.report strict).hasErrors then [] else [.extracted (.ok ())] := by
  unfold examine
  dsimp only
  rw [← report]
  split <;> rfl

namespace Message

variable {settings : PipelineSettings} {m : Message}

theorem events_inspect_of_error {e : IngestFailure} (h : m.decode settings.ingest = .error e) :
    (m.inspect settings).2 = [.decoded (.error e)] := by
  unfold inspect
  rcases decode_eq_error_iff.mp h with hdecode | ⟨bytes, hdecode, hparse⟩
  · rw [hdecode]
  · simp only [hdecode, hparse]

theorem events_inspect_of_ok {bytes : List UInt8} {d : Document}
    (h : m.decode settings.ingest = .ok (bytes, d)) :
    (m.inspect settings).2 = .decoded (.ok ()) ::
      (d.examine (.ofSettings settings.extract) m.flags.strictValidation).2 := by
  obtain ⟨hdecode, hparse⟩ := decode_eq_ok_iff.mp h
  unfold inspect
  simp only [hdecode, hparse]

end Message

namespace Pipeline

variable {σ : Type} (p : Pipeline σ) (c : Message × Call) (st : σ)

/-- The events of a turn: those of the inspection, and that of the check if one was made. -/
theorem events_process :
    (p.process c.1 c.2 st).1.2 =
      (c.1.inspect p.settings).2 ++ (p.check? c.1 c.2 st).toList.map .duplicateChecked := by
  have hlookUp : (p.lookUp (p.receive c.1 c.2).1 st).1.2 =
      (p.check? c.1 c.2 st).toList.map .duplicateChecked := by
    unfold lookUp check?
    rw [wanted?_receive]
    cases c.1.checkable? p.settings.ingest <;> rfl
  rw [← hlookUp]
  rfl

/-! ## The events of a turn -/

/-- Of content that is refused, decoding alone is seen. -/
theorem observed_of_error {e : IngestFailure} (h : c.1.decode p.settings.ingest = .error e) :
    Observed p.settings.ingest (p.turn c st) (p.process c.1 c.2 st).1.2 := by
  have hunread : ¬c.1.IsRead p.settings.ingest := by
    rintro ⟨x, hx⟩
    cases h.symm.trans hx
  have hcheck : p.check? c.1 c.2 st = none := by
    rw [check?, Message.checkable?, h]
    rfl
  refine ⟨[.decoded (.error e)], [], [], [], ?_, ?_⟩
  · rw [events_process, Message.events_inspect_of_error h, hcheck]
    rfl
  · constructor
    case decoding =>
      refine .of_ran trivial ⟨_, rfl, ?_, fun failure hfailure => ?_⟩
      · exact ⟨fun hok => absurd hok Bool.false_ne_true, fun hr => absurd hr hunread⟩
      · obtain rfl := Except.error.inj hfailure
        exact p.process_of_error c.1 c.2 st h
    case validation => exact .of_not hunread
    case extraction => exact .of_not fun hr => hunread hr.1
    case checking => exact .of_not fun hr => hunread hr.1

/-- Of content that is read, every stage is seen that comes to run. -/
theorem observed_of_ok {bytes : List UInt8} {d : Document}
    (h : c.1.decode p.settings.ingest = .ok (bytes, d)) :
    Observed p.settings.ingest (p.turn c st) (p.process c.1 c.2 st).1.2 := by
  have hread : c.1.IsRead p.settings.ingest := ⟨_, h⟩
  have hreports := p.process_of_ok c.1 c.2 st h
  have hcount := hreports.errorCount
  refine ⟨[.decoded (.ok ())],
    [.validated (d.report c.1.flags.strictValidation).errorCount],
    if (d.report c.1.flags.strictValidation).hasErrors then [] else [.extracted (.ok ())],
    (p.check? c.1 c.2 st).toList.map .duplicateChecked, ?_, ?_⟩
  · rw [events_process, Message.events_inspect_of_ok h, Document.events_examine]
    rfl
  · constructor
    case decoding =>
      refine .of_ran trivial ⟨_, rfl, ⟨fun _ => hread, fun _ => rfl⟩, fun failure hfailure => ?_⟩
      cases hfailure
    case validation => exact .of_ran hread (congrArg _ hcount.symm)
    case extraction =>
      cases he : (d.report c.1.flags.strictValidation).hasErrors with
      | true =>
        refine .of_not fun hr => ?_
        have hnone := (Report.errorCount_eq_zero_iff _).mp (hcount.symm.trans hr.2)
        exact absurd (he.symm.trans hnone) (by decide)
      | false =>
        have hzero := hcount.trans ((Report.errorCount_eq_zero_iff _).mpr he)
        refine .of_ran ⟨hread, hzero⟩ ⟨_, rfl, fun _ => ?_, fun _ => rfl⟩
        rw [turn, (hreports.valid ((Report.hasErrors_eq_false_iff _).mp he)).2]
        rfl
    case checking =>
      have hsome := p.isSome_duplicateCheck?_process c.1 c.2 st
      have hcheck := p.duplicateCheck?_process c.1 c.2 st
      cases hc : p.check? c.1 c.2 st with
      | none =>
        refine .of_not fun hr => ?_
        have := hsome.mpr hr
        rw [hcheck, hc] at this
        cases this
      | some check =>
        refine .of_ran (hsome.mp ?_) ⟨_, rfl, hcheck.trans hc⟩
        rw [hcheck, hc]
        rfl

theorem observed_process :
    Observed p.settings.ingest (p.turn c st) (p.process c.1 c.2 st).1.2 := by
  cases h : c.1.decode p.settings.ingest with
  | error e => exact p.observed_of_error c st h
  | ok x => exact p.observed_of_ok c st h

/-! ## The events of a run -/

/-- All that an observer sees of a run. -/
def trace (calls : List (Message × Call)) (st : σ) : List Event :=
  (p.processAll calls st).1.flatMap (·.2)

/-- A run has one turn for each of its messages. -/
theorem map_turns (calls : List (Message × Call)) (st : σ) :
    (p.turns calls st).map (fun t => (t.message, t.call)) = calls := by
  induction calls generalizing st with
  | nil => rfl
  | cons c calls ih =>
    rw [turns_cons, List.map_cons, ih]
    rfl

/-- **What an observer sees of a run**, over any store in any state: the events of its turns, one
after another. Of each turn, decoding is seen, well if the content was read and else with the failure
that the result tells of; then, if it was read, validation with the number of errors in the result;
then, if there are none, extraction, well if the result has data; then, if it was read and the
sender did not decline the check, the check that is in the result. -/
theorem observed_run (calls : List (Message × Call)) (st : σ) :
    (p.turns calls st).map (fun t => (t.message, t.call)) = calls ∧
    (p.turns calls st).map (·.output) = (p.processAll calls st).1.map (·.1) ∧
    ∃ seen : List (List Event), p.trace calls st = seen.flatten ∧
      List.Forall₂ (Observed p.settings.ingest) (p.turns calls st) seen := by
  refine ⟨p.map_turns calls st, ?_, ?_⟩
  · induction calls generalizing st with
    | nil => rfl
    | cons c calls ih =>
      rw [turns_cons, List.map_cons, ih, processAll_cons]
      rfl
  · induction calls generalizing st with
    | nil => exact ⟨[], rfl, .nil⟩
    | cons c calls ih =>
      obtain ⟨seen, htrace, hseen⟩ := ih (p.process c.1 c.2 st).2
      refine ⟨(p.process c.1 c.2 st).1.2 :: seen, ?_, .cons (p.observed_process c st) hseen⟩
      rw [List.flatten_cons, ← htrace, trace, processAll_cons]
      rfl

end Pipeline

end TradeIntake
