import TradeIntake.Pipeline
import TradeIntake.Proofs.Assembly.StatusTable
import TradeIntake.Proofs.Validation.Findings

/-!
# What processing a message comes to

The third step reports what the second one left in flight, and the second one adds no more than a
duplicate check. So all of a result but the check follows from the content of the message, whatever
the store does: the content is refused, or its document is reported on.

* **`outcome_process`**: the result of processing a message, with everything that it carries.
-/

namespace TradeIntake

/-- What validation reports of a document, warnings as errors when the sender wants it strict. -/
def Document.report (strict : Bool) (d : Document) : Report :=
  if strict then d.validate.promoteWarnings else d.validate

theorem Document.examine_eq (extractor : Extractor) (strict : Bool) (d : Document) :
    (d.examine extractor strict).1 = ⟨d.report strict,
      if (d.report strict).hasErrors then none else some (.ok (extractor.extract d))⟩ := by
  unfold examine
  dsimp only
  rw [← report]
  split <;> rfl

theorem Document.code_of_mem_report {strict : Bool} {d : Document} {f : Finding}
    (h : f ∈ (d.report strict).findings) : f.code ∈ Validation.codes := by
  unfold report at h
  split at h
  · obtain ⟨g, hg, hc⟩ := Report.code_of_mem_promoteWarnings h
    exact hc ▸ d.code_of_mem_findings g hg
  · exact d.code_of_mem_findings f h

namespace Result

/-- **The content was refused**: one error tells of the failure, and nothing else is told. -/
structure Refuses (r : Result) (failure : IngestFailure) : Prop where
  processingStatus : r.processingStatus = .failed
  validationStatus : r.validationStatus = .schemaError
  documentType? : r.documentType? = none
  findings : r.findings = []
  tradeData? : r.tradeData? = none
  duplicateCheck? : r.duplicateCheck? = none
  errors : r.errors =
    [⟨failure.code, "Failed to process FpML message: " ++ failure.message, r.processedAt, false⟩]

/-- **The document was reported on**: its data is told of unless there is an error among the
findings. -/
structure Reports (r : Result) (report : Report) (data : TradeData) : Prop where
  processingStatus : r.processingStatus = .processed
  documentType? : r.documentType? = report.documentType?
  findings : r.findings = report.findings
  errors : r.errors = []
  invalid : (∃ f ∈ report.findings, f.severity = .error) →
    r.validationStatus = .invalid ∧ r.tradeData? = none
  valid : (∀ f ∈ report.findings, f.severity ≠ .error) →
    r.validationStatus = .valid ∧ r.tradeData? = some data

theorem refuses_assemble (e : Envelope) (failure : IngestFailure) :
    (assemble e (.failed (.ingest failure))).Refuses failure :=
  ⟨rfl, rfl, rfl, rfl, rfl, rfl, rfl⟩

theorem reports_assemble (e : Envelope) (extractor : Extractor) (strict : Bool) (d : Document)
    (check? : Option DuplicateCheck) :
    let x := (d.examine extractor strict).1
    (assemble e (.checked x.report x.extraction check?)).Reports (d.report strict)
      (extractor.extract d) := by
  rw [Document.examine_eq]
  dsimp only
  cases h : (d.report strict).hasErrors with
  | true =>
    obtain ⟨f, hf, herror⟩ := (Report.hasErrors_iff _).mp h
    simp only [assemble, ofChecked, h, if_true]
    exact ⟨rfl, rfl, rfl, rfl, fun _ => ⟨rfl, rfl⟩, fun hclean => absurd herror (hclean f hf)⟩
  | false =>
    have hclean := (Report.hasErrors_eq_false_iff _).mp h
    simp only [assemble, ofChecked, h]
    refine ⟨rfl, rfl, rfl, rfl, ?_, fun _ => ⟨rfl, rfl⟩⟩
    rintro ⟨f, hf, herror⟩
    exact absurd herror (hclean f hf)

/-- An error or not, one of both. -/
theorem Reports.validationStatus {r : Result} {report : Report} {data : TradeData}
    (h : r.Reports report data) : r.validationStatus = .invalid ∨ r.validationStatus = .valid := by
  cases he : report.hasErrors with
  | true => exact Or.inl (h.invalid ((Report.hasErrors_iff _).mp he)).1
  | false => exact Or.inr (h.valid ((Report.hasErrors_eq_false_iff _).mp he)).1

end Result

/-! ## Inspection -/

namespace Message

/-- The fingerprint that a duplicate check of the message goes by; none when there is no document or
the sender does not want the check. -/
def checkable? (settings : IngestSettings) (m : Message) : Option String :=
  match m.decode settings with
  | .ok (bytes, _) => if m.flags.skipDuplicateCheck then none else some (fingerprint bytes)
  | .error _ => none

theorem checkable?_eq_some_iff {settings : IngestSettings} {m : Message} {fp : String} :
    m.checkable? settings = some fp ↔
      ∃ bytes d, m.decode settings = .ok (bytes, d) ∧ m.flags.skipDuplicateCheck = false ∧
        fingerprint bytes = fp := by
  unfold checkable?
  cases m.decode settings with
  | error e => simp
  | ok x =>
    obtain ⟨bytes, d⟩ := x
    cases m.flags.skipDuplicateCheck <;> simp

theorem isSome_checkable? {settings : IngestSettings} {m : Message} :
    (m.checkable? settings).isSome ↔
      (∃ x, m.decode settings = .ok x) ∧ m.flags.skipDuplicateCheck = false := by
  simp only [Option.isSome_iff_exists, checkable?_eq_some_iff]
  constructor
  · rintro ⟨_, bytes, d, h, hs, -⟩
    exact ⟨⟨_, h⟩, hs⟩
  · rintro ⟨⟨⟨bytes, d⟩, h⟩, hs⟩
    exact ⟨_, bytes, d, h, hs, rfl⟩

variable {settings : PipelineSettings} {m : Message}

theorem inspect_of_error {e : IngestFailure} (h : m.decode settings.ingest = .error e) :
    (m.inspect settings).1.examined = .error (.ingest e) := by
  unfold inspect
  rcases decode_eq_error_iff.mp h with hdecode | ⟨bytes, hdecode, hparse⟩
  · rw [hdecode]
  · simp only [hdecode, hparse]

theorem inspect_of_ok {bytes : List UInt8} {d : Document}
    (h : m.decode settings.ingest = .ok (bytes, d)) :
    (m.inspect settings).1 = ⟨some (fingerprint bytes), some bytes.length,
      .ok (d.examine (.ofSettings settings.extract) m.flags.strictValidation).1⟩ := by
  obtain ⟨hdecode, hparse⟩ := decode_eq_ok_iff.mp h
  unfold inspect
  simp only [hdecode, hparse]

theorem decodedLength?_inspect (settings : PipelineSettings) (m : Message) :
    (m.inspect settings).1.decodedLength? =
      (Payload.decode settings.ingest m.content).toOption.map List.length := by
  unfold inspect
  cases Payload.decode settings.ingest m.content with
  | error failure => rfl
  | ok bytes =>
    simp only [Except.toOption, Option.map_some]
    split <;> rfl

end Message

/-! ## The three steps taken together -/

namespace Pipeline

variable {σ : Type} (p : Pipeline σ) (m : Message) (call : Call) (st : σ)

theorem fst_complete (x : InFlight) : (p.complete x st).1 = x.processed := by
  unfold complete
  split <;> rfl

/-- The third step reports what the second one left. -/
theorem fst_process :
    (p.process m call st).1.1 = (p.lookUp (p.receive m call).1 st).1.1.processed := by
  rw [process_eq]
  exact p.fst_complete _ _

theorem wanted?_receive :
    (p.receive m call).1.wanted? = m.checkable? p.settings.ingest := by
  unfold InFlight.wanted? Message.checkable? receive
  dsimp only
  cases h : m.decode p.settings.ingest with
  | error e => rw [Message.inspect_of_error h]
  | ok x => rw [Message.inspect_of_ok h]

/-- The second step adds no more than a check. -/
theorem lookUp_eq (x : InFlight) :
    (p.lookUp x st).1.1 = { x with duplicateCheck? := match x.wanted? with
      | some fp => some (p.checker.check x.message.messageId fp x.call.clock.lookedUp
          x.call.clock.checked st).1
      | none => x.duplicateCheck? } := by
  unfold lookUp
  split <;> rename_i h <;> rw [h]

/-- The duplicate check that is made of the message. -/
def check? : Option DuplicateCheck :=
  (m.checkable? p.settings.ingest).map fun fp =>
    (p.checker.check m.messageId fp call.clock.lookedUp call.clock.checked st).1

theorem lookUp_receive :
    (p.lookUp (p.receive m call).1 st).1.1 =
      ⟨m, call, (m.inspect p.settings).1, p.check? m call st⟩ := by
  rw [lookUp_eq, wanted?_receive]
  unfold check?
  cases m.checkable? p.settings.ingest <;> rfl

theorem process_of_error {e : IngestFailure} (h : m.decode p.settings.ingest = .error e) :
    (p.process m call st).1.1.result.Refuses e := by
  rw [fst_process, lookUp_receive]
  simp only [InFlight.processed, InFlight.result, InFlight.outcome, Message.inspect_of_error h]
  exact Result.refuses_assemble _ e

theorem process_of_ok {bytes : List UInt8} {d : Document}
    (h : m.decode p.settings.ingest = .ok (bytes, d)) :
    (p.process m call st).1.1.result.Reports (d.report m.flags.strictValidation)
      ((Extractor.ofSettings p.settings.extract).extract d) := by
  rw [fst_process, lookUp_receive]
  simp only [InFlight.processed, InFlight.result, InFlight.outcome, Message.inspect_of_ok h]
  exact Result.reports_assemble _ _ _ d _

theorem duplicateCheck?_process :
    (p.process m call st).1.1.result.duplicateCheck? = p.check? m call st := by
  cases h : m.decode p.settings.ingest with
  | error e =>
    rw [(p.process_of_error m call st h).duplicateCheck?]
    simp [check?, Message.checkable?, h]
  | ok x =>
    rw [fst_process, lookUp_receive]
    simp only [InFlight.processed, InFlight.result, InFlight.outcome, Message.inspect_of_ok h]
    exact (Result.row_assemble _ _).of_checked.2.2

/-! ## What is left in the store -/

theorem snd_process_of_unchecked (h : m.checkable? p.settings.ingest = none) :
    (p.process m call st).2 = st := by
  have hw := (p.wanted?_receive m call).trans h
  rw [process_eq]
  dsimp only
  rw [lookUp_unwanted p hw]
  unfold complete InFlight.submission?
  rw [hw]

theorem snd_lookUp {x : InFlight} {fp : String} (h : x.wanted? = some fp) :
    (p.lookUp x st).2 = (p.checker.check x.message.messageId fp x.call.clock.lookedUp
      x.call.clock.checked st).2 := by
  unfold lookUp
  rw [h]

theorem snd_complete (x : InFlight) :
    (p.complete x st).2 =
      (x.submission?.map fun s => p.checker.remember s x.call.clock.recorded st).getD st := by
  unfold complete
  cases x.submission? <;> rfl

omit p m call st in
theorem submission?_eq {x : InFlight} {fp : String} {check : DuplicateCheck}
    (hw : x.wanted? = some fp) (hc : x.result.duplicateCheck? = some check)
    (hp : x.result.processingStatus = .processed) :
    x.submission? = if check.isDuplicate then none
      else some ⟨x.message.messageId, fp, x.call.clock.received⟩ := by
  unfold InFlight.submission? Result.isDuplicate Result.isProcessed
  rw [hw, hc, hp]
  cases h : check.isDuplicate <;> simp [h]

/-- **A checked message is remembered unless it is a duplicate.** -/
theorem snd_process_of_checked {fp : String} (h : m.checkable? p.settings.ingest = some fp) :
    let checked := p.checker.check m.messageId fp call.clock.lookedUp call.clock.checked st
    (p.process m call st).2 =
      if checked.1.isDuplicate then checked.2
      else p.checker.remember ⟨m.messageId, fp, call.clock.received⟩ call.clock.recorded
        checked.2 := by
  intro checked
  have hw := (p.wanted?_receive m call).trans h
  obtain ⟨bytes, d, hd, -, -⟩ := Message.checkable?_eq_some_iff.mp h
  have hmade : p.check? m call st = some checked.1 := by
    rw [check?, h]
    rfl
  have hcheck := (p.duplicateCheck?_process m call st).trans hmade
  have hprocessed := (p.process_of_ok m call st hd).processingStatus
  have hx := p.lookUp_receive m call st
  rw [hmade] at hx
  rw [fst_process, hx] at hcheck hprocessed
  -- whether a check is wanted does not depend on the check that was made
  have hwx : (⟨m, call, (m.inspect p.settings).1, some checked.1⟩ : InFlight).wanted? = some fp :=
    hw
  rw [process_eq]
  dsimp only
  rw [snd_complete, snd_lookUp p st hw, hx, submission?_eq hwx hcheck hprocessed]
  cases checked.1.isDuplicate <;> rfl

theorem fingerprint?_process :
    (p.process m call st).1.1.fingerprint? =
      (Payload.decode p.settings.ingest m.content).toOption.map fingerprint := by
  rw [fst_process, lookUp_receive]
  exact fingerprint?_inspect p.settings m

theorem fingerprint?_process_of_checked {fp : String}
    (h : m.checkable? p.settings.ingest = some fp) :
    (p.process m call st).1.1.fingerprint? = some fp := by
  obtain ⟨bytes, d, hd, -, rfl⟩ := Message.checkable?_eq_some_iff.mp h
  rw [fst_process, lookUp_receive]
  simp only [InFlight.processed, Message.inspect_of_ok hd]

theorem decodedLength?_process :
    (p.process m call st).1.1.decodedLength? =
      (Payload.decode p.settings.ingest m.content).toOption.map List.length := by
  rw [fst_process, lookUp_receive]
  exact m.decodedLength?_inspect p.settings

theorem schemaError_process_iff :
    (p.process m call st).1.1.result.validationStatus = .schemaError ↔
      ∃ e, m.decode p.settings.ingest = .error e := by
  cases h : m.decode p.settings.ingest with
  | error e => simp [(p.process_of_error m call st h).validationStatus]
  | ok x =>
    rcases (p.process_of_ok m call st h).validationStatus with hs | hs <;> simp [hs]

theorem validationStatus_process_ne :
    (p.process m call st).1.1.result.validationStatus ≠ .systemError := by
  cases h : m.decode p.settings.ingest with
  | error e => simp [(p.process_of_error m call st h).validationStatus]
  | ok x =>
    rcases (p.process_of_ok m call st h).validationStatus with hs | hs <;> simp [hs]

theorem code_of_mem_findings_process :
    ∀ f ∈ (p.process m call st).1.1.result.findings, f.code ∈ Validation.codes := by
  intro f hf
  cases h : m.decode p.settings.ingest with
  | error e =>
    rw [(p.process_of_error m call st h).findings] at hf
    cases hf
  | ok x =>
    rw [(p.process_of_ok m call st h).findings] at hf
    exact Document.code_of_mem_report hf

theorem isSome_duplicateCheck?_process :
    (p.process m call st).1.1.result.duplicateCheck?.isSome ↔
      (∃ x, m.decode p.settings.ingest = .ok x) ∧ m.flags.skipDuplicateCheck = false := by
  rw [duplicateCheck?_process, check?, Option.isSome_map]
  exact Message.isSome_checkable?

theorem eq_check_of_duplicateCheck?_process {bytes : List UInt8} {d : Document} {c : DuplicateCheck}
    (h : m.decode p.settings.ingest = .ok (bytes, d))
    (hc : (p.process m call st).1.1.result.duplicateCheck? = some c) :
    c = (p.checker.check m.messageId (fingerprint bytes) call.clock.lookedUp call.clock.checked
      st).1 := by
  rw [duplicateCheck?_process] at hc
  obtain ⟨fp, hfp, rfl⟩ := Option.map_eq_some_iff.mp hc
  obtain ⟨_, _, h', -, rfl⟩ := Message.checkable?_eq_some_iff.mp hfp
  cases h.symm.trans h'
  rfl

end Pipeline

/-- **What processing a message comes to**, over any store in any state. A message whose content is
refused is a schema error that tells of the failure. Of any other the report and, without errors in
it, the data are told. No stage fails after that. What was decoded has a fingerprint, which is its
SHA-256 digest in hexadecimal digits, and a size, also when it is no document. A check is told of
exactly when there is a document and the sender wants the check, and it is then the check against
the store as it was found. -/
theorem Pipeline.outcome_process {σ : Type} (p : Pipeline σ) (m : Message) (call : Call) (st : σ) :
    let out := (p.process m call st).1.1
    (out.result.validationStatus = .schemaError ↔ ∃ e, m.decode p.settings.ingest = .error e) ∧
    (∀ e, m.decode p.settings.ingest = .error e → out.result.Refuses e) ∧
    (∀ bytes d, m.decode p.settings.ingest = .ok (bytes, d) →
      out.result.Reports (d.report m.flags.strictValidation)
        ((Extractor.ofSettings p.settings.extract).extract d)) ∧
    out.result.validationStatus ≠ .systemError ∧
    (∀ f ∈ out.result.findings, f.code ≠ "XPATH_ERROR") ∧
    out.fingerprint? = (Payload.decode p.settings.ingest m.content).toOption.map
      (fun bytes => String.ofList (Text.Hex.ofBytes (Sha256.digest bytes))) ∧
    out.decodedLength? =
      (Payload.decode p.settings.ingest m.content).toOption.map List.length ∧
    (out.result.duplicateCheck?.isSome ↔
      (∃ x, m.decode p.settings.ingest = .ok x) ∧ m.flags.skipDuplicateCheck = false) ∧
    ∀ bytes d c, m.decode p.settings.ingest = .ok (bytes, d) → out.result.duplicateCheck? = some c →
      c = (p.checker.check m.messageId (String.ofList (Text.Hex.ofBytes (Sha256.digest bytes)))
        call.clock.lookedUp call.clock.checked st).1 := by
  refine ⟨p.schemaError_process_iff m call st, fun e => p.process_of_error m call st,
    fun bytes d => p.process_of_ok m call st, p.validationStatus_process_ne m call st, ?_,
    p.fingerprint?_process m call st, p.decodedLength?_process m call st,
    p.isSome_duplicateCheck?_process m call st,
    fun bytes d c => p.eq_check_of_duplicateCheck?_process m call st⟩
  intro f hf hc
  have hcode := p.code_of_mem_findings_process m call st f hf
  rw [hc] at hcode
  exact absurd hcode (by decide +kernel)

end TradeIntake
