import Mathlib.Data.List.Forall2
import TradeIntake.Proofs.Pipeline.Writes

/-!
# Strict validation only tightens

A sender may want warnings to count as errors. That is settled between validation and extraction,
after the content was decoded and without asking the store. So of two runs that differ in this wish
alone, the strict one finds the same with its warnings promoted, it loses a document that was valid
in the lenient run exactly when that run warned, and nothing else differs: not the duplicate check,
and not what the store is asked and told.

* **`tightens_assemble`**: the results of a report and of the promoted one.
* **`tightens_process`**, **`strict_leaves_store`**: one message, processed strictly and leniently.
* **`tightens_processAll`**: a run of messages, all of them strict or none.
* **`strict_tightens`**: all of it.
-/

namespace TradeIntake

/-- The message, with the wish for strict validation or without it. -/
def Message.strictly (strict : Bool) (m : Message) : Message :=
  { m with flags := { m.flags with strictValidation := strict } }

/-! ## Reports -/

namespace Report

/-- A promoted report has errors when there were errors or warnings. -/
theorem hasErrors_promoteWarnings_iff_or {r : Report} :
    r.promoteWarnings.hasErrors = true ↔
      r.hasErrors = true ∨ ∃ f ∈ r.findings, f.severity = .warning := by
  rw [hasErrors_promoteWarnings_iff, hasErrors_iff]
  constructor
  · rintro ⟨f, hf, hne⟩
    cases hs : f.severity with
    | info => exact absurd hs hne
    | warning => exact Or.inr ⟨f, hf, hs⟩
    | error => exact Or.inl ⟨f, hf, hs⟩
  · rintro (⟨f, hf, hs⟩ | ⟨f, hf, hs⟩)
    · exact ⟨f, hf, by simp [hs]⟩
    · exact ⟨f, hf, by simp [hs]⟩

end Report

/-! ## Results -/

namespace Result

/-- **A result is another one, tightened**: the findings are the same, in the same order, with every
warning promoted. The statuses differ exactly when the lenient one is valid and there is a warning;
then the strict result is invalid and has no data. Nothing else differs in either case. -/
structure Tightens (strict lenient : Result) : Prop where
  findings : strict.findings = lenient.findings.map Finding.promote
  status_ne_iff : strict.validationStatus ≠ lenient.validationStatus ↔
    lenient.validationStatus = .valid ∧ ∃ f ∈ lenient.findings, f.severity = .warning
  blocked : strict.validationStatus ≠ lenient.validationStatus →
    strict = { lenient with
      findings := lenient.findings.map Finding.promote
      validationStatus := .invalid
      tradeData? := none }
  otherwise : strict.validationStatus = lenient.validationStatus →
    strict = { lenient with findings := lenient.findings.map Finding.promote }

/-- At most the findings, the status and the data differ. -/
theorem Tightens.exists_eq {strict lenient : Result} (h : strict.Tightens lenient) :
    ∃ findings status data?, strict = { lenient with
      findings := findings
      validationStatus := status
      tradeData? := data? } := by
  by_cases hs : strict.validationStatus = lenient.validationStatus
  · exact ⟨_, lenient.validationStatus, lenient.tradeData?, h.otherwise hs⟩
  · exact ⟨_, .invalid, none, h.blocked hs⟩

/-- A result without findings is not tightened any further. -/
theorem tightens_self {r : Result} (h : r.findings = []) : r.Tightens r where
  findings := by rw [h]; rfl
  status_ne_iff := by simp [h]
  blocked hne := absurd rfl hne
  otherwise _ := by
    rw [h]
    exact congrArg (fun findings => { r with findings := findings }) h

/-- The result of a report when extraction runs unless the report has errors. -/
def ofReport (e : Envelope) (data : TradeData) (check? : Option DuplicateCheck) (r : Report) :
    Result :=
  assemble e (.checked r (if r.hasErrors then none else some (.ok data)) check?)

theorem ofReport_eq (e : Envelope) (data : TradeData) (check? : Option DuplicateCheck)
    (r : Report) :
    ofReport e data check? r =
      if r.hasErrors then { reported e r check? with validationStatus := .invalid }
      else { reported e r check? with tradeData? := some data } := by
  unfold ofReport
  cases h : r.hasErrors <;>
    simp only [assemble, ofChecked, h, Bool.false_eq_true, if_true, if_false] <;> rfl

/-- **A promoted report tightens the result.** -/
theorem tightens_assemble (e : Envelope) (data : TradeData) (check? : Option DuplicateCheck)
    (r : Report) :
    (ofReport e data check? r.promoteWarnings).Tightens (ofReport e data check? r) := by
  rw [ofReport_eq, ofReport_eq]
  by_cases hstrict : r.promoteWarnings.hasErrors = true
  · by_cases hlenient : r.hasErrors = true
    · rw [if_pos hstrict, if_pos hlenient]
      exact ⟨rfl, by simp, fun hne => absurd rfl hne, fun _ => rfl⟩
    · have hwarns := (Report.hasErrors_promoteWarnings_iff_or.mp hstrict).resolve_left hlenient
      rw [if_pos hstrict, if_neg hlenient]
      exact ⟨rfl, iff_of_true (by simp [reported, blank]) ⟨rfl, hwarns⟩, fun _ => rfl,
        fun heq => by simp [reported, blank] at heq⟩
  · have hnone := not_or.mp (mt Report.hasErrors_promoteWarnings_iff_or.mpr hstrict)
    rw [if_neg hstrict, if_neg hnone.1]
    exact ⟨rfl, iff_of_false (fun hne => hne rfl) fun hw => hnone.2 hw.2,
      fun hne => absurd rfl hne, fun _ => rfl⟩

end Result

/-- **A processed message is another one, tightened.** -/
structure Processed.Tightens (strict lenient : Processed) : Prop where
  fingerprint? : strict.fingerprint? = lenient.fingerprint?
  decodedLength? : strict.decodedLength? = lenient.decodedLength?
  documentType? : strict.result.documentType? = lenient.result.documentType?
  duplicateCheck? : strict.result.duplicateCheck? = lenient.result.duplicateCheck?
  result : strict.result.Tightens lenient.result

namespace Pipeline

variable {σ : Type} (p : Pipeline σ) (m : Message) (call : Call) (st : σ)

/-! ## One message -/

/-- Of content that is refused, nothing depends on the wish. -/
theorem inspect_strictly_of_error {e : IngestFailure} (h : m.decode p.settings.ingest = .error e)
    (strict : Bool) :
    ((m.strictly strict).inspect p.settings).1 =
      ⟨(Payload.decode p.settings.ingest m.content).toOption.map fingerprint,
        (Payload.decode p.settings.ingest m.content).toOption.map List.length,
        .error (.ingest e)⟩ := by
  have hfp := fingerprint?_inspect p.settings (m.strictly strict)
  have hlen := (m.strictly strict).decodedLength?_inspect p.settings
  have hexamined : ((m.strictly strict).inspect p.settings).1.examined = .error (.ingest e) :=
    Message.inspect_of_error h
  exact congr (congrArg₂ Inspection.mk hfp hlen) hexamined

/-- Of content that is decoded, the examination alone depends on the wish. -/
theorem inspect_strictly_of_ok {bytes : List UInt8} {d : Document}
    (h : m.decode p.settings.ingest = .ok (bytes, d)) (strict : Bool) :
    ((m.strictly strict).inspect p.settings).1 = ⟨some (fingerprint bytes), some bytes.length,
      .ok (d.examine (.ofSettings p.settings.extract) strict).1⟩ :=
  Message.inspect_of_ok h

/-- **One message, processed strictly and leniently.** -/
theorem tightens_process :
    (p.process (m.strictly true) call st).1.1.Tightens
      (p.process (m.strictly false) call st).1.1 := by
  have hresult : (p.process (m.strictly true) call st).1.1.result.Tightens
      (p.process (m.strictly false) call st).1.1.result := by
    cases h : m.decode p.settings.ingest with
    | error e =>
      rw [fst_process, fst_process, lookUp_receive, lookUp_receive,
        p.inspect_strictly_of_error m h, p.inspect_strictly_of_error m h]
      exact Result.tightens_self rfl
    | ok x =>
      obtain ⟨bytes, d⟩ := x
      rw [fst_process, fst_process, lookUp_receive, lookUp_receive,
        p.inspect_strictly_of_ok m h, p.inspect_strictly_of_ok m h,
        Document.examine_eq, Document.examine_eq]
      exact Result.tightens_assemble _ _ _ d.validate
  obtain ⟨findings, status, data?, heq⟩ := hresult.exists_eq
  exact
    { fingerprint? := by rw [fingerprint?_process, fingerprint?_process]; rfl
      decodedLength? := by rw [decodedLength?_process, decodedLength?_process]; rfl
      documentType? := by rw [heq]
      duplicateCheck? := by rw [heq]
      result := hresult }

/-- **Strictness leaves the store alone**: it is asked and told the same, and comes to the same. -/
theorem strict_leaves_store (strict : Bool) :
    p.requests (m.strictly strict) call st = p.requests m call st ∧
      (p.process (m.strictly strict) call st).2 = (p.process m call st).2 := by
  have hcheckable : (m.strictly strict).checkable? p.settings.ingest =
      m.checkable? p.settings.ingest := rfl
  cases h : m.checkable? p.settings.ingest with
  | none =>
    rw [requests_of_unchecked (hcheckable.trans h), requests_of_unchecked h,
      p.snd_process_of_unchecked _ call st (hcheckable.trans h),
      p.snd_process_of_unchecked m call st h]
    exact ⟨rfl, rfl⟩
  | some fp =>
    rw [p.snd_process_of_checked _ call st (hcheckable.trans h),
      p.snd_process_of_checked m call st h]
    unfold requests
    rw [hcheckable, h]
    dsimp only
    rw [p.isDuplicate_process_of_checked _ call st (hcheckable.trans h),
      p.isDuplicate_process_of_checked m call st h]
    exact ⟨rfl, rfl⟩

/-! ## Runs -/

/-- The calls, all of them with the wish for strict validation or all without. -/
def strictly (strict : Bool) (calls : List (Message × Call)) : List (Message × Call) :=
  calls.map fun c => (c.1.strictly strict, c.2)

theorem strictly_cons (strict : Bool) (c : Message × Call) (calls : List (Message × Call)) :
    strictly strict (c :: calls) = (c.1.strictly strict, c.2) :: strictly strict calls := rfl

/-- **A run of messages, all of them strict or none.** -/
theorem tightens_processAll (calls : List (Message × Call)) :
    let strict := p.processAll (strictly true calls) st
    let lenient := p.processAll (strictly false calls) st
    List.Forall₂ (fun s l => s.1.Tightens l.1) strict.1 lenient.1 ∧ strict.2 = lenient.2 := by
  induction calls generalizing st with
  | nil => exact ⟨.nil, rfl⟩
  | cons c calls ih =>
    -- The next message finds the same store, whichever way this one was taken.
    have hstate : (p.process (c.1.strictly true) c.2 st).2 =
        (p.process (c.1.strictly false) c.2 st).2 := by
      rw [(p.strict_leaves_store c.1 c.2 st true).2, (p.strict_leaves_store c.1 c.2 st false).2]
    obtain ⟨houts, hlast⟩ := ih (p.process (c.1.strictly false) c.2 st).2
    dsimp only
    rw [strictly_cons, strictly_cons, processAll_cons, processAll_cons, hstate]
    exact ⟨.cons (p.tightens_process c.1 c.2 st) houts, hlast⟩

/-- **Strict validation only tightens**, over any store in any state and for any call. -/
theorem strict_tightens (p : Pipeline σ) :
    (∀ (m : Message) (call : Call) (st : σ),
      let strict := p.process (m.strictly true) call st
      let lenient := p.process (m.strictly false) call st
      strict.1.1.Tightens lenient.1.1 ∧ strict.2 = lenient.2 ∧
        p.requests (m.strictly true) call st = p.requests (m.strictly false) call st) ∧
    ∀ (calls : List (Message × Call)) (st : σ),
      let strict := p.processAll (strictly true calls) st
      let lenient := p.processAll (strictly false calls) st
      List.Forall₂ (fun s l => s.1.Tightens l.1) strict.1 lenient.1 ∧ strict.2 = lenient.2 := by
  refine ⟨fun m call st => ?_, fun calls st => p.tightens_processAll st calls⟩
  obtain ⟨hasked, hleft⟩ := p.strict_leaves_store m call st true
  obtain ⟨hasked', hleft'⟩ := p.strict_leaves_store m call st false
  exact ⟨p.tightens_process m call st, hleft.trans hleft'.symm, hasked.trans hasked'.symm⟩

end Pipeline
end TradeIntake
