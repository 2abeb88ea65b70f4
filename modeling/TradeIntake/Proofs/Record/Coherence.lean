import TradeIntake.Proofs.Pipeline.Outcome
import TradeIntake.Record

/-!
# Records agree with processing

A record has the hash and the size of the content from two options that could be there or not, each
with its own word for nothing, and it has what is told of the data and of errors from two more. They
go together because the pipeline leaves them together: a decoded content has both fingerprint and
size, even when it is no document, and a result is a row of the status table.

* **`fingerprint_ne_hashUnavailable`**: no content has the hash of a content that is none.
* **`errors?_ofResult`**, **`valid_of_identified`**: what a summary says in each row of the table.
* **`coherent_project`**: the record of a processed message.
-/

namespace TradeIntake

/-! ## Hashes -/

/-- **No content has the hash of a content that is none**: a fingerprint has 64 digits. -/
theorem fingerprint_ne_hashUnavailable (bytes : List UInt8) :
    fingerprint bytes ≠ Record.hashUnavailable := by
  intro h
  have hlength := congrArg (fun s => s.toList.length) h
  simp only [fingerprint, String.toList_ofList, Text.Hex.length_ofBytes,
    Sha256.digest_length] at hlength
  exact absurd hlength (by decide)

/-! ## Summaries -/

namespace ProcessingSummary

open Result

/-- The summary names the trade in some way. -/
def Identified (s : ProcessingSummary) : Prop :=
  s.tradeId?.isSome ∨ s.uti?.isSome ∨ s.usi?.isSome

variable {e : Envelope} {o : Outcome} {r : Result}

theorem errors?_eq_some_iff {es : List ProcessingError} :
    (ofResult r).errors? = some es ↔ r.errors = es ∧ es ≠ [] := by
  unfold ofResult
  cases r.errors with
  | nil => simp [eq_comm]
  | cons x xs =>
    constructor
    · rintro ⟨⟩
      exact ⟨rfl, List.cons_ne_nil x xs⟩
    · rintro ⟨rfl, -⟩
      rfl

/-- **Errors are kept of a message that failed**, and of no other. -/
theorem errors?_ofResult (h : Row e o r) :
    (ofResult r).errors?.isSome ↔ r.processingStatus = .failed := by
  simp only [Option.isSome_iff_exists, errors?_eq_some_iff]
  rcases h.failed_or_processed with ⟨f, hs, -, he, -⟩ | ⟨hs, he, -⟩ <;> simp [hs, he]

/-- **Only a valid document is identified.** -/
theorem valid_of_identified (h : Row e o r) (hid : (ofResult r).Identified) :
    r.validationStatus = .valid := by
  refine h.valid_iff_tradeData?.mpr ?_
  unfold Identified ofResult at hid
  cases hdata : r.tradeData? with
  | none => simp [hdata] at hid
  | some data => rfl

end ProcessingSummary

/-! ## Records -/

namespace Record

/-- **The record agrees with what processing the message came to**, with a correlation id that may
have come from outside. -/
structure Coherent (settings : IngestSettings) (m : Message) (result : Result)
    (correlationId? : Option String) (r : Record) : Prop where
  /-- What was decoded has its own SHA-256 hash and size, whether it is a document or not. -/
  decoded : ∀ bytes, Payload.decode settings m.content = .ok bytes →
    r.messageHash = String.ofList (Text.Hex.ofBytes (Sha256.digest bytes)) ∧
      r.messageSize = bytes.length
  /-- What was not has neither. -/
  undecoded : ∀ failure, Payload.decode settings m.content = .error failure →
    r.messageHash = "hash_calculation_failed" ∧ r.messageSize = m.content.utf8ByteSize
  /-- The hash alone tells which of both it is. -/
  unavailable_iff : r.messageHash = "hash_calculation_failed" ↔
    ∃ failure, Payload.decode settings m.content = .error failure
  /-- A message without a hash of its own has failed. -/
  failed_of_unavailable : r.messageHash = "hash_calculation_failed" → r.processingStatus = .failed
  errors_iff : r.summary.errors?.isSome ↔ r.processingStatus = .failed
  errors : ∀ es, r.summary.errors? = some es → es = result.errors
  identified : r.summary.Identified → r.validationStatus = .valid
  /-- A valid document has data, and the record names the trade as they do. -/
  identifiers : r.validationStatus = .valid → ∃ data, result.tradeData? = some data ∧
    r.summary.tradeId? = data.tradeId? ∧ r.summary.uti? = data.uti? ∧ r.summary.usi? = data.usi?
  validationStatus : r.validationStatus = result.validationStatus
  processingStatus : r.processingStatus = result.processingStatus
  findings : r.findings = result.findings
  duplicateCheck : r.duplicateCheck? = result.duplicateCheck?
  explicitCorrelation : ∀ id, correlationId? = some id → r.correlationId? = some id
  ownCorrelation : correlationId? = none → r.correlationId? = m.correlationId?

variable {σ : Type} (p : Pipeline σ) (m : Message) (call : Call) (st : σ)

theorem row_process :
    ∃ e o, Result.Row e o (p.process m call st).1.1.result := by
  rw [p.fst_process]
  exact ⟨_, _, Result.row_assemble _ _⟩

/-- A message that cannot be decoded has failed. -/
theorem failed_of_undecoded {failure : IngestFailure}
    (h : Payload.decode p.settings.ingest m.content = .error failure) :
    (p.process m call st).1.1.result.processingStatus = .failed :=
  (p.process_of_error m call st (Message.decode_eq_error_iff.mpr (Or.inl h))).processingStatus

variable (correlationId? : Option String) (createdAt : Timestamp)

theorem messageHash_project :
    (project m (p.process m call st).1.1 correlationId? createdAt).messageHash =
      ((Payload.decode p.settings.ingest m.content).toOption.map fingerprint).getD
        hashUnavailable := by
  rw [← p.fingerprint?_process m call st]
  rfl

theorem messageSize_project :
    (project m (p.process m call st).1.1 correlationId? createdAt).messageSize =
      ((Payload.decode p.settings.ingest m.content).toOption.map List.length).getD
        m.content.utf8ByteSize := by
  rw [← p.decodedLength?_process m call st]
  rfl

theorem unavailable_project_iff :
    (project m (p.process m call st).1.1 correlationId? createdAt).messageHash = hashUnavailable ↔
      ∃ failure, Payload.decode p.settings.ingest m.content = .error failure := by
  rw [messageHash_project]
  cases Payload.decode p.settings.ingest m.content with
  | error failure => exact iff_of_true rfl ⟨failure, rfl⟩
  | ok bytes => exact iff_of_false (fingerprint_ne_hashUnavailable bytes) (by simp)

/-- **The record of a processed message agrees with what processing came to**, over any store in any
state. -/
theorem coherent_project :
    (project m (p.process m call st).1.1 correlationId? createdAt).Coherent p.settings.ingest m
      (p.process m call st).1.1.result correlationId? := by
  obtain ⟨e, o, hrow⟩ := row_process p m call st
  exact {
    decoded := fun bytes h => by
      rw [messageHash_project, messageSize_project, h]
      exact ⟨rfl, rfl⟩
    undecoded := fun failure h => by
      rw [messageHash_project, messageSize_project, h]
      exact ⟨rfl, rfl⟩
    unavailable_iff := unavailable_project_iff p m call st correlationId? createdAt
    failed_of_unavailable := fun h => by
      obtain ⟨failure, hdecode⟩ :=
        (unavailable_project_iff p m call st correlationId? createdAt).mp h
      exact failed_of_undecoded p m call st hdecode
    errors_iff := ProcessingSummary.errors?_ofResult hrow
    errors := fun es h => (ProcessingSummary.errors?_eq_some_iff.mp h).1.symm
    identified := ProcessingSummary.valid_of_identified hrow
    identifiers := fun h => by
      obtain ⟨data, hdata⟩ := Option.isSome_iff_exists.mp (hrow.valid_iff_tradeData?.mp h)
      refine ⟨data, hdata, ?_⟩
      simp only [project, ProcessingSummary.ofResult, hdata, Option.bind_some, and_self]
    validationStatus := rfl
    processingStatus := rfl
    findings := rfl
    duplicateCheck := rfl
    explicitCorrelation := fun id h => by
      rw [h]
      rfl
    ownCorrelation := fun h => by
      rw [h]
      rfl }

end Record
end TradeIntake
