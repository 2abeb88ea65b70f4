import TradeIntake.Assembly

/-!
# The status table

Assembly is a table with four rows: there is no validated document, there is an error among the
findings, there is none and the data were extracted, or they were not. Every outcome of the stages
falls into one row, also one that the stages never produce, such as data next to an error among the
findings. A result agrees with itself because every row does.

* **`row_assemble`**: the result of an outcome is in its row.
* **`consistent_assemble`**: which statuses, errors and data go together, and with which outcomes.
-/

namespace TradeIntake

namespace FailureClass

/-- A failure is never a matter of structure. -/
theorem status_eq (c : FailureClass) :
    c.status = .schemaError ∧ c.isRetryable = false ∨
      c.status = .systemError ∧ c.isRetryable = true := by
  cases c with
  | schema => exact Or.inl ⟨rfl, rfl⟩
  | system => exact Or.inr ⟨rfl, rfl⟩

end FailureClass

namespace Result

/-! ## The rows -/

/-- What is told of a document in any row. -/
def reported (e : Envelope) (report : Report) (check? : Option DuplicateCheck) : Result :=
  { blank e with
    documentType? := report.documentType?
    findings := report.findings
    duplicateCheck? := check? }

/-- The failure of an extraction that gave no data. -/
def missingData : Option ExtractionFailure → Failure
  | some failure => .extraction failure
  | none => extractionMissing

/-- **The status table.** -/
inductive Row (e : Envelope) : Outcome → Result → Prop
  /-- There is no validated document. -/
  | failed (f : Failure) : Row e (.failed f) ((blank e).fail f)
  /-- Some finding is an error. What came of extraction makes no difference. -/
  | invalid {report : Report} {extraction : Option (Except ExtractionFailure TradeData)}
      {check? : Option DuplicateCheck} (h : report.hasErrors = true) :
      Row e (.checked report extraction check?)
        { reported e report check? with validationStatus := .invalid }
  /-- No finding is an error, and the data were extracted. -/
  | valid {report : Report} {data : TradeData} {check? : Option DuplicateCheck}
      (h : report.hasErrors = false) :
      Row e (.checked report (some (.ok data)) check?)
        { reported e report check? with tradeData? := some data }
  /-- No finding is an error, but there are no data. -/
  | unextracted {report : Report} (failure? : Option ExtractionFailure)
      {check? : Option DuplicateCheck} (h : report.hasErrors = false) :
      Row e (.checked report (failure?.map .error) check?)
        ((reported e report check?).fail (missingData failure?))

/-- **Every outcome has its row.** -/
theorem row_assemble (e : Envelope) (o : Outcome) : Row e o (assemble e o) := by
  cases o with
  | failed f => exact .failed f
  | checked report extraction check? =>
    change Row e _ (ofChecked (reported e report check?) report extraction)
    unfold ofChecked
    split
    · rename_i h
      exact .invalid h
    · rename_i h
      have h := Bool.eq_false_iff.mpr h
      rcases extraction with _ | failure | data
      · exact .unextracted none h
      · exact .unextracted (some failure) h
      · exact .valid h

variable {e : Envelope} {o : Outcome} {r : Result}

/-! ## Errors -/

/-- **A row fails or it does not**: it tells of one failure, whose class is its status, or of
none. -/
theorem Row.failed_or_processed (h : Row e o r) :
    (∃ f : Failure, r.processingStatus = .failed ∧ r.validationStatus = f.failureClass.status ∧
      r.errors = [.ofFailure r.processedAt f] ∧ r.tradeData? = none) ∨
    r.processingStatus = .processed ∧ r.errors = [] ∧
      (r.validationStatus = .invalid ∧ r.tradeData? = none ∨
        r.validationStatus = .valid ∧ r.tradeData?.isSome) := by
  cases h with
  | failed f => exact Or.inl ⟨f, rfl, rfl, rfl, rfl⟩
  | invalid h => exact Or.inr ⟨rfl, rfl, Or.inl ⟨rfl, rfl⟩⟩
  | valid h => exact Or.inr ⟨rfl, rfl, Or.inr ⟨rfl, rfl⟩⟩
  | unextracted failure? h => exact Or.inl ⟨_, rfl, rfl, rfl, rfl⟩

theorem failed_iff_length_errors (e : Envelope) (o : Outcome) :
    (assemble e o).processingStatus = .failed ↔ (assemble e o).errors.length = 1 := by
  rw [length_errors]
  split <;> simp [*]

theorem processed_iff_errors (e : Envelope) (o : Outcome) :
    (assemble e o).processingStatus = .processed ↔ (assemble e o).errors = [] := by
  rw [← List.length_eq_zero_iff, length_errors]
  cases (assemble e o).processingStatus <;> simp

theorem Row.failed_iff_validationStatus (h : Row e o r) :
    r.processingStatus = .failed ↔
      r.validationStatus = .schemaError ∨ r.validationStatus = .systemError := by
  rcases h.failed_or_processed with ⟨f, hs, hv, -⟩ | ⟨hs, -, ⟨hv, -⟩ | ⟨hv, -⟩⟩
  · rcases f.failureClass.status_eq with ⟨hc, -⟩ | ⟨hc, -⟩ <;> simp [hs, hv, hc]
  · simp [hs, hv]
  · simp [hs, hv]

theorem Row.of_mem_errors (h : Row e o r) {x : ProcessingError} (hx : x ∈ r.errors) :
    (x.retryable = true ↔ r.validationStatus = .systemError) ∧ x.timestamp = r.processedAt := by
  rcases h.failed_or_processed with ⟨f, -, hv, he, -⟩ | ⟨-, he, -⟩
  · rw [he] at hx
    obtain rfl := List.mem_singleton.mp hx
    refine ⟨?_, rfl⟩
    change f.failureClass.isRetryable = true ↔ _
    rcases f.failureClass.status_eq with ⟨hc, hr⟩ | ⟨hc, hr⟩ <;> simp [hv, hc, hr]
  · rw [he] at hx
    cases hx

/-- Nothing but the content of a message makes a schema error. -/
theorem Row.schemaError_iff (h : Row e o r) :
    r.validationStatus = .schemaError ↔ ∃ failure, o = .failed (.ingest failure) := by
  cases h with
  | failed f => cases f <;> simp [fail, Failure.failureClass, FailureClass.status]
  | invalid h => simp
  | valid h => simp [reported, blank]
  | unextracted failure? h =>
    cases failure? <;>
      simp [fail, missingData, extractionMissing, Failure.failureClass, FailureClass.status]

/-! ## Findings and data -/

theorem Row.valid_iff_tradeData? (h : Row e o r) :
    r.validationStatus = .valid ↔ r.tradeData?.isSome := by
  rcases h.failed_or_processed with ⟨f, -, hv, -, hd⟩ | ⟨-, -, ⟨hv, hd⟩ | ⟨hv, hd⟩⟩
  · rcases f.failureClass.status_eq with ⟨hc, -⟩ | ⟨hc, -⟩ <;> simp [hv, hc, hd]
  · simp [hv, hd]
  · simp [hv, hd]

/-- A document is invalid in the row of errors, and in no other one. -/
theorem Row.invalid_iff (h : Row e o r) : r.validationStatus = .invalid ↔
    ∃ report extraction check?, o = .checked report extraction check? ∧
      ∃ f ∈ report.findings, f.severity = .error := by
  simp only [← Report.hasErrors_iff]
  have hfail : ∀ f : Failure, f.failureClass.status ≠ .invalid := by
    intro f
    rcases f.failureClass.status_eq with ⟨hc, -⟩ | ⟨hc, -⟩ <;> simp [hc]
  cases h with
  | failed f => exact iff_of_false (hfail f) (by simp)
  | invalid h => exact iff_of_true rfl ⟨_, _, _, rfl, h⟩
  | valid h => exact iff_of_false (by simp [reported, blank]) (by simp [h])
  | unextracted failure? h => exact iff_of_false (hfail _) (by simp [h])

/-- The data are those that were extracted from a document without errors. -/
theorem Row.tradeData?_eq_some_iff (h : Row e o r) (data : TradeData) :
    r.tradeData? = some data ↔ ∃ report check?, o = .checked report (some (.ok data)) check? ∧
      ∀ f ∈ report.findings, f.severity ≠ .error := by
  simp only [← Report.hasErrors_eq_false_iff]
  cases h with
  | failed f => simp [fail, blank]
  | invalid h => simp [reported, blank, h]
  | valid h =>
    constructor
    · intro hd
      cases hd
      exact ⟨_, _, rfl, h⟩
    · rintro ⟨_, _, ho, -⟩
      cases ho
      rfl
  | unextracted failure? h => cases failure? <;> simp [fail, reported, blank]

/-- What is told of the document is what was found, in every row. -/
theorem Row.of_checked {report : Report} {extraction : Option (Except ExtractionFailure TradeData)}
    {check? : Option DuplicateCheck} (h : Row e (.checked report extraction check?) r) :
    r.findings = report.findings ∧ r.documentType? = report.documentType? ∧
      r.duplicateCheck? = check? := by
  cases h <;> exact ⟨rfl, rfl, rfl⟩

theorem Row.of_failed {f : Failure} (h : Row e (.failed f) r) :
    r.findings = [] ∧ r.documentType? = none ∧ r.duplicateCheck? = none := by
  cases h
  exact ⟨rfl, rfl, rfl⟩

/-! ## The result as a whole -/

/-- **A result agrees with itself and with the outcome** that it was assembled from. -/
structure Consistent (e : Envelope) (o : Outcome) (r : Result) : Prop where
  failed_iff_error : r.processingStatus = .failed ↔ r.errors.length = 1
  processed_iff_noError : r.processingStatus = .processed ↔ r.errors = []
  failed_iff_status : r.processingStatus = .failed ↔
    r.validationStatus = .schemaError ∨ r.validationStatus = .systemError
  retryable_iff : ∀ x ∈ r.errors, x.retryable = true ↔ r.validationStatus = .systemError
  timestamp : ∀ x ∈ r.errors, x.timestamp = r.processedAt
  processedAt : r.processedAt = e.processedAt
  schemaError_iff : r.validationStatus = .schemaError ↔ ∃ failure, o = .failed (.ingest failure)
  invalid_iff : r.validationStatus = .invalid ↔
    ∃ report extraction check?, o = .checked report extraction check? ∧
      ∃ f ∈ report.findings, f.severity = .error
  valid_iff : r.validationStatus = .valid ↔ r.tradeData?.isSome
  noError_of_valid : r.validationStatus = .valid → ∀ f ∈ r.findings, f.severity ≠ .error
  tradeData : ∀ data, r.tradeData? = some data ↔
    ∃ report check?, o = .checked report (some (.ok data)) check? ∧
      ∀ f ∈ report.findings, f.severity ≠ .error
  checked : ∀ report extraction check?, o = .checked report extraction check? →
    r.findings = report.findings ∧ r.documentType? = report.documentType? ∧
      r.duplicateCheck? = check?
  failed : ∀ f, o = .failed f →
    r.findings = [] ∧ r.documentType? = none ∧ r.duplicateCheck? = none

/-- A valid result tells of a document without errors. -/
theorem Row.noError_of_valid (h : Row e o r) (hv : r.validationStatus = .valid) :
    ∀ f ∈ r.findings, f.severity ≠ .error := by
  obtain ⟨data, hd⟩ := Option.isSome_iff_exists.mp (h.valid_iff_tradeData?.mp hv)
  obtain ⟨report, check?, rfl, hclean⟩ := (h.tradeData?_eq_some_iff data).mp hd
  rwa [h.of_checked.1]

theorem Row.processedAt_eq (h : Row e o r) : r.processedAt = e.processedAt := by
  cases h <;> rfl

/-- **Every assembled result is consistent**, whatever outcome it was assembled from. -/
theorem consistent_assemble (e : Envelope) (o : Outcome) : Consistent e o (assemble e o) := by
  have h := row_assemble e o
  exact {
    failed_iff_error := failed_iff_length_errors e o
    processed_iff_noError := processed_iff_errors e o
    failed_iff_status := h.failed_iff_validationStatus
    retryable_iff := fun x hx => (h.of_mem_errors hx).1
    timestamp := fun x hx => (h.of_mem_errors hx).2
    processedAt := h.processedAt_eq
    schemaError_iff := h.schemaError_iff
    invalid_iff := h.invalid_iff
    valid_iff := h.valid_iff_tradeData?
    noError_of_valid := h.noError_of_valid
    tradeData := h.tradeData?_eq_some_iff
    checked := fun report extraction check? ho => by
      subst ho
      exact h.of_checked
    failed := fun f ho => by
      subst ho
      exact h.of_failed }

end Result
end TradeIntake
