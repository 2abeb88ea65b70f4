import TradeIntake.Result
import TradeIntake.Validation

/-!
# Assembling results

What the stages produced becomes one result. Statuses follow from it: a failure of decoding or
parsing is a schema error, an error among the findings makes the message invalid, extracted data
makes it valid, and anything else is a system error. A message that failed carries one error.

Model of `src/assemble.rs`: `StageOutcome` is `Outcome`, and `assemble` and `fail` have their names.

* **`length_errors`**: a result carries one error when it failed and none otherwise.
-/

namespace TradeIntake

/-- Which message, under which id, received and processed when. -/
structure Envelope where
  messageId : String
  processingId : String
  receivedAt : Timestamp
  processedAt : Timestamp
  deriving Repr, DecidableEq

/-- What the stages produced. -/
inductive Outcome where
  /-- There is no validated document. -/
  | failed (failure : Failure)
  /-- There is one. Extraction may not have run, and the duplicate check may have been left out. -/
  | checked (report : Report) (extraction : Option (Except ExtractionFailure TradeData))
      (duplicateCheck? : Option DuplicateCheck)

namespace Result

/-- A processed and valid message of which nothing else is known. -/
def blank (e : Envelope) : Result where
  messageId := e.messageId
  processingId := e.processingId
  processingStatus := .processed
  validationStatus := .valid
  receivedAt := e.receivedAt
  processedAt := e.processedAt
  links := .ofProcessingId e.processingId

/-- The result of a message that failed after all. -/
def fail (f : Failure) (r : Result) : Result :=
  { r with
    processingStatus := .failed
    validationStatus := f.failureClass.status
    errors := r.errors ++ [.ofFailure r.processedAt f] }

/-- Extraction did not run although nothing kept it from running. -/
def extractionMissing : Failure :=
  .internal "extraction did not run for a document without errors"

/-- The result of a message whose document was checked. -/
def ofChecked (r : Result) (report : Report)
    (extraction : Option (Except ExtractionFailure TradeData)) : Result :=
  if report.hasErrors then { r with validationStatus := .invalid }
  else match extraction with
    | some (.ok data) => { r with tradeData? := some data }
    | some (.error failure) => r.fail (.extraction failure)
    | none => r.fail extractionMissing

/-- The result of what the stages produced. -/
def assemble (e : Envelope) : Outcome → Result
  | .failed failure => (blank e).fail failure
  | .checked report extraction duplicateCheck? =>
    ofChecked
      { blank e with
        documentType? := report.documentType?
        findings := report.findings
        duplicateCheck? := duplicateCheck? }
      report extraction

theorem length_errors (e : Envelope) (o : Outcome) :
    (assemble e o).errors.length =
      if (assemble e o).processingStatus = .failed then 1 else 0 := by
  cases o with
  | failed f => rfl
  | checked report extraction check =>
    by_cases h : report.hasErrors
    · simp [assemble, ofChecked, h, blank]
    · rcases extraction with _ | failure | data <;> simp [assemble, ofChecked, h, blank, fail]

end Result
end TradeIntake
