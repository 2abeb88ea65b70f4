import TradeIntake.Extraction
import TradeIntake.IngestFailure
import TradeIntake.Spelling

/-!
# Failures of processing

What stops a message short of a complete result. A failure belongs to the sender when the content
is malformed, and to the system otherwise; only the latter is worth another attempt.

Model of `ErrorClass` and `PipelineError` (`src/lib.rs`) and of `ValidationStatus`
(`src/result.rs`).
-/

namespace TradeIntake

/-- What validation comes to. -/
inductive ValidationStatus where
  | valid
  /-- Well formed, with errors of structure. -/
  | invalid
  /-- Not decodable or not well formed. -/
  | schemaError
  /-- Something failed that was not the sender's fault. -/
  | systemError
  deriving Repr, DecidableEq

/-- Validation statuses as words. -/
def ValidationStatus.spelling : Spelling ValidationStatus where
  all := [.valid, .invalid, .schemaError, .systemError]
  word
    | .valid => "VALID"
    | .invalid => "INVALID"
    | .schemaError => "SCHEMA_ERROR"
    | .systemError => "SYSTEM_ERROR"
  mem_all s := by cases s <;> decide
  word_injective s t h := by cases s <;> cases t <;> first | rfl | exact absurd h (by decide)

/-- Whose fault a failure is. -/
inductive FailureClass where
  | schema
  | system
  deriving Repr, DecidableEq

namespace FailureClass

/-- The status of a message that failed so. -/
def status : FailureClass → ValidationStatus
  | schema => .schemaError
  | system => .systemError

/-- Another attempt is worthwhile. -/
def isRetryable : FailureClass → Bool
  | schema => false
  | system => true

end FailureClass

/-- What stops a message short of a complete result. -/
inductive Failure where
  | ingest (failure : IngestFailure)
  | extraction (failure : ExtractionFailure)
  | internal (reason : String)
  deriving Repr, DecidableEq

namespace Failure

/-- Whose fault it is. -/
def failureClass : Failure → FailureClass
  | ingest _ => .schema
  | extraction _ | internal _ => .system

/-- The stable code of a failure. -/
def code : Failure → String
  | ingest failure => failure.code
  | extraction failure => failure.code
  | internal _ => "SYSTEM_ERROR"

/-- The wording of the failure behind it. -/
def cause? : Failure → Option String
  | ingest failure => some failure.message
  | extraction failure => some failure.message
  | internal _ => none

/-- The wording of a failure. -/
def message : Failure → String
  | ingest failure => "Failed to process FpML message: " ++ failure.message
  | extraction failure => "Failed to extract trade data: " ++ failure.message
  | internal reason => "internal pipeline failure: " ++ reason

/-- Another attempt is worthwhile. -/
def isRetryable (f : Failure) : Bool := f.failureClass.isRetryable

end Failure
end TradeIntake
