/-!
# Failures of decoding and parsing

Why content does not become a document. Every such failure lies in the input, so none is worth
another attempt.

Model of `IngestError` (`crates/ingest/src/error.rs`) with its messages, `error_code` and
`is_retryable`.
-/

namespace TradeIntake

/-- Why content does not become a document. -/
inductive IngestFailure where
  /-- The content is not base64. -/
  | badEncoding (reason : String)
  /-- The content is blank. -/
  | emptyPayload
  | payloadTooLarge (size limit : Nat)
  /-- The content is not UTF-8 or not a document. -/
  | malformed (reason : String)
  | tooDeep (limit : Nat)
  deriving Repr, DecidableEq

namespace IngestFailure

/-- The wording of a failure. -/
def message : IngestFailure → String
  | badEncoding reason => "invalid base64 encoded FpML content: " ++ reason
  | emptyPayload => "FpML content is empty"
  | payloadTooLarge size limit => s!"FpML payload of {size} bytes exceeds limit of {limit} bytes"
  | malformed reason => "malformed FpML XML: " ++ reason
  | tooDeep limit => s!"FpML element nesting exceeds depth limit of {limit}"

/-- The stable code of a failure. -/
def code : IngestFailure → String
  | badEncoding _ | emptyPayload => "DECODE_ERROR"
  | payloadTooLarge .. => "PAYLOAD_TOO_LARGE"
  | malformed _ | tooDeep _ => "PARSE_ERROR"

/-- Another attempt with the same content is worthwhile. -/
def isRetryable : IngestFailure → Bool := fun _ => false

end IngestFailure
end TradeIntake
