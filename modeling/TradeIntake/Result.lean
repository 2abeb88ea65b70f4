import TradeIntake.DocumentType
import TradeIntake.DuplicateCheck
import TradeIntake.Failure
import TradeIntake.Finding
import TradeIntake.TradeData

/-!
# Results

What a sender is told about a message: whether it was processed, what validation came to, what was
found and extracted, what went wrong, whether it is a duplicate, and where to ask again.

Model of `src/result.rs`: `ProcessingResult` with `is_processed` and `is_duplicate`,
`ProcessingStatus`, `ProcessingError` and `ResponseLinks`.
-/

namespace TradeIntake

/-- Whether processing came to its end. -/
inductive ProcessingStatus where
  | processed
  | failed
  deriving Repr, DecidableEq

/-- Processing statuses as words. -/
def ProcessingStatus.spelling : Spelling ProcessingStatus where
  all := [.processed, .failed]
  word
    | .processed => "PROCESSED"
    | .failed => "FAILED"
  mem_all s := by cases s <;> decide
  word_injective s t h := by cases s <;> cases t <;> first | rfl | exact absurd h (by decide)

/-- A failure as a sender is told of it. -/
structure ProcessingError where
  code : String
  message : String
  timestamp : Timestamp
  retryable : Bool
  deriving Repr, DecidableEq

namespace ProcessingError

/-- Tell of a failure. -/
def ofFailure (timestamp : Timestamp) (f : Failure) : ProcessingError :=
  ⟨f.code, f.message, timestamp, f.isRetryable⟩

/-- The names of the fields. -/
def fieldNames : List String := ["errorCode", "errorMessage", "timestamp", "retryable"]

/-- Read an error. -/
def ofJson? (v : Json) : Option ProcessingError :=
  match Json.fields? fieldNames v with
  | some [code, message, timestamp, retryable] => do
    return {
      code := ← Field.required Json.text? code
      message := ← Field.required Json.text? message
      timestamp := ← Field.required Json.timestamp? timestamp
      retryable := ← Field.required Json.bool? retryable }
  | _ => none

/-- The fields with their values. -/
def fields (e : ProcessingError) : List (String × Option Json) := [
  ("errorCode", some (.string e.code)),
  ("errorMessage", some (.string e.message)),
  ("timestamp", some (.ofTimestamp e.timestamp)),
  ("retryable", some (.bool e.retryable))]

/-- The error as JSON. -/
def toJson (e : ProcessingError) : Json := .record e.fields

end ProcessingError

/-- Where to ask again. -/
structure Links where
  self : String
  status : String
  deriving Repr, DecidableEq

namespace Links

/-- The links of one processing. -/
def ofProcessingId (id : String) : Links :=
  let self := "/api/v1/trade-confirmations/" ++ id
  ⟨self, self ++ "/status"⟩

/-- The names of the fields. -/
def fieldNames : List String := ["self", "status"]

/-- Read links. -/
def ofJson? (v : Json) : Option Links :=
  match Json.fields? fieldNames v with
  | some [self, status] => do
    return {
      self := ← Field.required Json.text? self
      status := ← Field.required Json.text? status }
  | _ => none

/-- The fields with their values. -/
def fields (l : Links) : List (String × Option Json) :=
  [("self", some (.string l.self)), ("status", some (.string l.status))]

/-- The links as JSON. -/
def toJson (l : Links) : Json := .record l.fields

theorem ofJson?_toJson (l : Links) : ofJson? l.toJson = some l := by
  have h : Json.fields? fieldNames l.toJson = some (l.fields.map (·.2)) :=
    Json.fields?_record rfl (by decide)
  simp [ofJson?, h, fields]

end Links

/-- What a sender is told about a message. -/
structure Result where
  messageId : String
  processingId : String
  processingStatus : ProcessingStatus
  validationStatus : ValidationStatus
  receivedAt : Timestamp
  processedAt : Timestamp
  documentType? : Option DocumentType := none
  findings : List Finding := []
  tradeData? : Option TradeData := none
  errors : List ProcessingError := []
  duplicateCheck? : Option DuplicateCheck := none
  links : Links
  deriving Repr, DecidableEq

namespace Result

/-- Processing came to its end. -/
def isProcessed (r : Result) : Bool :=
  r.processingStatus == .processed

/-- The message was found to be a duplicate. -/
def isDuplicate (r : Result) : Bool :=
  r.duplicateCheck?.any (·.isDuplicate)

/-- The names of the fields. -/
def fieldNames : List String :=
  ["messageId", "processingId", "processingStatus", "validationStatus", "receivedTimestamp",
    "processedTimestamp", "documentType", "validationResults", "extractedTradeData",
    "processingErrors", "duplicateCheckResults", "links"]

/-- Read a result. -/
def ofJson? (v : Json) : Option Result :=
  match Json.fields? fieldNames v with
  | some [messageId, processingId, processingStatus, validationStatus, receivedAt, processedAt,
      documentType, findings, tradeData, errors, duplicateCheck, links] => do
    return {
      messageId := ← Field.required Json.text? messageId
      processingId := ← Field.required Json.text? processingId
      processingStatus :=
        ← Field.required (Json.spelled? ProcessingStatus.spelling) processingStatus
      validationStatus :=
        ← Field.required (Json.spelled? ValidationStatus.spelling) validationStatus
      receivedAt := ← Field.required Json.timestamp? receivedAt
      processedAt := ← Field.required Json.timestamp? processedAt
      documentType? := ← Json.optional? (Json.spelled? DocumentType.spelling) documentType
      findings := ← Json.listOrEmpty? Finding.ofJson? findings
      tradeData? := ← Json.optional? TradeData.ofJson? tradeData
      errors := ← Json.listOrEmpty? ProcessingError.ofJson? errors
      duplicateCheck? := ← Json.optional? DuplicateCheck.ofJson? duplicateCheck
      links := ← Field.required Links.ofJson? links }
  | _ => none

/-- The fields with their values. -/
def fields (r : Result) : List (String × Option Json) := [
  ("messageId", some (.string r.messageId)),
  ("processingId", some (.string r.processingId)),
  ("processingStatus", some (.ofSpelling ProcessingStatus.spelling r.processingStatus)),
  ("validationStatus", some (.ofSpelling ValidationStatus.spelling r.validationStatus)),
  ("receivedTimestamp", some (.ofTimestamp r.receivedAt)),
  ("processedTimestamp", some (.ofTimestamp r.processedAt)),
  ("documentType", r.documentType?.map (.ofSpelling DocumentType.spelling)),
  ("validationResults", some (.array (r.findings.map Finding.toJson))),
  ("extractedTradeData", r.tradeData?.map TradeData.toJson),
  ("processingErrors", some (.array (r.errors.map ProcessingError.toJson))),
  ("duplicateCheckResults", r.duplicateCheck?.map DuplicateCheck.toJson),
  ("links", some r.links.toJson)]

/-- The result as JSON. -/
def toJson (r : Result) : Json := .record r.fields

end Result
end TradeIntake
