import TradeIntake.Message
import TradeIntake.Pipeline

/-!
# Records

What is kept of a processed message: the message itself, what was learned of its content, and what
the sender was told. A message whose content could not be decoded has a word in place of the hash,
and the size of its text in place of the size of its content.

Model of `src/entity.rs`: `TradeConfirmationEntity` with `project`, `ProcessingResults` as
`ProcessingSummary`, and `EntityMetadata` as `RecordMetadata`.
-/

namespace TradeIntake

/-- Identifiers from the document, and what went wrong. -/
structure ProcessingSummary where
  tradeId? : Option String := none
  uti? : Option String := none
  usi? : Option String := none
  /-- None when nothing went wrong. -/
  errors? : Option (List ProcessingError) := none
  deriving Repr, DecidableEq

namespace ProcessingSummary

/-- The summary of a result. -/
def ofResult (r : Result) : ProcessingSummary where
  tradeId? := r.tradeData?.bind (·.tradeId?)
  uti? := r.tradeData?.bind (·.uti?)
  usi? := r.tradeData?.bind (·.usi?)
  errors? := if r.errors.isEmpty then none else some r.errors

/-- The names of the fields. -/
def fieldNames : List String :=
  ["extractedTradeId", "extractedUti", "extractedUsi", "processingErrors"]

/-- Read a summary. -/
def ofJson? (v : Json) : Option ProcessingSummary :=
  match Json.fields? fieldNames v with
  | some [tradeId, uti, usi, errors] => do
    return {
      tradeId? := ← Json.optional? Json.text? tradeId
      uti? := ← Json.optional? Json.text? uti
      usi? := ← Json.optional? Json.text? usi
      errors? := ← Json.optional? (Json.list? ProcessingError.ofJson?) errors }
  | _ => none

/-- The fields with their values. -/
def fields (s : ProcessingSummary) : List (String × Option Json) := [
  ("extractedTradeId", s.tradeId?.map .string),
  ("extractedUti", s.uti?.map .string),
  ("extractedUsi", s.usi?.map .string),
  ("processingErrors", s.errors?.map fun es => .array (es.map ProcessingError.toJson))]

/-- The summary as JSON. -/
def toJson (s : ProcessingSummary) : Json := .record s.fields

end ProcessingSummary

/-- What the place of keeping needs to know of a record. -/
structure RecordMetadata where
  entityType : String
  entityVersion : String
  createdAt : Timestamp
  workflowState : String
  deriving Repr, DecidableEq

namespace RecordMetadata

/-- The metadata of a record that has just been made. -/
def received (createdAt : Timestamp) : RecordMetadata :=
  ⟨"TradeConfirmation", "1000", createdAt, "received"⟩

/-- The names of the fields. -/
def fieldNames : List String :=
  ["entityType", "entityVersion", "createdTimestamp", "workflowState"]

/-- Read metadata. -/
def ofJson? (v : Json) : Option RecordMetadata :=
  match Json.fields? fieldNames v with
  | some [entityType, entityVersion, createdAt, workflowState] => do
    return {
      entityType := ← Field.required Json.text? entityType
      entityVersion := ← Field.required Json.text? entityVersion
      createdAt := ← Field.required Json.timestamp? createdAt
      workflowState := ← Field.required Json.text? workflowState }
  | _ => none

/-- The fields with their values. -/
def fields (m : RecordMetadata) : List (String × Option Json) := [
  ("entityType", some (.string m.entityType)),
  ("entityVersion", some (.string m.entityVersion)),
  ("createdTimestamp", some (.ofTimestamp m.createdAt)),
  ("workflowState", some (.string m.workflowState))]

/-- The metadata as JSON. -/
def toJson (m : RecordMetadata) : Json := .record m.fields

end RecordMetadata

/-- What is kept of a processed message. -/
structure Record where
  messageId : String
  messageType : String
  fpmlVersion : String
  senderId : String
  senderLei : String
  receiverId? : Option String := none
  receiverLei? : Option String := none
  receivedAt : Timestamp
  messageAt : Timestamp
  content : String
  messageSize : Nat
  messageHash : String
  validationStatus : ValidationStatus
  processingStatus : ProcessingStatus
  findings : List Finding := []
  summary : ProcessingSummary
  correlationId? : Option String := none
  parentMessageId? : Option String := none
  businessDate? : Option String := none
  flags : ProcessingFlags
  duplicateCheck? : Option DuplicateCheck := none
  metadata : RecordMetadata
  deriving Repr, DecidableEq

namespace Record

/-- What stands for the hash of content that could not be decoded. -/
def hashUnavailable : String := "hash_calculation_failed"

/-- The record of a processed message. A correlation id from outside goes before the message's
own. -/
def project (m : Message) (p : Processed) (correlationId? : Option String)
    (createdAt : Timestamp) : Record where
  messageId := m.messageId
  messageType := m.messageType
  fpmlVersion := m.fpmlVersion
  senderId := m.senderLei
  senderLei := m.senderLei
  receiverId? := m.receiverLei?
  receiverLei? := m.receiverLei?
  receivedAt := p.result.receivedAt
  messageAt := p.result.receivedAt
  content := m.content
  messageSize := p.decodedLength?.getD m.content.utf8ByteSize
  messageHash := p.fingerprint?.getD hashUnavailable
  validationStatus := p.result.validationStatus
  processingStatus := p.result.processingStatus
  findings := p.result.findings
  summary := .ofResult p.result
  correlationId? := correlationId?.or m.correlationId?
  parentMessageId? := m.parentMessageId?
  businessDate? := m.businessDate?
  flags := m.flags
  duplicateCheck? := p.result.duplicateCheck?
  metadata := .received createdAt

/-- The names of the fields. -/
def fieldNames : List String :=
  ["messageId", "messageType", "fpmlVersion", "senderId", "senderLei", "receiverId", "receiverLei",
    "receivedTimestamp", "messageTimestamp", "fpmlContent", "messageSize", "messageHash",
    "validationStatus", "processingStatus", "validationResults", "processingResults",
    "correlationId", "parentMessageId", "businessDate", "processingFlags",
    "duplicateCheckResults", "metadata"]

/-- Read a record. -/
def ofJson? (v : Json) : Option Record :=
  match Json.fields? fieldNames v with
  | some [messageId, messageType, fpmlVersion, senderId, senderLei, receiverId, receiverLei,
      receivedAt, messageAt, content, messageSize, messageHash, validationStatus,
      processingStatus, findings, summary, correlationId, parentMessageId, businessDate, flags,
      duplicateCheck, metadata] => do
    return {
      messageId := ← Field.required Json.text? messageId
      messageType := ← Field.required Json.text? messageType
      fpmlVersion := ← Field.required Json.text? fpmlVersion
      senderId := ← Field.required Json.text? senderId
      senderLei := ← Field.required Json.text? senderLei
      receiverId? := ← Json.optional? Json.text? receiverId
      receiverLei? := ← Json.optional? Json.text? receiverLei
      receivedAt := ← Field.required Json.timestamp? receivedAt
      messageAt := ← Field.required Json.timestamp? messageAt
      content := ← Field.required Json.text? content
      messageSize := ← Field.required (Json.word? 64) messageSize
      messageHash := ← Field.required Json.text? messageHash
      validationStatus :=
        ← Field.required (Json.spelled? ValidationStatus.spelling) validationStatus
      processingStatus :=
        ← Field.required (Json.spelled? ProcessingStatus.spelling) processingStatus
      findings := ← Json.listOrEmpty? Finding.ofJson? findings
      summary := ← Field.required ProcessingSummary.ofJson? summary
      correlationId? := ← Json.optional? Json.text? correlationId
      parentMessageId? := ← Json.optional? Json.text? parentMessageId
      businessDate? := ← Json.optional? Json.text? businessDate
      flags := ← Field.required ProcessingFlags.ofJson? flags
      duplicateCheck? := ← Json.optional? DuplicateCheck.ofJson? duplicateCheck
      metadata := ← Field.required RecordMetadata.ofJson? metadata }
  | _ => none

/-- The fields with their values. -/
def fields (r : Record) : List (String × Option Json) := [
  ("messageId", some (.string r.messageId)),
  ("messageType", some (.string r.messageType)),
  ("fpmlVersion", some (.string r.fpmlVersion)),
  ("senderId", some (.string r.senderId)),
  ("senderLei", some (.string r.senderLei)),
  ("receiverId", r.receiverId?.map .string),
  ("receiverLei", r.receiverLei?.map .string),
  ("receivedTimestamp", some (.ofTimestamp r.receivedAt)),
  ("messageTimestamp", some (.ofTimestamp r.messageAt)),
  ("fpmlContent", some (.string r.content)),
  ("messageSize", some (.ofNat r.messageSize)),
  ("messageHash", some (.string r.messageHash)),
  ("validationStatus", some (.ofSpelling ValidationStatus.spelling r.validationStatus)),
  ("processingStatus", some (.ofSpelling ProcessingStatus.spelling r.processingStatus)),
  ("validationResults", some (.array (r.findings.map Finding.toJson))),
  ("processingResults", some r.summary.toJson),
  ("correlationId", r.correlationId?.map .string),
  ("parentMessageId", r.parentMessageId?.map .string),
  ("businessDate", r.businessDate?.map .string),
  ("processingFlags", some r.flags.toJson),
  ("duplicateCheckResults", r.duplicateCheck?.map DuplicateCheck.toJson),
  ("metadata", some r.metadata.toJson)]

/-- The record as JSON. -/
def toJson (r : Record) : Json := .record r.fields

end Record
end TradeIntake
