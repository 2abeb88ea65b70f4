import TradeIntake.Json.Read

/-!
# Messages

A message as a sender submits it: who sends what to whom, the document as base64 text, and how the
sender wants it handled.

Model of `IncomingMessage`, `ProcessingFlags` and `Priority` (`crates/ingest/src/types.rs`).

* **`ofJson?_toJson`**: a message reads back from its JSON.
-/

namespace TradeIntake

/-- How urgent a sender says a message is. -/
inductive Priority where
  | high
  | normal
  | low
  deriving Repr, DecidableEq

/-- Priorities as words. -/
def Priority.spelling : Spelling Priority where
  all := [.high, .normal, .low]
  word
    | .high => "HIGH"
    | .normal => "NORMAL"
    | .low => "LOW"
  mem_all p := by cases p <;> decide
  word_injective p q h := by cases p <;> cases q <;> first | rfl | exact absurd h (by decide)

/-- How a sender wants a message handled. -/
structure ProcessingFlags where
  /-- Leave out the duplicate check. -/
  skipDuplicateCheck : Bool := false
  /-- Kept with the record; processing takes no notice of it. -/
  forceProcessing : Bool := false
  /-- A warning counts as an error. -/
  strictValidation : Bool := false
  priority : Priority := .normal
  deriving Repr, DecidableEq

namespace ProcessingFlags

/-- The names of the fields. -/
def fieldNames : List String :=
  ["skipDuplicateCheck", "forceProcessing", "strictValidation", "priority"]

/-- Read flags; one that is left out has its default. -/
def ofJson? (v : Json) : Option ProcessingFlags :=
  match Json.fields? fieldNames v with
  | some [skipDuplicateCheck, forceProcessing, strictValidation, priority] => do
    let d : ProcessingFlags := {}
    return {
      skipDuplicateCheck := ← Field.withDefault d.skipDuplicateCheck Json.bool? skipDuplicateCheck
      forceProcessing := ← Field.withDefault d.forceProcessing Json.bool? forceProcessing
      strictValidation := ← Field.withDefault d.strictValidation Json.bool? strictValidation
      priority := ← Field.withDefault d.priority (Json.spelled? Priority.spelling) priority }
  | _ => none

/-- The fields with their values. -/
def fields (f : ProcessingFlags) : List (String × Option Json) := [
  ("skipDuplicateCheck", some (.bool f.skipDuplicateCheck)),
  ("forceProcessing", some (.bool f.forceProcessing)),
  ("strictValidation", some (.bool f.strictValidation)),
  ("priority", some (.ofSpelling Priority.spelling f.priority))]

/-- The flags as JSON. -/
def toJson (f : ProcessingFlags) : Json := .record f.fields

theorem ofJson?_toJson (f : ProcessingFlags) : ofJson? f.toJson = some f := by
  have h : Json.fields? fieldNames f.toJson = some (f.fields.map (·.2)) :=
    Json.fields?_record rfl (by decide)
  simp [ofJson?, h, fields]

end ProcessingFlags

/-- A message. -/
structure Message where
  messageId : String
  messageType : String
  fpmlVersion : String
  senderLei : String
  receiverLei? : Option String := none
  /-- The document as base64 text. -/
  content : String
  correlationId? : Option String := none
  parentMessageId? : Option String := none
  businessDate? : Option String := none
  flags : ProcessingFlags := {}
  deriving Repr, DecidableEq

namespace Message

/-- The names of the fields. -/
def fieldNames : List String :=
  ["messageId", "messageType", "fpmlVersion", "senderLei", "receiverLei", "fpmlContent",
    "correlationId", "parentMessageId", "businessDate", "processingFlags"]

/-- Read a message. -/
def ofJson? (v : Json) : Option Message :=
  match Json.fields? fieldNames v with
  | some [messageId, messageType, fpmlVersion, senderLei, receiverLei, content, correlationId,
      parentMessageId, businessDate, flags] => do
    return {
      messageId := ← Field.required Json.text? messageId
      messageType := ← Field.required Json.text? messageType
      fpmlVersion := ← Field.required Json.text? fpmlVersion
      senderLei := ← Field.required Json.text? senderLei
      receiverLei? := ← Json.optional? Json.text? receiverLei
      content := ← Field.required Json.text? content
      correlationId? := ← Json.optional? Json.text? correlationId
      parentMessageId? := ← Json.optional? Json.text? parentMessageId
      businessDate? := ← Json.optional? Json.text? businessDate
      flags := ← Field.withDefault {} ProcessingFlags.ofJson? flags }
  | _ => none

/-- The fields with their values. -/
def fields (m : Message) : List (String × Option Json) := [
  ("messageId", some (.string m.messageId)),
  ("messageType", some (.string m.messageType)),
  ("fpmlVersion", some (.string m.fpmlVersion)),
  ("senderLei", some (.string m.senderLei)),
  ("receiverLei", m.receiverLei?.map .string),
  ("fpmlContent", some (.string m.content)),
  ("correlationId", m.correlationId?.map .string),
  ("parentMessageId", m.parentMessageId?.map .string),
  ("businessDate", m.businessDate?.map .string),
  ("processingFlags", some m.flags.toJson)]

/-- The message as JSON. -/
def toJson (m : Message) : Json := .record m.fields

theorem ofJson?_toJson (m : Message) : ofJson? m.toJson = some m := by
  have h : Json.fields? fieldNames m.toJson = some (m.fields.map (·.2)) :=
    Json.fields?_record rfl (by decide)
  simp [ofJson?, h, fields, ProcessingFlags.ofJson?_toJson]

end Message
end TradeIntake
