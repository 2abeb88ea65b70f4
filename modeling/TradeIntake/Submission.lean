import TradeIntake.Json.Read

/-!
# Submissions

What the duplicate check knows of a message that was processed before: its id, the fingerprint of
its decoded content, and when it was received.

Model of `PriorSubmission` (`crates/dedup/src/store.rs`).
-/

namespace TradeIntake

/-- A message that was processed before. -/
structure Submission where
  messageId : String
  fingerprint : String
  receivedAt : Timestamp
  deriving Repr, DecidableEq

namespace Submission

/-- The submission shares the id or the fingerprint. -/
def matchesKey (s : Submission) (messageId fingerprint : String) : Bool :=
  s.messageId == messageId || s.fingerprint == fingerprint

/-- The names of the fields. -/
def fieldNames : List String := ["messageId", "fingerprint", "receivedAt"]

/-- Read a submission. -/
def ofJson? (v : Json) : Option Submission :=
  match Json.fields? fieldNames v with
  | some [messageId, fingerprint, receivedAt] => do
    return {
      messageId := ← Field.required Json.text? messageId
      fingerprint := ← Field.required Json.text? fingerprint
      receivedAt := ← Field.required Json.timestamp? receivedAt }
  | _ => none

/-- The fields with their values. -/
def fields (s : Submission) : List (String × Option Json) := [
  ("messageId", some (.string s.messageId)),
  ("fingerprint", some (.string s.fingerprint)),
  ("receivedAt", some (.ofTimestamp s.receivedAt))]

/-- The submission as JSON. -/
def toJson (s : Submission) : Json := .record s.fields

end Submission
end TradeIntake
