import TradeIntake.Settings.Dedup
import TradeIntake.Store

/-!
# Duplicate checks

A message is a duplicate when the store knows an earlier submission in the window with its id or
its fingerprint. The check never fails: when it is switched off, or the store fails or does not
answer in time, the message counts as no duplicate and a note says why.

Model of `crates/dedup/src/checker.rs`: `DuplicateCheckResult`, `DuplicateChecker` with `check` and
`remember`, and `window_start`.

* **`isDuplicate_check`**: a message is a duplicate exactly when the check names an earlier message.
* **`windowStart_eq`**: the window starts so long before now, or at the earliest timestamp.
-/

namespace TradeIntake

/-- The outcome of a duplicate check. -/
structure DuplicateCheck where
  isDuplicate : Bool
  originalMessageId? : Option String := none
  checkedAt : Timestamp
  /-- What was compared. -/
  criteriaUsed : List String
  /-- Why there was no completed lookup. -/
  note? : Option String := none
  deriving Repr, DecidableEq

namespace DuplicateCheck

/-- What is compared. -/
def criteria : List String := ["messageId", "messageHash"]

/-- The outcome for a lookup that found this. -/
def found (checkedAt : Timestamp) (earlier? : Option Submission) : DuplicateCheck where
  isDuplicate := earlier?.isSome
  originalMessageId? := earlier?.map (·.messageId)
  checkedAt := checkedAt
  criteriaUsed := criteria

/-- No duplicate, for want of a completed lookup. -/
def degraded (checkedAt : Timestamp) (note : String) : DuplicateCheck :=
  { found checkedAt none with note? := some note }

/-! ## JSON -/

/-- The names of the fields. -/
def fieldNames : List String :=
  ["isDuplicate", "originalMessageId", "checkedAt", "criteriaUsed", "note"]

/-- Read a check. -/
def ofJson? (v : Json) : Option DuplicateCheck :=
  match Json.fields? fieldNames v with
  | some [isDuplicate, originalMessageId, checkedAt, criteriaUsed, note] => do
    return {
      isDuplicate := ← Field.required Json.bool? isDuplicate
      originalMessageId? := ← Json.optional? Json.text? originalMessageId
      checkedAt := ← Field.required Json.timestamp? checkedAt
      criteriaUsed := ← Field.required (Json.list? Json.text?) criteriaUsed
      note? := ← Json.optional? Json.text? note }
  | _ => none

/-- The fields with their values. -/
def fields (c : DuplicateCheck) : List (String × Option Json) := [
  ("isDuplicate", some (.bool c.isDuplicate)),
  ("originalMessageId", c.originalMessageId?.map .string),
  ("checkedAt", some (.ofTimestamp c.checkedAt)),
  ("criteriaUsed", some (.array (c.criteriaUsed.map .string))),
  ("note", c.note?.map .string)]

/-- The check as JSON. -/
def toJson (c : DuplicateCheck) : Json := .record c.fields

end DuplicateCheck

/-- The start of a window that ends now; the earliest timestamp when it cannot be represented. -/
def windowStart (now : Timestamp) (windowSecs : Nat) : Timestamp :=
  (now.minusSeconds? windowSecs).getD .earliest

/-- A store and how it is asked. -/
structure DuplicateChecker (σ : Type) where
  settings : DedupSettings
  store : Store σ

namespace DuplicateChecker

variable {σ : Type}

/-- The checker that finds no duplicate. -/
def default : DuplicateChecker σ := ⟨{}, .never⟩

/-- The outcome for a reply of the store. -/
def conclude (c : DuplicateChecker σ) (checkedAt : Timestamp) :
    Reply (Option Submission) → DuplicateCheck
  | .answered earlier? => .found checkedAt earlier?
  | .failed failure => degrade failure
  | .noAnswer => degrade (.timedOut c.settings.lookupTimeoutMs)
where
  /-- No duplicate, because of a failure. -/
  degrade (failure : StoreFailure) : DuplicateCheck :=
    .degraded checkedAt (failure.message ++ "; treated as not a duplicate")

/-- How many milliseconds a request takes: no longer than the caller waits for it. -/
def pause (c : DuplicateChecker σ) : Nat :=
  if c.settings.enabled then min c.store.latency c.settings.lookupTimeoutMs else 0

/-- Check a message. The clock is read before the lookup and after it. -/
def check (c : DuplicateChecker σ) (messageId fingerprint : String)
    (lookedUpAt checkedAt : Timestamp) (st : σ) : DuplicateCheck × σ :=
  if c.settings.enabled then
    let since := windowStart lookedUpAt c.settings.windowSecs
    let (reply, st) :=
      c.store.find c.settings.lookupTimeoutMs ⟨messageId, fingerprint, since⟩ st
    (c.conclude checkedAt reply, st)
  else (.degraded checkedAt "duplicate check disabled", st)

/-- Have a processed message remembered. What the store replies makes no difference. -/
def remember (c : DuplicateChecker σ) (submission : Submission) (recordedAt : Timestamp) (st : σ) :
    σ :=
  if c.settings.enabled then
    let since := windowStart recordedAt c.settings.windowSecs
    (c.store.remember c.settings.lookupTimeoutMs ⟨submission, since⟩ st).2
  else st

theorem isDuplicate_check (c : DuplicateChecker σ) (messageId fingerprint : String)
    (lookedUpAt checkedAt : Timestamp) (st : σ) :
    let d := (c.check messageId fingerprint lookedUpAt checkedAt st).1
    d.isDuplicate = d.originalMessageId?.isSome := by
  have hf : ∀ o : Option Submission, (DuplicateCheck.found checkedAt o).isDuplicate =
      (DuplicateCheck.found checkedAt o).originalMessageId?.isSome := by
    intro o
    cases o <;> rfl
  unfold check
  split
  · dsimp only
    unfold conclude
    split
    · exact hf _
    · exact hf none
    · exact hf none
  · exact hf none

end DuplicateChecker

theorem windowStart_eq (now : Timestamp) (w : Nat) :
    windowStart now w =
      if w ≤ Timestamp.longestSpan ∧ Timestamp.firstSecond ≤ now.seconds - w then
        { now with seconds := now.seconds - w }
      else .earliest := by
  unfold windowStart Timestamp.minusSeconds?
  split <;> rfl

end TradeIntake
