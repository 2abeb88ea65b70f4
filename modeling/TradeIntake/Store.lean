import TradeIntake.Submission

/-!
# Stores of submissions

A store answers two requests: find the earliest submission in the window that shares an id or a
fingerprint, and remember a submission. It may fail, or not answer within the patience of the
caller, and then the caller goes on without an answer.

Some stores need no memory of their own: one that never finds anything, one that always fails, and
one that takes some time before another store is asked. A request to the last that is given up
before that time is over never reaches the other store.

Model of `DuplicateStore` with `find` and `remember`, of `DedupError` and of `NeverDuplicate`
(`crates/dedup/src/store.rs`). The stores that fail or are slow are like those of the tests in
`crates/dedup/src/checker.rs`.

* **`find_delayed`**, **`remember_delayed`**: a delay hides the inner store or does nothing.
-/

namespace TradeIntake

/-- Why a store did not do what it was asked. -/
inductive StoreFailure where
  | unavailable (reason : String)
  | timedOut (ms : Nat)
  deriving Repr, DecidableEq

/-- The wording of a failure. -/
def StoreFailure.message : StoreFailure → String
  | .unavailable reason => "duplicate store unavailable: " ++ reason
  | .timedOut ms => s!"duplicate lookup timed out after {ms} ms"

/-- What a caller gets for a request. -/
inductive Reply (α : Type) where
  | answered (value : α)
  | failed (failure : StoreFailure)
  /-- The caller's patience ended first. -/
  | noAnswer
  deriving Repr, DecidableEq

/-- A request for an earlier submission with the same id or fingerprint. -/
structure Lookup where
  messageId : String
  fingerprint : String
  /-- What was received before no longer counts. -/
  since : Timestamp
  deriving Repr, DecidableEq

/-- A request to keep a submission. -/
structure Sighting where
  submission : Submission
  /-- What was received before no longer counts. -/
  since : Timestamp
  deriving Repr, DecidableEq

/-- A store with states of type `σ`. Times are in milliseconds. -/
structure Store (σ : Type) where
  /-- How long it takes before a request does anything. -/
  latency : Nat := 0
  find : (patience : Nat) → Lookup → σ → Reply (Option Submission) × σ
  remember : (patience : Nat) → Sighting → σ → Reply Unit × σ

namespace Store

variable {σ : Type}

/-- The store that has never seen anything. -/
def never : Store σ where
  find _ _ st := (.answered none, st)
  remember _ _ st := (.answered (), st)

/-- The store that always fails. -/
def unavailable (reason : String) : Store σ where
  find _ _ st := (.failed (.unavailable reason), st)
  remember _ _ st := (.failed (.unavailable reason), st)

/-- A store that lets `ms` milliseconds pass before it does anything. -/
def delayed (inner : Store σ) (ms : Nat) : Store σ where
  latency := ms + inner.latency
  find patience q st :=
    if patience < ms then (.noAnswer, st) else inner.find (patience - ms) q st
  remember patience s st :=
    if patience < ms then (.noAnswer, st) else inner.remember (patience - ms) s st

theorem find_delayed (ms patience : Nat) (inner : Store σ) (q : Lookup) (st : σ) :
    (inner.delayed ms).find patience q st =
      if patience < ms then (.noAnswer, st) else inner.find (patience - ms) q st := rfl

theorem remember_delayed (ms patience : Nat) (inner : Store σ) (s : Sighting) (st : σ) :
    (inner.delayed ms).remember patience s st =
      if patience < ms then (.noAnswer, st) else inner.remember (patience - ms) s st := rfl

end Store
end TradeIntake
