import TradeIntake.Failure
import TradeIntake.Message
import TradeIntake.Payload
import TradeIntake.Settings.Pipeline
import TradeIntake.Sha256
import TradeIntake.Validation
import TradeIntake.DuplicateCheck

/-!
# Inspecting messages

Everything about a message that needs neither the store nor the clock: the fingerprint and the size
of the decoded content, and what validation and extraction make of the document. Extraction runs
unless validation found an error. Each stage that ran leaves an event.

Model of `run_document_stages` (`src/pipeline.rs`) and `decode_message`
(`crates/ingest/src/lib.rs`). An event is a call of `PipelineMetrics` (`src/lib.rs`), without the
time that the stage took.

* **`decode_eq_ok_iff`**, **`decode_eq_error_iff`**: what a message carries, and what keeps it from
  being had.
* **`fingerprint?_inspect`**: there is a fingerprint exactly when the content can be decoded.
-/

namespace TradeIntake

/-- Something that an observer of the stages gets to see. -/
inductive Event where
  /-- Decoding and parsing, taken together. -/
  | decoded (outcome : Except IngestFailure Unit)
  /-- Validation, with the number of errors that it found. -/
  | validated (errors : Nat)
  | extracted (outcome : Except ExtractionFailure Unit)
  | duplicateChecked (check : DuplicateCheck)

/-- What validation and extraction make of a document. -/
structure Examination where
  report : Report
  /-- Extraction does not run when the report has errors. -/
  extraction : Option (Except ExtractionFailure TradeData)

/-- What a message's content amounts to. -/
structure Inspection where
  /-- The fingerprint of the decoded bytes. -/
  fingerprint? : Option String
  /-- How many bytes were decoded. -/
  decodedLength? : Option Nat
  examined : Except Failure Examination

/-- The bytes and the document that a message carries. -/
def Message.decode (settings : IngestSettings) (m : Message) :
    Except IngestFailure (List UInt8 × Document) := do
  let bytes ← Payload.decode settings m.content
  let document ← Document.parse settings bytes
  return (bytes, document)

section Decode

variable {settings : IngestSettings} {m : Message}

theorem Message.decode_eq_ok_iff {bytes : List UInt8} {d : Document} :
    m.decode settings = .ok (bytes, d) ↔
      Payload.decode settings m.content = .ok bytes ∧ Document.parse settings bytes = .ok d := by
  unfold Message.decode
  constructor
  · intro h
    cases hdecode : Payload.decode settings m.content with
    | error e => simp [bind, Except.bind, hdecode] at h
    | ok bytes' =>
      cases hparse : Document.parse settings bytes' with
      | error e => simp [bind, Except.bind, hdecode, hparse] at h
      | ok d' =>
        simp only [bind, Except.bind, pure, Except.pure, hdecode, hparse] at h
        cases h
        exact ⟨rfl, hparse⟩
  · rintro ⟨hdecode, hparse⟩
    simp [bind, Except.bind, pure, Except.pure, hdecode, hparse]

theorem Message.decode_eq_error_iff {e : IngestFailure} :
    m.decode settings = .error e ↔ Payload.decode settings m.content = .error e ∨
      ∃ bytes, Payload.decode settings m.content = .ok bytes ∧
        Document.parse settings bytes = .error e := by
  unfold Message.decode
  cases Payload.decode settings m.content with
  | error e' => simp [bind, Except.bind]
  | ok bytes =>
    cases h : Document.parse settings bytes with
    | error e' => simp [bind, Except.bind, h]
    | ok d => simp [bind, Except.bind, pure, Except.pure, h]

end Decode

/-- Validate a document, strictly or not, and extract its data. -/
def Document.examine (extractor : Extractor) (strict : Bool) (d : Document) :
    Examination × List Event :=
  let report := if strict then d.validate.promoteWarnings else d.validate
  if report.hasErrors then (⟨report, none⟩, [.validated report.errorCount])
  else
    (⟨report, some (.ok (extractor.extract d))⟩,
      [.validated report.errorCount, .extracted (.ok ())])

/-- Inspect a message. -/
def Message.inspect (settings : PipelineSettings) (m : Message) : Inspection × List Event :=
  match Payload.decode settings.ingest m.content with
  | .error failure =>
    (⟨none, none, .error (.ingest failure)⟩, [.decoded (.error failure)])
  | .ok bytes =>
    match Document.parse settings.ingest bytes with
    | .error failure =>
      (⟨some (fingerprint bytes), some bytes.length, .error (.ingest failure)⟩,
        [.decoded (.error failure)])
    | .ok document =>
      let (examination, events) :=
        document.examine (.ofSettings settings.extract) m.flags.strictValidation
      (⟨some (fingerprint bytes), some bytes.length, .ok examination⟩,
        .decoded (.ok ()) :: events)

theorem fingerprint?_inspect (settings : PipelineSettings) (m : Message) :
    (m.inspect settings).1.fingerprint? =
      (Payload.decode settings.ingest m.content).toOption.map fingerprint := by
  unfold Message.inspect
  cases h : Payload.decode settings.ingest m.content with
  | error failure => rfl
  | ok bytes =>
    simp only [Except.toOption, Option.map_some]
    split <;> rfl

end TradeIntake
