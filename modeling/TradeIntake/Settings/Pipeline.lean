import TradeIntake.Settings.Dedup
import TradeIntake.Settings.Extract
import TradeIntake.Settings.Ingest

/-!
# Settings of the pipeline

A section for each stage, and how many messages may be in flight at once. What is left out has its
default. The version is checked first, then the sections in their order.

Model of `PipelineConfig` with `validate` (`src/config.rs`).

* **`validate_default`**: the defaults are consistent.
-/

namespace TradeIntake

/-- Settings of the pipeline. -/
structure PipelineSettings where
  version : String := "1.0"
  name : Option String := none
  ingest : IngestSettings := {}
  extract : ExtractSettings := {}
  dedup : DedupSettings := {}
  /-- How many messages of a batch may be in flight at once. -/
  maxConcurrency : Nat := 8
  deriving Repr, DecidableEq

namespace PipelineSettings

/-- Why settings are refused. -/
inductive Fault where
  | unsupportedVersion (version : String)
  | ingest (fault : IngestSettings.Fault)
  | extract (fault : ExtractSettings.Fault)
  | dedup (fault : DedupSettings.Fault)
  | zeroConcurrency
  deriving Repr, DecidableEq

/-- The wording of a fault. -/
def Fault.message : Fault → String
  | .unsupportedVersion version => "unsupported config version: " ++ version
  | .ingest fault => "validation error: ingest: " ++ fault.message
  | .extract fault => "validation error: extract: " ++ fault.message
  | .dedup fault => "validation error: dedup: " ++ fault.message
  | .zeroConcurrency => "validation error: max_concurrency must be greater than zero"

/-- The first fault of the settings. -/
def validate (s : PipelineSettings) : Option Fault :=
  if s.version ≠ "1.0" ∧ s.version ≠ "1" then some (.unsupportedVersion s.version)
  else (s.ingest.validate.map .ingest).or <|
    (s.extract.validate.map .extract).or <|
    (s.dedup.validate.map .dedup).or <|
    if s.maxConcurrency = 0 then some .zeroConcurrency else none

/-- The names of the fields. -/
def fieldNames : List String :=
  ["version", "name", "ingest", "extract", "dedup", "max_concurrency"]

/-- Read settings; a field that is left out has its default. -/
def read? {ν : Type} (f : Format ν) (v : ν) : Option PipelineSettings :=
  match f.fields? fieldNames v with
  | some [version, name, ingest, extract, dedup, maxConcurrency] => do
    let d : PipelineSettings := {}
    return {
      version := ← Field.withDefault d.version f.text? version
      name := ← Field.optional f.null? f.text? name
      ingest := ← Field.withDefault d.ingest (IngestSettings.read? f) ingest
      extract := ← Field.withDefault d.extract (ExtractSettings.read? f) extract
      dedup := ← Field.withDefault d.dedup (DedupSettings.read? f) dedup
      maxConcurrency := ← Field.withDefault d.maxConcurrency (f.word? 64) maxConcurrency }
  | _ => none

/-- The settings as JSON. -/
def toJson (s : PipelineSettings) : Json :=
  .object [
    ("version", .string s.version),
    ("name", .ofText? s.name),
    ("ingest", s.ingest.toJson),
    ("extract", s.extract.toJson),
    ("dedup", s.dedup.toJson),
    ("max_concurrency", .ofNat s.maxConcurrency)]

theorem validate_default : validate {} = none := by
  decide +kernel

end PipelineSettings
end TradeIntake
