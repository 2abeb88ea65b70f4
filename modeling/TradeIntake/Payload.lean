import TradeIntake.Base64
import TradeIntake.IngestFailure
import TradeIntake.Settings.Ingest
import TradeIntake.Text.Blank
import TradeIntake.Text.Utf8

/-!
# Decoding payloads

A payload travels as base64 text, which senders wrap as they like: blank ASCII characters are left
out before anything else. The limit is checked on an estimate of the size before decoding and on
the size itself after.

Model of `decode_base64` (`crates/ingest/src/decode.rs`).

* **`decode_eq_of_symbols_eq`**: only what is left without blanks matters.
-/

namespace TradeIntake.Payload

/-- The bytes of a text without its blank ASCII characters. -/
def symbols (text : String) : List UInt8 :=
  (Text.Utf8.encode text).filter fun b => !Text.isBlankByte b

/-- How many bytes so many symbols stand for, or one or two more. -/
def estimate (symbolCount : Nat) : Nat :=
  symbolCount / 4 * 3

/-- A size of more than `slack` bytes over the limit. -/
def oversize? (slack size : Nat) (limit : Option Nat) : Option IngestFailure :=
  limit.bind fun limit => if limit + slack < size then some (.payloadTooLarge size limit) else none

/-- The bytes that symbols stand for, within a limit. -/
def decodeSymbols (limit : Option Nat) (symbols : List UInt8) : Except IngestFailure (List UInt8) :=
  if symbols.isEmpty then .error .emptyPayload
  else match oversize? 2 (estimate symbols.length) limit with
    | some failure => .error failure
    | none =>
      match Base64.decode symbols with
      | .error fault => .error (.badEncoding fault.message)
      | .ok bytes =>
        if bytes.isEmpty then .error .emptyPayload
        else match oversize? 0 bytes.length limit with
          | some failure => .error failure
          | none => .ok bytes

/-- The bytes that a text stands for. -/
def decode (settings : IngestSettings) (text : String) : Except IngestFailure (List UInt8) :=
  decodeSymbols settings.maxPayloadBytes (symbols text)

theorem decode_eq_of_symbols_eq (settings : IngestSettings) {s t : String}
    (h : symbols s = symbols t) : decode settings s = decode settings t := by
  rw [decode, decode, h]

end TradeIntake.Payload
