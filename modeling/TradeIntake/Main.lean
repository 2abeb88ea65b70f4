import Std.Time.DateTime.Timestamp
import TradeIntake.CommandLine
import TradeIntake.ProcessingId

/-!
# The program

Reads the settings file that `FPML_CONFIG` names and the files that the arguments name, and prints
a line of JSON for each message.

Model of `main` (`src/main.rs`): what it takes from its surroundings.
-/

namespace TradeIntake.CommandLine

/-- The text of a file, if it can be read. -/
def readText (path : String) : IO (Option String) := do
  try
    return some (← IO.FS.readFile path)
  catch _ =>
    return none

/-- The time now. -/
def readClock : IO Timestamp := do
  return .ofNanos (← Std.Time.Timestamp.now).toNanosecondsSinceUnixEpoch.val

/-- A new call, with the clock read at this moment. -/
def newCall : IO Call := do
  let now ← readClock
  let bytes ← IO.getRandomBytes 16
  return ⟨ProcessingId.ofBytes bytes.toList, ⟨now, now, now, now, now⟩⟩

end TradeIntake.CommandLine

open TradeIntake CommandLine

/-- Run the program. -/
def main (args : List String) : IO UInt32 := do
  let settingsFile ← match ← IO.getEnv "FPML_CONFIG" with
    | some path => some <$> readText path
    | none => pure none
  let files ← args.mapM readText
  match start settingsFile files with
  | .error fault =>
    IO.eprintln ("Error: " ++ fault.message)
    return 1
  | .ok (pipeline, messages) =>
    let calls ← messages.mapM fun m => return (m, ← newCall)
    for line in lines pipeline calls (← readClock) do
      IO.println line.write
    return 0
