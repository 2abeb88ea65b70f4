import TradeIntake.Batch
import TradeIntake.Record
import TradeIntake.Settings.File
import TradeIntake.Store.Memory

/-!
# The command line

Each argument names a file with one message in JSON. The settings are read first, then all the
messages; only then are the messages processed as a batch, over one store in memory. There is one
line of JSON for each message, with its result and its record, and nothing at all when anything went
wrong.

Model of `main` (`src/main.rs`) between what it reads and what it prints.

* **`length_lines`**: there are as many lines as messages.
-/

namespace TradeIntake.CommandLine

/-- Why there is no output. -/
inductive Fault where
  | settings (fault : PipelineSettings.FileFault)
  /-- There is no argument. -/
  | usage
  /-- A file cannot be read. -/
  | unreadable
  /-- A file holds no message. -/
  | malformed
  deriving Repr, DecidableEq

/-- The wording of a fault. -/
def Fault.message : Fault → String
  | .settings .unreadable => "failed to read config file"
  | .settings .malformed => "failed to parse YAML"
  | .settings (.refused fault) => fault.message
  | .usage => "usage: fpml-intake <message.json>..."
  | .unreadable => "failed to read message file"
  | .malformed => "failed to parse message"

/-- The settings: from a file if one is named, otherwise the defaults. -/
def settings (file : Option (Option String)) : Except Fault PipelineSettings :=
  match file with
  | none => .ok {}
  | some text =>
    match PipelineSettings.ofFile text with
    | .ok s => .ok s
    | .error fault => .error (.settings fault)

/-- The message in a file; none stands for a file that cannot be read. -/
def message : Option String → Except Fault Message
  | none => .error .unreadable
  | some text =>
    match (Json.parse? text).bind Message.ofJson? with
    | some m => .ok m
    | none => .error .malformed

/-- The pipeline with its settings, and the messages of all files. -/
def start (settingsFile : Option (Option String)) (files : List (Option String)) :
    Except Fault (Pipeline Memory × List Message) := do
  let settings ← settings settingsFile
  if files.isEmpty then throw .usage
  let messages ← files.mapM message
  return (⟨settings, .memory⟩, messages)

/-- The output for one message. -/
def line (m : Message) (p : Processed) (createdAt : Timestamp) : Json :=
  .object [
    ("entity", (Record.project m p none createdAt).toJson),
    ("result", p.result.toJson)]

/-- The output for all messages. -/
def lines (p : Pipeline Memory) (calls : List (Message × Call)) (createdAt : Timestamp) :
    List Json :=
  (calls.zip (p.processBatch calls .empty).1.1).map fun x => line x.1.1 x.2 createdAt

theorem length_lines (p : Pipeline Memory) (calls : List (Message × Call))
    (createdAt : Timestamp) : (lines p calls createdAt).length = calls.length := by
  simp [lines, Pipeline.length_processBatch]

end TradeIntake.CommandLine
