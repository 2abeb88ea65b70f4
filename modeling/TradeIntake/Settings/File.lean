import TradeIntake.Settings.Pipeline
import TradeIntake.Yaml.Read

/-!
# Settings files

Settings come from a YAML file, which may leave out anything. They are used only when they are
consistent.

Model of `from_file` and `from_yaml` of `PipelineConfig` (`src/config.rs`).

* **`ofFile_eq_ok`**: settings from a file are consistent.
-/

namespace TradeIntake.PipelineSettings

/-- Why a file gives no settings. -/
inductive FileFault where
  /-- The file cannot be read. -/
  | unreadable
  /-- The text is not YAML, or not settings. -/
  | malformed
  | refused (fault : Fault)
  deriving Repr, DecidableEq

/-- The settings that a text holds. -/
def ofYaml (text : String) : Except FileFault PipelineSettings :=
  match (Yaml.Document.parse? text).bind fun d => read? Yaml.Reference.format d.reference with
  | none => .error .malformed
  | some settings =>
    match settings.validate with
    | some fault => .error (.refused fault)
    | none => .ok settings

/-- The settings that a file holds; none stands for a file that cannot be read. -/
def ofFile : Option String → Except FileFault PipelineSettings
  | some text => ofYaml text
  | none => .error .unreadable

theorem ofFile_eq_ok {file : Option String} {settings : PipelineSettings}
    (h : ofFile file = .ok settings) : settings.validate = none := by
  unfold ofFile at h
  split at h
  · unfold ofYaml at h
    split at h
    · cases h
    · split at h
      · cases h
      · rename_i hv
        simp only [Except.ok.injEq] at h
        exact h ▸ hv
  · cases h

end TradeIntake.PipelineSettings
