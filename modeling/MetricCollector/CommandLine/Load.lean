import MetricCollector.CommandLine.Flag
import MetricCollector.Settings.Json

namespace MetricCollector

inductive LoadError
  -- The file cannot be read.
  | file
  -- The file does not describe settings.
  | content (e : Json.Unreadable)
  -- The flags do not name what there is.
  | flags (e : SettingsError)
  deriving DecidableEq, Repr

-- What is said when a text does not describe settings.
def unreadableSettings : String := "Failed to parse configuration"

-- The text that caused the failure, if it is one that can be told.
def Json.Unreadable.cause? : Json.Unreadable → Option String
  | .shape  => none
  | .span e => some e.message

-- The settings that flags ask for, where `contents` tells what is in a file.
def Flags.load (f : Flags) (contents : String → Option String) : Except LoadError Settings := do
  let base ← match f.configPath? with
    | none      => pure {}
    | some path =>
      let some text := contents path | throw .file
      (Settings.read text).mapError .content
  (f.overlay base).mapError .flags

end MetricCollector
