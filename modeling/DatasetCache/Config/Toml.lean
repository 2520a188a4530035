import DatasetCache.Config
import DatasetCache.Toml.Document
import DatasetCache.Toml.Printer

/-!
# Configurations as TOML

A document may leave out each part of a configuration and may hold other keys,
which are ignored.  A configuration that is read is also validated; one that is
written need not be valid.
-/

namespace DatasetCache.Config

/-! ## Reading -/

/-- The string entries of a table.  A moment counts as a table of its text. -/
def argumentsOf? : Toml.Value → Option Arguments
  | .table _ entries => collect entries
  | .moment text => some (Table.ofList [("$__toml_private_datetime", text)])
  | _ => none
where
  collect (entries : Toml.Entries) : Option Arguments :=
    entries.foldlM (fun arguments entry =>
      match entry.2 with
      | .string text => some (arguments.insert entry.1 text)
      | _ => none) Table.empty

def staticsOf? : Toml.Value → Option (Table String Arguments)
  | .table _ entries =>
    entries.foldlM (fun statics entry =>
      (argumentsOf? entry.2).map (statics.insert entry.1)) Table.empty
  | _ => none

def ofEntries? (entries : Toml.Entries) : Option Config := do
  let realm ← match entries.get? "namespace" with
    | none => some "default"
    | some (.string text) => some text
    | some _ => none
  let runtime ← match entries.get? "runtime_arguments" with
    | none => some Table.empty
    | some value => argumentsOf? value
  let statics ← match entries.get? "static_datasets" with
    | none => some Table.empty
    | some value => staticsOf? value
  return { realm, runtime, statics }

def malformed : Fault := .invalidInput "Failed to parse cache config: <toml>"

def ofToml (text : String) : Except Fault Config :=
  match (Toml.document? text).bind ofEntries? with
  | none => .error malformed
  | some config =>
    match config.validate with
    | .ok () => .ok config
    | .error fault => .error fault

/-! ## Writing -/

def writeArguments (arguments : Arguments) : List Char :=
  arguments.entries.flatMap fun entry => Toml.writeEntry entry.1 entry.2

def tomlChars (config : Config) : List Char :=
  Toml.writeEntry "namespace" config.realm
    ++ Toml.writeHeader ["runtime_arguments"] ++ writeArguments config.runtime
    ++ (if config.statics.isEmpty then Toml.writeHeader ["static_datasets"]
        else config.statics.entries.flatMap fun entry =>
          Toml.writeHeader ["static_datasets", entry.1] ++ writeArguments entry.2)

def toToml (config : Config) : String := String.ofList config.tomlChars

end DatasetCache.Config
