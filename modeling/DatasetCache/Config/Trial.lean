import DatasetCache.Config.Files
import DatasetCache.Report

/-!
# Trials of configurations

What becomes of one configuration, as built and through its document, and of files
in a sequence of steps.
-/

namespace DatasetCache.Config

def faultJson (fault : Fault) : Json := .record (Report.fault fault)

def answerJson {α : Type} (f : α → Json) : Except Fault α → Json
  | .ok a => f a
  | .error fault => faultJson fault

def readJson (text : String) : Json := answerJson Report.config (ofToml text)

def trial (config : Config) : Json :=
  .record [
    ("config", Report.config config),
    ("valid", answerJson (fun _ => .bool true) config.validate),
    ("toml", .str config.toToml),
    ("parsed_back_equal", answerJson (fun back => .bool (back = config)) (ofToml config.toToml))]

/-! ## Files -/

inductive FileStep where
  | put (path : String) (bytes : List UInt8)
  | makeDirectory (path : String)
  | load (path : String)
  | save (path : String) (config : Config)
  | show (path : String)

def FileStep.run (tree : FileTree) : FileStep → Json × FileTree
  | .put path bytes => (.null, (tree.write? path bytes).getD tree)
  | .makeDirectory path => (.null, tree.makeDirectory path)
  | .load path => (answerJson Report.config (Config.load FileTree.system tree path), tree)
  | .save path config =>
    match Config.save FileTree.system tree path config with
    | .ok tree => (.str "saved", tree)
    | .error fault => (faultJson fault, tree)
  | .show path => (.str ((FileTree.system.text? tree path).getD "<none>"), tree)

def FileStep.runAll (tree : FileTree) : List FileStep → List Json
  | [] => []
  | step :: rest =>
    let (answer, tree) := step.run tree
    answer :: runAll tree rest

end DatasetCache.Config
