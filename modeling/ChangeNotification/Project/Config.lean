import ChangeNotification.Emission.Options
import ChangeNotification.Json.Reader
import ChangeNotification.Project.Failure

/-!
The configuration of a project, with its JSON form. A project without a configuration file has
the default one.
-/

namespace ChangeNotification

/-- What one unit holds: the members of one property, or those of all properties of a type. -/
inductive GenerationMode where
  | perProperty
  | perType
  deriving DecidableEq, Repr, Inhabited

namespace GenerationMode

def name : GenerationMode → String
  | perProperty => "property"
  | perType => "type"

def ofName? : String → Option GenerationMode
  | "property" => some perProperty
  | "type" => some perType
  | _ => none

def toJson (mode : GenerationMode) : Json := .string mode.name

def ofJson? (j : Json) : Option GenerationMode := j.variant?.bind ofName?

end GenerationMode

structure Config where
  factsDir : String := "facts"
  outDir : String := "generated"
  mode : GenerationMode := .perProperty
  includeSupportSources : Bool := true
  emit : EmitOptions := {}
  deriving DecidableEq, Repr, Inhabited

namespace Config

def toJson (config : Config) : Json :=
  .object [
    ("factsDir", .string config.factsDir),
    ("outDir", .string config.outDir),
    ("mode", config.mode.toJson),
    ("includeSupportSources", .bool config.includeSupportSources),
    ("emit", config.emit.toJson)]

def fieldNames : List String :=
  ["factsDir", "outDir", "mode", "includeSupportSources", "emit"]

def ofJson? (j : Json) : Option Config := do
  let r ← j.record? fieldNames
  let factsDir ← r.defaulted "factsDir" "facts" (·.val.text?)
  let outDir ← r.defaulted "outDir" "generated" (·.val.text?)
  let mode ← r.defaulted "mode" .perProperty (GenerationMode.ofJson? ·.val)
  let includeSupportSources ← r.defaulted "includeSupportSources" true (·.val.bool?)
  let emit ← r.defaulted "emit" {} (EmitOptions.ofJson? ·.val)
  return ⟨factsDir, outDir, mode, includeSupportSources, emit⟩

def parse? (text : String) : Option Config := (Json.parse? text).bind ofJson?

/-! ### In a project directory -/

def fileName : String := "propnotify.config.json"

/-- The path of the configuration file of the project in `directory`. -/
def filePath (directory : String) : String := Path.join directory fileName

def factsPath (config : Config) (directory : String) : String :=
  Path.join directory config.factsDir

def outPath (config : Config) (directory : String) : String :=
  Path.join directory config.outDir

/-- The configuration of the project in `directory`. -/
def load (tree : FileTree) (directory : String) : Except Failure Config :=
  let path := filePath directory
  if tree.leadsTo path then
    match tree.text? path with
    | none => .error (.unreadable path)
    | some text =>
        match parse? text with
        | none => .error (.invalidConfig path)
        | some config => .ok config
  else .ok {}

end Config

end ChangeNotification
