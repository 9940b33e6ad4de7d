import ChangeNotification.CommandLine.Grammar
import ChangeNotification.Project.Generation
import ChangeNotification.Project.Scaffold

/-!
The commands, with the arguments of each.
-/

namespace ChangeNotification

inductive Command where
  | init (request : ScaffoldRequest)
  | generate (request : GenerationRequest)
  | support (outDir : Option String)
  deriving DecidableEq, Repr

namespace Command

open CommandLine

def initGrammar : Grammar where
  options := [
    { long := "facts-dir", kind := some .text },
    { long := "force", short := some 'f' }]

def outDirRule : OptionRule := { long := "out-dir", short := some 'o', kind := some .path }

def generateGrammar : Grammar where
  options := [
    outDirRule,
    { long := "mode", short := some 'm', kind := some .mode },
    { long := "stdout" },
    { long := "jobs", short := some 'j', kind := some .count },
    { long := "no-support" }]
  places := [⟨"path", .path⟩]

def supportGrammar : Grammar where
  options := [outDirRule]

/-! ### Looking up arguments -/

def textOf (given : List (String × Value)) (name : String) : Option String :=
  match given.lookup name with
  | some (.text s) => some s
  | _ => none

def modeOf (given : List (String × Value)) (name : String) : Option GenerationMode :=
  match given.lookup name with
  | some (.mode m) => some m
  | _ => none

def countOf (given : List (String × Value)) (name : String) : Option Nat :=
  match given.lookup name with
  | some (.count n) => some n
  | _ => none

def hasFlag (given : List (String × Value)) (name : String) : Bool :=
  (given.lookup name).isSome

/-! ### Commands from words -/

def ofInitWords (words : List String) : Except UsageError Command := do
  let given ← initGrammar.read words
  return .init {
    factsDir := (textOf given "facts-dir").getD "facts"
    force := hasFlag given "force" }

def ofGenerateWords (words : List String) : Except UsageError Command := do
  let given ← generateGrammar.read words
  return .generate {
    factsPath := textOf given "path"
    outDir := textOf given "out-dir"
    mode := modeOf given "mode"
    toOutput := hasFlag given "stdout"
    workers := countOf given "jobs"
    withoutSupport := hasFlag given "no-support" }

def ofSupportWords (words : List String) : Except UsageError Command := do
  return .support (textOf (← supportGrammar.read words) "out-dir")

/-- The command of a name with its words, if there is one of that name. -/
def ofWords? (name : String) (words : List String) : Option (Except UsageError Command) :=
  match name with
  | "init" => some (ofInitWords words)
  | "generate" => some (ofGenerateWords words)
  | "support" => some (ofSupportWords words)
  | _ => none

/-- Runs a command on the project in `directory`. -/
def run (command : Command) (directory : String) (w : Workspace) : Except Stop Workspace :=
  match command with
  | init request => request.scaffold directory w
  | generate request => request.generate directory w
  | support outDir => SupportSource.write outDir directory w

end Command

end ChangeNotification
