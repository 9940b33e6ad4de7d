import ChangeNotification.Project.Failure

/-!
What a command acts on, and its effects as data. Effects happen one after the other; the first
one that cannot happen ends the command, and what happened before it stays.
-/

namespace ChangeNotification

/-- The file tree and what was printed so far. -/
structure Workspace where
  tree : FileTree
  output : String := ""
  errors : String := ""

/-- A command that ended early, and what it left. -/
structure Stop where
  workspace : Workspace
  failure : Failure

/-- One thing that a command does. -/
inductive Effect where
  | say (line : String)
  | warn (line : String)
  | makeDirectories (path : String)
  | writeFile (path : String) (text : String)
  deriving DecidableEq, Repr

namespace Effect

def perform (effect : Effect) (w : Workspace) : Except FileError Workspace :=
  match effect with
  | say line => .ok { w with output := w.output ++ line ++ "\n" }
  | warn line => .ok { w with errors := w.errors ++ line ++ "\n" }
  | makeDirectories path =>
      (w.tree.makeDirectories path).map fun tree => { w with tree }
  | writeFile path text =>
      (w.tree.writeFile path text.toUTF8).map fun tree => { w with tree }

/-- What an effect that cannot happen leaves. -/
def leave (effect : Effect) (w : Workspace) : Workspace :=
  match effect with
  | makeDirectories path => { w with tree := w.tree.leftOnWay path }
  | say _ | warn _ | writeFile _ _ => w

/-- The failure of a command with an effect that cannot happen, told by the path. -/
def blame (effect : Effect) (cause : FileError) : Failure :=
  match effect with
  | makeDirectories path => .notCreated path cause
  | writeFile path _ => .notWritten path cause
  | say _ | warn _ => .file cause

/-- The failure of a command that gives the cause alone. -/
def blameFile (_ : Effect) (cause : FileError) : Failure := .file cause

end Effect

namespace Workspace

/-- Performs effects in their order. -/
def perform (blame : Effect → FileError → Failure) :
    List Effect → Workspace → Except Stop Workspace
  | [], w => .ok w
  | effect :: rest, w =>
      match effect.perform w with
      | .ok next => perform blame rest next
      | .error cause => .error ⟨effect.leave w, blame effect cause⟩

end Workspace

end ChangeNotification
