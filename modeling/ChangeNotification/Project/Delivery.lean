import ChangeNotification.Emission.Unit
import ChangeNotification.Project.Config
import ChangeNotification.Project.Workspace
import ChangeNotification.SupportSource

/-!
Delivering generated sources, and the command that delivers the support sources alone.
-/

namespace ChangeNotification

/-- Where generated sources go: into a directory, each under its own name, or into the output. -/
inductive Destination where
  | directory (path : String)
  | output
  deriving DecidableEq, Repr

namespace Destination

/-- The effects that deliver a source. -/
def effects (destination : Destination) (source : GeneratedSource) : List Effect :=
  match destination with
  | directory path =>
      [.makeDirectories path, .writeFile (Path.join path source.hintName) source.sourceText]
  | output => [.say ("// " ++ source.hintName), .say source.sourceText]

/-- What a report calls the place of a source. -/
def place (destination : Destination) (source : GeneratedSource) : String :=
  match destination with
  | directory path => Path.join path source.hintName
  | output => "stdout"

end Destination

namespace SupportSource

def reportedEffects (destination : Destination) (source : GeneratedSource) : List Effect :=
  destination.effects source ++ [.say ("  ✓ " ++ destination.place source)]

/-- Writes the support sources of the project in `directory`; `outDir` overrides what is
configured. -/
def write (outDir : Option String) (directory : String) (w : Workspace) :
    Except Stop Workspace :=
  match Config.load w.tree directory with
  | .error failure => .error ⟨w, failure⟩
  | .ok config =>
      let destination := Destination.directory
        ({ config with outDir := outDir.getD config.outDir }.outPath directory)
      w.perform Effect.blame <|
        .say "📦 Writing support sources..." ::
          (all config.emit).flatMap (reportedEffects destination)

end SupportSource

end ChangeNotification
