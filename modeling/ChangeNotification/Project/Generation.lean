import ChangeNotification.Project.Plan

/-!
Generating the sources of a project: its configuration and what is asked for give a plan, and
the plan is carried out.
-/

namespace ChangeNotification

/-- What is asked for, over what is configured. Any number of workers gives the same result. -/
structure GenerationRequest where
  factsPath : Option String := none
  outDir : Option String := none
  mode : Option GenerationMode := none
  toOutput : Bool := false
  workers : Option Nat := none
  withoutSupport : Bool := false
  deriving DecidableEq, Repr, Inhabited

namespace GenerationRequest

/-- The configuration with what is asked for in its place. -/
def configure (request : GenerationRequest) (config : Config) : Config :=
  { config with
    factsDir := request.factsPath.getD config.factsDir
    outDir := request.outDir.getD config.outDir
    mode := request.mode.getD config.mode
    includeSupportSources := config.includeSupportSources && !request.withoutSupport }

def destination (request : GenerationRequest) (config : Config) (directory : String) :
    Destination :=
  if request.toOutput then .output else .directory (config.outPath directory)

/-- Generates without a verdict. -/
def run (request : GenerationRequest) (directory : String) (w : Workspace) :
    Except Stop (Summary × Workspace) :=
  match Config.load w.tree directory with
  | .error failure => .error ⟨w, failure⟩
  | .ok loaded =>
      let config := request.configure loaded
      let path := config.factsPath directory
      if w.tree.leadsTo path then
        let announcement := Effect.say "🔨 Generating notification members..."
        match w.tree.bundleFiles path with
        | [] => do
            let w ← w.perform Effect.blame
              [announcement, .say ("⚠️  No " ++ BundleFile.suffix ++ " files found")]
            return ({}, w)
        | files => do
            let plan := Plan.ofBundles config files
            let w ← w.perform Effect.blame <|
              announcement :: .say ("Found " ++ toString files.length ++ " bundles") ::
                plan.effects (request.destination config directory)
            return (plan.summary, w)
      else .error ⟨w, .missingFacts path⟩

end GenerationRequest

/-- The last line of a generation. -/
def Summary.verdict (summary : Summary) : String :=
  if summary.failed = 0 then
    "✅ Generated " ++ toString summary.generated ++ " files successfully"
  else
    "⚠️ Generated " ++ toString summary.generated ++ " files, " ++ toString summary.failed ++
      " errors"

/-- Generates the sources of the project in `directory`. It fails if anything in it failed,
after all else was written. -/
def GenerationRequest.generate (request : GenerationRequest) (directory : String)
    (w : Workspace) : Except Stop Workspace := do
  let (summary, w) ← request.run directory w
  let w ← w.perform Effect.blame [.say "", .say summary.verdict]
  if summary.failed = 0 then return w else throw ⟨w, .incomplete summary.failed⟩

end ChangeNotification
