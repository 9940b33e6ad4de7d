import ChangeNotification.Facts.Format
import ChangeNotification.Json.Printer
import ChangeNotification.Project.Bundle
import ChangeNotification.Project.Config
import ChangeNotification.Project.Workspace
import ChangeNotification.Vocabulary

/-!
Setting up a project: a configuration and a bundle to begin with. Nothing that is there is
written over, save the configuration where that is asked for.
-/

namespace ChangeNotification

structure ScaffoldRequest where
  factsDir : String := "facts"
  force : Bool := false
  deriving DecidableEq, Repr, Inhabited

namespace ScaffoldRequest

/-- A bundle of one property, a string of a class that tells of its changes. -/
def exampleBundle : FactBundle where
  properties := [{
    name := "Name"
    containingType := {
      name := "Person"
      namespaceSegments := ["App"]
      interfaces := [Vocabulary.notifyInterface .changed] }
    propertyType := {
      name := "String"
      namespaceSegments := ["System"]
      nullability := .notAnnotated }
    attributes := [
      { className := AttributeRole.className .enable },
      { className := AttributeRole.className (.event .changed) }]
    declarationSites := [⟨"Person.cs", 5, 9⟩] }]

def exampleName : String := "example" ++ BundleFile.suffix

def config (request : ScaffoldRequest) : Config := { factsDir := request.factsDir }

def factsPath (request : ScaffoldRequest) (directory : String) : String :=
  request.config.factsPath directory

def examplePath (request : ScaffoldRequest) (directory : String) : String :=
  Path.join (request.factsPath directory) exampleName

/-- Performs effects unless a path leads somewhere already. -/
def unlessThere (path : String) (effects : List Effect) (w : Workspace) :
    Except Stop Workspace :=
  if w.tree.leadsTo path then .ok w else w.perform Effect.blameFile effects

/-- Makes the directory of facts. -/
def makeFactsDirectory (request : ScaffoldRequest) (directory : String) :
    Workspace → Except Stop Workspace :=
  unlessThere (request.factsPath directory) [
    .makeDirectories (request.factsPath directory),
    .say ("  ✓ Created " ++ request.factsDir ++ "/")]

def writeExample (request : ScaffoldRequest) (directory : String) :
    Workspace → Except Stop Workspace :=
  unlessThere (request.examplePath directory) [
    .writeFile (request.examplePath directory) exampleBundle.toJson.pretty,
    .say ("  ✓ Created " ++ exampleName)]

def configEffects (request : ScaffoldRequest) (directory : String) : List Effect := [
  .writeFile (Config.filePath directory) request.config.toJson.pretty,
  .say ("  ✓ Created " ++ Config.fileName)]

/-- What to do next. -/
def closingEffects (request : ScaffoldRequest) : List Effect := [
  .say "",
  .say "✅ Project initialized!",
  .say "",
  .say "Next steps:",
  .say ("  1. Export property facts into " ++ request.factsDir ++ "/"),
  .say "  2. Run: propnotify generate",
  .say ("  3. Check output in " ++ request.config.outDir ++ "/")]

/-- Sets up a project in `directory`. -/
def scaffold (request : ScaffoldRequest) (directory : String) (w : Workspace) :
    Except Stop Workspace :=
  if w.tree.leadsTo (Config.filePath directory) && !request.force then
    w.perform Effect.blameFile [
      .say ("⚠️ " ++ Config.fileName ++ " already exists"),
      .say "Use --force to overwrite"]
  else do
    let w ← w.perform Effect.blameFile [.say "📝 Initializing PropNotify project..."]
    let w ← request.makeFactsDirectory directory w
    let w ← request.writeExample directory w
    w.perform Effect.blameFile (request.configEffects directory ++ request.closingEffects)

end ScaffoldRequest

end ChangeNotification
