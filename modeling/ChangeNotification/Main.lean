import ChangeNotification.CommandLine.Command

/-!
The command line. The part of the file system that a command looks at is taken into a tree, the
command runs on the tree, and what it changed is written back.
-/

namespace ChangeNotification.Main

/-- Takes in what is at a path and on the way to it. -/
def takeIn (tree : FileTree) (path : String) : IO FileTree := do
  let here ← IO.currentDir
  let mut tree := tree
  let mut way := []
  for component in Path.components path do
    way := way ++ [component]
    let text := String.intercalate "/" way
    if text.isEmpty then continue
    let entry := here / text
    if ← entry.isDir then
      tree := (tree.makeDirectories text).toOption.getD tree
    else if ← entry.pathExists then
      let content ← IO.FS.readBinFile entry
      tree := (tree.writeFile text content).toOption.getD tree
  return tree

/-- Takes in what is at a path and everything below it. Only bundles keep their content. -/
def takeBelow (tree : FileTree) (path : String) : IO FileTree := do
  let mut tree ← takeIn tree path
  let top := (← IO.currentDir) / path
  if ← top.isDir then
    for entry in ← top.walkDir do
      if ← entry.isDir then
        tree := (tree.makeDirectories entry.toString).toOption.getD tree
      else
        let kept := BundleFile.isName (entry.fileName.getD "")
        let content ← if kept then IO.FS.readBinFile entry else pure .empty
        tree := (tree.writeFile entry.toString content).toOption.getD tree
  return tree

/-- The paths that a command looks at beside the configuration. -/
def pathsOf (command : Command) (config : Config) (directory : String) : List String :=
  match command with
  | .init request => [request.factsPath directory]
  | .generate request =>
      let config := request.configure config
      [config.factsPath directory, config.outPath directory]
  | .support outDir => [{ config with outDir := outDir.getD config.outDir }.outPath directory]

def takeTree (command : Command) (directory : String) : IO FileTree := do
  let tree ← takeIn {} (Config.filePath directory)
  let config := (Config.load tree directory).toOption.getD {}
  (pathsOf command config directory).foldlM takeBelow tree

def writeBack (before after : FileTree) : IO Unit := do
  for (location, content) in before.changedFiles after [] do
    IO.FS.createDirAll ("/" ++ String.intercalate "/" location.dropLast)
    IO.FS.writeBinFile ("/" ++ String.intercalate "/" location) content

def usage : String :=
  "Usage: propnotify [--verbose] init [--facts-dir DIR] [--force]\n" ++
  "       propnotify [--verbose] generate [PATH] [--out-dir DIR] [--mode property|type]\n" ++
  "                  [--stdout] [--jobs N] [--no-support]\n" ++
  "       propnotify [--verbose] support [--out-dir DIR]\n"

def usageText : CommandLine.UsageError → String
  | .unknownArgument => "unexpected argument"
  | .invalidValue => "invalid or missing value"
  | .valueValidation => "invalid number"
  | .argumentConflict => "argument given more than once"
  | .tooManyValues => "unexpected value"
  | .displayHelp => ""

/-- The text of a failure with what lies behind it. -/
def failureText (failure : Failure) : String :=
  match failure.cause? with
  | some cause => failure.message ++ ": " ++ cause.message
  | none => failure.message

def runCommand (command : Command) : IO UInt32 := do
  let directory := (← IO.currentDir).toString
  let tree ← takeTree command directory
  let (w, failure) := match command.run directory { tree } with
    | .ok w => (w, none)
    | .error stop => (stop.workspace, some stop.failure)
  writeBack tree w.tree
  IO.print w.output
  IO.eprint w.errors
  match failure with
  | none => return 0
  | some failure =>
      IO.eprint ("\nError: " ++ failureText failure ++ "\n\n")
      return 1

def run (words : List String) : IO UInt32 := do
  match words.filter (fun word => word ≠ "-v" ∧ word ≠ "--verbose") with
  | [] =>
      IO.eprint usage
      return 2
  | name :: rest =>
      match Command.ofWords? name rest with
      | some (.ok command) => runCommand command
      | some (.error .displayHelp) =>
          IO.print usage
          return 0
      | some (.error error) =>
          IO.eprint ("error: " ++ usageText error ++ "\n\n" ++ usage)
          return 2
      | none =>
          IO.eprint usage
          return if name = "-h" || name = "--help" || name = "help" then 0 else 2

end ChangeNotification.Main

def main (words : List String) : IO UInt32 := ChangeNotification.Main.run words
