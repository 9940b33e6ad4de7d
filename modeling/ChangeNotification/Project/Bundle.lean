import ChangeNotification.Facts.Format
import ChangeNotification.Json.Reader
import ChangeNotification.Project.FileTree

/-!
Bundles of facts in a project directory: the files whose names have the suffix of bundles.
-/

namespace ChangeNotification

def FactBundle.parse? (text : String) : Option FactBundle :=
  (Json.parse? text).bind ofJson?

/-- A file that should hold a bundle. It has no content where its path cannot be used. -/
structure BundleFile where
  path : String
  content : Option ByteArray

/-- Why a file gives no bundle. -/
inductive BundleError where
  | unreadable
  | invalid
  deriving DecidableEq, Repr, Inhabited

def BundleError.message (path : String) : BundleError → String
  | unreadable => "Failed to read " ++ path
  | invalid => "Invalid fact bundle " ++ path

namespace BundleFile

def suffix : String := ".facts.json"

def isName (name : String) : Bool :=
  suffix.toList.isSuffixOf name.toList

def load (file : BundleFile) : Except BundleError FactBundle :=
  match file.content.bind String.fromUTF8? with
  | none => .error .unreadable
  | some text =>
      match FactBundle.parse? text with
      | none => .error .invalid
      | some bundle => .ok bundle

end BundleFile

/-- The bundles below a path, or the one at it, in ascending order of their locations. A
directory whose path cannot be used shows none of its entries. -/
def FileTree.bundleFiles (tree : FileTree) (path : String) : List BundleFile :=
  match tree.locate path with
  | .error _ => []
  | .ok location =>
      (tree.filesUnder location).filterMap fun (way, content) =>
        if (location ++ way).getLast?.any BundleFile.isName &&
            (usable (Path.below path way.dropLast)).toBool then
          let file := Path.below path way
          some ⟨file, (usable file).toOption.map fun _ => content⟩
        else none

end ChangeNotification
