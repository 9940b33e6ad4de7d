import ChangeNotification.OrderedMap
import ChangeNotification.Project.Path

/-!
Trees of directories and files, and what is done to them through written paths. A path is
followed one component after the other, so every component before its last has to lead to a
directory that is there. Main statements: a directory or file that is put into a tree is found
there, and nothing else in the tree changes.
-/

namespace ChangeNotification

/-- The way down from the root to an entry. -/
abbrev Location := List String

inductive Node where
  | directory
  | file (content : ByteArray)

instance : DecidableEq Node
  | .directory, .directory => isTrue rfl
  | .directory, .file _ => isFalse nofun
  | .file _, .directory => isFalse nofun
  | .file a, .file b =>
      match ByteArray.decEq a b with
      | isTrue h => isTrue (h ▸ rfl)
      | isFalse h => isFalse fun e => h (Node.file.inj e)

/-- Why a path cannot be used. -/
inductive FileError where
  | notFound
  | alreadyExists
  | notADirectory
  | isADirectory
  | nameTooLong
  | unusableName
  deriving DecidableEq, Repr, Inhabited

def FileError.message : FileError → String
  | notFound => "No such file or directory (os error 2)"
  | alreadyExists => "File exists (os error 17)"
  | notADirectory => "Not a directory (os error 20)"
  | isADirectory => "Is a directory (os error 21)"
  | nameTooLong => "File name too long (os error 36)"
  | unusableName => "file name contained an unexpected NUL byte"

/-- What is at a location; the root is a directory. -/
def Node.at? (nodes : OrderedMap Location Node) : Location → Option Node
  | [] => some .directory
  | location => nodes.find? location

/-- A tree of directories and files. Whatever is in it is in a directory of it. -/
structure FileTree where
  nodes : OrderedMap Location Node
  closed : ∀ location, (nodes.find? location).isSome →
    location ≠ [] ∧ Node.at? nodes location.dropLast = some .directory

namespace FileTree

/-- The tree of the root alone. -/
def empty : FileTree where
  nodes := ∅
  closed location h := by simp at h

instance : EmptyCollection FileTree := ⟨empty⟩

instance : Inhabited FileTree := ⟨empty⟩

def node? (tree : FileTree) (location : Location) : Option Node :=
  Node.at? tree.nodes location

@[simp] theorem node?_root (tree : FileTree) : tree.node? [] = some .directory := rfl

theorem at?_insert (nodes : OrderedMap Location Node) (location other : Location) (node : Node)
    (h : location ≠ []) :
    Node.at? (nodes.insert location node) other =
      if other = location then some node else Node.at? nodes other := by
  cases other with
  | nil => simp [Node.at?, h.symm]
  | cons name rest => simp only [Node.at?, OrderedMap.find?_insert]

/-- Puts an entry into a directory. It may take the place of a file. -/
def put (tree : FileTree) (parent : Location) (name : String) (node : Node)
    (isDirectory : tree.node? parent = some .directory)
    (isNoDirectory : tree.node? (parent ++ [name]) ≠ some .directory) : FileTree where
  nodes := tree.nodes.insert (parent ++ [name]) node
  closed location h := by
    rw [at?_insert _ _ _ _ (by simp)]
    rw [OrderedMap.find?_insert] at h
    split at h
    · rename_i heq
      subst heq
      refine ⟨by simp, ?_⟩
      rw [List.dropLast_concat, if_neg (by simp)]
      exact isDirectory
    · have hold := tree.closed location h
      refine ⟨hold.1, ?_⟩
      split
      · rename_i heq
        exact absurd (heq ▸ hold.2) isNoDirectory
      · exact hold.2

theorem node?_put {tree : FileTree} {parent : Location} {name : String} {node : Node}
    {hp : tree.node? parent = some .directory}
    {hn : tree.node? (parent ++ [name]) ≠ some .directory} (location : Location) :
    (tree.put parent name node hp hn).node? location =
      if location = parent ++ [name] then some node else tree.node? location :=
  at?_insert _ _ _ _ (by simp)

/-! ### Following paths -/

/-- The most bytes that a name may have. -/
def maxNameSize : Nat := 255

/-- The most bytes that a path may have, however few names it leads through. -/
def maxPathSize : Nat := 4095

/-- One step from a location. -/
def enter (tree : FileTree) (location : Location) (component : String) :
    Except FileError Location :=
  if tree.node? location ≠ some .directory then .error .notADirectory
  else if component = "" ∨ component = "." then .ok location
  else if component = ".." then .ok location.dropLast
  else if maxNameSize < component.utf8ByteSize then .error .nameTooLong
  else if (tree.node? (location ++ [component])).isSome then .ok (location ++ [component])
  else .error .notFound

def follow (tree : FileTree) (components : List String) : Except FileError Location :=
  components.foldlM tree.enter []

/-- The components of a path that can be used at all. -/
def usable (path : String) : Except FileError (List String) :=
  if path.isEmpty then .error .notFound
  else if path.toList.contains '\x00' then .error .unusableName
  else if maxPathSize < path.utf8ByteSize then .error .nameTooLong
  else .ok (Path.components path)

/-- Where a path leads. -/
def locate (tree : FileTree) (path : String) : Except FileError Location :=
  usable path >>= tree.follow

/-- Whether a path leads anywhere. -/
def leadsTo (tree : FileTree) (path : String) : Bool :=
  (tree.locate path).toBool

def isDirectory (tree : FileTree) (path : String) : Bool :=
  match tree.locate path with
  | .ok location => tree.node? location = some .directory
  | .error _ => false

/-! ### Reading -/

/-- The content of a file. -/
def content? (tree : FileTree) (path : String) : Option ByteArray :=
  match tree.locate path with
  | .error _ => none
  | .ok location =>
      match tree.node? location with
      | some (.file content) => some content
      | some .directory | none => none

/-- The text of a file that is encoded in UTF-8. -/
def text? (tree : FileTree) (path : String) : Option String :=
  (tree.content? path).bind String.fromUTF8?

/-- The files at a location and below it, each with its way down from there, in ascending
order. -/
def filesUnder (tree : FileTree) (location : Location) : List (Location × ByteArray) :=
  tree.nodes.entries.filterMap fun (whole, node) =>
    match location.isPrefixOf? whole, node with
    | some way, .file content => some (way, content)
    | _, _ => none

/-- The files below a location that are new or have another content than before. -/
def changedFiles (before after : FileTree) (location : Location) :
    List (Location × ByteArray) :=
  (after.filesUnder location).filter fun (way, content) =>
    before.node? (location ++ way) ≠ some (.file content)

/-! ### Writing -/

/-- The components before the last one, and the last one. -/
def leadAndName? (components : List String) : Option (List String × String) :=
  components.getLast?.map fun name => (components.dropLast, name)

/-- Whether a component is no name of an entry. -/
def isStep (component : String) : Bool :=
  component = "" || component = "." || component = ".."

/-- Writes a file into a directory, over the one that is there. -/
def writeAt (tree : FileTree) (parent : Location) (name : String) (content : ByteArray) :
    Except FileError FileTree :=
  if hp : tree.node? parent = some .directory then
    if isStep name then .error .isADirectory
    else if maxNameSize < name.utf8ByteSize then .error .nameTooLong
    else if hn : tree.node? (parent ++ [name]) = some .directory then .error .isADirectory
    else .ok (tree.put parent name (.file content) hp hn)
  else .error .notADirectory

/-- Makes a directory in a directory. -/
def makeAt (tree : FileTree) (parent : Location) (name : String) : Except FileError FileTree :=
  if hp : tree.node? parent = some .directory then
    if isStep name then .error .alreadyExists
    else if maxNameSize < name.utf8ByteSize then .error .nameTooLong
    else if hn : tree.node? (parent ++ [name]) = none then
      .ok (tree.put parent name .directory hp (by simp [hn]))
    else .error .alreadyExists
  else .error .notADirectory

def writeFile (tree : FileTree) (path : String) (content : ByteArray) :
    Except FileError FileTree := do
  match leadAndName? (← usable path) with
  | none => throw .notFound
  | some (lead, name) => tree.writeAt (← tree.follow lead) name content

/-- Makes one directory, in one that is there. Slashes at the end do not count. -/
def makeDirectory (tree : FileTree) (path : String) : Except FileError FileTree := do
  let components := ((← usable path).reverse.dropWhile (· = "")).reverse
  match leadAndName? components with
  | none => throw .alreadyExists
  | some (lead, name) => tree.makeAt (← tree.follow lead) name

/-- Makes a directory unless it is there. -/
def ensureDirectory (tree : FileTree) (path : String) : Except FileError FileTree :=
  match tree.makeDirectory path with
  | .ok made => .ok made
  | .error error => if tree.isDirectory path then .ok tree else .error error

/-- Goes down from a location and makes each directory that is missing on the way. With the tree
comes what the way ends early with, if it does. -/
def makeWay (tree : FileTree) (location : Location) : List String → FileTree × Option FileError
  | [] => (tree, none)
  | component :: rest =>
      match tree.enter location component with
      | .ok next =>
          if tree.node? next = some .directory then tree.makeWay next rest
          else (tree, some .alreadyExists)
      | .error .notFound =>
          match tree.makeAt location component with
          | .ok made => made.makeWay (location ++ [component]) rest
          | .error error => (tree, some error)
      | .error error => (tree, some error)

/-- The components that lead somewhere else, without the last of them. -/
def wayTo (path : String) : List String :=
  ((Path.components path).filter fun component => component ≠ "" ∧ component ≠ ".").dropLast

/-- Makes a directory and, where they are missing, those it is in. -/
def makeDirectories (tree : FileTree) (path : String) : Except FileError FileTree :=
  match tree.ensureDirectory path with
  | .error .notFound =>
      match tree.makeWay [] (wayTo path) with
      | (made, none) => made.ensureDirectory path
      | (_, some error) => .error error
  | result => result

/-- What is left where directories cannot all be made: those on the way stay. -/
def leftOnWay (tree : FileTree) (path : String) : FileTree :=
  match tree.ensureDirectory path with
  | .error .notFound => (tree.makeWay [] (wayTo path)).1
  | _ => tree

end FileTree

end ChangeNotification
