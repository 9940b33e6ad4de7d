import ChangeNotification.Proofs.Project.FileTree

/-! # Trees with other contents

Where a path leads and which directories can be made depends on which entries are directories and
which are files, but on no content of a file. -/

namespace ChangeNotification

/-- The same entry, if it is a file with another content. -/
def Node.mapContent (f : ByteArray → ByteArray) : Node → Node
  | .directory => .directory
  | .file content => .file (f content)

theorem Node.mapContent_id (node : Node) : node.mapContent id = node := by
  cases node <;> rfl

namespace FileTree

theorem node?_eq_directory_iff_mapContent {node? : Option Node} {f : ByteArray → ByteArray} :
    node?.map (Node.mapContent f) = some .directory ↔ node? = some .directory := by
  cases node? with
  | none => simp
  | some node => cases node <;> simp [Node.mapContent]

theorem at?_mapValues (nodes : OrderedMap Location Node) (f : Location → ByteArray → ByteArray)
    (location : Location) :
    Node.at? (nodes.mapValues fun location => Node.mapContent (f location)) location =
      (Node.at? nodes location).map (Node.mapContent (f location)) := by
  cases location with
  | nil => rfl
  | cons name rest => exact OrderedMap.find?_mapValues nodes _ (name :: rest)

/-- The tree with other contents of its files. -/
def mapFiles (tree : FileTree) (f : Location → ByteArray → ByteArray) : FileTree where
  nodes := tree.nodes.mapValues fun location => Node.mapContent (f location)
  closed location h := by
    rw [OrderedMap.find?_mapValues, Option.isSome_map] at h
    obtain ⟨hroot, hparent⟩ := tree.closed location h
    exact ⟨hroot, by rw [at?_mapValues, hparent]; rfl⟩

variable {tree after : FileTree} {f : Location → ByteArray → ByteArray} {location parent : Location}
  {name path : String} {node : Node} {content : ByteArray}

/-! ## Entries -/

theorem node?_mapFiles (tree : FileTree) (f : Location → ByteArray → ByteArray)
    (location : Location) :
    (tree.mapFiles f).node? location =
      (tree.node? location).map (Node.mapContent (f location)) :=
  at?_mapValues tree.nodes f location

@[simp] theorem node?_mapFiles_eq_directory :
    (tree.mapFiles f).node? location = some .directory ↔
      tree.node? location = some .directory := by
  rw [node?_mapFiles, node?_eq_directory_iff_mapContent]

@[simp] theorem node?_mapFiles_eq_none :
    (tree.mapFiles f).node? location = none ↔ tree.node? location = none := by
  rw [node?_mapFiles, Option.map_eq_none_iff]

@[simp] theorem isSome_node?_mapFiles :
    ((tree.mapFiles f).node? location).isSome = (tree.node? location).isSome := by
  rw [node?_mapFiles, Option.isSome_map]

theorem Puts.mapFiles (h : tree.Puts parent name node after)
    (f : Location → ByteArray → ByteArray) :
    (tree.mapFiles f).Puts parent name (node.mapContent (f (parent ++ [name])))
      (after.mapFiles f) := by
  refine ⟨by simpa using h.inDirectory, h.isName, h.size, by simpa using h.free,
    fun location => ?_⟩
  rw [node?_mapFiles, node?_mapFiles, h.entries]
  split
  · rename_i hlocation
    rw [hlocation]
    rfl
  · rfl

/-! ## Paths -/

theorem enter_mapFiles (tree : FileTree) (f : Location → ByteArray → ByteArray) :
    (tree.mapFiles f).enter = tree.enter := by
  funext location component
  simp only [enter, ne_eq, node?_mapFiles_eq_directory, isSome_node?_mapFiles]

theorem follow_mapFiles (tree : FileTree) (f : Location → ByteArray → ByteArray) :
    (tree.mapFiles f).follow = tree.follow := by
  funext components
  rw [follow, follow, enter_mapFiles]

theorem locate_mapFiles (tree : FileTree) (f : Location → ByteArray → ByteArray) :
    (tree.mapFiles f).locate = tree.locate := by
  funext path
  rw [locate, locate, follow_mapFiles]

theorem leadsTo_mapFiles (tree : FileTree) (f : Location → ByteArray → ByteArray) :
    (tree.mapFiles f).leadsTo = tree.leadsTo := by
  funext path
  rw [leadsTo, leadsTo, locate_mapFiles]

theorem isDirectory_mapFiles (tree : FileTree) (f : Location → ByteArray → ByteArray) :
    (tree.mapFiles f).isDirectory = tree.isDirectory := by
  funext path
  rw [isDirectory, isDirectory, locate_mapFiles]
  simp only [node?_mapFiles_eq_directory]

/-- The text of a file whose content stays the same. -/
theorem text?_mapFiles (h : ∀ location, tree.locate path = .ok location → f location = id) :
    (tree.mapFiles f).text? path = tree.text? path := by
  rw [text?, text?, content?, content?, locate_mapFiles]
  cases hlocation : tree.locate path with
  | error error => rfl
  | ok location =>
      simp only [node?_mapFiles, h location hlocation]
      cases tree.node? location with
      | none => rfl
      | some node => cases node <;> rfl

/-! ## Files -/

theorem filesUnder_mapFiles (tree : FileTree) (f : Location → ByteArray → ByteArray)
    (location : Location) :
    (tree.mapFiles f).filesUnder location =
      (tree.filesUnder location).map fun file => (file.1, f (location ++ file.1) file.2) := by
  simp only [filesUnder, mapFiles, OrderedMap.mapValues, List.filterMap_map, List.map_filterMap]
  refine List.filterMap_congr fun entry _ => ?_
  obtain ⟨whole, node⟩ := entry
  simp only [Function.comp_apply]
  cases hway : location.isPrefixOf? whole with
  | none => rfl
  | some way =>
      have hwhole : location ++ way = whole := List.isPrefixOf?_eq_some_iff_append_eq.mp hway
      cases node with
      | directory => rfl
      | file content => simp [Node.mapContent, hwhole]

theorem node?_of_mem_filesUnder {way : Location} (h : (way, content) ∈ tree.filesUnder location) :
    tree.node? (location ++ way) = some (.file content) := by
  obtain ⟨⟨whole, node⟩, hentry, hfile⟩ := List.mem_filterMap.mp h
  cases hway : location.isPrefixOf? whole with
  | none => simp [hway] at hfile
  | some way' =>
      have hwhole : location ++ way' = whole := List.isPrefixOf?_eq_some_iff_append_eq.mp hway
      cases node with
      | directory => simp [hway] at hfile
      | file content' =>
          simp only [hway, Option.some.injEq, Prod.mk.injEq] at hfile
          obtain ⟨rfl, rfl⟩ := hfile
          have hfind := OrderedMap.find?_eq_some_iff.mpr hentry
          have hroot : whole ≠ [] := by
            rintro rfl
            rw [find?_root] at hfind
            cases hfind
          rw [hwhole, node?_eq_find? tree hroot, hfind]

/-! ## Directories -/

theorem makeAt_mapFiles (tree : FileTree) (f : Location → ByteArray → ByteArray)
    (parent : Location) (name : String) :
    (tree.mapFiles f).makeAt parent name = (tree.makeAt parent name).map (·.mapFiles f) := by
  by_cases hparent : tree.node? parent = some .directory
  · by_cases hname : isStep name = true
    · simp [makeAt, hparent, hname, Except.map]
    · by_cases hsize : maxNameSize < name.utf8ByteSize
      · simp [makeAt, hparent, hname, hsize, Except.map]
      · by_cases hfree : tree.node? (parent ++ [name]) = none
        · obtain ⟨made, hmade⟩ := exists_puts hparent (by simpa using hname) (Nat.not_lt.mp hsize)
            (by simp [hfree]) .directory
          rw [makeAt_eq_ok_iff.mpr ⟨hmade, hfree⟩]
          exact makeAt_eq_ok_iff.mpr ⟨hmade.mapFiles f, by simpa using hfree⟩
        · simp [makeAt, hparent, hname, hsize, hfree, Except.map]
  · simp [makeAt, hparent, Except.map]

theorem makeDirectory_mapFiles (tree : FileTree) (f : Location → ByteArray → ByteArray)
    (path : String) :
    (tree.mapFiles f).makeDirectory path = (tree.makeDirectory path).map (·.mapFiles f) := by
  unfold makeDirectory
  cases usable path with
  | error error => rfl
  | ok components =>
      simp only [bind, Except.bind, follow_mapFiles]
      cases leadAndName? (components.reverse.dropWhile (· = "")).reverse with
      | none => rfl
      | some leadAndName =>
          obtain ⟨lead, name⟩ := leadAndName
          dsimp only
          cases tree.follow lead with
          | error error => rfl
          | ok parent => exact makeAt_mapFiles tree f parent name

theorem ensureDirectory_mapFiles (tree : FileTree) (f : Location → ByteArray → ByteArray)
    (path : String) :
    (tree.mapFiles f).ensureDirectory path = (tree.ensureDirectory path).map (·.mapFiles f) := by
  unfold ensureDirectory
  rw [makeDirectory_mapFiles, isDirectory_mapFiles]
  cases tree.makeDirectory path with
  | ok made => rfl
  | error error =>
      change (if _ then _ else _) = Except.map _ (if _ then _ else _)
      split <;> rfl

theorem makeWay_mapFiles (tree : FileTree) (f : Location → ByteArray → ByteArray)
    (location : Location) (components : List String) :
    (tree.mapFiles f).makeWay location components =
      (tree.makeWay location components).map (·.mapFiles f) id := by
  induction components generalizing tree location with
  | nil => rfl
  | cons component components ih =>
      unfold makeWay
      rw [enter_mapFiles]
      cases tree.enter location component with
      | ok next =>
          simp only [node?_mapFiles_eq_directory]
          split
          · exact ih tree next
          · rfl
      | error error =>
          cases error with
          | notFound =>
              simp only [makeAt_mapFiles]
              cases tree.makeAt location component with
              | error error => rfl
              | ok made => exact ih made _
          | _ => rfl

theorem makeDirectories_mapFiles (tree : FileTree) (f : Location → ByteArray → ByteArray)
    (path : String) :
    (tree.mapFiles f).makeDirectories path = (tree.makeDirectories path).map (·.mapFiles f) := by
  unfold makeDirectories
  rw [ensureDirectory_mapFiles]
  cases tree.ensureDirectory path with
  | ok made => rfl
  | error error =>
      cases error with
      | notFound =>
          simp only [Except.map, makeWay_mapFiles]
          obtain ⟨made, error⟩ := tree.makeWay [] (wayTo path)
          cases error with
          | none => exact ensureDirectory_mapFiles made f path
          | some error => rfl
      | _ => rfl

end FileTree

end ChangeNotification
