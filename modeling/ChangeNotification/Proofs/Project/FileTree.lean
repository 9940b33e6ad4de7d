import ChangeNotification.Project.FileTree
import ChangeNotification.Proofs.Computation
import ChangeNotification.Proofs.OrderedMap
import ChangeNotification.Proofs.Project.Path
import Mathlib.Data.List.Induction
import Mathlib.Data.List.TakeWhile

/-! # Trees that are written to

What is written into a tree is an entry of a directory that is there, and directories that are
missing. All entries stay what they are, so that a path that led somewhere still leads there. -/

namespace ChangeNotification.FileTree

variable {tree later after : FileTree} {location parent : Location} {name path : String}
  {node : Node} {content : ByteArray}

/-! ## Entries -/

theorem node?_eq_find? (tree : FileTree) (h : location ≠ []) :
    tree.node? location = tree.nodes.find? location := by
  cases location with
  | nil => exact absurd rfl h
  | cons => rfl

theorem find?_root (tree : FileTree) : tree.nodes.find? [] = none := by
  by_contra hroot
  exact (tree.closed [] (Option.isSome_iff_ne_none.mpr hroot)).1 rfl

/-- Trees with the same entries are equal. -/
theorem ext_node? {tree other : FileTree}
    (h : ∀ location, tree.node? location = other.node? location) : tree = other := by
  have hnodes : tree.nodes = other.nodes := by
    refine OrderedMap.ext_find? fun location => ?_
    by_cases hroot : location = []
    · rw [hroot, find?_root, find?_root]
    · rw [← node?_eq_find? tree hroot, ← node?_eq_find? other hroot, h]
  cases tree
  cases other
  cases hnodes
  rfl

/-! ## Growth -/

/-- A tree that has all entries of another one, with directories for directories and files for
files. -/
structure GrowsInto (tree later : FileTree) : Prop where
  directory : ∀ {location}, tree.node? location = some .directory →
    later.node? location = some .directory
  file : ∀ {location content}, tree.node? location = some (.file content) →
    ∃ content', later.node? location = some (.file content')

theorem GrowsInto.refl (tree : FileTree) : tree.GrowsInto tree :=
  ⟨id, fun h => ⟨_, h⟩⟩

theorem GrowsInto.trans {middle : FileTree} (h : tree.GrowsInto middle)
    (h' : middle.GrowsInto later) : tree.GrowsInto later := by
  refine ⟨fun hnode => h'.directory (h.directory hnode), fun hnode => ?_⟩
  obtain ⟨content, hcontent⟩ := h.file hnode
  exact h'.file hcontent

theorem GrowsInto.isSome_node? (h : tree.GrowsInto later)
    (hnode : (tree.node? location).isSome) : (later.node? location).isSome := by
  cases hentry : tree.node? location with
  | none => simp [hentry] at hnode
  | some node =>
      cases node with
      | directory => simp [h.directory hentry]
      | file content =>
          obtain ⟨content', hcontent⟩ := h.file hentry
          simp [hcontent]

/-! ## Following paths -/

/-- One step leads to where it stands, to the directory around it, or to an entry. -/
theorem enter_eq_ok_iff {component : String} {next : Location} :
    tree.enter location component = .ok next ↔
      tree.node? location = some .directory ∧
        ((component = "" ∨ component = ".") ∧ next = location ∨
          component = ".." ∧ next = location.dropLast ∨
          isStep component = false ∧ component.utf8ByteSize ≤ maxNameSize ∧
            next = location ++ [component] ∧ (tree.node? next).isSome) := by
  unfold enter isStep
  grind

theorem enter_name (hparent : tree.node? parent = some .directory) (hname : isStep name = false)
    (hsize : name.utf8ByteSize ≤ maxNameSize) :
    tree.enter parent name =
      if (tree.node? (parent ++ [name])).isSome then .ok (parent ++ [name])
      else .error .notFound := by
  simp only [isStep, Bool.or_eq_false_iff, decide_eq_false_iff_not] at hname
  obtain ⟨⟨hempty, hdot⟩, hdots⟩ := hname
  rw [enter, if_neg (not_not.mpr hparent), if_neg (by simp [hempty, hdot]), if_neg hdots,
    if_neg (Nat.not_lt.mpr hsize)]

theorem follow_append (tree : FileTree) (components more : List String) :
    tree.follow (components ++ more) = tree.follow components >>= more.foldlM tree.enter :=
  List.foldlM_append

theorem follow_concat (tree : FileTree) (components : List String) (name : String) :
    tree.follow (components ++ [name]) =
      tree.follow components >>= fun parent => tree.enter parent name := by
  rw [follow_append]
  congr 1
  funext parent
  rw [List.foldlM_cons]
  exact bind_pure _

/-- Slashes at the end lead nowhere else. -/
theorem foldlM_enter_of_forall_empty (h : tree.node? location = some .directory)
    {components : List String} (hempty : ∀ component ∈ components, component = "") :
    components.foldlM tree.enter location = .ok location := by
  induction components with
  | nil => rfl
  | cons component components ih =>
      have hstep : tree.enter location component = .ok location :=
        enter_eq_ok_iff.mpr ⟨h, .inl ⟨.inl (hempty component (.head _)), rfl⟩⟩
      rw [List.foldlM_cons, hstep]
      exact ih fun other hother => hempty other (.tail _ hother)

theorem GrowsInto.enter (h : tree.GrowsInto later) {component : String} {next : Location}
    (henter : tree.enter location component = .ok next) :
    later.enter location component = .ok next := by
  obtain ⟨hlocation, hnext⟩ := enter_eq_ok_iff.mp henter
  refine enter_eq_ok_iff.mpr ⟨h.directory hlocation, ?_⟩
  rcases hnext with hnext | hnext | ⟨hname, hsize, hnext, hentry⟩
  · exact .inl hnext
  · exact .inr (.inl hnext)
  · exact .inr (.inr ⟨hname, hsize, hnext, h.isSome_node? hentry⟩)

theorem GrowsInto.follow (h : tree.GrowsInto later) {components : List String}
    (hfollow : tree.follow components = .ok location) :
    later.follow components = .ok location := by
  induction components using List.reverseRecOn generalizing location with
  | nil => exact hfollow
  | append_singleton components component ih =>
      rw [follow_concat] at hfollow ⊢
      obtain ⟨parent, hparent, henter⟩ := bind_eq_ok_iff.mp hfollow
      exact bind_eq_ok_iff.mpr ⟨parent, ih hparent, h.enter henter⟩

theorem locate_eq_ok_iff :
    tree.locate path = .ok location ↔
      ∃ components, usable path = .ok components ∧ tree.follow components = .ok location :=
  bind_eq_ok_iff

theorem GrowsInto.locate (h : tree.GrowsInto later) (hlocate : tree.locate path = .ok location) :
    later.locate path = .ok location := by
  obtain ⟨components, husable, hfollow⟩ := locate_eq_ok_iff.mp hlocate
  exact locate_eq_ok_iff.mpr ⟨components, husable, h.follow hfollow⟩

theorem leadsTo_iff : tree.leadsTo path = true ↔ ∃ location, tree.locate path = .ok location := by
  rw [leadsTo]
  cases tree.locate path <;> simp [Except.toBool]

theorem GrowsInto.leadsTo (h : tree.GrowsInto later) (hleads : tree.leadsTo path = true) :
    later.leadsTo path = true := by
  obtain ⟨location, hlocation⟩ := leadsTo_iff.mp hleads
  exact leadsTo_iff.mpr ⟨location, h.locate hlocation⟩

theorem isDirectory_iff : tree.isDirectory path = true ↔
    ∃ location, tree.locate path = .ok location ∧ tree.node? location = some .directory := by
  rw [isDirectory]
  cases tree.locate path <;> simp

theorem GrowsInto.isDirectory (h : tree.GrowsInto later) (hpath : tree.isDirectory path = true) :
    later.isDirectory path = true := by
  obtain ⟨location, hlocation, hnode⟩ := isDirectory_iff.mp hpath
  exact isDirectory_iff.mpr ⟨location, h.locate hlocation, h.directory hnode⟩

/-! ## Names in a directory -/

theorem usable_eq_ok {components : List String} (h : usable path = .ok components) :
    path ≠ "" ∧ components = Path.components path := by
  unfold usable at h
  split at h
  · cases h
  · rename_i hempty
    refine ⟨by simpa using hempty, ?_⟩
    split at h
    · cases h
    · split at h <;> cases h
      rfl

/-- Before a name that is joined to it, a path leads where it leads alone. -/
theorem follow_lead (h : tree.locate path = .ok location) :
    tree.follow (Path.lead path) = .ok location := by
  obtain ⟨components, husable, hfollow⟩ := locate_eq_ok_iff.mp h
  obtain ⟨hempty, rfl⟩ := usable_eq_ok husable
  rw [Path.lead, if_neg (by simpa using hempty)]
  split
  · rename_i hlast
    rw [Path.components_of_getLast? hlast, follow_concat] at hfollow
    obtain ⟨parent, hparent, henter⟩ := bind_eq_ok_iff.mp hfollow
    have hstay : location = parent := by simpa [isStep] using (enter_eq_ok_iff.mp henter).2
    rwa [hstay]
  · exact hfollow

/-- What leads somewhere with a name at its end leads to an entry of this name in a directory. -/
theorem exists_of_locate_join (hname : '/' ∉ name.toList) (hstep : isStep name = false)
    (h : tree.locate (Path.join path name) = .ok location) :
    ∃ parent, tree.follow (Path.lead path) = .ok parent ∧ tree.node? parent = some .directory ∧
      location = parent ++ [name] ∧ (tree.node? location).isSome = true := by
  obtain ⟨components, husable, hfollow⟩ := locate_eq_ok_iff.mp h
  obtain ⟨-, rfl⟩ := usable_eq_ok husable
  rw [Path.components_join hname, follow_concat] at hfollow
  obtain ⟨parent, hparent, henter⟩ := bind_eq_ok_iff.mp hfollow
  obtain ⟨hdirectory, henter⟩ := enter_eq_ok_iff.mp henter
  simp only [isStep, Bool.or_eq_false_iff, decide_eq_false_iff_not] at hstep
  rcases henter with ⟨hstay, -⟩ | ⟨hup, -⟩ | ⟨-, -, hentry⟩
  · exact absurd hstay (by simp [hstep])
  · exact absurd hup hstep.2
  · exact ⟨parent, hparent, hdirectory, hentry⟩

theorem leadsTo_join_of_free (hlocation : tree.locate path = .ok location)
    (hname : '/' ∉ name.toList) (hstep : isStep name = false)
    (hfree : tree.node? (location ++ [name]) = none) :
    tree.leadsTo (Path.join path name) = false := by
  rw [← Bool.not_eq_true]
  intro hleads
  obtain ⟨place, hplace⟩ := leadsTo_iff.mp hleads
  obtain ⟨parent, hparent, -, rfl, hentry⟩ := exists_of_locate_join hname hstep hplace
  obtain rfl : parent = location := Except.ok.inj (hparent.symm.trans (follow_lead hlocation))
  rw [hfree] at hentry
  cases hentry

/-! ## Entries that are put into a tree -/

/-- A tree with another entry in a directory of it, at a place where no directory is. -/
structure Puts (tree : FileTree) (parent : Location) (name : String) (node : Node)
    (after : FileTree) : Prop where
  inDirectory : tree.node? parent = some .directory
  isName : isStep name = false
  size : name.utf8ByteSize ≤ maxNameSize
  free : tree.node? (parent ++ [name]) ≠ some .directory
  entries : ∀ location, after.node? location =
    if location = parent ++ [name] then some node else tree.node? location

theorem Puts.node?_self (h : tree.Puts parent name node after) :
    after.node? (parent ++ [name]) = some node := by
  rw [h.entries, if_pos rfl]

theorem Puts.node?_of_ne (h : tree.Puts parent name node after)
    (hne : location ≠ parent ++ [name]) : after.node? location = tree.node? location := by
  rw [h.entries, if_neg hne]

theorem exists_puts (hparent : tree.node? parent = some .directory) (hname : isStep name = false)
    (hsize : name.utf8ByteSize ≤ maxNameSize)
    (hfree : tree.node? (parent ++ [name]) ≠ some .directory) (node : Node) :
    ∃ after, tree.Puts parent name node after :=
  ⟨tree.put parent name node hparent hfree, hparent, hname, hsize, hfree, node?_put⟩

theorem writeAt_eq_ok_iff : tree.writeAt parent name content = .ok after ↔
    tree.Puts parent name (.file content) after := by
  constructor
  · intro h
    unfold writeAt at h
    split at h
    · rename_i hparent
      split at h
      · cases h
      · rename_i hname
        split at h
        · cases h
        · rename_i hsize
          split at h
          · cases h
          · rename_i hfree
            cases h
            exact ⟨hparent, by simpa using hname, Nat.not_lt.mp hsize, hfree, node?_put⟩
    · cases h
  · intro h
    rw [writeAt, dif_pos h.inDirectory, if_neg (by simp [h.isName]), if_neg (Nat.not_lt.mpr h.size),
      dif_neg h.free]
    refine congrArg Except.ok (ext_node? fun location => ?_)
    rw [node?_put, h.entries]

theorem makeAt_eq_ok_iff : tree.makeAt parent name = .ok after ↔
    tree.Puts parent name .directory after ∧ tree.node? (parent ++ [name]) = none := by
  constructor
  · intro h
    unfold makeAt at h
    split at h
    · rename_i hparent
      split at h
      · cases h
      · rename_i hname
        split at h
        · cases h
        · rename_i hsize
          split at h
          · rename_i hfree
            cases h
            exact ⟨⟨hparent, by simpa using hname, Nat.not_lt.mp hsize, by simp [hfree], node?_put⟩,
              hfree⟩
          · cases h
    · cases h
  · rintro ⟨h, hfree⟩
    rw [makeAt, dif_pos h.inDirectory, if_neg (by simp [h.isName]), if_neg (Nat.not_lt.mpr h.size),
      dif_pos hfree]
    refine congrArg Except.ok (ext_node? fun location => ?_)
    rw [node?_put, h.entries]

/-! ## Files that are written -/

theorem leadAndName?_eq_some_iff {components lead : List String} :
    leadAndName? components = some (lead, name) ↔ components = lead ++ [name] := by
  rcases List.eq_nil_or_concat components with rfl | ⟨front, component, rfl⟩
  · simp [leadAndName?]
  · simp [leadAndName?, List.append_singleton_inj]

/-- A file is written where its path leads without its last component. -/
theorem writeFile_eq_ok_iff : tree.writeFile path content = .ok after ↔
    ∃ lead name parent, usable path = .ok (lead ++ [name]) ∧ tree.follow lead = .ok parent ∧
      tree.Puts parent name (.file content) after := by
  constructor
  · intro h
    obtain ⟨components, husable, h⟩ := bind_eq_ok_iff.mp h
    cases hlast : leadAndName? components with
    | none =>
        rw [hlast] at h
        cases h
    | some leadAndName =>
        obtain ⟨lead, name⟩ := leadAndName
        rw [hlast] at h
        obtain ⟨parent, hparent, hwrite⟩ := bind_eq_ok_iff.mp h
        rw [leadAndName?_eq_some_iff] at hlast
        exact ⟨lead, name, parent, hlast ▸ husable, hparent, writeAt_eq_ok_iff.mp hwrite⟩
  · rintro ⟨lead, name, parent, husable, hparent, hputs⟩
    have hlast : leadAndName? (lead ++ [name]) = some (lead, name) :=
      leadAndName?_eq_some_iff.mpr rfl
    refine bind_eq_ok_iff.mpr ⟨_, husable, ?_⟩
    rw [hlast]
    exact bind_eq_ok_iff.mpr ⟨parent, hparent, writeAt_eq_ok_iff.mpr hputs⟩

theorem Puts.growsInto_of_file (h : tree.Puts parent name (.file content) after) :
    tree.GrowsInto after := by
  constructor
  · intro location hnode
    have hne : location ≠ parent ++ [name] := by
      rintro rfl
      exact h.free hnode
    rw [h.node?_of_ne hne, hnode]
  · intro location content' hnode
    by_cases heq : location = parent ++ [name]
    · exact ⟨content, heq ▸ h.node?_self⟩
    · exact ⟨content', (h.node?_of_ne heq).trans hnode⟩

/-- What is put into a tree is found under its name. -/
theorem Puts.follow (h : tree.Puts parent name node after) {lead : List String}
    (hlead : after.follow lead = .ok parent) (hparent : after.node? parent = some .directory) :
    after.follow (lead ++ [name]) = .ok (parent ++ [name]) := by
  rw [follow_concat, hlead]
  exact (enter_name hparent h.isName h.size).trans (if_pos (by simp [h.node?_self]))

/-- Before something is put into a tree, nothing is found under its name. -/
theorem Puts.follow_of_free (h : tree.Puts parent name node after)
    (hfree : tree.node? (parent ++ [name]) = none) {lead : List String}
    (hlead : tree.follow lead = .ok parent) :
    tree.follow (lead ++ [name]) = .error .notFound := by
  rw [follow_concat, hlead]
  exact (enter_name h.inDirectory h.isName h.size).trans (if_neg (by simp [hfree]))

/-! ## Directories that are made -/

/-- A tree with further directories. -/
def AddsDirectories (tree after : FileTree) : Prop :=
  ∀ location, after.node? location = tree.node? location ∨
    tree.node? location = none ∧ after.node? location = some .directory

theorem AddsDirectories.refl (tree : FileTree) : tree.AddsDirectories tree :=
  fun _ => .inl rfl

theorem AddsDirectories.trans {middle : FileTree} (h : tree.AddsDirectories middle)
    (h' : middle.AddsDirectories after) : tree.AddsDirectories after := by
  intro location
  rcases h location with hmiddle | ⟨hnone, hmiddle⟩
  · rw [← hmiddle]
    exact h' location
  · rcases h' location with hafter | ⟨hnone', -⟩
    · exact .inr ⟨hnone, hafter.trans hmiddle⟩
    · rw [hmiddle] at hnone'
      cases hnone'

theorem AddsDirectories.growsInto (h : tree.AddsDirectories after) : tree.GrowsInto after := by
  constructor
  · intro location hnode
    rcases h location with hafter | ⟨hnone, -⟩
    · exact hafter.trans hnode
    · rw [hnone] at hnode
      cases hnode
  · intro location content hnode
    rcases h location with hafter | ⟨hnone, -⟩
    · exact ⟨content, hafter.trans hnode⟩
    · rw [hnone] at hnode
      cases hnode

theorem addsDirectories_makeAt (h : tree.makeAt parent name = .ok after) :
    tree.AddsDirectories after := by
  obtain ⟨hputs, hfree⟩ := makeAt_eq_ok_iff.mp h
  intro location
  by_cases heq : location = parent ++ [name]
  · subst heq
    exact .inr ⟨hfree, hputs.node?_self⟩
  · exact .inl (hputs.node?_of_ne heq)

theorem exists_eq_trimmed_append (components : List String) : ∃ slashes,
    (∀ component ∈ slashes, component = "") ∧
      components = (components.reverse.dropWhile (· = "")).reverse ++ slashes := by
  refine ⟨(components.reverse.takeWhile (· = "")).reverse, fun component hcomponent => ?_, ?_⟩
  · simpa using List.mem_takeWhile_imp (List.mem_reverse.mp hcomponent)
  · rw [← List.reverse_append, List.takeWhile_append_dropWhile, List.reverse_reverse]

/-- One directory is made where its path leads without the last component and the slashes behind
it. -/
theorem exists_of_makeDirectory (h : tree.makeDirectory path = .ok after) :
    ∃ lead name slashes parent, usable path = .ok (lead ++ [name] ++ slashes) ∧
      (∀ component ∈ slashes, component = "") ∧ tree.follow lead = .ok parent ∧
        tree.makeAt parent name = .ok after := by
  obtain ⟨components, husable, h⟩ := bind_eq_ok_iff.mp h
  obtain ⟨slashes, hslashes, hcomponents⟩ := exists_eq_trimmed_append components
  cases hlast : leadAndName? (components.reverse.dropWhile (· = "")).reverse with
  | none =>
      simp only [hlast] at h
      cases h
  | some leadAndName =>
      obtain ⟨lead, name⟩ := leadAndName
      simp only [hlast] at h
      obtain ⟨parent, hparent, hmake⟩ := bind_eq_ok_iff.mp h
      rw [leadAndName?_eq_some_iff.mp hlast] at hcomponents
      exact ⟨lead, name, slashes, parent, hcomponents ▸ husable, hslashes, hparent, hmake⟩

/-- A directory that is made is not there before, and it is there afterwards. -/
theorem makeDirectory_spec (h : tree.makeDirectory path = .ok after) :
    tree.AddsDirectories after ∧ tree.leadsTo path = false ∧ after.isDirectory path = true := by
  obtain ⟨lead, name, slashes, parent, husable, hslashes, hparent, hmake⟩ :=
    exists_of_makeDirectory h
  obtain ⟨hputs, hfree⟩ := makeAt_eq_ok_iff.mp hmake
  have hadds := addsDirectories_makeAt hmake
  refine ⟨hadds, ?_, ?_⟩
  -- Before, the path fails at the name, and the slashes behind it do not matter.
  · rw [leadsTo, locate, husable]
    change Except.toBool (tree.follow (lead ++ [name] ++ slashes)) = false
    rw [follow_append, hputs.follow_of_free hfree hparent]
    rfl
  · have hnode := hputs.node?_self
    refine isDirectory_iff.mpr ⟨parent ++ [name], locate_eq_ok_iff.mpr ⟨_, husable, ?_⟩, hnode⟩
    have hfollow := hputs.follow (hadds.growsInto.follow hparent)
      (hadds.growsInto.directory hputs.inDirectory)
    rw [follow_append, hfollow]
    exact foldlM_enter_of_forall_empty hnode hslashes

theorem ensureDirectory_spec (h : tree.ensureDirectory path = .ok after) :
    tree.AddsDirectories after ∧ after.isDirectory path = true := by
  unfold ensureDirectory at h
  split at h
  · rename_i made hmade
    cases h
    obtain ⟨hadds, -, hpath⟩ := makeDirectory_spec hmade
    exact ⟨hadds, hpath⟩
  · split at h
    · rename_i hpath
      cases h
      exact ⟨.refl tree, hpath⟩
    · cases h

/-- At a component a way ends, goes on to what is there, or makes a directory and goes on from it. -/
theorem makeWay_cons_cases (tree : FileTree) (location : Location) (component : String)
    (components : List String) :
    (tree.makeWay location (component :: components)).1 = tree ∨
      (∃ next, tree.enter location component = .ok next ∧
        tree.makeWay location (component :: components) = tree.makeWay next components) ∨
      ∃ made, tree.makeAt location component = .ok made ∧
        tree.makeWay location (component :: components) =
          made.makeWay (location ++ [component]) components := by
  rw [makeWay]
  split
  · rename_i next hnext
    split
    · exact .inr (.inl ⟨next, hnext, rfl⟩)
    · exact .inl rfl
  · split
    · rename_i made hmade
      exact .inr (.inr ⟨made, hmade, rfl⟩)
    · exact .inl rfl
  · exact .inl rfl

/-- However far a way goes, it makes nothing but directories. -/
theorem addsDirectories_makeWay (tree : FileTree) (location : Location) (components : List String) :
    tree.AddsDirectories (tree.makeWay location components).1 := by
  induction components generalizing tree location with
  | nil => exact .refl _
  | cons component components ih =>
      rcases tree.makeWay_cons_cases location component components with
        hends | ⟨next, -, hrest⟩ | ⟨made, hmade, hrest⟩
      · rw [hends]
        exact .refl _
      · rw [hrest]
        exact ih tree next
      · rw [hrest]
        exact (addsDirectories_makeAt hmade).trans (ih made _)

/-- Directories are made at once, or after those that they are in. -/
theorem makeDirectories_eq_ok_iff : tree.makeDirectories path = .ok after ↔
    tree.ensureDirectory path = .ok after ∨
      tree.ensureDirectory path = .error .notFound ∧ ∃ made,
        tree.makeWay [] (wayTo path) = (made, none) ∧ made.ensureDirectory path = .ok after := by
  unfold makeDirectories
  split
  · rename_i hmissing
    rw [hmissing]
    split
    · rename_i made hmade
      simp [hmade]
    · rename_i made error hmade
      simp [hmade]
  · rename_i hthere
    exact ⟨.inl, fun h => h.resolve_right fun hway => hthere hway.1⟩

theorem makeDirectories_spec (h : tree.makeDirectories path = .ok after) :
    tree.AddsDirectories after ∧ after.isDirectory path = true := by
  rcases makeDirectories_eq_ok_iff.mp h with hensure | ⟨-, made, hmade, hensure⟩
  · exact ensureDirectory_spec hensure
  · have hway := addsDirectories_makeWay tree [] (wayTo path)
    rw [hmade] at hway
    obtain ⟨hadds, hpath⟩ := ensureDirectory_spec hensure
    exact ⟨hway.trans hadds, hpath⟩

/-- Where directories cannot all be made, nothing but directories is left. -/
theorem addsDirectories_leftOnWay (tree : FileTree) (path : String) :
    tree.AddsDirectories (tree.leftOnWay path) := by
  unfold leftOnWay
  split
  · exact addsDirectories_makeWay tree [] (wayTo path)
  · exact .refl _

/-- Making a directory that is there changes nothing. -/
theorem makeDirectories_of_isDirectory (h : tree.isDirectory path = true) :
    tree.makeDirectories path = .ok tree := by
  have hensure : tree.ensureDirectory path = .ok tree := by
    unfold ensureDirectory
    split
    · rename_i made hmade
      obtain ⟨location, hlocation, -⟩ := isDirectory_iff.mp h
      have hleads := leadsTo_iff.mpr ⟨location, hlocation⟩
      rw [(makeDirectory_spec hmade).2.1] at hleads
      cases hleads
    · rw [if_pos h]
  rw [makeDirectories, hensure]

end ChangeNotification.FileTree
