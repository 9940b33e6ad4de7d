import ChangeNotification.Proofs.Project.TargetOrder

/-! # Directories that take entries

A directory takes a file under any name that can be used, unless another directory has the name. So
sources can be delivered one after the other. -/

namespace ChangeNotification

namespace FileTree

variable {tree made after : FileTree} {path name out : String} {location place : Location}
  {content : ByteArray}

theorem usable_toBool_iff : (usable path).toBool = true ↔
    path ≠ "" ∧ '\x00' ∉ path.toList ∧ path.utf8ByteSize ≤ maxPathSize := by
  unfold usable
  split
  · rename_i hempty
    simp [Except.toBool, String.isEmpty_iff.mp hempty]
  · rename_i hempty
    split
    · rename_i hnul
      simp_all [Except.toBool]
    · split <;> simp_all [Except.toBool]

/-! ## Names that are free -/

/-- A name that a file can have in a directory that `path` leads to. -/
structure IsFree (tree : FileTree) (path : String) (location : Location) (name : String) :
    Prop where
  plain : '/' ∉ name.toList
  isName : isStep name = false
  size : name.utf8ByteSize ≤ maxNameSize
  usable : (usable (Path.join path name)).toBool = true
  free : tree.node? (location ++ [name]) ≠ some .directory

theorem IsFree.usable_eq_ok (h : tree.IsFree path location name) :
    FileTree.usable (Path.join path name) = .ok (Path.lead path ++ [name]) := by
  obtain ⟨components, husable⟩ := exists_eq_ok_of_toBool h.usable
  rw [husable, (FileTree.usable_eq_ok husable).2, Path.components_join h.plain]

variable (hlocation : tree.locate path = .ok location)
  (hdirectory : tree.node? location = some .directory)

include hlocation hdirectory

theorem exists_writeFile_join (h : tree.IsFree path location name) (content : ByteArray) :
    ∃ after, tree.writeFile (Path.join path name) content = .ok after ∧
      tree.Puts location name (.file content) after := by
  obtain ⟨after, hputs⟩ := exists_puts hdirectory h.isName h.size h.free (.file content)
  exact ⟨after, writeFile_eq_ok_iff.mpr
    ⟨Path.lead path, name, location, h.usable_eq_ok, follow_lead hlocation, hputs⟩, hputs⟩

/-- A directory is made under a name unless a file has the name. -/
theorem exists_makeDirectories_join (hplain : '/' ∉ name.toList) (hname : isStep name = false)
    (hsize : name.utf8ByteSize ≤ maxNameSize)
    (husable : (usable (Path.join path name)).toBool = true)
    (hfile : ∀ content, tree.node? (location ++ [name]) ≠ some (.file content)) :
    ∃ made, tree.makeDirectories (Path.join path name) = .ok made ∧
      made.locate (Path.join path name) = .ok (location ++ [name]) ∧
        made.node? (location ++ [name]) = some .directory ∧
          ∀ other, other ≠ location ++ [name] → made.node? other = tree.node? other := by
  obtain ⟨components, husable⟩ := exists_eq_ok_of_toBool husable
  have hcomponents := (usable_eq_ok husable).2
  rw [Path.components_join hplain] at hcomponents
  subst hcomponents
  have hlead := follow_lead hlocation
  cases hnode : tree.node? (location ++ [name]) with
  | some node =>
      cases node with
      | file content => exact absurd hnode (hfile content)
      | directory =>
          have henter := enter_name hdirectory hname hsize
          rw [if_pos (by simp [hnode])] at henter
          have hlocate : tree.locate (Path.join path name) = .ok (location ++ [name]) :=
            locate_eq_ok_iff.mpr ⟨_, husable, by rw [follow_concat, hlead]; exact henter⟩
          have hthere := isDirectory_iff.mpr ⟨_, hlocate, hnode⟩
          exact ⟨tree, makeDirectories_of_isDirectory hthere, hlocate, hnode, fun _ _ => rfl⟩
  | none =>
      obtain ⟨made, hputs⟩ := exists_puts hdirectory hname hsize (by simp [hnode]) .directory
      have hmake := makeAt_eq_ok_iff.mpr ⟨hputs, hnode⟩
      have hgrows := (addsDirectories_makeAt hmake).growsInto
      have hmakes : tree.makeDirectory (Path.join path name) = .ok made := by
        have hnonempty : name ≠ "" := by
          rintro rfl
          cases hname
        have htrimmed : ((Path.lead path ++ [name]).reverse.dropWhile (· = "")).reverse =
            Path.lead path ++ [name] := by
          simp [hnonempty]
        have hlast : leadAndName? (Path.lead path ++ [name]) = some (Path.lead path, name) :=
          leadAndName?_eq_some_iff.mpr rfl
        refine bind_eq_ok_iff.mpr ⟨_, husable, ?_⟩
        simp only [htrimmed, hlast]
        exact bind_eq_ok_iff.mpr ⟨location, hlead, hmake⟩
      refine ⟨made, by rw [makeDirectories, ensureDirectory, hmakes], ?_, hputs.node?_self,
        fun other => hputs.node?_of_ne⟩
      exact locate_eq_ok_iff.mpr ⟨_, husable, hputs.follow (hgrows.follow hlead)
        (hgrows.directory hdirectory)⟩

/-! ## Rows of deliveries -/

theorem exists_deliverAll_of_isFree {sources : List GeneratedSource}
    (h : ∀ source ∈ sources, tree.IsFree path location source.hintName) :
    ∃ after, tree.deliverAll path sources = .ok after := by
  induction sources generalizing tree with
  | nil => exact ⟨tree, rfl⟩
  | cons source sources ih =>
      obtain ⟨hsource, hsources⟩ := List.forall_mem_cons.mp h
      have hthere := isDirectory_iff.mpr ⟨location, hlocation, hdirectory⟩
      obtain ⟨next, hwrite, hputs⟩ := exists_writeFile_join hlocation hdirectory hsource
        source.sourceText.toUTF8
      have hdeliver : tree.deliver path source = .ok next := by
        rw [deliver, makeDirectories_of_isDirectory hthere]
        exact hwrite
      have hgrows := hputs.growsInto_of_file
      obtain ⟨after, hafter⟩ := ih (hgrows.locate hlocation) (hgrows.directory hdirectory)
        fun other hother => { hsources other hother with
          free := by
            rw [hputs.entries]
            split
            · simp
            · exact (hsources other hother).free }
      exact ⟨after, deliverAll_cons_eq_ok_iff.mpr ⟨next, hdeliver, hafter⟩⟩

end FileTree

end ChangeNotification
