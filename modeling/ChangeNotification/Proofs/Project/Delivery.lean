import ChangeNotification.Proofs.Emission.HintName
import ChangeNotification.Proofs.Project.Generation
import ChangeNotification.Proofs.Project.NewDirectories
import ChangeNotification.Proofs.Project.Path

/-! # Deliveries into a directory

A delivery puts one file into the tree, after the directory that it goes to was made. Deliveries that
took place once take place again on what they left, and then change nothing. -/

namespace ChangeNotification

/-! ## Names of sources -/

/-- How the names of all sources end. -/
def GeneratedSource.suffix : String := ".g.cs"

/-- A source whose name ends as the names of sources do. -/
def GeneratedSource.IsNamed (source : GeneratedSource) : Prop :=
  ∃ stem, source.hintName = stem ++ suffix

open Emission in
theorem Outcome.isNamed_of_mem_outcomesOf {config : Config} {targets : List PropertyFacts}
    {outcome : Outcome} (houtcome : outcome ∈ Plan.outcomesOf config targets)
    {source : GeneratedSource} (hsource : outcome.result = .ok source) : source.IsNamed := by
  rw [Plan.outcomesOf] at houtcome
  cases hmode : config.mode with
  | perProperty =>
      rw [hmode] at houtcome
      obtain ⟨facts, -, rfl⟩ := List.mem_map.mp houtcome
      rw [PropertyFacts.outcome] at hsource
      split at hsource
      · cases hsource
      · exact ⟨_, hintName_of_emitProperty (mapError_eq_ok_iff.mp hsource)⟩
  | perType =>
      rw [hmode] at houtcome
      rcases List.mem_append.mp houtcome with hfailure | hgroup
      · obtain ⟨facts, -, hfailure⟩ := List.mem_filterMap.mp hfailure
        rw [PropertyFacts.failure?] at hfailure
        split at hfailure <;> cases hfailure
        cases hsource
      · obtain ⟨group, -, rfl⟩ := List.mem_map.mp hgroup
        obtain ⟨descriptor, -, hname⟩ := hintName_of_emitType (mapError_eq_ok_iff.mp hsource)
        have hends : "-members.g.cs" = "-members" ++ GeneratedSource.suffix := by decide
        rw [GeneratedSource.IsNamed, hname, typeHintName, hends, ← String.append_assoc]
        exact ⟨_, rfl⟩

theorem SupportSource.isNamed_of_mem_all {options : EmitOptions} {source : GeneratedSource}
    (h : source ∈ all options) : source.IsNamed := by
  simp only [all, List.mem_cons, List.not_mem_nil, or_false] at h
  rcases h with rfl | rfl | rfl <;> exact ⟨_, rfl⟩

theorem Plan.isNamed_of_mem_sources {config : Config} {files : List BundleFile}
    {source : GeneratedSource} (h : source ∈ (Plan.ofFiles config files).sources) :
    source.IsNamed := by
  cases files with
  | nil => cases h
  | cons file files =>
      rcases List.mem_append.mp h with houtcome | hsupport
      · obtain ⟨outcome, houtcome, hsource⟩ := List.mem_filterMap.mp houtcome
        exact Outcome.isNamed_of_mem_outcomesOf houtcome (toOption_eq_some_iff.mp hsource)
      · change source ∈ if config.includeSupportSources then _ else [] at hsupport
        split at hsupport
        · exact SupportSource.isNamed_of_mem_all hsupport
        · cases hsupport

/-- Wherever a source is delivered to, the last component of its path ends as its name does. -/
theorem GeneratedSource.IsNamed.exists_components {source : GeneratedSource} (h : source.IsNamed)
    (out : String) : ∃ before front,
      Path.components (Path.join out source.hintName) = before ++ [front ++ suffix] := by
  obtain ⟨stem, hstem⟩ := h
  rw [hstem]
  exact Path.exists_components_join (by decide) out stem

namespace FileTree

variable {tree after later : FileTree} {out : String} {source : GeneratedSource}
  {sources : List GeneratedSource}

/-! ## One delivery -/

/-- A delivery makes the directory, and puts a file where the path leads without its last
component. -/
theorem deliver_eq_ok_iff : tree.deliver out source = .ok after ↔
    ∃ made lead name parent, tree.makeDirectories out = .ok made ∧
      usable (Path.join out source.hintName) = .ok (lead ++ [name]) ∧
        made.follow lead = .ok parent ∧
          made.Puts parent name (.file source.sourceText.toUTF8) after := by
  rw [deliver, bind_eq_ok_iff]
  simp only [writeFile_eq_ok_iff, exists_and_left]

/-- What a delivery does to a tree, where it puts its file at a location. -/
structure Delivers (out : String) (source : GeneratedSource) (tree : FileTree)
    (location : Location) (after : FileTree) : Prop where
  grows : tree.GrowsInto after
  located : after.locate (Path.join out source.hintName) = .ok location
  written : after.node? location = some (.file source.sourceText.toUTF8)
  name : location.getLast? = (Path.components (Path.join out source.hintName)).getLast?
  others : tree.isDirectory out = true → ∀ other, other ≠ location →
    after.node? other = tree.node? other

theorem exists_delivers (h : tree.deliver out source = .ok after) :
    ∃ location, Delivers out source tree location after := by
  obtain ⟨made, lead, name, parent, hmade, husable, hlead, hputs⟩ := deliver_eq_ok_iff.mp h
  have hgrows := hputs.growsInto_of_file
  have hadds := (makeDirectories_spec hmade).1
  refine ⟨parent ++ [name], hadds.growsInto.trans hgrows, ?_, hputs.node?_self, ?_, ?_⟩
  · exact locate_eq_ok_iff.mpr ⟨_, husable, hputs.follow (hgrows.follow hlead)
      (hgrows.directory hputs.inDirectory)⟩
  · rw [← (usable_eq_ok husable).2, List.getLast?_concat, List.getLast?_concat]
  · intro hout other hother
    rw [makeDirectories_of_isDirectory hout] at hmade
    cases hmade
    exact hputs.node?_of_ne hother

theorem deliverAll_cons_eq_ok_iff : tree.deliverAll out (source :: sources) = .ok after ↔
    ∃ next, tree.deliver out source = .ok next ∧ next.deliverAll out sources = .ok after := by
  rw [deliverAll, List.foldlM_cons]
  exact bind_eq_ok_iff

theorem growsInto_of_deliverAll (h : tree.deliverAll out sources = .ok after) :
    tree.GrowsInto after := by
  induction sources generalizing tree with
  | nil =>
      cases h
      exact .refl _
  | cons source sources ih =>
      obtain ⟨next, hnext, hrest⟩ := deliverAll_cons_eq_ok_iff.mp h
      obtain ⟨location, hdelivers⟩ := exists_delivers hnext
      exact hdelivers.grows.trans (ih hrest)

/-- Every source is delivered to a location that its path leads to. -/
theorem exists_location_of_deliverAll (h : tree.deliverAll out sources = .ok after) :
    ∀ source ∈ sources, ∃ location content,
      after.locate (Path.join out source.hintName) = .ok location ∧
        after.node? location = some (.file content) ∧
          location.getLast? = (Path.components (Path.join out source.hintName)).getLast? := by
  induction sources generalizing tree with
  | nil => simp
  | cons source sources ih =>
      obtain ⟨next, hnext, hrest⟩ := deliverAll_cons_eq_ok_iff.mp h
      obtain ⟨location, hdelivers⟩ := exists_delivers hnext
      have hgrows := growsInto_of_deliverAll hrest
      obtain ⟨content, hcontent⟩ := hgrows.file hdelivers.written
      refine List.forall_mem_cons.mpr ⟨?_, ih hrest⟩
      exact ⟨location, content, hgrows.locate hdelivers.located, hcontent, hdelivers.name⟩

/-- The first delivery makes the directory, and the others find it. -/
theorem deliverAll_of_makeDirectories {made : FileTree} (h : tree.makeDirectories out = .ok made)
    (hne : sources ≠ []) : tree.deliverAll out sources = made.deliverAll out sources := by
  cases sources with
  | nil => exact absurd rfl hne
  | cons source sources =>
      have hthere := (makeDirectories_spec h).2
      rw [deliverAll, deliverAll, List.foldlM_cons, List.foldlM_cons, deliver, deliver, h,
        makeDirectories_of_isDirectory hthere]

theorem exists_makeDirectories_of_deliverAll (h : tree.deliverAll out sources = .ok after)
    (hne : sources ≠ []) :
    ∃ made, tree.makeDirectories out = .ok made ∧ made.deliverAll out sources = .ok after := by
  obtain ⟨source, rest, rfl⟩ := List.exists_cons_of_ne_nil hne
  obtain ⟨next, hnext, -⟩ := deliverAll_cons_eq_ok_iff.mp h
  obtain ⟨made, -, -, -, hmade, -⟩ := deliver_eq_ok_iff.mp hnext
  exact ⟨made, hmade, (deliverAll_of_makeDirectories hmade hne).symm.trans h⟩

theorem deliverAll_elsewhere_of_isDirectory (hout : tree.isDirectory out = true)
    (h : tree.deliverAll out sources = .ok after) {location : Location}
    (hlocation : ∀ source ∈ sources,
      after.locate (Path.join out source.hintName) ≠ .ok location) :
    after.node? location = tree.node? location := by
  induction sources generalizing tree with
  | nil =>
      cases h
      rfl
  | cons source sources ih =>
      obtain ⟨next, hnext, hrest⟩ := deliverAll_cons_eq_ok_iff.mp h
      obtain ⟨target, hdelivers⟩ := exists_delivers hnext
      have htarget : location ≠ target := by
        rintro rfl
        exact hlocation source (.head _)
          ((growsInto_of_deliverAll hrest).locate hdelivers.located)
      have hafter := ih (hdelivers.grows.isDirectory hout) hrest
        fun other hother => hlocation other (.tail _ hother)
      exact hafter.trans (hdelivers.others hout location htarget)

/-- Elsewhere deliveries leave what making their directory leaves. -/
theorem deliverAll_elsewhere_of_makeDirectories (h : tree.deliverAll out sources = .ok after)
    {location : Location} (hlocation : ∀ source ∈ sources,
      after.locate (Path.join out source.hintName) ≠ .ok location) :
    after.node? location = tree.node? location ∨ ∃ made, tree.makeDirectories out = .ok made ∧
      made.GrowsInto after ∧ after.node? location = made.node? location := by
  by_cases hne : sources = []
  · subst hne
    cases h
    exact .inl rfl
  · obtain ⟨made, hmade, hdeliver⟩ := exists_makeDirectories_of_deliverAll h hne
    have hout := (makeDirectories_spec hmade).2
    exact .inr ⟨made, hmade, growsInto_of_deliverAll hdeliver,
      deliverAll_elsewhere_of_isDirectory hout hdeliver hlocation⟩

/-- Elsewhere nothing is new but directories that the path of the deliveries leads through. -/
theorem deliverAll_elsewhere (h : tree.deliverAll out sources = .ok after) {location : Location}
    (hlocation : ∀ source ∈ sources,
      after.locate (Path.join out source.hintName) ≠ .ok location) :
    after.node? location = tree.node? location ∨
      tree.node? location = none ∧ after.node? location = some .directory ∧
        after.LeadsThrough out location := by
  rcases deliverAll_elsewhere_of_makeDirectories h hlocation with
    hsame | ⟨made, hmade, hgrows, hafter⟩
  · exact .inl hsame
  · rcases (makeDirectories_spec hmade).1 location with hsame | ⟨hnone, hdirectory⟩
    · exact .inl (hafter.trans hsame)
    · have hthrough := leadsThrough_makeDirectories hmade hnone (by rw [hdirectory]; rfl)
      exact .inr ⟨hnone, hafter.trans hdirectory, hgrows.leadsThrough hthrough⟩

end FileTree

end ChangeNotification
