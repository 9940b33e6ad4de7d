import ChangeNotification.Proofs.Project.FirstGeneration

/-! # What setting up a project establishes

Setting up a project can be repeated and takes nothing away. Where nothing was before, the project
can be generated at once. -/

namespace ChangeNotification

/-- A run without failures makes a generation succeed. -/
theorem GenerationRequest.exists_generate_of_run {request : GenerationRequest} {directory : String}
    {w after : Workspace} {summary : Summary}
    (hrun : request.run directory w = .ok (summary, after)) (hfailed : summary.failed = 0) :
    ∃ final, request.generate directory w = .ok final ∧ final.tree = after.tree := by
  have hlines : after.tree.carryOut [.say "", .say summary.verdict] = .ok after.tree := rfl
  obtain ⟨final, hperform, hfinal⟩ := Workspace.exists_perform_of_carryOut Effect.blame hlines
  exact ⟨final, bind_eq_ok_iff.mpr ⟨_, hrun, bind_eq_ok_iff.mpr ⟨final, hperform, if_pos hfailed⟩⟩,
    hfinal⟩

namespace ScaffoldRequest

variable {request : ScaffoldRequest} {directory : String} {w after : Workspace} {root : Location}

/-! ## Where a project can be set up -/

/-- Where nothing was before, a project can be set up with a plain name for its facts. -/
theorem exists_scaffold_of_isVacant (hvacant : w.tree.IsVacant directory root)
    (hplain : '/' ∉ request.factsDir.toList) (hname : FileTree.isStep request.factsDir = false)
    (hsize : request.factsDir.utf8ByteSize ≤ FileTree.maxNameSize)
    (hne : request.factsDir ≠ Config.fileName)
    (hfacts : (FileTree.usable (request.factsPath directory)).toBool = true)
    (hexample : (FileTree.usable (request.examplePath directory)).toBool = true)
    (hconfig : (FileTree.usable (Config.filePath directory)).toBool = true) :
    ∃ after, request.scaffold directory w = .ok after := by
  have hnone (name : String) : w.tree.node? (root ++ [name]) = none :=
    hvacant.node?_eq_none [name] (by simp)
  obtain ⟨made, hmade, hplace, hdirectory, hothers⟩ :=
    FileTree.exists_makeDirectories_join hvacant.located hvacant.isDirectory hplain hname hsize
      hfacts (by simp [hnone])
  have hgrows := (FileTree.makeDirectories_spec hmade).1.growsInto
  have hbelow : made.node? (root ++ [request.factsDir] ++ [exampleName]) = none := by
    rw [hothers _ (by simp), List.append_assoc]
    exact hvacant.node?_eq_none [request.factsDir, exampleName] (by simp)
  have hfree : made.IsFree (request.factsPath directory) (root ++ [request.factsDir])
      exampleName :=
    ⟨by decide, by decide, by decide, hexample, ne_of_eq_of_ne hbelow (by simp)⟩
  obtain ⟨furnished, hwrite, hputs⟩ := FileTree.exists_writeFile_join hplace hdirectory hfree
    exampleBundle.toJson.pretty.toUTF8
  have hgrows' := hgrows.trans hputs.growsInto_of_file
  have hfreeConfig : furnished.IsFree directory root Config.fileName := by
    refine ⟨by decide, by decide, by decide, hconfig, ?_⟩
    have hapart : root ++ [Config.fileName] ≠ root ++ [request.factsDir] := by
      simpa using hne.symm
    rw [hputs.node?_of_ne (by simp), hothers _ hapart, hnone]
    simp
  obtain ⟨later, hlater, -⟩ := FileTree.exists_writeFile_join (hgrows'.locate hvacant.located)
    (hgrows'.directory hvacant.isDirectory) hfreeConfig request.config.toJson.pretty.toUTF8
  have hleads : made.leadsTo (request.examplePath directory) = false :=
    FileTree.leadsTo_join_of_free hplace (by decide) (by decide) hbelow
  have hsetsUp : request.SetsUp directory w.tree made furnished later :=
    ⟨.inr ⟨hvacant.leadsTo_join hplain hname, hmade⟩, .inr ⟨hleads, hwrite⟩, hlater⟩
  obtain ⟨after, hafter, -⟩ := exists_scaffold_of_setsUp
    (.inr (hvacant.leadsTo_join (by decide) (by decide))) hsetsUp
  exact ⟨after, hafter⟩

/-! ## A directory without room -/

/-- A path of slashes. It leads to the root, however long it is. -/
def slashes (n : Nat) : String := String.ofList (List.replicate n '/')

theorem components_slashes (n : Nat) :
    Path.components (slashes n) = List.replicate (n + 1) "" := by
  have hpieces : Text.pieces '/' (List.replicate n '/') = List.replicate (n + 1) [] := by
    induction n with
    | zero => rfl
    | succ n ih => rw [List.replicate_succ, Text.pieces, if_pos rfl, ih]; rfl
  rw [Path.components, Text.split, slashes, String.toList_ofList, hpieces, List.map_replicate]

theorem utf8ByteSize_slashes (n : Nat) : (slashes n).utf8ByteSize = n := by
  induction n with
  | zero => rfl
  | succ n ih =>
      have hstep : slashes (n + 1) = "/" ++ slashes n := by
        apply String.toList_injective
        simp [slashes, List.replicate_succ]
      have hone : "/".utf8ByteSize = 1 := by decide
      rw [hstep, String.utf8ByteSize_append, ih, hone, Nat.add_comm]

section Slashes

variable {n : Nat} (hn : 0 < n) {path : String}

include hn

theorem slashes_ne_empty : slashes n ≠ "" := by
  intro h
  have hsize := utf8ByteSize_slashes n
  rw [h, String.utf8ByteSize_empty] at hsize
  omega

theorem join_slashes (hpath : Path.isAbsolute path = false) :
    Path.join (slashes n) path = slashes n ++ path := by
  have hlast : (slashes n).toList.getLast? = some '/' := by
    rw [slashes, String.toList_ofList, List.getLast?_replicate, if_neg (by omega)]
  have hempty : (slashes n).isEmpty = false := by
    rw [← Bool.not_eq_true, String.isEmpty_iff]
    exact slashes_ne_empty hn
  rw [Path.join, hpath, hempty, if_neg (by decide), if_neg (by decide), if_pos hlast]

theorem usable_slashes_append (hpath : '\x00' ∉ path.toList)
    (hsize : n + path.utf8ByteSize ≤ FileTree.maxPathSize) :
    (FileTree.usable (slashes n ++ path)).toBool = true := by
  refine FileTree.usable_toBool_iff.mpr ⟨?_, ?_, ?_⟩
  · simp [slashes_ne_empty hn]
  · simpa [slashes] using hpath
  · rwa [String.utf8ByteSize_append, utf8ByteSize_slashes]

theorem isVacant_slashes (hsize : n ≤ FileTree.maxPathSize) :
    (∅ : FileTree).IsVacant (slashes n) [] := by
  have husable : (FileTree.usable (slashes n)).toBool = true := by
    rw [← String.append_empty (s := slashes n)]
    exact usable_slashes_append hn (by simp) hsize
  obtain ⟨components, husable⟩ := exists_eq_ok_of_toBool husable
  refine FileTree.isVacant_empty (FileTree.locate_eq_ok_iff.mpr ⟨components, husable, ?_⟩)
  rw [(FileTree.usable_eq_ok husable).2, components_slashes]
  exact FileTree.foldlM_enter_of_forall_empty rfl fun component hcomponent =>
    List.eq_of_mem_replicate hcomponent

theorem factsPath_slashes :
    ({} : ScaffoldRequest).factsPath (slashes n) = slashes n ++ "facts" := by
  change Path.join (slashes n) "facts" = _
  exact join_slashes hn (by decide)

theorem examplePath_slashes :
    ({} : ScaffoldRequest).examplePath (slashes n) = slashes n ++ "facts/example.facts.json" := by
  have hjoin : Path.join (slashes n ++ "facts") exampleName =
      slashes n ++ "facts" ++ "/" ++ exampleName :=
    Path.join_of_getLast? (c := 's') (by simp) (by decide) (by decide)
  rw [examplePath, factsPath_slashes hn, hjoin, String.append_assoc, String.append_assoc]
  rfl

theorem sourcePath_slashes {hintName : String} (hhint : Path.isAbsolute hintName = false) :
    Path.join (({} : Config).outPath (slashes n)) hintName =
      slashes n ++ ("generated/" ++ hintName) := by
  have hgenerated : ({} : Config).outPath (slashes n) = slashes n ++ "generated" := by
    change Path.join (slashes n) "generated" = _
    exact join_slashes hn (by decide)
  have hslash : "generated" ++ "/" = "generated/" := rfl
  rw [hgenerated, Path.join_of_getLast? (c := 'd') (by simp) (by decide) hhint, ← hslash]
  simp only [String.append_assoc]

/-- Where there is room for the configuration and the bundle, a project can be set up. -/
theorem exists_scaffold_slashes (hfits : n + 24 ≤ FileTree.maxPathSize) :
    ∃ after, ({} : ScaffoldRequest).scaffold (slashes n) { tree := ∅ } = .ok after := by
  have hsizes : "facts".utf8ByteSize = 5 ∧ "facts/example.facts.json".utf8ByteSize = 24 ∧
      Config.fileName.utf8ByteSize = 22 := by
    decide
  refine exists_scaffold_of_isVacant (isVacant_slashes hn (by omega)) (by decide) (by decide)
    (by decide) (by decide) ?_ ?_ ?_
  · rw [factsPath_slashes hn]
    exact usable_slashes_append hn (by decide) (by omega)
  · rw [examplePath_slashes hn]
    exact usable_slashes_append hn (by decide) (by omega)
  · rw [Config.filePath, join_slashes hn (by decide)]
    exact usable_slashes_append hn (by decide) (by omega)

/-- Where there is no room for all sources that are generated first, none of them can be. -/
theorem run_slashes_ne_ok {w after : Workspace} (htight : FileTree.maxPathSize < n + 51)
    (hsize : n ≤ FileTree.maxPathSize) (htree : w.tree = ∅)
    (h : ({} : ScaffoldRequest).scaffold (slashes n) w = .ok after) (summary : Summary)
    (final : Workspace) :
    ({} : GenerationRequest).run (slashes n) after ≠ .ok (summary, final) := by
  intro hrun
  have hvacant : w.tree.IsVacant (slashes n) [] := htree ▸ isVacant_slashes hn hsize
  obtain ⟨made, furnished, hsetsUp⟩ := exists_setsUp_of_isVacant hvacant h
  have hplan : ({} : GenerationRequest).planOn (slashes n) after.tree = _ :=
    hsetsUp.planOn_eq hvacant rfl
  rw [hsetsUp.isDirectory_examplePath hvacant (by simp) (by decide), if_neg (by decide)] at hplan
  have hlongest : ∃ source ∈ SupportSource.all {},
      source.hintName = "PropNotify.NotificationAccessibility.g.cs" := by
    refine ⟨_, .tail _ (.head _), ?_⟩
    decide
  obtain ⟨source, hsource, hname⟩ := hlongest
  have hroom := (GenerationRequest.hasRoom_of_run hrun).resolve_left Bool.false_ne_true source
    (by rw [hplan]; exact List.mem_append_right _ hsource)
  have hlength :
      ("generated/" ++ "PropNotify.NotificationAccessibility.g.cs").utf8ByteSize = 51 := by
    decide
  rw [hsetsUp.outPath_configOn rfl, hname] at hroom
  change (Path.join (({} : Config).outPath (slashes n)) _).utf8ByteSize ≤ _ at hroom
  rw [sourcePath_slashes hn (by decide), String.utf8ByteSize_append, utf8ByteSize_slashes,
    hlength] at hroom
  omega

end Slashes

/-! ## Projects that are set up -/

/-- What setting up a project leaves of the tree before, and how the project goes on. -/
structure Establishes (request : ScaffoldRequest) (directory : String) (before after : FileTree) :
    Prop where
  keeps : ∀ location node, before.node? location = some node →
    after.node? location = some node ∨ after.locate (Config.filePath directory) = .ok location
  unchanged : request.force = false → before.leadsTo (Config.filePath directory) = true →
    after = before
  configured : request.force = true ∨ before.leadsTo (Config.filePath directory) = false →
    Config.load after directory = .ok { factsDir := request.factsDir }
  again : ∀ (next : ScaffoldRequest) (w : Workspace), next.force = false → w.tree = after →
    ∃ final, next.scaffold directory w = .ok final ∧ final.tree = after
  generates : ∀ root, before.IsVacant directory root →
    (∀ component ∈ Path.components request.factsDir,
      ¬ GeneratedSource.suffix.toList <:+ component.toList) →
    ∀ (generation : GenerationRequest) (w : Workspace), generation.factsPath = none →
      generation.outDir = none → generation.HasRoom directory after → w.tree = after →
      ∃ final finished, generation.run directory w =
          .ok (if after.isDirectory (request.examplePath directory) then {}
            else firstSummary generation, final) ∧
        generation.generate directory w = .ok finished ∧ finished.tree = final.tree

/-- Setting up a project takes nothing away but a configuration that is to be written over, leaves the
default configuration with the directory of facts, and changes nothing when it is repeated. Where
nothing was before, a generation succeeds; it makes one unit and the support sources, unless a
directory is in the place of the bundle. -/
theorem establishes_of_scaffold (h : request.scaffold directory w = .ok after) :
    request.Establishes directory w.tree after.tree := by
  have hleads := leadsTo_filePath_of_scaffold h
  refine ⟨fun location node hnode => ?_, fun hforce hthere => ?_, fun hwritten => ?_,
    fun next w' hforce hw => ?_, fun root hvacant hsuffix generation w' hpath hout hroom hw => ?_⟩
  · rcases setsUp_of_scaffold h with ⟨-, -, hsame⟩ | ⟨-, made, furnished, hsetsUp⟩
    · exact .inl (hsame ▸ hnode)
    · exact hsetsUp.keeps hnode
  · rcases setsUp_of_scaffold h with ⟨-, -, hsame⟩ | ⟨hnew, -⟩
    · exact hsame
    · rcases hnew with hforce' | hnone
      · rw [hforce] at hforce'
        cases hforce'
      · rw [hthere] at hnone
        cases hnone
  · rcases setsUp_of_scaffold h with ⟨hforce, hthere, -⟩ | ⟨-, made, furnished, hsetsUp⟩
    · rw [hforce, hthere] at hwritten
      simp at hwritten
    · exact hsetsUp.load
  · rw [← hw] at hleads ⊢
    exact exists_scaffold_of_leadsTo hforce hleads
  · obtain ⟨made, furnished, hsetsUp⟩ := exists_setsUp_of_isVacant hvacant h
    obtain ⟨final, hrun⟩ := hsetsUp.exists_run hvacant hsuffix hroom hpath hout hw
    have hfailed : (if after.tree.isDirectory (request.examplePath directory) then {}
        else firstSummary generation).failed = 0 := by
      split <;> rfl
    obtain ⟨finished, hfinished, htree⟩ := GenerationRequest.exists_generate_of_run hrun hfailed
    exact ⟨final, finished, hrun, hfinished, htree⟩

theorem establishes_of_scaffold_root :
    ∃ after final, ({} : ScaffoldRequest).scaffold "/" { tree := ∅ } = .ok after ∧
      ({} : ScaffoldRequest).Establishes "/" ∅ after.tree ∧
      ({} : GenerationRequest).run "/" after = .ok (⟨4, 0, 0⟩, final) := by
  have hvacant : (∅ : FileTree).IsVacant "/" [] := FileTree.isVacant_empty (by decide)
  have hset : ∃ after, ({} : ScaffoldRequest).scaffold "/" { tree := ∅ } = .ok after :=
    exists_scaffold_of_isVacant hvacant (by decide) (by decide) (by decide) (by decide)
      (by decide) (by decide) (by decide)
  obtain ⟨after, hafter⟩ := hset
  have hestablishes := establishes_of_scaffold hafter
  obtain ⟨made, furnished, hsetsUp⟩ := exists_setsUp_of_isVacant hvacant hafter
  have hroom : ({} : GenerationRequest).HasRoom "/" after.tree :=
    hsetsUp.hasRoom hvacant rfl rfl (by decide)
  obtain ⟨final, finished, hrun, -⟩ :=
    hestablishes.generates [] hvacant (by decide) {} after rfl rfl hroom rfl
  rw [hsetsUp.isDirectory_examplePath hvacant (by simp) (by decide)] at hrun
  exact ⟨after, final, hafter, hestablishes, hrun⟩

/-- The way to the facts makes a directory in the place of the bundle, so that nothing is generated.
The path of a directory can be so long that a project can be set up there but not generated. -/
theorem not_generates_of_taken_or_without_room :
    let request : ScaffoldRequest := { factsDir := "example.facts.json/.." }
    ((∅ : FileTree).IsVacant "/" [] ∧
      (∀ component ∈ Path.components request.factsDir,
        ¬ GeneratedSource.suffix.toList <:+ component.toList) ∧
      ∃ after final, request.scaffold "/" { tree := ∅ } = .ok after ∧
        ({} : GenerationRequest).run "/" after = .ok (⟨0, 0, 0⟩, final)) ∧
    (∅ : FileTree).IsVacant (slashes 4050) [] ∧
      ∃ after, ({} : ScaffoldRequest).scaffold (slashes 4050) { tree := ∅ } = .ok after ∧
        ∀ summary final,
          ({} : GenerationRequest).run (slashes 4050) after ≠ .ok (summary, final) := by
  intro request
  have hvacant : (∅ : FileTree).IsVacant "/" [] := FileTree.isVacant_empty (by decide)
  have hset : (request.scaffold "/" { tree := ∅ }).toOption.map
      (fun after => after.tree.isDirectory (request.examplePath "/")) = some true := by
    decide +kernel
  obtain ⟨after, hafter, htaken⟩ := Option.map_eq_some_iff.mp hset
  have hafter := toOption_eq_some_iff.mp hafter
  obtain ⟨tight, htight⟩ : ∃ after,
      ({} : ScaffoldRequest).scaffold (slashes 4050) { tree := ∅ } = .ok after :=
    exists_scaffold_slashes (by decide) (by decide)
  refine ⟨⟨hvacant, by decide, after, ?_⟩, isVacant_slashes (by decide) (by decide), tight, htight,
    run_slashes_ne_ok (by decide) (by decide) (by decide) rfl htight⟩
  obtain ⟨made, furnished, hsetsUp⟩ := exists_setsUp_of_isVacant hvacant hafter
  have hroom : ({} : GenerationRequest).HasRoom "/" after.tree :=
    hsetsUp.hasRoom hvacant rfl rfl (by decide)
  obtain ⟨final, hrun⟩ := hsetsUp.exists_run hvacant (by decide) hroom rfl rfl rfl
  rw [htaken] at hrun
  exact ⟨final, hafter, hrun⟩

end ScaffoldRequest

end ChangeNotification
