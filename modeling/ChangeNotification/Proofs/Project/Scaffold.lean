import ChangeNotification.Project.Scaffold
import ChangeNotification.Proofs.Json.RoundTrip
import ChangeNotification.Proofs.Json.Text
import ChangeNotification.Proofs.Project.Generation
import ChangeNotification.Proofs.Project.Regeneration

/-! # Projects that are set up

A project is set up by at most three additions to the tree: directories for its facts, a bundle, and
the configuration. Whatever was in the tree stays, save a configuration that is written over. -/

namespace ChangeNotification

/-! ## Texts of files -/

theorem fromUTF8?_toUTF8 (s : String) : String.fromUTF8? s.toUTF8 = some s := by
  rw [String.fromUTF8?, String.toUTF8_eq_toByteArray, dif_pos s.isValidUTF8]
  rfl

namespace FileTree

/-- What writing a file does to a tree, where the file is at a location. -/
structure Writes (path : String) (content : ByteArray) (tree : FileTree) (location : Location)
    (after : FileTree) : Prop where
  grows : tree.GrowsInto after
  located : after.locate path = .ok location
  written : after.node? location = some (.file content)
  name : location.getLast? = (Path.components path).getLast?
  new : tree.leadsTo path = false → tree.node? location = none
  others : ∀ other, other ≠ location → after.node? other = tree.node? other

variable {tree after later : FileTree} {path : String} {content : ByteArray} {location : Location}

theorem exists_writes (h : tree.writeFile path content = .ok after) :
    ∃ location, Writes path content tree location after := by
  obtain ⟨lead, name, parent, husable, hlead, hputs⟩ := writeFile_eq_ok_iff.mp h
  have hgrows := hputs.growsInto_of_file
  refine ⟨parent ++ [name], hgrows, ?_, hputs.node?_self, ?_, fun hleads => ?_,
    fun other => hputs.node?_of_ne⟩
  · exact locate_eq_ok_iff.mpr ⟨_, husable, hputs.follow (hgrows.follow hlead)
      (hgrows.directory hputs.inDirectory)⟩
  · rw [← (usable_eq_ok husable).2, List.getLast?_concat, List.getLast?_concat]
  · by_contra hnode
    have henter := enter_name hputs.inDirectory hputs.isName hputs.size
    rw [if_pos (Option.isSome_iff_ne_none.mpr hnode)] at henter
    have hlocate : tree.locate path = .ok (parent ++ [name]) :=
      locate_eq_ok_iff.mpr ⟨_, husable, by rw [follow_concat, hlead]; exact henter⟩
    rw [leadsTo, hlocate] at hleads
    cases hleads

/-- Where nothing was before, a file that is written leaves all entries as they are. -/
theorem Writes.node?_of_new (h : Writes path content tree location after)
    (hnew : tree.leadsTo path = false) {other : Location} {node : Node}
    (hnode : tree.node? other = some node) : after.node? other = some node := by
  have hne : other ≠ location := by
    rintro rfl
    rw [h.new hnew] at hnode
    cases hnode
  rw [h.others other hne, hnode]

theorem Writes.leadsTo (h : Writes path content tree location after) :
    after.leadsTo path = true :=
  leadsTo_iff.mpr ⟨location, h.located⟩

theorem Writes.text? {text : String} (h : Writes path text.toUTF8 tree location after) :
    after.text? path = some text := by
  rw [FileTree.text?, content?, h.located]
  simp only [h.written]
  exact fromUTF8?_toUTF8 text

end FileTree

/-! ## Texts that are written -/

theorem Config.fits_toJson (config : Config) : Json.Fits Json.maxDepth config.toJson := by
  simp [Json.maxDepth, toJson, EmitOptions.toJson, GenerationMode.toJson, LineEnding.toJson,
    Json.ofNat]

theorem Config.parse?_pretty (config : Config) : parse? config.toJson.pretty = some config := by
  rw [parse?, Json.parse?_pretty config.fits_toJson]
  exact config.ofJson?_toJson

/-- A configuration that is written is the one that is loaded. -/
theorem Config.load_of_writes {config : Config} {directory : String} {tree after : FileTree}
    {location : Location} (h : FileTree.Writes (filePath directory) config.toJson.pretty.toUTF8
      tree location after) : load after directory = .ok config := by
  simp only [load, h.leadsTo, h.text?, if_true, parse?_pretty]

@[simp] theorem AttributeValue.fits_toJson {levels : Nat} (value : AttributeValue) :
    Json.Fits levels value.toJson := by
  cases value <;> simp [toJson]

theorem Attribute.fits_toJson {levels : Nat} (attr : Attribute) :
    Json.Fits (levels + 2) attr.toJson := by
  simp only [toJson, Json.fits_object, List.forall_mem_cons, Json.fits_string, Json.fits_array,
    List.forall_mem_map, AttributeValue.fits_toJson, implies_true, List.not_mem_nil, true_and,
    IsEmpty.forall_iff]

/-- A file with the text of a bundle is loaded as the bundle. -/
theorem BundleFile.load_of_parse? {text : String} {bundle : FactBundle}
    (h : FactBundle.parse? text = some bundle) (path : String) :
    load ⟨path, some text.toUTF8⟩ = .ok bundle := by
  simp only [load, Option.bind_some, fromUTF8?_toUTF8, h]

namespace ScaffoldRequest

theorem fits_exampleBundle : Json.Fits Json.maxDepth exampleBundle.toJson := by
  simp [Json.maxDepth, exampleBundle, FactBundle.toJson, PropertyFacts.toJson, TypeSymbol.toJson,
    TypeSymbol.memberToJson, TypeSymbol.listToJson, Attribute.fits_toJson, SourceLocation.toJson,
    Accessibility.toJson, TypeKind.toJson, Nullability.toJson, Json.ofNat, Json.ofTexts]

theorem parse?_exampleBundle :
    FactBundle.parse? exampleBundle.toJson.pretty = some exampleBundle := by
  rw [FactBundle.parse?, Json.parse?_pretty fits_exampleBundle]
  exact exampleBundle.ofJson?_toJson

/-! ## The additions -/

variable {request : ScaffoldRequest} {directory path : String} {w after : Workspace}
  {effects : List Effect} {tree made furnished later : FileTree}

theorem unlessThere_eq_ok (h : unlessThere path effects w = .ok after) :
    (w.tree.leadsTo path = true ∧ after.tree = w.tree) ∨
      (w.tree.leadsTo path = false ∧ w.tree.carryOut effects = .ok after.tree) := by
  unfold unlessThere at h
  split at h
  · rename_i hleads
    cases h
    exact .inl ⟨hleads, rfl⟩
  · rename_i hleads
    exact .inr ⟨by simpa using hleads, (Workspace.perform_eq_ok_iff.mp h).1⟩

/-- How a tree becomes that of a project: directories are made unless the path of the facts leads
somewhere, a bundle is written unless its path does, and then the configuration is written. -/
structure SetsUp (request : ScaffoldRequest) (directory : String)
    (tree made furnished later : FileTree) : Prop where
  facts : tree.leadsTo (request.factsPath directory) = true ∧ made = tree ∨
    tree.leadsTo (request.factsPath directory) = false ∧
      tree.makeDirectories (request.factsPath directory) = .ok made
  bundle : made.leadsTo (request.examplePath directory) = true ∧ furnished = made ∨
    made.leadsTo (request.examplePath directory) = false ∧
      made.writeFile (request.examplePath directory) exampleBundle.toJson.pretty.toUTF8 =
        .ok furnished
  configuration : furnished.writeFile (Config.filePath directory)
    request.config.toJson.pretty.toUTF8 = .ok later

/-- Of an effect that lines are printed after, the tree shows the effect alone. -/
theorem carryOut_cons_of_filter_eq_nil (tree : FileTree) (effect : Effect)
    (h : effects.filter (·.isOnTree) = []) :
    tree.carryOut (effect :: effects) = effect.onTree tree := by
  have hlines : (fun tree : FileTree => tree.carryOut effects) = pure := by
    funext tree
    rw [← FileTree.carryOut_filter_isOnTree, h]
    rfl
  rw [FileTree.carryOut_cons, hlines, bind_pure]

/-- A project is set up unless it has a configuration that is to be kept. -/
theorem setsUp_of_scaffold (h : request.scaffold directory w = .ok after) :
    (request.force = false ∧ w.tree.leadsTo (Config.filePath directory) = true ∧
      after.tree = w.tree) ∨
    ((request.force = true ∨ w.tree.leadsTo (Config.filePath directory) = false) ∧
      ∃ made furnished, request.SetsUp directory w.tree made furnished after.tree) := by
  unfold scaffold at h
  split at h
  · rename_i hkept
    simp only [Bool.and_eq_true, Bool.not_eq_true'] at hkept
    have htree := (Workspace.perform_eq_ok_iff.mp h).1
    exact .inl ⟨hkept.2, hkept.1, (Except.ok.inj htree).symm⟩
  · rename_i hkept
    obtain ⟨greeted, hgreeted, h⟩ := bind_eq_ok_iff.mp h
    obtain ⟨made, hmade, h⟩ := bind_eq_ok_iff.mp h
    obtain ⟨furnished, hfurnished, h⟩ := bind_eq_ok_iff.mp h
    have hgreeted : greeted.tree = w.tree :=
      (Except.ok.inj (Workspace.perform_eq_ok_iff.mp hgreeted).1).symm
    have hmade := unlessThere_eq_ok hmade
    have hfurnished := unlessThere_eq_ok hfurnished
    have hconfiguration := (Workspace.perform_eq_ok_iff.mp h).1
    rw [carryOut_cons_of_filter_eq_nil _ _ rfl, hgreeted] at hmade
    rw [carryOut_cons_of_filter_eq_nil _ _ rfl] at hfurnished
    refine .inr ⟨?_, made.tree, furnished.tree, hmade, hfurnished, ?_⟩
    · cases hforce : request.force <;> simp_all
    · have hlines : List.filter (·.isOnTree)
          (.say ("  ✓ Created " ++ Config.fileName) :: request.closingEffects) = [] := rfl
      exact (carryOut_cons_of_filter_eq_nil furnished.tree _ hlines).symm.trans hconfiguration

theorem exists_unlessThere {tree : FileTree}
    (h : w.tree.leadsTo path = true ∧ tree = w.tree ∨
      w.tree.leadsTo path = false ∧ w.tree.carryOut effects = .ok tree) :
    ∃ after, unlessThere path effects w = .ok after ∧ after.tree = tree := by
  rcases h with ⟨hleads, rfl⟩ | ⟨hleads, hcarry⟩
  · exact ⟨w, by rw [unlessThere, hleads]; rfl, rfl⟩
  · obtain ⟨after, hperform, hafter⟩ :=
      Workspace.exists_perform_of_carryOut Effect.blameFile hcarry
    exact ⟨after, by rw [unlessThere, hleads]; exact hperform, hafter⟩

/-- Where all additions can be made, the project is set up. -/
theorem exists_scaffold_of_setsUp
    (hnew : request.force = true ∨ w.tree.leadsTo (Config.filePath directory) = false)
    (h : request.SetsUp directory w.tree made furnished later) :
    ∃ after, request.scaffold directory w = .ok after ∧ after.tree = later := by
  have hgreets : w.tree.carryOut [.say "📝 Initializing PropNotify project..."] = .ok w.tree := rfl
  obtain ⟨greeted, hgreeted, hgreetedTree⟩ :=
    Workspace.exists_perform_of_carryOut Effect.blameFile hgreets
  have hfacts : ∃ w₁, request.makeFactsDirectory directory greeted = .ok w₁ ∧ w₁.tree = made := by
    refine exists_unlessThere ?_
    rw [carryOut_cons_of_filter_eq_nil _ _ rfl, hgreetedTree]
    exact h.facts
  obtain ⟨w₁, hw₁, rfl⟩ := hfacts
  have hbundle : ∃ w₂, request.writeExample directory w₁ = .ok w₂ ∧ w₂.tree = furnished := by
    refine exists_unlessThere ?_
    rw [carryOut_cons_of_filter_eq_nil _ _ rfl]
    exact h.bundle
  obtain ⟨w₂, hw₂, rfl⟩ := hbundle
  have hconfiguration : w₂.tree.carryOut
      (request.configEffects directory ++ request.closingEffects) = .ok later :=
    (carryOut_cons_of_filter_eq_nil w₂.tree _ rfl).trans h.configuration
  obtain ⟨after, hafter, rfl⟩ :=
    Workspace.exists_perform_of_carryOut Effect.blameFile hconfiguration
  have hgoes : ¬ (w.tree.leadsTo (Config.filePath directory) && !request.force) = true := by
    rcases hnew with hforce | hleads
    · simp [hforce]
    · simp [hleads]
  refine ⟨after, ?_, rfl⟩
  rw [scaffold, if_neg hgoes]
  exact bind_eq_ok_iff.mpr ⟨greeted, hgreeted, bind_eq_ok_iff.mpr
    ⟨w₁, hw₁, bind_eq_ok_iff.mpr ⟨w₂, hw₂, hafter⟩⟩⟩

/-! ## What stays -/

theorem SetsUp.addsDirectories (h : request.SetsUp directory tree made furnished later) :
    tree.AddsDirectories made := by
  rcases h.facts with ⟨-, rfl⟩ | ⟨-, hmade⟩
  · exact .refl _
  · exact (FileTree.makeDirectories_spec hmade).1

/-- Everything stays but what is in the place of the configuration. -/
theorem SetsUp.keeps (h : request.SetsUp directory tree made furnished later) {location : Location}
    {node : Node} (hnode : tree.node? location = some node) :
    later.node? location = some node ∨
      later.locate (Config.filePath directory) = .ok location := by
  have hmade : made.node? location = some node := by
    rcases h.addsDirectories location with hsame | ⟨hnone, -⟩
    · rw [hsame, hnode]
    · rw [hnone] at hnode
      cases hnode
  have hfurnished : furnished.node? location = some node := by
    rcases h.bundle with ⟨-, rfl⟩ | ⟨hnew, hwrite⟩
    · exact hmade
    · obtain ⟨place, hplace⟩ := FileTree.exists_writes hwrite
      exact hplace.node?_of_new hnew hmade
  obtain ⟨place, hplace⟩ := FileTree.exists_writes h.configuration
  by_cases heq : location = place
  · exact .inr (heq ▸ hplace.located)
  · exact .inl ((hplace.others location heq).trans hfurnished)

theorem SetsUp.load (h : request.SetsUp directory tree made furnished later) :
    Config.load later directory = .ok request.config := by
  obtain ⟨place, hplace⟩ := FileTree.exists_writes h.configuration
  exact Config.load_of_writes hplace

theorem SetsUp.leadsTo_filePath (h : request.SetsUp directory tree made furnished later) :
    later.leadsTo (Config.filePath directory) = true := by
  obtain ⟨place, hplace⟩ := FileTree.exists_writes h.configuration
  exact hplace.leadsTo

theorem leadsTo_filePath_of_scaffold (h : request.scaffold directory w = .ok after) :
    after.tree.leadsTo (Config.filePath directory) = true := by
  rcases setsUp_of_scaffold h with ⟨-, hleads, hsame⟩ | ⟨-, made, furnished, hsetsUp⟩
  · rw [hsame, hleads]
  · exact hsetsUp.leadsTo_filePath

/-- A project with a configuration stays as it is, unless the configuration is to be written
over. -/
theorem exists_scaffold_of_leadsTo (hforce : request.force = false)
    (hleads : w.tree.leadsTo (Config.filePath directory) = true) :
    ∃ after, request.scaffold directory w = .ok after ∧ after.tree = w.tree := by
  rw [scaffold, if_pos (by simp [hforce, hleads])]
  exact Workspace.exists_perform_of_carryOut Effect.blameFile rfl

end ScaffoldRequest

end ChangeNotification
