import ChangeNotification.Proofs.Project.NewDirectories
import ChangeNotification.Proofs.Project.Reception
import ChangeNotification.Proofs.Project.Scaffold
import ChangeNotification.Proofs.Project.Summary

/-! # The first generation

A project that is set up where nothing was before has one bundle, unless the way to its facts takes
the place of the bundle. The first generation makes one unit of it, besides the support sources. -/

namespace ChangeNotification

/-! ## Trees with at most one bundle -/

namespace FileTree

variable {tree : FileTree} {path name : String} {location place : Location} {content : ByteArray}

theorem bundleFiles_eq_nil (hpath : tree.locate path = .ok location)
    (hnone : ∀ other content, other.getLast?.any BundleFile.isName = true →
      tree.node? other ≠ some (.file content)) : tree.bundleFiles path = [] := by
  have hentries : tree.nodes.entries.filter isBundleEntry =
      (∅ : OrderedMap Location Node).entries.filter isBundleEntry := by
    refine OrderedMap.filter_entries_congr fun whole node hentry => ?_
    obtain ⟨hwhole, hname, content, rfl⟩ := exists_of_isBundleEntry hentry
    simpa [node?_eq_find? tree hwhole] using hnone whole content hname
  rw [bundleFiles_eq_filter hpath, hentries]
  rfl

/-- The one bundle in a directory is found under its name. -/
theorem bundleFiles_eq_singleton (hpath : tree.locate path = .ok location)
    (hbundle : BundleFile.isName name = true) (hplain : '/' ∉ name.toList)
    (hname : isStep name = false) (hplace : tree.locate (Path.join path name) = .ok place)
    (hnode : tree.node? place = some (.file content))
    (honly : ∀ other content, other.getLast?.any BundleFile.isName = true →
      tree.node? other = some (.file content) → other = place) :
    tree.bundleFiles path = [⟨Path.join path name, some content⟩] := by
  obtain ⟨parent, hparent, -, rfl, -⟩ := exists_of_locate_join hplain hname hplace
  obtain rfl : parent = location := Except.ok.inj (hparent.symm.trans (follow_lead hpath))
  have hentries : tree.nodes.entries.filter isBundleEntry =
      ((∅ : OrderedMap Location Node).insert (parent ++ [name]) (.file content)).entries.filter
        isBundleEntry := by
    refine OrderedMap.filter_entries_congr fun whole node hentry => ?_
    obtain ⟨hwhole, hother, content', rfl⟩ := exists_of_isBundleEntry hentry
    rw [← node?_eq_find? tree hwhole, OrderedMap.find?_insert]
    by_cases heq : whole = parent ++ [name]
    · rw [if_pos heq, heq, hnode]
    · simpa [heq] using fun hnode' => heq (honly whole content' hother hnode')
  have hone : ((∅ : OrderedMap Location Node).insert (parent ++ [name]) (.file content)).entries =
      [(parent ++ [name], .file content)] := rfl
  have hway : parent.isPrefixOf? (parent ++ [name]) = some [name] :=
    List.isPrefixOf?_eq_some_iff_append_eq.mpr rfl
  obtain ⟨components, husable, -⟩ := locate_eq_ok_iff.mp hplace
  obtain ⟨components', husable', -⟩ := locate_eq_ok_iff.mp hpath
  have hentry : isBundleEntry (parent ++ [name], .file content) = true := by
    simpa [isBundleEntry] using hbundle
  have hfound : bundleOf? path parent (parent ++ [name], .file content) =
      some ⟨Path.join path name, some content⟩ := by
    simp [bundleOf?, hway, hbundle, Path.below, husable, husable', Except.toBool, Except.toOption]
  rw [bundleFiles_eq_filter hpath, hentries, hone, List.filter_cons_of_pos hentry,
    List.filterMap_cons_some hfound]
  rfl

/-- A tree with a directory that a path leads to and those around it, and nothing else. -/
structure IsVacant (tree : FileTree) (directory : String) (root : Location) : Prop where
  located : tree.locate directory = .ok root
  isDirectory : tree.node? root = some .directory
  bare : ∀ {location node}, tree.node? location = some node → node = .directory ∧ location <+: root

theorem isVacant_empty {directory : String} (h : (∅ : FileTree).locate directory = .ok []) :
    (∅ : FileTree).IsVacant directory [] := by
  refine ⟨h, rfl, fun {location node} hnode => ?_⟩
  cases location with
  | nil =>
      cases hnode
      exact ⟨rfl, List.nil_prefix⟩
  | cons name rest => cases hnode

theorem IsVacant.node?_eq_none {directory : String} (h : tree.IsVacant directory location)
    (below : Location) (hbelow : below ≠ []) : tree.node? (location ++ below) = none := by
  by_contra hnode
  obtain ⟨node, hnode⟩ := Option.ne_none_iff_exists'.mp hnode
  have hlength := (h.bare hnode).2.length_le
  rw [List.length_append] at hlength
  exact hbelow (List.length_eq_zero_iff.mp (by omega))

/-- In a vacant tree a name leads nowhere. -/
theorem IsVacant.leadsTo_join {directory : String} (h : tree.IsVacant directory location)
    (hplain : '/' ∉ name.toList) (hname : isStep name = false) :
    tree.leadsTo (Path.join directory name) = false :=
  leadsTo_join_of_free h.located hplain hname (h.node?_eq_none [name] (by simp))

end FileTree

/-- A run that writes no source to a path that is too long. -/
def GenerationRequest.HasRoom (request : GenerationRequest) (directory : String)
    (tree : FileTree) : Prop :=
  request.toOutput = true ∨ ∀ source ∈ (request.planOn directory tree).sources,
    (Path.join ((request.configOn directory tree).outPath directory)
      source.hintName).utf8ByteSize ≤ FileTree.maxPathSize

theorem GenerationRequest.hasRoom_of_run {request : GenerationRequest} {directory : String}
    {w after : Workspace} {summary : Summary}
    (hrun : request.run directory w = .ok (summary, after)) : request.HasRoom directory w.tree := by
  cases hfiles : request.toOutput with
  | true => exact .inl hfiles
  | false =>
      obtain ⟨-, -, hdeliver⟩ := exists_run_eq_ok_iff.mp ⟨after, hrun, rfl⟩
      rw [destinationOn_of_files hfiles] at hdeliver
      refine .inr fun source hsource => ?_
      obtain ⟨location, -, hlocation, -⟩ :=
        FileTree.exists_location_of_deliverAll hdeliver source hsource
      obtain ⟨components, husable, -⟩ := FileTree.locate_eq_ok_iff.mp hlocation
      exact (FileTree.usable_toBool_iff.mp (by rw [husable]; rfl)).2.2

namespace ScaffoldRequest

variable {request : ScaffoldRequest} {directory : String} {w after : Workspace}
  {tree made furnished later : FileTree} {root location : Location} {node : Node}

/-! ## What is in the tree of a new project -/

/-- Where nothing was before, there is no configuration to be kept. -/
theorem exists_setsUp_of_isVacant (hvacant : w.tree.IsVacant directory root)
    (h : request.scaffold directory w = .ok after) :
    ∃ made furnished, request.SetsUp directory w.tree made furnished after.tree := by
  have hnone : w.tree.leadsTo (Config.filePath directory) = false :=
    hvacant.leadsTo_join (by decide) (by decide)
  rcases setsUp_of_scaffold h with ⟨-, hthere, -⟩ | ⟨-, hsetsUp⟩
  · rw [hnone] at hthere
    cases hthere
  · exact hsetsUp

theorem SetsUp.namesNew (h : request.SetsUp directory tree made furnished later)
    (hroot : tree.locate directory = .ok root) :
    FileTree.NamesNew (Path.components request.factsDir) tree made := by
  rcases h.facts with ⟨-, rfl⟩ | ⟨-, hmade⟩
  · exact .refl _ _
  · obtain ⟨front, place, hcomponents, hfront⟩ :=
      FileTree.exists_follow_join hroot request.factsDir
    exact FileTree.namesNew_makeDirectories hcomponents hfront hmade

theorem SetsUp.growsInto_furnished (h : request.SetsUp directory tree made furnished later) :
    made.GrowsInto furnished := by
  rcases h.bundle with ⟨-, rfl⟩ | ⟨-, hwrite⟩
  · exact .refl _
  · obtain ⟨place, hplace⟩ := FileTree.exists_writes hwrite
    exact hplace.grows

theorem SetsUp.growsInto (h : request.SetsUp directory tree made furnished later) :
    furnished.GrowsInto later := by
  obtain ⟨place, hplace⟩ := FileTree.exists_writes h.configuration
  exact hplace.grows

theorem SetsUp.growsInto_later (h : request.SetsUp directory tree made furnished later) :
    tree.GrowsInto later :=
  (h.addsDirectories.growsInto.trans h.growsInto_furnished).trans h.growsInto

theorem SetsUp.leadsTo_factsPath (h : request.SetsUp directory tree made furnished later) :
    later.leadsTo (request.factsPath directory) = true := by
  have hgrows := h.growsInto_furnished.trans h.growsInto
  rcases h.facts with ⟨hleads, rfl⟩ | ⟨-, hmade⟩
  · exact hgrows.leadsTo hleads
  · obtain ⟨location, hlocation, -⟩ :=
      FileTree.isDirectory_iff.mp (FileTree.makeDirectories_spec hmade).2
    exact hgrows.leadsTo (FileTree.leadsTo_iff.mpr ⟨location, hlocation⟩)

/-- What an entry can be where nothing was before: a directory, the bundle, or the configuration. -/
inductive IsOfProject (request : ScaffoldRequest) (directory : String) (later : FileTree)
    (root : Location) : Location → Node → Prop where
  | above {location : Location} (h : location <+: root) :
      IsOfProject request directory later root location .directory
  | ofFacts {location : Location} {name : String} (hname : name ∈ Path.components request.factsDir)
      (hlast : location.getLast? = some name) :
      IsOfProject request directory later root location .directory
  | bundle {location : Location}
      (hlocated : later.locate (request.examplePath directory) = .ok location) :
      IsOfProject request directory later root location
        (.file exampleBundle.toJson.pretty.toUTF8)
  | configuration {location : Location} (hlast : location.getLast? = some Config.fileName) :
      IsOfProject request directory later root location
        (.file request.config.toJson.pretty.toUTF8)

section Vacant

variable (h : request.SetsUp directory tree made furnished later)
  (hvacant : tree.IsVacant directory root)

include h hvacant

theorem SetsUp.isOfProject_made (hnode : made.node? location = some node) :
    node = .directory ∧ request.IsOfProject directory later root location node := by
  cases hold : tree.node? location with
  | some node' =>
      obtain ⟨rfl, habove⟩ := hvacant.bare hold
      rcases h.addsDirectories location with hsame | ⟨hnone, -⟩
      · rw [hsame, hold] at hnode
        cases hnode
        exact ⟨rfl, .above habove⟩
      · rw [hnone] at hold
        cases hold
  | none =>
      rcases h.addsDirectories location with hsame | ⟨-, hdirectory⟩
      · rw [hsame, hold] at hnode
        cases hnode
      · rw [hdirectory] at hnode
        cases hnode
        have hsome : (made.node? location).isSome = true := by
          rw [hdirectory]
          rfl
        obtain ⟨name, hname, hlast⟩ := h.namesNew hvacant.located location hold hsome
        exact ⟨rfl, .ofFacts hname hlast⟩

theorem SetsUp.isOfProject_furnished (hnode : furnished.node? location = some node) :
    request.IsOfProject directory later root location node := by
  rcases h.bundle with ⟨-, rfl⟩ | ⟨-, hwrite⟩
  · exact (h.isOfProject_made hvacant hnode).2
  · obtain ⟨place, hplace⟩ := FileTree.exists_writes hwrite
    by_cases heq : location = place
    · subst heq
      rw [hplace.written] at hnode
      cases hnode
      exact .bundle (h.growsInto.locate hplace.located)
    · rw [hplace.others location heq] at hnode
      exact (h.isOfProject_made hvacant hnode).2

theorem SetsUp.isOfProject (hnode : later.node? location = some node) :
    request.IsOfProject directory later root location node := by
  obtain ⟨place, hplace⟩ := FileTree.exists_writes h.configuration
  by_cases heq : location = place
  · subst heq
    rw [hplace.written] at hnode
    cases hnode
    refine .configuration ?_
    rw [hplace.name, Config.filePath, Path.components_join (by decide), List.getLast?_concat]
  · rw [hplace.others location heq] at hnode
    exact h.isOfProject_furnished hvacant hnode

/-- The bundle is in its place, unless a directory is. -/
theorem SetsUp.exists_bundle (hfree : later.isDirectory (request.examplePath directory) = false) :
    ∃ place, later.locate (request.examplePath directory) = .ok place ∧
      later.node? place = some (.file exampleBundle.toJson.pretty.toUTF8) := by
  rcases h.bundle with ⟨hleads, rfl⟩ | ⟨-, hwrite⟩
  · obtain ⟨place, hplace⟩ := FileTree.leadsTo_iff.mp hleads
    obtain ⟨-, -, -, -, hentry⟩ :=
      FileTree.exists_of_locate_join (by decide) (by decide) hplace
    obtain ⟨node, hnode⟩ := Option.isSome_iff_exists.mp hentry
    obtain ⟨rfl, -⟩ := h.isOfProject_made hvacant hnode
    rw [h.growsInto.isDirectory (FileTree.isDirectory_iff.mpr ⟨place, hplace, hnode⟩)] at hfree
    cases hfree
  · obtain ⟨place, hplace⟩ := FileTree.exists_writes hwrite
    obtain ⟨other, hother⟩ := FileTree.exists_writes h.configuration
    have hne : place ≠ other := by
      rintro rfl
      have hnames := hplace.name.symm.trans hother.name
      rw [examplePath, Config.filePath, Path.components_join (by decide),
        Path.components_join (by decide), List.getLast?_concat, List.getLast?_concat] at hnames
      exact absurd hnames (by decide)
    exact ⟨place, hother.grows.locate hplace.located,
      (hother.others place hne).trans hplace.written⟩

/-- No directory is in the place of the bundle unless its name is on the way. -/
theorem SetsUp.isDirectory_examplePath (hroot : exampleName ∉ root)
    (hfacts : exampleName ∉ Path.components request.factsDir) :
    later.isDirectory (request.examplePath directory) = false := by
  rw [← Bool.not_eq_true]
  intro htaken
  obtain ⟨location, hlocation, hdirectory⟩ := FileTree.isDirectory_iff.mp htaken
  obtain ⟨parent, -, -, rfl, -⟩ :=
    FileTree.exists_of_locate_join (by decide) (by decide) hlocation
  cases h.isOfProject hvacant hdirectory with
  | above habove => exact hroot (habove.subset (by simp))
  | ofFacts hname hlast =>
      rw [List.getLast?_concat, Option.some.injEq] at hlast
      exact hfacts (hlast ▸ hname)

theorem SetsUp.bundleFiles_eq : later.bundleFiles (request.factsPath directory) =
    if later.isDirectory (request.examplePath directory) then []
    else [⟨request.examplePath directory, some exampleBundle.toJson.pretty.toUTF8⟩] := by
  obtain ⟨facts, hfacts⟩ := FileTree.leadsTo_iff.mp h.leadsTo_factsPath
  have hbundle : ∀ other content, other.getLast?.any BundleFile.isName = true →
      later.node? other = some (.file content) →
        later.locate (request.examplePath directory) = .ok other := by
    intro other content hname hnode
    cases h.isOfProject hvacant hnode with
    | bundle hlocated => exact hlocated
    | configuration hlast =>
        rw [hlast] at hname
        exact absurd hname (by decide)
  split
  · rename_i htaken
    obtain ⟨place, hplace, hdirectory⟩ := FileTree.isDirectory_iff.mp htaken
    refine FileTree.bundleFiles_eq_nil hfacts fun other content hname hnode => ?_
    obtain rfl : other = place :=
      Except.ok.inj ((hbundle other content hname hnode).symm.trans hplace)
    rw [hdirectory] at hnode
    cases hnode
  · rename_i hfree
    obtain ⟨place, hplace, hnode⟩ := h.exists_bundle hvacant (by simpa using hfree)
    refine FileTree.bundleFiles_eq_singleton hfacts (by decide) (by decide) (by decide) hplace hnode
      fun other content hname hother => ?_
    exact Except.ok.inj ((hbundle other content hname hother).symm.trans hplace)

end Vacant

/-! ## The sources of the bundle to begin with -/

section Example

variable {file : BundleFile} (hload : file.load = .ok exampleBundle)

include hload

theorem targets_of_load : file.targets = exampleBundle.properties := by
  have hall : ∀ facts ∈ exampleBundle.properties, facts.isNotificationTarget = true := by
    decide +kernel
  rw [BundleFile.targets, hload]
  exact List.filter_eq_self.mpr hall

/-- One unit is due, in either mode. -/
theorem due_of_load (mode : GenerationMode) (support : Nat) :
    Summary.due mode support [file] = ⟨1 + support, 0, 0⟩ := by
  have hunits : mode.unitCount (exampleBundle.properties.filterMap (·.resolve.toOption)) = 1 := by
    cases mode <;> decide +kernel
  have hfailed : exampleBundle.properties.countP (!·.resolve.toBool) = 0 := by decide +kernel
  have hreported : exampleBundle.properties.filter (·.isReported) = [] := by
    have hnone : ∀ facts ∈ exampleBundle.properties, ¬ facts.isReported = true := by
      decide +kernel
    exact List.filter_eq_nil_iff.mpr hnone
  have hloaded : file.load.toBool = true := by
    rw [hload]
    rfl
  simp [Summary.due, targets_of_load hload, hunits, hfailed, hreported, hloaded]

omit hload in
/-- The names of the sources that a project gets first. -/
def firstNames : List String := [
  "gen_App.Person.Name.g.cs",
  "gen_App.Person-members.g.cs",
  "PropNotify.Attributes.g.cs",
  "PropNotify.NotificationAccessibility.g.cs",
  "PropNotify.EventToObservable.g.cs"]

theorem hintName_mem_firstNames_of_load {config : Config} (hemit : config.emit = {}) :
    ∀ source ∈ (Plan.ofFiles config [file]).sources, source.hintName ∈ firstNames := by
  have hunits : ∀ mode : GenerationMode, ∀ source ∈
      (Plan.outcomesOf { mode } exampleBundle.properties).filterMap (·.result.toOption),
        source.hintName ∈ firstNames := by
    intro mode
    cases mode <;> decide +kernel
  have hsupport : ∀ source ∈ SupportSource.all {}, source.hintName ∈ firstNames := by
    decide +kernel
  have houtcomes : Plan.outcomesOf config exampleBundle.properties =
      Plan.outcomesOf { mode := config.mode } exampleBundle.properties := by
    rw [Plan.outcomesOf, Plan.outcomesOf, hemit]
  intro source hsource
  rcases List.mem_append.mp hsource with hunit | hsupport'
  · change source ∈ (Plan.outcomesOf config ([file].flatMap BundleFile.targets)).filterMap _
      at hunit
    rw [List.flatMap_singleton, targets_of_load hload, houtcomes] at hunit
    exact hunits config.mode source hunit
  · change source ∈ if config.includeSupportSources then SupportSource.all config.emit else []
      at hsupport'
    split at hsupport'
    · rw [hemit] at hsupport'
      exact hsupport source hsupport'
    · cases hsupport'

end Example

/-! ## Room for the sources -/

/-- Where the configuration could be written, a source can, as long as its path is not too long. -/
theorem usable_of_size (hdirectory : (FileTree.usable (Config.filePath directory)).toBool = true)
    {name : String} (hname : name ∈ firstNames)
    (hroom : (Path.join (({} : Config).outPath directory) name).utf8ByteSize ≤
      FileTree.maxPathSize) :
    (FileTree.usable (({} : Config).outPath directory)).toBool = true ∧
      (FileTree.usable (Path.join (({} : Config).outPath directory) name)).toBool = true := by
  have hplain : ∀ name ∈ firstNames, Path.isAbsolute name = false ∧ '\x00' ∉ name.toList := by
    decide
  obtain ⟨hrelative, hname⟩ := hplain name hname
  obtain ⟨front, hfront⟩ := Path.exists_front directory
  have hout : ({} : Config).outPath directory = front ++ "generated" := hfront _ (by decide)
  have hconfig : Config.filePath directory = front ++ Config.fileName := hfront _ (by decide)
  have hjoin : Path.join (front ++ "generated") name = front ++ "generated" ++ "/" ++ name :=
    Path.join_of_getLast? (c := 'd') (by simp) (by decide) hrelative
  rw [hconfig, FileTree.usable_toBool_iff, String.toList_append, List.mem_append, not_or]
    at hdirectory
  obtain ⟨-, ⟨hnul, -⟩, -⟩ := hdirectory
  rw [hout, hjoin] at hroom ⊢
  simp only [String.utf8ByteSize_append] at hroom
  rw [FileTree.usable_toBool_iff, FileTree.usable_toBool_iff]
  refine ⟨⟨by simp, by simpa using hnul, ?_⟩, by simp, by simpa using ⟨hnul, hname⟩, ?_⟩
  · rw [String.utf8ByteSize_append]
    omega
  · simpa only [String.utf8ByteSize_append] using hroom

/-! ## The first run -/

section Project

variable (h : request.SetsUp directory tree made furnished later)

include h

theorem SetsUp.locate_directory (hroot : tree.locate directory = .ok root) :
    later.locate directory = .ok root :=
  h.growsInto_later.locate hroot

theorem SetsUp.node?_directory (hnode : tree.node? location = some .directory) :
    later.node? location = some .directory :=
  h.growsInto_later.directory hnode

theorem SetsUp.usable_filePath : (FileTree.usable (Config.filePath directory)).toBool = true := by
  obtain ⟨location, hlocation⟩ := FileTree.leadsTo_iff.mp h.leadsTo_filePath
  obtain ⟨components, husable, -⟩ := FileTree.locate_eq_ok_iff.mp hlocation
  rw [husable]
  rfl

/-- No file is in the place of the directory for the sources. -/
theorem SetsUp.node?_generated_ne_file (hvacant : tree.IsVacant directory root)
    (content : ByteArray) : later.node? (root ++ ["generated"]) ≠ some (.file content) := by
  intro hcontent
  cases h.isOfProject hvacant hcontent with
  | bundle hlocated =>
      obtain ⟨parent, -, -, hplace, -⟩ :=
        FileTree.exists_of_locate_join (by decide) (by decide) hlocated
      exact absurd (List.append_inj_right' hplace rfl) (by decide)
  | configuration hlast =>
      rw [List.getLast?_concat] at hlast
      exact absurd hlast (by decide)

/-- No directory is in the place of a source. -/
theorem SetsUp.node?_generated_ne_directory (hvacant : tree.IsVacant directory root)
    (hsuffix : ∀ component ∈ Path.components request.factsDir,
      ¬ GeneratedSource.suffix.toList <:+ component.toList)
    {name : String} (hname : GeneratedSource.suffix.toList <:+ name.toList) :
    later.node? (root ++ ["generated"] ++ [name]) ≠ some .directory := by
  intro htaken
  cases h.isOfProject hvacant htaken with
  | above habove =>
      have hlength := habove.length_le
      simp only [List.length_append, List.length_singleton] at hlength
      omega
  | ofFacts hcomponent hlast =>
      rw [List.getLast?_concat, Option.some.injEq] at hlast
      exact hsuffix _ hcomponent (hlast ▸ hname)

theorem SetsUp.exists_deliverAll (hvacant : tree.IsVacant directory root)
    (hsuffix : ∀ component ∈ Path.components request.factsDir,
      ¬ GeneratedSource.suffix.toList <:+ component.toList)
    {sources : List GeneratedSource}
    (hsources : ∀ source ∈ sources, source.hintName ∈ firstNames)
    (hroom : ∀ source ∈ sources, (Path.join (({} : Config).outPath directory)
      source.hintName).utf8ByteSize ≤ FileTree.maxPathSize) :
    ∃ after, later.deliverAll (({} : Config).outPath directory) sources = .ok after := by
  by_cases hne : sources = []
  · exact ⟨later, by rw [hne]; rfl⟩
  have husable := fun source hsource =>
    usable_of_size h.usable_filePath (hsources source hsource) (hroom source hsource)
  obtain ⟨first, hfirst⟩ := List.exists_mem_of_ne_nil sources hne
  obtain ⟨received, hreceived, hplace, hdirectory, hothers⟩ :=
    FileTree.exists_makeDirectories_join (h.locate_directory hvacant.located)
      (h.node?_directory hvacant.isDirectory)
      (by decide) (by decide) (by decide) (husable first hfirst).1
      (h.node?_generated_ne_file hvacant)
  have hplain : ∀ name ∈ firstNames, '/' ∉ name.toList ∧ FileTree.isStep name = false ∧
      name.utf8ByteSize ≤ FileTree.maxNameSize ∧ GeneratedSource.suffix.toList <:+ name.toList := by
    decide
  have hreceived : later.makeDirectories (({} : Config).outPath directory) = .ok received :=
    hreceived
  rw [FileTree.deliverAll_of_makeDirectories hreceived hne]
  refine FileTree.exists_deliverAll_of_isFree hplace hdirectory fun source hsource => ?_
  obtain ⟨hslash, hstep, hsize, hends⟩ := hplain _ (hsources source hsource)
  refine ⟨hslash, hstep, hsize, (husable source hsource).2, ?_⟩
  rw [hothers _ (by simp)]
  exact h.node?_generated_ne_directory hvacant hsuffix hends

variable {generation : GenerationRequest}

theorem SetsUp.configOn (generation : GenerationRequest) :
    generation.configOn directory later = generation.configure request.config := by
  rw [GenerationRequest.configOn, h.load]
  rfl

theorem SetsUp.factsPathOn (hpath : generation.factsPath = none) :
    generation.factsPathOn directory later = request.factsPath directory := by
  rw [GenerationRequest.factsPathOn, h.configOn, GenerationRequest.configure, hpath]
  rfl

theorem SetsUp.starts (hpath : generation.factsPath = none) :
    generation.Starts directory later := by
  refine ⟨?_, ?_⟩
  · rw [h.load]
    rfl
  · rw [h.factsPathOn hpath]
    exact h.leadsTo_factsPath

theorem SetsUp.outPath_configOn (hout : generation.outDir = none) :
    (generation.configOn directory later).outPath directory =
      ({} : Config).outPath directory := by
  rw [h.configOn, GenerationRequest.configure, hout]
  rfl

theorem SetsUp.destinationOn (hout : generation.outDir = none) :
    generation.destinationOn directory later =
      if generation.toOutput then .output else .directory (({} : Config).outPath directory) := by
  rw [GenerationRequest.destinationOn, GenerationRequest.destination, h.outPath_configOn hout]

theorem SetsUp.planOn_eq (hvacant : tree.IsVacant directory root)
    (hpath : generation.factsPath = none) : generation.planOn directory later =
      Plan.ofFiles (generation.configure request.config)
        (if later.isDirectory (request.examplePath directory) then []
          else [⟨request.examplePath directory, some exampleBundle.toJson.pretty.toUTF8⟩]) := by
  rw [GenerationRequest.planOn, h.configOn, GenerationRequest.bundlesOn, h.factsPathOn hpath,
    h.bundleFiles_eq hvacant]

theorem SetsUp.hintName_mem_firstNames (hvacant : tree.IsVacant directory root)
    (hpath : generation.factsPath = none) :
    ∀ source ∈ (generation.planOn directory later).sources, source.hintName ∈ firstNames := by
  rw [h.planOn_eq hvacant hpath]
  split
  · exact fun source hsource => absurd hsource List.not_mem_nil
  · exact hintName_mem_firstNames_of_load (BundleFile.load_of_parse? parse?_exampleBundle _) rfl

theorem SetsUp.hasRoom (hvacant : tree.IsVacant directory root)
    (hpath : generation.factsPath = none) (hout : generation.outDir = none)
    (hsizes : ∀ name ∈ firstNames,
      (Path.join (({} : Config).outPath directory) name).utf8ByteSize ≤ FileTree.maxPathSize) :
    generation.HasRoom directory later := by
  refine .inr fun source hsource => ?_
  rw [h.outPath_configOn hout]
  exact hsizes _ (h.hintName_mem_firstNames hvacant hpath source hsource)

/-- The summary of one unit and the support sources, without any failure or report. -/
def firstSummary (generation : GenerationRequest) : Summary where
  generated := 1 + (if generation.withoutSupport then [] else SupportSource.all {}).length
  failed := 0
  diagnostics := 0

theorem SetsUp.exists_run (hvacant : tree.IsVacant directory root)
    (hsuffix : ∀ component ∈ Path.components request.factsDir,
      ¬ GeneratedSource.suffix.toList <:+ component.toList)
    (hroom : generation.HasRoom directory later) (hpath : generation.factsPath = none)
    (hout : generation.outDir = none) (hw : w.tree = later) :
    ∃ after, generation.run directory w =
      .ok (if later.isDirectory (request.examplePath directory) then {}
        else firstSummary generation, after) := by
  have hdelivers : ∃ after, later.deliverTo (generation.destinationOn directory later)
      (generation.planOn directory later).sources = .ok after := by
    rw [h.destinationOn hout]
    split
    · exact ⟨later, rfl⟩
    · rename_i hfiles
      have hsizes := hroom.resolve_left hfiles
      rw [h.outPath_configOn hout] at hsizes
      exact h.exists_deliverAll hvacant hsuffix (h.hintName_mem_firstNames hvacant hpath) hsizes
  obtain ⟨delivered, hdelivered⟩ := hdelivers
  rw [← hw] at hdelivered
  have hsummary : (generation.planOn directory w.tree).summary =
      if later.isDirectory (request.examplePath directory) then {}
      else firstSummary generation := by
    rw [hw, h.planOn_eq hvacant hpath]
    split
    · rfl
    · rw [Plan.summary_ofFiles (by simp),
        due_of_load (BundleFile.load_of_parse? parse?_exampleBundle _), firstSummary]
      cases hsupport : generation.withoutSupport <;>
        simp [GenerationRequest.configure, hsupport, ScaffoldRequest.config]
  obtain ⟨after, hrun, -⟩ := GenerationRequest.exists_run_eq_ok_iff.mpr
    ⟨hw ▸ h.starts hpath, hsummary.symm, hdelivered⟩
  exact ⟨after, hrun⟩

end Project

end ScaffoldRequest

end ChangeNotification
