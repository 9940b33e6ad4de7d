import ChangeNotification.Proofs.Project.Delivery

/-! # Running again

A run finds its configuration and its bundles where they were, because no name of a source ends as
theirs do. Only a directory that a run makes at the path of the configuration gets into the way of
the next one. -/

namespace ChangeNotification

/-! ## Locations of sources -/

theorem BundleFile.isName_suffix_source (front : String) :
    isName (front ++ GeneratedSource.suffix) = false := by
  have hends : suffix.toList.length = 11 ∧ GeneratedSource.suffix.toList.length = 5 := by decide
  by_contra h
  rw [Bool.not_eq_false, isName, List.isSuffixOf_iff_suffix, String.toList_append] at h
  have hsource := List.suffix_append front.toList GeneratedSource.suffix.toList
  have hlast := List.suffix_of_suffix_length_le hsource h (by simp [hends])
  exact absurd hlast (by decide)

theorem Config.fileName_ne_append_suffix (front : String) :
    fileName ≠ front ++ GeneratedSource.suffix := by
  intro h
  have hsuffix : GeneratedSource.suffix.toList <:+ fileName.toList := by
    rw [h, String.toList_append]
    exact List.suffix_append _ _
  exact absurd hsuffix (by decide)

/-- Where a source is, there is neither a bundle nor the configuration. -/
theorem GeneratedSource.IsNamed.exists_name {source : GeneratedSource} (h : source.IsNamed)
    {out : String} {location : Location}
    (hlocation : location.getLast? = (Path.components (Path.join out source.hintName)).getLast?) :
    ∃ name, location.getLast? = some name ∧ BundleFile.isName name = false ∧
      name ≠ Config.fileName := by
  obtain ⟨before, front, hcomponents⟩ := h.exists_components out
  rw [hcomponents, List.getLast?_concat] at hlocation
  exact ⟨_, hlocation, BundleFile.isName_suffix_source front,
    (Config.fileName_ne_append_suffix front).symm⟩

namespace FileTree

variable {tree later : FileTree} {path : String} {location : Location}

/-! ## Bundles -/

/-- Entries that can be bundles: files whose names are names of bundles. -/
def isBundleEntry (entry : Location × Node) : Bool :=
  entry.1.getLast?.any BundleFile.isName && entry.2 ≠ .directory

theorem exists_of_isBundleEntry {node : Node} (h : isBundleEntry (location, node) = true) :
    location ≠ [] ∧ location.getLast?.any BundleFile.isName = true ∧
      ∃ content, node = .file content := by
  simp only [isBundleEntry, Bool.and_eq_true, decide_eq_true_eq] at h
  obtain ⟨hname, hfile⟩ := h
  refine ⟨?_, hname, ?_⟩
  · rintro rfl
    cases hname
  · cases node with
    | directory => exact absurd rfl hfile
    | file content => exact ⟨content, rfl⟩

/-- The bundle of an entry at or below a location that `path` leads to. -/
def bundleOf? (path : String) (location : Location) (entry : Location × Node) :
    Option BundleFile :=
  match location.isPrefixOf? entry.1, entry.2 with
  | some way, .file content =>
      if (location ++ way).getLast?.any BundleFile.isName &&
          (usable (Path.below path way.dropLast)).toBool then
        some ⟨Path.below path way, (usable (Path.below path way)).toOption.map fun _ => content⟩
      else none
  | _, _ => none

theorem bundleFiles_eq (h : tree.locate path = .ok location) :
    tree.bundleFiles path = tree.nodes.entries.filterMap (bundleOf? path location) := by
  rw [bundleFiles, h]
  simp only [filesUnder, List.filterMap_filterMap]
  refine List.filterMap_congr fun entry _ => ?_
  obtain ⟨whole, node⟩ := entry
  rw [bundleOf?]
  cases location.isPrefixOf? whole with
  | none => rfl
  | some way => cases node <;> rfl

theorem bundleOf?_of_not_isBundleEntry {entry : Location × Node} (h : isBundleEntry entry = false) :
    bundleOf? path location entry = none := by
  obtain ⟨whole, node⟩ := entry
  rw [bundleOf?]
  cases hway : location.isPrefixOf? whole with
  | none => rfl
  | some way =>
      cases node with
      | directory => rfl
      | file content =>
          have hwhole : location ++ way = whole := List.isPrefixOf?_eq_some_iff_append_eq.mp hway
          have hname : whole.getLast?.any BundleFile.isName = false := by
            simpa [isBundleEntry] using h
          simp [hwhole, hname]

theorem bundleFiles_eq_filter (h : tree.locate path = .ok location) :
    tree.bundleFiles path =
      (tree.nodes.entries.filter isBundleEntry).filterMap (bundleOf? path location) := by
  rw [bundleFiles_eq h, List.filterMap_filter]
  refine List.filterMap_congr fun entry _ => ?_
  split
  · rfl
  · rename_i hentry
    exact bundleOf?_of_not_isBundleEntry (by simpa using hentry)

/-- Bundles are found again where the path leads to the same place and all files with names of
bundles are the same. -/
theorem bundleFiles_congr (hpath : tree.locate path = .ok location)
    (hlater : later.locate path = .ok location)
    (h : ∀ location content, location.getLast?.any BundleFile.isName = true →
      (later.node? location = some (.file content) ↔
        tree.node? location = some (.file content))) :
    later.bundleFiles path = tree.bundleFiles path := by
  rw [bundleFiles_eq_filter hpath, bundleFiles_eq_filter hlater]
  congr 1
  refine OrderedMap.filter_entries_congr fun whole node hentry => ?_
  obtain ⟨hwhole, hname, content, rfl⟩ := exists_of_isBundleEntry hentry
  rw [← node?_eq_find? tree hwhole, ← node?_eq_find? later hwhole]
  exact h whole content hname

/-! ## Rows of deliveries -/

section

variable {out : String} {sources : List GeneratedSource}
  (h : tree.deliverAll out sources = .ok later) (hnamed : ∀ source ∈ sources, source.IsNamed)

include h hnamed

theorem exists_name_of_deliverAll : ∀ source ∈ sources, ∃ location content name,
    later.locate (Path.join out source.hintName) = .ok location ∧
      later.node? location = some (.file content) ∧ location.getLast? = some name ∧
        BundleFile.isName name = false ∧ name ≠ Config.fileName := by
  intro source hsource
  obtain ⟨location, content, hlocated, hnode, hlast⟩ :=
    exists_location_of_deliverAll h source hsource
  obtain ⟨name, hname⟩ := (hnamed source hsource).exists_name hlast
  exact ⟨location, content, name, hlocated, hnode, hname⟩

/-- No source is where a bundle or a configuration is. -/
theorem locate_ne_of_isName_or (hkept : location.getLast?.any BundleFile.isName = true ∨
    location.getLast? = some Config.fileName) :
    ∀ source ∈ sources, later.locate (Path.join out source.hintName) ≠ .ok location := by
  intro source hsource hlocation
  obtain ⟨other, content, name, hlocated, -, hlast, hbundle, hconfig⟩ :=
    exists_name_of_deliverAll h hnamed source hsource
  obtain rfl : other = location := Except.ok.inj (hlocated.symm.trans hlocation)
  rcases hkept with hkept | hkept
  · rw [hlast, Option.any_some, hbundle] at hkept
    cases hkept
  · exact hconfig (Option.some.inj (hlast.symm.trans hkept))

/-- Deliveries touch no bundles and no configuration. -/
theorem deliverAll_keeps (hkept : location.getLast?.any BundleFile.isName = true ∨
    location.getLast? = some Config.fileName) :
    later.node? location = tree.node? location ∨
      tree.node? location = none ∧ later.node? location = some .directory := by
  refine (deliverAll_elsewhere h (locate_ne_of_isName_or h hnamed hkept)).imp_right ?_
  exact fun hnew => ⟨hnew.1, hnew.2.1⟩

end

end FileTree

/-! ## The configuration -/

namespace Config

variable {tree later : FileTree} {directory : String} {location : Location}

/-- A path of a configuration leads to an entry of its name. -/
theorem exists_of_locate_filePath (h : tree.locate (filePath directory) = .ok location) :
    ∃ parent, tree.follow (Path.lead directory) = .ok parent ∧
      location = parent ++ [fileName] ∧ (tree.node? location).isSome = true := by
  obtain ⟨parent, hparent, -, hlocation⟩ :=
    FileTree.exists_of_locate_join (by decide) (by decide) h
  exact ⟨parent, hparent, hlocation⟩

section

variable {out : String} {sources : List GeneratedSource}
  (h : tree.deliverAll out sources = .ok later) (hnamed : ∀ source ∈ sources, source.IsNamed)
  (hdirectory : tree.isDirectory directory = true)
  (hbefore : tree.isDirectory (filePath directory) = false)

include h hnamed hdirectory hbefore

end

end Config

/-! ## Later trees -/

namespace GenerationRequest

variable {request : GenerationRequest} {directory : String} {w after : Workspace}
  {summary : Summary} {tree later : FileTree}

theorem configOn_congr (h : Config.load later directory = Config.load tree directory) :
    request.configOn directory later = request.configOn directory tree := by
  rw [configOn, configOn, h]

theorem factsPathOn_congr (h : Config.load later directory = Config.load tree directory) :
    request.factsPathOn directory later = request.factsPathOn directory tree := by
  rw [factsPathOn, factsPathOn, configOn_congr h]

theorem destinationOn_congr (h : Config.load later directory = Config.load tree directory) :
    request.destinationOn directory later = request.destinationOn directory tree := by
  rw [destinationOn, destinationOn, configOn_congr h]

theorem Starts.again (hstarts : request.Starts directory tree)
    (h : Config.load later directory = Config.load tree directory) (hgrows : tree.GrowsInto later) :
    request.Starts directory later := by
  refine ⟨?_, ?_⟩
  · rw [h]
    exact hstarts.configured
  · rw [factsPathOn_congr h]
    exact hgrows.leadsTo hstarts.hasFacts

theorem destinationOn_of_files (hfiles : request.toOutput = false) (tree : FileTree) :
    request.destinationOn directory tree =
      .directory ((request.configOn directory tree).outPath directory) := by
  rw [destinationOn, destination, hfiles]
  rfl

theorem Starts.bundleFiles_eq (hstarts : request.Starts directory tree)
    (hgrows : tree.GrowsInto later)
    (hnew : ∀ location, location.getLast?.any BundleFile.isName = true →
      later.node? location = tree.node? location ∨
        tree.node? location = none ∧ later.node? location = some .directory) :
    later.bundleFiles (request.factsPathOn directory tree) =
      request.bundlesOn directory tree := by
  obtain ⟨location, hlocation⟩ := FileTree.leadsTo_iff.mp hstarts.hasFacts
  refine FileTree.bundleFiles_congr hlocation (hgrows.locate hlocation) fun whole content hname => ?_
  rcases hnew whole hname with hsame | ⟨hnone, hdirectory⟩
  · rw [hsame]
  · simp [hnone, hdirectory]

/-! ## Running again -/

end GenerationRequest

end ChangeNotification
