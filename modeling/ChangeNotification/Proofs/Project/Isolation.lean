import ChangeNotification.Proofs.Project.Contents
import ChangeNotification.Proofs.Project.Grouping
import ChangeNotification.Proofs.Project.Regeneration

/-! # Failures apart from the rest

A bundle that cannot be used and a property that does not resolve fail alone. Without them the same
sources are generated, and no other failures take their place. -/

namespace ChangeNotification

/-! ## Outcomes -/

section

variable {options : EmitOptions} {config : Config} {facts : PropertyFacts}
  {targets : List PropertyFacts} {outcome : Outcome}

/-- Emissions do not fail, so that a property has a unit if it resolves. -/
theorem PropertyFacts.succeeded_outcome (options : EmitOptions) (facts : PropertyFacts) :
    (facts.outcome options).succeeded = facts.resolve.toBool := by
  rw [outcome]
  cases facts.resolve with
  | error error => rfl
  | ok descriptor =>
      simp only [Outcome.ofEmission, emitProperty_of_neverCancels neverCancels_default]
      rfl

theorem PropertyFacts.failure?_eq_none (h : facts.resolve.toBool = true) :
    facts.failure? = none := by
  obtain ⟨descriptor, hresolve⟩ := exists_eq_ok_of_toBool h
  rw [failure?, hresolve]

theorem PropertyFacts.succeeded_of_failure? (h : facts.failure? = some outcome) :
    outcome.succeeded = false ∧ outcome.diagnostics = [] := by
  rw [failure?] at h
  split at h <;> cases h
  exact ⟨rfl, rfl⟩

theorem TypeGroup.succeeded_outcome {descriptors : List PropertyDescriptor} {group : TypeGroup}
    (h : group ∈ ofDescriptors descriptors) : (group.outcome options).succeeded = true := by
  obtain ⟨unit, hunit, -⟩ := (isPartition_ofDescriptors descriptors).emitType_ok h options
    neverCancels_default
  obtain ⟨-, unit', -, hresult⟩ := succeedsWith_outcome hunit
  rw [Outcome.succeeded, hresult]
  rfl

/-- A property that does not resolve has an outcome of its own, which reports nothing else. -/
theorem Plan.diagnostics_of_not_succeeded (h : outcome ∈ outcomesOf config targets)
    (hfailed : outcome.succeeded = false) : outcome.diagnostics = [] := by
  unfold outcomesOf at h
  split at h
  · obtain ⟨facts, -, rfl⟩ := List.mem_map.mp h
    rw [PropertyFacts.succeeded_outcome] at hfailed
    rw [PropertyFacts.outcome]
    cases hresolve : facts.resolve with
    | error error => rfl
    | ok descriptor =>
        rw [hresolve] at hfailed
        cases hfailed
  · rcases List.mem_append.mp h with hfailure | hgroup
    · obtain ⟨facts, -, hfailure⟩ := List.mem_filterMap.mp hfailure
      exact (PropertyFacts.succeeded_of_failure? hfailure).2
    · obtain ⟨group, hmem, rfl⟩ := List.mem_map.mp hgroup
      rw [TypeGroup.succeeded_outcome hmem] at hfailed
      cases hfailed

/-- Without the targets that do not resolve, the outcomes are those that succeeded before. -/
theorem Plan.outcomesOf_filter (config : Config) (targets : List PropertyFacts) :
    outcomesOf config (targets.filter (·.resolve.toBool)) =
      (outcomesOf config targets).filter (·.succeeded) := by
  unfold outcomesOf
  cases config.mode with
  | perProperty =>
      have hfilter : (targets.filter (·.resolve.toBool)) =
          targets.filter ((·.succeeded) ∘ (·.outcome config.emit)) :=
        List.filter_congr fun facts _ => (PropertyFacts.succeeded_outcome _ facts).symm
      dsimp only
      rw [Outcome.ofProperties, Outcome.ofProperties, List.filter_map, hfilter]
  | perType =>
      have hnone : (targets.filter (·.resolve.toBool)).filterMap PropertyFacts.failure? = [] :=
        List.filterMap_eq_nil_iff.mpr fun facts hfacts =>
          PropertyFacts.failure?_eq_none (List.mem_filter.mp hfacts).2
      have hfailures : (targets.filterMap PropertyFacts.failure?).filter (·.succeeded) = [] := by
        refine List.filter_eq_nil_iff.mpr fun outcome houtcome => ?_
        obtain ⟨facts, -, hfailure⟩ := List.mem_filterMap.mp houtcome
        simp [(PropertyFacts.succeeded_of_failure? hfailure).1]
      have hdescriptors : (targets.filter (·.resolve.toBool)).filterMap (·.resolve.toOption) =
          targets.filterMap (·.resolve.toOption) := by
        rw [List.filterMap_filter]
        refine List.filterMap_congr fun facts _ => ?_
        cases facts.resolve <;> rfl
      have hgroups : ((TypeGroup.ofDescriptors (targets.filterMap (·.resolve.toOption))).map
          (·.outcome config.emit)).filter (·.succeeded) =
            (TypeGroup.ofDescriptors (targets.filterMap (·.resolve.toOption))).map
              (·.outcome config.emit) := by
        refine List.filter_eq_self.mpr fun outcome houtcome => ?_
        obtain ⟨group, hgroup, rfl⟩ := List.mem_map.mp houtcome
        exact TypeGroup.succeeded_outcome hgroup
      dsimp only
      rw [Outcome.ofTypes, Outcome.ofTypes, List.filter_append, hnone, hfailures, hdescriptors,
        hgroups]

/-- As many outcomes fail as there are targets that do not resolve. -/
theorem Plan.countP_not_succeeded (config : Config) (targets : List PropertyFacts) :
    (outcomesOf config targets).countP (!·.succeeded) =
      targets.countP (!·.resolve.toBool) := by
  unfold outcomesOf
  cases config.mode with
  | perProperty =>
      dsimp only
      rw [Outcome.ofProperties, List.countP_map]
      refine List.countP_congr fun facts _ => ?_
      simp [PropertyFacts.succeeded_outcome]
  | perType =>
      have hfailures : (targets.filterMap PropertyFacts.failure?).countP (!·.succeeded) =
          targets.countP (!·.resolve.toBool) := by
        have hall : ∀ outcome ∈ targets.filterMap PropertyFacts.failure?,
            (!outcome.succeeded) = true := by
          intro outcome houtcome
          obtain ⟨facts, -, hfailure⟩ := List.mem_filterMap.mp houtcome
          simp [(PropertyFacts.succeeded_of_failure? hfailure).1]
        rw [List.countP_eq_length.mpr hall, List.length_filterMap_eq_countP]
        refine List.countP_congr fun facts _ => ?_
        rw [PropertyFacts.failure?]
        cases facts.resolve <;> simp [Except.toBool]
      have hgroups : ((TypeGroup.ofDescriptors (targets.filterMap (·.resolve.toOption))).map
          (·.outcome config.emit)).countP (!·.succeeded) = 0 := by
        refine List.countP_eq_zero.mpr fun outcome houtcome => ?_
        obtain ⟨group, hgroup, rfl⟩ := List.mem_map.mp houtcome
        simp [TypeGroup.succeeded_outcome hgroup]
      dsimp only
      rw [Outcome.ofTypes, List.countP_append, hfailures, hgroups, Nat.add_zero]

end

/-! ## Cleaned bundles -/

/-- The bundle without the targets that do not resolve. -/
def FactBundle.cleaned (bundle : FactBundle) : FactBundle :=
  { bundle with properties := bundle.properties.filter fun facts =>
      !facts.isNotificationTarget || facts.resolve.toBool }

namespace BundleFile

/-- What a cleaned file holds: the bundle without what fails of it, and an empty bundle where there
is none. -/
def cleaned (file : BundleFile) : FactBundle :=
  match file.load with
  | .error _ => {}
  | .ok bundle => bundle.cleaned

/-- A file in the place of another one that holds what is left of its bundle. -/
def IsCleanedTo (file other : BundleFile) : Prop :=
  other.load = .ok file.cleaned

instance (file other : BundleFile) : Decidable (file.IsCleanedTo other) :=
  inferInstanceAs (Decidable (_ = _))

variable {file other : BundleFile} {files others : List BundleFile}

theorem IsCleanedTo.targets_eq (h : file.IsCleanedTo other) :
    other.targets = file.targets.filter (·.resolve.toBool) := by
  rw [targets, targets, h, cleaned]
  cases file.load with
  | error error => rfl
  | ok bundle =>
      simp only [FactBundle.cleaned, List.filter_filter]
      refine List.filter_congr fun facts _ => ?_
      cases facts.isNotificationTarget <;> simp

theorem flatMap_targets_cleaned (h : List.Forall₂ IsCleanedTo files others) :
    others.flatMap targets = (files.flatMap targets).filter (·.resolve.toBool) := by
  induction h with
  | nil => rfl
  | cons hfile _ ih =>
      rw [List.flatMap_cons, List.flatMap_cons, List.filter_append, hfile.targets_eq, ih]

theorem filterMap_rejected_cleaned (h : List.Forall₂ IsCleanedTo files others) :
    others.filterMap rejected? = [] := by
  induction h with
  | nil => rfl
  | @cons _ other _ _ hfile _ ih =>
      have hload : other.load = .ok _ := hfile
      have hnone : other.rejected? = none := by rw [rejected?, hload]
      rw [List.filterMap_cons_none hnone, ih]

theorem length_filterMap_rejected (files : List BundleFile) :
    (files.filterMap rejected?).length = files.countP (!·.load.toBool) := by
  rw [List.length_filterMap_eq_countP]
  refine List.countP_congr fun file _ => ?_
  rw [rejected?]
  cases file.load <;> simp [Except.toBool]

end BundleFile

/-! ## Warnings -/

namespace Effect

def isWarning : Effect → Bool
  | warn _ => true
  | say _ | makeDirectories _ | writeFile _ _ => false

/-- Warnings do not show in the output. -/
theorem join_said_filter (effects : List Effect) :
    String.join ((effects.filter (!·.isWarning)).map said) =
      String.join (effects.map said) := by
  induction effects with
  | nil => rfl
  | cons effect effects ih =>
      cases effect with
      | warn line =>
          rw [List.filter_cons_of_neg (by simp [isWarning]), List.map_cons, String.join_cons, ih,
            said, String.empty_append]
      | say line | makeDirectories path | writeFile path text =>
          rw [List.filter_cons_of_pos (by simp [isWarning]), List.map_cons, List.map_cons,
            String.join_cons, String.join_cons, ih]

theorem join_said_congr {effects others : List Effect}
    (h : effects.filter (!·.isWarning) = others.filter (!·.isWarning)) :
    String.join (effects.map said) = String.join (others.map said) := by
  rw [← join_said_filter, h, join_said_filter]

end Effect

/-! ## Cleaned plans -/

/-- Items from which nothing comes can be left out. -/
theorem flatMap_filter_of_eq_nil {α β : Type} {list : List α} {p : α → Bool} {f : α → List β}
    (h : ∀ item ∈ list, p item = false → f item = []) :
    (list.filter p).flatMap f = list.flatMap f := by
  induction list with
  | nil => rfl
  | cons item list ih =>
      have ih := ih fun other hother => h other (.tail _ hother)
      cases hitem : p item with
      | false =>
          rw [List.filter_cons_of_neg (by simp [hitem]), List.flatMap_cons,
            h item (.head _) hitem, ih, List.nil_append]
      | true => rw [List.filter_cons_of_pos hitem, List.flatMap_cons, List.flatMap_cons, ih]

namespace Plan

/-- The plan without its failures. -/
def cleaned (plan : Plan) : Plan where
  rejected := []
  outcomes := plan.outcomes.filter (·.succeeded)
  support := plan.support

theorem ofBundles_cleaned {files others : List BundleFile}
    (h : List.Forall₂ BundleFile.IsCleanedTo files others) (config : Config) :
    ofBundles config others = (ofBundles config files).cleaned := by
  rw [ofBundles, BundleFile.filterMap_rejected_cleaned h, BundleFile.flatMap_targets_cleaned h,
    outcomesOf_filter]
  rfl

theorem ofFiles_cleaned {files others : List BundleFile}
    (h : List.Forall₂ BundleFile.IsCleanedTo files others) (config : Config) :
    ofFiles config others = (ofFiles config files).cleaned := by
  cases h with
  | nil => rfl
  | cons hfile hfiles => exact ofBundles_cleaned (.cons hfile hfiles) config

theorem failed_summary_ofFiles (config : Config) (files : List BundleFile) :
    (ofFiles config files).summary.failed = files.countP (!·.load.toBool) +
      (files.flatMap BundleFile.targets).countP (!·.resolve.toBool) := by
  cases files with
  | nil => rfl
  | cons file files =>
      change (List.filterMap _ _).length + List.countP _ (outcomesOf _ _) = _
      rw [BundleFile.length_filterMap_rejected, countP_not_succeeded]

theorem sources_cleaned (plan : Plan) : plan.cleaned.sources = plan.sources := by
  rw [sources, sources, cleaned, List.filterMap_filter]
  congr 1
  refine List.filterMap_congr fun outcome _ => ?_
  rw [Outcome.succeeded]
  cases outcome.result <;> rfl

/-- A plan whose failures report nothing but themselves. -/
def FailsQuietly (plan : Plan) : Prop :=
  ∀ outcome ∈ plan.outcomes, outcome.succeeded = false → outcome.diagnostics = []

theorem failsQuietly_ofFiles (config : Config) (files : List BundleFile) :
    (ofFiles config files).FailsQuietly := by
  cases files with
  | nil => exact nofun
  | cons file files => exact fun _ houtcome => diagnostics_of_not_succeeded houtcome

theorem FailsQuietly.diagnostics_cleaned {plan : Plan} (h : plan.FailsQuietly) :
    plan.cleaned.diagnostics = plan.diagnostics := by
  exact flatMap_filter_of_eq_nil h

theorem FailsQuietly.summary_cleaned {plan : Plan} (h : plan.FailsQuietly) :
    plan.cleaned.summary = { plan.summary with failed := 0 } := by
  have hfailed : (plan.outcomes.filter (·.succeeded)).countP (!·.succeeded) = 0 := by
    simp [List.countP_eq_zero]
  have hgenerated : (plan.outcomes.filter (·.succeeded)).countP (·.succeeded) =
      plan.outcomes.countP (·.succeeded) := by
    simp [List.countP_filter]
  rw [summary, h.diagnostics_cleaned]
  simp only [cleaned, hfailed, hgenerated]
  rfl

/-- Failures are warned of, and nothing else about them is an effect. -/
theorem filter_isWarning_cleaned (destination : Destination) (plan : Plan) :
    (plan.cleaned.effects destination).filter (!·.isWarning) =
      (plan.effects destination).filter (!·.isWarning) := by
  have houtcomes : (plan.outcomes.filter (·.succeeded)).flatMap (fun outcome =>
      (outcomeEffects destination outcome).filter (!·.isWarning)) =
        plan.outcomes.flatMap fun outcome =>
          (outcomeEffects destination outcome).filter (!·.isWarning) := by
    refine flatMap_filter_of_eq_nil fun outcome _ hfailed => ?_
    rw [outcomeEffects]
    cases hresult : outcome.result with
    | error error => rfl
    | ok source =>
        rw [Outcome.succeeded, hresult] at hfailed
        cases hfailed
  rw [filter_effects fun _ => rfl, filter_effects fun _ => rfl, cleaned, houtcomes]

end Plan

/-! ## Cleaned trees -/

namespace FileTree

variable {tree after : FileTree} {f : Location → ByteArray → ByteArray} {out : String}
  {source : GeneratedSource} {sources : List GeneratedSource}

/-- Contents that are changed in files with names of bundles alone. -/
def ChangesBundlesOnly (f : Location → ByteArray → ByteArray) : Prop :=
  ∀ location, location.getLast?.any BundleFile.isName = false → f location = id

/-- Another tree with cleaned bundles in the place of those of a project. -/
structure IsCleanedBy (tree : FileTree) (path : String) (f : Location → ByteArray → ByteArray) :
    Prop where
  keeps : ChangesBundlesOnly f
  bundles : List.Forall₂ BundleFile.IsCleanedTo (tree.bundleFiles path)
    ((tree.mapFiles f).bundleFiles path)

theorem deliver_mapFiles (h : tree.deliver out source = .ok after) (hnamed : source.IsNamed)
    (hkeeps : ChangesBundlesOnly f) :
    (tree.mapFiles f).deliver out source = .ok (after.mapFiles f) := by
  obtain ⟨made, lead, name, parent, hmade, husable, hlead, hputs⟩ := deliver_eq_ok_iff.mp h
  obtain ⟨before, front, hcomponents⟩ := hnamed.exists_components out
  rw [← (usable_eq_ok husable).2] at hcomponents
  obtain ⟨-, rfl⟩ := List.append_singleton_inj.mp hcomponents
  have hname : (parent ++ [front ++ GeneratedSource.suffix]).getLast?.any BundleFile.isName =
      false := by
    rw [List.getLast?_concat]
    exact BundleFile.isName_suffix_source front
  have hputs := hputs.mapFiles f
  rw [hkeeps _ hname] at hputs
  refine deliver_eq_ok_iff.mpr ⟨made.mapFiles f, lead, _, parent, ?_, husable, ?_, hputs⟩
  · rw [makeDirectories_mapFiles, hmade]
    rfl
  · rw [follow_mapFiles, hlead]

/-- Contents of bundles do not get into the way of sources. -/
theorem deliverAll_mapFiles (h : tree.deliverAll out sources = .ok after)
    (hnamed : ∀ source ∈ sources, source.IsNamed) (hkeeps : ChangesBundlesOnly f) :
    (tree.mapFiles f).deliverAll out sources = .ok (after.mapFiles f) := by
  induction sources generalizing tree with
  | nil =>
      cases h
      rfl
  | cons source sources ih =>
      obtain ⟨next, hnext, hrest⟩ := deliverAll_cons_eq_ok_iff.mp h
      have hnext := deliver_mapFiles hnext (hnamed source (.head _)) hkeeps
      have hrest := ih hrest fun other hother => hnamed other (.tail _ hother)
      exact deliverAll_cons_eq_ok_iff.mpr ⟨_, hnext, hrest⟩

theorem deliverTo_mapFiles {destination : Destination}
    (h : tree.deliverTo destination sources = .ok after)
    (hnamed : ∀ source ∈ sources, source.IsNamed) (hkeeps : ChangesBundlesOnly f) :
    (tree.mapFiles f).deliverTo destination sources = .ok (after.mapFiles f) := by
  cases destination with
  | directory out => exact deliverAll_mapFiles h hnamed hkeeps
  | output =>
      cases h
      rfl

/-- Bundles stay out of the files that are new or changed. -/
theorem changedFiles_mapFiles (hkeeps : ChangesBundlesOnly f)
    (hsame : ∀ location content, location.getLast?.any BundleFile.isName = true →
      after.node? location = some (.file content) → tree.node? location = some (.file content))
    (location : Location) :
    (tree.mapFiles f).changedFiles (after.mapFiles f) location =
      tree.changedFiles after location := by
  have hchanged : ∀ file ∈ after.filesUnder location,
      (decide ((tree.mapFiles f).node? (location ++ file.1) ≠
          some (.file (f (location ++ file.1) file.2))) =
        decide (tree.node? (location ++ file.1) ≠ some (.file file.2))) ∧
      (tree.node? (location ++ file.1) ≠ some (.file file.2) →
        f (location ++ file.1) file.2 = file.2) := by
    rintro ⟨way, content⟩ hfile
    have hnode := node?_of_mem_filesUnder hfile
    cases hname : (location ++ way).getLast?.any BundleFile.isName with
    -- A bundle is there before and after, so that it counts as changed in neither tree.
    | true =>
        have hbefore := hsame _ content hname hnode
        simp [node?_mapFiles, hbefore, Node.mapContent]
    | false =>
        have hnode? : (tree.mapFiles f).node? (location ++ way) = tree.node? (location ++ way) := by
          rw [node?_mapFiles, hkeeps _ hname]
          cases tree.node? (location ++ way) with
          | none => rfl
          | some node => exact congrArg some node.mapContent_id
        simp [hnode?, hkeeps _ hname]
  have hfilter := List.filter_congr fun file hfile => (hchanged file hfile).1
  have hkept : ∀ file ∈ tree.changedFiles after location,
      (file.1, f (location ++ file.1) file.2) = id file := by
    intro file hfile
    obtain ⟨hmem, hdiffers⟩ := List.mem_filter.mp hfile
    have hcontent := (hchanged file hmem).2 (by simpa using hdiffers)
    rw [hcontent]
    rfl
  rw [changedFiles, filesUnder_mapFiles, List.filter_map]
  exact (congrArg (List.map _) hfilter).trans ((List.map_congr_left hkept).trans (List.map_id _))

theorem load_mapFiles (hkeeps : ChangesBundlesOnly f) (directory : String) :
    Config.load (tree.mapFiles f) directory = Config.load tree directory := by
  have htext : (tree.mapFiles f).text? (Config.filePath directory) =
      tree.text? (Config.filePath directory) := by
    refine text?_mapFiles fun location hlocation => ?_
    obtain ⟨parent, -, rfl, -⟩ := Config.exists_of_locate_filePath hlocation
    refine hkeeps _ ?_
    rw [List.getLast?_concat]
    decide
  simp only [Config.load, leadsTo_mapFiles, htext]

end FileTree

/-! ## Runs -/

namespace GenerationRequest

variable {request : GenerationRequest} {directory : String} {w after : Workspace}
  {summary : Summary} {f : Location → ByteArray → ByteArray} {tree : FileTree}

/-- Where bundles alone change, a run starts as before. -/
theorem starts_mapFiles (hkeeps : FileTree.ChangesBundlesOnly f)
    (hstarts : request.Starts directory tree) : request.Starts directory (tree.mapFiles f) := by
  have hload : Config.load (tree.mapFiles f) directory = Config.load tree directory :=
    FileTree.load_mapFiles hkeeps directory
  refine ⟨?_, ?_⟩
  · rw [hload]
    exact hstarts.configured
  · rw [factsPathOn_congr hload, FileTree.leadsTo_mapFiles]
    exact hstarts.hasFacts

section

variable (hclean : tree.IsCleanedBy (request.factsPathOn directory tree) f)

include hclean

theorem load_cleaned : Config.load (tree.mapFiles f) directory = Config.load tree directory :=
  FileTree.load_mapFiles hclean.keeps directory

theorem bundlesOn_cleaned : List.Forall₂ BundleFile.IsCleanedTo (request.bundlesOn directory tree)
    (request.bundlesOn directory (tree.mapFiles f)) := by
  rw [bundlesOn, bundlesOn, factsPathOn_congr (load_cleaned hclean)]
  exact hclean.bundles

theorem planOn_cleaned :
    request.planOn directory (tree.mapFiles f) = (request.planOn directory tree).cleaned := by
  rw [planOn, planOn, configOn_congr (load_cleaned hclean)]
  exact Plan.ofFiles_cleaned (bundlesOn_cleaned hclean) _

theorem headline_cleaned : headline (request.bundlesOn directory (tree.mapFiles f)) =
    headline (request.bundlesOn directory tree) :=
  headline_congr (bundlesOn_cleaned hclean).length_eq.symm

theorem starts_cleaned (hstarts : request.Starts directory tree) :
    request.Starts directory (tree.mapFiles f) :=
  starts_mapFiles hclean.keeps hstarts

end

/-- What a run does to files with names of bundles: they stay as they are. -/
theorem node?_of_deliverTo {destination : Destination} {sources : List GeneratedSource}
    {later : FileTree} (h : tree.deliverTo destination sources = .ok later)
    (hnamed : ∀ source ∈ sources, source.IsNamed) {location : Location} {content : ByteArray}
    (hname : location.getLast?.any BundleFile.isName = true)
    (hnode : later.node? location = some (.file content)) :
    tree.node? location = some (.file content) := by
  cases destination with
  | directory out =>
      rcases FileTree.deliverAll_keeps h hnamed (.inl hname) with hsame | ⟨-, hdirectory⟩
      · rw [← hsame, hnode]
      · rw [hdirectory] at hnode
        cases hnode
  | output =>
      cases h
      exact hnode

/-- A run fails with exactly the bundles that cannot be used and the targets that do not resolve.
The run on a project without them generates the same sources with the same diagnostics, says the
same, and writes the same files, so that only the bundles differ in the end. -/
theorem run_cleaned (hrun : request.run directory w = .ok (summary, after))
    (hclean : w.tree.IsCleanedBy (request.factsPathOn directory w.tree) f) :
    (∃ after', request.run directory { w with tree := w.tree.mapFiles f } =
        .ok ({ summary with failed := 0 }, after') ∧
      after'.tree = after.tree.mapFiles f ∧ after'.output = after.output ∧
      ∀ location, (w.tree.mapFiles f).changedFiles after'.tree location =
        w.tree.changedFiles after.tree location) ∧
    (request.planOn directory (w.tree.mapFiles f)).sources =
      (request.planOn directory w.tree).sources ∧
    summary.failed = (request.bundlesOn directory w.tree).countP (!·.load.toBool) +
      ((request.bundlesOn directory w.tree).flatMap BundleFile.targets).countP
        (!·.resolve.toBool) := by
  obtain ⟨hstarts, hsummary, hperform⟩ := run_eq_ok_iff.mp hrun
  obtain ⟨htree, houtput, -⟩ := Workspace.perform_eq_ok_iff.mp hperform
  rw [carryOut_headline_append] at htree
  have hplan := planOn_cleaned hclean
  have hsources : (request.planOn directory (w.tree.mapFiles f)).sources =
      (request.planOn directory w.tree).sources := by
    rw [hplan, Plan.sources_cleaned]
  have hdestination : request.destinationOn directory (w.tree.mapFiles f) =
      request.destinationOn directory w.tree := destinationOn_congr (load_cleaned hclean)
  refine ⟨?_, hsources, hsummary ▸ Plan.failed_summary_ofFiles _ _⟩
  have hquiet : (request.planOn directory w.tree).FailsQuietly := Plan.failsQuietly_ofFiles _ _
  have hkeeps : ∀ location content, location.getLast?.any BundleFile.isName = true →
      after.tree.node? location = some (.file content) →
        w.tree.node? location = some (.file content) :=
    fun _ _ => node?_of_deliverTo htree fun _ => Plan.isNamed_of_mem_sources
  -- The deliveries of the first run can be carried out on the cleaned tree too.
  have htree' := FileTree.deliverTo_mapFiles htree (fun _ => Plan.isNamed_of_mem_sources) hclean.keeps
  rw [← hsources, ← hdestination,
    ← carryOut_headline_append _ (request.bundlesOn directory (w.tree.mapFiles f))] at htree'
  refine ⟨⟨after.tree.mapFiles f, after.output, _⟩, run_eq_ok_iff.mpr
    ⟨starts_cleaned hclean hstarts, ?_, Workspace.perform_eq_ok_iff.mpr ⟨htree', ?_, rfl⟩⟩, rfl, rfl,
    FileTree.changedFiles_mapFiles hclean.keeps hkeeps⟩
  · rw [hplan, hquiet.summary_cleaned, hsummary]
  · rw [houtput, headline_cleaned hclean, hdestination, hplan]
    refine congrArg (w.output ++ ·) (Effect.join_said_congr ?_)
    rw [List.filter_append, List.filter_append, Plan.filter_isWarning_cleaned]

/-- A project in which one property of a bundle fails, as it has no name, and a file is no bundle. -/
def sampleMixed : Workspace where
  tree := .withFacts [("a.facts.json", FactBundle.sampleText ["P"]),
    ("b.facts.json", FactBundle.sampleText ["Q", ""]), ("c.facts.json", "?")]

/-- What is left of the bundle without the property that fails, and an empty bundle. -/
def sampleCleaning (location : Location) (content : ByteArray) : ByteArray :=
  if location = ["facts", "b.facts.json"] then (FactBundle.sampleText ["Q"]).toUTF8
  else if location = ["facts", "c.facts.json"] then "\x7b\x7d".toUTF8
  else content

theorem changesBundlesOnly_sampleCleaning : FileTree.ChangesBundlesOnly sampleCleaning := by
  intro location hname
  have hb : location ≠ ["facts", "b.facts.json"] := by
    rintro rfl
    exact absurd hname (by decide)
  have hc : location ≠ ["facts", "c.facts.json"] := by
    rintro rfl
    exact absurd hname (by decide)
  funext content
  exact (if_neg hb).trans (if_neg hc)

def sampleByType : GenerationRequest where
  mode := some .perType
  withoutSupport := true

theorem run_cleaned_sampleMixed :
    ∃ after after', sampleByType.run "/" sampleMixed = .ok (⟨1, 2, 2⟩, after) ∧
      sampleByType.run "/" { sampleMixed with tree := sampleMixed.tree.mapFiles sampleCleaning } =
        .ok (⟨1, 0, 2⟩, after') ∧
      after'.tree = after.tree.mapFiles sampleCleaning := by
  have hruns : (sampleByType.run "/" sampleMixed).toOption.map (·.1) = some ⟨1, 2, 2⟩ := by
    decide +kernel
  have hclean : sampleMixed.tree.IsCleanedBy (sampleByType.factsPathOn "/" sampleMixed.tree)
      sampleCleaning := by
    refine ⟨changesBundlesOnly_sampleCleaning, ?_⟩
    decide +kernel
  obtain ⟨⟨summary, after⟩, hrun, rfl⟩ := Option.map_eq_some_iff.mp hruns
  obtain ⟨⟨after', hcleaned, htree, -⟩, -⟩ := run_cleaned (toOption_eq_some_iff.mp hrun) hclean
  exact ⟨after, after', toOption_eq_some_iff.mp hrun, hcleaned, htree⟩

end GenerationRequest

end ChangeNotification
