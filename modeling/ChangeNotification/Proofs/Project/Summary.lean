import ChangeNotification.Proofs.Emission.Nullability
import ChangeNotification.Proofs.Project.Isolation
import Mathlib.Algebra.GroupWithZero.Nat
import Mathlib.Data.Finset.Card

/-! # What a summary counts

The outcomes of a plan are made in two ways, one for each mode. Both of them count every target once,
with a failure or in a unit, and both of them report of a target what is reported of it alone. -/

namespace ChangeNotification

/-! ## Reports of targets -/

theorem PropertyDraft.length_reported (draft : PropertyDraft) :
    draft.reported.length =
      if !draft.eventArgsOnly && draft.hasIndeterminateNullability then
        max 1 draft.declarationSites.length
      else 0 := by
  rw [reported_eq_map, List.length_map, reportPlaces]
  cases draft.eventArgsOnly with
  | true => rfl
  | false =>
      cases draft.hasIndeterminateNullability with
      | false => rfl
      | true =>
          cases draft.declarationSites with
          | nil => rfl
          | cons site sites => simp

namespace PropertyFacts

instance (facts : PropertyFacts) (nullability : Nullability) :
    Decidable (facts.IsReference nullability) :=
  inferInstanceAs (Decidable (_ ∧ _))

/-- A property that resolves with all its members, of a reference type of which nothing is known. -/
def isReported (facts : PropertyFacts) : Bool :=
  facts.resolve.toOption.any (!·.eventArgsOnly) && facts.IsReference .unknown

/-- What is reported of a property alone. -/
def reports (facts : PropertyFacts) : List Diagnostic :=
  facts.resolve.toOption.toList.flatMap (·.reported)

theorem length_reports (facts : PropertyFacts) :
    facts.reports.length =
      if facts.isReported then max 1 facts.declarationSites.length else 0 := by
  rw [reports, isReported]
  cases hresolve : facts.resolve with
  | error error => rfl
  | ok descriptor =>
      have hdescribes := describes_of_resolve hresolve
      have hopen : descriptor.hasIndeterminateNullability = decide (facts.IsReference .unknown) := by
        rw [Bool.eq_iff_iff, hdescribes.hasIndeterminateNullability_iff, decide_eq_true_iff]
      simp only [Except.toOption, Option.toList_some, List.flatMap_singleton, Option.any_some,
        PropertyDraft.length_reported, hopen, hdescribes.declarationSites]
      rfl

/-- Each target that is reported counts once for each of its places, or once where it has none. -/
theorem length_flatMap_reports (targets : List PropertyFacts) :
    (targets.flatMap reports).length =
      ((targets.filter (·.isReported)).map fun facts => max 1 facts.declarationSites.length).sum := by
  have hsilent : ∀ facts ∈ targets, facts.isReported = false → facts.reports = [] := by
    intro facts _ hfacts
    rw [← List.length_eq_zero_iff, length_reports, hfacts]
    rfl
  rw [← flatMap_filter_of_eq_nil hsilent, List.length_flatMap]
  refine congrArg List.sum (List.map_congr_left fun facts hfacts => ?_)
  rw [length_reports, if_pos (List.mem_filter.mp hfacts).2]

end PropertyFacts

/-! ## Reports of outcomes -/

theorem PropertyFacts.diagnostics_outcome (options : EmitOptions) (facts : PropertyFacts) :
    (facts.outcome options).diagnostics = facts.reports := by
  rw [outcome, reports]
  cases facts.resolve with
  | error error => rfl
  | ok descriptor =>
      exact (reports_emitProperty options descriptor).trans (List.append_nil _).symm

theorem TypeGroup.diagnostics_outcome {descriptors : List PropertyDescriptor} {group : TypeGroup}
    (h : group ∈ ofDescriptors descriptors) (options : EmitOptions) :
    (group.outcome options).diagnostics = group.members.flatMap (·.reported) := by
  have hpartition := isPartition_ofDescriptors descriptors
  obtain ⟨first, rest, hmembers, -, hrest⟩ := hpartition.exists_members_eq_cons h
  rw [outcome, Outcome.ofEmission, hmembers, host_emitType neverCancels_default options first hrest,
    Host.reports_foldl_hear rfl]
  rfl

namespace Plan

variable (config : Config) (targets : List PropertyFacts)

/-- In both modes the same diagnostics are reported. -/
theorem perm_diagnostics_outcomesOf :
    ((outcomesOf config targets).flatMap (·.diagnostics)).Perm
      (targets.flatMap PropertyFacts.reports) := by
  unfold outcomesOf
  cases config.mode with
  | perProperty =>
      dsimp only
      rw [Outcome.ofProperties, List.flatMap_map]
      simp only [PropertyFacts.diagnostics_outcome, List.Perm.refl]
  | perType =>
      have hfailures : (targets.filterMap PropertyFacts.failure?).flatMap (·.diagnostics) = [] := by
        refine List.flatMap_eq_nil_iff.mpr fun outcome houtcome => ?_
        obtain ⟨facts, -, hfailure⟩ := List.mem_filterMap.mp houtcome
        exact (PropertyFacts.succeeded_of_failure? hfailure).2
      have hgroups (descriptors : List PropertyDescriptor) :
          ((TypeGroup.ofDescriptors descriptors).map (·.outcome config.emit)).flatMap
              (·.diagnostics) =
            ((TypeGroup.ofDescriptors descriptors).flatMap (·.members)).flatMap (·.reported) := by
        rw [List.flatMap_map, List.flatMap_assoc]
        exact List.flatMap_congr fun group hgroup => TypeGroup.diagnostics_outcome hgroup _
      have htargets : targets.flatMap PropertyFacts.reports =
          (targets.filterMap (·.resolve.toOption)).flatMap (·.reported) := by
        rw [List.filterMap_eq_flatMap_toList, List.flatMap_assoc]
        rfl
      dsimp only
      rw [Outcome.ofTypes, List.flatMap_append, hfailures, hgroups, List.nil_append, htargets]
      exact (TypeGroup.flatMap_members_ofDescriptors _).flatMap_right _

end Plan

/-! ## Units -/

/-- How many units there are of descriptors: one for each of them, or one for each of their types. -/
def GenerationMode.unitCount (mode : GenerationMode) (descriptors : List PropertyDescriptor) : Nat :=
  match mode with
  | perProperty => descriptors.length
  | perType => (descriptors.map (·.containingType)).toFinset.card

theorem TypeGroup.length_ofDescriptors (descriptors : List PropertyDescriptor) :
    (ofDescriptors descriptors).length = GenerationMode.perType.unitCount descriptors := by
  have howners : (PropertyDescriptor.owners descriptors).toFinset =
      (descriptors.map (·.containingType)).toFinset := by
    ext owner
    simp [PropertyDescriptor.owners]
  rw [ofDescriptors_eq, forOwners, List.length_map, GenerationMode.unitCount, ← howners,
    List.toFinset_card_of_nodup (PropertyDescriptor.nodup_owners descriptors)]

namespace Plan

/-- As many outcomes succeed as there are units of the targets that resolve. -/
theorem countP_succeeded (config : Config) (targets : List PropertyFacts) :
    (outcomesOf config targets).countP (·.succeeded) =
      config.mode.unitCount (targets.filterMap (·.resolve.toOption)) := by
  unfold outcomesOf
  cases config.mode with
  | perProperty =>
      dsimp only
      rw [Outcome.ofProperties, List.countP_map, GenerationMode.unitCount,
        List.length_filterMap_eq_countP]
      refine List.countP_congr fun facts _ => ?_
      rw [Function.comp_apply, PropertyFacts.succeeded_outcome]
      cases facts.resolve <;> simp [Except.toBool, Except.toOption]
  | perType =>
      have hfailures : (targets.filterMap PropertyFacts.failure?).countP (·.succeeded) = 0 := by
        refine List.countP_eq_zero.mpr fun outcome houtcome => ?_
        obtain ⟨facts, -, hfailure⟩ := List.mem_filterMap.mp houtcome
        simp [(PropertyFacts.succeeded_of_failure? hfailure).1]
      have hgroups (descriptors : List PropertyDescriptor) :
          ((TypeGroup.ofDescriptors descriptors).map (·.outcome config.emit)).countP (·.succeeded) =
            (TypeGroup.ofDescriptors descriptors).length := by
        rw [List.countP_map]
        exact List.countP_eq_length.mpr fun group hgroup => TypeGroup.succeeded_outcome hgroup
      dsimp only
      rw [Outcome.ofTypes, List.countP_append, hfailures, hgroups, Nat.zero_add,
        TypeGroup.length_ofDescriptors]

end Plan

/-! ## Summaries -/

/-- The summary that is due for bundles. Only what is generated depends on the mode and on the number
of support sources. -/
def Summary.due (mode : GenerationMode) (support : Nat) (files : List BundleFile) : Summary :=
  let targets := files.flatMap BundleFile.targets
  { generated := mode.unitCount (targets.filterMap (·.resolve.toOption)) + support
    failed := files.countP (!·.load.toBool) + targets.countP (!·.resolve.toBool)
    diagnostics := ((targets.filter (·.isReported)).map fun facts =>
      max 1 facts.declarationSites.length).sum }

theorem Plan.summary_ofBundles (config : Config) (files : List BundleFile) :
    (ofBundles config files).summary =
      .due config.mode
        (if config.includeSupportSources then SupportSource.all config.emit else []).length files := by
  have hdiagnostics := (perm_diagnostics_outcomesOf config
    (files.flatMap BundleFile.targets)).length_eq
  rw [PropertyFacts.length_flatMap_reports] at hdiagnostics
  rw [summary, diagnostics, ofBundles]
  simp only [countP_succeeded, countP_not_succeeded, BundleFile.length_filterMap_rejected,
    hdiagnostics]
  rfl

theorem Plan.summary_ofFiles {config : Config} {files : List BundleFile} (h : files ≠ []) :
    (ofFiles config files).summary =
      .due config.mode
        (if config.includeSupportSources then SupportSource.all config.emit else []).length files := by
  cases files with
  | nil => exact absurd rfl h
  | cons file files => exact summary_ofBundles config (file :: files)

/-! ## Properties that are no targets -/

namespace BundleFile

/-- What is read of a file for a plan: its targets, or why there are none. -/
def targets? (file : BundleFile) : Except BundleError (List PropertyFacts) :=
  file.load.map fun bundle => bundle.properties.filter (·.isNotificationTarget)

theorem targets_eq_getD (file : BundleFile) : file.targets = file.targets?.toOption.getD [] := by
  rw [targets, targets?]
  cases file.load <;> rfl

theorem rejected?_eq_match (file : BundleFile) :
    file.rejected? =
      match file.targets? with
      | .error error => some ⟨file.path, error⟩
      | .ok _ => none := by
  rw [rejected?, targets?]
  cases file.load <;> rfl

end BundleFile

/-- A plan goes by the paths of the files and by their targets. -/
theorem Plan.ofFiles_congr {files others : List BundleFile} (config : Config)
    (hpaths : others.map (·.path) = files.map (·.path))
    (htargets : others.map (·.targets?) = files.map (·.targets?)) :
    ofFiles config others = ofFiles config files := by
  have hrejected (files : List BundleFile) : files.filterMap BundleFile.rejected? =
      ((files.map (·.path)).zip (files.map (·.targets?))).filterMap fun (path, targets?) =>
        match targets? with
        | .error error => some ⟨path, error⟩
        | .ok _ => none := by
    rw [List.zip_map', List.filterMap_map]
    exact List.filterMap_congr fun file _ => file.rejected?_eq_match
  have hall (files : List BundleFile) : files.flatMap BundleFile.targets =
      (files.map (·.targets?)).flatMap (·.toOption.getD []) := by
    rw [List.flatMap_map]
    exact List.flatMap_congr fun file _ => file.targets_eq_getD
  have hplan : ofBundles config others = ofBundles config files := by
    rw [ofBundles, ofBundles, hrejected, hall, hpaths, htargets, ← hrejected, ← hall]
  cases files with
  | nil =>
      rw [List.map_eq_nil_iff.mp hpaths]
  | cons file files =>
      obtain ⟨other, others, rfl, -⟩ := List.map_eq_cons_iff.mp hpaths
      exact hplan

namespace FileTree

/-- The paths of bundles do not depend on their contents. -/
theorem map_path_bundleFiles_mapFiles (tree : FileTree) (f : Location → ByteArray → ByteArray)
    (path : String) :
    ((tree.mapFiles f).bundleFiles path).map (·.path) =
      (tree.bundleFiles path).map (·.path) := by
  rw [bundleFiles, bundleFiles, locate_mapFiles]
  cases tree.locate path with
  | error error => rfl
  | ok location =>
      simp only [filesUnder_mapFiles, List.filterMap_map, List.map_filterMap]
      refine List.filterMap_congr fun entry _ => ?_
      simp only [Function.comp_apply]
      split <;> rfl

/-- Contents that are changed in bundles alone, and there only in properties that are no targets. -/
structure KeepsTargets (tree : FileTree) (path : String) (f : Location → ByteArray → ByteArray) :
    Prop where
  keeps : ChangesBundlesOnly f
  targets : ((tree.mapFiles f).bundleFiles path).map (·.targets?) =
    (tree.bundleFiles path).map (·.targets?)

end FileTree

/-! ## Runs -/

namespace GenerationRequest

variable {request : GenerationRequest} {directory : String} {w after : Workspace}
  {summary : Summary} {f : Location → ByteArray → ByteArray}

/-- Properties that are no targets have no influence on what a run counts, says and writes. -/
theorem run_mapFiles_of_keepsTargets (hrun : request.run directory w = .ok (summary, after))
    (hkeeps : w.tree.KeepsTargets (request.factsPathOn directory w.tree) f) :
    request.run directory { w with tree := w.tree.mapFiles f } =
      .ok (summary, { after with tree := after.tree.mapFiles f }) := by
  obtain ⟨hstarts, hsummary, hperform⟩ := run_eq_ok_iff.mp hrun
  obtain ⟨htree, houtput, herrors⟩ := Workspace.perform_eq_ok_iff.mp hperform
  rw [carryOut_headline_append] at htree
  have hload : Config.load (w.tree.mapFiles f) directory = Config.load w.tree directory :=
    FileTree.load_mapFiles hkeeps.keeps directory
  have hbundles : request.bundlesOn directory (w.tree.mapFiles f) =
      (w.tree.mapFiles f).bundleFiles (request.factsPathOn directory w.tree) := by
    rw [bundlesOn, factsPathOn_congr hload]
  have hpaths := w.tree.map_path_bundleFiles_mapFiles f (request.factsPathOn directory w.tree)
  have hheadline : headline (request.bundlesOn directory (w.tree.mapFiles f)) =
      headline (request.bundlesOn directory w.tree) := by
    have hlength := congrArg List.length hpaths
    rw [List.length_map, List.length_map] at hlength
    rw [hbundles]
    exact headline_congr hlength
  have hplan : request.planOn directory (w.tree.mapFiles f) = request.planOn directory w.tree := by
    rw [planOn, planOn, configOn_congr hload, hbundles]
    exact Plan.ofFiles_congr _ hpaths hkeeps.targets
  have htree' := FileTree.deliverTo_mapFiles htree (fun _ => Plan.isNamed_of_mem_sources) hkeeps.keeps
  refine run_eq_ok_iff.mpr ⟨starts_mapFiles hkeeps.keeps hstarts, ?_, ?_⟩
  · rw [hplan, hsummary]
  · rw [hheadline, hplan, destinationOn_congr hload]
    refine Workspace.perform_eq_ok_iff.mpr ⟨?_, houtput, herrors⟩
    rw [carryOut_headline_append]
    exact htree'

theorem summary_of_run (hrun : request.run directory w = .ok (summary, after))
    (hfound : request.bundlesOn directory w.tree ≠ []) :
    ∃ config, Config.load w.tree directory = .ok config ∧
      summary = .due (request.mode.getD config.mode)
        (if config.includeSupportSources && !request.withoutSupport then
          SupportSource.all config.emit
        else []).length
        (request.bundlesOn directory w.tree) := by
  obtain ⟨hstarts, rfl, -⟩ := run_eq_ok_iff.mp hrun
  obtain ⟨config, hload⟩ := exists_eq_ok_of_toBool hstarts.configured
  refine ⟨config, hload, ?_⟩
  rw [planOn, Plan.summary_ofFiles hfound, configOn, hload]
  rfl

/-- A run counts every target once. What fails and what is reported does not depend on the mode, and
properties that are no targets have no influence on anything. -/
theorem run_summary (hrun : request.run directory w = .ok (summary, after))
    (hfound : request.bundlesOn directory w.tree ≠ []) :
    (∃ config, Config.load w.tree directory = .ok config ∧
      summary = .due (request.mode.getD config.mode)
        (if config.includeSupportSources && !request.withoutSupport then
          SupportSource.all config.emit
        else []).length
        (request.bundlesOn directory w.tree)) ∧
    (∀ mode summary' after',
      ({ request with mode := some mode }).run directory w = .ok (summary', after') →
        summary'.failed = summary.failed ∧ summary'.diagnostics = summary.diagnostics) ∧
    ∀ f, w.tree.KeepsTargets (request.factsPathOn directory w.tree) f →
      request.run directory { w with tree := w.tree.mapFiles f } =
        .ok (summary, { after with tree := after.tree.mapFiles f }) := by
  obtain ⟨config, hload, hsummary⟩ := summary_of_run hrun hfound
  refine ⟨⟨config, hload, hsummary⟩, fun mode summary' after' hrun' => ?_,
    fun f hkeeps => run_mapFiles_of_keepsTargets hrun hkeeps⟩
  obtain ⟨config', -, rfl⟩ := summary_of_run hrun' hfound
  rw [hsummary]
  exact ⟨rfl, rfl⟩

/-- A project with a good bundle, a file that is no bundle and a bundle without properties. -/
def sampleCounted : Workspace where
  tree := .withFacts [("a.facts.json", FactBundle.sampleText ["P"]), ("b.facts.json", "?"),
    ("c.facts.json", "\x7b\x7d")]

/-- A property without attributes in the bundle that has none. -/
def sampleAddition (location : Location) (content : ByteArray) : ByteArray :=
  if location = ["facts", "c.facts.json"] then
    ("\x7b\"properties\":[\x7b\"name\":\"Q\",\"containingType\":\x7b\"name\":\"D\"\x7d," ++
      "\"propertyType\":\x7b\"name\":\"T\"\x7d\x7d]\x7d").toUTF8
  else content

theorem changesBundlesOnly_sampleAddition : FileTree.ChangesBundlesOnly sampleAddition := by
  intro location hname
  have hother : location ≠ ["facts", "c.facts.json"] := by
    rintro rfl
    revert hname
    decide
  funext content
  exact if_neg hother

theorem run_summary_sampleCounted :
    let request : GenerationRequest := { toOutput := true }
    ∃ after, request.run "/" sampleCounted = .ok (⟨4, 1, 1⟩, after) ∧
      request.bundlesOn "/" sampleCounted.tree ≠ [] ∧
      (∃ config, Config.load sampleCounted.tree "/" = .ok config ∧
        ⟨4, 1, 1⟩ = Summary.due config.mode
          (if config.includeSupportSources && !request.withoutSupport then
            SupportSource.all config.emit
          else []).length
          (request.bundlesOn "/" sampleCounted.tree)) ∧
      request.run "/" { sampleCounted with tree := sampleCounted.tree.mapFiles sampleAddition } =
        .ok (⟨4, 1, 1⟩, { after with tree := after.tree.mapFiles sampleAddition }) := by
  intro request
  have hruns : (request.run "/" sampleCounted).toOption.map (·.1) = some ⟨4, 1, 1⟩ := by
    decide +kernel
  have hfound : (request.bundlesOn "/" sampleCounted.tree).length ≠ 0 := by
    decide +kernel
  have hfound := mt List.length_eq_zero_iff.mpr hfound
  have hkeeps : sampleCounted.tree.KeepsTargets (request.factsPathOn "/" sampleCounted.tree)
      sampleAddition := by
    refine ⟨changesBundlesOnly_sampleAddition, ?_⟩
    decide +kernel
  obtain ⟨⟨summary, after⟩, hrun, rfl⟩ := Option.map_eq_some_iff.mp hruns
  have hrun := toOption_eq_some_iff.mp hrun
  obtain ⟨hcount, -, hneutral⟩ := run_summary hrun hfound
  exact ⟨after, hrun, hfound, hcount, hneutral _ hkeeps⟩

end GenerationRequest

end ChangeNotification
