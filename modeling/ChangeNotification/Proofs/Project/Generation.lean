import ChangeNotification.Project.Generation
import ChangeNotification.Proofs.Computation

/-! # What a generation does

A run is told by its setup: the configuration, the bundles, and the plan that is made of them. Of the
effects of the plan only the deliveries of its sources touch the tree. -/

namespace ChangeNotification

/-! ## Effects -/

namespace Effect

/-- What an effect does to the tree. -/
def onTree (effect : Effect) (tree : FileTree) : Except FileError FileTree :=
  match effect with
  | say _ | warn _ => .ok tree
  | makeDirectories path => tree.makeDirectories path
  | writeFile path text => tree.writeFile path text.toUTF8

/-- What an effect adds to the output. -/
def said : Effect → String
  | say line => line ++ "\n"
  | warn _ | makeDirectories _ | writeFile _ _ => ""

/-- What an effect adds to the errors. -/
def warned : Effect → String
  | warn line => line ++ "\n"
  | say _ | makeDirectories _ | writeFile _ _ => ""

/-- Whether an effect is about the tree. -/
def isOnTree : Effect → Bool
  | makeDirectories _ | writeFile _ _ => true
  | say _ | warn _ => false

theorem onTree_of_not_isOnTree {effect : Effect} (h : effect.isOnTree = false) (tree : FileTree) :
    effect.onTree tree = .ok tree := by
  cases effect with
  | say line | warn line => rfl
  | makeDirectories path | writeFile path text => cases h

theorem perform_eq (effect : Effect) (w : Workspace) :
    effect.perform w = (effect.onTree w.tree).map fun tree =>
      ⟨tree, w.output ++ effect.said, w.errors ++ effect.warned⟩ := by
  cases effect with
  | say line | warn line =>
      simp [perform, onTree, said, warned, Except.map, String.append_assoc]
  | makeDirectories path | writeFile path text => simp [perform, onTree, said, warned]

end Effect

/-- What effects do to the tree, one after the other. -/
def FileTree.carryOut (tree : FileTree) (effects : List Effect) : Except FileError FileTree :=
  effects.foldlM (fun tree effect => effect.onTree tree) tree

namespace FileTree

variable {tree : FileTree} {effects : List Effect}

theorem carryOut_cons (tree : FileTree) (effect : Effect) (effects : List Effect) :
    tree.carryOut (effect :: effects) =
      effect.onTree tree >>= fun tree => tree.carryOut effects :=
  List.foldlM_cons

theorem carryOut_append (tree : FileTree) (effects more : List Effect) :
    tree.carryOut (effects ++ more) =
      tree.carryOut effects >>= fun tree => tree.carryOut more :=
  List.foldlM_append

theorem carryOut_filter_isOnTree (tree : FileTree) (effects : List Effect) :
    tree.carryOut (effects.filter (·.isOnTree)) = tree.carryOut effects := by
  induction effects generalizing tree with
  | nil => rfl
  | cons effect effects ih =>
      cases htree : effect.isOnTree with
      | true =>
          rw [List.filter_cons_of_pos htree, carryOut_cons, carryOut_cons]
          exact congrArg _ (funext ih)
      | false =>
          rw [List.filter_cons_of_neg (by simp [htree]), carryOut_cons,
            Effect.onTree_of_not_isOnTree htree, ih]
          rfl

end FileTree

/-- Effects that can all happen show in the tree, in the output and in the errors. -/
theorem Workspace.perform_eq_ok_iff {blame : Effect → FileError → Failure} {effects : List Effect}
    {w after : Workspace} : w.perform blame effects = .ok after ↔
      w.tree.carryOut effects = .ok after.tree ∧
        after.output = w.output ++ String.join (effects.map Effect.said) ∧
        after.errors = w.errors ++ String.join (effects.map Effect.warned) := by
  induction effects generalizing w with
  | nil =>
      simp only [perform, FileTree.carryOut, List.foldlM_nil, List.map_nil, String.join_nil,
        String.append_empty]
      constructor
      · intro h
        cases h
        exact ⟨rfl, rfl, rfl⟩
      · intro h
        cases w
        cases after
        obtain ⟨htree, houtput, herrors⟩ := h
        cases htree
        cases houtput
        cases herrors
        rfl
  | cons effect effects ih =>
      rw [perform, FileTree.carryOut_cons, Effect.perform_eq]
      cases effect.onTree w.tree with
      | error cause => simp [Except.map, bind, Except.bind]
      | ok tree =>
          simp only [Except.map, ih, List.map_cons, String.join_cons, String.append_assoc]
          rfl

theorem Workspace.exists_perform_of_carryOut (blame : Effect → FileError → Failure)
    {effects : List Effect} {w : Workspace} {tree : FileTree}
    (h : w.tree.carryOut effects = .ok tree) :
    ∃ after, w.perform blame effects = .ok after ∧ after.tree = tree :=
  ⟨⟨tree, w.output ++ String.join (effects.map Effect.said),
    w.errors ++ String.join (effects.map Effect.warned)⟩, perform_eq_ok_iff.mpr ⟨h, rfl, rfl⟩, rfl⟩

/-! ## Plans -/

namespace Plan

/-- The sources of a plan, in the order of their deliveries. -/
def sources (plan : Plan) : List GeneratedSource :=
  plan.outcomes.filterMap (·.result.toOption) ++ plan.support

/-- The plan for the files of a project. Where there are none, nothing is planned. -/
def ofFiles (config : Config) : List BundleFile → Plan
  | [] => ⟨[], [], []⟩
  | files => ofBundles config files

end Plan

/-- Delivers a source into a directory. -/
def FileTree.deliver (out : String) (tree : FileTree) (source : GeneratedSource) :
    Except FileError FileTree := do
  let made ← tree.makeDirectories out
  made.writeFile (Path.join out source.hintName) source.sourceText.toUTF8

/-- Delivers sources into a directory, one after the other. -/
def FileTree.deliverAll (out : String) (tree : FileTree) (sources : List GeneratedSource) :
    Except FileError FileTree :=
  sources.foldlM (deliver out) tree

/-- Delivers sources to their destination. -/
def FileTree.deliverTo (destination : Destination) (tree : FileTree)
    (sources : List GeneratedSource) : Except FileError FileTree :=
  match destination with
  | .directory out => tree.deliverAll out sources
  | .output => .ok tree

namespace Plan

variable {destination : Destination} {plan : Plan}

/-- Where warnings do not count, what counts of a plan are the effects of its outcomes and of its
support sources. -/
theorem filter_effects {p : Effect → Bool} (hwarn : ∀ line, p (.warn line) = false)
    (destination : Destination) (plan : Plan) :
    (plan.effects destination).filter p =
      plan.outcomes.flatMap (fun outcome => (outcomeEffects destination outcome).filter p) ++
        plan.support.flatMap fun source =>
          (deliveryEffects destination "support" source).filter p := by
  have hrejected : (plan.rejected.map fun bundle =>
      failureLine bundle.path (bundle.error.message bundle.path)).filter p = [] := by
    simp [failureLine, hwarn]
  have hdiagnostics : (plan.diagnostics.flatMap diagnosticEffects).filter p = [] := by
    rw [List.filter_flatMap, List.flatMap_eq_nil_iff]
    intro diagnostic _
    unfold diagnosticEffects
    split <;> simp [hwarn]
  rw [effects, List.filter_append, List.filter_append, List.filter_append, hrejected,
    hdiagnostics, List.filter_flatMap, List.filter_flatMap, List.nil_append, List.append_nil]

theorem filter_isOnTree_effects (destination : Destination) (plan : Plan) :
    (plan.effects destination).filter (·.isOnTree) =
      plan.sources.flatMap fun source => (destination.effects source).filter (·.isOnTree) := by
  have hdelivery (label : String) (source : GeneratedSource) :
      (deliveryEffects destination label source).filter (·.isOnTree) =
        (destination.effects source).filter (·.isOnTree) := by
    simp [deliveryEffects, Effect.isOnTree]
  have houtcomes (outcomes : List Outcome) :
      outcomes.flatMap (fun outcome =>
        (outcomeEffects destination outcome).filter (·.isOnTree)) =
        (outcomes.filterMap (·.result.toOption)).flatMap
          fun source => (destination.effects source).filter (·.isOnTree) := by
    induction outcomes with
    | nil => rfl
    | cons outcome outcomes ih =>
        rw [List.flatMap_cons, ih]
        cases hresult : outcome.result with
        | error error =>
            rw [outcomeEffects, hresult, List.filterMap_cons_none (by rw [hresult]; rfl)]
            rfl
        | ok source =>
            rw [outcomeEffects, hresult, List.filterMap_cons_some (by rw [hresult]; rfl),
              List.flatMap_cons, hdelivery]
  have hsupport := funext fun source => hdelivery "support" source
  rw [filter_effects fun _ => rfl, houtcomes, hsupport, sources, List.flatMap_append]

/-- What a plan does to the tree is to deliver its sources. -/
theorem carryOut_effects (destination : Destination) (plan : Plan) (tree : FileTree) :
    tree.carryOut (plan.effects destination) = tree.deliverTo destination plan.sources := by
  rw [← FileTree.carryOut_filter_isOnTree, filter_isOnTree_effects]
  cases destination with
  | output =>
      have hnone : (plan.sources.flatMap fun source =>
          (Destination.output.effects source).filter (·.isOnTree)) = [] := by
        rw [List.flatMap_eq_nil_iff]
        intro source _
        rfl
      rw [hnone]
      rfl
  | directory out =>
      rw [FileTree.deliverTo]
      induction plan.sources generalizing tree with
      | nil => rfl
      | cons source sources ih =>
          rw [List.flatMap_cons, FileTree.carryOut_append, FileTree.deliverAll, List.foldlM_cons]
          congr 1
          · change FileTree.carryOut tree [_, _] = _
            rw [FileTree.carryOut_cons, FileTree.deliver]
            congr 1
            funext made
            rw [FileTree.carryOut_cons]
            exact bind_pure _
          · exact funext ih

end Plan

/-! ## Runs -/

namespace GenerationRequest

/-- The configuration that a run on a tree goes by, if it can be loaded. -/
def configOn (request : GenerationRequest) (directory : String) (tree : FileTree) : Config :=
  request.configure ((Config.load tree directory).toOption.getD {})

def factsPathOn (request : GenerationRequest) (directory : String) (tree : FileTree) : String :=
  (request.configOn directory tree).factsPath directory

def bundlesOn (request : GenerationRequest) (directory : String) (tree : FileTree) :
    List BundleFile :=
  tree.bundleFiles (request.factsPathOn directory tree)

/-- The plan of a run on a tree. -/
def planOn (request : GenerationRequest) (directory : String) (tree : FileTree) : Plan :=
  .ofFiles (request.configOn directory tree) (request.bundlesOn directory tree)

def destinationOn (request : GenerationRequest) (directory : String) (tree : FileTree) :
    Destination :=
  request.destination (request.configOn directory tree) directory

/-- What a run says before it carries out its plan. -/
def headline (files : List BundleFile) : List Effect :=
  [.say "🔨 Generating notification members...",
    .say <| match files with
      | [] => "⚠️  No " ++ BundleFile.suffix ++ " files found"
      | files => "Found " ++ toString files.length ++ " bundles"]

/-- A tree on which a run gets as far as to its plan. -/
structure Starts (request : GenerationRequest) (directory : String) (tree : FileTree) : Prop where
  configured : (Config.load tree directory).toBool = true
  hasFacts : tree.leadsTo (request.factsPathOn directory tree) = true

variable {request : GenerationRequest} {directory : String} {w after : Workspace}
  {summary : Summary} {tree : FileTree}

theorem bind_pair_eq_ok_iff {computation : Except Stop Workspace} {given : Summary} :
    (computation >>= fun w => pure (given, w)) = .ok (summary, after) ↔
      summary = given ∧ computation = .ok after := by
  rw [bind_eq_ok_iff]
  constructor
  · rintro ⟨w, hw, hpair⟩
    cases hpair
    exact ⟨rfl, hw⟩
  · rintro ⟨rfl, hw⟩
    exact ⟨after, hw, rfl⟩

/-- A run that gives a summary starts and carries out the whole plan. -/
theorem run_eq_ok_iff : request.run directory w = .ok (summary, after) ↔
    request.Starts directory w.tree ∧ summary = (request.planOn directory w.tree).summary ∧
      w.perform Effect.blame (headline (request.bundlesOn directory w.tree) ++
        (request.planOn directory w.tree).effects (request.destinationOn directory w.tree)) =
          .ok after := by
  cases hload : Config.load w.tree directory with
  | error failure =>
      simp only [run, hload, reduceCtorEq, false_iff, not_and]
      rintro ⟨hconfigured, -⟩
      rw [hload] at hconfigured
      cases hconfigured
  | ok loaded =>
      have hconfig : request.configOn directory w.tree = request.configure loaded := by
        rw [configOn, hload]
        rfl
      have hstarts : request.Starts directory w.tree ↔
          w.tree.leadsTo (request.factsPathOn directory w.tree) = true :=
        ⟨(·.hasFacts), fun h => ⟨by rw [hload]; rfl, h⟩⟩
      have hpath : (request.configure loaded).factsPath directory =
          request.factsPathOn directory w.tree := by
        rw [factsPathOn, hconfig]
      have hbundles : w.tree.bundleFiles (request.factsPathOn directory w.tree) =
          request.bundlesOn directory w.tree := rfl
      simp only [run, hload, hpath, hbundles, hstarts]
      by_cases hleads : w.tree.leadsTo (request.factsPathOn directory w.tree) = true
      · simp only [hleads, if_true, true_and, planOn]
        cases request.bundlesOn directory w.tree with
        | nil => exact bind_pair_eq_ok_iff
        | cons file files =>
            rw [destinationOn, hconfig]
            exact bind_pair_eq_ok_iff
      · simp [hleads]

/-- What is said of files is how many they are. -/
theorem headline_congr {files others : List BundleFile} (h : others.length = files.length) :
    headline others = headline files := by
  cases files with
  | nil => rw [List.length_eq_zero_iff.mp h]
  | cons file files =>
      obtain ⟨other, others, rfl⟩ := List.exists_cons_of_length_eq_add_one h
      simp only [headline, h]

theorem carryOut_headline_append (tree : FileTree) (files : List BundleFile)
    (destination : Destination) (plan : Plan) :
    tree.carryOut (headline files ++ plan.effects destination) =
      tree.deliverTo destination plan.sources := by
  rw [FileTree.carryOut_append, ← Plan.carryOut_effects]
  rfl

/-- A run gives a summary exactly if it starts and its sources can be delivered. -/
theorem exists_run_eq_ok_iff :
    (∃ after, request.run directory w = .ok (summary, after) ∧ after.tree = tree) ↔
      request.Starts directory w.tree ∧ summary = (request.planOn directory w.tree).summary ∧
        w.tree.deliverTo (request.destinationOn directory w.tree)
          (request.planOn directory w.tree).sources = .ok tree := by
  constructor
  · rintro ⟨after, hrun, rfl⟩
    obtain ⟨hstarts, hsummary, hperform⟩ := run_eq_ok_iff.mp hrun
    have htree := (Workspace.perform_eq_ok_iff.mp hperform).1
    rw [carryOut_headline_append] at htree
    exact ⟨hstarts, hsummary, htree⟩
  · rintro ⟨hstarts, hsummary, htree⟩
    rw [← carryOut_headline_append _ (request.bundlesOn directory w.tree)] at htree
    obtain ⟨after, hperform, hafter⟩ := Workspace.exists_perform_of_carryOut Effect.blame htree
    exact ⟨after, run_eq_ok_iff.mpr ⟨hstarts, hsummary, hperform⟩, hafter⟩

end GenerationRequest

/-! ## Sample projects -/

/-- A project in the root directory that has files in the directory of its facts. -/
def FileTree.withFacts (files : List (String × String)) : FileTree :=
  let effects := files.map fun (name, text) => Effect.writeFile ("/facts/" ++ name) text
  ((∅ : FileTree).carryOut (.makeDirectories "/facts" :: effects)).toOption.getD ∅

/-- The text of a bundle with properties of a class, each with nothing but the enabling attribute.
Fields are given by their places. -/
def FactBundle.sampleText (names : List String) : String :=
  let properties := names.map fun name => "[\"" ++ name ++ "\",[\"C\"],[\"T\"],\"public\",null," ++
    "[[\"PropNotify.EnableNotificationSupportAttribute\"]]]"
  "[[" ++ String.intercalate "," properties ++ "]]"

end ChangeNotification
