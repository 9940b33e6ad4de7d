import ChangeNotification.Proofs.Project.Delivery
import ChangeNotification.Proofs.Project.Grouping
import ChangeNotification.Proofs.Resolution.Subject

/-! # The order of targets

Properties of different types may change places. The same units are generated, and as long as their
names are apart, it does not matter which one is written first. -/

namespace ChangeNotification

/-! ## Deliveries that change places -/

namespace FileTree

variable {tree after : FileTree} {out : String} {source other : GeneratedSource}
  {sources others : List GeneratedSource}

/-- Entries of different names in one directory can be put there in any order. -/
theorem Puts.swap {middle : FileTree} {parent : Location} {name name' : String} {node node' : Node}
    (h : tree.Puts parent name node middle) (h' : middle.Puts parent name' node' after)
    (hne : name ≠ name') :
    ∃ between, tree.Puts parent name' node' between ∧ between.Puts parent name node after := by
  have hentries : parent ++ [name] ≠ parent ++ [name'] := by simpa using hne
  have hparent {name : String} : parent ≠ parent ++ [name] := by simp
  have hfree : tree.node? (parent ++ [name']) ≠ some .directory := by
    rw [← h.node?_of_ne hentries.symm]
    exact h'.free
  obtain ⟨between, hbetween⟩ := exists_puts h.inDirectory h'.isName h'.size hfree node'
  refine ⟨between, hbetween, ?_, h.isName, h.size, ?_, fun location => ?_⟩
  · rw [hbetween.node?_of_ne hparent]
    exact h.inDirectory
  · rw [hbetween.node?_of_ne hentries]
    exact h.free
  · rw [h'.entries, h.entries, hbetween.entries]
    grind

/-- A source whose name has no slashes goes into the directory itself. -/
theorem deliver_name_eq_ok_iff (hname : '/' ∉ source.hintName.toList) :
    tree.deliver out source = .ok after ↔
      ∃ made parent, tree.makeDirectories out = .ok made ∧
        (usable (Path.join out source.hintName)).toBool = true ∧
          made.follow (Path.lead out) = .ok parent ∧
            made.Puts parent source.hintName (.file source.sourceText.toUTF8) after := by
  rw [deliver_eq_ok_iff]
  constructor
  · rintro ⟨made, lead, name, parent, hmade, husable, hlead, hputs⟩
    have hcomponents := (usable_eq_ok husable).2
    rw [Path.components_join hname] at hcomponents
    obtain ⟨rfl, rfl⟩ := List.append_singleton_inj.mp hcomponents
    exact ⟨made, parent, hmade, by rw [husable]; rfl, hlead, hputs⟩
  · rintro ⟨made, parent, hmade, husable, hlead, hputs⟩
    obtain ⟨components, husable⟩ := exists_eq_ok_of_toBool husable
    have hcomponents := (usable_eq_ok husable).2
    rw [Path.components_join hname] at hcomponents
    exact ⟨made, _, _, parent, hmade, hcomponents ▸ husable, hlead, hputs⟩

theorem deliver_swap (hname : '/' ∉ source.hintName.toList) (hother : '/' ∉ other.hintName.toList)
    (hne : source.hintName ≠ other.hintName) {middle : FileTree}
    (h : tree.deliver out source = .ok middle) (h' : middle.deliver out other = .ok after) :
    ∃ between, tree.deliver out other = .ok between ∧ between.deliver out source = .ok after := by
  obtain ⟨made, parent, hmade, husable, hlead, hputs⟩ := (deliver_name_eq_ok_iff hname).mp h
  obtain ⟨made', parent', hmade', husable', hlead', hputs'⟩ :=
    (deliver_name_eq_ok_iff hother).mp h'
  -- The directory is there after the first delivery, so that the second one finds it.
  have hout := (makeDirectories_spec hmade).2
  have hmiddle := hputs.growsInto_of_file
  rw [makeDirectories_of_isDirectory (hmiddle.isDirectory hout)] at hmade'
  cases hmade'
  obtain rfl : parent = parent' := Except.ok.inj ((hmiddle.follow hlead).symm.trans hlead')
  obtain ⟨between, hbetween, hafter⟩ := hputs.swap hputs' hne
  have hgrows := hbetween.growsInto_of_file
  refine ⟨between, (deliver_name_eq_ok_iff hother).mpr ⟨made, parent, hmade, husable', hlead,
    hbetween⟩, (deliver_name_eq_ok_iff hname).mpr ⟨between, parent, ?_, husable,
    hgrows.follow hlead, hafter⟩⟩
  exact makeDirectories_of_isDirectory (hgrows.isDirectory hout)

/-- Sources of different names without slashes can be delivered in any order. -/
theorem deliverAll_perm (hperm : sources.Perm others)
    (hnodup : (sources.map (·.hintName)).Nodup)
    (hplain : ∀ source ∈ sources, '/' ∉ source.hintName.toList)
    (h : tree.deliverAll out sources = .ok after) : tree.deliverAll out others = .ok after := by
  induction hperm generalizing tree with
  | nil => exact h
  | cons source hperm ih =>
      obtain ⟨next, hnext, hrest⟩ := deliverAll_cons_eq_ok_iff.mp h
      rw [List.map_cons, List.nodup_cons] at hnodup
      refine deliverAll_cons_eq_ok_iff.mpr ⟨next, hnext, ?_⟩
      exact ih hnodup.2 (fun other hother => hplain other (.tail _ hother)) hrest
  | swap source other rest =>
      obtain ⟨first, hfirst, h⟩ := deliverAll_cons_eq_ok_iff.mp h
      obtain ⟨second, hsecond, hrest⟩ := deliverAll_cons_eq_ok_iff.mp h
      rw [List.map_cons, List.map_cons, List.nodup_cons, List.mem_cons, not_or] at hnodup
      obtain ⟨between, hbetween, hsecond⟩ := deliver_swap (hplain other (.head _))
        (hplain source (.tail _ (.head _))) hnodup.1.1 hfirst hsecond
      exact deliverAll_cons_eq_ok_iff.mpr
        ⟨between, hbetween, deliverAll_cons_eq_ok_iff.mpr ⟨second, hsecond, hrest⟩⟩
  | trans hperm _ ih ih' =>
      have hnodup' := (hperm.map (·.hintName)).nodup_iff.mp hnodup
      exact ih' hnodup' (fun other hother => hplain other (hperm.mem_iff.mpr hother))
        (ih hnodup hplain h)

end FileTree

/-! ## Outcomes that change places -/

namespace PropertyFacts

/-- The same targets, those of each type in the same order. Types are told apart by their
definitions, as they are for the groups. -/
structure SameByType (targets others : List PropertyFacts) : Prop where
  perm : targets.Perm others
  order : ∀ owner, targets.filter (·.containingType.definition = owner) =
    others.filter (·.containingType.definition = owner)

theorem SameByType.swap {facts other : PropertyFacts}
    (h : facts.containingType.definition ≠ other.containingType.definition) :
    SameByType [facts, other] [other, facts] := by
  refine ⟨.swap other facts [], fun owner => ?_⟩
  by_cases howner : facts.containingType.definition = owner
  · have hother : other.containingType.definition ≠ owner := fun heq => h (howner.trans heq.symm)
    simp [howner, hother]
  · simp [howner, List.filter_cons]

/-- The descriptors of a type are those of the targets of the type. -/
theorem ownedBy_descriptors (owner : TypeDefinition) (targets : List PropertyFacts) :
    PropertyDescriptor.ownedBy owner (targets.filterMap (·.resolve.toOption)) =
      (targets.filter (·.containingType.definition = owner)).filterMap (·.resolve.toOption) := by
  rw [PropertyDescriptor.ownedBy, List.filter_filterMap, List.filterMap_filter]
  refine List.filterMap_congr fun facts _ => ?_
  cases hresolve : facts.resolve with
  | error error => simp [Except.toOption]
  | ok descriptor =>
      rw [← (describes_of_resolve hresolve).containingType]
      by_cases howner : descriptor.containingType = owner <;> simp [Except.toOption, howner]

end PropertyFacts

open PropertyFacts (SameByType)

variable {targets others : List PropertyFacts}

theorem TypeGroup.ofDescriptors_perm (h : SameByType targets others) :
    (ofDescriptors (targets.filterMap (·.resolve.toOption))).Perm
      (ofDescriptors (others.filterMap (·.resolve.toOption))) := by
  have howned : (fun owner => PropertyDescriptor.ownedBy owner
      (targets.filterMap (·.resolve.toOption))) = fun owner => PropertyDescriptor.ownedBy owner
        (others.filterMap (·.resolve.toOption)) := by
    funext owner
    rw [PropertyFacts.ownedBy_descriptors, PropertyFacts.ownedBy_descriptors, h.order]
  have hdescriptors := h.perm.filterMap (·.resolve.toOption)
  have howners : (PropertyDescriptor.owners (targets.filterMap (·.resolve.toOption))).Perm
      (PropertyDescriptor.owners (others.filterMap (·.resolve.toOption))) := by
    refine (List.perm_ext_iff_of_nodup (PropertyDescriptor.nodup_owners _)
      (PropertyDescriptor.nodup_owners _)).mpr fun owner => ?_
    simp only [PropertyDescriptor.mem_owners, hdescriptors.mem_iff]
  rw [ofDescriptors_eq, ofDescriptors_eq, howned]
  exact howners.map _

/-- Targets in another order have the same outcomes in another order. -/
theorem Plan.outcomesOf_perm (h : SameByType targets others) (config : Config) :
    (outcomesOf config targets).Perm (outcomesOf config others) := by
  unfold outcomesOf
  cases config.mode with
  | perProperty => exact h.perm.map _
  | perType =>
      have hfailures := h.perm.filterMap PropertyFacts.failure?
      have hgroups := (TypeGroup.ofDescriptors_perm h).map (·.outcome config.emit)
      exact hfailures.append hgroups

/-! ## Plans -/

namespace Plan

/-- The plan for some targets, after some bundles were rejected. -/
def ofTargets (config : Config) (rejected : List RejectedBundle) (targets : List PropertyFacts) :
    Plan where
  rejected
  outcomes := outcomesOf config targets
  support := if config.includeSupportSources then SupportSource.all config.emit else []

theorem ofBundles_eq_ofTargets (config : Config) (files : List BundleFile) :
    ofBundles config files =
      ofTargets config (files.filterMap BundleFile.rejected?) (files.flatMap BundleFile.targets) :=
  rfl

/-- The units of a plan, without the support sources. -/
def units (plan : Plan) : List GeneratedSource :=
  plan.outcomes.filterMap (·.result.toOption)

/-- A plan whose units have names of their own, without slashes. -/
structure UnitsAreApart (plan : Plan) : Prop where
  nodup : (plan.units.map (·.hintName)).Nodup
  plain : ∀ unit ∈ plan.units, '/' ∉ unit.hintName.toList

variable {config : Config} {rejected : List RejectedBundle} {destination : Destination}
  {w : Workspace} {tree : FileTree}

theorem units_perm (h : SameByType targets others) (config : Config)
    (rejected : List RejectedBundle) :
    (ofTargets config rejected targets).units.Perm (ofTargets config rejected others).units :=
  (outcomesOf_perm h config).filterMap _

theorem summary_ofTargets_congr (h : SameByType targets others) (config : Config)
    (rejected : List RejectedBundle) :
    (ofTargets config rejected targets).summary = (ofTargets config rejected others).summary := by
  have houtcomes := outcomesOf_perm h config
  have hdiagnostics := (houtcomes.flatMap_right (·.diagnostics)).length_eq
  simp only [summary, diagnostics, ofTargets, houtcomes.countP_eq, hdiagnostics]

theorem UnitsAreApart.congr (h : SameByType targets others)
    (hapart : (ofTargets config rejected targets).UnitsAreApart) :
    (ofTargets config rejected others).UnitsAreApart := by
  have hunits := units_perm h config rejected
  exact ⟨(hunits.map _).nodup_iff.mp hapart.nodup,
    fun unit hunit => hapart.plain unit (hunits.mem_iff.mpr hunit)⟩

theorem deliverTo_ofTargets (h : SameByType targets others)
    (hapart : (ofTargets config rejected targets).UnitsAreApart) {before after : FileTree}
    (hdeliver : before.deliverTo destination (ofTargets config rejected targets).sources =
      .ok after) :
    before.deliverTo destination (ofTargets config rejected others).sources = .ok after := by
  cases destination with
  | output => exact hdeliver
  | directory out =>
      have hsources (targets : List PropertyFacts) (before : FileTree) :
          before.deliverAll out (ofTargets config rejected targets).sources =
            before.deliverAll out (ofTargets config rejected targets).units >>= fun middle =>
              middle.deliverAll out (ofTargets config rejected targets).support :=
        List.foldlM_append
      have hdeliver := (hsources targets before).symm.trans hdeliver
      obtain ⟨middle, hunits, hsupport⟩ := bind_eq_ok_iff.mp hdeliver
      have hunits := FileTree.deliverAll_perm (units_perm h config rejected) hapart.nodup
        hapart.plain hunits
      exact (hsources others before).trans (bind_eq_ok_iff.mpr ⟨middle, hunits, hsupport⟩)

/-- Whether a plan can be carried out on a workspace, and which tree it leaves then. -/
def Completes (destination : Destination) (plan : Plan) (w : Workspace) (tree : FileTree) : Prop :=
  ∃ after, w.perform Effect.blame (plan.effects destination) = .ok after ∧ after.tree = tree

theorem completes_iff {plan : Plan} : plan.Completes destination w tree ↔
    w.tree.deliverTo destination plan.sources = .ok tree := by
  rw [← carryOut_effects]
  constructor
  · rintro ⟨after, hperform, rfl⟩
    exact (Workspace.perform_eq_ok_iff.mp hperform).1
  · exact Workspace.exists_perform_of_carryOut Effect.blame

/-- Where targets of different types change places, as long as the units have names of their own
without slashes, the same units are generated with the same counts. If all of them can be written
in one order, then also in the other one, and the same files are written with the same contents. -/
theorem ofTargets_sameByType (h : SameByType targets others)
    (hapart : (ofTargets config rejected targets).UnitsAreApart) :
    (ofTargets config rejected targets).units.Perm (ofTargets config rejected others).units ∧
      (ofTargets config rejected targets).summary = (ofTargets config rejected others).summary ∧
      ∀ destination w tree, (ofTargets config rejected targets).Completes destination w tree ↔
        (ofTargets config rejected others).Completes destination w tree := by
  refine ⟨units_perm h config rejected, summary_ofTargets_congr h config rejected,
    fun destination w tree => ?_⟩
  have hback : SameByType others targets := ⟨h.perm.symm, fun owner => (h.order owner).symm⟩
  rw [completes_iff, completes_iff]
  exact ⟨deliverTo_ofTargets h hapart, deliverTo_ofTargets hback (hapart.congr h)⟩

/-- A property of a class, named for both. -/
def sampleTarget (owner name : String) : PropertyFacts :=
  { PropertyFacts.sample .notAnnotated with
    name
    containingType := { name := owner, namespaceSegments := ["App"] } }

def sampleTitle : PropertyFacts := sampleTarget "Doc" "Title"

def sampleRating : PropertyFacts := sampleTarget "Page" "Rating"

/-- The plan for units alone. -/
def sampleOf (targets : List PropertyFacts) : Plan :=
  ofTargets { includeSupportSources := false } [] targets

/-- A workspace with one directory. -/
def sampleWorkspace (path : String) : Workspace where
  tree := ((∅ : FileTree).makeDirectories path).toOption.getD ∅

theorem sampleOf_isApart : SameByType [sampleTitle, sampleRating] [sampleRating, sampleTitle] ∧
    (sampleOf [sampleTitle, sampleRating]).UnitsAreApart :=
  ⟨.swap (by decide +kernel), by decide +kernel, by decide +kernel⟩

theorem ofTargets_sameByType_sampleOf :
    (sampleOf [sampleTitle, sampleRating]).summary =
        (sampleOf [sampleRating, sampleTitle]).summary ∧
      ∃ tree,
        (sampleOf [sampleTitle, sampleRating]).Completes (.directory "/out") (sampleWorkspace "/")
          tree ∧
        (sampleOf [sampleRating, sampleTitle]).Completes (.directory "/out") (sampleWorkspace "/")
          tree := by
  obtain ⟨hsame, hapart⟩ := sampleOf_isApart
  obtain ⟨-, hsummary, hcompletes⟩ := ofTargets_sameByType hsame hapart
  have hdeliver : ((sampleWorkspace "/").tree.deliverTo (.directory "/out")
      (sampleOf [sampleTitle, sampleRating]).sources).toBool = true := by decide +kernel
  obtain ⟨tree, htree⟩ := exists_eq_ok_of_toBool hdeliver
  have hfirst := completes_iff.mpr htree
  exact ⟨hsummary, tree, hfirst, (hcompletes _ _ _).mp hfirst⟩

/-- The tree that a plan leaves, whether or not all of it could be carried out. -/
def treeLeft (destination : Destination) (plan : Plan) (w : Workspace) : FileTree :=
  match w.perform Effect.blame (plan.effects destination) with
  | .ok after => after.tree
  | .error stop => stop.workspace.tree

/-- Where the place of a unit is taken, the order decides on what is written before this is found. -/
theorem treeLeft_sampleOf_ne :
    let blocked := sampleWorkspace "/out/gen_App.Page.Rating.g.cs"
    SameByType [sampleTitle, sampleRating] [sampleRating, sampleTitle] ∧
      (sampleOf [sampleTitle, sampleRating]).UnitsAreApart ∧
      treeLeft (.directory "/out") (sampleOf [sampleTitle, sampleRating]) blocked ≠
        treeLeft (.directory "/out") (sampleOf [sampleRating, sampleTitle]) blocked := by
  intro blocked
  refine ⟨sampleOf_isApart.1, sampleOf_isApart.2, fun h => ?_⟩
  have hfirst : ((treeLeft (.directory "/out") (sampleOf [sampleTitle, sampleRating])
      blocked).node? ["out", "gen_App.Doc.Title.g.cs"]).isSome = true := by decide +kernel
  have hsecond : ((treeLeft (.directory "/out") (sampleOf [sampleRating, sampleTitle])
      blocked).node? ["out", "gen_App.Doc.Title.g.cs"]).isSome = false := by decide +kernel
  rw [h, hsecond] at hfirst
  cases hfirst

end Plan

end ChangeNotification
