import ChangeNotification.Project.Outcome
import ChangeNotification.Proofs.Emission.Reports
import Mathlib.Data.List.Induction
import Mathlib.Data.List.Nodup

/-! # Groups of descriptors

Descriptors are grouped by their containing types, one after the other. The groups divide the
descriptors among them, so that each group can be emitted. -/

namespace ChangeNotification

/-! ## Owners -/

namespace PropertyDescriptor

/-- The containing types of descriptors, in order of their first appearance. -/
def owners (descriptors : List PropertyDescriptor) : List TypeDefinition :=
  (descriptors.map (·.containingType)).eraseDups

/-- The descriptors of one type, in their order. -/
def ownedBy (owner : TypeDefinition) (descriptors : List PropertyDescriptor) :
    List PropertyDescriptor :=
  descriptors.filter (·.containingType = owner)

variable {owner : TypeDefinition} {descriptor : PropertyDescriptor}
  {descriptors : List PropertyDescriptor}

theorem mem_owners : owner ∈ owners descriptors ↔
    ∃ descriptor ∈ descriptors, descriptor.containingType = owner := by
  rw [owners, List.mem_eraseDups, List.mem_map]

theorem mem_ownedBy : descriptor ∈ ownedBy owner descriptors ↔
    descriptor ∈ descriptors ∧ descriptor.containingType = owner := by
  simp [ownedBy]

theorem owners_concat (descriptors : List PropertyDescriptor) (descriptor : PropertyDescriptor) :
    owners (descriptors ++ [descriptor]) =
      owners descriptors ++
        if descriptor.containingType ∈ owners descriptors then []
        else [descriptor.containingType] := by
  have hmem : descriptor.containingType ∈ owners descriptors ↔
      descriptor.containingType ∈ descriptors.map (·.containingType) :=
    List.mem_eraseDups
  rw [owners, List.map_append, List.map_singleton, List.eraseDups_append, ← owners]
  by_cases h : descriptor.containingType ∈ descriptors.map (·.containingType)
  · rw [if_pos (hmem.mpr h), List.removeAll, List.filter_cons_of_neg (by simpa using h)]
    rfl
  · rw [if_neg (mt hmem.mp h), List.removeAll, List.filter_cons_of_pos (by simpa using h)]
    rfl

theorem nodup_owners (descriptors : List PropertyDescriptor) : (owners descriptors).Nodup := by
  induction descriptors using List.reverseRecOn with
  | nil => exact List.nodup_nil
  | append_singleton descriptors descriptor ih =>
      rw [owners_concat]
      split
      · rwa [List.append_nil]
      · rename_i hnew
        simpa using ih.concat hnew

theorem ownedBy_concat (owner : TypeDefinition) (descriptors : List PropertyDescriptor)
    (descriptor : PropertyDescriptor) :
    ownedBy owner (descriptors ++ [descriptor]) =
      ownedBy owner descriptors ++
        if descriptor.containingType = owner then [descriptor] else [] := by
  simp only [ownedBy, List.filter_append]
  split <;> simp_all

end PropertyDescriptor

/-! ## Adding a descriptor -/

namespace TypeGroup

open PropertyDescriptor

/-- One group for each owner. -/
def forOwners (members : TypeDefinition → List PropertyDescriptor) (owners : List TypeDefinition) :
    List TypeGroup :=
  owners.map fun owner => ⟨owner, members owner⟩

/-- The members of an owner after a descriptor was added. -/
def withMember (descriptor : PropertyDescriptor)
    (members : TypeDefinition → List PropertyDescriptor) (owner : TypeDefinition) :
    List PropertyDescriptor :=
  members owner ++ if descriptor.containingType = owner then [descriptor] else []

variable {members : TypeDefinition → List PropertyDescriptor} {owners : List TypeDefinition}
  {descriptor : PropertyDescriptor}

/-- The groups of other types stay as they are. -/
theorem forOwners_withMember_of_not_mem (h : descriptor.containingType ∉ owners) :
    forOwners (withMember descriptor members) owners = forOwners members owners := by
  refine List.map_congr_left fun owner howner => ?_
  have hother : descriptor.containingType ≠ owner := by
    rintro rfl
    exact h howner
  rw [withMember, if_neg hother, List.append_nil]

/-- A descriptor of a new type gets a group behind all others. -/
theorem add_of_not_mem (h : descriptor.containingType ∉ owners) :
    add descriptor (forOwners members owners) =
      forOwners members owners ++ [⟨descriptor.containingType, [descriptor]⟩] := by
  induction owners with
  | nil => rfl
  | cons owner owners ih =>
      rw [List.mem_cons, not_or] at h
      rw [forOwners, List.map_cons, add, if_neg (Ne.symm h.1)]
      exact congrArg (List.cons _) (ih h.2)

/-- A descriptor of a known type comes last in the group of the type. -/
theorem add_of_mem (hnodup : owners.Nodup) (h : descriptor.containingType ∈ owners) :
    add descriptor (forOwners members owners) =
      forOwners (withMember descriptor members) owners := by
  induction owners with
  | nil => cases h
  | cons owner owners ih =>
      obtain ⟨hnew, hnodup⟩ := List.nodup_cons.mp hnodup
      rw [forOwners, List.map_cons, forOwners, List.map_cons, add, withMember]
      by_cases howner : descriptor.containingType = owner
      · subst howner
        rw [if_pos rfl, if_pos rfl]
        exact congrArg (List.cons _) (forOwners_withMember_of_not_mem hnew).symm
      · have hmem := (List.mem_cons.mp h).resolve_left howner
        rw [if_neg (Ne.symm howner), if_neg howner, List.append_nil]
        exact congrArg (List.cons _) (ih hnodup hmem)

/-- Adding a descriptor loses none and takes none twice. -/
theorem flatMap_members_add (descriptor : PropertyDescriptor) (groups : List TypeGroup) :
    ((add descriptor groups).flatMap (·.members)).Perm
      (groups.flatMap (·.members) ++ [descriptor]) := by
  induction groups with
  | nil => exact List.Perm.refl _
  | cons group groups ih =>
      rw [add]
      split
      · simp only [List.flatMap_cons, List.append_assoc]
        exact List.perm_append_comm.append_left group.members
      · simp only [List.flatMap_cons, List.append_assoc]
        exact ih.append_left group.members

/-! ## Grouping -/

theorem ofDescriptors_concat (descriptors : List PropertyDescriptor)
    (descriptor : PropertyDescriptor) :
    ofDescriptors (descriptors ++ [descriptor]) = add descriptor (ofDescriptors descriptors) := by
  rw [ofDescriptors, List.foldl_append]
  rfl

/-- There is one group for each owner, with all descriptors of the owner. -/
theorem ofDescriptors_eq (descriptors : List PropertyDescriptor) :
    ofDescriptors descriptors =
      forOwners (fun owner => ownedBy owner descriptors) (PropertyDescriptor.owners descriptors) := by
  induction descriptors using List.reverseRecOn with
  | nil => rfl
  | append_singleton descriptors descriptor ih =>
      have hmembers : (fun owner => ownedBy owner (descriptors ++ [descriptor])) =
          withMember descriptor (fun owner => ownedBy owner descriptors) :=
        funext fun owner => ownedBy_concat owner descriptors descriptor
      rw [ofDescriptors_concat, ih, owners_concat, hmembers]
      by_cases hmem : descriptor.containingType ∈ PropertyDescriptor.owners descriptors
      · rw [add_of_mem (nodup_owners descriptors) hmem, if_pos hmem, List.append_nil]
      · have hnone : ownedBy descriptor.containingType descriptors = [] := by
          refine List.eq_nil_iff_forall_not_mem.mpr fun other hother => hmem ?_
          exact mem_owners.mpr ⟨other, mem_ownedBy.mp hother⟩
        rw [add_of_not_mem hmem, if_neg hmem, ← forOwners_withMember_of_not_mem hmem]
        simp [forOwners, withMember, hnone]

theorem flatMap_members_ofDescriptors (descriptors : List PropertyDescriptor) :
    ((ofDescriptors descriptors).flatMap (·.members)).Perm descriptors := by
  induction descriptors using List.reverseRecOn with
  | nil => exact List.Perm.refl _
  | append_singleton descriptors descriptor ih =>
      rw [ofDescriptors_concat]
      exact (flatMap_members_add descriptor _).trans (ih.append_right [descriptor])

/-- Groups that divide descriptors among them by their types. -/
structure IsPartition (groups : List TypeGroup) (descriptors : List PropertyDescriptor) :
    Prop where
  owners_nodup : (groups.map (·.owner)).Nodup
  members_ne_nil : ∀ group ∈ groups, group.members ≠ []
  owners_in_order : groups.map (·.owner) = (descriptors.map (·.containingType)).eraseDups
  members_eq : ∀ group ∈ groups,
    group.members = descriptors.filter (·.containingType = group.owner)
  members_perm : (groups.flatMap (·.members)).Perm descriptors

theorem isPartition_ofDescriptors (descriptors : List PropertyDescriptor) :
    IsPartition (ofDescriptors descriptors) descriptors := by
  have howners : (ofDescriptors descriptors).map (·.owner) =
      PropertyDescriptor.owners descriptors := by
    simp [ofDescriptors_eq, forOwners, Function.comp_def]
  have hmembers : ∀ group ∈ ofDescriptors descriptors,
      group.members = ownedBy group.owner descriptors := by
    simp [ofDescriptors_eq, forOwners]
  refine ⟨howners ▸ nodup_owners descriptors, ?_, howners, hmembers,
    flatMap_members_ofDescriptors descriptors⟩
  intro group hgroup hnone
  have howner : group.owner ∈ PropertyDescriptor.owners descriptors :=
    howners ▸ List.mem_map_of_mem hgroup
  obtain ⟨descriptor, hdescriptor, htype⟩ := mem_owners.mp howner
  have hmember : descriptor ∈ group.members := by
    rw [hmembers group hgroup]
    exact mem_ownedBy.mpr ⟨hdescriptor, htype⟩
  rw [hnone] at hmember
  cases hmember

variable {groups : List TypeGroup} {descriptors : List PropertyDescriptor}

theorem IsPartition.containingType_eq (h : IsPartition groups descriptors) {group : TypeGroup}
    (hgroup : group ∈ groups) : ∀ member ∈ group.members, member.containingType = group.owner := by
  intro member hmember
  rw [h.members_eq group hgroup] at hmember
  simpa using (List.mem_filter.mp hmember).2

theorem IsPartition.exists_members_eq_cons (h : IsPartition groups descriptors)
    {group : TypeGroup} (hgroup : group ∈ groups) :
    ∃ first rest, group.members = first :: rest ∧ first.containingType = group.owner ∧
      ∀ descriptor ∈ rest, descriptor.containingType = first.containingType := by
  have htypes := h.containingType_eq hgroup
  obtain ⟨first, rest, hmembers⟩ := List.exists_cons_of_ne_nil (h.members_ne_nil group hgroup)
  rw [hmembers] at htypes
  have hfirst := htypes first (.head _)
  exact ⟨first, rest, hmembers, hfirst, fun descriptor hdescriptor =>
    (htypes descriptor (.tail _ hdescriptor)).trans hfirst.symm⟩

/-- The members of a group are of one type, so that they can be emitted into one unit. -/
theorem IsPartition.emitType_ok (h : IsPartition groups descriptors) {group : TypeGroup}
    (hgroup : group ∈ groups) (options : EmitOptions) {host : Host} (hhost : host.NeverCancels) :
    ∃ unit, (emitType options group.members host).1 = .ok unit ∧
      unit.hintName = Emission.typeHintName group.owner := by
  obtain ⟨first, rest, hmembers, hfirst, hrest⟩ := h.exists_members_eq_cons hgroup
  rw [hmembers, emitType_of_neverCancels hhost options first hrest]
  exact ⟨_, rfl, by rw [hfirst]⟩

end TypeGroup

/-! ## Outcomes by type -/

/-- The outcome of a property that does not resolve. -/
def PropertyFacts.FailsWith (facts : PropertyFacts) (outcome : Outcome) : Prop :=
  outcome.label = facts.label ∧
    ∃ error, facts.resolve = .error error ∧ outcome.result = .error (.resolve error)

/-- The outcome of a group that is emitted. -/
def TypeGroup.SucceedsWith (options : EmitOptions) (group : TypeGroup) (outcome : Outcome) : Prop :=
  outcome.label = group.owner.name ∧
    ∃ unit, (emitType options group.members {}).1 = .ok unit ∧ outcome.result = .ok unit

theorem PropertyFacts.failsWith_failures (targets : List PropertyFacts) :
    List.Forall₂ FailsWith (targets.filter fun facts => !facts.resolve.toBool)
      (targets.filterMap failure?) := by
  induction targets with
  | nil => exact .nil
  | cons facts targets ih =>
      cases hresolve : facts.resolve with
      | error error =>
          rw [List.filter_cons_of_pos (by simp [hresolve, Except.toBool]),
            List.filterMap_cons_some (by rw [failure?, hresolve])]
          exact .cons ⟨rfl, error, hresolve, rfl⟩ ih
      | ok descriptor =>
          rw [List.filter_cons_of_neg (by simp [hresolve, Except.toBool]),
            List.filterMap_cons_none (by rw [failure?, hresolve])]
          exact ih

theorem TypeGroup.succeedsWith_outcome {options : EmitOptions} {group : TypeGroup}
    {unit : GeneratedSource} (h : (emitType options group.members {}).1 = .ok unit) :
    group.SucceedsWith options (group.outcome options) := by
  refine ⟨rfl, unit, h, ?_⟩
  rw [TypeGroup.outcome, Outcome.ofEmission, h]
  rfl

/-- The properties that do not resolve come first, with one outcome for each, and then the groups
of the others, with one unit for each. -/
theorem Outcome.ofTypes_isPartition (options : EmitOptions) (targets : List PropertyFacts) :
    let descriptors := targets.filterMap (·.resolve.toOption)
    let groups := TypeGroup.ofDescriptors descriptors
    TypeGroup.IsPartition groups descriptors ∧
      (∀ group ∈ groups, ∀ host : Host, host.NeverCancels →
        ∃ unit, (emitType options group.members host).1 = .ok unit) ∧
      ∃ failed generated, Outcome.ofTypes options targets = failed ++ generated ∧
        List.Forall₂ PropertyFacts.FailsWith
          (targets.filter fun facts => !facts.resolve.toBool) failed ∧
        List.Forall₂ (TypeGroup.SucceedsWith options) groups generated := by
  intro descriptors groups
  have hpartition : TypeGroup.IsPartition groups descriptors :=
    TypeGroup.isPartition_ofDescriptors descriptors
  refine ⟨hpartition, fun group hgroup host hhost => ?_, _, _, rfl,
    PropertyFacts.failsWith_failures targets, ?_⟩
  · obtain ⟨unit, hunit, -⟩ := hpartition.emitType_ok hgroup options hhost
    exact ⟨unit, hunit⟩
  · rw [List.forall₂_map_right_iff, List.forall₂_same]
    intro group hgroup
    obtain ⟨unit, hunit, -⟩ := hpartition.emitType_ok hgroup options neverCancels_default
    exact TypeGroup.succeedsWith_outcome hunit

end ChangeNotification
