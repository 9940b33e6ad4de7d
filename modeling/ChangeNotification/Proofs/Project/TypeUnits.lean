import ChangeNotification.Proofs.Project.Grouping
import ChangeNotification.Proofs.Resolution.Subject
import ChangeNotification.Proofs.Symbol.Levels
import Mathlib.Data.List.Forall2

/-! # Units of one type

The facts of two properties may name one type and still differ in what they say about `null` in it.
The properties are then put into two units, and the units have one name. -/

namespace ChangeNotification

open Emission

/-! ## One type -/

namespace TypeSymbol

/-- Levels of one declared type. Of its type arguments the names count. -/
structure SameLevel (symbol other : TypeSymbol) : Prop where
  name : symbol.name = other.name
  kind : symbol.kind = other.kind
  typeArguments : symbol.typeArguments.map TypeSymbol.name = other.typeArguments.map TypeSymbol.name

/-- Symbols of one declared type, whatever they say about `null`. -/
structure SameType (symbol other : TypeSymbol) : Prop where
  rootNamespace : symbol.rootNamespace = other.rootNamespace
  levels : List.Forall₂ SameLevel symbol.levels other.levels

/-- Which levels of a type are annotated, outermost first. -/
def annotations (symbol : TypeSymbol) : List Bool :=
  symbol.levels.map (·.nullability = .annotated)

variable {symbol other : TypeSymbol}

theorem SameLevel.declaration_eq_iff (h : symbol.SameLevel other) :
    symbol.declaration = other.declaration ↔
      decide (symbol.nullability = .annotated) = decide (other.nullability = .annotated) := by
  rw [declaration, declaration, h.name, h.kind, h.typeArguments]
  simp

theorem SameLevel.hintSegment_eq (h : symbol.SameLevel other) :
    symbol.declaration.hintSegment = other.declaration.hintSegment := by
  rw [declaration, declaration, h.name, h.kind, h.typeArguments]
  rfl

theorem map_declaration_eq_iff {levels others : List TypeSymbol}
    (h : List.Forall₂ SameLevel levels others) :
    levels.map declaration = others.map declaration ↔
      levels.map (fun level => decide (level.nullability = .annotated)) =
        others.map fun level => decide (level.nullability = .annotated) := by
  induction h with
  | nil => simp
  | cons hlevel _ ih => simp only [List.map_cons, List.cons.injEq, hlevel.declaration_eq_iff, ih]

theorem map_hintSegment_eq {levels others : List TypeSymbol}
    (h : List.Forall₂ SameLevel levels others) :
    (levels.map declaration).map TypeDeclaration.hintSegment =
      (others.map declaration).map TypeDeclaration.hintSegment := by
  induction h with
  | nil => rfl
  | cons hlevel _ ih =>
      rw [List.map_cons, List.map_cons, List.map_cons, List.map_cons, hlevel.hintSegment_eq, ih]

theorem SameType.namespaceName_eq (h : symbol.SameType other) :
    symbol.definition.namespaceName = other.definition.namespaceName := by
  rw [namespaceName_definition, namespaceName_definition, h.rootNamespace]

theorem SameType.definition_eq_iff (h : symbol.SameType other) :
    symbol.definition = other.definition ↔ symbol.annotations = other.annotations := by
  rw [TypeDefinition.eq_iff, and_iff_right h.namespaceName_eq, chain_definition, chain_definition,
    map_declaration_eq_iff h.levels]
  rfl

/-- What a type says about `null` does not get into the name of a unit. -/
theorem SameType.typeHintName_eq (h : symbol.SameType other) :
    typeHintName symbol.definition = typeHintName other.definition := by
  have hsegments : symbol.definition.chain.map TypeDeclaration.hintSegment =
      other.definition.chain.map TypeDeclaration.hintSegment := by
    rw [chain_definition, chain_definition, map_hintSegment_eq h.levels]
  rw [typeHintName, typeHintName, typeSegments, typeSegments, hsegments, TypeDefinition.isGlobal,
    TypeDefinition.isGlobal, h.namespaceName_eq]

end TypeSymbol

/-! ## Units -/

namespace TypeGroup

variable {groups : List TypeGroup} {descriptors : List PropertyDescriptor}

theorem IsPartition.exists_group (h : IsPartition groups descriptors)
    {descriptor : PropertyDescriptor} (hdescriptor : descriptor ∈ descriptors) :
    ∃ group ∈ groups, descriptor ∈ group.members :=
  List.mem_flatMap.mp (h.members_perm.mem_iff.mpr hdescriptor)

/-- Descriptors are in one group where they are of one type. -/
theorem IsPartition.together_iff (h : IsPartition groups descriptors)
    {descriptor other : PropertyDescriptor} (hdescriptor : descriptor ∈ descriptors)
    (hother : other ∈ descriptors) :
    (∃ group ∈ groups, descriptor ∈ group.members ∧ other ∈ group.members) ↔
      descriptor.containingType = other.containingType := by
  constructor
  · rintro ⟨group, hgroup, hmember, hmember'⟩
    exact (h.containingType_eq hgroup _ hmember).trans (h.containingType_eq hgroup _ hmember').symm
  · intro htype
    obtain ⟨group, hgroup, hmember⟩ := h.exists_group hdescriptor
    have howner := htype.symm.trans (h.containingType_eq hgroup _ hmember)
    refine ⟨group, hgroup, hmember, ?_⟩
    rw [h.members_eq group hgroup]
    exact List.mem_filter.mpr ⟨hother, by simpa using howner⟩

end TypeGroup

/-- Of the properties of one type, those go into one unit whose facts annotate the same levels of
the type. The others go into units that have the same name. -/
theorem TypeGroup.together_iff_annotations {targets : List PropertyFacts}
    {facts other : PropertyFacts} (hfacts : facts ∈ targets) (hother : other ∈ targets)
    {descriptor descriptor' : PropertyDescriptor} (hresolve : facts.resolve = .ok descriptor)
    (hresolve' : other.resolve = .ok descriptor')
    (hsame : facts.containingType.SameType other.containingType) :
    let groups := ofDescriptors (targets.filterMap (·.resolve.toOption))
    ((∃ group ∈ groups, descriptor ∈ group.members ∧ descriptor' ∈ group.members) ↔
        facts.containingType.annotations = other.containingType.annotations) ∧
      ∃ group ∈ groups, ∃ group' ∈ groups,
        descriptor ∈ group.members ∧ descriptor' ∈ group'.members ∧
          ∀ options : EmitOptions, ∃ unit unit', (emitType options group.members {}).1 = .ok unit ∧
            (emitType options group'.members {}).1 = .ok unit' ∧ unit.hintName = unit'.hintName := by
  intro groups
  have hpartition : IsPartition groups (targets.filterMap (·.resolve.toOption)) :=
    isPartition_ofDescriptors _
  have hmem : descriptor ∈ targets.filterMap (·.resolve.toOption) :=
    List.mem_filterMap.mpr ⟨facts, hfacts, by rw [hresolve]; rfl⟩
  have hmem' : descriptor' ∈ targets.filterMap (·.resolve.toOption) :=
    List.mem_filterMap.mpr ⟨other, hother, by rw [hresolve']; rfl⟩
  have htype := (PropertyFacts.describes_of_resolve hresolve).containingType
  have htype' := (PropertyFacts.describes_of_resolve hresolve').containingType
  constructor
  · rw [hpartition.together_iff hmem hmem', htype, htype', hsame.definition_eq_iff]
  · obtain ⟨group, hgroup, hmember⟩ := hpartition.exists_group hmem
    obtain ⟨group', hgroup', hmember'⟩ := hpartition.exists_group hmem'
    refine ⟨group, hgroup, group', hgroup', hmember, hmember', fun options => ?_⟩
    obtain ⟨unit, hunit, hname⟩ := hpartition.emitType_ok hgroup options neverCancels_default
    obtain ⟨unit', hunit', hname'⟩ := hpartition.emitType_ok hgroup' options neverCancels_default
    refine ⟨unit, unit', hunit, hunit', ?_⟩
    rw [hname, hname', ← hpartition.containingType_eq hgroup _ hmember,
      ← hpartition.containingType_eq hgroup' _ hmember', htype, htype', hsame.typeHintName_eq]

/-- A property of the class of the sample, with what its facts say about the class. -/
def PropertyFacts.sampleIn (nullability : Nullability) (name : String) : PropertyFacts :=
  { sample .notAnnotated with
    name
    containingType := { (sample .notAnnotated).containingType with nullability } }

theorem TypeGroup.together_iff_annotations_sampleIn :
    let title := PropertyFacts.sampleIn .unknown "Title"
    let rating := PropertyFacts.sampleIn .notAnnotated "Rating"
    ∃ descriptor descriptor', title.resolve = .ok descriptor ∧ rating.resolve = .ok descriptor' ∧
      ∃ group ∈ ofDescriptors ([title, rating].filterMap (·.resolve.toOption)),
        descriptor ∈ group.members ∧ descriptor' ∈ group.members := by
  intro title rating
  have hsame : title.containingType.SameType rating.containingType :=
    ⟨rfl, .cons ⟨rfl, rfl, rfl⟩ .nil⟩
  obtain ⟨descriptor, hresolve⟩ : ∃ descriptor, title.resolve = .ok descriptor :=
    exists_eq_ok_of_toBool (by decide +kernel)
  obtain ⟨descriptor', hresolve'⟩ : ∃ descriptor, rating.resolve = .ok descriptor :=
    exists_eq_ok_of_toBool (by decide +kernel)
  have htitle : title ∈ [title, rating] := .head _
  have hrating : rating ∈ [title, rating] := .tail _ (.head _)
  have htogether := (together_iff_annotations htitle hrating hresolve hresolve' hsame).1.mpr rfl
  exact ⟨descriptor, descriptor', hresolve, hresolve', htogether⟩

/-- Where the facts of one property annotate the class and those of another do not, the class has
two units of one name. -/
theorem TypeGroup.sampleIn_not_together :
    let title := PropertyFacts.sampleIn .unknown "Title"
    let rating := PropertyFacts.sampleIn .annotated "Rating"
    title.containingType.SameType rating.containingType ∧
      (ofDescriptors ([title, rating].filterMap (·.resolve.toOption))).map
        (fun group => group.members.map (·.propertyName)) = [["Title"], ["Rating"]] ∧
      (Outcome.ofTypes {} [title, rating]).map (·.result.toOption.map (·.hintName)) =
        [some "gen_App.Doc-members.g.cs", some "gen_App.Doc-members.g.cs"] :=
  ⟨⟨rfl, .cons ⟨rfl, rfl, rfl⟩ .nil⟩, by decide +kernel, by decide +kernel⟩

end ChangeNotification
