import ChangeNotification.Proofs.Computation
import ChangeNotification.Proofs.Emission.UnitText
import ChangeNotification.Proofs.Text.Join

/-! # Names of units

A unit is named by its namespace, the chain of its types and its property, joined by dots. Among
identifiers the join can be undone. Generic arguments are joined by underscores, which identifiers
may have, so that only their joined text is found again. -/

namespace ChangeNotification

/-! ## Identifiers -/

/-- Whatever else they are made of, identifiers are not empty and hold no dots and no braces. -/
structure Text.IsIdentifier (s : String) : Prop where
  not_empty : s ≠ ""
  no_dot : '.' ∉ s.toList
  no_brace : '\x7b' ∉ s.toList

structure TypeDeclaration.IsNamed (declaration : TypeDeclaration) : Prop where
  name : Text.IsIdentifier declaration.name
  genericArguments : ∀ argument ∈ declaration.genericArguments, Text.IsIdentifier argument

/-- A type whose namespace is a path of identifiers; the global one has the empty path. -/
structure TypeDefinition.IsNamed (definition : TypeDefinition) : Prop where
  namespaceName : ∃ path, (∀ segment ∈ path, Text.IsIdentifier segment) ∧
    definition.namespaceName = String.intercalate "." path
  chain : ∀ declaration ∈ definition.chain, declaration.IsNamed

structure PropertyDraft.IsNamed (draft : PropertyDraft) : Prop where
  containingType : draft.containingType.IsNamed
  propertyName : Text.IsIdentifier draft.propertyName

/-- The full dotted names of the types of a chain. -/
def TypeDefinition.IsTypeName (definition : TypeDefinition) (name : String) : Prop :=
  ∃ types, types <+: definition.chain ∧ types ≠ [] ∧
    name = String.intercalate "."
      ((if definition.isGlobal then [] else [definition.namespaceName]) ++
        types.map (·.name))

/-! ## Segments of types -/

/-- Declarations that stand alike in names of units. -/
structure TypeDeclaration.SameSegment (declaration other : TypeDeclaration) : Prop where
  name : declaration.name = other.name
  isGeneric : declaration.isGeneric = other.isGeneric
  joined : String.intercalate "_" declaration.genericArguments =
    String.intercalate "_" other.genericArguments

namespace TypeDeclaration

variable {declaration other : TypeDeclaration}

theorem hintSegment_of_isGeneric (h : declaration.isGeneric = true) : declaration.hintSegment =
    declaration.name ++ String.singleton '\x7b' ++
      (String.intercalate "_" declaration.genericArguments ++ "\x7d") := by
  have hbrace : "\x7b" = String.singleton '\x7b' := by decide
  rw [hintSegment, if_pos h, hbrace, String.append_assoc]

theorem hintSegment_of_not_isGeneric (h : declaration.isGeneric = false) :
    declaration.hintSegment = declaration.name := by
  rw [hintSegment, if_neg (by simp [h])]

theorem genericArguments_of_not_isGeneric (h : declaration.isGeneric = false) :
    declaration.genericArguments = [] := by
  simpa [isGeneric] using h

/-- The brace after the name shows where the arguments begin, and whether there are any. -/
theorem hintSegment_inj (hname : Text.IsIdentifier declaration.name)
    (hother : Text.IsIdentifier other.name) :
    declaration.hintSegment = other.hintSegment ↔ declaration.SameSegment other := by
  have hbrace {d : TypeDeclaration} (h : d.isGeneric = true) : '\x7b' ∈ d.hintSegment.toList := by
    simp [hintSegment_of_isGeneric h]
  constructor
  · intro h
    cases hgeneric : declaration.isGeneric <;> cases hgeneric' : other.isGeneric
    · rw [hintSegment_of_not_isGeneric hgeneric, hintSegment_of_not_isGeneric hgeneric'] at h
      refine ⟨h, by rw [hgeneric, hgeneric'], ?_⟩
      rw [genericArguments_of_not_isGeneric hgeneric, genericArguments_of_not_isGeneric hgeneric']
    · have hmem := hbrace hgeneric'
      rw [← h, hintSegment_of_not_isGeneric hgeneric] at hmem
      exact absurd hmem hname.no_brace
    · have hmem := hbrace hgeneric
      rw [h, hintSegment_of_not_isGeneric hgeneric'] at hmem
      exact absurd hmem hother.no_brace
    · rw [hintSegment_of_isGeneric hgeneric, hintSegment_of_isGeneric hgeneric',
        Text.append_cut_inj hname.no_brace hother.no_brace] at h
      exact ⟨h.1, by rw [hgeneric, hgeneric'], by simpa using h.2⟩
  · rintro ⟨hsame, hgeneric, hjoined⟩
    rw [hintSegment, hintSegment, hsame, hgeneric, hjoined]

theorem map_hintSegment_inj {chain others : List TypeDeclaration}
    (h : ∀ declaration ∈ chain, Text.IsIdentifier declaration.name)
    (hothers : ∀ declaration ∈ others, Text.IsIdentifier declaration.name) :
    chain.map hintSegment = others.map hintSegment ↔ List.Forall₂ SameSegment chain others :=
  Text.map_eq_map_iff_forall₂ fun declaration hdeclaration other hother =>
    hintSegment_inj (h declaration hdeclaration) (hothers other hother)

/-- Without underscores of their own the arguments are found again. -/
theorem SameSegment.genericArguments_eq (h : declaration.SameSegment other)
    (hplain : ∀ argument ∈ declaration.genericArguments, '_' ∉ argument.toList)
    (hplain' : ∀ argument ∈ other.genericArguments, '_' ∉ argument.toList) :
    declaration.genericArguments = other.genericArguments := by
  cases hgeneric : declaration.isGeneric with
  | false =>
      have hgeneric' : other.isGeneric = false := h.isGeneric ▸ hgeneric
      rw [genericArguments_of_not_isGeneric hgeneric, genericArguments_of_not_isGeneric hgeneric']
  | true =>
      have hgeneric' : other.isGeneric = true := h.isGeneric ▸ hgeneric
      have hne : declaration.genericArguments ≠ [] := by
        intro hnone
        simp [TypeDeclaration.isGeneric, hnone] at hgeneric
      have hne' : other.genericArguments ≠ [] := by
        intro hnone
        simp [TypeDeclaration.isGeneric, hnone] at hgeneric'
      have hunderscore : "_" = String.singleton '_' := by decide
      have hjoined := h.joined
      rw [hunderscore] at hjoined
      exact (Text.intercalate_inj hplain hplain' hne hne').mp hjoined

theorem SameSegment.forall₂_genericArguments {chain others : List TypeDeclaration}
    (h : List.Forall₂ SameSegment chain others)
    (hplain : ∀ declaration ∈ chain ++ others, ∀ argument ∈ declaration.genericArguments,
      '_' ∉ argument.toList) :
    List.Forall₂ (fun declaration other => declaration.name = other.name ∧
      declaration.genericArguments = other.genericArguments) chain others := by
  induction h with
  | nil => exact .nil
  | @cons declaration other chain others hsame _ ih =>
      have harguments := hsame.genericArguments_eq (hplain declaration (by simp))
        (hplain other (by simp))
      refine .cons ⟨hsame.name, harguments⟩ (ih fun inner hinner => hplain inner ?_)
      rcases List.mem_append.mp hinner with hinner | hinner <;> simp [hinner]

theorem IsNamed.no_dot_hintSegment (h : declaration.IsNamed) :
    '.' ∉ declaration.hintSegment.toList := by
  have hjoined : '.' ∉ (String.intercalate "_" declaration.genericArguments).toList :=
    Text.not_mem_intercalate (by decide) fun argument hargument =>
      (h.genericArguments argument hargument).no_dot
  unfold hintSegment
  split
  · simp only [String.toList_append, List.mem_append, not_or]
    exact ⟨⟨⟨h.name.no_dot, by decide⟩, hjoined⟩, by decide⟩
  · exact h.name.no_dot

end TypeDeclaration

/-! ## Paths of units -/

namespace TypeDefinition

variable {definition other : TypeDefinition}

/-- In a join the namespace stands for its path. -/
theorem intercalate_namespace {path : List String}
    (hpath : ∀ segment ∈ path, Text.IsIdentifier segment)
    (h : definition.namespaceName = String.intercalate "." path) {texts : List String}
    (htexts : texts ≠ []) :
    String.intercalate "."
        ((if definition.isGlobal then [] else [definition.namespaceName]) ++ texts) =
      String.intercalate "." (path ++ texts) := by
  have hempty := Text.intercalate_eq_empty_iff (fun segment hsegment =>
    (hpath segment hsegment).not_empty) "."
  by_cases hglobal : path = []
  · rw [if_pos (by simp [isGlobal, h, hglobal]), hglobal]
  · rw [if_neg (by simpa [isGlobal, h] using mt hempty.mp hglobal), h,
      String.intercalate_append_of_ne_nil (by simp) htexts,
      String.intercalate_append_of_ne_nil hglobal htexts, String.intercalate_singleton]

/-- Where the namespace of a unit reaches further than that of another one with the same segments,
it goes by the name of one of its types. -/
theorem isTypeName_of_append {path more : List String}
    (hpath : ∀ segment ∈ path ++ more, Text.IsIdentifier segment)
    (h : definition.namespaceName = String.intercalate "." path)
    (hother : other.namespaceName = String.intercalate "." (path ++ more)) (hmore : more ≠ [])
    {rest : List String}
    (hchain : definition.chain.map TypeDeclaration.hintSegment = more ++ rest) :
    definition.IsTypeName other.namespaceName := by
  obtain ⟨types, others, htypes, hsegments, -⟩ := List.map_eq_append_iff.mp hchain
  -- A segment with arguments has a brace, which no segment of a namespace has.
  have hnames : more = types.map (·.name) := by
    rw [← hsegments]
    refine List.map_congr_left fun declaration hdeclaration => ?_
    have hsegment : declaration.hintSegment ∈ path ++ more := by
      rw [← hsegments]
      exact List.mem_append_right _ (List.mem_map_of_mem hdeclaration)
    cases hgeneric : declaration.isGeneric with
    | true =>
        have hbrace := (hpath _ hsegment).no_brace
        simp [TypeDeclaration.hintSegment_of_isGeneric hgeneric] at hbrace
    | false => exact TypeDeclaration.hintSegment_of_not_isGeneric hgeneric
  refine ⟨types, ⟨others, htypes.symm⟩, ?_, ?_⟩
  · rintro rfl
    exact hmore (by simpa using hnames)
  · have hfront : ∀ segment ∈ path, Text.IsIdentifier segment :=
      fun segment hsegment => hpath segment (List.mem_append_left _ hsegment)
    rw [intercalate_namespace hfront h (by rwa [← hnames]), hother, hnames]

end TypeDefinition

/-! ## Names of units -/

open Emission

theorem PropertyDraft.propertyHintName_eq {draft : PropertyDraft} {path : List String}
    (hpath : ∀ segment ∈ path, Text.IsIdentifier segment)
    (h : draft.containingType.namespaceName = String.intercalate "." path) :
    propertyHintName draft =
      "gen_" ++ String.intercalate "."
        (path ++ (draft.containingType.chain.map TypeDeclaration.hintSegment ++
          [draft.propertyName])) ++ ".g.cs" := by
  rw [propertyHintName, typeSegments, List.append_assoc,
    TypeDefinition.intercalate_namespace hpath h (by simp)]

theorem PropertyDraft.IsNamed.no_dot_segments {draft : PropertyDraft} (h : draft.IsNamed)
    {path : List String} (hpath : ∀ segment ∈ path, Text.IsIdentifier segment) :
    ∀ segment ∈ path ++ (draft.containingType.chain.map TypeDeclaration.hintSegment ++
      [draft.propertyName]), '.' ∉ segment.toList := by
  simp only [List.forall_mem_append, List.forall_mem_map, List.forall_mem_singleton]
  exact ⟨fun segment hsegment => (hpath segment hsegment).no_dot,
    fun declaration hdeclaration =>
      (h.containingType.chain declaration hdeclaration).no_dot_hintSegment,
    h.propertyName.no_dot⟩

theorem PropertyDraft.propertyHintName_congr {draft other : PropertyDraft}
    (hnamespace : draft.containingType.namespaceName = other.containingType.namespaceName)
    (hchain : draft.containingType.chain.map TypeDeclaration.hintSegment =
      other.containingType.chain.map TypeDeclaration.hintSegment)
    (hproperty : draft.propertyName = other.propertyName) :
    propertyHintName draft = propertyHintName other := by
  rw [propertyHintName, propertyHintName, typeSegments, typeSegments, TypeDefinition.isGlobal,
    TypeDefinition.isGlobal, hnamespace, hchain, hproperty]

/-- The dots of a name can be undone, and it shows where the namespace ends, as long as no namespace
goes by the name of a type. -/
theorem PropertyDraft.propertyHintName_inj {draft other : PropertyDraft} (hdraft : draft.IsNamed)
    (hother : other.IsNamed)
    (hapart : ¬ draft.containingType.IsTypeName other.containingType.namespaceName)
    (hapart' : ¬ other.containingType.IsTypeName draft.containingType.namespaceName) :
    propertyHintName draft = propertyHintName other ↔
      draft.containingType.namespaceName = other.containingType.namespaceName ∧
        List.Forall₂ TypeDeclaration.SameSegment draft.containingType.chain
          other.containingType.chain ∧
        draft.propertyName = other.propertyName := by
  rw [← TypeDeclaration.map_hintSegment_inj
    (fun declaration hdeclaration => (hdraft.containingType.chain declaration hdeclaration).name)
    (fun declaration hdeclaration => (hother.containingType.chain declaration hdeclaration).name)]
  refine ⟨fun h => ?_, fun ⟨hnamespace, hchain, hproperty⟩ =>
    propertyHintName_congr hnamespace hchain hproperty⟩
  obtain ⟨path, hpath, hname⟩ := hdraft.containingType.namespaceName
  obtain ⟨path', hpath', hname'⟩ := hother.containingType.namespaceName
  rw [propertyHintName_eq hpath hname, propertyHintName_eq hpath' hname'] at h
  have hsegments : path ++ (draft.containingType.chain.map TypeDeclaration.hintSegment ++
      [draft.propertyName]) = path' ++
        (other.containingType.chain.map TypeDeclaration.hintSegment ++ [other.propertyName]) := by
    have hdot : "." = String.singleton '.' := by decide
    rw [String.append_left_inj, String.append_right_inj, hdot] at h
    exact (Text.intercalate_inj (hdraft.no_dot_segments hpath) (hother.no_dot_segments hpath')
      (by simp) (by simp)).mp h
  rw [← List.append_assoc, ← List.append_assoc, List.append_singleton_inj] at hsegments
  obtain ⟨htypes, hproperty⟩ := hsegments
  -- What one path has more than the other one would be the name of a type.
  rcases List.append_eq_append_iff.mp htypes with ⟨more, rfl, hchain⟩ | ⟨more, rfl, hchain⟩
  · have hmore : more = [] := by
      by_contra hmore
      exact hapart (TypeDefinition.isTypeName_of_append hpath' hname hname' hmore hchain)
    subst hmore
    exact ⟨by simpa [hname'] using hname, hchain, hproperty⟩
  · have hmore : more = [] := by
      by_contra hmore
      exact hapart' (TypeDefinition.isTypeName_of_append hpath hname' hname hmore hchain)
    subst hmore
    exact ⟨by simpa [hname'] using hname, hchain.symm, hproperty⟩

theorem hintName_of_runUnit {options : EmitOptions} {hintName : String} {actions : List Action}
    {host : Host} {unit : GeneratedSource}
    (h : (runUnit options hintName actions host).1 = .ok unit) : unit.hintName = hintName := by
  obtain ⟨buffer, -, rfl⟩ := map_eq_ok_iff.mp h
  rfl

theorem hintName_of_emitProperty {options : EmitOptions} {descriptor : PropertyDescriptor}
    {host : Host} {unit : GeneratedSource} (h : (emitProperty options descriptor host).1 = .ok unit) :
    unit.hintName = propertyHintName descriptor.toPropertyDraft :=
  hintName_of_runUnit h

theorem hintName_of_emitType {options : EmitOptions} {descriptors : List PropertyDescriptor}
    {host : Host} {unit : GeneratedSource} (h : (emitType options descriptors host).1 = .ok unit) :
    ∃ descriptor ∈ descriptors, unit.hintName = typeHintName descriptor.containingType := by
  unfold emitType at h
  split at h
  · cases h
  · rename_i first rest
    split at h
    · cases h
    · exact ⟨first, .head _, hintName_of_runUnit h⟩

/-- Two units have one name exactly if they belong to the same property of types that are named
alike, whose generic arguments make the same text at every level. Where no argument has an
underscore, these are the same arguments. -/
theorem emitProperty_hintName_eq_iff {options options' : EmitOptions} {host host' : Host}
    {descriptor other : PropertyDescriptor} (hdescriptor : descriptor.IsNamed)
    (hother : other.IsNamed)
    (hapart : ¬ descriptor.containingType.IsTypeName other.containingType.namespaceName)
    (hapart' : ¬ other.containingType.IsTypeName descriptor.containingType.namespaceName)
    {unit unit' : GeneratedSource}
    (hunit : (emitProperty options descriptor host).1 = .ok unit)
    (hunit' : (emitProperty options' other host').1 = .ok unit') :
    (unit.hintName = unit'.hintName ↔
      descriptor.containingType.namespaceName = other.containingType.namespaceName ∧
        List.Forall₂ TypeDeclaration.SameSegment descriptor.containingType.chain
          other.containingType.chain ∧
        descriptor.propertyName = other.propertyName) ∧
    ((∀ declaration ∈ descriptor.containingType.chain ++ other.containingType.chain,
        ∀ argument ∈ declaration.genericArguments, '_' ∉ argument.toList) →
      unit.hintName = unit'.hintName →
        List.Forall₂ (fun declaration declaration' => declaration.name = declaration'.name ∧
            declaration.genericArguments = declaration'.genericArguments)
          descriptor.containingType.chain other.containingType.chain) := by
  have hinj := PropertyDraft.propertyHintName_inj hdescriptor hother hapart hapart'
  rw [hintName_of_emitProperty hunit, hintName_of_emitProperty hunit']
  refine ⟨hinj, fun hplain hname => ?_⟩
  exact TypeDeclaration.SameSegment.forall₂_genericArguments (hinj.mp hname).2.1 hplain

/-- A property of a generic `Pair`. -/
def PropertyDraft.ofPair (genericArguments : List String) : PropertyDraft where
  containingType := { name := "Pair", genericArguments, container := .inNamespace "App" }
  propertyName := "First"
  propertyType := "int"

theorem isNamed_ofPair {genericArguments : List String}
    (h : ∀ argument ∈ genericArguments, Text.IsIdentifier argument) :
    (PropertyDraft.ofPair genericArguments).build.IsNamed := by
  have hnamespace : Text.IsIdentifier "App" := ⟨by decide, by decide, by decide⟩
  have htype : Text.IsIdentifier "Pair" := ⟨by decide, by decide, by decide⟩
  have hproperty : Text.IsIdentifier "First" := ⟨by decide, by decide, by decide⟩
  refine ⟨⟨⟨["App"], by simpa using hnamespace, rfl⟩, fun declaration hdeclaration => ?_⟩, hproperty⟩
  obtain rfl := List.mem_singleton.mp hdeclaration
  exact ⟨htype, h⟩

/-- The namespace of `Pair` is too short for the name of a type in it. -/
theorem not_isTypeName_ofPair (genericArguments : List String) :
    ¬ (PropertyDraft.ofPair genericArguments).build.containingType.IsTypeName "App" := by
  rintro ⟨types, hprefix, hne, hname⟩
  rcases List.prefix_cons_iff.mp hprefix with rfl | ⟨rest, rfl, hrest⟩
  · exact hne rfl
  · obtain rfl := List.prefix_nil.mp hrest
    have hpair : "App" = "App.Pair" := hname
    exact absurd hpair (by decide)

/-- Different types with one name, as their arguments have the same joined text. -/
theorem hintName_ofPair_collides :
    let two := (PropertyDraft.ofPair ["A", "B"]).build
    let one := (PropertyDraft.ofPair ["A_B"]).build
    (two.IsNamed ∧ one.IsNamed) ∧
      (¬ two.containingType.IsTypeName one.containingType.namespaceName ∧
        ¬ one.containingType.IsTypeName two.containingType.namespaceName) ∧
      (∃ unit unit', (emitProperty {} two {}).1 = .ok unit ∧
        (emitProperty {} one {}).1 = .ok unit' ∧ unit.hintName = unit'.hintName) ∧
      two.containingType.chain.map (·.genericArguments.length) ≠
        one.containingType.chain.map (·.genericArguments.length) := by
  have hidentifiers : Text.IsIdentifier "A" ∧ Text.IsIdentifier "B" ∧ Text.IsIdentifier "A_B" :=
    ⟨⟨by decide, by decide, by decide⟩, ⟨by decide, by decide, by decide⟩,
      ⟨by decide, by decide, by decide⟩⟩
  have hhost : Host.NeverCancels {} := ⟨rfl, .inr rfl⟩
  refine ⟨⟨isNamed_ofPair (by simp [hidentifiers]), isNamed_ofPair (by simp [hidentifiers])⟩,
    ⟨not_isTypeName_ofPair _, not_isTypeName_ofPair _⟩, ?_, by decide⟩
  rw [emitProperty_of_neverCancels hhost, emitProperty_of_neverCancels hhost]
  exact ⟨_, _, rfl, rfl, by decide⟩

theorem emitProperty_hintName_eq_iff_ofPair :
    ∃ unit unit', (emitProperty {} (PropertyDraft.ofPair ["A", "B"]).build {}).1 = .ok unit ∧
      (emitProperty {} (PropertyDraft.ofPair ["A", "C"]).build {}).1 = .ok unit' ∧
      unit.hintName ≠ unit'.hintName := by
  have hidentifiers : Text.IsIdentifier "A" ∧ Text.IsIdentifier "B" ∧ Text.IsIdentifier "C" :=
    ⟨⟨by decide, by decide, by decide⟩, ⟨by decide, by decide, by decide⟩,
      ⟨by decide, by decide, by decide⟩⟩
  have hhost : Host.NeverCancels {} := ⟨rfl, .inr rfl⟩
  have hunit := emitProperty_of_neverCancels hhost {} (PropertyDraft.ofPair ["A", "B"]).build
  have hunit' := emitProperty_of_neverCancels hhost {} (PropertyDraft.ofPair ["A", "C"]).build
  refine ⟨_, _, congrArg Prod.fst hunit, congrArg Prod.fst hunit', fun hname => ?_⟩
  have hsame := (emitProperty_hintName_eq_iff (isNamed_ofPair (by simp [hidentifiers]))
    (isNamed_ofPair (by simp [hidentifiers])) (not_isTypeName_ofPair _) (not_isTypeName_ofPair _)
    (congrArg Prod.fst hunit) (congrArg Prod.fst hunit')).2 (by decide) hname
  have harguments := (List.forall₂_cons.mp hsame).1.2
  exact absurd harguments (by decide)

end ChangeNotification
