import ChangeNotification.Proofs.Symbol.Levels
import ChangeNotification.Proofs.Symbol.Path

/-! # Spellings and qualified names

The spelling of a type and the qualified name of its definition go through the same levels. They are
the same text behind the root namespace as long as each level has no arguments but type parameters. -/

namespace ChangeNotification.TypeSymbol

variable {symbol other : TypeSymbol}

/-! ## Levels -/

/-- A declared type without type arguments, or with type parameters for all of them. -/
structure IsOpen (symbol : TypeSymbol) : Prop where
  kind : symbol.kind.isNamed = true
  typeArguments : ∀ argument ∈ symbol.typeArguments, argument.kind = .typeParameter

theorem spelling_of_typeParameter (h : symbol.kind = .typeParameter) :
    symbol.spelling = symbol.name := by
  have hmark : symbol.nullableMark = "" := by
    simp [nullableMark, isNullableReference, h, TypeKind.isReference]
  rw [spelling, bareSpelling_of_typeParameter h, hmark, String.append_empty]

/-- Type parameters are spelled as they are declared. -/
theorem IsOpen.spelling_lastSegment (h : symbol.IsOpen) :
    symbol.lastSegment.spelling = symbol.declaration.declaredName := by
  have harguments : symbol.typeArguments.map spelling = symbol.typeArguments.map name :=
    List.map_congr_left fun argument hargument =>
      spelling_of_typeParameter (h.typeArguments argument hargument)
  rw [PathSegment.spelling, lastSegment, harguments, TypeDeclaration.declaredName,
    TypeDeclaration.isGeneric, declaration]
  cases symbol.typeArguments with
  | nil => simp [argumentList]
  | cons argument arguments => simp [argumentList, String.append_assoc]

/-- A type is spelled level by level behind its namespace, the levels joined by dots. -/
theorem bareSpelling_eq_levels (h : ∀ level ∈ symbol.levels, level.IsOpen) :
    symbol.bareSpelling =
      "global::" ++ String.join (symbol.rootNamespace.map (· ++ ".")) ++
        String.intercalate "." (symbol.levels.map (·.declaration.declaredName)) := by
  induction symbol using container_induction with
  | step symbol ih =>
      rw [levels_eq, List.forall_mem_append, List.forall_mem_singleton] at h
      obtain ⟨houter, hopen⟩ := h
      rw [bareSpelling_of_isNamed hopen.kind, hopen.spelling_lastSegment, rootNamespace_eq,
        levels_eq, List.map_append, List.map_singleton]
      cases hcontaining : symbol.containingType with
      | none => simp [qualifier, namespaceAround, outerLevels]
      | some container =>
          have hlevels : container.levels.map (·.declaration.declaredName) ≠ [] := by
            simp [levels_eq]
          rw [hcontaining] at houter
          rw [qualifier, ih container hcontaining houter, namespaceAround, outerLevels,
            String.intercalate_append_of_ne_nil hlevels (by simp), String.intercalate_singleton]
          simp [String.append_assoc]

/-! ## Qualified names -/

/-- A definition is named behind its namespace, unless that is the global one. -/
theorem qualifiedName_eq_levels (h : ∀ segment ∈ symbol.rootNamespace, segment ≠ "") :
    symbol.definition.qualifiedName =
      String.join (symbol.rootNamespace.map (· ++ ".")) ++
        String.intercalate "." (symbol.levels.map (·.declaration.declaredName)) := by
  rw [TypeDefinition.qualifiedName, TypeDefinition.isGlobal, namespaceName_definition,
    chain_definition, List.map_map]
  by_cases hglobal : symbol.rootNamespace = []
  · simp [hglobal, Function.comp_def]
  · have hnamed := mt (Text.intercalate_eq_empty_iff h ".").mp hglobal
    rw [if_neg (by simpa using hnamed), Text.join_map_append hglobal]
    simp [Function.comp_def]

/-! ## Namespaces of nested types -/

/-- A level of a type on its own, without its namespace. -/
def alone (symbol : TypeSymbol) : TypeSymbol :=
  { symbol with namespaceSegments := [], containingType := none }

/-- Types that differ at most in the namespaces that nested levels bring along. -/
structure SameBesideInnerNamespaces (symbol other : TypeSymbol) : Prop where
  rootNamespace : symbol.rootNamespace = other.rootNamespace
  levels : symbol.levels.map alone = other.levels.map alone

/-- The levels around a type show in its spelling as they show in its qualifier. -/
theorem bareSpelling_eq_of_alone (halone : symbol.alone = other.alone)
    (hqualifier : qualifier symbol.namespaceSegments symbol.containingType =
      qualifier other.namespaceSegments other.containingType) :
    symbol.bareSpelling = other.bareSpelling := by
  obtain ⟨name, kind, _, _, _, _, _, _, _⟩ := symbol
  obtain ⟨⟩ := other
  simp only [alone, TypeSymbol.mk.injEq, true_and] at halone
  obtain ⟨rfl, rfl, rfl, rfl, rfl, rfl, rfl⟩ := halone
  cases kind <;> simp_all [bareSpelling]

namespace SameBesideInnerNamespaces

theorem definition_eq (h : symbol.SameBesideInnerNamespaces other) :
    symbol.definition = other.definition := by
  have halone (levels : List TypeSymbol) :
      levels.map declaration = (levels.map alone).map declaration := by
    rw [List.map_map]
    rfl
  rw [TypeDefinition.eq_iff, namespaceName_definition, namespaceName_definition, h.rootNamespace,
    chain_definition, chain_definition, halone, h.levels, ← halone]
  exact ⟨rfl, rfl⟩

theorem alone_eq (h : symbol.SameBesideInnerNamespaces other) : symbol.alone = other.alone := by
  have hlevels := h.levels
  rw [levels_eq, levels_eq, List.map_append, List.map_append] at hlevels
  exact List.singleton_inj.mp (List.append_inj' hlevels rfl).2

theorem outerLevels_eq (h : symbol.SameBesideInnerNamespaces other) :
    (outerLevels symbol.containingType).map alone =
      (outerLevels other.containingType).map alone := by
  have hlevels := h.levels
  rw [levels_eq, levels_eq, List.map_append, List.map_append] at hlevels
  exact (List.append_inj' hlevels rfl).1

theorem bareSpelling_eq (h : symbol.SameBesideInnerNamespaces other) :
    symbol.bareSpelling = other.bareSpelling := by
  induction symbol using container_induction generalizing other with
  | step symbol ih =>
      refine bareSpelling_eq_of_alone h.alone_eq ?_
      have houter := h.outerLevels_eq
      have hroot := h.rootNamespace
      rw [rootNamespace_eq, rootNamespace_eq] at hroot
      -- Both are nested, or neither is; a namespace counts where they are not.
      cases hcontaining : symbol.containingType with
      | none =>
          cases hcontaining' : other.containingType with
          | none =>
              rw [hcontaining, hcontaining'] at hroot
              exact congrArg (qualifier · none) hroot
          | some container' => simp [hcontaining, hcontaining', outerLevels, levels_eq] at houter
      | some container =>
          cases hcontaining' : other.containingType with
          | none => simp [hcontaining, hcontaining', outerLevels, levels_eq] at houter
          | some container' =>
              rw [hcontaining, hcontaining'] at hroot houter
              rw [qualifier, qualifier, ih container hcontaining ⟨hroot, houter⟩]

end SameBesideInnerNamespaces

/-! ## Definitions of types -/

theorem spelling_withNullability (symbol : TypeSymbol) (nullability : Nullability) :
    { symbol with nullability }.spelling = symbol.bareSpelling ++
      if symbol.kind.isReference && nullability = .annotated then "?" else "" := by
  cases symbol
  rfl

/-- A type that is open at all levels is spelled by the qualified name of its definition. The
definition repeats the type level by level, and for either of them the namespace is that of the
outermost type. -/
theorem spelling_eq_qualifiedName (symbol : TypeSymbol) :
    ((∀ level ∈ symbol.levels, level.IsOpen) → (∀ segment ∈ symbol.rootNamespace, segment ≠ "") →
      ∀ nullability, nullability ≠ .annotated →
        { symbol with nullability }.spelling = "global::" ++ symbol.definition.qualifiedName) ∧
    (symbol.definition.chain = symbol.levels.map fun level =>
      { name := level.name
        isValueType := level.kind.isValue
        isNullableAnnotated := level.nullability = .annotated
        genericArguments := level.typeArguments.map name }) ∧
    symbol.definition.namespaceName = String.intercalate "." symbol.rootNamespace ∧
    ∀ other, symbol.SameBesideInnerNamespaces other →
      (∀ nullability, { symbol with nullability }.spelling = { other with nullability }.spelling) ∧
        symbol.definition = other.definition := by
  refine ⟨fun hopen hnamed nullability hnullability => ?_, chain_definition symbol,
    namespaceName_definition symbol, fun other hsame => ⟨fun nullability => ?_, hsame.definition_eq⟩⟩
  · have hmark : (symbol.kind.isReference && decide (nullability = .annotated)) = false := by
      simp [hnullability]
    rw [spelling_withNullability, hmark, bareSpelling_eq_levels hopen,
      qualifiedName_eq_levels hnamed]
    simp [String.append_assoc]
  · have hkind : symbol.kind = other.kind := congrArg (·.kind) hsame.alone_eq
    rw [spelling_withNullability, spelling_withNullability, hsame.bareSpelling_eq, hkind]

def sampleOuter : TypeSymbol where
  name := "Outer"
  namespaceSegments := ["App", "Models"]
  nullability := .annotated
  typeArguments := [{ name := "T", kind := .typeParameter }]

/-- A type in a generic one, with a namespace of its own that does not count. -/
def sampleInner (namespaceSegments : List String) : TypeSymbol where
  name := "Inner"
  kind := .structType
  namespaceSegments
  containingType := some sampleOuter

theorem spelling_eq_qualifiedName_sampleInner :
    (∀ level ∈ (sampleInner []).levels, level.IsOpen) ∧
    { sampleInner [] with nullability := .notAnnotated }.spelling =
      "global::" ++ (sampleInner []).definition.qualifiedName ∧
    (sampleInner []).definition = (sampleInner ["Elsewhere"]).definition := by
  have hopen : ∀ level ∈ (sampleInner []).levels, level.IsOpen := by
    have hlevels : (sampleInner []).levels = [sampleOuter, sampleInner []] := rfl
    rw [hlevels, List.forall_mem_cons, List.forall_mem_singleton]
    exact ⟨⟨rfl, by simp [sampleOuter]⟩, ⟨rfl, nofun⟩⟩
  obtain ⟨hspelling, -, -, hsame⟩ := spelling_eq_qualifiedName (sampleInner [])
  exact ⟨hopen, hspelling hopen (by decide) .notAnnotated (by decide),
    (hsame (sampleInner ["Elsewhere"]) ⟨rfl, rfl⟩).2⟩

end ChangeNotification.TypeSymbol
