import ChangeNotification.Definition.Basic

/-! # Levels of nested types

The definition of a symbol repeats the symbol level by level, from the outermost type inwards. -/

namespace ChangeNotification

/-! ## Definitions by their parts -/

theorem TypeContainer.eq_iff {container other : TypeContainer} :
    container = other ↔ container.namespaceName = other.namespaceName ∧
      container.declarations = other.declarations := by
  refine ⟨fun h => ⟨congrArg _ h, congrArg _ h⟩, ?_⟩
  rintro ⟨hnamespace, hdeclarations⟩
  induction container generalizing other with
  | inNamespace name =>
      cases other with
      | inNamespace name' => exact congrArg inNamespace hnamespace
      | inType outer' declaration' => simp [declarations] at hdeclarations
  | inType outer declaration ih =>
      cases other with
      | inNamespace name' => simp [declarations] at hdeclarations
      | inType outer' declaration' =>
          obtain ⟨houter, hlast⟩ := List.append_inj' hdeclarations rfl
          have hroot : outer.namespaceName = outer'.namespaceName := hnamespace
          rw [ih hroot houter, List.singleton_inj.mp hlast]

theorem TypeDefinition.eq_iff {definition other : TypeDefinition} :
    definition = other ↔ definition.namespaceName = other.namespaceName ∧
      definition.chain = other.chain := by
  refine ⟨fun h => ⟨congrArg _ h, congrArg _ h⟩, ?_⟩
  rintro ⟨hnamespace, hchain⟩
  obtain ⟨hcontainer, hlast⟩ := List.append_inj' hchain rfl
  have hcontainer := TypeContainer.eq_iff.mpr ⟨hnamespace, hcontainer⟩
  have hlast := List.singleton_inj.mp hlast
  cases definition
  cases other
  simp_all

/-! ## Levels -/

namespace TypeSymbol

mutual

/-- The types around a symbol, outermost first, and the symbol itself. -/
def levels : TypeSymbol → List TypeSymbol
  | ⟨name, kind, namespaceSegments, containingType, nullability, typeArguments, elementType,
      arrayRank, interfaces⟩ =>
      outerLevels containingType ++ [⟨name, kind, namespaceSegments, containingType, nullability,
        typeArguments, elementType, arrayRank, interfaces⟩]
termination_by structural symbol => symbol

def outerLevels : Option TypeSymbol → List TypeSymbol
  | some container => levels container
  | none => []
termination_by structural container => container

end

mutual

/-- The namespace of the outermost type. -/
def rootNamespace : TypeSymbol → List String
  | ⟨_, _, namespaceSegments, containingType, _, _, _, _, _⟩ =>
      namespaceAround namespaceSegments containingType
termination_by structural symbol => symbol

def namespaceAround (namespaceSegments : List String) : Option TypeSymbol → List String
  | some container => rootNamespace container
  | none => namespaceSegments
termination_by structural container => container

end

theorem levels_eq (symbol : TypeSymbol) :
    symbol.levels = outerLevels symbol.containingType ++ [symbol] := by
  cases symbol
  rfl

theorem rootNamespace_eq (symbol : TypeSymbol) :
    symbol.rootNamespace = namespaceAround symbol.namespaceSegments symbol.containingType := by
  cases symbol
  rfl

theorem container_eq (symbol : TypeSymbol) :
    symbol.container = containerOf symbol.namespaceSegments symbol.containingType := by
  cases symbol
  rfl

/-- Induction from the outermost type inwards. -/
@[elab_as_elim]
theorem container_induction {motive : TypeSymbol → Prop}
    (step : ∀ symbol : TypeSymbol, (∀ container ∈ symbol.containingType, motive container) →
      motive symbol) (symbol : TypeSymbol) : motive symbol := by
  refine step symbol fun container hcontainer => ?_
  exact container_induction step container
termination_by sizeOf symbol
decreasing_by
  cases symbol
  cases hcontainer
  simp
  omega

theorem chain_definition (symbol : TypeSymbol) :
    symbol.definition.chain = symbol.levels.map declaration := by
  induction symbol using container_induction with
  | step symbol ih =>
      have hcontainer : symbol.container.declarations =
          (outerLevels symbol.containingType).map declaration := by
        rw [container_eq]
        cases hcontaining : symbol.containingType with
        | none => rfl
        | some container => exact ih container hcontaining
      rw [TypeDefinition.chain, levels_eq, List.map_append, ← hcontainer]
      rfl

theorem namespaceName_definition (symbol : TypeSymbol) :
    symbol.definition.namespaceName = String.intercalate "." symbol.rootNamespace := by
  induction symbol using container_induction with
  | step symbol ih =>
      have hcontainer : symbol.definition.namespaceName = symbol.container.namespaceName := rfl
      rw [hcontainer, container_eq, rootNamespace_eq]
      cases hcontaining : symbol.containingType with
      | none => rfl
      | some container => exact ih container hcontaining

end TypeSymbol

end ChangeNotification
