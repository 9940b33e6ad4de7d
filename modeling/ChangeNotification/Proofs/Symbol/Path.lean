import ChangeNotification.Proofs.Text.Bracket
import ChangeNotification.Symbol.Spelling

/-! # Paths of types

A declared type is spelled by its path: the namespace and the containers, outermost first, and the
type itself, each with its own type arguments. -/

namespace ChangeNotification

/-- Kinds of declared types. -/
def TypeKind.isNamed : TypeKind → Bool
  | .classType | .structType | .interfaceType | .enumType | .delegateType => true
  | .typeParameter | .array => false

theorem TypeKind.cases (kind : TypeKind) :
    kind = .typeParameter ∨ kind = .array ∨ kind.isNamed = true := by
  cases kind <;> simp [isNamed]

theorem TypeKind.ne_array_of_isNamed {kind : TypeKind} (h : kind.isNamed = true) :
    kind ≠ .array := by
  rintro rfl
  cases h

/-- One component of a path. Those that stand for namespaces have no type arguments. -/
structure PathSegment where
  name : String
  typeArguments : List TypeSymbol := []

namespace TypeSymbol

mutual

/-- The path of a declared type. -/
def path : TypeSymbol → List PathSegment
  | ⟨name, _, namespaceSegments, containingType, _, typeArguments, _, _, _⟩ =>
      containerPath namespaceSegments containingType ++ [{ name, typeArguments }]
termination_by structural symbol => symbol

def containerPath (namespaceSegments : List String) : Option TypeSymbol → List PathSegment
  | some container => path container
  | none => namespaceSegments.map fun name => { name }
termination_by structural container => container

end

/-- The elements of an array; those of an unknown type are spelled as objects. -/
def element (symbol : TypeSymbol) : TypeSymbol :=
  symbol.elementType.getD { name := "object", kind := .typeParameter }

end TypeSymbol

def PathSegment.spelling (segment : PathSegment) : String :=
  segment.name ++ TypeSymbol.argumentList (segment.typeArguments.map TypeSymbol.spelling)

theorem PathSegment.spelling_name (name : String) : spelling { name } = name :=
  String.append_empty

namespace TypeSymbol

variable {symbol : TypeSymbol}

/-! ## Spellings by kind -/

theorem bareSpelling_of_typeParameter (h : symbol.kind = .typeParameter) :
    symbol.bareSpelling = symbol.name := by
  obtain ⟨⟩ := symbol
  subst h
  rfl

theorem spelling_element (symbol : TypeSymbol) :
    symbol.element.spelling = elementSpelling symbol.elementType := by
  rw [element]
  cases symbol.elementType <;> rfl

theorem bareSpelling_of_array (h : symbol.kind = .array) :
    symbol.bareSpelling = symbol.element.spelling ++ rankSpecifier symbol.arrayRank := by
  rw [spelling_element]
  obtain ⟨⟩ := symbol
  subst h
  rfl

/-- The last component of the path of a declared type. -/
def lastSegment (symbol : TypeSymbol) : PathSegment where
  name := symbol.name
  typeArguments := symbol.typeArguments

theorem bareSpelling_of_isNamed (h : symbol.kind.isNamed = true) :
    symbol.bareSpelling =
      qualifier symbol.namespaceSegments symbol.containingType ++ symbol.lastSegment.spelling := by
  rw [PathSegment.spelling, ← argumentSpellings_eq_map]
  obtain ⟨name, kind, _, _, _, _, _, _, _⟩ := symbol
  cases kind with
  | typeParameter | array => cases h
  | classType | structType | interfaceType | enumType | delegateType =>
      exact String.append_assoc

theorem path_eq (symbol : TypeSymbol) :
    symbol.path =
      containerPath symbol.namespaceSegments symbol.containingType ++ [symbol.lastSegment] := by
  cases symbol
  rfl

/-- A component of a path stands for a type of its own or for a part of the namespace. -/
theorem mem_path {segment : PathSegment} (h : segment ∈ symbol.path) :
    segment = symbol.lastSegment ∨
      (∃ container ∈ symbol.containingType, segment ∈ container.path) ∨
      ∃ name ∈ symbol.namespaceSegments, segment = { name } := by
  rw [path_eq, List.mem_append, List.mem_singleton] at h
  rcases h with hcontainer | hlast
  · cases hcontaining : symbol.containingType with
    | some container =>
        rw [hcontaining, containerPath] at hcontainer
        exact .inr (.inl ⟨container, rfl, hcontainer⟩)
    | none =>
        rw [hcontaining, containerPath, List.mem_map] at hcontainer
        obtain ⟨name, hname, rfl⟩ := hcontainer
        exact .inr (.inr ⟨name, hname, rfl⟩)
  · exact .inl hlast

end TypeSymbol

/-! ## Names -/

/-- The characters that spellings of types put around names. -/
def Text.reserved : List Char := ['.', '<', '>', ',', '[', ']', '?', ':', ' ']

structure Text.IsName (s : String) : Prop where
  not_empty : s ≠ ""
  not_reserved : ∀ c ∈ s.toList, c ∉ reserved

instance (s : String) : Decidable (Text.IsName s) :=
  decidable_of_iff (s ≠ "" ∧ s.toList.all (!Text.reserved.contains ·) = true)
    ⟨fun h => ⟨h.1, by simpa using h.2⟩, fun h => ⟨h.not_empty, by simpa using h.not_reserved⟩⟩

namespace TypeSymbol

/-- That something holds of a symbol and of all symbols that it is made of. -/
inductive Throughout (P : TypeSymbol → Prop) : TypeSymbol → Prop where
  | intro {symbol : TypeSymbol} (here : P symbol)
      (container : ∀ container ∈ symbol.containingType, Throughout P container)
      (argument : ∀ argument ∈ symbol.typeArguments, Throughout P argument)
      (element : ∀ element ∈ symbol.elementType, Throughout P element) :
      Throughout P symbol

/-- Names are names, those of arrays apart, which are not spelled; and types are declared in
declared types. -/
structure IsWellNamed (symbol : TypeSymbol) : Prop where
  name : symbol.kind ≠ .array → Text.IsName symbol.name
  namespaceSegments : ∀ segment ∈ symbol.namespaceSegments, Text.IsName segment
  container : ∀ container ∈ symbol.containingType, container.kind.isNamed = true

namespace Throughout

variable {P : TypeSymbol → Prop} {symbol : TypeSymbol}

theorem here (h : symbol.Throughout P) : P symbol := by
  cases h
  assumption

theorem container (h : symbol.Throughout P) :
    ∀ container ∈ symbol.containingType, container.Throughout P := by
  cases h
  assumption

theorem argument (h : symbol.Throughout P) :
    ∀ argument ∈ symbol.typeArguments, argument.Throughout P := by
  cases h
  assumption

theorem element (h : symbol.Throughout P) :
    ∀ element ∈ symbol.elementType, element.Throughout P := by
  cases h
  assumption

end Throughout

end TypeSymbol

structure PathSegment.IsWellNamed (segment : PathSegment) : Prop where
  name : Text.IsName segment.name
  typeArguments : ∀ argument ∈ segment.typeArguments,
    argument.Throughout TypeSymbol.IsWellNamed

namespace TypeSymbol

variable {symbol : TypeSymbol}

theorem throughout_object :
    Throughout IsWellNamed { name := "object", kind := .typeParameter } :=
  .intro ⟨fun _ => by decide, nofun, nofun⟩ nofun nofun nofun

theorem Throughout.throughout_element (h : symbol.Throughout IsWellNamed) :
    symbol.element.Throughout IsWellNamed := by
  rw [TypeSymbol.element]
  cases helement : symbol.elementType with
  | none => exact throughout_object
  | some element => exact h.element element helement

/-! ## Declared types -/

/-- Each component that precedes a type stands before a dot. -/
theorem qualifier_eq_join (namespaceSegments : List String) {containingType : Option TypeSymbol}
    (hcontainer : ∀ container ∈ containingType, container.bareSpelling ++ "." =
      "global::" ++ String.join ((container.path.map PathSegment.spelling).map (· ++ "."))) :
    qualifier namespaceSegments containingType =
      "global::" ++ String.join
        (((containerPath namespaceSegments containingType).map PathSegment.spelling).map
          (· ++ ".")) := by
  cases containingType with
  | some container => exact hcontainer container rfl
  | none =>
      have hnames : (namespaceSegments.map fun name => ({ name } : PathSegment)).map
          PathSegment.spelling = namespaceSegments := by
        simp [Function.comp_def, PathSegment.spelling_name]
      rw [qualifier, containerPath, hnames]

theorem bareSpelling_append_dot (h : symbol.Throughout IsWellNamed)
    (hkind : symbol.kind.isNamed = true) :
    symbol.bareSpelling ++ "." =
      "global::" ++ String.join ((symbol.path.map PathSegment.spelling).map (· ++ ".")) := by
  induction h with
  | @intro symbol here container argument element ihcontainer =>
      have hqualifier := qualifier_eq_join symbol.namespaceSegments
        fun container hcontainer =>
          ihcontainer container hcontainer (here.container container hcontainer)
      rw [bareSpelling_of_isNamed hkind, path_eq, hqualifier]
      simp [String.append_assoc]

theorem path_ne_nil (symbol : TypeSymbol) : symbol.path ≠ [] := by
  simp [path_eq]

/-- A declared type is spelled as its path. -/
theorem bareSpelling_eq_path (h : symbol.Throughout IsWellNamed)
    (hkind : symbol.kind.isNamed = true) :
    symbol.bareSpelling =
      "global::" ++ String.intercalate "." (symbol.path.map PathSegment.spelling) := by
  have hne : symbol.path.map PathSegment.spelling ≠ [] := by
    simpa using symbol.path_ne_nil
  have hdotted := bareSpelling_append_dot h hkind
  rwa [Text.join_map_append hne, ← String.append_assoc, String.append_left_inj] at hdotted

theorem Throughout.isWellNamed_of_mem_path (h : symbol.Throughout IsWellNamed)
    (hkind : symbol.kind.isNamed = true) : ∀ segment ∈ symbol.path, segment.IsWellNamed := by
  induction h with
  | @intro symbol here container argument element ihcontainer =>
      intro segment hsegment
      rcases mem_path hsegment with rfl | ⟨outer, houter, hsegment⟩ | ⟨name, hname, rfl⟩
      · exact ⟨here.name (TypeKind.ne_array_of_isNamed hkind), argument⟩
      · exact ihcontainer outer houter (here.container outer houter) segment hsegment
      · exact ⟨here.namespaceSegments name hname, by simp⟩

/-- Induction over the elements of arrays and the type arguments along the paths of declared
types. -/
@[elab_as_elim]
theorem Throughout.path_induction {motive : TypeSymbol → Prop}
    (h : symbol.Throughout IsWellNamed)
    (step : ∀ symbol : TypeSymbol, symbol.Throughout IsWellNamed →
      (symbol.kind = .array → motive symbol.element) →
      (∀ segment ∈ symbol.path, ∀ argument ∈ segment.typeArguments, motive argument) →
      motive symbol) : motive symbol := by
  have hobject : motive { name := "object", kind := .typeParameter } :=
    step _ throughout_object nofun (by simp [path, containerPath])
  -- The type arguments of the containers are parts of a nested type as well.
  suffices hparts : motive symbol ∧
      ∀ segment ∈ symbol.path, ∀ argument ∈ segment.typeArguments, motive argument from hparts.1
  induction h with
  | @intro symbol here container argument element ihcontainer ihargument ihelement =>
      have hpath : ∀ segment ∈ symbol.path, ∀ argument ∈ segment.typeArguments,
          motive argument := by
        intro segment hsegment
        rcases mem_path hsegment with rfl | ⟨outer, houter, hsegment⟩ | ⟨name, hname, rfl⟩
        · exact fun argument hargument => (ihargument argument hargument).1
        · exact (ihcontainer outer houter).2 segment hsegment
        · simp
      refine ⟨step symbol (.intro here container argument element) (fun _ => ?_) hpath, hpath⟩
      rw [TypeSymbol.element]
      cases helement : symbol.elementType with
      | none => exact hobject
      | some inner => exact (ihelement inner helement).1

end TypeSymbol

end ChangeNotification
