import ChangeNotification.Proofs.Emission.Reports

/-! # Units of whole types

The unit of a type is the bodies of its properties, as they stand in their own units, between the
lines that all these units share. A blank line stands between two bodies, and none at an edge. -/

namespace ChangeNotification

open Layout

/-! ## Bodies -/

namespace Code

/-- In the middle of a block, declarations begin with the blank line that they would not have at
its start. -/
theorem separated_false (declarations : List Declaration) :
    separated false declarations =
      (if declarations = [] then [] else [.blank]) ++ separated true declarations := by
  cases declarations with
  | nil => rfl
  | cons declaration rest => simp [separated]

end Code

namespace Emission

/-- What stands before the members of a unit. -/
def unitOpening (options : EmitOptions) (definition : TypeDefinition) : String :=
  Line.document options.indentWidth.toNat options.lineEnding
    ((preamble options).map (.code 0) ++ openings 0 (blockHeads options definition))

/-- What stands after the members of a unit. -/
def unitClosing (options : EmitOptions) (definition : TypeDefinition) : String :=
  Line.document options.indentWidth.toNat options.lineEnding
    (closings 0 (blockHeads options definition).length)

/-- Declarations at the place where members of a type stand. -/
def bodyText (options : EmitOptions) (definition : TypeDefinition)
    (declarations : List Code.Declaration) : String :=
  Line.document options.indentWidth.toNat options.lineEnding
    ((Code.separated true declarations).map
      (Line.deeper (blockHeads options definition).length))

theorem unitText_eq (options : EmitOptions) (definition : TypeDefinition)
    (declarations : List Code.Declaration) :
    unitText options definition declarations =
      unitOpening options definition ++ bodyText options definition declarations ++
        unitClosing options definition := by
  simp [unitText, enclose, unitOpening, bodyText, unitClosing, String.append_assoc]

variable {options : EmitOptions} {definition : TypeDefinition}

/-- A body without text has no declarations. -/
theorem bodyText_eq_empty_iff {declarations : List Code.Declaration} :
    bodyText options definition declarations = "" ↔ declarations = [] := by
  have hending : options.lineEnding.text ≠ "" := by
    cases options.lineEnding <;> decide
  cases declarations with
  | nil => simp [bodyText, Code.separated]
  | cons declaration rest =>
      obtain ⟨line, lines, hlines⟩ := List.exists_cons_of_ne_nil declaration.lines_ne_nil
      simp [bodyText, Code.separated, hlines, Line.document_cons, hending]

/-- Two bodies with text stand a blank line apart. -/
theorem bodyText_append {declarations more : List Code.Declaration} (h : declarations ≠ [])
    (hmore : more ≠ []) :
    bodyText options definition (declarations ++ more) =
      bodyText options definition declarations ++ options.lineEnding.text ++
        bodyText options definition more := by
  have hmiddle : (true && declarations.isEmpty) = false := by simpa using h
  rw [bodyText, Code.separated_append, hmiddle, Code.separated_false, if_neg hmore]
  simp [bodyText, Line.deeper, Line.document_cons, Line.text, String.append_assoc]

/-- The members of several bodies are the bodies that have text, a blank line between each two. -/
theorem bodyText_flatten (bodies : List (List Code.Declaration)) :
    bodyText options definition bodies.flatten =
      String.intercalate options.lineEnding.text
        ((bodies.map (bodyText options definition)).filter (· ≠ "")) := by
  induction bodies with
  | nil => simp [bodyText, Code.separated]
  | cons body bodies ih =>
      by_cases hbody : body = []
      · have hempty : bodyText options definition body = "" := bodyText_eq_empty_iff.mpr hbody
        rw [List.map_cons, List.filter_cons_of_neg (by simpa using hempty), hbody]
        exact ih
      · have hkept : bodyText options definition body ≠ "" := by
          rwa [ne_eq, bodyText_eq_empty_iff]
        rw [List.map_cons, List.filter_cons_of_pos (by simpa using hkept), List.flatten_cons]
        by_cases hrest : bodies.flatten = []
        · have hnone : (bodies.map (bodyText options definition)).filter (· ≠ "") = [] := by
            simpa [bodyText_eq_empty_iff] using hrest
          rw [hrest, hnone, List.append_nil, String.intercalate_singleton]
        · have hsome : (bodies.map (bodyText options definition)).filter (· ≠ "") ≠ [] := by
            simpa [bodyText_eq_empty_iff] using hrest
          rw [bodyText_append hbody hrest, ih, String.intercalate_cons_of_ne_nil hsome]

end Emission

open Emission

/-! ## Refusals -/

theorem emitType_eq_noProperties_iff {options : EmitOptions} {descriptors : List PropertyDescriptor}
    {host : Host} :
    (emitType options descriptors host).1 = .error .noProperties ↔ descriptors = [] := by
  cases descriptors with
  | nil => simp [emitType]
  | cons first rest =>
      simp only [emitType, reduceCtorEq, iff_false]
      split
      · simp
      · intro h
        cases eq_cancelled_of_runUnit h

/-- The first property of another type is named, whatever the host does. -/
theorem emitType_eq_mixed_iff {options : EmitOptions} {descriptors : List PropertyDescriptor}
    {host : Host} {expected found : String} :
    (emitType options descriptors host).1 = .error (.mixedContainingTypes expected found) ↔
      ∃ first same other rest, descriptors = first :: (same ++ other :: rest) ∧
        (∀ descriptor ∈ same, descriptor.containingType = first.containingType) ∧
        other.containingType ≠ first.containingType ∧
        expected = first.containingType.qualifiedName ∧
        found = other.containingType.qualifiedName := by
  constructor
  · intro h
    cases descriptors with
    | nil => simp [emitType] at h
    | cons first descriptors =>
        simp only [emitType] at h
        split at h
        · rename_i other hfind
          obtain ⟨hother, same, rest, hsplit, hsame⟩ := List.find?_eq_some_iff_append.mp hfind
          simp only [ne_eq, decide_not, Bool.not_eq_true', decide_eq_false_iff_not] at hother
          simp only [ne_eq, decide_not, Bool.not_not, decide_eq_true_eq] at hsame
          cases same with
          | nil =>
              obtain ⟨rfl, -⟩ := List.cons.inj hsplit
              exact absurd rfl hother
          | cons head same =>
              obtain ⟨rfl, rfl⟩ := List.cons.inj hsplit
              simp only [Except.error.injEq, EmitError.mixedContainingTypes.injEq] at h
              exact ⟨first, same, other, rest, rfl,
                fun descriptor hdescriptor => hsame descriptor (.tail _ hdescriptor), hother,
                h.1.symm, h.2.symm⟩
        · cases eq_cancelled_of_runUnit h
  · rintro ⟨first, same, other, rest, rfl, hsame, hother, rfl, rfl⟩
    have hfind : (first :: (same ++ other :: rest)).find?
        (·.containingType ≠ first.containingType) = some other := by
      refine List.find?_eq_some_iff_append.mpr ⟨by simpa using hother, first :: same, rest, rfl, ?_⟩
      simpa using hsame
    rw [emitType, hfind]

/-! ## Agreement -/

/-- One property alone runs as in a unit of its own. Only the name of the unit differs. -/
theorem emitType_singleton (options : EmitOptions) (descriptor : PropertyDescriptor) (host : Host) :
    (emitType options [descriptor] host).1.map (·.sourceText) =
      (emitProperty options descriptor host).1.map (·.sourceText) := by
  rw [emitType_eq_runUnit (by simp)]
  simp only [emitProperty, runUnit, List.flatMap_cons, List.flatMap_nil, List.append_nil]
  cases (Action.perform (unitActions options descriptor.containingType descriptor.bodyActions) host
    options.buffer).1 <;> rfl

/-- The emission of a type refuses the empty list and properties of different types, whatever the
host does. Otherwise, where nothing cancels, its text has the bodies of all properties between the
lines that the units of the properties share, and the host hears the properties in turn. -/
theorem emitType_joins_bodies (options : EmitOptions) (descriptors : List PropertyDescriptor)
    (host : Host) :
    ((emitType options descriptors host).1 = .error .noProperties ↔ descriptors = []) ∧
    (∀ expected found,
      (emitType options descriptors host).1 = .error (.mixedContainingTypes expected found) ↔
        ∃ first same other rest, descriptors = first :: (same ++ other :: rest) ∧
          (∀ descriptor ∈ same, descriptor.containingType = first.containingType) ∧
          other.containingType ≠ first.containingType ∧
          expected = first.containingType.qualifiedName ∧
          found = other.containingType.qualifiedName) ∧
    (∀ descriptor, (emitType options [descriptor] host).1.map (·.sourceText) =
      (emitProperty options descriptor host).1.map (·.sourceText)) ∧
    ∀ definition, descriptors ≠ [] →
      (∀ descriptor ∈ descriptors, descriptor.containingType = definition) → host.NeverCancels →
      ∃ body : PropertyDescriptor → String,
        (∀ descriptor ∈ descriptors, ∃ unit, (emitProperty options descriptor host).1 = .ok unit ∧
          unit.sourceText =
            unitOpening options definition ++ body descriptor ++ unitClosing options definition) ∧
        (∃ unit, (emitType options descriptors host).1 = .ok unit ∧
          unit.sourceText =
            unitOpening options definition ++
              String.intercalate options.lineEnding.text
                ((descriptors.map body).filter (· ≠ "")) ++
              unitClosing options definition) ∧
        (emitType options descriptors host).2 =
          (descriptors.flatMap fun descriptor =>
            (emitProperty options descriptor {}).2.reports).foldl Host.hear host := by
  refine ⟨emitType_eq_noProperties_iff, fun expected found => emitType_eq_mixed_iff,
    fun descriptor => emitType_singleton options descriptor host, ?_⟩
  intro definition hne hsame hhost
  cases descriptors with
  | nil => exact absurd rfl hne
  | cons first rest =>
      obtain rfl := hsame first (by simp)
      have hrest := fun descriptor hdescriptor => hsame descriptor (.tail _ hdescriptor)
      refine ⟨fun descriptor => bodyText options first.containingType descriptor.declarations,
        ?_, ?_, ?_⟩
      · intro descriptor hdescriptor
        rw [emitProperty_of_neverCancels hhost]
        refine ⟨_, rfl, ?_⟩
        rw [unitText_eq, hsame descriptor hdescriptor]
      · rw [emitType_of_neverCancels hhost options first hrest]
        refine ⟨_, rfl, ?_⟩
        rw [unitText_eq, List.flatMap_def, bodyText_flatten, List.map_map]
        rfl
      · simp only [host_emitType hhost options first hrest, reports_emitProperty]

/-- A property of the same type for which nothing is generated. -/
def PropertyDraft.silentSample : PropertyDraft where
  containingType := PropertyDraft.sample.containingType
  propertyName := "Quiet"
  propertyType := "int"
  eventArgsOnly := true

theorem emitType_joins_bodies_sample :
    let descriptors := [PropertyDraft.sample.build, PropertyDraft.silentSample.build,
      PropertyDraft.sample.build]
    let definition := PropertyDraft.sample.containingType
    ∃ body : PropertyDescriptor → String,
      (∀ descriptor ∈ descriptors, ∃ unit, (emitProperty {} descriptor {}).1 = .ok unit ∧
        unit.sourceText = unitOpening {} definition ++ body descriptor ++ unitClosing {} definition) ∧
      ∃ unit, (emitType {} descriptors {}).1 = .ok unit ∧
        unit.sourceText = unitOpening {} definition ++
          String.intercalate "\n" ((descriptors.map body).filter (· ≠ "")) ++
            unitClosing {} definition := by
  intro descriptors definition
  have hsame : ∀ descriptor ∈ descriptors, descriptor.containingType = definition := by
    simp [descriptors, definition, PropertyDraft.build, PropertyDraft.completed,
      PropertyDraft.silentSample]
  obtain ⟨-, -, -, hjoined⟩ := emitType_joins_bodies {} descriptors {}
  obtain ⟨body, hunits, hunit, -⟩ := hjoined definition (by simp [descriptors]) hsame
    neverCancels_default
  exact ⟨body, hunits, hunit⟩

end ChangeNotification
