import ChangeNotification.Proofs.Emission.Characters
import Mathlib.Data.List.ModifyLast

/-! # Units are properly nested

Names that stay on their line make a unit a nested document of blocks, around whatever members a
property has. -/

namespace ChangeNotification

open Layout
open Text (isControl_lineFeed)

/-! ## Names on one line -/

structure TypeDeclaration.IsUnbroken (declaration : TypeDeclaration) : Prop where
  name : '\n' ∉ declaration.name.toList
  genericArguments : ∀ argument ∈ declaration.genericArguments, '\n' ∉ argument.toList

structure TypeDefinition.IsUnbroken (definition : TypeDefinition) : Prop where
  namespaceName : '\n' ∉ definition.namespaceName.toList
  chain : ∀ declaration ∈ definition.chain, declaration.IsUnbroken

/-- Names and types without line breaks. A property's name is not led by a space, as it begins
lines of its own. -/
structure PropertyDraft.IsUnbroken (draft : PropertyDraft) : Prop where
  containingType : draft.containingType.IsUnbroken
  propertyName : '\n' ∉ draft.propertyName.toList
  begins : draft.propertyName.toList.head? ≠ some ' '
  propertyType : '\n' ∉ draft.propertyType.toList
  redirects : ∀ r ∈ draft.redirects,
    '\n' ∉ r.interfaceType.toList ∧ '\n' ∉ r.eventName.toList

namespace TypeDeclaration.IsUnbroken

variable {declaration : TypeDeclaration}

theorem lacks (h : declaration.IsUnbroken) : declaration.Lacks '\n' :=
  ⟨h.name, h.genericArguments⟩

theorem declarationHead (h : declaration.IsUnbroken) :
    IsPlain (Emission.declarationHead declaration) := by
  have hkeyword : '\n' ∉ (if declaration.isValueType then "struct" else "class").toList := by
    split <;> exact unbroken_literal (by decide)
  exact isPlain_literal (by decide) |>.append hkeyword |>.append_literal (by decide)
    |>.append (h.lacks.declaredName isControl_lineFeed)

end TypeDeclaration.IsUnbroken

/-! ## Heads -/

namespace Emission

/-- The head of the namespace, unless it is global, and the heads of the types from the outermost
one on. The last of them alone carries the marker, where the options ask for it. -/
def chainHeads (options : EmitOptions) (definition : TypeDefinition) : List String :=
  (if definition.isGlobal then [] else ["namespace " ++ definition.namespaceName]) ++
    (definition.chain.map declarationHead).modifyLast fun head =>
      if options.markerComment then head ++ " " ++ markerComment else head

theorem blockHeads_eq_chainHeads (options : EmitOptions) (definition : TypeDefinition) :
    blockHeads options definition = chainHeads options definition := by
  have hmark (head : String) : head ++ (if options.markerComment then " " ++ markerComment else "") =
      if options.markerComment then head ++ " " ++ markerComment else head := by
    split <;> simp [String.append_assoc]
  rw [blockHeads, chainHeads, TypeDefinition.chain, List.map_append, List.map_singleton,
    List.modifyLast_concat, hmark, List.append_assoc]

theorem isPlain_preamble (options : EmitOptions) : ∀ line ∈ preamble options, IsPlain line := by
  have hheader : IsPlain autoGeneratedHeader := isPlain_literal (by decide)
  have hdirectives : IsPlain nullableDirective ∧ IsPlain obsoleteWarningsDirective :=
    ⟨isPlain_literal (by decide), isPlain_literal (by decide)⟩
  unfold preamble
  split <;> simp [hheader, hdirectives]

theorem isPlain_blockHeads (options : EmitOptions) {definition : TypeDefinition}
    (h : definition.IsUnbroken) : ∀ head ∈ blockHeads options definition, IsPlain head := by
  have hchain := h.chain
  rw [TypeDefinition.chain, List.forall_mem_append] at hchain
  obtain ⟨hcontainers, hself⟩ := hchain
  rw [blockHeads, List.forall_mem_append, List.forall_mem_append]
  refine ⟨⟨?_, ?_⟩, ?_⟩
  · have hnamespace : IsPlain ("namespace " ++ definition.namespaceName) :=
      (isPlain_literal (by decide)).append h.namespaceName
    split <;> simp [hnamespace]
  · simp only [List.forall_mem_map]
    exact fun declaration hdeclaration => (hcontainers declaration hdeclaration).declarationHead
  · have hmark : '\n' ∉ (if options.markerComment then " " ++ markerComment else "").toList := by
      split <;> decide
    simpa using (hself _ (by simp)).declarationHead.append hmark

end Emission

/-! ## Declarations -/

namespace Code

/-- Instructions with names on one line. An event begins its line. -/
def Instruction.IsUnbroken : Instruction → Prop
  | refuseNull | returnTrue => True
  | returnFalseIf condition => '\n' ∉ condition.toList
  | raise event => '\n' ∉ event.toList ∧ event.toList.head? ≠ some ' '
  | notify interfaceEvent args => '\n' ∉ interfaceEvent.toList ∧ '\n' ∉ args.toList
  | assign field => '\n' ∉ field.toList

/-- Declarations with names on one line. Modifiers and attributes begin their lines. -/
def Declaration.IsUnbroken : Declaration → Prop
  | argsField type name property =>
      '\n' ∉ type.toList ∧ '\n' ∉ name.toList ∧ '\n' ∉ property.toList
  | redirect implemented added removed =>
      '\n' ∉ implemented.toList ∧ '\n' ∉ added.toList ∧ '\n' ∉ removed.toList
  | event modifiers name => IsPlain modifiers ∧ '\n' ∉ name.toList
  | observable modifiers type factory parameters subscribed unsubscribed value push =>
      IsPlain modifiers ∧ '\n' ∉ type.toList ∧ '\n' ∉ factory.toList ∧ '\n' ∉ parameters.toList ∧
        '\n' ∉ subscribed.toList ∧ '\n' ∉ unsubscribed.toList ∧ '\n' ∉ value.toList ∧
        '\n' ∉ push.toList
  | .field type name => '\n' ∉ type.toList ∧ '\n' ∉ name.toList
  | getter type name target => '\n' ∉ type.toList ∧ '\n' ∉ name.toList ∧ '\n' ∉ target.toList
  | setter attributes name parameters checks change =>
      (∀ line ∈ attributes, IsPlain line) ∧ '\n' ∉ name.toList ∧ '\n' ∉ parameters.toList ∧
        (∀ instruction ∈ checks, instruction.IsUnbroken) ∧
        ∀ instruction ∈ change, instruction.IsUnbroken

theorem Instruction.IsUnbroken.isPlain_text {instruction : Instruction}
    (h : instruction.IsUnbroken) : IsPlain instruction.text := by
  cases instruction with
  | refuseNull | returnTrue => exact isPlain_literal (by decide)
  | returnFalseIf condition =>
      exact isPlain_literal (by decide) |>.append h |>.append_literal (by decide)
  | raise event => exact isPlain_append_literal h.1 h.2 (by decide)
  | notify interfaceEvent args =>
      exact isPlain_literal (by decide)
        |>.append h.1 |>.append_literal (by decide)
        |>.append h.2 |>.append_literal (by decide)
  | assign field =>
      exact isPlain_literal (by decide) |>.append h |>.append_literal (by decide)

theorem Declaration.IsUnbroken.isPlain_text {declaration : Declaration}
    (h : declaration.IsUnbroken) : IsPlain declaration.text := by
  cases declaration with
  | argsField type name property =>
      obtain ⟨htype, hname, hproperty⟩ := h
      exact isPlain_literal (by decide)
        |>.append htype |>.append_literal (by decide)
        |>.append hname |>.append_literal (by decide)
        |>.append htype |>.append_literal (by decide)
        |>.append hproperty |>.append_literal (by decide)
  | redirect implemented added removed =>
      obtain ⟨himplemented, hadded, hremoved⟩ := h
      exact isPlain_literal (by decide)
        |>.append himplemented |>.append_literal (by decide)
        |>.append hadded |>.append_literal (by decide)
        |>.append hremoved |>.append_literal (by decide)
  | event modifiers name =>
      obtain ⟨hmodifiers, hname⟩ := h
      exact hmodifiers.append_literal (by decide) |>.append hname |>.append_literal (by decide)
  | observable modifiers type factory parameters subscribed unsubscribed value push =>
      obtain ⟨hmodifiers, htype, hfactory, hparameters, hsubscribed, hunsubscribed, hvalue, hpush⟩ := h
      exact hmodifiers.append_literal (by decide)
        |>.append htype |>.append_literal (by decide)
        |>.append hfactory |>.append_literal (by decide)
        |>.append hparameters |>.append_literal (by decide)
        |>.append htype |>.append_literal (by decide)
        |>.append hsubscribed |>.append_literal (by decide)
        |>.append hunsubscribed |>.append_literal (by decide)
        |>.append hvalue |>.append_literal (by decide)
        |>.append hpush |>.append_literal (by decide)
  | field type name =>
      obtain ⟨htype, hname⟩ := h
      exact isPlain_literal (by decide)
        |>.append htype |>.append_literal (by decide)
        |>.append hname |>.append_literal (by decide)
  | getter type name target =>
      obtain ⟨htype, hname, htarget⟩ := h
      exact isPlain_literal (by decide)
        |>.append htype |>.append_literal (by decide)
        |>.append hname |>.append_literal (by decide)
        |>.append htarget |>.append_literal (by decide)
  | setter attributes name parameters checks change =>
      obtain ⟨-, hname, hparameters, -⟩ := h
      exact isPlain_literal (by decide)
        |>.append hname |>.append_literal (by decide)
        |>.append hparameters |>.append_literal (by decide)

/-- A setter is a block below its attributes; all other declarations are single lines. -/
theorem Declaration.IsUnbroken.nested_lines {declaration : Declaration}
    (h : declaration.IsUnbroken) : Nested 0 declaration.lines := by
  have htext := h.isPlain_text
  cases declaration with
  | setter attributes name parameters checks change =>
      obtain ⟨hattributes, -, -, hchecks, hchange⟩ := h
      have hcode {instructions : List Instruction}
          (h : ∀ instruction ∈ instructions, instruction.IsUnbroken) :
          Nested 1 (instructions.map (.code 1 ·.text)) := by
        have hcontents : ∀ content ∈ instructions.map Instruction.text, IsPlain content := by
          simpa using fun instruction hinstruction => (h instruction hinstruction).isPlain_text
        simpa [Function.comp_def] using nested_code hcontents 1
      have hblock := Nested.block htext ((hcode hchecks).append (.blank (hcode hchange))) (.nil 0)
      simpa [Declaration.lines] using (nested_code hattributes 0).append hblock
  | argsField | redirect | event | observable | field | getter => exact .code htext (.nil 0)

theorem nested_separated {declarations : List Declaration}
    (h : ∀ declaration ∈ declarations, declaration.IsUnbroken) (start : Bool) :
    Nested 0 (separated start declarations) := by
  induction declarations generalizing start with
  | nil => exact .nil 0
  | cons declaration declarations ih =>
      have hseparation : Nested 0 (if start then [] else [.blank]) := by
        split
        · exact .nil 0
        · exact .blank (.nil 0)
      have hrest := ih (fun other hother => h other (.tail _ hother)) false
      exact (hseparation.append (h declaration (by simp)).nested_lines).append hrest

end Code

/-! ## Members -/

theorem isPlain_keyword (accessibility : Accessibility) : IsPlain accessibility.keyword := by
  cases accessibility <;> exact isPlain_literal (by decide)

namespace PropertyDraft.IsUnbroken

variable {draft : PropertyDraft}

theorem lacks (h : draft.IsUnbroken) : draft.Lacks '\n' where
  containingType := ⟨h.containingType.namespaceName, fun declaration hdeclaration =>
    (h.containingType.chain declaration hdeclaration).lacks⟩
  propertyName := h.propertyName
  propertyType := h.propertyType
  redirects := h.redirects

theorem event (h : draft.IsUnbroken) (phase : Phase) :
    '\n' ∉ (draft.memberNames.event phase).toList :=
  h.lacks.event isControl_lineFeed phase

theorem eventArgs (h : draft.IsUnbroken) (phase : Phase) :
    '\n' ∉ (draft.memberNames.eventArgs phase).toList :=
  h.lacks.eventArgs isControl_lineFeed phase

theorem instruction (h : draft.IsUnbroken) (statement : Statement) :
    (statement.instruction draft.memberNames draft.propertyType).IsUnbroken := by
  have hfield := h.lacks.field isControl_lineFeed
  have htype := h.propertyType
  cases statement with
  | nullGuard | returnTrue => trivial
  | returnIfSame | returnIfEqualByComparer =>
      exact (isPlain_literal (by decide) |>.append hfield |>.append_literal (by decide)).unbroken
  | returnIfEqual =>
      exact (isPlain_literal (by decide) |>.append htype |>.append_literal (by decide)
        |>.append hfield |>.append_literal (by decide)).unbroken
  | raiseEvent phase =>
      have hbegins : (draft.memberNames.event phase).toList.head? ≠ some ' ' := by
        have hbegins := h.begins
        cases hname : draft.propertyName.toList with
        | nil => cases phase <;> simp [MemberNames.event, memberNames, hname, Phase.suffix]
        | cons c rest => simpa [MemberNames.event, memberNames, hname] using hbegins
      exact ⟨h.event phase, hbegins⟩
  | notifyInterface phase =>
      refine ⟨?_, h.eventArgs phase⟩
      cases phase <;> decide
  | assign => exact hfield

theorem instructions (h : draft.IsUnbroken) (statements : List Statement) :
    ∀ instruction ∈ draft.instructions statements, instruction.IsUnbroken := by
  simp [PropertyDraft.instructions, h.instruction]

theorem declaration (h : draft.IsUnbroken) {member : Member}
    (hmember : member ∈ draft.memberGroups.flatten) : (draft.declaration member).IsUnbroken := by
  have hfield := h.lacks.field isControl_lineFeed
  have hmethod := h.lacks.method isControl_lineFeed
  have htype := h.propertyType
  cases member with
  | eventArgs phase =>
      have hsuffix : '\n' ∉ phase.suffix.toList := by
        cases phase <;> decide
      have hargsType : IsPlain (Member.eventArgsType phase) :=
        isPlain_literal (by decide) |>.append hsuffix |>.append_literal (by decide)
      exact ⟨hargsType.unbroken, h.eventArgs phase, h.propertyName⟩
  | redirect r =>
      obtain ⟨hinterface, hname⟩ := h.redirects r (mem_redirects_of_mem_memberGroups hmember)
      exact ⟨by simp [hinterface, hname], h.event r.phase, h.event r.phase⟩
  | event phase accessibility => exact ⟨isPlain_keyword accessibility, h.event phase⟩
  | observable phase accessibility =>
      have hkeyword := isPlain_keyword accessibility
      have hfactory := h.lacks.observable isControl_lineFeed phase
      cases phase with
      | changing =>
          exact ⟨hkeyword, by decide, hfactory, by decide, h.event _, h.event _, by decide,
            unbroken_literal (by decide)⟩
      | changed =>
          have hvalue : Text.Lacks '\n' ("this." ++ draft.memberNames.field) :=
            (isControl_lineFeed.lacks_literal (by decide)).append hfield
          exact ⟨hkeyword, htype, hfactory, unbroken_literal (by decide), h.event _, h.event _,
            hvalue, unbroken_literal (by decide)⟩
  | field => exact ⟨htype, hfield⟩
  | accessor => exact ⟨htype, hmethod, hfield⟩
  | setter =>
      have hattribute : IsPlain ("[global::System.Diagnostics.CodeAnalysis.MemberNotNull(nameof(" ++
          draft.memberNames.field ++ "))]") :=
        isPlain_literal (by decide) |>.append hfield |>.append_literal (by decide)
      refine ⟨?_, hmethod, by simp [htype], h.instructions _, h.instructions _⟩
      split <;> simp [hattribute]
  | comparerSetter =>
      exact ⟨by simp, hmethod, by simp [htype], h.instructions _, h.instructions _⟩

theorem declarations (h : draft.IsUnbroken) :
    ∀ declaration ∈ draft.declarations, declaration.IsUnbroken := by
  rw [PropertyDraft.declarations, List.forall_mem_map]
  exact fun member hmember => h.declaration hmember

end PropertyDraft.IsUnbroken

/-! ## Units -/

theorem Emission.isUnitText_unitText (options : EmitOptions) {definition : TypeDefinition}
    (hdefinition : definition.IsUnbroken) {declarations : List Code.Declaration}
    (h : ∀ declaration ∈ declarations, declaration.IsUnbroken) :
    IsUnitText options.indentWidth.toNat options.lineEnding (preamble options)
      (chainHeads options definition) (unitText options definition declarations) := by
  rw [← blockHeads_eq_chainHeads]
  exact isUnitText_document (isPlain_preamble options) (isPlain_blockHeads options hdefinition)
    (blockHeads_ne_nil options definition) (Code.nested_separated h true)

open Emission

/-- Where nothing cancels, the units of a property and of all properties of a type are properly
nested, inside the heads of the containing type's chain. -/
theorem emit_isUnitText {host : Host} (hhost : host.NeverCancels) (options : EmitOptions)
    (descriptor : PropertyDescriptor) (h : descriptor.IsUnbroken)
    (rest : List PropertyDescriptor)
    (hsame : ∀ other ∈ rest, other.containingType = descriptor.containingType)
    (hrest : ∀ other ∈ rest, other.IsUnbroken) :
    let IsUnit := IsUnitText options.indentWidth.toNat options.lineEnding (preamble options)
      (chainHeads options descriptor.containingType)
    (∃ unit, (emitProperty options descriptor host).1 = .ok unit ∧ IsUnit unit.sourceText) ∧
      ∃ unit, (emitType options (descriptor :: rest) host).1 = .ok unit ∧
        IsUnit unit.sourceText := by
  intro IsUnit
  rw [emitProperty_of_neverCancels hhost, emitType_of_neverCancels hhost _ _ hsame]
  refine ⟨⟨_, rfl, ?_⟩, ⟨_, rfl, ?_⟩⟩
  · exact isUnitText_unitText options h.containingType h.declarations
  · refine isUnitText_unitText options h.containingType ?_
    simp only [List.forall_mem_flatMap, List.forall_mem_cons]
    exact ⟨h.declarations, fun other hother => (hrest other hother).declarations⟩

theorem isUnbroken_sample : PropertyDraft.sample.build.IsUnbroken where
  containingType :=
    { namespaceName := by decide
      chain := by
        have hchain : PropertyDraft.sample.build.containingType.chain =
            [{ name := "Grid" },
              { name := "Cell", isValueType := true, genericArguments := ["T", "U"] }] := rfl
        rw [hchain, List.forall_mem_cons, List.forall_mem_singleton]
        exact ⟨⟨by decide, by decide⟩, ⟨by decide, by decide⟩⟩ }
  propertyName := by decide
  begins := by decide
  propertyType := by decide
  redirects := by decide

theorem emit_isUnitText_sample :
    let definition := PropertyDraft.sample.containingType
    chainHeads {} definition =
      ["namespace App.Models", "partial class Grid",
        "partial struct Cell<T, U> // This is implementation class by PropNotify."] ∧
    (∃ unit, (emitProperty {} PropertyDraft.sample.build {}).1 = .ok unit ∧
      IsUnitText 4 .native (preamble {}) (chainHeads {} definition) unit.sourceText) ∧
    ∃ unit, (emitType {} [PropertyDraft.sample.build, PropertyDraft.sample.build] {}).1 = .ok unit ∧
      IsUnitText 4 .native (preamble {}) (chainHeads {} definition) unit.sourceText := by
  have hhost : Host.NeverCancels {} := ⟨rfl, .inr rfl⟩
  refine ⟨by decide, ?_⟩
  exact emit_isUnitText hhost {} PropertyDraft.sample.build isUnbroken_sample
    [PropertyDraft.sample.build] (by simp) (by simpa using isUnbroken_sample)

end ChangeNotification
