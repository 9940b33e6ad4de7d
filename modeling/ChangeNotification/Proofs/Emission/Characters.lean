import ChangeNotification.Proofs.Emission.MemberGroups
import ChangeNotification.Proofs.Emission.UnitText
import ChangeNotification.Proofs.SourceBuffer.Lines
import ChangeNotification.SupportSource

/-! # Characters of generated text

Units have no control characters of their own, so that those in their text are those of the names.
Support sources have none at all. -/

namespace ChangeNotification

open Text (IsControl)
open SourceBuffer (Edit)

variable {c : Char}

/-! ## Names without a character -/

structure TypeDeclaration.Lacks (c : Char) (declaration : TypeDeclaration) : Prop where
  name : Text.Lacks c declaration.name
  genericArguments : ∀ argument ∈ declaration.genericArguments, Text.Lacks c argument

structure TypeDefinition.Lacks (c : Char) (definition : TypeDefinition) : Prop where
  namespaceName : Text.Lacks c definition.namespaceName
  chain : ∀ declaration ∈ definition.chain, declaration.Lacks c

/-- A property with no name and no type in which there is a character. -/
structure PropertyDraft.Lacks (c : Char) (draft : PropertyDraft) : Prop where
  containingType : draft.containingType.Lacks c
  propertyName : Text.Lacks c draft.propertyName
  propertyType : Text.Lacks c draft.propertyType
  redirects : ∀ r ∈ draft.redirects, Text.Lacks c r.interfaceType ∧ Text.Lacks c r.eventName

/-! ## Heads -/

theorem TypeDeclaration.Lacks.declaredName {declaration : TypeDeclaration}
    (h : declaration.Lacks c) (hc : IsControl c) : Text.Lacks c declaration.declaredName := by
  unfold TypeDeclaration.declaredName
  split
  · have hseparator : Text.Lacks c ", " := hc.lacks_literal (by decide)
    have hjoined : Text.Lacks c (String.intercalate ", " declaration.genericArguments) :=
      Text.not_mem_intercalate hseparator h.genericArguments
    exact h.name.append_literal hc (by decide) |>.append hjoined |>.append_literal hc (by decide)
  · exact h.name

namespace Emission

theorem lacks_declarationHead {declaration : TypeDeclaration} (h : declaration.Lacks c)
    (hc : IsControl c) : Text.Lacks c (declarationHead declaration) := by
  have hkeyword : Text.Lacks c (if declaration.isValueType then "struct" else "class") := by
    split <;> exact hc.lacks_literal (by decide)
  exact (hc.lacks_literal (by decide)).append hkeyword |>.append_literal hc (by decide)
    |>.append (h.declaredName hc)

theorem lacks_blockHeads (options : EmitOptions) {definition : TypeDefinition}
    (h : definition.Lacks c) (hc : IsControl c) :
    ∀ head ∈ blockHeads options definition, Text.Lacks c head := by
  have hchain := h.chain
  rw [TypeDefinition.chain, List.forall_mem_append] at hchain
  obtain ⟨hcontainers, hself⟩ := hchain
  rw [blockHeads, List.forall_mem_append, List.forall_mem_append]
  refine ⟨⟨?_, ?_⟩, ?_⟩
  · have hnamespace : Text.Lacks c ("namespace " ++ definition.namespaceName) :=
      (hc.lacks_literal (by decide)).append h.namespaceName
    split <;> simp [hnamespace]
  · simp only [List.forall_mem_map]
    exact fun declaration hdeclaration =>
      lacks_declarationHead (hcontainers declaration hdeclaration) hc
  · have hmark : Text.Lacks c (if options.markerComment then " " ++ markerComment else "") := by
      split
      · exact (hc.lacks_literal (by decide)).append (hc.lacks_literal (by decide))
      · exact hc.lacks_literal (by decide)
    simpa using (lacks_declarationHead (hself _ (by simp)) hc).append hmark

theorem lacks_preamble (options : EmitOptions) (hc : IsControl c) :
    ∀ line ∈ preamble options, Text.Lacks c line := by
  have hheader : Text.Lacks c autoGeneratedHeader := hc.lacks_literal (by decide)
  have hdirectives : Text.Lacks c nullableDirective ∧ Text.Lacks c obsoleteWarningsDirective :=
    ⟨hc.lacks_literal (by decide), hc.lacks_literal (by decide)⟩
  unfold preamble
  split <;> simp [hheader, hdirectives]

end Emission

/-! ## Members -/

theorem Accessibility.lacks_keyword (hc : IsControl c) (accessibility : Accessibility) :
    Text.Lacks c accessibility.keyword := by
  cases accessibility <;> exact hc.lacks_literal (by decide)

theorem Phase.lacks_suffix (hc : IsControl c) (phase : Phase) : Text.Lacks c phase.suffix := by
  cases phase <;> exact hc.lacks_literal (by decide)

namespace PropertyDraft.Lacks

variable {draft : PropertyDraft}

section

variable (h : draft.Lacks c) (hc : IsControl c)

include h hc

theorem field : Text.Lacks c draft.memberNames.field :=
  (hc.lacks_literal (by decide)).append (h.propertyName.lowercaseFirst hc)

theorem method : Text.Lacks c draft.memberNames.method :=
  (hc.lacks_literal (by decide)).append h.propertyName

theorem event (phase : Phase) : Text.Lacks c (draft.memberNames.event phase) :=
  h.propertyName.append (phase.lacks_suffix hc)

theorem eventArgs (phase : Phase) : Text.Lacks c (draft.memberNames.eventArgs phase) :=
  (hc.lacks_literal (by decide)).append (phase.lacks_suffix hc) |>.append_literal hc (by decide)
    |>.append h.propertyName

theorem observable (phase : Phase) : Text.Lacks c (draft.memberNames.observable phase) :=
  (h.event hc phase).append_literal hc (by decide)

theorem statement (statement : Statement) :
    Text.Lacks c (statement.line draft.memberNames draft.propertyType) := by
  have hfield := h.field hc
  cases statement with
  | nullGuard | returnTrue => exact hc.lacks_literal (by decide)
  | returnIfSame | returnIfEqualByComparer | assign =>
      exact (hc.lacks_literal (by decide)).append hfield |>.append_literal hc (by decide)
  | returnIfEqual =>
      exact (hc.lacks_literal (by decide)).append h.propertyType |>.append_literal hc (by decide)
        |>.append hfield |>.append_literal hc (by decide)
  | raiseEvent phase => exact (h.event hc phase).append_literal hc (by decide)
  | notifyInterface phase =>
      exact (hc.lacks_literal (by decide)).append (phase.lacks_suffix hc)
        |>.append_literal hc (by decide)
        |>.append (h.eventArgs hc phase) |>.append_literal hc (by decide)

theorem line {member : Member} (hmember : member ∈ draft.memberGroups.flatten) :
    Text.Lacks c (member.line draft.memberNames draft.propertyType) := by
  have hfield := h.field hc
  have hmethod := h.method hc
  have htype := h.propertyType
  cases member with
  | eventArgs phase =>
      have hargs : Text.Lacks c (Member.eventArgsType phase) :=
        (hc.lacks_literal (by decide)).append (phase.lacks_suffix hc) |>.append_literal hc (by decide)
      exact (hc.lacks_literal (by decide)).append hargs
        |>.append_literal hc (by decide) |>.append (h.eventArgs hc phase)
        |>.append_literal hc (by decide) |>.append hargs
        |>.append_literal hc (by decide) |>.append h.propertyName |>.append_literal hc (by decide)
  | redirect r =>
      obtain ⟨hinterface, hname⟩ := h.redirects r (mem_redirects_of_mem_memberGroups hmember)
      have hhandler : Text.Lacks c Member.eventHandlerType := hc.lacks_literal (by decide)
      have hevent := h.event hc r.phase
      exact (hc.lacks_literal (by decide)).append hhandler
        |>.append_literal hc (by decide) |>.append hinterface
        |>.append_literal hc (by decide) |>.append hname
        |>.append_literal hc (by decide) |>.append hevent
        |>.append_literal hc (by decide) |>.append hevent |>.append_literal hc (by decide)
  | event phase accessibility =>
      have hhandler : Text.Lacks c Member.eventHandlerType := hc.lacks_literal (by decide)
      exact (accessibility.lacks_keyword hc).append_literal hc (by decide) |>.append hhandler
        |>.append_literal hc (by decide) |>.append (h.event hc phase)
        |>.append_literal hc (by decide)
  | observable phase accessibility =>
      have hkeyword := accessibility.lacks_keyword hc
      have hadapter : Text.Lacks c Vocabulary.eventToObservableType := hc.lacks_literal (by decide)
      have hevent := h.event hc phase
      have hfactory := h.observable hc phase
      cases phase with
      | changing =>
          exact hkeyword.append_literal hc (by decide) |>.append hfactory
            |>.append_literal hc (by decide) |>.append hadapter
            |>.append_literal hc (by decide) |>.append hevent
            |>.append_literal hc (by decide) |>.append hevent |>.append_literal hc (by decide)
      | changed =>
          exact hkeyword.append_literal hc (by decide) |>.append htype
            |>.append_literal hc (by decide) |>.append hfactory
            |>.append_literal hc (by decide) |>.append hadapter
            |>.append_literal hc (by decide) |>.append htype
            |>.append_literal hc (by decide) |>.append hevent
            |>.append_literal hc (by decide) |>.append hevent
            |>.append_literal hc (by decide) |>.append hfield |>.append_literal hc (by decide)
  | field =>
      exact (hc.lacks_literal (by decide)).append htype |>.append_literal hc (by decide)
        |>.append hfield |>.append_literal hc (by decide)
  | accessor =>
      exact (hc.lacks_literal (by decide)).append htype |>.append_literal hc (by decide)
        |>.append hmethod |>.append_literal hc (by decide)
        |>.append hfield |>.append_literal hc (by decide)
  | setter =>
      exact (hc.lacks_literal (by decide)).append hmethod |>.append_literal hc (by decide)
        |>.append htype |>.append_literal hc (by decide)
  | comparerSetter =>
      exact (hc.lacks_literal (by decide)).append hmethod |>.append_literal hc (by decide)
        |>.append htype |>.append_literal hc (by decide)
        |>.append htype |>.append_literal hc (by decide)

/-! ## Edits -/

theorem writeStatements (statements : List Statement) :
    ∀ edit ∈ Action.edits (draft.writeStatements statements), Edit.Lacks c edit := by
  rw [PropertyDraft.writeStatements, Action.edits_map_write, List.forall_mem_map]
  exact fun statement _ => h.statement hc statement

theorem setterBody (reports : List Diagnostic) (comparison : Statement) :
    ∀ edit ∈ Action.edits (draft.setterBody reports comparison), Edit.Lacks c edit := by
  simp only [PropertyDraft.setterBody, Action.edits_append, Action.edits_map_report,
    Action.edits_write, List.append_nil, List.forall_mem_append, List.forall_mem_cons]
  exact ⟨⟨h.writeStatements hc _, h.writeStatements hc _⟩, trivial, h.writeStatements hc _⟩

theorem memberActions {member : Member} (hmember : member ∈ draft.memberGroups.flatten) :
    ∀ edit ∈ Action.edits (draft.memberActions member), Edit.Lacks c edit := by
  have hline := h.line hc hmember
  cases member with
  | setter =>
      have hattribute : Text.Lacks c
          ("[global::System.Diagnostics.CodeAnalysis.MemberNotNull(nameof(" ++
            draft.memberNames.field ++ "))]") :=
        (hc.lacks_literal (by decide)).append (h.field hc) |>.append_literal hc (by decide)
      have hattributes : ∀ edit ∈ Action.edits draft.memberNotNullLines, Edit.Lacks c edit := by
        unfold memberNotNullLines
        split
        · exact List.forall_mem_singleton.mpr hattribute
        · simp
      simp only [PropertyDraft.memberActions, Action.edits_write, Action.edits_append,
        List.cons_append, List.append_assoc, List.forall_mem_append, List.forall_mem_cons]
      exact ⟨trivial, hattributes, hline, h.setterBody hc _ _, trivial, by simp⟩
  | comparerSetter =>
      simp only [PropertyDraft.memberActions, Action.edits_write, Action.edits_append,
        List.cons_append, List.forall_mem_append, List.forall_mem_cons]
      exact ⟨trivial, hline, h.setterBody hc _ _, trivial, by simp⟩
  | eventArgs | redirect | event | observable | field | accessor =>
      simp only [PropertyDraft.memberActions, Action.edits_write, Action.edits_nil,
        List.forall_mem_cons]
      exact ⟨trivial, hline, by simp⟩

theorem bodyActions : ∀ edit ∈ Action.edits draft.bodyActions, Edit.Lacks c edit := by
  rw [edits_bodyActions]
  simp only [List.forall_mem_flatMap]
  exact fun member hmember => h.memberActions hc hmember

end

end PropertyDraft.Lacks

theorem PropertyDescriptor.lacks_flatMap_bodyActions {descriptors : List PropertyDescriptor}
    (h : ∀ descriptor ∈ descriptors, descriptor.Lacks c) (hc : IsControl c) :
    ∀ edit ∈ Action.edits (descriptors.flatMap fun descriptor => descriptor.bodyActions),
      Edit.Lacks c edit := by
  induction descriptors with
  | nil => simp
  | cons descriptor descriptors ih =>
      rw [List.flatMap_cons, Action.edits_append, List.forall_mem_append]
      exact ⟨(h descriptor (.head _)).bodyActions hc,
        ih fun other hother => h other (.tail _ hother)⟩

/-- No control character is in a unit but those of its names. -/
theorem Emission.lacks_unitActions (options : EmitOptions) {definition : TypeDefinition}
    (h : definition.Lacks c) (hc : IsControl c) {bodies : List Action}
    (hbodies : ∀ edit ∈ Action.edits bodies, Edit.Lacks c edit) :
    ∀ edit ∈ Action.edits (unitActions options definition bodies), Edit.Lacks c edit := by
  rw [edits_unitActions]
  simp only [List.forall_mem_append, List.forall_mem_map]
  refine ⟨⟨⟨lacks_preamble options hc, lacks_blockHeads options h hc⟩, hbodies⟩, ?_⟩
  intro edit hedit
  rw [List.eq_of_mem_replicate hedit]
  trivial

/-! ## Support sources -/

theorem AttributeRole.lacks_simpleName (hc : IsControl c) (role : AttributeRole) :
    Text.Lacks c role.simpleName := by
  cases role with
  | enable => exact hc.lacks_literal (by decide)
  | event phase | observable phase => exact (phase.lacks_suffix hc).append_literal hc (by decide)
  | redirect phase =>
      exact (hc.lacks_literal (by decide)).append (phase.lacks_suffix hc)
        |>.append_literal hc (by decide)

namespace SupportSource

theorem lacks_namespaceHead (hc : IsControl c) :
    Text.Lacks c ("namespace " ++ Vocabulary.attributeNamespace) := by
  have hname : Text.Lacks c Vocabulary.attributeNamespace := hc.lacks_literal (by decide)
  exact (hc.lacks_literal (by decide)).append hname

theorem lacks_attributeMember (hc : IsControl c) (role : AttributeRole) :
    Text.Lacks c (attributeMember role) := by
  have hname := role.lacks_simpleName hc
  have henum : Text.Lacks c Vocabulary.qualifiedAccessibilityEnum := hc.lacks_literal (by decide)
  cases role with
  | enable =>
      have hargument : Text.Lacks c Vocabulary.eventArgsOnlyArgument := hc.lacks_literal (by decide)
      exact (hc.lacks_literal (by decide)).append hargument |>.append_literal hc (by decide)
  | event phase | observable phase =>
      exact (hc.lacks_literal (by decide)).append hname
        |>.append_literal hc (by decide) |>.append henum
        |>.append_literal hc (by decide) |>.append henum |>.append_literal hc (by decide)
  | redirect phase =>
      exact (hc.lacks_literal (by decide)).append hname |>.append_literal hc (by decide)

theorem lacks_attributesEdits (hc : IsControl c) : ∀ edit ∈ attributesEdits, Edit.Lacks c edit := by
  have hnamespace := lacks_namespaceHead hc
  have hclass (role : AttributeRole) : ∀ edit ∈ attributeClassEdits role, Edit.Lacks c edit := by
    have husage : Text.Lacks c (attributeUsage (allowsMultiple role)) := by
      unfold attributeUsage
      split <;> exact (hc.lacks_literal (by decide)).append_literal hc (by decide)
        |>.append_literal hc (by decide)
    have hhead : Text.Lacks c
        ("internal sealed class " ++ role.simpleName ++ " : global::System.Attribute") :=
      (hc.lacks_literal (by decide)).append (role.lacks_simpleName hc)
        |>.append_literal hc (by decide)
    simp only [attributeClassEdits, List.forall_mem_cons]
    exact ⟨trivial, husage, hhead, lacks_attributeMember hc role, trivial, by simp⟩
  simp only [attributesEdits, List.cons_append, List.forall_mem_cons, List.forall_mem_append,
    List.forall_mem_flatMap]
  exact ⟨hnamespace, fun role _ => hclass role, trivial, by simp⟩

theorem lacks_accessibilityEnumEdits (hc : IsControl c) :
    ∀ edit ∈ accessibilityEnumEdits, Edit.Lacks c edit := by
  have henum : Text.Lacks c Vocabulary.accessibilityEnum := hc.lacks_literal (by decide)
  have hmember (choice : AccessibilityChoice) : Text.Lacks c choice.memberName := by
    rcases choice with _ | (_ | _ | _ | _ | _ | _) <;> exact hc.lacks_literal (by decide)
  simp only [accessibilityEnumEdits, List.cons_append, List.forall_mem_cons,
    List.forall_mem_append, List.forall_mem_map]
  refine ⟨lacks_namespaceHead hc, (hc.lacks_literal (by decide)).append henum, fun entry _ => ?_,
    trivial, trivial, by simp⟩
  exact (hmember entry.1).append_literal hc (by decide) |>.append (hc.lacks_toString entry.2)
    |>.append_literal hc (by decide)

set_option maxRecDepth 2000 in
theorem lacks_eventToObservableLines (hc : IsControl c) :
    ∀ line ∈ eventToObservableLines, Text.Lacks c line := by
  unfold eventToObservableLines
  repeat refine List.forall_mem_cons.mpr ⟨hc.lacks_literal (by decide), ?_⟩
  simp

theorem lacks_eventToObservableEdits (hc : IsControl c) :
    ∀ edit ∈ eventToObservableEdits, Edit.Lacks c edit := by
  have hnamespace : Text.Lacks c ("namespace " ++ Vocabulary.attributeNamespace ++ ".Internal") :=
    (lacks_namespaceHead hc).append_literal hc (by decide)
  simp only [eventToObservableEdits, List.cons_append, List.forall_mem_cons, List.forall_mem_append,
    List.forall_mem_map]
  refine ⟨hnamespace, fun line hline => ?_, trivial, by simp⟩
  split
  · trivial
  · exact lacks_eventToObservableLines hc line hline

end SupportSource

end ChangeNotification
