import ChangeNotification.Proofs.Emission.MemberGroups
import ChangeNotification.Proofs.Emission.UnitText

/-! # What emissions report

A property reports from one of its setters only, so an emission reports property by property. A
host that listens keeps what it hears in that order. -/

namespace ChangeNotification

open Emission

/-! ## Reports among actions -/

namespace Action

@[simp] theorem diagnostics_append (actions more : List Action) :
    diagnostics (actions ++ more) = diagnostics actions ++ diagnostics more :=
  List.filterMap_append

@[simp] theorem diagnostics_nil : diagnostics [] = [] := rfl

@[simp] theorem diagnostics_checkpoint (actions : List Action) :
    diagnostics (.checkpoint :: actions) = diagnostics actions := rfl

@[simp] theorem diagnostics_write (edit : SourceBuffer.Edit) (actions : List Action) :
    diagnostics (.write edit :: actions) = diagnostics actions := rfl

@[simp] theorem diagnostics_map_write {α : Type} (f : α → SourceBuffer.Edit) (list : List α) :
    diagnostics (list.map fun item => .write (f item)) = [] := by
  induction list with
  | nil => rfl
  | cons item list ih => simp [ih]

@[simp] theorem diagnostics_map_report (list : List Diagnostic) :
    diagnostics (list.map .report) = list := by
  induction list with
  | nil => rfl
  | cons diagnostic list ih => exact congrArg (List.cons diagnostic) ih

theorem diagnostics_flatMap {α : Type} (f : α → List Action) (list : List α) :
    diagnostics (list.flatMap f) = list.flatMap fun item => diagnostics (f item) := by
  induction list with
  | nil => rfl
  | cons item list ih => simp [ih]

end Action

namespace PropertyDraft

/-- All that the emission of the members reports. -/
def reported (draft : PropertyDraft) : List Diagnostic :=
  if draft.eventArgsOnly then [] else draft.nullableContextDiagnostics

theorem diagnostics_setterBody (draft : PropertyDraft) (reports : List Diagnostic)
    (comparison : Statement) :
    Action.diagnostics (draft.setterBody reports comparison) = reports := by
  simp [setterBody, writeStatements]

theorem diagnostics_memberActions (draft : PropertyDraft) (member : Member) :
    Action.diagnostics (draft.memberActions member) =
      if member = .setter then draft.nullableContextDiagnostics else [] := by
  have hlines : Action.diagnostics draft.memberNotNullLines = [] := by
    unfold memberNotNullLines
    split <;> rfl
  cases member with
  | setter => simp [memberActions, hlines, diagnostics_setterBody]
  | comparerSetter => simp [memberActions, diagnostics_setterBody]
  | eventArgs | redirect | event | observable | field | accessor => rfl

/-- Groups without the reporting setter report nothing. -/
theorem diagnostics_groups (draft : PropertyDraft) {groups : List (List Member)}
    (h : ∀ group ∈ groups, Member.setter ∉ group) :
    Action.diagnostics (groups.flatMap fun group =>
      .checkpoint :: group.flatMap draft.memberActions) = [] := by
  simp only [Action.diagnostics_flatMap, Action.diagnostics_checkpoint, diagnostics_memberActions,
    List.flatMap_eq_nil_iff]
  intro group hgroup member hmember
  rw [if_neg]
  rintro rfl
  exact h group hgroup hmember

/-- Nothing is reported before the reporting setter, and a checkpoint follows it. -/
theorem bodyActions_around_setter {draft : PropertyDraft} (h : draft.eventArgsOnly = false) :
    ∃ front, Action.diagnostics front = [] ∧
      draft.bodyActions = front ++ (draft.memberActions .setter ++
        .checkpoint :: draft.memberActions .comparerSetter) := by
  have hnone : ∀ group ∈ [draft.eventArgsMembers, draft.redirectMembers, draft.eventMembers,
      draft.observableMembers, [.field, .accessor], []], Member.setter ∉ group := by
    simp [mem_eventArgsMembers, redirectMembers, mem_eventMembers, mem_observableMembers]
  refine ⟨_, draft.diagnostics_groups hnone, ?_⟩
  simp [bodyActions, memberGroups, h]

theorem diagnostics_bodyActions (draft : PropertyDraft) :
    Action.diagnostics draft.bodyActions = draft.reported := by
  rw [reported]
  cases honly : draft.eventArgsOnly with
  | true =>
      have hnone : ∀ group ∈ draft.memberGroups, Member.setter ∉ group := by
        simp [memberGroups, honly, mem_eventArgsMembers]
      simpa [bodyActions] using draft.diagnostics_groups hnone
  | false =>
      obtain ⟨front, hfront, hbody⟩ := bodyActions_around_setter honly
      simp [hbody, hfront, diagnostics_memberActions]

end PropertyDraft

namespace Emission

@[simp] theorem diagnostics_preambleActions (options : EmitOptions) :
    Action.diagnostics (preambleActions options) = [] := by
  rw [preambleActions, Action.diagnostics_checkpoint]
  exact Action.diagnostics_map_write id _

@[simp] theorem diagnostics_openingActions (options : EmitOptions) (definition : TypeDefinition) :
    Action.diagnostics (openingActions options definition) = [] := by
  simp only [openingActions, Action.diagnostics_flatMap, List.flatMap_eq_nil_iff]
  exact fun _ _ => rfl

@[simp] theorem diagnostics_closingActions (options : EmitOptions) (definition : TypeDefinition) :
    Action.diagnostics (closingActions options definition) = [] := by
  simp only [closingActions, Action.diagnostics_flatMap, List.flatMap_eq_nil_iff]
  exact fun _ _ => rfl

theorem diagnostics_unitActions (options : EmitOptions) (definition : TypeDefinition)
    (bodies : List Action) :
    Action.diagnostics (unitActions options definition bodies) = Action.diagnostics bodies := by
  simp [unitActions]

end Emission

theorem PropertyDescriptor.diagnostics_flatMap_bodyActions
    (descriptors : List PropertyDescriptor) :
    Action.diagnostics (descriptors.flatMap fun descriptor => descriptor.bodyActions) =
      descriptors.flatMap fun descriptor => descriptor.reported := by
  rw [Action.diagnostics_flatMap]
  simp only [PropertyDraft.diagnostics_bodyActions]

/-! ## Hosts that listen -/

theorem Host.reports_foldl_hear {host : Host} (h : host.ignoresEmissions = false)
    (list : List Diagnostic) : (list.foldl Host.hear host).reports = host.reports ++ list := by
  induction list generalizing host with
  | nil => simp
  | cons diagnostic list ih =>
      have hhear : host.hear diagnostic = host.report diagnostic := by
        simp [hear, h]
      have hnext : (host.report diagnostic).ignoresEmissions = false := h
      rw [List.foldl_cons, hhear, ih hnext]
      simp [report]

/-- The sample outside of a nullable context, declared at some places. -/
def PropertyDraft.sampleAt (sites : List SourceLocation) : PropertyDraft :=
  { sample with nullability := .unknown, declarationSites := sites }

/-- A host that never cancels hears all that a property reports. -/
theorem host_emitProperty {host : Host} (h : host.NeverCancels) (options : EmitOptions)
    (descriptor : PropertyDescriptor) :
    (emitProperty options descriptor host).2 = descriptor.reported.foldl Host.hear host := by
  rw [emitProperty_of_neverCancels h, diagnostics_unitActions,
    PropertyDraft.diagnostics_bodyActions]

theorem host_emitType {host : Host} (h : host.NeverCancels) (options : EmitOptions)
    (first : PropertyDescriptor) {rest : List PropertyDescriptor}
    (hsame : ∀ descriptor ∈ rest, descriptor.containingType = first.containingType) :
    (emitType options (first :: rest) host).2 =
      ((first :: rest).flatMap fun descriptor => descriptor.reported).foldl Host.hear host := by
  rw [emitType_of_neverCancels h _ _ hsame, diagnostics_unitActions,
    PropertyDescriptor.diagnostics_flatMap_bodyActions]

theorem reports_emitProperty (options : EmitOptions) (descriptor : PropertyDescriptor) :
    (emitProperty options descriptor {}).2.reports = descriptor.reported := by
  rw [host_emitProperty neverCancels_default, Host.reports_foldl_hear rfl]
  rfl

end ChangeNotification
