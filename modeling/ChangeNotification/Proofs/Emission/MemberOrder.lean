import ChangeNotification.Proofs.Emission.MemberGroups
import ChangeNotification.Proofs.Emission.UnitText

/-! # The order of members

The members of a property as they follow each other in its unit, and the instructions of both
setters. -/

namespace ChangeNotification

namespace PropertyDraft

/-! ## The sequence of a change -/

/-- What tells of a phase: the event is raised before the interface is notified. -/
def announcement (draft : PropertyDraft) (phase : Phase) : List Code.Instruction :=
  (if (draft.members phase).event.isSome then [.raise (draft.propertyName ++ phase.suffix)] else []) ++
    if (draft.members phase).notifies then
      [.notify ("Property" ++ phase.suffix)
        ("__Property" ++ phase.suffix ++ "EventArgs_" ++ draft.propertyName)]
    else []

/-- The field is assigned once, between what tells that it changes and that it has changed. -/
def changeSequence (draft : PropertyDraft) : List Code.Instruction :=
  draft.announcement .changing ++
    .assign ("__" ++ Text.lowercaseFirst draft.propertyName) :: draft.announcement .changed ++
      [.returnTrue]

/-- What comes before a change: the guard, where there is one, and a test for equal values. -/
def checkSequence (draft : PropertyDraft) (equalValues : String) : List Code.Instruction :=
  (if draft.requiresNullGuard then [.refuseNull] else []) ++ [.returnFalseIf equalValues]

/-! ## The sequence of members -/

def argsField (draft : PropertyDraft) (phase : Phase) : Code.Declaration :=
  let type := "global::System.ComponentModel.Property" ++ phase.suffix ++ "EventArgs"
  .argsField type ("__Property" ++ phase.suffix ++ "EventArgs_" ++ draft.propertyName)
    draft.propertyName

/-- A redirect goes to the event of its own phase. -/
def redirectEvent (draft : PropertyDraft) (r : EventRedirect) : Code.Declaration :=
  .redirect (r.interfaceType ++ "." ++ r.eventName) (draft.propertyName ++ r.phase.suffix)
    (draft.propertyName ++ r.phase.suffix)

def eventField (draft : PropertyDraft) (phase : Phase) (accessibility : Accessibility) :
    Code.Declaration :=
  .event accessibility.keyword (draft.propertyName ++ phase.suffix)

/-- Before a change the property's object is observed, and after it the value. -/
def observableFactory (draft : PropertyDraft) (phase : Phase) (accessibility : Accessibility) :
    Code.Declaration :=
  let event := draft.propertyName ++ phase.suffix
  match phase with
  | .changing =>
      .observable accessibility.keyword "object?" (event ++ "AsObservable") "" event event "this"
        "pushValueAtSubscribed: false"
  | .changed =>
      .observable accessibility.keyword draft.propertyType (event ++ "AsObservable")
        "bool pushValueAtSubscribed = false" event event
        ("this.__" ++ Text.lowercaseFirst draft.propertyName) "pushValueAtSubscribed"

/-- The field, the getter and the setters, which are there for every property. -/
def storage (draft : PropertyDraft) : List Code.Declaration :=
  let field := "__" ++ Text.lowercaseFirst draft.propertyName
  let method := "_" ++ draft.propertyName
  let isCurrent := if draft.isReference then "object.ReferenceEquals(this." ++ field ++ ", value)"
    else "global::System.Collections.Generic.EqualityComparer<" ++ draft.propertyType ++
      ">.Default.Equals(this." ++ field ++ ", value)"
  [.field draft.propertyType field,
    .getter draft.propertyType method field,
    .setter
      (if draft.requiresNullGuard then
        ["[global::System.Diagnostics.CodeAnalysis.MemberNotNull(nameof(" ++ field ++ "))]"]
      else [])
      method (draft.propertyType ++ " value") (draft.checkSequence isCurrent) draft.changeSequence,
    .setter [] method
      (draft.propertyType ++ " value, global::System.Collections.Generic.IEqualityComparer<" ++
        draft.propertyType ++ "> equalityComparer")
      (draft.checkSequence ("equalityComparer.Equals(this." ++ field ++ ", value)"))
      draft.changeSequence]

/-- All members in their order. -/
def memberSequence (draft : PropertyDraft) : List Code.Declaration :=
  (if draft.changing.notifies then [draft.argsField .changing] else []) ++
    (if draft.changed.notifies then [draft.argsField .changed] else []) ++
    draft.redirects.map draft.redirectEvent ++
    (draft.changing.event.map (draft.eventField .changing)).toList ++
    (draft.changed.event.map (draft.eventField .changed)).toList ++
    (draft.changing.observable.map (draft.observableFactory .changing)).toList ++
    (draft.changed.observable.map (draft.observableFactory .changed)).toList ++ draft.storage

variable {draft : PropertyDraft}

/-! ## Agreement with the declarations -/

theorem instructions_phaseStatements (draft : PropertyDraft) (phase : Phase) :
    draft.instructions (draft.phaseStatements phase) = draft.announcement phase := by
  unfold phaseStatements announcement
  split <;> split <;> rfl

theorem instructions_changeStatements (draft : PropertyDraft) :
    draft.instructions draft.changeStatements = draft.changeSequence := by
  have hafter : draft.instructions (.assign :: draft.phaseStatements .changed) =
      .assign ("__" ++ Text.lowercaseFirst draft.propertyName) :: draft.announcement .changed :=
    congrArg (List.cons _) (draft.instructions_phaseStatements .changed)
  rw [changeStatements, instructions_append, instructions_append, instructions_phaseStatements,
    hafter]
  rfl

theorem instructions_guardStatements {comparison : Statement} {equalValues : String}
    (hcomparison : comparison.instruction draft.memberNames draft.propertyType =
      .returnFalseIf equalValues) :
    draft.instructions (draft.guardStatements ++ [comparison]) =
      draft.checkSequence equalValues := by
  have hlast : draft.instructions [comparison] = [.returnFalseIf equalValues] := by
    rw [instructions, List.map_singleton, hcomparison]
  rw [instructions_append, hlast, checkSequence, guardStatements]
  split <;> rfl

theorem map_declaration_storage (draft : PropertyDraft) :
    [Member.field, .accessor, .setter, .comparerSetter].map draft.declaration = draft.storage := by
  have hcomparer : draft.instructions (draft.guardStatements ++ [.returnIfEqualByComparer]) =
      draft.checkSequence ("equalityComparer.Equals(this." ++ draft.memberNames.field ++
        ", value)") :=
    instructions_guardStatements rfl
  have hsame : draft.instructions (draft.guardStatements ++ [draft.sameValueStatement]) =
      draft.checkSequence (if draft.isReference then
        "object.ReferenceEquals(this." ++ draft.memberNames.field ++ ", value)"
      else "global::System.Collections.Generic.EqualityComparer<" ++ draft.propertyType ++
        ">.Default.Equals(this." ++ draft.memberNames.field ++ ", value)") := by
    refine instructions_guardStatements ?_
    unfold sameValueStatement
    split <;> rfl
  simp only [List.map_cons, List.map_nil, declaration, instructions_changeStatements, hcomparer,
    hsame]
  rfl

theorem declarations_eq_memberSequence (h : draft.eventArgsOnly = false) :
    draft.declarations = draft.memberSequence := by
  have hargsField (phase : Phase) :
      draft.declaration (.eventArgs phase) = draft.argsField phase := rfl
  have heventField (phase : Phase) (accessibility : Accessibility) :
      draft.declaration (.event phase accessibility) = draft.eventField phase accessibility := rfl
  have hfactory (phase : Phase) (accessibility : Accessibility) :
      draft.declaration (.observable phase accessibility) =
        draft.observableFactory phase accessibility := by
    cases phase <;> rfl
  have hargs : draft.eventArgsMembers.map draft.declaration =
      (if draft.changing.notifies then [draft.argsField .changing] else []) ++
        if draft.changed.notifies then [draft.argsField .changed] else [] := by
    cases hchanging : draft.changing.notifies <;> cases hchanged : draft.changed.notifies <;>
      simp [eventArgsMembers, members, hchanging, hchanged, hargsField]
  have hredirects : draft.redirectMembers.map draft.declaration =
      draft.redirects.map draft.redirectEvent := by
    rw [redirectMembers, List.map_map]
    rfl
  have hevents : draft.eventMembers.map draft.declaration =
      (draft.changing.event.map (draft.eventField .changing)).toList ++
        (draft.changed.event.map (draft.eventField .changed)).toList := by
    cases hchanging : draft.changing.event <;> cases hchanged : draft.changed.event <;>
      simp [eventMembers, members, hchanging, hchanged, heventField]
  have hobservables : draft.observableMembers.map draft.declaration =
      (draft.changing.observable.map (draft.observableFactory .changing)).toList ++
        (draft.changed.observable.map (draft.observableFactory .changed)).toList := by
    cases hchanging : draft.changing.observable <;>
      cases hchanged : draft.changed.observable <;>
        simp [observableMembers, members, hchanging, hchanged, hfactory]
  rw [declarations, flatten_memberGroups h, memberSequence]
  simp only [List.map_append, hargs, hredirects, hevents, hobservables, map_declaration_storage,
    List.append_assoc]

end PropertyDraft

open Emission

/-- The unit of a property has exactly the members of its sequence, unless only arguments are
generated. -/
theorem emitProperty_memberSequence {host : Host} (hhost : host.NeverCancels)
    (options : EmitOptions) {descriptor : PropertyDescriptor}
    (h : descriptor.eventArgsOnly = false) :
    ∃ unit, (emitProperty options descriptor host).1 = .ok unit ∧
      unit.sourceText =
        unitText options descriptor.containingType descriptor.memberSequence := by
  rw [emitProperty_of_neverCancels hhost, PropertyDraft.declarations_eq_memberSequence h]
  exact ⟨_, rfl, rfl⟩

theorem emitProperty_memberSequence_sample :
    let descriptor := PropertyDraft.sample.build
    descriptor.eventArgsOnly = false ∧
      descriptor.changeSequence.map Code.Instruction.text =
        ["TitleChanging?.Invoke(this, global::System.EventArgs.Empty);",
          "this.PropertyChanging?.Invoke(this, __PropertyChangingEventArgs_Title);",
          "this.__title = value;",
          "TitleChanged?.Invoke(this, global::System.EventArgs.Empty);",
          "this.PropertyChanged?.Invoke(this, __PropertyChangedEventArgs_Title);",
          "return true;"] ∧
      ∃ unit, (emitProperty {} descriptor {}).1 = .ok unit ∧
        unit.sourceText = unitText {} descriptor.containingType descriptor.memberSequence := by
  have hhost : Host.NeverCancels {} := ⟨rfl, .inr rfl⟩
  exact ⟨rfl, by decide +kernel, emitProperty_memberSequence hhost {} rfl⟩

end ChangeNotification
