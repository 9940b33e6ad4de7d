import ChangeNotification.Proofs.Emission.MemberGroups
import ChangeNotification.Proofs.Emission.UnitText
import Mathlib.Data.List.Nodup

/-! # References between members

Observables, redirects and setters refer to events, and setters to arguments. Building a
descriptor declares what they refer to. -/

namespace ChangeNotification

open Emission

/-- Declarations in which every event and all arguments that are referred to are declared once, and
every setter raises each event that is declared once. -/
structure Code.IsClosed (declarations : List Declaration) : Prop where
  events : ∀ declaration ∈ declarations, ∀ event ∈ declaration.usedEvents,
    (declarations.filterMap Declaration.declaredEvent?).count event = 1
  args : ∀ declaration ∈ declarations, ∀ name ∈ declaration.usedArgs,
    (declarations.filterMap Declaration.declaredArgs?).count name = 1
  raised : ∀ declaration ∈ declarations, declaration.isSetter = true →
    ∀ event ∈ declarations.filterMap Declaration.declaredEvent?,
      declaration.usedEvents.count event = 1

/-! ## Names of the phases -/

namespace MemberNames

theorem event_injective (names : MemberNames) : Function.Injective names.event := by
  intro phase other h
  have hsuffix : phase.suffix = other.suffix := by
    simpa [event] using h
  cases phase <;> cases other <;> first | rfl | exact absurd hsuffix (by decide)

theorem eventArgs_injective (names : MemberNames) : Function.Injective names.eventArgs := by
  intro phase other h
  have hsuffix : phase.suffix = other.suffix := by
    simpa [eventArgs] using h
  cases phase <;> cases other <;> first | rfl | exact absurd hsuffix (by decide)

end MemberNames

/-! ## What is declared -/

namespace PropertyDraft

variable {draft : PropertyDraft}

/-- Redirects, observables and the storage declare nothing that others refer to. -/
theorem filterMap_declarations {α : Type} (declared : Code.Declaration → Option α)
    (hredirect : ∀ r, declared (draft.declaration (.redirect r)) = none)
    (hobservable : ∀ phase accessibility,
      declared (draft.declaration (.observable phase accessibility)) = none)
    (hstorage : [Member.field, .accessor, .setter, .comparerSetter].filterMap
      (declared ∘ draft.declaration) = [])
    (h : draft.eventArgsOnly = false) :
    draft.declarations.filterMap declared =
      draft.eventArgsMembers.filterMap (declared ∘ draft.declaration) ++
        draft.eventMembers.filterMap (declared ∘ draft.declaration) := by
  have hredirects : draft.redirectMembers.filterMap (declared ∘ draft.declaration) = [] := by
    refine List.filterMap_eq_nil_iff.mpr fun member hmember => ?_
    obtain ⟨r, -, rfl⟩ := List.mem_map.mp hmember
    exact hredirect r
  have hobservables : draft.observableMembers.filterMap (declared ∘ draft.declaration) = [] := by
    refine List.filterMap_eq_nil_iff.mpr fun member hmember => ?_
    obtain ⟨phase, accessibility, -, rfl⟩ := mem_observableMembers.mp hmember
    exact hobservable phase accessibility
  rw [declarations, List.filterMap_map, flatten_memberGroups h]
  simp only [List.filterMap_append, hredirects, hobservables, hstorage, List.append_nil]

theorem declaredEvents_eq (h : draft.eventArgsOnly = false) :
    draft.declarations.filterMap Code.Declaration.declaredEvent? =
      draft.eventPhases.map draft.memberNames.event := by
  have hargs : draft.eventArgsMembers.filterMap
      (Code.Declaration.declaredEvent? ∘ draft.declaration) = [] := by
    refine List.filterMap_eq_nil_iff.mpr fun member hmember => ?_
    obtain ⟨phase, -, rfl⟩ := mem_eventArgsMembers.mp hmember
    rfl
  have hevents : draft.eventMembers.filterMap
      (Code.Declaration.declaredEvent? ∘ draft.declaration) =
        draft.eventPhases.map draft.memberNames.event := by
    cases hchanging : (draft.members .changing).event <;>
      cases hchanged : (draft.members .changed).event <;>
        simp [eventMembers, eventPhases, declaration, hchanging, hchanged,
          Code.Declaration.declaredEvent?]
  rw [filterMap_declarations _ (fun _ => rfl) (fun phase _ => by cases phase <;> rfl) rfl h, hargs,
    hevents, List.nil_append]

theorem declaredArgs_eq (h : draft.eventArgsOnly = false) :
    draft.declarations.filterMap Code.Declaration.declaredArgs? =
      draft.notifiedPhases.map draft.memberNames.eventArgs := by
  have hargs : draft.eventArgsMembers.filterMap
      (Code.Declaration.declaredArgs? ∘ draft.declaration) =
        draft.notifiedPhases.map draft.memberNames.eventArgs := by
    rw [eventArgsMembers_eq, List.filterMap_map]
    exact congrFun List.filterMap_eq_map _
  have hevents : draft.eventMembers.filterMap
      (Code.Declaration.declaredArgs? ∘ draft.declaration) = [] := by
    refine List.filterMap_eq_nil_iff.mpr fun member hmember => ?_
    obtain ⟨phase, accessibility, -, rfl⟩ := mem_eventMembers.mp hmember
    rfl
  rw [filterMap_declarations _ (fun _ => rfl) (fun phase _ => by cases phase <;> rfl) rfl h, hargs,
    hevents, List.append_nil]

/-! ## What the setters refer to -/

/-- Where some phases have a part, a change has it once for each of these, in their order. -/
theorem filterMap_changeStatements {α : Type} {part : Code.Instruction → Option α}
    {has : Phase → Bool} {name : Phase → α}
    (hphase : ∀ phase, (draft.instructions (draft.phaseStatements phase)).filterMap part =
      if has phase then [name phase] else [])
    (hassign : part (.assign draft.memberNames.field) = none) (hreturn : part .returnTrue = none) :
    (draft.instructions draft.changeStatements).filterMap part =
      ([Phase.changing, .changed].filter has).map name := by
  have hchange : draft.changeStatements = draft.phaseStatements .changing ++ [Statement.assign] ++
      draft.phaseStatements .changed ++ [Statement.returnTrue] := by
    simp [changeStatements]
  have hsingle : (draft.instructions [.assign]).filterMap part = [] ∧
      (draft.instructions [.returnTrue]).filterMap part = [] := by
    simp [instructions, Statement.instruction, hassign, hreturn]
  simp only [hchange, instructions_append, List.filterMap_append, hsingle.1, hsingle.2,
    List.append_nil, hphase]
  cases hchanging : has .changing <;> cases hchanged : has .changed <;> simp [hchanging, hchanged]

theorem raised_changeStatements :
    (draft.instructions draft.changeStatements).filterMap Code.Instruction.raised? =
      draft.eventPhases.map draft.memberNames.event := by
  refine filterMap_changeStatements (fun phase => ?_) rfl rfl
  unfold phaseStatements
  split <;> split <;> rfl

theorem passed_changeStatements :
    (draft.instructions draft.changeStatements).filterMap Code.Instruction.passed? =
      draft.notifiedPhases.map draft.memberNames.eventArgs := by
  refine filterMap_changeStatements (fun phase => ?_) rfl rfl
  unfold phaseStatements
  split <;> split <;> rfl

/-- Guards and comparisons neither raise events nor pass arguments on. -/
theorem filterMap_guardStatements {α : Type} (part : Code.Instruction → Option α)
    (hguard : part .refuseNull = none) {comparison : Statement}
    (hcomparison : part (comparison.instruction draft.memberNames draft.propertyType) = none) :
    (draft.instructions (draft.guardStatements ++ [comparison])).filterMap part = [] := by
  have hnull : part (Statement.nullGuard.instruction draft.memberNames draft.propertyType) = none :=
    hguard
  unfold guardStatements
  split <;> simp [instructions, hnull, hcomparison]

/-- Both setters raise the declared events and pass on the declared arguments. -/
theorem used_of_isSetter {member : Member} (h : (draft.declaration member).isSetter = true) :
    (draft.declaration member).usedEvents = draft.eventPhases.map draft.memberNames.event ∧
      (draft.declaration member).usedArgs =
        draft.notifiedPhases.map draft.memberNames.eventArgs := by
  have hraised {comparison : Statement}
      (hcomparison : (comparison.instruction draft.memberNames draft.propertyType).raised? = none) :
      (draft.instructions (draft.guardStatements ++ [comparison]) ++
          draft.instructions draft.changeStatements).filterMap Code.Instruction.raised? =
        draft.eventPhases.map draft.memberNames.event := by
    rw [List.filterMap_append, filterMap_guardStatements _ rfl hcomparison,
      raised_changeStatements, List.nil_append]
  have hpassed {comparison : Statement}
      (hcomparison : (comparison.instruction draft.memberNames draft.propertyType).passed? = none) :
      (draft.instructions (draft.guardStatements ++ [comparison]) ++
          draft.instructions draft.changeStatements).filterMap Code.Instruction.passed? =
        draft.notifiedPhases.map draft.memberNames.eventArgs := by
    rw [List.filterMap_append, filterMap_guardStatements _ rfl hcomparison,
      passed_changeStatements, List.nil_append]
  cases member with
  | setter =>
      refine ⟨hraised ?_, hpassed ?_⟩ <;>
      · unfold sameValueStatement
        split <;> rfl
  | comparerSetter => exact ⟨hraised rfl, hpassed rfl⟩
  | observable phase => cases phase <;> contradiction
  | _ => contradiction

theorem filter_isSetter (h : draft.eventArgsOnly = false) :
    draft.declarations.filter Code.Declaration.isSetter =
      [draft.declaration .setter, draft.declaration .comparerSetter] := by
  have hothers : ((draft.eventArgsMembers ++ draft.redirectMembers ++ draft.eventMembers ++
      draft.observableMembers).map draft.declaration).filter Code.Declaration.isSetter = [] := by
    refine List.filter_eq_nil_iff.mpr fun declaration hdeclaration => ?_
    obtain ⟨member, hmember, rfl⟩ := List.mem_map.mp hdeclaration
    simp only [List.mem_append, mem_eventArgsMembers, mem_eventMembers, mem_observableMembers,
      redirectMembers, List.mem_map] at hmember
    rcases hmember with ((⟨phase, -, rfl⟩ | ⟨r, -, rfl⟩) | ⟨phase, _, -, rfl⟩) | ⟨phase, _, -, rfl⟩
    · exact Bool.false_ne_true
    · exact Bool.false_ne_true
    · exact Bool.false_ne_true
    · cases phase <;> exact Bool.false_ne_true
  rw [declarations, flatten_memberGroups h, List.map_append, List.filter_append, hothers]
  rfl

theorem declarations_of_eventArgsOnly (h : draft.eventArgsOnly = true) :
    draft.declarations = draft.notifiedPhases.map fun phase =>
      .argsField (Member.eventArgsType phase) (draft.memberNames.eventArgs phase)
        draft.propertyName := by
  rw [declarations, flatten_memberGroups_of_eventArgsOnly h, eventArgsMembers_eq, List.map_map]
  rfl

end PropertyDraft

/-! ## Descriptors -/

namespace PropertyDescriptor

variable {descriptor : PropertyDescriptor}

theorem mem_eventPhases_of_needsEvent {phase : Phase} (h : descriptor.needsEvent phase = true) :
    phase ∈ descriptor.eventPhases :=
  PropertyDraft.mem_eventPhases.mpr (descriptor.event_declared phase h)

/-- The completion of a descriptor covers redirects and observables; setters never raise an event
that is not there. -/
theorem mem_declared_of_mem_usedEvents {member : Member}
    (hmember : member ∈ descriptor.memberGroups.flatten) {event : String}
    (h : event ∈ (descriptor.declaration member).usedEvents) :
    event ∈ descriptor.eventPhases.map descriptor.memberNames.event := by
  cases member with
  | redirect r =>
      have hr := PropertyDraft.mem_redirects_of_mem_memberGroups hmember
      have hneeds : descriptor.needsEvent r.phase = true := by
        simp only [PropertyDraft.needsEvent, Bool.or_eq_true, List.any_eq_true]
        exact .inr ⟨r, hr, by simp⟩
      have hname : event = descriptor.memberNames.event r.phase := by
        simpa [PropertyDraft.declaration, Code.Declaration.usedEvents] using h
      rw [hname]
      exact List.mem_map_of_mem (mem_eventPhases_of_needsEvent hneeds)
  | observable phase accessibility =>
      have hobservable := PropertyDraft.observable_of_mem_memberGroups hmember
      have hneeds : descriptor.needsEvent phase = true := by
        simp [PropertyDraft.needsEvent, hobservable]
      have hname : event = descriptor.memberNames.event phase := by
        cases phase <;> simpa [PropertyDraft.declaration, Code.Declaration.usedEvents] using h
      rw [hname]
      exact List.mem_map_of_mem (mem_eventPhases_of_needsEvent hneeds)
  | setter | comparerSetter => rwa [(PropertyDraft.used_of_isSetter rfl).1] at h
  | eventArgs | event | field | accessor => exact absurd h List.not_mem_nil

theorem mem_declared_of_mem_usedArgs {member : Member} {name : String}
    (h : name ∈ (descriptor.declaration member).usedArgs) :
    name ∈ descriptor.notifiedPhases.map descriptor.memberNames.eventArgs := by
  cases member with
  | setter | comparerSetter => rwa [(PropertyDraft.used_of_isSetter rfl).2] at h
  | observable phase => cases phase <;> exact absurd h List.not_mem_nil
  | eventArgs | redirect | event | field | accessor => exact absurd h List.not_mem_nil

theorem isClosed_declarations (h : descriptor.eventArgsOnly = false) :
    Code.IsClosed descriptor.declarations := by
  have hevents : (descriptor.eventPhases.map descriptor.memberNames.event).Nodup :=
    (descriptor.nodup_eventPhases).map descriptor.memberNames.event_injective
  have hargs : (descriptor.notifiedPhases.map descriptor.memberNames.eventArgs).Nodup :=
    (descriptor.nodup_notifiedPhases).map descriptor.memberNames.eventArgs_injective
  refine ⟨?_, ?_, ?_⟩
  · intro declaration hdeclaration event hevent
    obtain ⟨member, hmember, rfl⟩ := List.mem_map.mp hdeclaration
    rw [PropertyDraft.declaredEvents_eq h]
    exact List.count_eq_one_of_mem hevents (mem_declared_of_mem_usedEvents hmember hevent)
  · intro declaration hdeclaration name hname
    obtain ⟨member, -, rfl⟩ := List.mem_map.mp hdeclaration
    rw [PropertyDraft.declaredArgs_eq h]
    exact List.count_eq_one_of_mem hargs (mem_declared_of_mem_usedArgs hname)
  · intro declaration hdeclaration hsetter event hevent
    obtain ⟨member, -, rfl⟩ := List.mem_map.mp hdeclaration
    rw [PropertyDraft.declaredEvents_eq h] at hevent
    rw [(PropertyDraft.used_of_isSetter hsetter).1]
    exact List.count_eq_one_of_mem hevents hevent

end PropertyDescriptor

/-- However a descriptor was built, the code that is generated for it refers to nothing that it does
not declare; for arguments alone it is nothing but their fields. -/
theorem emitProperty_build_isClosed {host : Host} (hhost : host.NeverCancels)
    (options : EmitOptions) (draft : PropertyDraft) (steps : List PropertyDraft.Step) :
    let descriptor := (draft.applyAll steps).build
    ∃ unit, (emitProperty options descriptor host).1 = .ok unit ∧
      unit.sourceText = unitText options descriptor.containingType descriptor.declarations ∧
      (descriptor.eventArgsOnly = false → Code.IsClosed descriptor.declarations ∧
        (descriptor.declarations.filter Code.Declaration.isSetter).length = 2) ∧
      (descriptor.eventArgsOnly = true → ∀ declaration ∈ descriptor.declarations,
        ∃ type name property, declaration = .argsField type name property) := by
  intro descriptor
  rw [emitProperty_of_neverCancels hhost]
  refine ⟨_, rfl, rfl, fun h => ⟨descriptor.isClosed_declarations h, ?_⟩, fun h => ?_⟩
  · rw [PropertyDraft.filter_isSetter h]
    rfl
  · rw [PropertyDraft.declarations_of_eventArgsOnly h]
    intro declaration hdeclaration
    obtain ⟨phase, -, rfl⟩ := List.mem_map.mp hdeclaration
    exact ⟨_, _, _, rfl⟩

theorem emitProperty_build_isClosed_sample :
    let descriptor := (PropertyDraft.sample.applyAll [.event .changed none]).build
    descriptor.eventArgsOnly = false ∧
      descriptor.declarations.filterMap Code.Declaration.declaredEvent? =
        ["TitleChanging", "TitleChanged"] ∧
      Code.IsClosed descriptor.declarations := by
  have hhost : Host.NeverCancels {} := ⟨rfl, .inr rfl⟩
  obtain ⟨_, -, -, hclosed, -⟩ :=
    emitProperty_build_isClosed hhost {} PropertyDraft.sample [.event .changed none]
  exact ⟨rfl, by decide, (hclosed rfl).1⟩

end ChangeNotification
