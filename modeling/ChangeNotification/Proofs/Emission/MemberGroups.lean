import ChangeNotification.Emission.Member

/-! # The groups of members

Which members a draft has, group by group. -/

namespace ChangeNotification.PropertyDraft

/-- The phases with an event, in the order of the text. -/
def eventPhases (draft : PropertyDraft) : List Phase :=
  [Phase.changing, .changed].filter fun phase => (draft.members phase).event.isSome

/-- The phases whose interface is notified, in the order of the text. -/
def notifiedPhases (draft : PropertyDraft) : List Phase :=
  [Phase.changing, .changed].filter fun phase => (draft.members phase).notifies

variable {draft : PropertyDraft}

/-! ## Phases -/

theorem mem_eventPhases {phase : Phase} :
    phase ∈ draft.eventPhases ↔ (draft.members phase).event.isSome = true := by
  cases phase <;> simp [eventPhases]

theorem mem_notifiedPhases {phase : Phase} :
    phase ∈ draft.notifiedPhases ↔ (draft.members phase).notifies = true := by
  cases phase <;> simp [notifiedPhases]

theorem nodup_eventPhases (draft : PropertyDraft) : draft.eventPhases.Nodup :=
  List.Nodup.sublist List.filter_sublist (by decide)

theorem nodup_notifiedPhases (draft : PropertyDraft) : draft.notifiedPhases.Nodup :=
  List.Nodup.sublist List.filter_sublist (by decide)

/-! ## Groups -/

theorem eventArgsMembers_eq : draft.eventArgsMembers = draft.notifiedPhases.map .eventArgs := by
  cases hchanging : (draft.members .changing).notifies <;>
    cases hchanged : (draft.members .changed).notifies <;>
      simp [eventArgsMembers, notifiedPhases, hchanging, hchanged]

theorem mem_eventArgsMembers {member : Member} : member ∈ draft.eventArgsMembers ↔
    ∃ phase, (draft.members phase).notifies = true ∧ member = .eventArgs phase := by
  simp only [eventArgsMembers_eq, List.mem_map, mem_notifiedPhases]
  exact ⟨fun ⟨phase, h, hmember⟩ => ⟨phase, h, hmember.symm⟩,
    fun ⟨phase, h, hmember⟩ => ⟨phase, h, hmember.symm⟩⟩

/-- The members of a part that phases may have. -/
theorem mem_flatMap_phases {part : Phase → Option Accessibility}
    {written : Phase → Accessibility → Member} {member : Member} :
    (member ∈ [Phase.changing, .changed].flatMap fun phase =>
        ((part phase).map (written phase)).toList) ↔
      ∃ phase accessibility, part phase = some accessibility ∧
        member = written phase accessibility := by
  constructor
  · intro h
    obtain ⟨phase, -, h⟩ := List.mem_flatMap.mp h
    obtain ⟨accessibility, hpart, rfl⟩ := Option.map_eq_some_iff.mp (Option.mem_toList.mp h)
    exact ⟨phase, accessibility, hpart, rfl⟩
  · rintro ⟨phase, accessibility, hpart, rfl⟩
    cases phase <;> simp [hpart]

theorem mem_eventMembers {member : Member} : member ∈ draft.eventMembers ↔
    ∃ phase accessibility, (draft.members phase).event = some accessibility ∧
      member = .event phase accessibility :=
  mem_flatMap_phases

theorem mem_observableMembers {member : Member} : member ∈ draft.observableMembers ↔
    ∃ phase accessibility, (draft.members phase).observable = some accessibility ∧
      member = .observable phase accessibility :=
  mem_flatMap_phases

theorem flatten_memberGroups (h : draft.eventArgsOnly = false) :
    draft.memberGroups.flatten = draft.eventArgsMembers ++ draft.redirectMembers ++
      draft.eventMembers ++ draft.observableMembers ++
        [Member.field, Member.accessor, Member.setter, Member.comparerSetter] := by
  simp [memberGroups, h]

theorem flatten_memberGroups_of_eventArgsOnly (h : draft.eventArgsOnly = true) :
    draft.memberGroups.flatten = draft.eventArgsMembers := by
  simp [memberGroups, h]

theorem mem_redirects_of_mem_memberGroups {r : EventRedirect}
    (h : .redirect r ∈ draft.memberGroups.flatten) : r ∈ draft.redirects := by
  cases honly : draft.eventArgsOnly with
  | true => simp [flatten_memberGroups_of_eventArgsOnly honly, mem_eventArgsMembers] at h
  | false =>
      simpa [flatten_memberGroups honly, mem_eventArgsMembers, mem_eventMembers,
        mem_observableMembers, redirectMembers] using h

theorem observable_of_mem_memberGroups {phase : Phase} {accessibility : Accessibility}
    (h : .observable phase accessibility ∈ draft.memberGroups.flatten) :
    (draft.members phase).observable = some accessibility := by
  cases honly : draft.eventArgsOnly with
  | true => simp [flatten_memberGroups_of_eventArgsOnly honly, mem_eventArgsMembers] at h
  | false =>
      simpa [flatten_memberGroups honly, mem_eventArgsMembers, mem_eventMembers,
        mem_observableMembers, redirectMembers] using h

end ChangeNotification.PropertyDraft
