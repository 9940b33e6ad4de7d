import ChangeNotification.Descriptor.Draft

/-!
Descriptors: drafts in which every member that generated code refers to is declared. Observables
adapt an event and redirects forward to one, so where a draft has either without the event, the
descriptor has a private event.
-/

namespace ChangeNotification

namespace PropertyDraft

/-- Whether other members of the phase refer to its event. -/
def needsEvent (draft : PropertyDraft) (phase : Phase) : Bool :=
  (draft.members phase).observable.isSome || draft.redirects.any (·.phase = phase)

/-- The event of a phase, private if it is only needed by other members. -/
def completedEvent (draft : PropertyDraft) (phase : Phase) : Option Accessibility :=
  if draft.needsEvent phase then (draft.members phase).event.or (some .privateAccess)
  else (draft.members phase).event

def completed (draft : PropertyDraft) : PropertyDraft :=
  { draft with
    changing := { draft.changing with event := draft.completedEvent .changing }
    changed := { draft.changed with event := draft.completedEvent .changed } }

theorem members_completed (draft : PropertyDraft) (phase : Phase) :
    draft.completed.members phase =
      { draft.members phase with event := draft.completedEvent phase } := by
  cases phase <;> rfl

theorem needsEvent_completed (draft : PropertyDraft) (phase : Phase) :
    draft.completed.needsEvent phase = draft.needsEvent phase := by
  simp only [needsEvent, members_completed]
  rfl

end PropertyDraft

/-- What is generated for one property. -/
structure PropertyDescriptor extends PropertyDraft where
  event_declared : ∀ phase, toPropertyDraft.needsEvent phase →
    (toPropertyDraft.members phase).event.isSome

namespace PropertyDraft

def build (draft : PropertyDraft) : PropertyDescriptor where
  toPropertyDraft := draft.completed
  event_declared phase h := by
    rw [needsEvent_completed] at h
    cases he : (draft.members phase).event <;> simp [members_completed, completedEvent, h, he]

end PropertyDraft

namespace PropertyDescriptor

/-- Descriptors are equal when all their fields are, apart from the declaration sites, which no
generated text depends on. -/
instance : BEq PropertyDescriptor where
  beq a b :=
    a.containingType = b.containingType &&
    a.propertyName = b.propertyName &&
    a.propertyType = b.propertyType &&
    a.isReference = b.isReference &&
    a.nullability = b.nullability &&
    a.eventArgsOnly = b.eventArgsOnly &&
    a.changing.notifies = b.changing.notifies &&
    a.changed.notifies = b.changed.notifies &&
    a.changed.event = b.changed.event &&
    a.changing.event = b.changing.event &&
    a.changed.observable = b.changed.observable &&
    a.changing.observable = b.changing.observable &&
    a.redirects = b.redirects

end PropertyDescriptor

end ChangeNotification
