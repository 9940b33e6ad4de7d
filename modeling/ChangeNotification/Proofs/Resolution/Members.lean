import ChangeNotification.Proofs.Resolution.Steps
import ChangeNotification.Proofs.Resolution.Subject

/-! # Members that attributes ask for

The attributes of a property decide on its events and observables: of those of one class the last
counts, and an event that no attribute declares is private where it is needed. -/

namespace ChangeNotification

/-! ## The last attribute of a role -/

/-- The accessibility that is asked for by the last of several rows of arguments, and none by no
row. -/
inductive AsksLast (default : Accessibility) :
    List (List AttributeValue) → Option Accessibility → Prop
  | nothing : AsksLast default [] none
  | last {rows : List (List AttributeValue)} {arguments : List AttributeValue}
      {level : Accessibility} (hlast : rows.getLast? = some arguments)
      (h : AsksLevel default arguments level) : AsksLast default rows (some level)

theorem AsksLevel.unique {default level other : Accessibility} {arguments : List AttributeValue}
    (h : AsksLevel default arguments level) (hother : AsksLevel default arguments other) :
    level = other := by
  have hsettles := Attribute.accessibility_settles ⟨"", arguments, ∅⟩ "" default
  have hlevel := hsettles.eq_ok_iff.mpr ⟨level, rfl, h⟩
  have heq := hlevel.symm.trans (hsettles.eq_ok_iff.mpr ⟨other, rfl, hother⟩)
  exact Option.some.inj (Except.ok.inj heq)

theorem AsksLast.unique {default : Accessibility} {rows : List (List AttributeValue)}
    {asked other : Option Accessibility} (h : AsksLast default rows asked)
    (hother : AsksLast default rows other) : asked = other := by
  cases h with
  | nothing =>
      cases hother with
      | nothing => rfl
      | last hlast => cases hlast
  | last hlast h =>
      cases hother with
      | nothing => cases hlast
      | last hlast' h' =>
          obtain rfl := Option.some.inj (hlast.symm.trans hlast')
          rw [h.unique h']

theorem AsksLast.eq_none_iff {default : Accessibility} {rows : List (List AttributeValue)}
    {asked : Option Accessibility} (h : AsksLast default rows asked) : asked = none ↔ rows = [] := by
  cases h with
  | nothing => simp
  | last hlast =>
      have hne : rows ≠ [] := by
        rintro rfl
        cases hlast
      simp [hne]

theorem exists_getLast?_of_forall₂ {α β : Type} {R : α → β → Prop} {list : List α}
    {results : List β} (h : List.Forall₂ R list results) {last : β}
    (hlast : results.getLast? = some last) : ∃ item, list.getLast? = some item ∧ R item last := by
  induction h with
  | nil => cases hlast
  | cons hitem hrest ih =>
      cases hrest with
      | nil =>
          cases hlast
          exact ⟨_, rfl, hitem⟩
      | cons => exact ih hlast

namespace PropertyFacts

variable {facts : PropertyFacts} {steps : List PropertyDraft.Step}

/-- The arguments of the attributes of a role, in their order. -/
def argumentsOf (facts : PropertyFacts) (role : AttributeRole) : List (List AttributeValue) :=
  (facts.attributes.filter (·.isOf role.className)).map Attribute.constructorArguments

theorem mem_argumentsOf_iff {role : AttributeRole} {arguments : List AttributeValue} :
    arguments ∈ facts.argumentsOf role ↔ ∃ attr ∈ facts.attributes,
      attr.isOf role.className = true ∧ attr.constructorArguments = arguments := by
  simp only [argumentsOf, List.mem_map, List.mem_filter, and_assoc]

theorem asksLast_of_attributeSteps (h : facts.attributeSteps = .ok steps) {role : AttributeRole}
    (hrole : role.declaresMember = true) {draft : PropertyDraft}
    (hdraft : draft.accessibilityOf role = none) :
    AsksLast facts.defaultAccessibility (facts.argumentsOf role)
      ((draft.applyAll steps).accessibilityOf role) := by
  have hne : role ≠ .enable := by
    rintro rfl
    cases hrole
  have hsteps := forall₂_asksFor_of_role h hne
  rw [PropertyDraft.accessibilityOf_applyAll, hdraft, argumentsOf]
  cases hlast : (steps.filter (·.role? = some role)).getLast? with
  | none =>
      rw [List.getLast?_eq_none_iff.mp hlast, List.forall₂_nil_right_iff] at hsteps
      rw [hsteps]
      exact .nothing
  | some step =>
      obtain ⟨attr, hattr, hstep⟩ := exists_getLast?_of_forall₂ hsteps hlast
      have harguments : ((facts.attributes.filter (·.isOf role.className)).map
          Attribute.constructorArguments).getLast? = some attr.constructorArguments := by
        rw [List.getLast?_map, hattr, Option.map_some]
      cases hstep with
      | event _ h | observable _ h => exact .last harguments h
      | redirect hclass =>
          have hmem := List.mem_filter.mp (List.mem_of_getLast? hattr)
          cases Attribute.isOf_unique hclass hmem.2
          cases hrole

/-! ## Members of a phase -/

/-- What the interfaces of the type and the attributes of a phase ask for in it. -/
structure Decides (facts : PropertyFacts) (phase : Phase) (members : PhaseMembers) : Prop where
  notifies : members.notifies = facts.containingType.implements (Vocabulary.notifyInterface phase)
  observable : AsksLast facts.defaultAccessibility (facts.argumentsOf (.observable phase))
    members.observable
  event_declared : facts.argumentsOf (.event phase) ≠ [] →
    AsksLast facts.defaultAccessibility (facts.argumentsOf (.event phase)) members.event
  event_needed : facts.argumentsOf (.event phase) = [] →
    facts.argumentsOf (.observable phase) ≠ [] ∨ facts.argumentsOf (.redirect phase) ≠ [] →
    members.event = some .privateAccess
  event_absent : facts.argumentsOf (.event phase) = [] →
    facts.argumentsOf (.observable phase) = [] → facts.argumentsOf (.redirect phase) = [] →
    members.event = none

/-- Facts that agree on the attributes of a phase decide alike on its members. -/
theorem Decides.unique {other : PropertyFacts} {phase : Phase} {members members' : PhaseMembers}
    (h : facts.Decides phase members) (h' : other.Decides phase members')
    (htype : ∀ interface, facts.containingType.implements interface =
      other.containingType.implements interface)
    (hdefault : facts.defaultAccessibility = other.defaultAccessibility)
    (hevent : facts.argumentsOf (.event phase) = other.argumentsOf (.event phase))
    (hobservable : facts.argumentsOf (.observable phase) = other.argumentsOf (.observable phase))
    (hredirect : facts.argumentsOf (.redirect phase) = other.argumentsOf (.redirect phase)) :
    members = members' := by
  obtain ⟨notifies, hobservable₁, hdeclared, hneeded, habsent⟩ := h
  obtain ⟨notifies', hobservable₂, hdeclared', hneeded', habsent'⟩ := h'
  rw [← htype] at notifies'
  rw [← hdefault, ← hobservable] at hobservable₂
  rw [← hdefault, ← hevent] at hdeclared'
  rw [← hevent, ← hobservable, ← hredirect] at hneeded' habsent'
  have heq : members.event = members'.event := by
    by_cases hnone : facts.argumentsOf (.event phase) = []
    · by_cases hneeds : facts.argumentsOf (.observable phase) ≠ [] ∨
          facts.argumentsOf (.redirect phase) ≠ []
      · rw [hneeded hnone hneeds, hneeded' hnone hneeds]
      · rw [not_or, not_not, not_not] at hneeds
        rw [habsent hnone hneeds.1 hneeds.2, habsent' hnone hneeds.1 hneeds.2]
    · exact (hdeclared hnone).unique (hdeclared' hnone)
  cases members
  cases members'
  cases notifies.trans notifies'.symm
  cases hobservable₁.unique hobservable₂
  cases heq
  rfl

/-! ## Resolved facts -/

/-- The draft of a property whose attributes have not asked for members yet. -/
def plainDraft (facts : PropertyFacts) (only : Bool) : PropertyDraft :=
  (facts.draft.applyAll facts.typeSteps).apply (.eventArgsOnly only)

theorem accessibilityOf_plainDraft (facts : PropertyFacts) (only : Bool) (role : AttributeRole) :
    (facts.plainDraft only).accessibilityOf role = none := by
  cases role with
  | event phase | observable phase => cases phase <;> rfl
  | enable | redirect => rfl

theorem notifies_plainDraft (facts : PropertyFacts) (only : Bool) (phase : Phase) :
    ((facts.plainDraft only).members phase).notifies =
      facts.containingType.implements (Vocabulary.notifyInterface phase) := by
  cases phase <;> rfl

theorem redirects_plainDraft (facts : PropertyFacts) (only : Bool) :
    (facts.plainDraft only).redirects = [] :=
  rfl

theorem withoutMembers_plainDraft (facts : PropertyFacts) (only : Bool) :
    (facts.plainDraft only).withoutMembers =
      { facts.draft with
        isReference := facts.propertyType.kind.isReference
        nullability := facts.settledNullability
        eventArgsOnly := only
        declarationSites := facts.declarationSites } :=
  rfl

theorem exists_steps_of_resolve {descriptor : PropertyDescriptor}
    (h : facts.resolve = .ok descriptor) : ∃ enabling only steps,
      facts.enablingAttribute? = some enabling ∧ enabling.eventArgsOnly facts.name = .ok only ∧
      facts.attributeSteps = .ok steps ∧
      descriptor = ((facts.plainDraft only).applyAll steps).build := by
  obtain ⟨enabling, only, steps, -, henabling, honly, hsteps, rfl⟩ := resolve_eq_ok h
  refine ⟨enabling, only, steps, henabling, honly, hsteps, congrArg PropertyDraft.build ?_⟩
  exact List.foldl_append

/-- Beside its members a descriptor follows from types and places, and from what the first enabling
attribute says about event arguments. -/
theorem subject_of_resolve {descriptor : PropertyDescriptor} (h : facts.resolve = .ok descriptor) :
    ∃ enabling, facts.enablingAttribute? = some enabling ∧
      AsksEventArgsOnly (enabling.namedArguments.find? "EventArgsOnly") descriptor.eventArgsOnly ∧
      descriptor.withoutMembers = (facts.plainDraft descriptor.eventArgsOnly).withoutMembers := by
  obtain ⟨enabling, only, steps, henabling, honly, hsteps, rfl⟩ := exists_steps_of_resolve h
  have hplain := PropertyDraft.withoutMembers_applyAll (isMemberStep_of_mem_attributeSteps hsteps)
    (facts.plainDraft only)
  have hkept : ((facts.plainDraft only).applyAll steps).build.eventArgsOnly = only :=
    congrArg PropertyDraft.eventArgsOnly hplain
  rw [hkept]
  exact ⟨enabling, henabling, (enabling.eventArgsOnly_settles facts.name).eq_ok_iff.mp honly, hplain⟩

theorem needsEvent_applyAll_iff (h : facts.attributeSteps = .ok steps) (only : Bool)
    (phase : Phase) :
    ((facts.plainDraft only).applyAll steps).needsEvent phase = true ↔
      facts.argumentsOf (.observable phase) ≠ [] ∨ facts.argumentsOf (.redirect phase) ≠ [] := by
  have hobservable := asksLast_of_attributeSteps h rfl
    (facts.accessibilityOf_plainDraft only (.observable phase))
  have hredirects := forall₂_redirects_of_phase (forall₂_redirects_of_attributeSteps h) phase
  have hnone : facts.argumentsOf (.redirect phase) = [] ↔
      (steps.filterMap PropertyDraft.Step.redirect?).filter (·.phase = phase) = [] := by
    rw [argumentsOf, List.map_eq_nil_iff]
    constructor
    · intro hnil
      rwa [hnil, List.forall₂_nil_left_iff] at hredirects
    · intro hnil
      rwa [hnil, List.forall₂_nil_right_iff] at hredirects
  rw [PropertyDraft.needsEvent, Bool.or_eq_true, PropertyDraft.redirects_applyAll,
    redirects_plainDraft, List.nil_append]
  refine or_congr ?_ ?_
  · rw [ne_eq, ← hobservable.eq_none_iff, ← ne_eq, ← Option.isSome_iff_ne_none]
    rfl
  · rw [ne_eq, hnone, List.filter_eq_nil_iff]
    simp only [List.any_eq_true, not_forall, not_not, exists_prop]

theorem redirects_of_resolve {descriptor : PropertyDescriptor}
    (h : facts.resolve = .ok descriptor) :
    List.Forall₂ Attribute.Redirects (facts.attributes.filter Attribute.isRedirect)
      descriptor.redirects := by
  obtain ⟨-, only, steps, -, -, hsteps, rfl⟩ := exists_steps_of_resolve h
  have hredirects : ((facts.plainDraft only).applyAll steps).build.redirects =
      steps.filterMap PropertyDraft.Step.redirect? :=
    (facts.plainDraft only).redirects_applyAll steps
  rw [hredirects]
  exact forall₂_redirects_of_attributeSteps hsteps

theorem decides_of_resolve {descriptor : PropertyDescriptor} (h : facts.resolve = .ok descriptor)
    (phase : Phase) : facts.Decides phase (descriptor.members phase) := by
  obtain ⟨-, only, steps, -, -, hsteps, rfl⟩ := exists_steps_of_resolve h
  have hlast (role : AttributeRole) (hrole : role.declaresMember = true) :=
    asksLast_of_attributeSteps hsteps hrole (facts.accessibilityOf_plainDraft only role)
  have hevent := hlast (.event phase) rfl
  have hneeds := needsEvent_applyAll_iff hsteps only phase
  have hnotifies := PropertyDraft.notifies_applyAll (facts.plainDraft only)
    (isSome_role?_of_attributeSteps hsteps) phase
  generalize (facts.plainDraft only).applyAll steps = draft at hlast hevent hneeds hnotifies ⊢
  -- Building completes the event alone, and leaves it where it is declared.
  have hmembers : draft.build.members phase =
      { draft.members phase with event := draft.completedEvent phase } :=
    draft.members_completed phase
  have hdeclared : (draft.members phase).event = none ↔ facts.argumentsOf (.event phase) = [] :=
    hevent.eq_none_iff
  rw [hmembers]
  exact {
    notifies := hnotifies.trans (facts.notifies_plainDraft only phase)
    observable := hlast (.observable phase) rfl
    event_declared := by
      intro hsome
      obtain ⟨level, hlevel⟩ := Option.ne_none_iff_exists'.mp (mt hdeclared.mp hsome)
      show AsksLast _ _ (draft.completedEvent phase)
      rw [PropertyDraft.completedEvent_of_declared hlevel, ← hlevel]
      exact hevent
    event_needed := fun hnone hneeded =>
      PropertyDraft.completedEvent_of_needed (hdeclared.mpr hnone) (hneeds.mpr hneeded)
    event_absent := by
      intro hnone hobservable hredirect
      have hidle : ¬ draft.needsEvent phase = true := by
        rw [hneeds, hobservable, hredirect]
        simp
      exact (PropertyDraft.completedEvent_of_not_needed hidle).trans (hdeclared.mpr hnone) }

end PropertyFacts

/-! ## All members -/

/-- Whether an attribute is of a class that asks for members of a phase. -/
def Attribute.isOfPhase (attr : Attribute) (phase : Phase) : Bool :=
  attr.isOf (AttributeRole.className (.event phase)) ||
    attr.isOf (AttributeRole.className (.observable phase)) ||
    attr.isOf (AttributeRole.className (.redirect phase))

namespace PropertyFacts

variable {facts : PropertyFacts}

/-- The attributes of a property decide on its events, observables and redirects: the last of a
class on the accessibility of its member, those of a phase on nothing outside of the phase. An
accessibility that is asked for is never none. -/
theorem members_of_resolve {descriptor : PropertyDescriptor} (h : facts.resolve = .ok descriptor) :
    (∀ phase, facts.Decides phase (descriptor.members phase)) ∧
    List.Forall₂ Attribute.Redirects (facts.attributes.filter Attribute.isRedirect)
      descriptor.redirects ∧
    (∀ phase attributes other, { facts with attributes }.resolve = .ok other →
      attributes.filter (·.isOfPhase phase) = facts.attributes.filter (·.isOfPhase phase) →
        other.members phase = descriptor.members phase ∧
        other.redirects.filter (·.phase = phase) =
          descriptor.redirects.filter (·.phase = phase)) ∧
    ∀ attr : Attribute,
      attr.accessibility facts.name (some facts.defaultAccessibility) ≠ .ok none := by
  refine ⟨decides_of_resolve h, redirects_of_resolve h,
    fun phase attributes other hother hphase => ?_, fun attr hnone => ?_⟩
  · have hattributes (role : AttributeRole) (hrole : ∀ attr : Attribute,
        attr.isOf role.className = true → attr.isOfPhase phase = true) :
        attributes.filter (·.isOf role.className) =
          facts.attributes.filter (·.isOf role.className) := by
      rw [← filter_filter_of_imp hrole, hphase, filter_filter_of_imp hrole]
    have hredirect := hattributes (.redirect phase)
      fun attr hclass => by simp [Attribute.isOfPhase, hclass]
    constructor
    · refine (decides_of_resolve hother phase).unique (decides_of_resolve h phase) (fun _ => rfl) rfl
        (congrArg _ (hattributes _ ?_)) (congrArg _ (hattributes _ ?_)) (congrArg _ hredirect)
      · intro attr hclass
        simp [Attribute.isOfPhase, hclass]
      · intro attr hclass
        simp [Attribute.isOfPhase, hclass]
    · have hthis := forall₂_redirects_of_phase (redirects_of_resolve hother) phase
      have hthat := forall₂_redirects_of_phase (redirects_of_resolve h) phase
      rw [← hredirect] at hthat
      have hunique : Relator.RightUnique Attribute.Redirects :=
        fun _ _ _ => Attribute.Redirects.unique
      exact List.right_unique_forall₂' hunique hthis hthat
  · have hsettles := attr.accessibility_settles facts.name facts.defaultAccessibility
    obtain ⟨level, hlevel, -⟩ := hsettles.eq_ok_iff.mp hnone
    cases hlevel

/-- A property with an observable of its changes, but no event that is asked for. -/
def sampleObservable : PropertyFacts :=
  { sample .unknown with
    attributes := (sample .unknown).attributes ++
      [{ className := AttributeRole.className (.observable .changed)
         constructorArguments := [.text "Protected"] }] }

/-- The same property with an event before its changes. -/
def sampleChangingEvent : PropertyFacts :=
  { sampleObservable with
    attributes := { className := AttributeRole.className (.event .changing) } ::
      sampleObservable.attributes }

theorem members_of_resolve_sampleObservable :
    ∃ descriptor other, sampleObservable.resolve = .ok descriptor ∧
      sampleChangingEvent.resolve = .ok other ∧
      (descriptor.members .changed).event = some .privateAccess ∧
      (descriptor.members .changing).event = none ∧
      other.members .changed = descriptor.members .changed := by
  obtain ⟨descriptor, h⟩ : ∃ descriptor, sampleObservable.resolve = .ok descriptor := ⟨_, rfl⟩
  obtain ⟨other, hother⟩ : ∃ other, sampleChangingEvent.resolve = .ok other := ⟨_, rfl⟩
  obtain ⟨hdecides, -, hphase, -⟩ := members_of_resolve h
  refine ⟨descriptor, other, h, hother, (hdecides .changed).event_needed rfl (.inl (by decide)),
    (hdecides .changing).event_absent rfl rfl rfl, ?_⟩
  exact (hphase .changed sampleChangingEvent.attributes other hother (by decide)).1

end PropertyFacts

end ChangeNotification
