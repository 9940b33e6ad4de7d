import ChangeNotification.Descriptor.Basic
import Mathlib.Data.List.Induction

/-! # Drafts by their last writes

A step overwrites a field of a draft or adds to a list. After a row of steps each field holds what was
written to it last, whatever came in between, and the lists hold all that was added, in order. Building
decides on the events from that, and leaves the draft as it was. -/

namespace ChangeNotification

namespace PropertyDraft

/-! ## What steps write -/

namespace Step

/-- What a step says about the type of the property: whether it is a reference, and its
nullability. -/
def typeFacts? : Step → Option (Bool × Nullability)
  | typeFacts isReference nullability => some (isReference, nullability)
  | eventArgsOnly .. | notifies .. | event .. | observable .. | redirect ..
  | declarationSites .. => none

def eventArgsOnly? : Step → Option Bool
  | eventArgsOnly only => some only
  | typeFacts .. | notifies .. | event .. | observable .. | redirect ..
  | declarationSites .. => none

/-- What a step writes about the interface of a phase. -/
def notifies? (phase : Phase) : Step → Option Bool
  | notifies other enabled => if other = phase then some enabled else none
  | typeFacts .. | eventArgsOnly .. | event .. | observable .. | redirect ..
  | declarationSites .. => none

/-- What a step writes as the accessibility of the event of a phase; that may be none. -/
def event? (phase : Phase) : Step → Option (Option Accessibility)
  | event other accessibility => if other = phase then some accessibility else none
  | typeFacts .. | eventArgsOnly .. | notifies .. | observable .. | redirect ..
  | declarationSites .. => none

def observable? (phase : Phase) : Step → Option (Option Accessibility)
  | observable other accessibility => if other = phase then some accessibility else none
  | typeFacts .. | eventArgsOnly .. | notifies .. | event .. | redirect ..
  | declarationSites .. => none

/-- The redirect that a step adds. -/
def redirect? : Step → Option EventRedirect
  | redirect asked => some asked
  | event .. | observable .. | typeFacts .. | eventArgsOnly .. | notifies ..
  | declarationSites .. => none

/-- The places that a step adds. -/
def sites : Step → List SourceLocation
  | declarationSites sites => sites
  | typeFacts .. | eventArgsOnly .. | notifies .. | event .. | observable .. | redirect .. => []

/-- The phase that a step belongs to, if it belongs to one. -/
def phase? : Step → Option Phase
  | notifies phase _ | event phase _ | observable phase _ => some phase
  | redirect asked => some asked.phase
  | typeFacts .. | eventArgsOnly .. | declarationSites .. => none

end Step

/-- The last value that steps write, or else the initial one. -/
def lastWrite {α : Type} (write : Step → Option α) (initial : α) (steps : List Step) : α :=
  (steps.filterMap write).getLast?.getD initial

theorem lastWrite_concat {α : Type} (write : Step → Option α) (initial : α) (steps : List Step)
    (step : Step) :
    lastWrite write initial (steps ++ [step]) =
      (write step).getD (lastWrite write initial steps) := by
  rw [lastWrite, List.filterMap_append]
  cases hwrite : write step with
  | none => simp [hwrite, lastWrite]
  | some value => simp [hwrite]

/-- Steps that write nothing do not count. -/
theorem filterMap_filter_of_none {α : Type} {write : Step → Option α} {p : Step → Bool}
    (h : ∀ step, p step = false → write step = none) (steps : List Step) :
    (steps.filter p).filterMap write = steps.filterMap write := by
  induction steps with
  | nil => rfl
  | cons step steps ih =>
      cases hp : p step with
      | true => rw [List.filter_cons_of_pos hp, List.filterMap_cons, List.filterMap_cons, ih]
      | false =>
          rw [List.filter_cons_of_neg (by simp [hp]), List.filterMap_cons_none (h step hp), ih]

/-! ## Drafts after steps -/

/-- The members of a phase, as steps have written them last. -/
def lastMembers (phase : Phase) (steps : List Step) : PhaseMembers where
  notifies := lastWrite (Step.notifies? phase) false steps
  event := lastWrite (Step.event? phase) none steps
  observable := lastWrite (Step.observable? phase) none steps

/-- The draft of a property that no step has changed yet. -/
def fresh (containingType : TypeDefinition) (propertyName propertyType : String) : PropertyDraft :=
  { containingType, propertyName, propertyType }

/-- The draft that holds what steps have written last and all that they have added. -/
def lastWrites (containingType : TypeDefinition) (propertyName propertyType : String)
    (steps : List Step) : PropertyDraft where
  containingType
  propertyName
  propertyType
  isReference := (lastWrite Step.typeFacts? (false, .unknown) steps).1
  nullability := (lastWrite Step.typeFacts? (false, .unknown) steps).2
  eventArgsOnly := lastWrite Step.eventArgsOnly? false steps
  changing := lastMembers .changing steps
  changed := lastMembers .changed steps
  redirects := steps.filterMap Step.redirect?
  declarationSites := steps.flatMap Step.sites

variable (containingType : TypeDefinition) (propertyName propertyType : String)

theorem members_lastWrites (steps : List Step) (phase : Phase) :
    (lastWrites containingType propertyName propertyType steps).members phase =
      lastMembers phase steps := by
  cases phase <;> rfl

theorem lastWrites_concat (steps : List Step) (step : Step) :
    lastWrites containingType propertyName propertyType (steps ++ [step]) =
      (lastWrites containingType propertyName propertyType steps).apply step := by
  rw [lastWrites, lastMembers, lastMembers]
  simp only [lastWrite_concat, List.filterMap_append, List.flatMap_append]
  cases step with
  | notifies phase | event phase | observable phase =>
      cases phase <;>
        simp [lastWrites, lastMembers, apply, updateMembers, Step.typeFacts?, Step.eventArgsOnly?,
          Step.notifies?, Step.event?, Step.observable?, Step.redirect?, Step.sites]
  | typeFacts | eventArgsOnly | redirect | declarationSites =>
      simp [lastWrites, lastMembers, apply, Step.typeFacts?, Step.eventArgsOnly?, Step.notifies?,
        Step.event?, Step.observable?, Step.redirect?, Step.sites]

theorem applyAll_fresh (steps : List Step) :
    (fresh containingType propertyName propertyType).applyAll steps =
      lastWrites containingType propertyName propertyType steps := by
  -- From the end: one more step changes what was written last as it changes the draft.
  induction steps using List.reverseRecOn with
  | nil => rfl
  | append_singleton steps step ih =>
      rw [lastWrites_concat, ← ih]
      exact List.foldl_append

/-! ## Rows of steps with the same effect -/

/-- Rows of steps that agree in what they write last to each field, and in all that they add. -/
structure SameWrites (steps others : List Step) : Prop where
  typeFacts : lastWrite Step.typeFacts? (false, .unknown) steps =
    lastWrite Step.typeFacts? (false, .unknown) others
  eventArgsOnly : lastWrite Step.eventArgsOnly? false steps =
    lastWrite Step.eventArgsOnly? false others
  notifies : ∀ phase, lastWrite (Step.notifies? phase) false steps =
    lastWrite (Step.notifies? phase) false others
  event : ∀ phase, lastWrite (Step.event? phase) none steps =
    lastWrite (Step.event? phase) none others
  observable : ∀ phase, lastWrite (Step.observable? phase) none steps =
    lastWrite (Step.observable? phase) none others
  redirects : steps.filterMap Step.redirect? = others.filterMap Step.redirect?
  declarationSites : steps.flatMap Step.sites = others.flatMap Step.sites

variable {steps others : List Step}

theorem SameWrites.lastMembers_eq (h : SameWrites steps others) (phase : Phase) :
    lastMembers phase steps = lastMembers phase others := by
  rw [lastMembers, lastMembers, h.notifies, h.event, h.observable]

theorem SameWrites.lastWrites_eq (h : SameWrites steps others) :
    lastWrites containingType propertyName propertyType steps =
      lastWrites containingType propertyName propertyType others := by
  simp only [lastWrites, h.typeFacts, h.eventArgsOnly, h.lastMembers_eq, h.redirects,
    h.declarationSites]

/-! ## Phases -/

/-- What a draft is about, whatever is generated for it. -/
def withoutMembers (draft : PropertyDraft) : PropertyDraft :=
  { draft with changing := {}, changed := {}, redirects := [] }

/-- Drafts that agree in everything that does not belong to a phase. -/
structure AgreesOutside (phase : Phase) (draft other : PropertyDraft) : Prop where
  withoutMembers : draft.withoutMembers = other.withoutMembers
  members : ∀ third, third ≠ phase → draft.members third = other.members third
  redirects : draft.redirects.filter (·.phase ≠ phase) = other.redirects.filter (·.phase ≠ phase)

/-- Whether the event of a phase is needed does not depend on redirects of another phase. -/
theorem needsEvent_eq_filter (draft : PropertyDraft) {phase third : Phase} (h : third ≠ phase) :
    draft.needsEvent third = ((draft.members third).observable.isSome ||
      (draft.redirects.filter (·.phase ≠ phase)).any (·.phase = third)) := by
  have hfilter (redirect : EventRedirect) : decide (redirect.phase = third) =
      (decide (redirect.phase ≠ phase) && decide (redirect.phase = third)) := by
    by_cases hthird : redirect.phase = third
    · simp [hthird, h]
    · simp [hthird]
  rw [needsEvent, List.any_filter]
  simp only [← hfilter]

theorem AgreesOutside.completed {phase : Phase} {draft other : PropertyDraft}
    (h : AgreesOutside phase draft other) : AgreesOutside phase draft.completed other.completed := by
  refine ⟨h.withoutMembers, fun third hthird => ?_, h.redirects⟩
  have hneeds : draft.needsEvent third = other.needsEvent third := by
    rw [needsEvent_eq_filter draft hthird, needsEvent_eq_filter other hthird,
      h.members third hthird, h.redirects]
  rw [members_completed, members_completed, completedEvent, completedEvent, hneeds,
    h.members third hthird]

/-- A row of steps without those of a phase. -/
def stepsOutside (phase : Phase) (steps : List Step) : List Step :=
  steps.filter (·.phase? ≠ some phase)

theorem lastWrite_stepsOutside {α : Type} {write : Step → Option α} {phase : Phase}
    (h : ∀ step : Step, step.phase? = some phase → write step = none) (initial : α)
    (steps : List Step) :
    lastWrite write initial (stepsOutside phase steps) = lastWrite write initial steps := by
  rw [lastWrite, lastWrite, stepsOutside, filterMap_filter_of_none]
  intro step hstep
  exact h step (by simpa using hstep)

theorem lastMembers_stepsOutside {phase third : Phase} (hthird : third ≠ phase)
    (steps : List Step) :
    lastMembers third (stepsOutside phase steps) = lastMembers third steps := by
  rw [lastMembers, lastMembers, lastWrite_stepsOutside, lastWrite_stepsOutside,
    lastWrite_stepsOutside]
  all_goals
    intro step hstep
    cases step <;> simp_all [Step.phase?, Step.notifies?, Step.event?, Step.observable?, eq_comm]

theorem filter_redirects_stepsOutside (phase : Phase) (steps : List Step) :
    ((stepsOutside phase steps).filterMap Step.redirect?).filter (·.phase ≠ phase) =
      (steps.filterMap Step.redirect?).filter (·.phase ≠ phase) := by
  rw [List.filter_filterMap, List.filter_filterMap, stepsOutside, filterMap_filter_of_none]
  intro step hstep
  cases step <;> simp_all [Step.phase?, Step.redirect?]

theorem sites_stepsOutside (phase : Phase) (steps : List Step) :
    (stepsOutside phase steps).flatMap Step.sites = steps.flatMap Step.sites := by
  induction steps with
  | nil => rfl
  | cons step steps ih =>
      rw [stepsOutside] at ih ⊢
      by_cases hphase : step.phase? = some phase
      · have hsites : step.sites = [] := by
          cases step with
          | declarationSites => cases hphase
          | typeFacts | eventArgsOnly | notifies | event | observable | redirect => rfl
        rw [List.filter_cons_of_neg (by simpa using hphase), ih, List.flatMap_cons, hsites,
          List.nil_append]
      · rw [List.filter_cons_of_pos (by simpa using hphase), List.flatMap_cons, ih,
          List.flatMap_cons]

theorem agreesOutside_lastWrites {phase : Phase}
    (h : stepsOutside phase steps = stepsOutside phase others) :
    AgreesOutside phase (lastWrites containingType propertyName propertyType steps)
      (lastWrites containingType propertyName propertyType others) := by
  have hwrite {α : Type} (write : Step → Option α) (initial : α)
      (hnone : ∀ step : Step, step.phase? = some phase → write step = none) :
      lastWrite write initial steps = lastWrite write initial others := by
    rw [← lastWrite_stepsOutside hnone, h, lastWrite_stepsOutside hnone]
  refine ⟨?_, fun third hthird => ?_, ?_⟩
  · have htypeFacts := hwrite Step.typeFacts? (false, .unknown) fun step hstep => by
      cases step <;> simp_all [Step.phase?, Step.typeFacts?]
    have honly := hwrite Step.eventArgsOnly? false fun step hstep => by
      cases step <;> simp_all [Step.phase?, Step.eventArgsOnly?]
    have hsites := congrArg (List.flatMap Step.sites) h
    rw [sites_stepsOutside, sites_stepsOutside] at hsites
    simp only [withoutMembers, lastWrites, htypeFacts, honly, hsites]
  · rw [members_lastWrites, members_lastWrites, ← lastMembers_stepsOutside hthird, h,
      lastMembers_stepsOutside hthird]
  · rw [lastWrites, lastWrites, ← filter_redirects_stepsOutside, h, filter_redirects_stepsOutside]

/-! ## Events -/

theorem completedEvent_of_declared {draft : PropertyDraft} {phase : Phase} {level : Accessibility}
    (h : (draft.members phase).event = some level) : draft.completedEvent phase = some level := by
  rw [completedEvent, h]
  split <;> rfl

theorem completedEvent_of_needed {draft : PropertyDraft} {phase : Phase}
    (h : (draft.members phase).event = none) (hneeds : draft.needsEvent phase = true) :
    draft.completedEvent phase = some .privateAccess := by
  rw [completedEvent, if_pos hneeds, h]
  rfl

theorem completedEvent_of_not_needed {draft : PropertyDraft} {phase : Phase}
    (h : ¬ draft.needsEvent phase = true) :
    draft.completedEvent phase = (draft.members phase).event := by
  rw [completedEvent, if_neg h]

theorem needsEvent_lastWrites_iff (steps : List Step) (phase : Phase) :
    (lastWrites containingType propertyName propertyType steps).needsEvent phase = true ↔
      lastWrite (Step.observable? phase) none steps ≠ none ∨
        ∃ redirect ∈ steps.filterMap Step.redirect?, redirect.phase = phase := by
  rw [needsEvent, members_lastWrites, Bool.or_eq_true, lastMembers, Option.isSome_iff_ne_none,
    List.any_eq_true]
  simp only [decide_eq_true_eq]
  rfl

/-! ## Builders -/

/-- What is asked of a builder of descriptors: to take a step, or to build from the steps so far. -/
inductive Request where
  | step (step : Step)
  | build
  deriving DecidableEq, Repr

def Request.step? : Request → Option Step
  | .step taken => some taken
  | .build => none

/-- What is built in a row of requests. The builder goes on from the draft as it was before. -/
def session (draft : PropertyDraft) : List Request → List PropertyDescriptor
  | [] => []
  | .step step :: rest => (draft.apply step).session rest
  | .build :: rest => draft.build :: draft.session rest

/-- What was built earlier does not show in what is built. -/
theorem session_build (draft : PropertyDraft) (before after : List Request) :
    (draft.session (before ++ .build :: after))[before.count .build]? =
      some (draft.applyAll (before.filterMap Request.step?)).build := by
  induction before generalizing draft with
  | nil => rfl
  | cons request before ih =>
      cases request with
      | step step =>
          rw [List.cons_append, session, List.count_cons_of_ne (by simp), ih]
          rfl
      | build =>
          rw [List.cons_append, session, List.count_cons_self, List.getElem?_cons_succ, ih]
          rfl

end PropertyDraft

/-! ## Built descriptors -/

open PropertyDraft

/-- The descriptor of a property after a row of steps. -/
def PropertyDescriptor.ofSteps (containingType : TypeDefinition)
    (propertyName propertyType : String) (steps : List Step) : PropertyDescriptor :=
  ((fresh containingType propertyName propertyType).applyAll steps).build

/-- A descriptor that holds what steps have written last and all that they have added. Only an event
that is not declared is decided on by others, which may need it. -/
structure PropertyDescriptor.Records (descriptor : PropertyDescriptor)
    (containingType : TypeDefinition) (propertyName propertyType : String) (steps : List Step) :
    Prop where
  containingType : descriptor.containingType = containingType
  propertyName : descriptor.propertyName = propertyName
  propertyType : descriptor.propertyType = propertyType
  typeFacts : (descriptor.isReference, descriptor.nullability) =
    lastWrite Step.typeFacts? (false, .unknown) steps
  eventArgsOnly : descriptor.eventArgsOnly = lastWrite Step.eventArgsOnly? false steps
  notifies : ∀ phase, (descriptor.members phase).notifies =
    lastWrite (Step.notifies? phase) false steps
  observable : ∀ phase, (descriptor.members phase).observable =
    lastWrite (Step.observable? phase) none steps
  event_declared : ∀ phase level, lastWrite (Step.event? phase) none steps = some level →
    (descriptor.members phase).event = some level
  event_needed : ∀ phase, lastWrite (Step.event? phase) none steps = none →
    (lastWrite (Step.observable? phase) none steps ≠ none ∨
      ∃ redirect ∈ steps.filterMap Step.redirect?, redirect.phase = phase) →
    (descriptor.members phase).event = some .privateAccess
  event_absent : ∀ phase, lastWrite (Step.event? phase) none steps = none →
    lastWrite (Step.observable? phase) none steps = none →
    (∀ redirect ∈ steps.filterMap Step.redirect?, redirect.phase ≠ phase) →
    (descriptor.members phase).event = none
  redirects : descriptor.redirects = steps.filterMap Step.redirect?
  declarationSites : descriptor.declarationSites = steps.flatMap Step.sites

namespace PropertyDescriptor

variable (containingType : TypeDefinition) (propertyName propertyType : String)

theorem ofSteps_eq (steps : List Step) :
    ofSteps containingType propertyName propertyType steps =
      (lastWrites containingType propertyName propertyType steps).build := by
  rw [ofSteps, applyAll_fresh]

theorem records_ofSteps (steps : List Step) :
    (ofSteps containingType propertyName propertyType steps).Records containingType propertyName
      propertyType steps := by
  rw [ofSteps_eq]
  have hmembers (phase : Phase) :
      (lastWrites containingType propertyName propertyType steps).build.members phase =
        { lastMembers phase steps with
          event := (lastWrites containingType propertyName propertyType steps).completedEvent
            phase } := by
    rw [← members_lastWrites containingType propertyName propertyType]
    exact members_completed _ phase
  have hwritten (phase : Phase) :
      ((lastWrites containingType propertyName propertyType steps).members phase).event =
        lastWrite (Step.event? phase) none steps := by
    rw [members_lastWrites, lastMembers]
  have hneeds (phase : Phase) :=
    needsEvent_lastWrites_iff containingType propertyName propertyType steps phase
  exact {
    containingType := rfl
    propertyName := rfl
    propertyType := rfl
    typeFacts := rfl
    eventArgsOnly := rfl
    notifies := fun phase => by rw [hmembers, lastMembers]
    observable := fun phase => by rw [hmembers, lastMembers]
    event_declared := fun phase level hlevel => by
      rw [hmembers]
      exact completedEvent_of_declared ((hwritten phase).trans hlevel)
    event_needed := fun phase hnone hneeded => by
      rw [hmembers]
      exact completedEvent_of_needed ((hwritten phase).trans hnone) ((hneeds phase).mpr hneeded)
    event_absent := fun phase hnone hobservable hredirects => by
      have hidle : ¬ (lastWrites containingType propertyName propertyType steps).needsEvent
          phase = true := by
        rw [hneeds, not_or, not_not, not_exists]
        exact ⟨hobservable, fun redirect hredirect => hredirects redirect hredirect.1 hredirect.2⟩
      rw [hmembers]
      exact (completedEvent_of_not_needed hidle).trans ((hwritten phase).trans hnone)
    redirects := rfl
    declarationSites := rfl }

/-- A builder keeps the last of what is written and all that is added, in whatever order steps for
different fields come. In what it builds no observable and no redirect is without its event, and no
declared accessibility is changed; the steps of one phase do not show outside of the phase, nor does
an earlier descriptor of the builder in a later one. -/
theorem ofSteps_records (steps : List Step) :
    let built := ofSteps containingType propertyName propertyType
    (built steps).Records containingType propertyName propertyType steps ∧
    (∀ phase, ((built steps).members phase).observable ≠ none ∨
        (∃ redirect ∈ (built steps).redirects, redirect.phase = phase) →
      ((built steps).members phase).event ≠ none) ∧
    (∀ others, SameWrites steps others → built steps = built others) ∧
    (∀ phase others, stepsOutside phase steps = stepsOutside phase others →
      AgreesOutside phase (built steps).toPropertyDraft (built others).toPropertyDraft) ∧
    ∀ before after, before.filterMap Request.step? = steps →
      ((fresh containingType propertyName propertyType).session
        (before ++ .build :: after))[before.count .build]? = some (built steps) := by
  intro built
  have hrecords := records_ofSteps containingType propertyName propertyType steps
  refine ⟨hrecords, fun phase hneeded => ?_, fun others hsame => ?_,
    fun phase others hsame => ?_, fun before after hsteps => ?_⟩
  · rw [hrecords.observable, hrecords.redirects] at hneeded
    cases hevent : lastWrite (Step.event? phase) none steps with
    | none => simp [built, hrecords.event_needed phase hevent hneeded]
    | some level => simp [built, hrecords.event_declared phase level hevent]
  · show ofSteps _ _ _ _ = ofSteps _ _ _ _
    rw [ofSteps_eq, ofSteps_eq, hsame.lastWrites_eq]
  · show AgreesOutside phase (ofSteps _ _ _ _).toPropertyDraft (ofSteps _ _ _ _).toPropertyDraft
    rw [ofSteps_eq, ofSteps_eq]
    exact (agreesOutside_lastWrites _ _ _ hsame).completed
  · rw [session_build, hsteps]
    rfl

def sampleSteps : List Step :=
  [.observable .changed (some .publicAccess), .valueType, .event .changing (some .protectedAccess)]

/-- The same writes in another order, after some that do not last. -/
def sampleDetour : List Step :=
  [.event .changing none, .event .changing (some .protectedAccess), .referenceType .annotated,
    .observable .changed (some .publicAccess), .valueType]

/-- An observable that is taken back after a descriptor was built with it. -/
def sampleRequests : List Request :=
  [.step (.observable .changed (some .publicAccess)), .build, .step (.observable .changed none)]

def sampleCounter : TypeDefinition where
  name := "Counter"
  container := .inNamespace "App"

theorem ofSteps_records_sampleDetour :
    let built := ofSteps sampleCounter "Count" "int"
    SameWrites sampleSteps sampleDetour ∧ built sampleSteps = built sampleDetour ∧
    ((built sampleSteps).members .changed).event = some .privateAccess ∧
    ((built sampleSteps).members .changing).event = some .protectedAccess ∧
    AgreesOutside .changing (built sampleSteps).toPropertyDraft
      (built (sampleSteps.take 2)).toPropertyDraft ∧
    ∃ descriptor, ((fresh sampleCounter "Count" "int").session
        (sampleRequests ++ [.build]))[1]? = some descriptor ∧
      (descriptor.members .changed).event = none := by
  have hsame : SameWrites sampleSteps sampleDetour := by
    refine ⟨by decide, by decide, ?_, ?_, ?_, by decide, by decide⟩
    all_goals
      intro phase
      cases phase <;> decide
  obtain ⟨hrecords, -, hequal, houtside, -⟩ := ofSteps_records sampleCounter "Count" "int" sampleSteps
  obtain ⟨hlater, -, -, -, hbuilders⟩ := ofSteps_records sampleCounter "Count" "int"
    (sampleRequests.filterMap Request.step?)
  refine ⟨hsame, hequal sampleDetour hsame, ?_, ?_, houtside .changing _ (by decide), _,
    hbuilders sampleRequests [] rfl, ?_⟩
  · exact hrecords.event_needed .changed (by decide) (.inl (by decide))
  · exact hrecords.event_declared .changing .protectedAccess (by decide)
  · exact hlater.event_absent .changed (by decide) (by decide) (by decide)

end PropertyDescriptor

end ChangeNotification
