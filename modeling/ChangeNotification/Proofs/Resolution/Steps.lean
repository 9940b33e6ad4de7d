import ChangeNotification.Proofs.Descriptor.LastWrites
import ChangeNotification.Proofs.Resolution.Arguments
import ChangeNotification.Proofs.Resolution.Role
import Mathlib.Data.List.Induction

/-! # Steps of attributes

An attribute that is recognised beside the enabling one asks for one step or is refused. Of the steps
of one role the last one counts. -/

namespace ChangeNotification

/-! ## What an attribute asks for -/

/-- Whether the attributes of a role declare a member with an accessibility. -/
def AttributeRole.declaresMember : AttributeRole → Bool
  | event _ | observable _ => true
  | enable | redirect _ => false

/-- What an attribute asks for on a property of the accessibility `default`. -/
inductive Attribute.AsksFor (attr : Attribute) (default : Accessibility) :
    List PropertyDraft.Step → Prop
  | nothing (hrole : ∀ role : AttributeRole, attr.isOf role.className = true → role = .enable) :
      AsksFor attr default []
  | event {phase : Phase} {level : Accessibility}
      (hclass : attr.isOf (AttributeRole.className (.event phase)) = true)
      (h : AsksLevel default attr.constructorArguments level) :
      AsksFor attr default [.event phase (some level)]
  | observable {phase : Phase} {level : Accessibility}
      (hclass : attr.isOf (AttributeRole.className (.observable phase)) = true)
      (h : AsksLevel default attr.constructorArguments level) :
      AsksFor attr default [.observable phase (some level)]
  | redirect {phase : Phase} {redirect : EventRedirect}
      (hclass : attr.isOf (AttributeRole.className (.redirect phase)) = true)
      (h : AsksRedirect phase attr.constructorArguments redirect) :
      AsksFor attr default [.redirect redirect]

/-- How an attribute is refused, by its name as it was given. -/
inductive Attribute.Defect (attr : Attribute) (property : String) : ResolveError → Prop
  | accessibility {role : AttributeRole} {error : ResolveError}
      (hclass : attr.isOf role.className = true) (hrole : role.declaresMember = true)
      (h : AccessibilityDefect attr.className property attr.constructorArguments error) :
      Defect attr property error
  | redirect {phase : Phase} {error : ResolveError}
      (hclass : attr.isOf (AttributeRole.className (.redirect phase)) = true)
      (h : RedirectDefect attr.className property attr.constructorArguments error) :
      Defect attr property error

namespace Attribute

variable {attr : Attribute} {property : String} {default : Accessibility}

theorem step_of_asksFor {steps : List PropertyDraft.Step} (h : attr.AsksFor default steps) :
    attr.step property (some default) = .ok steps := by
  rw [step]
  cases h with
  | nothing hrole =>
      cases hattr : attr.role? with
      | none => rfl
      | some role =>
          rw [hrole role (role?_eq_some_iff.mp hattr)]
          rfl
  | event hclass h | observable hclass h =>
      have hasked := (attr.accessibility_settles property default).eq_ok_iff.mpr ⟨_, rfl, h⟩
      simp only [role?_eq_some_iff.mpr hclass, hasked]
      rfl
  | @redirect phase _ hclass h =>
      have hasked := (attr.eventRedirect_settles property phase).eq_ok_iff.mpr h
      simp only [role?_eq_some_iff.mpr hclass, hasked]
      rfl

theorem step_of_defect {error : ResolveError} (h : attr.Defect property error) :
    attr.step property (some default) = .error error := by
  rw [step]
  cases h with
  | @accessibility role _ hclass hrole h =>
      have hrefused := (attr.accessibility_settles property default).eq_error_iff.mpr h
      cases role with
      | event phase | observable phase =>
          simp only [role?_eq_some_iff.mpr hclass, hrefused]
          rfl
      | enable | redirect => cases hrole
  | @redirect phase _ hclass h =>
      have hrefused := (attr.eventRedirect_settles property phase).eq_error_iff.mpr h
      simp only [role?_eq_some_iff.mpr hclass, hrefused]
      rfl

variable (attr property default) in
theorem step_settles :
    Settles (attr.step property (some default)) (attr.AsksFor default) (attr.Defect property) := by
  refine .of_total (fun _ => step_of_asksFor) (fun _ => step_of_defect) ?_
  -- The class says which arguments count; these are taken or refused.
  cases hrole : attr.role? with
  | none =>
      have hnone := role?_eq_none_iff.mp hrole
      exact .inl ⟨[], .nothing fun role hclass => by simp [hnone role] at hclass⟩
  | some role =>
      have hclass := role?_eq_some_iff.mp hrole
      cases role with
      | enable =>
          exact .inl ⟨[], .nothing fun other hother => isOf_unique hother hclass⟩
      | event phase =>
          rcases (attr.accessibility_settles property default).total with ⟨_, _, -, h⟩ | ⟨_, h⟩
          · exact .inl ⟨_, .event hclass h⟩
          · exact .inr ⟨_, .accessibility hclass rfl h⟩
      | observable phase =>
          rcases (attr.accessibility_settles property default).total with ⟨_, _, -, h⟩ | ⟨_, h⟩
          · exact .inl ⟨_, .observable hclass h⟩
          · exact .inr ⟨_, .accessibility hclass rfl h⟩
      | redirect phase =>
          rcases (attr.eventRedirect_settles property phase).total with ⟨_, h⟩ | ⟨_, h⟩
          · exact .inl ⟨_, .redirect hclass h⟩
          · exact .inr ⟨_, .redirect hclass h⟩

end Attribute

/-! ## What steps leave -/

namespace PropertyDraft

/-- The role of the attributes that ask for a step. -/
def Step.role? : Step → Option AttributeRole
  | event phase _ => some (.event phase)
  | observable phase _ => some (.observable phase)
  | redirect asked => some (.redirect asked.phase)
  | typeFacts .. | eventArgsOnly .. | notifies .. | declarationSites .. => none

/-- The accessibility that a step sets. -/
def Step.accessibility? : Step → Option Accessibility
  | event _ accessibility | observable _ accessibility => accessibility
  | redirect .. | typeFacts .. | eventArgsOnly .. | notifies .. | declarationSites .. => none

/-- The accessibility of the member that attributes of a role declare. -/
def accessibilityOf (draft : PropertyDraft) : AttributeRole → Option Accessibility
  | .event phase => (draft.members phase).event
  | .observable phase => (draft.members phase).observable
  | .enable | .redirect _ => none

variable (draft : PropertyDraft)

theorem accessibilityOf_apply (step : Step) (role : AttributeRole) :
    (draft.apply step).accessibilityOf role =
      if step.role? = some role then step.accessibility? else draft.accessibilityOf role := by
  cases step with
  | event phase | observable phase | notifies phase =>
      cases role with
      | event other | observable other => cases phase <;> cases other <;> rfl
      | enable | redirect => rfl
  | redirect redirect =>
      cases role with
      | redirect phase => simp [accessibilityOf, Step.accessibility?]
      | event phase | observable phase => cases phase <;> rfl
      | enable => rfl
  | typeFacts | eventArgsOnly | declarationSites =>
      cases role with
      | event phase | observable phase => cases phase <;> rfl
      | enable | redirect => rfl

/-- The last step of a role counts. -/
theorem accessibilityOf_applyAll (steps : List Step) (role : AttributeRole) :
    (draft.applyAll steps).accessibilityOf role =
      (steps.filter (·.role? = some role)).getLast?.elim (draft.accessibilityOf role)
        Step.accessibility? := by
  -- From the end: the last step is of the role or leaves its accessibility as it was.
  induction steps using List.reverseRecOn with
  | nil => rfl
  | append_singleton steps step ih =>
      have hlast : draft.applyAll (steps ++ [step]) = (draft.applyAll steps).apply step :=
        List.foldl_append
      rw [hlast, accessibilityOf_apply, List.filter_append]
      by_cases hrole : step.role? = some role
      · simp [hrole]
      · simpa [hrole] using ih

theorem redirects_applyAll (steps : List Step) :
    (draft.applyAll steps).redirects = draft.redirects ++ steps.filterMap Step.redirect? := by
  induction steps generalizing draft with
  | nil => exact (List.append_nil _).symm
  | cons step steps ih =>
      have hsteps := ih (draft.apply step)
      rw [applyAll, List.foldl_cons]
      refine hsteps.trans ?_
      cases step with
      | redirect => simp [apply, Step.redirect?]
      | event phase | observable phase | notifies phase => cases phase <;> rfl
      | typeFacts | eventArgsOnly | declarationSites => rfl

theorem notifies_applyAll {steps : List Step} (h : ∀ step ∈ steps, step.role?.isSome)
    (phase : Phase) :
    ((draft.applyAll steps).members phase).notifies = (draft.members phase).notifies := by
  induction steps generalizing draft with
  | nil => rfl
  | cons step steps ih =>
      obtain ⟨hstep, hsteps⟩ := List.forall_mem_cons.mp h
      rw [applyAll, List.foldl_cons]
      refine (ih (draft.apply step) hsteps).trans ?_
      cases step with
      | event other | observable other => cases phase <;> cases other <;> rfl
      | redirect => cases phase <;> rfl
      | typeFacts | eventArgsOnly | notifies | declarationSites => cases hstep

end PropertyDraft

/-! ## Redirects -/

/-- Whether an attribute asks for a redirect, in either phase. -/
def Attribute.isRedirect (attr : Attribute) : Bool :=
  attr.isOf (AttributeRole.className (.redirect .changing)) ||
    attr.isOf (AttributeRole.className (.redirect .changed))

theorem Attribute.isRedirect_iff {attr : Attribute} :
    attr.isRedirect = true ↔
      ∃ phase, attr.isOf (AttributeRole.className (.redirect phase)) = true := by
  rw [isRedirect, Bool.or_eq_true]
  constructor
  · rintro (h | h)
    · exact ⟨_, h⟩
    · exact ⟨_, h⟩
  · rintro ⟨_ | _, h⟩
    · exact .inl h
    · exact .inr h

/-- A redirect in the phase of an attribute's class, by the names in its arguments. -/
structure Attribute.Redirects (attr : Attribute) (redirect : EventRedirect) : Prop where
  phase : attr.isOf (AttributeRole.className (.redirect redirect.phase)) = true
  names : AsksRedirect redirect.phase attr.constructorArguments redirect

theorem Attribute.Redirects.unique {attr : Attribute} {redirect other : EventRedirect}
    (h : attr.Redirects redirect) (hother : attr.Redirects other) : redirect = other := by
  have hphase := AttributeRole.redirect.inj (isOf_unique h.phase hother.phase)
  have hnames := hother.names
  rw [← hphase] at hnames
  have hsettles := attr.eventRedirect_settles "" redirect.phase
  exact Except.ok.inj ((hsettles.eq_ok_iff.mpr h.names).symm.trans (hsettles.eq_ok_iff.mpr hnames))

/-- A filter is as good after a weaker one. -/
theorem filter_filter_of_imp {α : Type} {p q : α → Bool} (h : ∀ a, p a = true → q a = true)
    (list : List α) : (list.filter q).filter p = list.filter p := by
  rw [List.filter_filter]
  refine List.filter_congr fun a _ => ?_
  cases hp : p a with
  | false => rfl
  | true => exact h a hp

/-- The redirects of a phase are those of its attributes. -/
theorem forall₂_redirects_of_phase {attributes : List Attribute} {redirects : List EventRedirect}
    (h : List.Forall₂ Attribute.Redirects (attributes.filter Attribute.isRedirect) redirects)
    (phase : Phase) :
    List.Forall₂ Attribute.Redirects
      (attributes.filter (·.isOf (AttributeRole.className (.redirect phase))))
      (redirects.filter (·.phase = phase)) := by
  have hphase : ∀ (attr : Attribute) (redirect : EventRedirect), attr.Redirects redirect →
      (attr.isOf (AttributeRole.className (.redirect phase)) = true ↔
        decide (redirect.phase = phase) = true) := by
    intro attr redirect hredirect
    rw [decide_eq_true_iff]
    constructor
    · intro hclass
      exact AttributeRole.redirect.inj (Attribute.isOf_unique hredirect.phase hclass)
    · rintro rfl
      exact hredirect.phase
  have hfilter := filter_filter_of_imp
    (p := (·.isOf (AttributeRole.className (.redirect phase))))
    (fun _ hclass => Attribute.isRedirect_iff.mpr ⟨phase, hclass⟩) attributes
  rw [← hfilter]
  exact List.rel_filter hphase h

/-! ## Rows of attributes -/

/-- Whether an attribute asks for a step. -/
def Attribute.asksForStep (attr : Attribute) : Bool :=
  attr.role?.any (· ≠ .enable)

theorem Attribute.asksForStep_of_isOf {attr : Attribute} {role : AttributeRole}
    (hclass : attr.isOf role.className = true) (hrole : role ≠ .enable) :
    attr.asksForStep = true := by
  rw [asksForStep, role?_eq_some_iff.mpr hclass]
  simpa using hrole

namespace Attribute.AsksFor

variable {attr : Attribute} {default : Accessibility} {steps : List PropertyDraft.Step}
  {step : PropertyDraft.Step}

theorem role?_eq (h : attr.AsksFor default [step]) : attr.role? = step.role? := by
  cases h with
  | event hclass | observable hclass => exact role?_eq_some_iff.mpr hclass
  | redirect hclass h =>
      rw [PropertyDraft.Step.role?, h.phase_eq]
      exact role?_eq_some_iff.mpr hclass

theorem isSome_role? (h : attr.AsksFor default [step]) : step.role?.isSome = true := by
  cases h with
  | event | observable | redirect => rfl

theorem eq_nil_or_singleton (h : attr.AsksFor default steps) :
    attr.asksForStep = false ∧ steps = [] ∨
      attr.asksForStep = true ∧ ∃ step, steps = [step] ∧ attr.AsksFor default [step] := by
  have hsteps := h
  cases h with
  | nothing hrole =>
      refine .inl ⟨?_, rfl⟩
      rw [asksForStep, Option.any_eq_false]
      intro role hattr
      simpa using hrole role (role?_eq_some_iff.mp hattr)
  | event hclass | observable hclass | redirect hclass =>
      exact .inr ⟨asksForStep_of_isOf hclass (by simp), _, rfl, hsteps⟩

end Attribute.AsksFor

/-- The steps of a row of attributes, each with the attribute that asks for it. -/
theorem forall₂_asksFor_flatten {default : Accessibility} {attributes : List Attribute}
    {results : List (List PropertyDraft.Step)}
    (h : List.Forall₂ (Attribute.AsksFor · default) attributes results) :
    List.Forall₂ (fun attr step => attr.AsksFor default [step])
      (attributes.filter Attribute.asksForStep) results.flatten := by
  induction h with
  | nil => exact .nil
  | cons hattr _ ih =>
      rcases hattr.eq_nil_or_singleton with ⟨hasks, rfl⟩ | ⟨hasks, step, rfl, hstep⟩
      · rwa [List.filter_cons_of_neg (by simp [hasks])]
      · rw [List.filter_cons_of_pos hasks]
        exact .cons hstep ih

theorem forall₂_redirects {default : Accessibility} {attributes : List Attribute}
    {steps : List PropertyDraft.Step}
    (h : List.Forall₂ (fun attr step => attr.AsksFor default [step]) attributes steps) :
    List.Forall₂ Attribute.Redirects (attributes.filter Attribute.isRedirect)
      (steps.filterMap PropertyDraft.Step.redirect?) := by
  induction h with
  | nil => exact .nil
  | @cons attr step _ _ hattr _ ih =>
      cases hattr with
      | @event phase _ hclass | @observable phase _ hclass =>
          have hnot : ¬ attr.isRedirect = true := by
            rw [Attribute.isRedirect_iff]
            rintro ⟨other, hother⟩
            cases Attribute.isOf_unique hclass hother
          rwa [List.filter_cons_of_neg hnot]
      | @redirect phase redirect hclass hnames =>
          obtain rfl := hnames.phase_eq
          rw [List.filter_cons_of_pos (Attribute.isRedirect_iff.mpr ⟨_, hclass⟩)]
          exact .cons ⟨hclass, hnames⟩ ih

namespace PropertyFacts

variable {facts : PropertyFacts} {steps : List PropertyDraft.Step}

theorem attributeSteps_eq_ok_iff :
    facts.attributeSteps = .ok steps ↔ ∃ results,
      List.Forall₂ (Attribute.AsksFor · facts.defaultAccessibility) facts.attributes results ∧
        results.flatten = steps := by
  have hsettles (attr : Attribute) := attr.step_settles facts.name facts.defaultAccessibility
  rw [attributeSteps, bind_eq_ok_iff]
  simp only [mapM_eq_ok_iff, (hsettles _).eq_ok_iff]
  constructor
  · rintro ⟨results, hresults, h⟩
    exact ⟨results, hresults, Except.ok.inj h⟩
  · rintro ⟨results, hresults, rfl⟩
    exact ⟨results, hresults, rfl⟩

theorem forall₂_asksFor_of_attributeSteps (h : facts.attributeSteps = .ok steps) :
    List.Forall₂ (fun attr step => attr.AsksFor facts.defaultAccessibility [step])
      (facts.attributes.filter Attribute.asksForStep) steps := by
  obtain ⟨results, hresults, rfl⟩ := attributeSteps_eq_ok_iff.mp h
  exact forall₂_asksFor_flatten hresults

theorem forall₂_asksFor_of_role (h : facts.attributeSteps = .ok steps) {role : AttributeRole}
    (hrole : role ≠ .enable) :
    List.Forall₂ (fun attr step => attr.AsksFor facts.defaultAccessibility [step])
      (facts.attributes.filter (·.isOf role.className)) (steps.filter (·.role? = some role)) := by
  have hsteps := forall₂_asksFor_of_attributeSteps h
  have hfilter := filter_filter_of_imp (p := (·.isOf role.className))
    (fun _ hclass => Attribute.asksForStep_of_isOf hclass hrole) facts.attributes
  have hrole_iff : ∀ (attr : Attribute) (step : PropertyDraft.Step),
      attr.AsksFor facts.defaultAccessibility [step] →
      (attr.isOf role.className = true ↔ decide (step.role? = some role) = true) := by
    intro attr step hstep
    rw [decide_eq_true_iff, ← hstep.role?_eq, Attribute.role?_eq_some_iff]
  rw [← hfilter]
  exact List.rel_filter hrole_iff hsteps

theorem forall₂_redirects_of_attributeSteps (h : facts.attributeSteps = .ok steps) :
    List.Forall₂ Attribute.Redirects (facts.attributes.filter Attribute.isRedirect)
      (steps.filterMap PropertyDraft.Step.redirect?) := by
  have hredirects := forall₂_redirects (forall₂_asksFor_of_attributeSteps h)
  have hasks : ∀ attr : Attribute, attr.isRedirect = true → attr.asksForStep = true := by
    intro attr hredirect
    obtain ⟨phase, hclass⟩ := Attribute.isRedirect_iff.mp hredirect
    exact Attribute.asksForStep_of_isOf hclass (by simp)
  rwa [filter_filter_of_imp hasks] at hredirects

theorem isSome_role?_of_attributeSteps (h : facts.attributeSteps = .ok steps) :
    ∀ step ∈ steps, step.role?.isSome = true := by
  intro step hstep
  obtain ⟨attr, -, hasks⟩ := exists_of_mem_forall₂ (forall₂_asksFor_of_attributeSteps h) step hstep
  exact hasks.isSome_role?

end PropertyFacts

end ChangeNotification
