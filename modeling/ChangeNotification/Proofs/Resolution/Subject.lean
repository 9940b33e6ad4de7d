import ChangeNotification.Proofs.Computation
import ChangeNotification.Proofs.Descriptor.LastWrites
import ChangeNotification.Resolution.Property

/-! # What resolution takes over

Attributes decide on members alone. Everything else about a descriptor is taken over from the facts
as it is. -/

namespace ChangeNotification

/-! ## Drafts without members -/

namespace PropertyDraft

/-- Steps that change nothing but members. -/
def Step.isMemberStep : Step → Bool
  | notifies .. | event .. | observable .. | redirect .. => true
  | typeFacts .. | eventArgsOnly .. | declarationSites .. => false

theorem withoutMembers_apply {step : Step} (h : step.isMemberStep = true) (draft : PropertyDraft) :
    (draft.apply step).withoutMembers = draft.withoutMembers := by
  cases step with
  | notifies phase | event phase | observable phase => cases phase <;> rfl
  | redirect => rfl
  | typeFacts | eventArgsOnly | declarationSites => cases h

theorem withoutMembers_applyAll {steps : List Step} (h : ∀ step ∈ steps, step.isMemberStep = true)
    (draft : PropertyDraft) : (draft.applyAll steps).withoutMembers = draft.withoutMembers := by
  induction steps generalizing draft with
  | nil => rfl
  | cons step steps ih =>
      have hsteps := ih (fun other hother => h other (.tail _ hother)) (draft.apply step)
      exact hsteps.trans (withoutMembers_apply (h step (.head _)) draft)

end PropertyDraft

/-! ## Steps of attributes -/

theorem Attribute.isMemberStep_of_mem_step {attr : Attribute} {property : String}
    {default : Option Accessibility} {steps : List PropertyDraft.Step}
    (h : attr.step property default = .ok steps) : ∀ step ∈ steps, step.isMemberStep = true := by
  rw [Attribute.step] at h
  cases hrole : attr.role? with
  | none =>
      rw [hrole] at h
      cases h
      simp
  | some role =>
      rw [hrole] at h
      cases role with
      | enable =>
          cases h
          simp
      | event phase | observable phase | redirect phase =>
          obtain ⟨value, -, hsteps⟩ := bind_eq_ok_iff.mp h
          cases hsteps
          simp [PropertyDraft.Step.isMemberStep]

namespace PropertyFacts

variable {facts : PropertyFacts}

theorem isMemberStep_of_mem_attributeSteps {steps : List PropertyDraft.Step}
    (h : facts.attributeSteps = .ok steps) : ∀ step ∈ steps, step.isMemberStep = true := by
  obtain ⟨results, hresults, hsteps⟩ := bind_eq_ok_iff.mp h
  cases hsteps
  intro step hstep
  obtain ⟨result, hresult, hstep⟩ := List.mem_flatten.mp hstep
  obtain ⟨attr, -, hattr⟩ := exists_of_mem_mapM hresults result hresult
  exact Attribute.isMemberStep_of_mem_step hattr step hstep

/-! ## Resolution -/

/-- The steps of a resolution: those that follow from types and places, whether only arguments are
generated, and those of the attributes. -/
theorem resolve_eq_ok {descriptor : PropertyDescriptor} (h : facts.resolve = .ok descriptor) :
    ∃ enabling only steps, facts.name ≠ "" ∧ facts.enablingAttribute? = some enabling ∧
      enabling.eventArgsOnly facts.name = .ok only ∧ facts.attributeSteps = .ok steps ∧
      descriptor =
        (facts.draft.applyAll (facts.typeSteps ++ .eventArgsOnly only :: steps)).build := by
  rw [resolve] at h
  have hname : facts.name ≠ "" := by
    intro hempty
    rw [if_pos hempty] at h
    cases h
  rw [if_neg hname] at h
  cases henabling : facts.enablingAttribute? with
  | none =>
      rw [henabling] at h
      cases h
  | some enabling =>
      rw [henabling] at h
      obtain ⟨only, honly, h⟩ := bind_eq_ok_iff.mp h
      obtain ⟨steps, hsteps, h⟩ := bind_eq_ok_iff.mp h
      cases h
      exact ⟨enabling, only, steps, hname, rfl, honly, hsteps, rfl⟩

end PropertyFacts

/-- A descriptor that is about the property of some facts. -/
structure PropertyDescriptor.Describes (descriptor : PropertyDescriptor) (facts : PropertyFacts) :
    Prop where
  containingType : descriptor.containingType = facts.containingType.definition
  propertyName : descriptor.propertyName = facts.name
  propertyType : descriptor.propertyType = facts.propertyType.spelling
  isReference : descriptor.isReference = facts.propertyType.kind.isReference
  nullability : descriptor.nullability = facts.settledNullability
  declarationSites : descriptor.declarationSites = facts.declarationSites

/-- Whatever its attributes ask for, a property is described as it is. -/
theorem PropertyFacts.describes_of_resolve {facts : PropertyFacts}
    {descriptor : PropertyDescriptor} (h : facts.resolve = .ok descriptor) :
    descriptor.Describes facts := by
  obtain ⟨enabling, only, steps, -, -, -, hsteps, rfl⟩ := resolve_eq_ok h
  generalize hdraft : facts.draft.applyAll (facts.typeSteps ++ .eventArgsOnly only :: steps) = draft
  have hsubject : draft.withoutMembers =
      { facts.draft with
        isReference := facts.propertyType.kind.isReference
        nullability := facts.settledNullability
        eventArgsOnly := only
        declarationSites := facts.declarationSites } := by
    rw [← hdraft, PropertyDraft.applyAll, List.foldl_append, List.foldl_cons]
    exact PropertyDraft.withoutMembers_applyAll (isMemberStep_of_mem_attributeSteps hsteps) _
  exact {
    containingType := congrArg PropertyDraft.containingType hsubject
    propertyName := congrArg PropertyDraft.propertyName hsubject
    propertyType := congrArg PropertyDraft.propertyType hsubject
    isReference := congrArg PropertyDraft.isReference hsubject
    nullability := congrArg PropertyDraft.nullability hsubject
    declarationSites := congrArg PropertyDraft.declarationSites hsubject }

/-- A text property of a class, of which that is known. -/
def PropertyFacts.sample (nullability : Nullability) : PropertyFacts where
  name := "Title"
  containingType := { name := "Doc", namespaceSegments := ["App"] }
  propertyType := { name := "String", namespaceSegments := ["System"], nullability }
  attributes := [{ className := AttributeRole.className .enable }]
  declarationSites := [⟨"Doc.cs", 3, 5⟩, ⟨"Doc.Designer.cs", 7, 9⟩]

end ChangeNotification
