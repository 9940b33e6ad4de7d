import ChangeNotification.Proofs.Resolution.Steps
import ChangeNotification.Proofs.Resolution.Subject

/-! # Defects of facts

Resolution succeeds exactly on facts without a defect and fails by the first defect of all others.
-/

namespace ChangeNotification

/-! ## Well-formed facts -/

/-- Arguments in the place of a member of the accessibility enumeration. -/
inductive NamesAccessibility : List AttributeValue → Prop
  | omitted : NamesAccessibility []
  | value {n : Int64} (lower : 0 ≤ n.toInt) (upper : n.toInt ≤ 6) : NamesAccessibility [.int n]
  | name {s : String} {choice : AccessibilityChoice}
      (h : accessibilityLiteral s = choice.memberName) : NamesAccessibility [.text s]

/-- Arguments in the place of an interface and its event. -/
inductive NamesEvent : List AttributeValue → Prop
  | names (interfaceType eventName : String) : NamesEvent [.text interfaceType, .text eventName]

/-- An attribute with arguments that its class takes, where they matter for its class. -/
structure Attribute.IsWellFormed (attr : Attribute) : Prop where
  accessibility : ∀ role : AttributeRole, attr.isOf role.className = true →
    role.declaresMember = true → NamesAccessibility attr.constructorArguments
  redirect : ∀ phase, attr.isOf (AttributeRole.className (.redirect phase)) = true →
    NamesEvent attr.constructorArguments

/-- Facts from which a property is resolved. -/
structure PropertyFacts.IsWellFormed (facts : PropertyFacts) : Prop where
  name : facts.name ≠ ""
  enabling : ∃ enabling only,
    facts.attributes.find? (·.isOf (AttributeRole.className .enable)) = some enabling ∧
      AsksEventArgsOnly (enabling.namedArguments.find? "EventArgsOnly") only
  attributes : ∀ attr ∈ facts.attributes, attr.IsWellFormed

theorem namesAccessibility_iff {arguments : List AttributeValue} :
    NamesAccessibility arguments ↔ ∃ choice : AccessibilityChoice, choice.ChosenBy arguments := by
  constructor
  · intro h
    cases h with
    | omitted => exact ⟨_, .omitted⟩
    | value lower upper =>
        obtain ⟨choice, rfl⟩ := AccessibilityChoice.exists_value_iff.mpr ⟨lower, upper⟩
        exact ⟨choice, .value choice⟩
    | name h => exact ⟨_, .name h⟩
  · rintro ⟨choice, h⟩
    cases h with
    | omitted => exact .omitted
    | value =>
        obtain ⟨lower, upper⟩ := AccessibilityChoice.exists_value_iff.mp ⟨choice, rfl⟩
        exact .value lower upper
    | name h => exact .name h

theorem exists_asksLevel_iff {default : Accessibility} {arguments : List AttributeValue} :
    (∃ level, AsksLevel default arguments level) ↔ NamesAccessibility arguments := by
  rw [namesAccessibility_iff]
  constructor
  · rintro ⟨level, h | h⟩
    · exact ⟨_, h⟩
    · exact ⟨_, h⟩
  · rintro ⟨choice, h⟩
    cases choice with
    | byDefault => exact ⟨default, .byDefault h⟩
    | level accessibility => exact ⟨accessibility, .level h⟩

theorem exists_asksRedirect_iff {phase : Phase} {arguments : List AttributeValue} :
    (∃ redirect, AsksRedirect phase arguments redirect) ↔ NamesEvent arguments := by
  constructor
  · rintro ⟨redirect, h⟩
    cases h with
    | names interfaceType eventName => exact .names interfaceType eventName
  · intro h
    cases h with
    | names interfaceType eventName => exact ⟨_, .names interfaceType eventName⟩

theorem Attribute.IsWellFormed.not_defect {attr : Attribute} (h : attr.IsWellFormed)
    (property : String) (error : ResolveError) : ¬ attr.Defect property error := by
  intro hdefect
  cases hdefect with
  | accessibility hclass hrole hrefused =>
      obtain ⟨level, hlevel⟩ := exists_asksLevel_iff.mpr (h.accessibility _ hclass hrole)
      exact (attr.accessibility_settles property .publicAccess).not_fails ⟨level, rfl, hlevel⟩ _
        hrefused
  | @redirect phase _ hclass hrefused =>
      obtain ⟨redirect, hredirect⟩ := exists_asksRedirect_iff.mpr (h.redirect _ hclass)
      exact (attr.eventRedirect_settles property phase).not_fails hredirect _ hrefused

theorem Attribute.AsksFor.isWellFormed {attr : Attribute} {default : Accessibility}
    {steps : List PropertyDraft.Step} (h : attr.AsksFor default steps) : attr.IsWellFormed := by
  cases h with
  | nothing hrole =>
      refine ⟨fun role hclass hdeclares => ?_, fun phase hclass => ?_⟩
      · cases hrole role hclass
        cases hdeclares
      · cases hrole _ hclass
  | event hclass h | observable hclass h =>
      refine ⟨fun _ _ _ => exists_asksLevel_iff.mp ⟨_, h⟩, fun phase hother => ?_⟩
      cases isOf_unique hother hclass
  | redirect hclass h =>
      refine ⟨fun role hother hdeclares => ?_, fun _ _ => exists_asksRedirect_iff.mp ⟨_, h⟩⟩
      cases isOf_unique hother hclass
      cases hdeclares

/-- An attribute asks for something exactly if it is well-formed. -/
theorem Attribute.isWellFormed_iff {attr : Attribute} (property : String)
    (default : Accessibility) :
    attr.IsWellFormed ↔ ∃ steps, attr.step property (some default) = .ok steps := by
  have hsettles := attr.step_settles property default
  simp only [hsettles.eq_ok_iff]
  constructor
  · intro h
    rcases hsettles.total with hsteps | ⟨error, hdefect⟩
    · exact hsteps
    · exact absurd hdefect (h.not_defect property error)
  · rintro ⟨steps, hsteps⟩
    exact hsteps.isWellFormed

/-! ## The first defect -/

namespace PropertyFacts

variable {facts : PropertyFacts}

/-- The defect for which a property is not resolved: of its name, then of the enabling attribute,
then of the first attribute that has one. -/
inductive FirstDefect (facts : PropertyFacts) : ResolveError → Prop
  | emptyName (hname : facts.name = "") :
      FirstDefect facts (.emptyPropertyName facts.containingType.name)
  | notAnnotated (hname : facts.name ≠ "") (h : facts.isNotificationTarget = false) :
      FirstDefect facts (.notAnnotated facts.name)
  | eventArgsOnly {enabling : Attribute} {error : ResolveError} (hname : facts.name ≠ "")
      (henabling : facts.attributes.find? (·.isOf (AttributeRole.className .enable)) = some enabling)
      (h : EventArgsOnlyDefect enabling.className facts.name
        (enabling.namedArguments.find? "EventArgsOnly") error) :
      FirstDefect facts error
  | ofAttribute {enabling : Attribute} {only : Bool} {before after : List Attribute}
      {attr : Attribute} {error : ResolveError} (hname : facts.name ≠ "")
      (henabling : facts.attributes.find? (·.isOf (AttributeRole.className .enable)) = some enabling)
      (honly : AsksEventArgsOnly (enabling.namedArguments.find? "EventArgsOnly") only)
      (hsplit : facts.attributes = before ++ attr :: after)
      (hbefore : ∀ other ∈ before, other.IsWellFormed) (h : attr.Defect facts.name error) :
      FirstDefect facts error

theorem attributeSteps_eq_error_iff {error : ResolveError} :
    facts.attributeSteps = .error error ↔
      ∃ before attr after, facts.attributes = before ++ attr :: after ∧
        (∀ other ∈ before, other.IsWellFormed) ∧ attr.Defect facts.name error := by
  have hsettles (attr : Attribute) := attr.step_settles facts.name facts.defaultAccessibility
  rw [attributeSteps, bind_eq_error_iff, or_iff_left (by rintro ⟨results, -, h⟩; cases h),
    mapM_eq_error_iff]
  simp only [Attribute.isWellFormed_iff facts.name facts.defaultAccessibility,
    (hsettles _).eq_error_iff]

theorem exists_attributeSteps_iff :
    (∃ steps, facts.attributeSteps = .ok steps) ↔ ∀ attr ∈ facts.attributes, attr.IsWellFormed := by
  simp only [Attribute.isWellFormed_iff facts.name facts.defaultAccessibility]
  rw [← exists_mapM_eq_ok_iff, attributeSteps]
  simp only [bind_eq_ok_iff]
  constructor
  · rintro ⟨_, results, hresults, -⟩
    exact ⟨results, hresults⟩
  · rintro ⟨results, hresults⟩
    exact ⟨_, results, hresults, rfl⟩

theorem isWellFormed_or_firstDefect (facts : PropertyFacts) :
    facts.IsWellFormed ∨ ∃ error, facts.FirstDefect error := by
  -- The name comes first, then the enabling attribute with its argument, then all attributes.
  by_cases hname : facts.name = ""
  · exact .inr ⟨_, .emptyName hname⟩
  · cases henabling : facts.enablingAttribute? with
    | none => exact .inr ⟨_, .notAnnotated hname (by rw [isNotificationTarget, henabling]; rfl)⟩
    | some enabling =>
        rcases (enabling.eventArgsOnly_settles facts.name).total with ⟨only, honly⟩ | ⟨error, h⟩
        · by_cases hattributes : ∀ attr ∈ facts.attributes, attr.IsWellFormed
          · exact .inl ⟨hname, ⟨enabling, only, henabling, honly⟩, hattributes⟩
          · cases hsteps : facts.attributeSteps with
            | ok steps => exact absurd (exists_attributeSteps_iff.mp ⟨steps, hsteps⟩) hattributes
            | error error =>
                obtain ⟨before, attr, after, hsplit, hbefore, h⟩ :=
                  attributeSteps_eq_error_iff.mp hsteps
                exact .inr ⟨error, .ofAttribute hname henabling honly hsplit hbefore h⟩
        · exact .inr ⟨error, .eventArgsOnly hname henabling h⟩

theorem resolve_of_firstDefect {error : ResolveError} (h : facts.FirstDefect error) :
    facts.resolve = .error error := by
  rw [resolve]
  cases h with
  | emptyName hname =>
      rw [if_pos hname]
      rfl
  | notAnnotated hname h =>
      have hnone : facts.enablingAttribute? = none := by
        rwa [isNotificationTarget, Option.isSome_eq_false_iff, Option.isNone_iff_eq_none] at h
      rw [if_neg hname, hnone]
      rfl
  | @eventArgsOnly enabling _ hname henabling h =>
      have hrefused := (enabling.eventArgsOnly_settles facts.name).eq_error_iff.mpr h
      rw [if_neg hname, show facts.enablingAttribute? = some enabling from henabling]
      exact bind_eq_error_iff.mpr (.inl hrefused)
  | @ofAttribute enabling only before after attr _ hname henabling honly hsplit hbefore h =>
      have hsteps := attributeSteps_eq_error_iff.mpr ⟨before, attr, after, hsplit, hbefore, h⟩
      have hasked := (enabling.eventArgsOnly_settles facts.name).eq_ok_iff.mpr honly
      rw [if_neg hname, show facts.enablingAttribute? = some enabling from henabling]
      exact bind_eq_error_iff.mpr
        (.inr ⟨only, hasked, bind_eq_error_iff.mpr (.inl hsteps)⟩)

theorem IsWellFormed.exists_resolve (h : facts.IsWellFormed) :
    ∃ descriptor, facts.resolve = .ok descriptor := by
  obtain ⟨enabling, only, henabling, honly⟩ := h.enabling
  obtain ⟨steps, hsteps⟩ := exists_attributeSteps_iff.mpr h.attributes
  have hasked := (enabling.eventArgsOnly_settles facts.name).eq_ok_iff.mpr honly
  rw [resolve, if_neg h.name, show facts.enablingAttribute? = some enabling from henabling]
  exact ⟨_, bind_eq_ok_iff.mpr ⟨only, hasked, bind_eq_ok_iff.mpr ⟨steps, hsteps, rfl⟩⟩⟩

theorem isWellFormed_of_resolve {descriptor : PropertyDescriptor}
    (h : facts.resolve = .ok descriptor) : facts.IsWellFormed := by
  rcases facts.isWellFormed_or_firstDefect with hwell | ⟨error, hdefect⟩
  · exact hwell
  · cases h.symm.trans (resolve_of_firstDefect hdefect)

theorem resolve_eq_error_iff {error : ResolveError} :
    facts.resolve = .error error ↔ facts.FirstDefect error := by
  refine ⟨fun h => ?_, resolve_of_firstDefect⟩
  rcases facts.isWellFormed_or_firstDefect with hwell | ⟨other, hdefect⟩
  · obtain ⟨descriptor, hok⟩ := hwell.exists_resolve
    cases hok.symm.trans h
  · cases (resolve_of_firstDefect hdefect).symm.trans h
    exact hdefect

end PropertyFacts

/-! ## Arguments that are not read -/

/-- Attributes that differ at most in arguments that are not read, as all are of an attribute that
is not recognised and those of the constructor are of the enabling one. -/
structure Attribute.AgreesOnRead (attr other : Attribute) : Prop where
  className : other.className = attr.className
  constructorArguments : ∀ role : AttributeRole, role ≠ .enable →
    attr.isOf role.className = true → other.constructorArguments = attr.constructorArguments
  eventArgsOnly : attr.isOf (AttributeRole.className .enable) = true →
    other.namedArguments.find? "EventArgsOnly" = attr.namedArguments.find? "EventArgsOnly"

namespace Attribute.AgreesOnRead

variable {attr other : Attribute}

theorem isOf_eq (h : attr.AgreesOnRead other) (className : String) :
    other.isOf className = attr.isOf className := by
  rw [isOf, isOf, h.className]

theorem step_eq (h : attr.AgreesOnRead other) (property : String) (default : Option Accessibility) :
    other.step property default = attr.step property default := by
  have hrole : other.role? = attr.role? := by
    simp only [role?, h.isOf_eq]
  rw [step, step, hrole]
  cases hattr : attr.role? with
  | none => rfl
  | some role =>
      have harguments (hne : role ≠ .enable) :=
        h.constructorArguments role hne (role?_eq_some_iff.mp hattr)
      cases role with
      | enable => rfl
      | event phase | observable phase =>
          simp only [accessibility, accessibilityChoice, h.className, harguments (by simp)]
      | redirect phase =>
          simp only [eventRedirect, h.className, harguments (by simp)]

theorem eventArgsOnly_eq (h : attr.AgreesOnRead other)
    (hclass : attr.isOf (AttributeRole.className .enable) = true) (property : String) :
    other.eventArgsOnly property = attr.eventArgsOnly property := by
  have hargument : other.namedArguments.find? Vocabulary.eventArgsOnlyArgument =
      attr.namedArguments.find? Vocabulary.eventArgsOnlyArgument := h.eventArgsOnly hclass
  rw [Attribute.eventArgsOnly, Attribute.eventArgsOnly, hargument, h.className]

end Attribute.AgreesOnRead

namespace PropertyFacts

variable {facts : PropertyFacts} {attributes : List Attribute}

theorem attributeSteps_eq_of_agreesOnRead
    (h : List.Forall₂ Attribute.AgreesOnRead facts.attributes attributes) :
    { facts with attributes }.attributeSteps = facts.attributeSteps := by
  have hresults (property : String) (default : Option Accessibility) :
      attributes.mapM (·.step property default) =
        facts.attributes.mapM (·.step property default) := by
    generalize facts.attributes = given at h
    induction h with
    | nil => rfl
    | cons hattr _ ih => rw [List.mapM_cons, List.mapM_cons, hattr.step_eq, ih]
  exact congrArg (· >>= fun results => .ok results.flatten) (hresults _ _)

theorem enablingAttribute?_map_of_agreesOnRead
    (h : List.Forall₂ Attribute.AgreesOnRead facts.attributes attributes) :
    { facts with attributes }.enablingAttribute?.map (Attribute.eventArgsOnly · facts.name) =
      facts.enablingAttribute?.map (Attribute.eventArgsOnly · facts.name) := by
  simp only [enablingAttribute?, findAttribute?]
  generalize facts.attributes = given at h
  induction h with
  | nil => rfl
  | @cons attr other _ _ hattr _ ih =>
      rw [List.find?_cons, List.find?_cons, hattr.isOf_eq]
      cases hclass : attr.isOf (AttributeRole.className .enable) with
      | true => exact congrArg some (hattr.eventArgsOnly_eq hclass facts.name)
      | false => exact ih

theorem resolve_eq_of_agreesOnRead
    (h : List.Forall₂ Attribute.AgreesOnRead facts.attributes attributes) :
    { facts with attributes }.resolve = facts.resolve := by
  have henabling := enablingAttribute?_map_of_agreesOnRead h
  rw [resolve, resolve, attributeSteps_eq_of_agreesOnRead h]
  cases hgiven : facts.enablingAttribute? with
  | none =>
      rw [hgiven, Option.map_none, Option.map_eq_none_iff] at henabling
      rw [henabling]
  | some enabling =>
      rw [hgiven, Option.map_some, Option.map_eq_some_iff] at henabling
      obtain ⟨other, hother, honly⟩ := henabling
      simp only [hother, honly]
      rfl

/-- Resolution succeeds exactly on well-formed facts and otherwise fails by the first defect. The
arguments that are not read are never a reason to fail, nor do they change the result. -/
theorem resolve_outcome (facts : PropertyFacts) :
    ((∃ descriptor, facts.resolve = .ok descriptor) ↔ facts.IsWellFormed) ∧
    (∀ error, facts.resolve = .error error ↔ facts.FirstDefect error) ∧
    (facts.isNotificationTarget = true ↔
      ∃ attr ∈ facts.attributes, attr.isOf (AttributeRole.className .enable) = true) ∧
    ∀ attributes, List.Forall₂ Attribute.AgreesOnRead facts.attributes attributes →
      { facts with attributes }.resolve = facts.resolve := by
  refine ⟨⟨?_, IsWellFormed.exists_resolve⟩, fun _ => resolve_eq_error_iff, ?_, fun _ => ?_⟩
  · rintro ⟨descriptor, h⟩
    exact isWellFormed_of_resolve h
  · rw [isNotificationTarget, enablingAttribute?, findAttribute?, List.find?_isSome]
  · exact resolve_eq_of_agreesOnRead

/-- An attribute with a value for which the enumeration has no member. -/
def sampleUnknown : Attribute where
  className := "global::PropNotify.ChangedEventAttribute"
  constructorArguments := [.int 7]

theorem resolve_outcome_sample :
    let facts := sample .unknown
    let argued := facts.attributes.map ({ · with constructorArguments := [.bool true] })
    (∃ descriptor, facts.resolve = .ok descriptor) ∧
    { facts with attributes := facts.attributes ++ [sampleUnknown] }.resolve =
      .error (.unknownAccessibility "global::PropNotify.ChangedEventAttribute" "Title" "7") ∧
    List.Forall₂ Attribute.AgreesOnRead facts.attributes argued ∧
    { facts with attributes := argued }.resolve = facts.resolve := by
  intro facts argued
  have henable : ∀ attr ∈ facts.attributes,
      attr.isOf (AttributeRole.className .enable) = true := by
    decide
  have hattr : ∀ attr ∈ facts.attributes, attr.IsWellFormed := by
    intro attr hmem
    have hasks : attr.AsksFor .publicAccess [] :=
      .nothing fun role hclass => Attribute.isOf_unique hclass (henable attr hmem)
    exact hasks.isWellFormed
  have hargued : List.Forall₂ Attribute.AgreesOnRead facts.attributes argued := by
    refine .cons ⟨rfl, fun role hne hclass => ?_, fun _ => rfl⟩ .nil
    exact absurd (Attribute.isOf_unique hclass (henable _ (.head _))) hne
  have hwell : facts.IsWellFormed := ⟨by decide, ⟨_, _, rfl, .absent⟩, hattr⟩
  have hevent : sampleUnknown.isOf (AttributeRole.className (.event .changed)) = true := by decide
  refine ⟨(resolve_outcome facts).1.mpr hwell, ?_, hargued,
    (resolve_outcome facts).2.2.2 argued hargued⟩
  exact ((resolve_outcome _).2.1 _).mpr
    (.ofAttribute (by decide) rfl .absent rfl hattr (.accessibility hevent rfl (.value (by decide))))

end PropertyFacts

end ChangeNotification
