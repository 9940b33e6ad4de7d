import ChangeNotification.Proofs.Computation
import ChangeNotification.Proofs.Resolution.AccessibilityLiteral
import ChangeNotification.Resolution.Property

/-! # Arguments of attributes

Which arguments the classes of attributes take, what is asked for by them, and how all others are
refused. -/

namespace ChangeNotification

/-! ## Members of the accessibility enumeration -/

namespace AccessibilityChoice

theorem ofValue?_eq_some_iff {choice : AccessibilityChoice} {n : Int64} :
    ofValue? n.toInt = some choice ↔ n = choice.value := by
  constructor
  · intro h
    rw [ofValue?] at h
    split at h
    · rename_i hpos
      have hnodup : all.Nodup := by decide
      obtain ⟨hlt, hchoice⟩ := List.getElem?_eq_some_iff.mp h
      have hindex : all.idxOf choice = n.toInt.toNat := by
        rw [← hchoice]
        exact hnodup.idxOf_getElem _ hlt
      rw [value, hindex, ← Int64.ofInt_eq_ofNat, Int.toNat_of_nonneg hpos, Int64.ofInt_toInt]
    · cases h
  · rintro rfl
    exact choice.ofValue?_value

/-- The values of the members are the numbers from 0 to 6. -/
theorem exists_value_iff {n : Int64} :
    (∃ choice : AccessibilityChoice, n = choice.value) ↔ 0 ≤ n.toInt ∧ n.toInt ≤ 6 := by
  constructor
  · rintro ⟨choice, rfl⟩
    rcases choice with _ | (_ | _ | _ | _ | _ | _) <;> decide
  · rintro ⟨hpos, hle⟩
    have hlt : n.toInt.toNat < all.length := by
      change n.toInt.toNat < 7
      omega
    have hvalue : ofValue? n.toInt = some all[n.toInt.toNat] := by
      rw [ofValue?, if_pos hpos, List.getElem?_eq_getElem hlt]
    exact ⟨_, ofValue?_eq_some_iff.mp hvalue⟩

end AccessibilityChoice

/-! ## Accessibilities -/

/-- The arguments by which a member of the enumeration is chosen: its value or a text that names it;
the default also by none. -/
inductive AccessibilityChoice.ChosenBy : AccessibilityChoice → List AttributeValue → Prop
  | omitted : ChosenBy .byDefault []
  | value (choice : AccessibilityChoice) : ChosenBy choice [.int choice.value]
  | name {choice : AccessibilityChoice} {s : String}
      (h : accessibilityLiteral s = choice.memberName) : ChosenBy choice [.text s]

/-- How arguments are refused in the place of a member. -/
inductive AccessibilityDefect (className property : String) :
    List AttributeValue → ResolveError → Prop
  | value {n : Int64} (h : ¬ (0 ≤ n.toInt ∧ n.toInt ≤ 6)) :
      AccessibilityDefect className property [.int n]
        (.unknownAccessibility className property (toString n.toInt))
  | name {s : String} (h : ∀ choice : AccessibilityChoice,
      accessibilityLiteral s ≠ choice.memberName) :
      AccessibilityDefect className property [.text s]
        (.unknownAccessibility className property ("\"" ++ s ++ "\""))
  | truth (b : Bool) :
      AccessibilityDefect className property [.bool b]
        (.invalidAttributeArgument className property
          ("expected a notification accessibility, found " ++ if b then "true" else "false"))
  | count {arguments : List AttributeValue} (h : 2 ≤ arguments.length) :
      AccessibilityDefect className property arguments
        (.unexpectedConstructorArguments className property arguments.length)

/-- Arguments choose a member or are refused. -/
theorem exists_chosenBy_or_defect (className property : String) (arguments : List AttributeValue) :
    (∃ choice : AccessibilityChoice, choice.ChosenBy arguments) ∨
      ∃ error, AccessibilityDefect className property arguments error := by
  match arguments with
  | [] => exact .inl ⟨_, .omitted⟩
  | [.int n] =>
      by_cases h : 0 ≤ n.toInt ∧ n.toInt ≤ 6
      · obtain ⟨choice, rfl⟩ := AccessibilityChoice.exists_value_iff.mpr h
        exact .inl ⟨choice, .value choice⟩
      · exact .inr ⟨_, .value h⟩
  | [.text s] =>
      by_cases h : ∃ choice : AccessibilityChoice, accessibilityLiteral s = choice.memberName
      · obtain ⟨choice, hchoice⟩ := h
        exact .inl ⟨choice, .name hchoice⟩
      · exact .inr ⟨_, .name (not_exists.mp h)⟩
  | [.bool b] => exact .inr ⟨_, .truth b⟩
  | _ :: _ :: _ => exact .inr ⟨_, .count (by simp)⟩

namespace Attribute

open AccessibilityChoice

variable (attr : Attribute) (property : String)

theorem accessibilityChoice_of_chosenBy {choice : AccessibilityChoice}
    (h : choice.ChosenBy attr.constructorArguments) :
    attr.accessibilityChoice property = .ok choice := by
  rw [accessibilityChoice]
  generalize attr.constructorArguments = arguments at h ⊢
  cases h with
  | omitted => rfl
  | value => simp only [choice.ofValue?_value]
  | name h => simp only [ofMemberName?_eq_some_iff.mpr h]

theorem accessibilityChoice_of_defect {error : ResolveError}
    (h : AccessibilityDefect attr.className property attr.constructorArguments error) :
    attr.accessibilityChoice property = .error error := by
  rw [accessibilityChoice]
  generalize attr.constructorArguments = arguments at h ⊢
  cases h with
  | @value n h =>
      have hnone : ofValue? n.toInt = none := by
        refine Option.eq_none_iff_forall_ne_some.mpr fun choice hchoice => h ?_
        exact exists_value_iff.mp ⟨choice, ofValue?_eq_some_iff.mp hchoice⟩
      simp only [hnone]
      rfl
  | @name s h =>
      have hnone : ofMemberName? (accessibilityLiteral s) = none := by
        refine Option.eq_none_iff_forall_ne_some.mpr fun choice hchoice => h choice ?_
        exact ofMemberName?_eq_some_iff.mp hchoice
      simp only [hnone]
      rfl
  | truth b => cases b <;> rfl
  | count h =>
      obtain _ | ⟨first, _ | ⟨second, rest⟩⟩ := arguments
      · cases h
      · cases Nat.le_of_succ_le_succ h
      · cases first <;> rfl

theorem accessibilityChoice_settles :
    Settles (attr.accessibilityChoice property) (ChosenBy · attr.constructorArguments)
      (AccessibilityDefect attr.className property attr.constructorArguments) :=
  .of_total (fun _ => attr.accessibilityChoice_of_chosenBy property)
    (fun _ => attr.accessibilityChoice_of_defect property) (exists_chosenBy_or_defect ..)

end Attribute

/-- The accessibility that is asked for by arguments on a property of the accessibility `default`. -/
inductive AsksLevel (default : Accessibility) : List AttributeValue → Accessibility → Prop
  | byDefault {arguments : List AttributeValue}
      (h : AccessibilityChoice.byDefault.ChosenBy arguments) : AsksLevel default arguments default
  | level {arguments : List AttributeValue} {accessibility : Accessibility}
      (h : (AccessibilityChoice.level accessibility).ChosenBy arguments) :
      AsksLevel default arguments accessibility

/-- An attribute that is taken asks for some accessibility, never for none. -/
theorem Attribute.accessibility_settles (attr : Attribute) (property : String)
    (default : Accessibility) :
    Settles (attr.accessibility property (some default))
      (fun asked => ∃ level, asked = some level ∧ AsksLevel default attr.constructorArguments level)
      (AccessibilityDefect attr.className property attr.constructorArguments) := by
  have hchoice := attr.accessibilityChoice_settles property
  rw [accessibility]
  constructor
  · intro asked
    rw [bind_eq_ok_iff]
    simp only [hchoice.eq_ok_iff]
    constructor
    · rintro ⟨choice, hchosen, hasked⟩
      cases choice with
      | byDefault => exact ⟨default, (Except.ok.inj hasked).symm, .byDefault hchosen⟩
      | level accessibility => exact ⟨accessibility, (Except.ok.inj hasked).symm, .level hchosen⟩
    · rintro ⟨level, rfl, hlevel⟩
      cases hlevel with
      | byDefault h => exact ⟨.byDefault, h, rfl⟩
      | level h => exact ⟨.level level, h, rfl⟩
  · intro error
    rw [bind_eq_error_iff, hchoice.eq_error_iff, or_iff_left]
    rintro ⟨choice, -, herror⟩
    cases choice <;> cases herror

/-! ## Redirects -/

/-- The redirect that is asked for by the names of an interface and of its event. -/
inductive AsksRedirect (phase : Phase) : List AttributeValue → EventRedirect → Prop
  | names (interfaceType eventName : String) :
      AsksRedirect phase [.text interfaceType, .text eventName]
        ⟨Attribute.rooted interfaceType, eventName, phase⟩

theorem AsksRedirect.phase_eq {phase : Phase} {arguments : List AttributeValue}
    {redirect : EventRedirect} (h : AsksRedirect phase arguments redirect) :
    redirect.phase = phase := by
  cases h with
  | names => rfl

/-- How arguments are refused in the place of two names. -/
inductive RedirectDefect (className property : String) : List AttributeValue → ResolveError → Prop
  | kinds {first second : AttributeValue}
      (h : ∀ interfaceType eventName, ¬ (first = .text interfaceType ∧ second = .text eventName)) :
      RedirectDefect className property [first, second]
        (.invalidAttributeArgument className property
          "expected an interface type name and an event name")
  | count {arguments : List AttributeValue} (h : arguments.length ≠ 2) :
      RedirectDefect className property arguments
        (.unexpectedConstructorArguments className property arguments.length)

theorem Attribute.eventRedirect_settles (attr : Attribute) (property : String) (phase : Phase) :
    Settles (attr.eventRedirect property phase) (AsksRedirect phase attr.constructorArguments)
      (RedirectDefect attr.className property attr.constructorArguments) := by
  rw [eventRedirect]
  refine .of_total (fun redirect hredirect => ?_) (fun error herror => ?_) ?_
  · generalize attr.constructorArguments = arguments at hredirect ⊢
    cases hredirect with
    | names => rfl
  · generalize attr.constructorArguments = arguments at herror ⊢
    cases herror with
    | @kinds first second h =>
        cases first with
        | text interfaceType =>
            cases second with
            | text eventName => exact absurd ⟨rfl, rfl⟩ (h interfaceType eventName)
            | int | bool => rfl
        | int | bool => rfl
    | count h =>
        match arguments, h with
        | [], _ => rfl
        | [first], _ => cases first <;> rfl
        | first :: second :: _ :: _, _ => cases first <;> cases second <;> rfl
  · match attr.constructorArguments with
    | [first, second] =>
        by_cases h : ∃ interfaceType eventName, first = .text interfaceType ∧ second = .text eventName
        · obtain ⟨interfaceType, eventName, rfl, rfl⟩ := h
          exact .inl ⟨_, .names interfaceType eventName⟩
        · exact .inr ⟨_, .kinds fun interfaceType eventName hnames => h ⟨_, _, hnames⟩⟩
    | [] | [_] | _ :: _ :: _ :: _ => exact .inr ⟨_, .count (by simp)⟩

/-! ## Event arguments alone -/

/-- What a named argument says about event arguments; without it all members are asked for. -/
inductive AsksEventArgsOnly : Option AttributeValue → Bool → Prop
  | absent : AsksEventArgsOnly none false
  | given (only : Bool) : AsksEventArgsOnly (some (.bool only)) only

theorem AsksEventArgsOnly.unique {argument : Option AttributeValue} {only other : Bool}
    (h : AsksEventArgsOnly argument only) (hother : AsksEventArgsOnly argument other) :
    only = other := by
  cases h with
  | absent =>
      cases hother with
      | absent => rfl
  | given =>
      cases hother with
      | given => rfl

/-- How the named argument is refused. -/
inductive EventArgsOnlyDefect (className property : String) :
    Option AttributeValue → ResolveError → Prop
  | kind {value : AttributeValue} (h : ∀ only, value ≠ .bool only) :
      EventArgsOnlyDefect className property (some value)
        (.invalidAttributeArgument className property
          ("EventArgsOnly must be a bool, found " ++ value.display))

theorem Attribute.eventArgsOnly_settles (attr : Attribute) (property : String) :
    Settles (attr.eventArgsOnly property)
      (AsksEventArgsOnly (attr.namedArguments.find? "EventArgsOnly"))
      (EventArgsOnlyDefect attr.className property
        (attr.namedArguments.find? "EventArgsOnly")) := by
  rw [eventArgsOnly]
  have hname : Vocabulary.eventArgsOnlyArgument = "EventArgsOnly" := rfl
  rw [hname]
  generalize attr.namedArguments.find? "EventArgsOnly" = argument
  refine .of_total (fun only honly => ?_) (fun error herror => ?_) ?_
  · cases honly <;> rfl
  · cases herror with
    | @kind value h =>
        cases value with
        | bool only => exact absurd rfl (h only)
        | int | text => rfl
  · match argument with
    | none => exact .inl ⟨false, .absent⟩
    | some (.bool only) => exact .inl ⟨only, .given only⟩
    | some (.int n) => exact .inr ⟨_, .kind (by simp)⟩
    | some (.text s) => exact .inr ⟨_, .kind (by simp)⟩

end ChangeNotification
