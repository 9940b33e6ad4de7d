import ChangeNotification.Proofs.Text.Segment
import ChangeNotification.Resolution.Accessibility
import Mathlib.Data.List.TakeWhile

/-! # Literals of accessibilities

A literal is the name of a member of the enumeration behind a lead. Three leads with the name of the
enumeration are meant, each of them with one dot, and many more are taken. -/

namespace ChangeNotification

/-! ## Members -/

namespace AccessibilityChoice

/-- The value of a member in the enumeration. -/
def value (choice : AccessibilityChoice) : Int64 :=
  .ofNat (all.idxOf choice)

/-- The accessibility that a member stands for. -/
def settle (choice : AccessibilityChoice) (default : Option Accessibility) : Option Accessibility :=
  match choice with
  | byDefault => default
  | level accessibility => some accessibility

theorem ofValue?_value (choice : AccessibilityChoice) :
    ofValue? choice.value.toInt = some choice := by
  rcases choice with _ | (_ | _ | _ | _ | _ | _) <;> rfl

theorem ofMemberName?_eq_some_iff {choice : AccessibilityChoice} {name : String} :
    ofMemberName? name = some choice ↔ name = choice.memberName := by
  constructor
  · intro h
    simpa [eq_comm] using List.find?_some h
  · rintro rfl
    rcases choice with _ | (_ | _ | _ | _ | _ | _) <;> rfl

end AccessibilityChoice

/-! ## Leads -/

/-- What may stand before the name of a member. -/
inductive LiteralLead where
  | bare (rooted : Bool)
  | enumeration (rooted qualified : Bool) (dots : Nat)
  deriving DecidableEq, Repr

namespace LiteralLead

def root (rooted : Bool) : String :=
  if rooted then "global::" else ""

def enumName (qualified : Bool) : String :=
  if qualified then Vocabulary.qualifiedAccessibilityEnum else Vocabulary.accessibilityEnum

def text : LiteralLead → String
  | bare rooted => root rooted
  | enumeration rooted qualified dots =>
      root rooted ++ (enumName qualified ++ String.ofList (List.replicate dots '.'))

/-- The leads that are meant. -/
def documented : List LiteralLead :=
  [bare false, enumeration false false 1, enumeration false true 1, enumeration true true 1]

end LiteralLead

open LiteralLead

/-- Where nothing begins like the mark of the root namespace, the mark is taken off once. -/
theorem unrooted_root_append {front : String}
    (h : ¬ ("global::".toList <+: front.toList ∨ front.toList <+: "global::".toList))
    (rooted : Bool) (rest : String) :
    unrooted (root rooted ++ (front ++ rest)) = front ++ rest := by
  cases rooted with
  | false =>
      have hroot : root false ++ (front ++ rest) = front ++ rest := String.empty_append
      rw [hroot, unrooted, Text.withoutLead, Text.afterLead?_append_eq_none h]
      rfl
  | true =>
      have hlead : Text.afterLead? "global::" (root true ++ (front ++ rest)) = some (front ++ rest) :=
        Text.afterLead?_eq_some_iff.mpr rfl
      rw [unrooted, Text.withoutLead, hlead]
      rfl

theorem eq_root_append_unrooted (s : String) : ∃ rooted, s = root rooted ++ unrooted s := by
  cases hlead : Text.afterLead? "global::" s with
  | none => exact ⟨false, by simp [root, unrooted, Text.withoutLead, hlead]⟩
  | some rest =>
      refine ⟨true, ?_⟩
      rw [unrooted, Text.withoutLead, hlead]
      exact Text.afterLead?_eq_some_iff.mp hlead

/-! ## Literals -/

theorem accessibilityLiteral_eq (s : String) :
    accessibilityLiteral s =
      match (Text.afterLead? Vocabulary.qualifiedAccessibilityEnum (unrooted s)).or
        (Text.afterLead? Vocabulary.accessibilityEnum (unrooted s)) with
      | some rest => String.ofList (rest.toList.dropWhile (· = '.'))
      | none => unrooted s := by
  -- The generated equation would evaluate the names of the enumeration.
  delta accessibilityLiteral
  exact rfl

/-- A name with dots before it, none of which belongs to the name. -/
theorem dropWhile_dots_eq_iff {s name : String} (h : name.toList.head? ≠ some '.') :
    String.ofList (s.toList.dropWhile (· = '.')) = name ↔
      ∃ dots, s = String.ofList (List.replicate dots '.') ++ name := by
  constructor
  · rintro rfl
    have hdots : s.toList.takeWhile (· = '.') =
        List.replicate (s.toList.takeWhile (· = '.')).length '.' :=
      List.eq_replicate_of_mem fun c hc => by simpa using List.mem_takeWhile_imp hc
    refine ⟨(s.toList.takeWhile (· = '.')).length, ?_⟩
    rw [← hdots, ← String.ofList_append, List.takeWhile_append_dropWhile, String.ofList_toList]
  · rintro ⟨dots, rfl⟩
    have hall : ∀ c ∈ List.replicate dots '.', decide (c = '.') = true := by
      simp [List.mem_replicate]
    have hname : name.toList.dropWhile (· = '.') = name.toList := by
      cases hc : name.toList with
      | nil => rfl
      | cons c rest =>
          have hne : c ≠ '.' := by simpa [hc] using h
          exact List.dropWhile_cons_of_neg (by simpa using hne)
    rw [String.toList_append, String.toList_ofList, List.dropWhile_append_of_pos hall, hname,
      String.ofList_toList]

/-- What the names of the members do not begin with. -/
theorem AccessibilityChoice.not_lead_memberName (choice : AccessibilityChoice) :
    choice.memberName.toList.head? ≠ some '.' ∧
    ∀ lead ∈ ["global::", Vocabulary.qualifiedAccessibilityEnum, Vocabulary.accessibilityEnum],
      ¬ (lead.toList <+: choice.memberName.toList ∨ choice.memberName.toList <+: lead.toList) := by
  rcases choice with _ | (_ | _ | _ | _ | _ | _) <;> decide

theorem not_lead_enumName (qualified : Bool) :
    ¬ ("global::".toList <+: (enumName qualified).toList ∨
      (enumName qualified).toList <+: "global::".toList) := by
  cases qualified <;> decide

theorem afterLead?_enumName_append (qualified : Bool) (rest : String) :
    (Text.afterLead? Vocabulary.qualifiedAccessibilityEnum (enumName qualified ++ rest)).or
      (Text.afterLead? Vocabulary.accessibilityEnum (enumName qualified ++ rest)) = some rest := by
  have hafter : Text.afterLead? (enumName qualified) (enumName qualified ++ rest) = some rest :=
    Text.afterLead?_eq_some_iff.mpr rfl
  cases qualified with
  | true =>
      have hlong : Text.afterLead? Vocabulary.qualifiedAccessibilityEnum
          (enumName true ++ rest) = some rest := hafter
      simp only [hlong, Option.some_or]
  | false =>
      have hlong : Text.afterLead? Vocabulary.qualifiedAccessibilityEnum
          (enumName false ++ rest) = none := Text.afterLead?_append_eq_none (by decide) rest
      simp only [hlong, Option.none_or]
      exact hafter

/-- A member's name is found behind every lead. -/
theorem accessibilityLiteral_append_memberName (lead : LiteralLead)
    (choice : AccessibilityChoice) :
    accessibilityLiteral (lead.text ++ choice.memberName) = choice.memberName := by
  obtain ⟨hdot, hleads⟩ := choice.not_lead_memberName
  simp only [List.forall_mem_cons] at hleads
  obtain ⟨hglobal, hlong, hshort, -⟩ := hleads
  cases lead with
  | bare rooted =>
      have hname : unrooted (root rooted ++ choice.memberName) = choice.memberName := by
        simpa using unrooted_root_append hglobal rooted ""
      have hnone {lead : String} (h : ¬ (lead.toList <+: choice.memberName.toList ∨
          choice.memberName.toList <+: lead.toList)) :
          Text.afterLead? lead choice.memberName = none := by
        simpa using Text.afterLead?_append_eq_none h ""
      simp only [accessibilityLiteral_eq, LiteralLead.text, hname, hnone hlong, hnone hshort,
        Option.none_or]
  | enumeration rooted qualified dots =>
      let rest := String.ofList (List.replicate dots '.') ++ choice.memberName
      have hname : unrooted (root rooted ++ (enumName qualified ++ rest)) =
          enumName qualified ++ rest :=
        unrooted_root_append (not_lead_enumName qualified) rooted rest
      have htext : (LiteralLead.enumeration rooted qualified dots).text ++ choice.memberName =
          root rooted ++ (enumName qualified ++ rest) := by
        simp [LiteralLead.text, rest, String.append_assoc]
      rw [htext, accessibilityLiteral_eq, hname, afterLead?_enumName_append]
      exact (dropWhile_dots_eq_iff hdot).mpr ⟨dots, rfl⟩

theorem exists_lead_of_accessibilityLiteral {s : String} {choice : AccessibilityChoice}
    (h : accessibilityLiteral s = choice.memberName) :
    ∃ lead : LiteralLead, s = lead.text ++ choice.memberName := by
  obtain ⟨rooted, hs⟩ := eq_root_append_unrooted s
  have hafter (qualified : Bool) {rest : String}
      (hrest : Text.afterLead? (enumName qualified) (unrooted s) = some rest)
      (hname : String.ofList (rest.toList.dropWhile (· = '.')) = choice.memberName) :
      ∃ lead : LiteralLead, s = lead.text ++ choice.memberName := by
    obtain ⟨dots, rfl⟩ := (dropWhile_dots_eq_iff choice.not_lead_memberName.1).mp hname
    refine ⟨.enumeration rooted qualified dots, ?_⟩
    rw [hs, Text.afterLead?_eq_some_iff.mp hrest, LiteralLead.text]
    simp [String.append_assoc]
  rw [accessibilityLiteral_eq] at h
  cases hlong : Text.afterLead? Vocabulary.qualifiedAccessibilityEnum (unrooted s) with
  | some rest =>
      simp only [hlong] at h
      exact hafter true hlong h
  | none =>
      cases hshort : Text.afterLead? Vocabulary.accessibilityEnum (unrooted s) with
      | some rest =>
          simp only [hlong, hshort] at h
          exact hafter false hshort h
      | none =>
          simp only [hlong, hshort] at h
          exact ⟨.bare rooted, h ▸ hs⟩

/-- A text names a member exactly if it is the member's name behind a lead. -/
theorem ofMemberName?_accessibilityLiteral_iff {s : String} {choice : AccessibilityChoice} :
    AccessibilityChoice.ofMemberName? (accessibilityLiteral s) = some choice ↔
      ∃ lead : LiteralLead, s = lead.text ++ choice.memberName := by
  rw [AccessibilityChoice.ofMemberName?_eq_some_iff]
  constructor
  · exact exists_lead_of_accessibilityLiteral
  · rintro ⟨lead, rfl⟩
    exact accessibilityLiteral_append_memberName lead choice

/-! ## Attributes with one text -/

/-- An attribute with one argument. -/
def Attribute.withOnly (attr : Attribute) (value : AttributeValue) : Attribute :=
  { attr with constructorArguments := [value] }

theorem Attribute.accessibility_withOnly_value (attr : Attribute) (property : String)
    (default : Option Accessibility) (choice : AccessibilityChoice) :
    (attr.withOnly (.int choice.value)).accessibility property default =
      .ok (choice.settle default) := by
  simp only [accessibility, accessibilityChoice, withOnly, choice.ofValue?_value]
  cases choice <;> rfl

/-- A text is taken as the member that it names behind any lead, with the same result as the value
of the member. Every other text is refused and quoted. The leads that are meant are among those that
are taken. -/
theorem Attribute.accessibility_withOnly_text (attr : Attribute) (property : String)
    (default : Option Accessibility) (s : String) :
    let given (value : AttributeValue) := (attr.withOnly value).accessibility property default
    (∀ (lead : LiteralLead) (choice : AccessibilityChoice), s = lead.text ++ choice.memberName →
      given (.text s) = .ok (choice.settle default) ∧
        given (.text s) = given (.int choice.value)) ∧
    ((∀ (lead : LiteralLead) (choice : AccessibilityChoice), s ≠ lead.text ++ choice.memberName) →
      given (.text s) =
        .error (.unknownAccessibility attr.className property ("\"" ++ s ++ "\""))) ∧
    LiteralLead.documented.map LiteralLead.text =
      ["", "NotificationAccessibility.", "PropNotify.NotificationAccessibility.",
        "global::PropNotify.NotificationAccessibility."] := by
  intro given
  refine ⟨fun lead choice hs => ?_, fun hnone => ?_, by decide⟩
  · have hmember : AccessibilityChoice.ofMemberName? (accessibilityLiteral s) = some choice :=
      ofMemberName?_accessibilityLiteral_iff.mpr ⟨lead, hs⟩
    have htext : given (.text s) = .ok (choice.settle default) := by
      simp only [given, accessibility, accessibilityChoice, withOnly, hmember]
      cases choice <;> rfl
    exact ⟨htext, htext.trans (attr.accessibility_withOnly_value property default choice).symm⟩
  · have hmember : AccessibilityChoice.ofMemberName? (accessibilityLiteral s) = none := by
      refine Option.eq_none_iff_forall_ne_some.mpr fun choice hchoice => ?_
      obtain ⟨lead, hs⟩ := ofMemberName?_accessibilityLiteral_iff.mp hchoice
      exact hnone lead choice hs
    simp only [given, accessibility, accessibilityChoice, withOnly, hmember]
    rfl

/-- An attribute that declares the event after a change. -/
def Attribute.sampleEvent : Attribute where
  className := AttributeRole.className (.event .changed)

theorem Attribute.accessibility_withOnly_text_sampleEvent :
    let given (s : String) :=
      (sampleEvent.withOnly (.text s)).accessibility "Title" (some .privateAccess)
    given "global::PropNotify.NotificationAccessibility.ProtectedInternal" =
      .ok (some .protectedInternal) ∧
    given "NotificationAccessibility.Default" = .ok (some .privateAccess) ∧
    given "Sideways" = .error
      (.unknownAccessibility "PropNotify.ChangedEventAttribute" "Title" "\"Sideways\"") := by
  intro given
  have htext (s : String) := sampleEvent.accessibility_withOnly_text "Title" (some .privateAccess) s
  refine ⟨?_, ?_, (htext "Sideways").2.1 fun lead choice hs => ?_⟩
  · exact ((htext _).1 (.enumeration true true 1) (.level .protectedInternal) (by decide)).1
  · exact ((htext _).1 (.enumeration false false 1) .byDefault (by decide)).1
  · have hnone : AccessibilityChoice.ofMemberName? (accessibilityLiteral "Sideways") = none := by
      decide
    have hsome := ofMemberName?_accessibilityLiteral_iff.mpr ⟨lead, hs⟩
    exact Option.some_ne_none choice (hsome.symm.trans hnone)

/-- The dot behind the name of the enumeration can be left out. -/
theorem Attribute.accessibility_sampleEvent_undotted :
    (∀ lead ∈ LiteralLead.documented, ∀ choice : AccessibilityChoice,
      "NotificationAccessibilityPublic" ≠ lead.text ++ choice.memberName) ∧
    (sampleEvent.withOnly (.text "NotificationAccessibilityPublic")).accessibility "Title"
      (some .privateAccess) = .ok (some .publicAccess) := by
  have hnone : ∀ lead ∈ LiteralLead.documented, ∀ choice ∈ AccessibilityChoice.all,
      "NotificationAccessibilityPublic" ≠ lead.text ++ choice.memberName := by
    decide
  exact ⟨fun lead hlead choice => hnone lead hlead choice choice.mem_all, rfl⟩

end ChangeNotification
