import ChangeNotification.Proofs.Emission.Reports
import ChangeNotification.Proofs.Text.Join
import ChangeNotification.Proofs.Text.Lowercase

/-! # Identifiers of two properties

Members of two properties of a type may be given one identifier: the fields, where the names of the
properties differ in the case of the first character alone, and others where a name begins with an
underscore. -/

namespace ChangeNotification

/-- What generated identifiers are for. -/
inductive GeneratedName where
  | field | method
  | eventArgs (phase : Phase)
  | event (phase : Phase)
  | observable (phase : Phase)
  deriving DecidableEq, Repr

namespace GeneratedName

/-- Identifiers that put something in front of the name of a property. -/
def isPrefixed : GeneratedName → Bool
  | field | method | eventArgs _ => true
  | event _ | observable _ => false

/-- Identifiers that begin with the name of a property, or with an underscore and the name. -/
def isLeading : GeneratedName → Bool
  | method | event _ | observable _ => true
  | field | eventArgs _ => false

end GeneratedName

namespace MemberNames

def identifier (names : MemberNames) : GeneratedName → String
  | .field => names.field
  | .method => names.method
  | .eventArgs phase => names.eventArgs phase
  | .event phase => names.event phase
  | .observable phase => names.observable phase

/-- No member of the one property has the identifier of a member of the other. -/
def AreApart (names others : MemberNames) : Prop :=
  ∀ name other : GeneratedName, names.identifier name ≠ others.identifier other

/-- An identifier with something in front of the one name also begins with the other name, at the
latest after an underscore. -/
def Shadows (names others : MemberNames) : Prop :=
  ∃ name other : GeneratedName, name.isPrefixed = true ∧ other.isLeading = true ∧
    names.identifier name = others.identifier other

variable {names others : MemberNames}

/-! ## Identifiers that differ -/

/-- The ends of the identifiers that begin with the name of a property. -/
def suffixes : List String :=
  ["Changing", "Changed", "ChangingAsObservable", "ChangedAsObservable"]

theorem identifier_of_not_isPrefixed {name : GeneratedName} (h : name.isPrefixed = false) :
    ∃ suffix ∈ suffixes, names.identifier name = names.property ++ suffix := by
  cases name with
  | field | method | eventArgs => cases h
  | event phase => exact ⟨phase.suffix, by cases phase <;> decide, rfl⟩
  | observable phase =>
      exact ⟨phase.suffix ++ "AsObservable", by cases phase <;> decide, String.append_assoc⟩

/-- None of the ends is the end of another one. -/
theorem suffix_eq_of_suffix :
    ∀ suffix ∈ suffixes, ∀ other ∈ suffixes, suffix.toList <:+ other.toList → suffix = other := by
  decide +kernel

/-- Events and observables of two properties end in different ways, if not with different names. -/
theorem property_eq_of_not_isPrefixed {name other : GeneratedName}
    (hname : name.isPrefixed = false) (hother : other.isPrefixed = false)
    (h : names.identifier name = others.identifier other) : names.property = others.property := by
  obtain ⟨suffix, hsuffix, hidentifier⟩ := names.identifier_of_not_isPrefixed hname
  obtain ⟨suffix', hsuffix', hidentifier'⟩ := others.identifier_of_not_isPrefixed hother
  rw [hidentifier, hidentifier'] at h
  have hsame : suffix = suffix' := by
    rcases Text.suffix_or_suffix_of_append_eq h with hle | hle
    · exact suffix_eq_of_suffix suffix hsuffix suffix' hsuffix' hle
    · exact (suffix_eq_of_suffix suffix' hsuffix' suffix hsuffix hle).symm
  rwa [hsame, String.append_left_inj] at h

theorem property_eq_of_eventArgs {phase phase' : Phase}
    (h : names.eventArgs phase = others.eventArgs phase') : names.property = others.property := by
  have hfront := congrArg (fun s => s.toList.take 16) h
  cases phase with
  | changing =>
      cases phase' with
      | changing => simpa [eventArgs] using h
      | changed => simp [eventArgs, Phase.suffix] at hfront
  | changed =>
      cases phase' with
      | changing => simp [eventArgs, Phase.suffix] at hfront
      | changed => simpa [eventArgs] using h

/-- Fields never go on with a capital after their underscores, as arguments do. -/
theorem field_ne_eventArgs (names others : MemberNames) (phase : Phase) :
    names.field ≠ others.eventArgs phase := by
  intro h
  have hthird := congrArg (fun s => s.toList[2]?) h
  have hcapital : (Text.lowercaseFirst names.property).toList.head? = some 'P' := by
    cases phase <;> simpa [field, eventArgs, List.head?_eq_getElem?] using hthird
  exact Text.head?_lowercaseFirst_ne (by decide) (by decide) (by decide +kernel) _ hcapital

/-- Two prefixed identifiers are one only for fields and for methods. -/
theorem AreApart.of_fields (hne : names.property ≠ others.property)
    (hfields : names.field ≠ others.field) (hshadows : ¬ names.Shadows others)
    (hshadowed : ¬ others.Shadows names) : names.AreApart others := by
  intro name other h
  cases name with
  | field =>
      cases other with
      | field => exact hfields h
      | eventArgs phase => exact field_ne_eventArgs names others phase h
      | method | event | observable => exact hshadows ⟨_, _, rfl, rfl, h⟩
  | method =>
      cases other with
      | field | eventArgs => exact hshadowed ⟨_, _, rfl, rfl, h.symm⟩
      | method => exact hne ((String.append_right_inj "_").mp h)
      | event | observable => exact hshadows ⟨_, _, rfl, rfl, h⟩
  | eventArgs phase =>
      cases other with
      | field => exact field_ne_eventArgs others names phase h.symm
      | eventArgs phase' => exact hne (property_eq_of_eventArgs h)
      | method | event | observable => exact hshadows ⟨_, _, rfl, rfl, h⟩
  | event | observable =>
      cases other with
      | field | method | eventArgs => exact hshadowed ⟨_, _, rfl, rfl, h.symm⟩
      | event | observable => exact hne (property_eq_of_not_isPrefixed rfl rfl h)

/-! ## Shadows -/

theorem head?_identifier {name : GeneratedName} (h : name.isPrefixed = true) :
    (names.identifier name).toList.head? = some '_' := by
  cases name with
  | field => simp [identifier, field]
  | method => simp [identifier, method]
  | eventArgs => simp [identifier, eventArgs]
  | event | observable => cases h

/-- A name in front of which nothing is put begins like the identifier. -/
theorem head?_property_of_head?_identifier {name : GeneratedName} (hname : name.isPrefixed = false)
    (h : (names.identifier name).toList.head? = some '_') :
    names.property.toList.head? = some '_' := by
  obtain ⟨suffix, hsuffix, hidentifier⟩ := names.identifier_of_not_isPrefixed hname
  rw [hidentifier, String.toList_append, List.head?_append] at h
  cases hhead : names.property.toList.head? with
  | some c => simpa [hhead] using h
  | none =>
      have hends : ∀ suffix ∈ suffixes, suffix.toList.head? ≠ some '_' := by decide
      rw [hhead] at h
      exact absurd h (hends suffix hsuffix)

/-- Only a name that begins with an underscore can be shadowed. -/
theorem Shadows.head?_property (h : names.Shadows others)
    (hne : names.property ≠ others.property) : others.property.toList.head? = some '_' := by
  obtain ⟨name, other, hname, hother, h⟩ := h
  cases other with
  | event | observable =>
      exact head?_property_of_head?_identifier rfl (h ▸ head?_identifier hname)
  | method =>
      have hsecond := congrArg (fun s => s.toList[1]?) h
      rw [List.head?_eq_getElem?]
      cases name with
      | field => simpa [identifier, field, method, eq_comm] using hsecond
      | method => exact absurd ((String.append_right_inj "_").mp h) hne
      | eventArgs => simpa [identifier, eventArgs, method, eq_comm] using hsecond
      | event | observable => cases hname
  | field | eventArgs => cases hother

/-- Members of two properties have different identifiers, unless the properties have one name in
lower case or one of them begins with an underscore and shadows the other. -/
theorem areApart_iff (hne : names.property ≠ others.property) :
    (names.AreApart others ↔
      Text.lowercaseFirst names.property ≠ Text.lowercaseFirst others.property ∧
        ¬ names.Shadows others ∧ ¬ others.Shadows names) ∧
    (names.property.toList.head? ≠ some '_' → others.property.toList.head? ≠ some '_' →
      (names.AreApart others ↔
        Text.lowercaseFirst names.property ≠ Text.lowercaseFirst others.property)) := by
  have hfields : names.field ≠ others.field ↔
      Text.lowercaseFirst names.property ≠ Text.lowercaseFirst others.property :=
    not_congr (String.append_right_inj "__")
  have hiff : names.AreApart others ↔
      names.field ≠ others.field ∧ ¬ names.Shadows others ∧ ¬ others.Shadows names := by
    constructor
    · intro h
      refine ⟨h .field .field, ?_, ?_⟩
      · rintro ⟨name, other, -, -, heq⟩
        exact h name other heq
      · rintro ⟨other, name, -, -, heq⟩
        exact h name other heq.symm
    · rintro ⟨hfields, hshadows, hshadowed⟩
      exact .of_fields hne hfields hshadows hshadowed
  rw [hiff, hfields]
  refine ⟨Iff.rfl, fun hhead hhead' => and_iff_left ⟨?_, ?_⟩⟩
  · exact fun h => hhead' (h.head?_property hne)
  · exact fun h => hhead (h.head?_property hne.symm)

theorem areApart_iff_title :
    (⟨"Title"⟩ : MemberNames).property ≠ (⟨"Rating"⟩ : MemberNames).property ∧
      AreApart ⟨"Title"⟩ ⟨"Rating"⟩ := by
  have hne : (⟨"Title"⟩ : MemberNames).property ≠ (⟨"Rating"⟩ : MemberNames).property := by decide
  exact ⟨hne, ((areApart_iff hne).2 (by decide) (by decide)).mpr (by decide +kernel)⟩

/-- The accessor of `_x` has the identifier of the field of `X`. -/
example : Shadows ⟨"X"⟩ ⟨"_x"⟩ := ⟨.field, .method, rfl, rfl, by decide +kernel⟩

end MemberNames

open Emission

/-- A number property of a class. -/
def PropertyDraft.sampleNamed (propertyName : String) : PropertyDraft where
  containingType := { name := "Doc", container := .inNamespace "App" }
  propertyName
  propertyType := "int"

/-- Two properties, one unit, and one identifier for the fields of both. -/
theorem MemberNames.not_areApart_sampleNamed :
    let descriptors := ["Name", "name"].map fun name => (PropertyDraft.sampleNamed name).build
    ¬ AreApart ⟨"Name"⟩ ⟨"name"⟩ ∧
      ∃ unit, (emitType {} descriptors {}).1 = .ok unit ∧
        unit.sourceText = unitText {} (PropertyDraft.sampleNamed "Name").containingType
          (descriptors.flatMap fun descriptor => descriptor.declarations) ∧
        (descriptors.flatMap fun descriptor => descriptor.declarations).count
          (.field "int" "__name") = 2 := by
  intro descriptors
  have hsame : ∀ descriptor ∈ [(PropertyDraft.sampleNamed "name").build],
      descriptor.containingType = (PropertyDraft.sampleNamed "Name").build.containingType := by
    simp [PropertyDraft.build, PropertyDraft.completed, PropertyDraft.sampleNamed]
  have hunit := congrArg Prod.fst (emitType_of_neverCancels neverCancels_default {} _ hsame)
  exact ⟨fun h => h .field .field (by decide +kernel), _, hunit, rfl, by decide +kernel⟩

end ChangeNotification
