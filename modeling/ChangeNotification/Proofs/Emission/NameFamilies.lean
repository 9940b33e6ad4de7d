import ChangeNotification.Proofs.Emission.HintName
import ChangeNotification.SupportSource

/-! # Families of names

Sources are named by the property, by the type or by the support that they hold. The names of one
family are found in no other, whatever texts stand for namespaces, types and generic arguments. What
tells properties from types is the last of the segments, which no namespace or type can reach into. -/

namespace ChangeNotification

namespace Emission

/-! ## Properties and types -/

/-- A property is the last segment, behind a dot. -/
theorem exists_propertyHintName_eq (draft : PropertyDraft) :
    ∃ front, propertyHintName draft = front ++ ("." ++ draft.propertyName) ++ ".g.cs" := by
  have hsegments : typeSegments draft.containingType ≠ [] := by
    simp [typeSegments, TypeDefinition.chain]
  refine ⟨"gen_" ++ String.intercalate "." (typeSegments draft.containingType), ?_⟩
  rw [propertyHintName, String.intercalate_append_of_ne_nil hsegments (by simp),
    String.intercalate_singleton]
  simp only [String.append_assoc]

theorem typeHintName_eq (definition : TypeDefinition) :
    typeHintName definition =
      "gen_" ++ String.intercalate "." (typeSegments definition) ++ "-members" ++ ".g.cs" := by
  have hending : "-members.g.cs" = "-members" ++ ".g.cs" := by decide
  rw [typeHintName, hending, ← String.append_assoc]

theorem propertyHintName_ne_typeHintName {draft : PropertyDraft}
    (hname : '-' ∉ draft.propertyName.toList) (definition : TypeDefinition) :
    propertyHintName draft ≠ typeHintName definition := by
  intro h
  obtain ⟨front, hfront⟩ := exists_propertyHintName_eq draft
  rw [hfront, typeHintName_eq, String.append_left_inj] at h
  -- The one ending has a dot that the other does not have, and the other a dash.
  rcases Text.suffix_or_suffix_of_append_eq h with hsuffix | hsuffix
  · have hdot : '.' ∈ "-members".toList := hsuffix.subset (by simp)
    exact absurd hdot (by decide)
  · have hdash : '-' ∈ ("." ++ draft.propertyName).toList := hsuffix.subset (by decide)
    rw [String.toList_append, List.mem_append] at hdash
    exact hdash.elim (by decide) hname

def sampleDoc : TypeDefinition where
  name := "Doc"
  container := .inNamespace "App"

def sampleIn (containingType : TypeDefinition) (propertyName : String) : PropertyDraft :=
  { containingType, propertyName, propertyType := "int" }

/-- With a dash a property could go by the name of a nested type. -/
example : propertyHintName (sampleIn sampleDoc "Part-members") =
    typeHintName (sampleDoc.nested "Part") := by
  decide

/-! ## Support sources -/

/-- Units of properties and types begin alike. -/
theorem head?_propertyHintName (draft : PropertyDraft) :
    (propertyHintName draft).toList.head? = some 'g' := by
  simp [propertyHintName]

theorem head?_typeHintName (definition : TypeDefinition) :
    (typeHintName definition).toList.head? = some 'g' := by
  simp [typeHintName]

end Emission

theorem SupportSource.head?_hintName_of_mem_all {options : EmitOptions} {source : GeneratedSource}
    (h : source ∈ all options) : source.hintName.toList.head? = some 'P' := by
  simp only [all, List.mem_cons, List.not_mem_nil, or_false] at h
  rcases h with rfl | rfl | rfl <;> simp [render, Vocabulary.attributeNamespace]

open Emission

theorem SupportSource.hintName_ne_of_head? {options : EmitOptions} {source : GeneratedSource}
    (h : source ∈ all options) {name : String} (hname : name.toList.head? = some 'g') :
    name ≠ source.hintName := by
  rintro rfl
  rw [head?_hintName_of_mem_all h] at hname
  cases hname

/-! ## Emitted units -/

/-- The unit of a property whose name has no dash, the unit of a type and the support sources have
different names; and both units are there as long as nobody cancels. -/
theorem hintNames_ofFamilies {descriptor : PropertyDescriptor}
    (hname : '-' ∉ descriptor.propertyName.toList) (first : PropertyDescriptor)
    {rest : List PropertyDescriptor}
    (hsame : ∀ other ∈ rest, other.containingType = first.containingType)
    (options options' options'' : EmitOptions) (host host' : Host) :
    (∀ unit unit', (emitProperty options descriptor host).1 = .ok unit →
        (emitType options' (first :: rest) host').1 = .ok unit' →
      unit.hintName ≠ unit'.hintName ∧ ∀ source ∈ SupportSource.all options'',
        unit.hintName ≠ source.hintName ∧ unit'.hintName ≠ source.hintName) ∧
    (host.NeverCancels → ∃ unit, (emitProperty options descriptor host).1 = .ok unit) ∧
    (host'.NeverCancels → ∃ unit', (emitType options' (first :: rest) host').1 = .ok unit') := by
  refine ⟨fun unit unit' hunit hunit' => ?_, fun hhost => ?_, fun hhost => ?_⟩
  · obtain ⟨member, -, htype⟩ := hintName_of_emitType hunit'
    rw [hintName_of_emitProperty hunit, htype]
    exact ⟨propertyHintName_ne_typeHintName hname _, fun source hsource =>
      ⟨SupportSource.hintName_ne_of_head? hsource (head?_propertyHintName _),
        SupportSource.hintName_ne_of_head? hsource (head?_typeHintName _)⟩⟩
  · rw [emitProperty_of_neverCancels hhost]
    exact ⟨_, rfl⟩
  · rw [emitType_of_neverCancels hhost _ _ hsame]
    exact ⟨_, rfl⟩

theorem hintNames_ofFamilies_members :
    ∃ unit unit', (emitProperty {} (sampleIn sampleDoc "members").build {}).1 = .ok unit ∧
      (emitType {} [(sampleIn sampleDoc "members").build] {}).1 = .ok unit' ∧
      unit.hintName ≠ unit'.hintName := by
  have hname : '-' ∉ (sampleIn sampleDoc "members").build.propertyName.toList := by decide
  obtain ⟨hapart, hproperty, htype⟩ := hintNames_ofFamilies hname
    (sampleIn sampleDoc "members").build (List.forall_mem_nil _) {} {} {} {} {}
  obtain ⟨unit, hunit⟩ := hproperty neverCancels_default
  obtain ⟨unit', hunit'⟩ := htype neverCancels_default
  exact ⟨unit, unit', hunit, hunit', (hapart unit unit' hunit hunit').1⟩

end ChangeNotification
