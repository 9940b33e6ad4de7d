import ChangeNotification.Definition.Format
import ChangeNotification.Descriptor.Format
import ChangeNotification.Emission.Diagnostic
import ChangeNotification.Facts.Format
import ChangeNotification.Project.Config
import ChangeNotification.Proofs.Json.Record
import ChangeNotification.Proofs.OrderedMap

/-! # What is written is read again

Each JSON form is read as the value it was written from, however deep it is nested. -/

namespace ChangeNotification

open Json

/-! ## Variants -/

theorem TypeKind.ofJson?_toJson (kind : TypeKind) : ofJson? kind.toJson = some kind := by
  cases kind <;> rfl

theorem Nullability.ofJson?_toJson (nullability : Nullability) :
    ofJson? nullability.toJson = some nullability := by
  cases nullability <;> rfl

theorem Accessibility.ofJson?_toJson (accessibility : Accessibility) :
    ofJson? accessibility.toJson = some accessibility := by
  cases accessibility <;> rfl

theorem Phase.ofJson?_toJson (phase : Phase) : ofJson? phase.toJson = some phase := by
  cases phase <;> rfl

theorem DiagnosticLevel.ofJson?_toJson (level : DiagnosticLevel) :
    ofJson? level.toJson = some level := by
  cases level <;> rfl

theorem LineEnding.ofJson?_toJson (lineEnding : LineEnding) :
    ofJson? lineEnding.toJson = some lineEnding := by
  cases lineEnding <;> rfl

theorem GenerationMode.ofJson?_toJson (mode : GenerationMode) :
    ofJson? mode.toJson = some mode := by
  cases mode <;> rfl

/-! ## Numbers -/

theorem natBelow?_ofNat {n bound : Nat} (h : n < bound) : (ofNat n).natBelow? bound = some n := by
  have hbound : 0 ≤ (n : Int) ∧ (n : Int) < bound := by omega
  rw [ofNat, natBelow?, if_pos hbound, Int.toNat_natCast]

theorem uint32?_ofNat (n : UInt32) : (ofNat n.toNat).uint32? = some n := by
  simp [uint32?, natBelow?_ofNat n.toNat_lt_size]

theorem uint64?_ofNat (n : UInt64) : (ofNat n.toNat).uint64? = some n := by
  simp [uint64?, natBelow?_ofNat n.toNat_lt_size]

theorem int64?_toInt (n : Int64) : (Json.int n.toInt).int64? = some n := by
  rw [int64?, if_pos ⟨n.minValue_le_toInt, n.toInt_le⟩, Int64.ofInt_toInt]

/-! ## Types -/

namespace TypeSymbol

/-- Induction over a type and all the types that it is made of. -/
@[elab_as_elim]
theorem part_induction {motive : TypeSymbol → Prop}
    (step : ∀ symbol : TypeSymbol, (∀ container ∈ symbol.containingType, motive container) →
      (∀ argument ∈ symbol.typeArguments, motive argument) →
      (∀ element ∈ symbol.elementType, motive element) → motive symbol) (symbol : TypeSymbol) :
    motive symbol := by
  refine step symbol (fun container hcontainer => ?_) (fun argument hargument => ?_)
    fun element helement => ?_
  · exact part_induction step container
  · exact part_induction step argument
  · exact part_induction step element
termination_by sizeOf symbol
decreasing_by
  all_goals obtain ⟨⟩ := symbol
  · cases hcontainer
    simp
    omega
  · have := List.sizeOf_lt_of_mem hargument
    simp at this ⊢
    omega
  · cases helement
    simp
    omega

theorem listToJson_eq_map (symbols : List TypeSymbol) : listToJson symbols = symbols.map toJson := by
  induction symbols with
  | nil => rfl
  | cons symbol rest ih => rw [listToJson, ih, List.map_cons]

theorem toJson_ne_null (symbol : TypeSymbol) : symbol.toJson ≠ .null := by
  cases symbol
  exact Json.noConfusion

theorem lookup_memberToJson (key name : String) (symbol : Option TypeSymbol) :
    (memberToJson name symbol).lookup key = if key = name then symbol.map toJson else none := by
  cases symbol with
  | none => simp [memberToJson]
  | some symbol =>
      rw [memberToJson, List.lookup_cons]
      cases hkey : key == name with
      | true => simp [eq_of_beq hkey]
      | false => simp [ne_of_beq_false hkey]

theorem ofJson?_toJson (symbol : TypeSymbol) : ofJson? symbol.toJson = some symbol := by
  induction symbol using part_induction with
  | step symbol hcontainer harguments helement =>
      obtain ⟨name, kind, namespaceSegments, containingType, nullability, typeArguments,
        elementType, arrayRank, interfaces⟩ := symbol
      rw [toJson, listToJson_eq_map, ofJson?]
      refine record?_bind ?_ ?_ fun r _ hvalues => ?_
      · cases containingType <;> cases elementType <;> simp [memberToJson, fieldNames]
      · cases containingType <;> cases elementType <;> simp [memberToJson]
      · have hlist : (Json.array (typeArguments.map toJson)).list? (ofJson? ·.val) =
            some typeArguments := list?_written harguments
        have hcontainer : (containingType.map (orNull? ofJson? ∘ toJson)).getD (some none) =
            some containingType := optional_written toJson_ne_null hcontainer
        have helement : (elementType.map (orNull? ofJson? ∘ toJson)).getD (some none) =
            some elementType := optional_written toJson_ne_null helement
        -- Which reader stands for the values of an array does not show in the field.
        simp only [Record.required_eq, Record.defaulted_eq, Record.optional_eq, hvalues,
          r.defaulted_eq _ _ fun v => v.list? (ofJson? ·.val)]
        simp [List.lookup_cons, List.lookup_append, lookup_memberToJson, text?, hlist, hcontainer,
          helement, TypeKind.ofJson?_toJson, Nullability.ofJson?_toJson, texts?_ofTexts,
          uint32?_ofNat]

end TypeSymbol

/-! ## Facts -/

theorem AttributeValue.ofJson?_toJson (value : AttributeValue) :
    ofJson? value.toJson = some value := by
  cases value with
  | bool b => rfl
  | text s => rfl
  | int n => exact congrArg (Option.map int) (int64?_toInt n)

namespace Attribute

/-- One named argument, with its name. -/
def namedArgument? (member : String × Json) : Option (String × AttributeValue) :=
  (AttributeValue.ofJson? member.2).map (member.1, ·)

theorem namedArguments?_object (members : List (String × Json)) :
    namedArguments? (.object members) = (members.mapM namedArgument?).map OrderedMap.ofList := by
  obtain ⟨parts, hparts, hmembers⟩ := members?_object members
  have hentries : (parts.mapM fun (name, v) => do return (name, ← AttributeValue.ofJson? v.val)) =
      members.mapM namedArgument? := by
    conv_rhs => rw [← hmembers, List.mapM_map]
    refine congrArg (List.mapM · parts) (funext fun (name, v) => ?_)
    rw [Function.comp_apply, namedArgument?]
    show (AttributeValue.ofJson? v.val >>= _) = _
    cases AttributeValue.ofJson? v.val <;> rfl
  rw [namedArguments?, hparts, Option.bind_eq_bind, Option.bind_some, hentries]
  cases members.mapM namedArgument? <;> rfl

theorem namedArguments?_written (arguments : OrderedMap String AttributeValue) :
    namedArguments? (.object (arguments.entries.map fun (name, v) => (name, v.toJson))) =
      some arguments := by
  have hentries : (arguments.entries.map fun (name, v) => (name, v.toJson)).mapM namedArgument? =
      some arguments.entries :=
    mapM_written fun entry _ => congrArg (Option.map (entry.1, ·)) entry.2.ofJson?_toJson
  rw [namedArguments?_object, hentries, Option.map_some, OrderedMap.ofList_entries]

theorem ofJson?_toJson (attr : Attribute) : ofJson? attr.toJson = some attr := by
  have hlist : (Json.array (attr.constructorArguments.map AttributeValue.toJson)).list?
      (AttributeValue.ofJson? ·.val) = some attr.constructorArguments :=
    list?_written fun value _ => value.ofJson?_toJson
  rw [toJson, ofJson?]
  refine record?_bind (by simp) (by simp) fun r _ hvalues => ?_
  simp only [Record.required_eq, Record.defaulted_eq, hvalues,
    r.defaulted_eq _ _ fun v => v.list? (AttributeValue.ofJson? ·.val)]
  simp [List.lookup_cons, text?, hlist, namedArguments?_written]

end Attribute

theorem SourceLocation.ofJson?_toJson (location : SourceLocation) :
    ofJson? location.toJson = some location := by
  rw [toJson, ofJson?]
  refine record?_bind (by simp) (by simp) fun r _ hvalues => ?_
  simp only [Record.required_eq, hvalues]
  simp [List.lookup_cons, text?, uint32?_ofNat]

theorem Accessibility.toJson_ne_null (accessibility : Accessibility) :
    accessibility.toJson ≠ .null :=
  Json.noConfusion

theorem PropertyFacts.ofJson?_toJson (facts : PropertyFacts) :
    ofJson? facts.toJson = some facts := by
  obtain ⟨name, containingType, propertyType, accessibility, accessorAccessibility, attributes,
    declarationSites⟩ := facts
  have hattributes : (Json.array (attributes.map Attribute.toJson)).list?
      (Attribute.ofJson? ·.val) = some attributes :=
    list?_written fun attr _ => attr.ofJson?_toJson
  have hsites : (Json.array (declarationSites.map SourceLocation.toJson)).list?
      (SourceLocation.ofJson? ·.val) = some declarationSites :=
    list?_written fun site _ => site.ofJson?_toJson
  rw [toJson, ofJson?]
  refine record?_bind ?_ ?_ fun r _ hvalues => ?_
  · cases accessorAccessibility <;> simp [fieldNames]
  · cases accessorAccessibility <;> simp
  · simp only [Record.required_eq, Record.defaulted_eq, Record.optional_eq, hvalues,
      r.defaulted_eq _ _ fun v => v.list? (Attribute.ofJson? ·.val),
      r.defaulted_eq _ _ fun v => v.list? (SourceLocation.ofJson? ·.val)]
    cases accessorAccessibility with
    | none =>
        simp [List.lookup_cons, text?, hattributes, hsites, TypeSymbol.ofJson?_toJson,
          Accessibility.ofJson?_toJson]
    | some accessor =>
        simp [List.lookup_cons, text?, hattributes, hsites, TypeSymbol.ofJson?_toJson,
          Accessibility.ofJson?_toJson, orNull?_of_ne_null accessor.toJson_ne_null]

theorem FactBundle.ofJson?_toJson (bundle : FactBundle) : ofJson? bundle.toJson = some bundle := by
  have hlist : (Json.array (bundle.properties.map PropertyFacts.toJson)).list?
      (PropertyFacts.ofJson? ·.val) = some bundle.properties :=
    list?_written fun facts _ => facts.ofJson?_toJson
  rw [toJson, ofJson?]
  refine record?_bind (by simp) (by simp) fun r _ hvalues => ?_
  rw [r.defaulted_eq _ _ fun v => v.list? (PropertyFacts.ofJson? ·.val), hvalues]
  simp [hlist]

/-! ## Definitions and descriptors -/

/-- A declaration is read from its own fields, whatever stands around it. -/
theorem TypeDeclaration.ofRecord?_of_lookup {j : Json} {r : j.Record}
    {declaration : TypeDeclaration}
    (h : ∀ name, name ≠ "kind" → name ≠ "container" →
      r.values.lookup name = declaration.fieldsToJson.lookup name) :
    ofRecord? r = some declaration := by
  simp (disch := decide) only [ofRecord?, Record.required_eq, h]
  simp [fieldsToJson, List.lookup_cons, text?, bool?, texts?_ofTexts]

theorem TypeContainer.ofJson?_toJson (enclosed : Bool) (container : TypeContainer) :
    ofJson? enclosed container.toJson = some container := by
  induction container generalizing enclosed with
  | inNamespace name =>
      have htag : (inNamespace name).toJson.tag? "kind" = some (.string "namespace") := rfl
      rw [toJson] at htag ⊢
      rw [ofJson?, htag]
      simp only [Kind.ofJson?, Option.bind_eq_bind, Option.bind_some]
      refine record?_bind (by simp) (by simp) fun r _ hvalues => ?_
      simp only [Record.required_eq, hvalues]
      simp [List.lookup_cons, text?]
  | inType outer declaration ih =>
      have htag : (inType outer declaration).toJson.tag? "kind" = some (.string "type") := rfl
      rw [toJson] at htag ⊢
      rw [ofJson?, htag]
      simp only [Kind.ofJson?, Option.bind_eq_bind, Option.bind_some]
      refine record?_bind ?_ ?_ fun r _ hvalues => ?_
      · simp [TypeDeclaration.fieldsToJson, TypeDeclaration.fieldNames]
      · simp [TypeDeclaration.fieldsToJson]
      · have hdeclaration : TypeDeclaration.ofRecord? r = some declaration := by
          refine TypeDeclaration.ofRecord?_of_lookup fun name hkind hcontainer => ?_
          simp [hvalues, List.lookup_cons, beq_false_of_ne hkind, beq_false_of_ne hcontainer]
        simp only [Record.required_eq, hvalues, hdeclaration]
        simp [List.lookup_cons, ih]

theorem TypeDefinition.ofJson?_toJson (definition : TypeDefinition) :
    ofJson? definition.toJson = some definition := by
  rw [toJson, ofJson?]
  refine record?_bind ?_ ?_ fun r _ hvalues => ?_
  · simp [TypeDeclaration.fieldsToJson, TypeDeclaration.fieldNames]
  · simp [TypeDeclaration.fieldsToJson]
  · have hdeclaration : TypeDeclaration.ofRecord? r = some definition.toTypeDeclaration := by
      refine TypeDeclaration.ofRecord?_of_lookup fun name _ hcontainer => ?_
      simp [hvalues, List.lookup_cons, beq_false_of_ne hcontainer]
    simp only [Record.required_eq, hvalues, hdeclaration]
    simp [TypeContainer.ofJson?_toJson]

theorem EventRedirect.ofJson?_toJson (redirect : EventRedirect) :
    ofJson? redirect.toJson = some redirect := by
  rw [toJson, ofJson?]
  refine record?_bind (by simp) (by simp) fun r _ hvalues => ?_
  simp only [Record.required_eq, hvalues]
  simp [List.lookup_cons, text?, Phase.ofJson?_toJson]

/-! ## Diagnostics -/

theorem SourceLocation.toJson_ne_null (location : SourceLocation) : location.toJson ≠ .null :=
  Json.noConfusion

theorem Diagnostic.ofJson?_toJson (diagnostic : Diagnostic) :
    ofJson? diagnostic.toJson = some diagnostic := by
  have hlocation : orNull? SourceLocation.ofJson?
      (ofOption SourceLocation.toJson diagnostic.location) = some diagnostic.location :=
    orNull?_ofOption SourceLocation.toJson_ne_null fun location _ => location.ofJson?_toJson
  have hsuggestion : orNull? text? (ofOption Json.string diagnostic.suggestion) =
      some diagnostic.suggestion :=
    orNull?_ofOption (fun _ => Json.noConfusion) fun _ _ => rfl
  rw [toJson, ofJson?]
  refine record?_bind (by simp) (by simp) fun r hobject hvalues => ?_
  simp only [Record.required_eq, Record.nullable_eq hobject, hvalues]
  simp [List.lookup_cons, text?, hlocation, hsuggestion, DiagnosticLevel.ofJson?_toJson]

/-! ## Options and configurations -/

theorem EmitOptions.ofJson?_toJson (options : EmitOptions) :
    ofJson? options.toJson = some options := by
  rw [toJson, ofJson?]
  refine record?_bind (by simp [fieldNames]) (by simp) fun r _ hvalues => ?_
  simp only [Record.defaulted_eq, hvalues]
  simp [List.lookup_cons, bool?, LineEnding.ofJson?_toJson, uint64?_ofNat]

theorem Config.ofJson?_toJson (config : Config) : ofJson? config.toJson = some config := by
  rw [toJson, ofJson?]
  refine record?_bind (by simp [fieldNames]) (by simp) fun r _ hvalues => ?_
  simp only [Record.defaulted_eq, hvalues]
  simp [List.lookup_cons, bool?, text?, GenerationMode.ofJson?_toJson, EmitOptions.ofJson?_toJson]

/-! ## All formats -/

/-- A format that loses nothing in writing, and nothing more once it was read. -/
structure Json.RoundTrips {α : Type} (write : α → Json) (read : Json → Option α) : Prop where
  read_write : ∀ value, read (write value) = some value
  read_write_read : ∀ j, ((read j).map write).bind read = read j

theorem Json.RoundTrips.of_read_write {α : Type} {write : α → Json} {read : Json → Option α}
    (h : ∀ value, read (write value) = some value) : RoundTrips write read := by
  refine ⟨h, fun j => ?_⟩
  cases read j with
  | none => rfl
  | some value => exact h value

/-- Facts, definitions, redirects, diagnostics, options and configurations are read as they were
written. A container is so at every place. -/
theorem formats_roundTrip :
    RoundTrips FactBundle.toJson FactBundle.ofJson? ∧
      RoundTrips TypeDefinition.toJson TypeDefinition.ofJson? ∧
      (∀ enclosed, RoundTrips TypeContainer.toJson (TypeContainer.ofJson? enclosed)) ∧
      RoundTrips EventRedirect.toJson EventRedirect.ofJson? ∧
      RoundTrips Diagnostic.toJson Diagnostic.ofJson? ∧
      RoundTrips EmitOptions.toJson EmitOptions.ofJson? ∧
      RoundTrips Config.toJson Config.ofJson? :=
  ⟨.of_read_write FactBundle.ofJson?_toJson, .of_read_write TypeDefinition.ofJson?_toJson,
    fun enclosed => .of_read_write (TypeContainer.ofJson?_toJson enclosed),
    .of_read_write EventRedirect.ofJson?_toJson, .of_read_write Diagnostic.ofJson?_toJson,
    .of_read_write EmitOptions.ofJson?_toJson, .of_read_write Config.ofJson?_toJson⟩

end ChangeNotification
