import ChangeNotification.Proofs.Emission.Equality
import ChangeNotification.Proofs.Emission.MemberOrder
import ChangeNotification.Proofs.Emission.References
import ChangeNotification.Proofs.Resolution.Subject
import ChangeNotification.Proofs.Symbol.Readability

/-! # What is made of nullability

A reference that may be `null` has a mark in its type, one that is never `null` is guarded by its
setters, and one about which nothing is known is reported. -/

namespace ChangeNotification

/-! ## Marked types -/

namespace Text

theorem getLast?_append_ne {s t : String} {c : Char} (hs : s.toList.getLast? ≠ some c)
    (ht : t.toList.getLast? ≠ some c) : (s ++ t).toList.getLast? ≠ some c := by
  rw [String.toList_append, List.getLast?_append]
  cases hlast : t.toList.getLast? with
  | none => exact hs
  | some last =>
      rw [hlast] at ht
      exact ht

theorem getLast?_join_ne {pieces : List String} {c : Char}
    (h : ∀ piece ∈ pieces, piece.toList.getLast? ≠ some c) :
    (String.join pieces).toList.getLast? ≠ some c := by
  induction pieces with
  | nil => simp
  | cons piece pieces ih =>
      rw [String.join_cons]
      exact getLast?_append_ne (h piece (.head _)) (ih fun other hother => h other (.tail _ hother))

end Text

namespace TypeSymbol

open Text

variable {symbol : TypeSymbol}

theorem getLast?_qualifier_ne (namespaceSegments : List String)
    (containingType : Option TypeSymbol) :
    (qualifier namespaceSegments containingType).toList.getLast? ≠ some '?' := by
  have hdotted (s : String) : (s ++ ".").toList.getLast? ≠ some '?' := by
    rw [getLast?_append_of_eq_some (c := '.') rfl]
    decide
  cases containingType with
  | some container => exact hdotted _
  | none =>
      refine getLast?_append_ne (by simp) (getLast?_join_ne ?_)
      exact List.forall_mem_map.mpr fun segment _ => hdotted segment

theorem getLast?_argumentList_ne (arguments : List String) :
    (argumentList arguments).toList.getLast? ≠ some '?' := by
  cases arguments with
  | nil => simp [argumentList]
  | cons argument arguments =>
      have hbracket : (argumentList (argument :: arguments)).toList.getLast? = some '>' :=
        getLast?_append_of_eq_some rfl
      rw [hbracket]
      decide

theorem getLast?_bareSpelling_ne (hname : '?' ∉ symbol.name.toList) :
    symbol.bareSpelling.toList.getLast? ≠ some '?' := by
  have hlast : symbol.name.toList.getLast? ≠ some '?' := mt List.mem_of_getLast? hname
  rcases symbol.kind.cases with hkind | hkind | hkind
  · rwa [bareSpelling_of_typeParameter hkind]
  · have hbracket : (rankSpecifier symbol.arrayRank).toList.getLast? = some ']' :=
      getLast?_append_of_eq_some rfl
    rw [bareSpelling_of_array hkind, getLast?_append_of_eq_some hbracket]
    decide
  · rw [bareSpelling_of_isNamed hkind]
    exact getLast?_append_ne (getLast?_qualifier_ne _ _)
      (getLast?_append_ne hlast (getLast?_argumentList_ne _))

/-- A spelling ends with a question mark only where it is marked. -/
theorem getLast?_spelling_iff (hname : '?' ∉ symbol.name.toList) :
    symbol.spelling.toList.getLast? = some '?' ↔ symbol.isNullableReference = true := by
  rw [spelling, nullableMark]
  split
  · rename_i hmarked
    exact iff_of_true (getLast?_append_of_eq_some rfl) hmarked
  · rename_i hmarked
    rw [String.append_empty]
    exact iff_of_false (getLast?_bareSpelling_ne hname) hmarked

end TypeSymbol

/-! ## Lines of setters -/

namespace Code

namespace Instruction

/-- No other instruction is written like the guard. -/
theorem text_eq_refuseNull_iff {instruction : Instruction} :
    instruction.text = refuseNull.text ↔ instruction = refuseNull := by
  refine ⟨fun h => ?_, congrArg text⟩
  have hstart : refuseNull.text.toList.head? = some 'i' := by decide +kernel
  have hend : refuseNull.text =
      "if (value is null) throw new global::System.ArgumentNullException(nameof(" ++ "value));" := rfl
  cases instruction with
  | refuseNull => rfl
  -- A condition or an event may be any text, so that these differ from the guard only at their ends.
  | returnFalseIf | raise =>
      rw [hend] at h
      exact absurd (Text.suffix_or_suffix_of_append_eq h) (by decide +kernel)
  | notify | assign | returnTrue =>
      rw [← h] at hstart
      simp [text] at hstart

/-- Tests are told apart from all else, and from each other by what they test. -/
theorem text_eq_returnFalseIf_iff {instruction : Instruction} {condition : String} :
    instruction.text = (returnFalseIf condition).text ↔
      instruction = returnFalseIf condition := by
  refine ⟨fun h => ?_, congrArg text⟩
  have hstart : (returnFalseIf condition).text.toList.head? = some 'i' := by simp [text]
  cases instruction with
  | refuseNull =>
      rw [eq_comm, text_eq_refuseNull_iff] at h
      cases h
  | returnFalseIf other => simpa [text] using h
  | raise =>
      have hend := congrArg (fun s => s.toList.reverse.take 6) h
      simp [text] at hend
  | notify | assign | returnTrue =>
      rw [← h] at hstart
      simp [text] at hstart

end Instruction

namespace Declaration

/-- A setter that throws where it is given `null`. -/
def RefusesNull (declaration : Declaration) : Prop :=
  .code 1 "if (value is null) throw new global::System.ArgumentNullException(nameof(value));" ∈
    declaration.lines

/-- A setter by which, as the compiler is told, a field is not `null`. -/
def PromisesNotNull (declaration : Declaration) (field : String) : Prop :=
  .code 0 ("[global::System.Diagnostics.CodeAnalysis.MemberNotNull(nameof(" ++ field ++ "))]") ∈
    declaration.lines

/-- A setter that changes nothing where it is given the very object in the field. -/
def ComparesReferences (declaration : Declaration) (field : String) : Prop :=
  .code 1 ("if (object.ReferenceEquals(this." ++ field ++ ", value)) return false;") ∈
    declaration.lines

variable {attributes : List String} {name parameters : String} {checks change : List Instruction}

/-- Between its braces a setter has its instructions and nothing else. -/
theorem mem_lines_setter_inside {text : String} :
    .code 1 text ∈ (setter attributes name parameters checks change).lines ↔
      ∃ instruction ∈ checks ++ change, instruction.text = text := by
  simp [lines, or_and_right, exists_or]

theorem mem_lines_setter_outside {text : String} :
    .code 0 text ∈ (setter attributes name parameters checks change).lines ↔
      text ∈ attributes ∨ text = "private bool " ++ name ++ "(" ++ parameters ++ ")" ∨
        text = "\x7b" ∨ text = "\x7d" := by
  have hattributes : Line.code 0 text ∈ attributes.map (Line.code 0) ↔ text ∈ attributes := by
    simp
  have hbody (list : List Instruction) : Line.code 0 text ∉ list.map (Line.code 1 ·.text) := by
    simp
  rw [lines]
  -- The full simp set would compare the lines as texts.
  simp only [List.mem_append, List.mem_cons, Line.code.injEq, true_and, hattributes, hbody,
    reduceCtorEq, List.not_mem_nil, false_or, or_false]
  rfl

theorem refusesNull_setter_iff :
    (setter attributes name parameters checks change).RefusesNull ↔
      .refuseNull ∈ checks ++ change := by
  have hguard : Instruction.refuseNull.text =
      "if (value is null) throw new global::System.ArgumentNullException(nameof(value));" := rfl
  rw [RefusesNull, ← hguard, mem_lines_setter_inside]
  simp only [Instruction.text_eq_refuseNull_iff, exists_eq_right]

theorem comparesReferences_setter_iff {field : String} :
    (setter attributes name parameters checks change).ComparesReferences field ↔
      .returnFalseIf ("object.ReferenceEquals(this." ++ field ++ ", value)") ∈ checks ++ change := by
  have htest : (Instruction.returnFalseIf
        ("object.ReferenceEquals(this." ++ field ++ ", value)")).text =
      "if (object.ReferenceEquals(this." ++ field ++ ", value)) return false;" := by
    simp only [Instruction.text, ← String.append_assoc, String.reduceAppend]
    simp only [String.append_assoc, String.reduceAppend]
  rw [ComparesReferences, mem_lines_setter_inside, ← htest]
  simp only [Instruction.text_eq_returnFalseIf_iff, exists_eq_right]

theorem promisesNotNull_setter_iff {field : String} :
    (setter attributes name parameters checks change).PromisesNotNull field ↔
      "[global::System.Diagnostics.CodeAnalysis.MemberNotNull(nameof(" ++ field ++ "))]" ∈
        attributes := by
  rw [PromisesNotNull, mem_lines_setter_outside, or_iff_left]
  have hfirst {text : String} (h : "[global::System.Diagnostics.CodeAnalysis.MemberNotNull(nameof(" ++
      field ++ "))]" = text) : text.toList.head? = some '[' := by
    rw [← h]
    simp
  rintro (hhead | hbrace | hbrace)
  · simpa using hfirst hhead
  · simpa using hfirst hbrace
  · simpa using hfirst hbrace

end Declaration

end Code

/-! ## Setters of a property -/

namespace PropertyDraft

variable {draft : PropertyDraft}

theorem mem_checkSequence {equalValues : String} {instruction : Code.Instruction} :
    instruction ∈ draft.checkSequence equalValues ↔
      draft.requiresNullGuard = true ∧ instruction = .refuseNull ∨
        instruction = .returnFalseIf equalValues := by
  rw [checkSequence]
  split <;> simp_all

/-- The sequence of a change checks nothing. -/
theorem not_mem_changeSequence (draft : PropertyDraft) :
    .refuseNull ∉ draft.changeSequence ∧
      ∀ condition, .returnFalseIf condition ∉ draft.changeSequence := by
  have hphase (phase : Phase) : .refuseNull ∉ draft.announcement phase ∧
      ∀ condition, .returnFalseIf condition ∉ draft.announcement phase := by
    unfold announcement
    split <;> split <;> simp
  simp [changeSequence, hphase]

/-- What the setter without a comparer returns `false` on. -/
def sameValueCondition (draft : PropertyDraft) : String :=
  let field := "__" ++ Text.lowercaseFirst draft.propertyName
  if draft.isReference then "object.ReferenceEquals(this." ++ field ++ ", value)"
  else "global::System.Collections.Generic.EqualityComparer<" ++ draft.propertyType ++
    ">.Default.Equals(this." ++ field ++ ", value)"

/-- Both setters make their checks before the same sequence. -/
theorem setter_declarations (draft : PropertyDraft) :
    let field := "__" ++ Text.lowercaseFirst draft.propertyName
    (∃ parameters, draft.declaration .setter =
      .setter
        (if draft.requiresNullGuard then
          ["[global::System.Diagnostics.CodeAnalysis.MemberNotNull(nameof(" ++ field ++ "))]"]
        else [])
        ("_" ++ draft.propertyName) parameters
        (draft.checkSequence draft.sameValueCondition) draft.changeSequence) ∧
    ∃ parameters, draft.declaration .comparerSetter =
      .setter [] ("_" ++ draft.propertyName) parameters
        (draft.checkSequence ("equalityComparer.Equals(this." ++ field ++ ", value)"))
        draft.changeSequence := by
  have hstorage := draft.map_declaration_storage
  simp only [List.map_cons, storage, List.cons.injEq] at hstorage
  exact ⟨⟨_, hstorage.2.2.1⟩, _, hstorage.2.2.2.1⟩

theorem refusesNull_setters :
    ((draft.declaration .setter).RefusesNull ↔ draft.requiresNullGuard = true) ∧
      ((draft.declaration .comparerSetter).RefusesNull ↔ draft.requiresNullGuard = true) := by
  obtain ⟨⟨_, hplain⟩, _, hcomparer⟩ := draft.setter_declarations
  have hchange := draft.not_mem_changeSequence.1
  rw [hplain, hcomparer, Code.Declaration.refusesNull_setter_iff,
    Code.Declaration.refusesNull_setter_iff]
  simp [mem_checkSequence, hchange]

theorem promisesNotNull_setter :
    (draft.declaration .setter).PromisesNotNull draft.memberNames.field ↔
      draft.requiresNullGuard = true := by
  obtain ⟨⟨_, hplain⟩, -⟩ := draft.setter_declarations
  rw [hplain, Code.Declaration.promisesNotNull_setter_iff]
  split
  · rename_i hguard
    exact iff_of_true (.head _) hguard
  · rename_i hguard
    exact iff_of_false List.not_mem_nil hguard

theorem comparesReferences_setter :
    (draft.declaration .setter).ComparesReferences draft.memberNames.field ↔
      draft.isReference = true := by
  -- Only the test of the setter itself can be the comparison, and it begins with another name where
  -- values are compared.
  obtain ⟨⟨_, hplain⟩, -⟩ := draft.setter_declarations
  have hchange := draft.not_mem_changeSequence.2
  rw [hplain, Code.Declaration.comparesReferences_setter_iff]
  simp only [List.mem_append, mem_checkSequence, hchange, or_false, reduceCtorEq, and_false,
    false_or, Code.Instruction.returnFalseIf.injEq, sameValueCondition]
  split
  · rename_i href
    exact iff_of_true rfl href
  · rename_i href
    refine iff_of_false (fun h => ?_) href
    have hfirst := congrArg (fun s => s.toList.head?) h
    simp at hfirst

end PropertyDraft

/-! ## What the facts say -/

/-- A property of a reference type of which that is known. -/
def PropertyFacts.IsReference (facts : PropertyFacts) (nullability : Nullability) : Prop :=
  facts.propertyType.kind.isReference = true ∧ facts.propertyType.nullability = nullability

theorem PropertyFacts.isReference_annotated_iff {facts : PropertyFacts} :
    facts.IsReference .annotated ↔ facts.propertyType.isNullableReference = true := by
  simp [IsReference, TypeSymbol.isNullableReference]

namespace PropertyDescriptor.Describes

variable {descriptor : PropertyDescriptor} {facts : PropertyFacts}

/-- For references, resolution leaves the nullability as it is. -/
theorem isReference_iff (h : descriptor.Describes facts) (nullability : Nullability) :
    descriptor.isReference = true ∧ descriptor.nullability = nullability ↔
      facts.IsReference nullability := by
  rw [h.isReference, h.nullability, PropertyFacts.IsReference, PropertyFacts.settledNullability]
  refine and_congr_right fun href => ?_
  rw [if_neg fun hvalue => TypeKind.not_isReference_of_isValue hvalue href]

theorem requiresNullGuard_iff (h : descriptor.Describes facts) :
    descriptor.requiresNullGuard = true ↔ facts.IsReference .notAnnotated := by
  rw [← h.isReference_iff]
  simp [PropertyDraft.requiresNullGuard]

theorem hasIndeterminateNullability_iff (h : descriptor.Describes facts) :
    descriptor.hasIndeterminateNullability = true ↔ facts.IsReference .unknown := by
  rw [← h.isReference_iff]
  simp [PropertyDraft.hasIndeterminateNullability]

end PropertyDescriptor.Describes

/-! ## Treatments -/

/-- What is made of the nullability of a property in its type, in its setters and in what is
reported. -/
structure PropertyDescriptor.TreatsNull (descriptor : PropertyDescriptor) (facts : PropertyFacts)
    (reports : List Diagnostic) : Prop where
  marked_iff : descriptor.propertyType.toList.getLast? = some '?' ↔ facts.IsReference .annotated
  setter_guarded_iff :
    (descriptor.declaration .setter).RefusesNull ↔ facts.IsReference .notAnnotated
  comparerSetter_guarded_iff :
    (descriptor.declaration .comparerSetter).RefusesNull ↔ facts.IsReference .notAnnotated
  promised_iff :
    (descriptor.declaration .setter).PromisesNotNull descriptor.memberNames.field ↔
      facts.IsReference .notAnnotated
  reported_iff : reports ≠ [] ↔ facts.IsReference .unknown
  reports_each : facts.IsReference .unknown →
    reports.map (fun report => (report.level, report.code, report.location)) =
      (if facts.declarationSites = [] then [none] else facts.declarationSites.map some).map
        fun place => (.warning, "PN0001", place)
  compared_iff :
    (descriptor.declaration .setter).ComparesReferences descriptor.memberNames.field ↔
      facts.propertyType.kind.isReference = true

/-- The ways to treat the nullability of a reference. -/
inductive NullTreatment where
  | marked | guarded | reported
  deriving DecidableEq, Repr

namespace NullTreatment

/-- That something is made of nullability in this way. -/
def ShowsIn (descriptor : PropertyDescriptor) (reports : List Diagnostic) : NullTreatment → Prop
  | marked => descriptor.propertyType.toList.getLast? = some '?'
  | guarded => (descriptor.declaration .setter).RefusesNull ∧
      (descriptor.declaration .comparerSetter).RefusesNull ∧
      (descriptor.declaration .setter).PromisesNotNull descriptor.memberNames.field
  | reported => reports ≠ []

/-- The nullability that is treated in this way. -/
def nullability : NullTreatment → Nullability
  | marked => .annotated
  | guarded => .notAnnotated
  | reported => .unknown

theorem nullability_injective : Function.Injective nullability := by
  intro treatment other h
  cases treatment <;> cases other <;> simp_all [nullability]

theorem existsUnique_nullability (nullability : Nullability) :
    ∃! treatment : NullTreatment, treatment.nullability = nullability := by
  cases nullability with
  | unknown => exact ⟨reported, rfl, fun other h => nullability_injective h⟩
  | notAnnotated => exact ⟨guarded, rfl, fun other h => nullability_injective h⟩
  | annotated => exact ⟨marked, rfl, fun other h => nullability_injective h⟩

end NullTreatment

namespace PropertyDescriptor

variable {descriptor : PropertyDescriptor} {facts : PropertyFacts} {reports : List Diagnostic}

theorem TreatsNull.showsIn_iff (h : descriptor.TreatsNull facts reports)
    (treatment : NullTreatment) :
    treatment.ShowsIn descriptor reports ↔ facts.IsReference treatment.nullability := by
  cases treatment with
  | marked => exact h.marked_iff
  | guarded =>
      rw [NullTreatment.ShowsIn, h.setter_guarded_iff, h.comparerSetter_guarded_iff, h.promised_iff,
        and_self, and_self, NullTreatment.nullability]
  | reported => exact h.reported_iff

theorem TreatsNull.existsUnique_showsIn (h : descriptor.TreatsNull facts reports)
    (href : facts.propertyType.kind.isReference = true) :
    ∃! treatment : NullTreatment, treatment.ShowsIn descriptor reports := by
  simpa only [h.showsIn_iff, PropertyFacts.IsReference, href, true_and, eq_comm] using
    NullTreatment.existsUnique_nullability facts.propertyType.nullability

theorem TreatsNull.not_showsIn (h : descriptor.TreatsNull facts reports)
    (href : facts.propertyType.kind.isReference = false) (treatment : NullTreatment) :
    ¬ treatment.ShowsIn descriptor reports := by
  rw [h.showsIn_iff]
  exact fun hshown => Bool.false_ne_true (href.symm.trans hshown.1)

/-- The treatment of a property that is described by its facts and not only by arguments. -/
theorem Describes.treatsNull (h : descriptor.Describes facts)
    (honly : descriptor.eventArgsOnly = false) (hname : '?' ∉ facts.propertyType.name.toList) :
    descriptor.TreatsNull facts descriptor.reported where
  marked_iff := by
    rw [h.propertyType, TypeSymbol.getLast?_spelling_iff hname,
      PropertyFacts.isReference_annotated_iff]
  setter_guarded_iff := PropertyDraft.refusesNull_setters.1.trans h.requiresNullGuard_iff
  comparerSetter_guarded_iff := PropertyDraft.refusesNull_setters.2.trans h.requiresNullGuard_iff
  promised_iff := PropertyDraft.promisesNotNull_setter.trans h.requiresNullGuard_iff
  reported_iff := by
    rw [← h.hasIndeterminateNullability_iff, PropertyDraft.reported_eq_map, Ne, List.map_eq_nil_iff,
      PropertyDraft.reportPlaces_eq_nil_iff]
    simp [honly]
  reports_each hopen := by
    have hplaces : descriptor.reportPlaces =
        if facts.declarationSites = [] then [none] else facts.declarationSites.map some := by
      rw [PropertyDraft.reportPlaces, honly, h.hasIndeterminateNullability_iff.mpr hopen,
        h.declarationSites]
      rfl
    rw [PropertyDraft.reported_eq_map, List.map_map, hplaces]
    rfl
  compared_iff := by rw [PropertyDraft.comparesReferences_setter, h.isReference]

end PropertyDescriptor

open Emission

/-- From the facts to the text and the reports, the nullability of a reference is treated in one of
three ways, and other types are left alone. -/
theorem emitProperty_treatsNull {facts : PropertyFacts} {descriptor : PropertyDescriptor}
    (hresolve : facts.resolve = .ok descriptor) (honly : descriptor.eventArgsOnly = false)
    (hname : '?' ∉ facts.propertyType.name.toList) {host : Host} (hhost : host.NeverCancels)
    (hlistens : host.ignoresEmissions = false) (options : EmitOptions) :
    ∃ unit reports, (emitProperty options descriptor host).1 = .ok unit ∧
      unit.sourceText = unitText options descriptor.containingType descriptor.declarations ∧
      descriptor.declarations.filter Code.Declaration.isSetter =
        [descriptor.declaration .setter, descriptor.declaration .comparerSetter] ∧
      (emitProperty options descriptor host).2.reports = host.reports ++ reports ∧
      descriptor.TreatsNull facts reports ∧
      (facts.propertyType.kind.isReference = true →
        ∃! treatment : NullTreatment, treatment.ShowsIn descriptor reports) ∧
      (facts.propertyType.kind.isReference = false →
        ∀ treatment : NullTreatment, ¬ treatment.ShowsIn descriptor reports) := by
  have htreats := (PropertyFacts.describes_of_resolve hresolve).treatsNull honly hname
  have hreports : (emitProperty options descriptor host).2.reports =
      host.reports ++ descriptor.reported := by
    rw [host_emitProperty hhost, Host.reports_foldl_hear hlistens]
  rw [emitProperty_of_neverCancels hhost] at hreports ⊢
  exact ⟨_, _, rfl, rfl, PropertyDraft.filter_isSetter honly, hreports, htreats,
    htreats.existsUnique_showsIn, htreats.not_showsIn⟩

theorem emitProperty_treatsNull_sample :
    ∃ descriptor, (PropertyFacts.sample .unknown).resolve = .ok descriptor ∧
      descriptor.eventArgsOnly = false ∧
      (emitProperty {} descriptor {}).2.reports.map (fun report => (report.code, report.location)) =
        [("PN0001", some ⟨"Doc.cs", 3, 5⟩), ("PN0001", some ⟨"Doc.Designer.cs", 7, 9⟩)] ∧
      ¬ (descriptor.declaration .setter).RefusesNull := by
  have honly : (PropertyFacts.sample .unknown).resolve.toOption.map (·.eventArgsOnly) =
      some false := by
    decide +kernel
  cases hresolve : (PropertyFacts.sample .unknown).resolve with
  | error error =>
      rw [hresolve] at honly
      cases honly
  | ok descriptor =>
      rw [hresolve] at honly
      have honly := Option.some.inj honly
      obtain ⟨-, reports, -, -, -, hreports, htreats, -⟩ := emitProperty_treatsNull hresolve honly
        (by decide) neverCancels_default rfl {}
      have hplaces := congrArg (List.map (·.2)) (htreats.reports_each ⟨rfl, rfl⟩)
      rw [List.map_map] at hplaces
      have hguarded : ¬ (PropertyFacts.sample .unknown).IsReference .notAnnotated := by
        rintro ⟨-, h⟩
        cases h
      exact ⟨descriptor, rfl, honly, hreports ▸ hplaces, mt htreats.setter_guarded_iff.mp hguarded⟩

end ChangeNotification
