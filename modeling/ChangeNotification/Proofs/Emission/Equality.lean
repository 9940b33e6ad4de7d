import ChangeNotification.Proofs.Emission.Reports
import Mathlib.Data.List.Forall2

/-! # Equal descriptors

Equality of descriptors leaves out the declaration sites. These say where to report and how often,
and nothing else that an emission does depends on them. -/

namespace ChangeNotification

open Emission

/-! ## Equality -/

/-- Descriptors that agree in everything but the declaration sites. -/
structure PropertyDescriptor.AgreesWith (a b : PropertyDescriptor) : Prop where
  containingType : a.containingType = b.containingType
  propertyName : a.propertyName = b.propertyName
  propertyType : a.propertyType = b.propertyType
  isReference : a.isReference = b.isReference
  nullability : a.nullability = b.nullability
  eventArgsOnly : a.eventArgsOnly = b.eventArgsOnly
  notifiesChanging : a.changing.notifies = b.changing.notifies
  notifiesChanged : a.changed.notifies = b.changed.notifies
  changingEvent : a.changing.event = b.changing.event
  changedEvent : a.changed.event = b.changed.event
  changingObservable : a.changing.observable = b.changing.observable
  changedObservable : a.changed.observable = b.changed.observable
  redirects : a.redirects = b.redirects

namespace PropertyDescriptor

variable {a b c : PropertyDescriptor}

theorem beq_iff_agreesWith : (a == b) = true ↔ a.AgreesWith b := by
  simp only [BEq.beq, Bool.and_eq_true, decide_eq_true_eq]
  constructor
  · rintro ⟨⟨⟨⟨⟨⟨⟨⟨⟨⟨⟨⟨htype, hname⟩, hvalue⟩, hreference⟩, hnullability⟩, honly⟩, hchanging⟩,
      hchanged⟩, hchangedEvent⟩, hchangingEvent⟩, hchangedObservable⟩, hchangingObservable⟩,
      hredirects⟩
    exact ⟨htype, hname, hvalue, hreference, hnullability, honly, hchanging, hchanged,
      hchangingEvent, hchangedEvent, hchangingObservable, hchangedObservable, hredirects⟩
  · intro h
    simp only [h.containingType, h.propertyName, h.propertyType, h.isReference, h.nullability,
      h.eventArgsOnly, h.notifiesChanging, h.notifiesChanged, h.changingEvent, h.changedEvent,
      h.changingObservable, h.changedObservable, h.redirects, and_self]

/-- The descriptor without the places to report on. -/
def withoutSites (descriptor : PropertyDescriptor) : PropertyDraft :=
  { descriptor.toPropertyDraft with declarationSites := [] }

theorem withoutSites_eq_iff : a.withoutSites = b.withoutSites ↔ a.AgreesWith b := by
  constructor
  · intro h
    have hfield {α : Type} (field : PropertyDraft → α) :
        field a.withoutSites = field b.withoutSites := congrArg field h
    exact ⟨hfield (·.containingType), hfield (·.propertyName), hfield (·.propertyType),
      hfield (·.isReference), hfield (·.nullability), hfield (·.eventArgsOnly),
      hfield (·.changing.notifies), hfield (·.changed.notifies), hfield (·.changing.event),
      hfield (·.changed.event), hfield (·.changing.observable), hfield (·.changed.observable),
      hfield (·.redirects)⟩
  · intro h
    have hchanging : a.changing = b.changing := by
      rw [PhaseMembers.mk.injEq]
      exact ⟨h.notifiesChanging, h.changingEvent, h.changingObservable⟩
    have hchanged : a.changed = b.changed := by
      rw [PhaseMembers.mk.injEq]
      exact ⟨h.notifiesChanged, h.changedEvent, h.changedObservable⟩
    simp only [withoutSites, h.containingType, h.propertyName, h.propertyType, h.isReference,
      h.nullability, h.eventArgsOnly, hchanging, hchanged, h.redirects]

theorem beq_iff_withoutSites : (a == b) = true ↔ a.withoutSites = b.withoutSites :=
  beq_iff_agreesWith.trans withoutSites_eq_iff.symm

theorem equivalence_beq : Equivalence fun a b : PropertyDescriptor => (a == b) = true where
  refl _ := beq_iff_withoutSites.mpr rfl
  symm h := beq_iff_withoutSites.mpr (beq_iff_withoutSites.mp h).symm
  trans h h' :=
    beq_iff_withoutSites.mpr ((beq_iff_withoutSites.mp h).trans (beq_iff_withoutSites.mp h'))

/-! ## What equal descriptors share -/

/-- Whatever does not read the sites is the same for equal descriptors. -/
theorem eq_of_beq {α : Type} (f : PropertyDraft → α)
    (hf : ∀ descriptor : PropertyDescriptor, f descriptor.withoutSites = f descriptor.toPropertyDraft)
    (h : (a == b) = true) : f a.toPropertyDraft = f b.toPropertyDraft := by
  rw [← hf a, ← hf b, beq_iff_withoutSites.mp h]

theorem containingType_eq_of_beq (h : (a == b) = true) : a.containingType = b.containingType :=
  eq_of_beq PropertyDraft.containingType (fun _ => rfl) h

theorem propertyHintName_eq_of_beq (h : (a == b) = true) :
    propertyHintName a.toPropertyDraft = propertyHintName b.toPropertyDraft :=
  eq_of_beq propertyHintName (fun _ => rfl) h

theorem declarations_eq_of_beq (h : (a == b) = true) : a.declarations = b.declarations :=
  eq_of_beq PropertyDraft.declarations (fun _ => rfl) h

/-- Only the setter that reports tells the sites of equal descriptors apart. -/
theorem memberActions_eq_of_beq (h : (a == b) = true) {member : Member}
    (hreported : member = .setter →
      a.nullableContextDiagnostics = b.nullableContextDiagnostics) :
    a.memberActions member = b.memberActions member := by
  cases member with
  | setter =>
      have hactions (descriptor : PropertyDescriptor) :
          descriptor.memberActions .setter = .write .separate ::
            (descriptor.memberNotNullLines ++ .write (.openBlock
              (Member.setter.line descriptor.memberNames descriptor.propertyType)) ::
              descriptor.setterBody descriptor.nullableContextDiagnostics
                descriptor.sameValueStatement ++ [.write .closeBlock]) := rfl
      rw [hactions a, hactions b, hreported rfl]
      exact eq_of_beq (fun draft => Action.write .separate ::
        (draft.memberNotNullLines ++ .write (.openBlock
          (Member.setter.line draft.memberNames draft.propertyType)) ::
          draft.setterBody b.nullableContextDiagnostics draft.sameValueStatement ++
            [.write .closeBlock])) (fun _ => rfl) h
  | eventArgs | redirect | event | observable | field | accessor | comparerSetter =>
      exact eq_of_beq (fun draft => draft.memberActions _) (fun _ => rfl) h

theorem bodyActions_eq_of_beq (h : (a == b) = true) (hreported : a.reported = b.reported) :
    a.bodyActions = b.bodyActions := by
  have hgroups : a.memberGroups = b.memberGroups :=
    eq_of_beq PropertyDraft.memberGroups (fun _ => rfl) h
  have honly := (beq_iff_agreesWith.mp h).eventArgsOnly
  have hsetter : ∀ group ∈ a.memberGroups, Member.setter ∈ group →
      a.nullableContextDiagnostics = b.nullableContextDiagnostics := by
    intro group hgroup hmember
    cases hargs : a.eventArgsOnly with
    | true => simp_all [PropertyDraft.memberGroups, PropertyDraft.mem_eventArgsMembers]
    | false => simpa [PropertyDraft.reported, ← honly, hargs] using hreported
  rw [PropertyDraft.bodyActions, PropertyDraft.bodyActions, ← hgroups]
  refine List.flatMap_congr fun group hgroup => congrArg _ (List.flatMap_congr fun member hmember => ?_)
  refine memberActions_eq_of_beq h ?_
  rintro rfl
  exact hsetter group hgroup hmember

end PropertyDescriptor

/-! ## Places of reports -/

namespace PropertyDraft

/-- The places that an emission reports on. A property that is declared nowhere is still reported. -/
def reportPlaces (draft : PropertyDraft) : List (Option SourceLocation) :=
  if draft.eventArgsOnly || !draft.hasIndeterminateNullability then []
  else if draft.declarationSites = [] then [none] else draft.declarationSites.map some

theorem reported_eq_map (draft : PropertyDraft) :
    draft.reported = draft.reportPlaces.map Diagnostic.nullableContextDisabled := by
  cases honly : draft.eventArgsOnly with
  | true => simp [reported, reportPlaces, honly]
  | false =>
      cases hopen : draft.hasIndeterminateNullability with
      | false => simp [reported, nullableContextDiagnostics, reportPlaces, honly, hopen]
      | true =>
          cases hsites : draft.declarationSites <;>
            simp [reported, nullableContextDiagnostics, reportPlaces, honly, hopen, hsites]

theorem reportPlaces_eq_nil_iff {draft : PropertyDraft} :
    draft.reportPlaces = [] ↔
      (draft.eventArgsOnly || !draft.hasIndeterminateNullability) = true := by
  unfold reportPlaces
  split
  · simp_all
  · split <;> simp_all

end PropertyDraft

/-- Whether there is a report at all does not depend on the sites. -/
theorem PropertyDescriptor.reportPlaces_eq_nil_iff_of_beq {a b : PropertyDescriptor}
    (h : (a == b) = true) : a.reportPlaces = [] ↔ b.reportPlaces = [] := by
  have hsilent := eq_of_beq
    (fun draft => draft.eventArgsOnly || !draft.hasIndeterminateNullability) (fun _ => rfl) h
  rw [PropertyDraft.reportPlaces_eq_nil_iff, PropertyDraft.reportPlaces_eq_nil_iff, hsilent]

/-! ## Emissions alike -/

/-- Emissions with the same result where the host never cancels or has cancelled before. They may
report on different places and not equally often, but either both report or neither does. -/
structure EmitAlike (emission other : Host → Except EmitError GeneratedSource × Host) : Prop where
  result_eq : ∀ host host' : Host, host.NeverCancels ∧ host'.NeverCancels ∨
    host.cancelled = true ∧ host'.cancelled = true → (emission host).1 = (other host').1
  reports : ∃ places places' : List (Option SourceLocation), (places = [] ↔ places' = []) ∧
    ∀ host : Host, host.NeverCancels →
      (emission host).2 =
        (places.map Diagnostic.nullableContextDisabled).foldl Host.hear host ∧
      (other host).2 =
        (places'.map Diagnostic.nullableContextDisabled).foldl Host.hear host

section

variable {options : EmitOptions}

theorem emitAlike_emitProperty {a b : PropertyDescriptor} (h : (a == b) = true) :
    EmitAlike (emitProperty options a) (emitProperty options b) where
  result_eq host host' hhosts := by
    rcases hhosts with ⟨hhost, hhost'⟩ | ⟨hhost, hhost'⟩
    · rw [emitProperty_of_neverCancels hhost, emitProperty_of_neverCancels hhost',
        PropertyDescriptor.propertyHintName_eq_of_beq h,
        PropertyDescriptor.containingType_eq_of_beq h,
        PropertyDescriptor.declarations_eq_of_beq h]
    · rw [emitProperty_of_cancelled hhost, emitProperty_of_cancelled hhost']
  reports := by
    refine ⟨a.reportPlaces, b.reportPlaces,
      PropertyDescriptor.reportPlaces_eq_nil_iff_of_beq h, fun host hhost => ?_⟩
    rw [host_emitProperty hhost, host_emitProperty hhost, PropertyDraft.reported_eq_map,
      PropertyDraft.reported_eq_map]
    exact ⟨rfl, rfl⟩

end

/-! ## Lists of properties -/

/-- Lists that are equal element by element. -/
def PropertyDescriptor.ListsEqual (descriptors others : List PropertyDescriptor) : Prop :=
  List.Forall₂ (fun a b => (a == b) = true) descriptors others

namespace PropertyDescriptor.ListsEqual

variable {descriptors others : List PropertyDescriptor}

theorem map_eq {α : Type} {f : PropertyDescriptor → α}
    (hf : ∀ {a b : PropertyDescriptor}, (a == b) = true → f a = f b)
    (h : ListsEqual descriptors others) : descriptors.map f = others.map f := by
  induction h with
  | nil => rfl
  | cons hfirst _ ih => rw [List.map_cons, List.map_cons, hf hfirst, ih]

theorem declarations_eq (h : ListsEqual descriptors others) :
    (descriptors.flatMap fun descriptor => descriptor.declarations) =
      others.flatMap fun descriptor => descriptor.declarations := by
  rw [List.flatMap_def, List.flatMap_def, h.map_eq declarations_eq_of_beq]

theorem reportPlaces_eq_nil_iff (h : ListsEqual descriptors others) :
    (descriptors.flatMap fun descriptor => descriptor.reportPlaces) = [] ↔
      (others.flatMap fun descriptor => descriptor.reportPlaces) = [] := by
  induction h with
  | nil => rfl
  | cons hfirst _ ih =>
      rw [List.flatMap_cons, List.flatMap_cons, List.append_eq_nil_iff, List.append_eq_nil_iff, ih,
        reportPlaces_eq_nil_iff_of_beq hfirst]

end PropertyDescriptor.ListsEqual

theorem emitType_of_mixed {first : PropertyDescriptor} {rest : List PropertyDescriptor}
    {found : TypeDefinition}
    (h : (rest.map (·.containingType)).find? (· ≠ first.containingType) = some found)
    (options : EmitOptions) (host : Host) :
    emitType options (first :: rest) host =
      (.error (.mixedContainingTypes first.containingType.qualifiedName found.qualifiedName),
        host) := by
  rw [List.find?_map] at h
  obtain ⟨other, hother, rfl⟩ := Option.map_eq_some_iff.mp h
  have hfind : (first :: rest).find? (·.containingType ≠ first.containingType) = some other := by
    rw [List.find?_cons_of_neg (by simp)]
    exact hother
  rw [emitType, hfind]

/-- Equal lists are refused alike, or each of them is of one type. -/
theorem PropertyDescriptor.ListsEqual.refused_or_same {a b : PropertyDescriptor}
    {descriptors others : List PropertyDescriptor}
    (h : ListsEqual (a :: descriptors) (b :: others)) (options : EmitOptions) :
    (∃ error, ∀ host, emitType options (a :: descriptors) host = (.error error, host) ∧
      emitType options (b :: others) host = (.error error, host)) ∨
    (∀ descriptor ∈ descriptors, descriptor.containingType = a.containingType) ∧
      ∀ descriptor ∈ others, descriptor.containingType = b.containingType := by
  obtain ⟨hfirst, hrest⟩ := List.forall₂_cons.mp h
  have htype := containingType_eq_of_beq hfirst
  have htypes : descriptors.map (·.containingType) = others.map (·.containingType) :=
    ListsEqual.map_eq containingType_eq_of_beq hrest
  cases hfind : (descriptors.map (·.containingType)).find? (· ≠ a.containingType) with
  | some found =>
      refine .inl ⟨_, fun host => ⟨emitType_of_mixed hfind options host, ?_⟩⟩
      rw [htypes, htype] at hfind
      rw [emitType_of_mixed hfind, htype]
  | none =>
      refine .inr ⟨by simpa using hfind, ?_⟩
      rw [htypes, htype] at hfind
      simpa using hfind

theorem PropertyDescriptor.flatMap_reported (descriptors : List PropertyDescriptor) :
    (descriptors.flatMap fun descriptor => descriptor.reported) =
      (descriptors.flatMap fun descriptor => descriptor.reportPlaces).map
        Diagnostic.nullableContextDisabled := by
  simp only [PropertyDraft.reported_eq_map, List.map_flatMap]

theorem emitAlike_emitType {options : EmitOptions} {descriptors others : List PropertyDescriptor}
    (h : PropertyDescriptor.ListsEqual descriptors others) :
    EmitAlike (emitType options descriptors) (emitType options others) := by
  have hlists := h
  cases h with
  | nil => exact ⟨fun _ _ _ => rfl, [], [], Iff.rfl, fun _ _ => ⟨rfl, rfl⟩⟩
  | @cons a b descriptors others hfirst hrest =>
      have htype := PropertyDescriptor.containingType_eq_of_beq hfirst
      rcases hlists.refused_or_same options with ⟨error, hrefused⟩ | ⟨hsame, hsame'⟩
      · refine ⟨fun host host' _ => ?_, [], [], Iff.rfl, fun host _ => ?_⟩
        · rw [(hrefused host).1, (hrefused host').2]
        · rw [(hrefused host).1, (hrefused host).2]
          exact ⟨rfl, rfl⟩
      · refine ⟨fun host host' hhosts => ?_, _, _, hlists.reportPlaces_eq_nil_iff,
          fun host hhost => ?_⟩
        · rcases hhosts with ⟨hhost, hhost'⟩ | ⟨hhost, hhost'⟩
          · rw [emitType_of_neverCancels hhost options a hsame,
              emitType_of_neverCancels hhost' options b hsame', htype, hlists.declarations_eq]
          · rw [emitType_of_cancelled hhost options a hsame,
              emitType_of_cancelled hhost' options b hsame']
        · rw [host_emitType hhost options a hsame, host_emitType hhost options b hsame',
            PropertyDescriptor.flatMap_reported, PropertyDescriptor.flatMap_reported]
          exact ⟨rfl, rfl⟩

/-! ## Equal reports -/

/-- Equal descriptors that report the same run alike, whenever the host may cancel. -/
theorem emitProperty_eq_of_beq {options : EmitOptions} {a b : PropertyDescriptor}
    (h : (a == b) = true) (hreported : a.reported = b.reported) :
    emitProperty options a = emitProperty options b := by
  funext host
  rw [emitProperty, emitProperty, PropertyDescriptor.propertyHintName_eq_of_beq h,
    PropertyDescriptor.containingType_eq_of_beq h,
    PropertyDescriptor.bodyActions_eq_of_beq h hreported]

theorem PropertyDescriptor.ListsEqual.bodyActions_eq {descriptors others : List PropertyDescriptor}
    (h : ListsEqual descriptors others)
    (hreported : descriptors.map (·.reported) = others.map (·.reported)) :
    (descriptors.flatMap fun descriptor => descriptor.bodyActions) =
      others.flatMap fun descriptor => descriptor.bodyActions := by
  induction h with
  | nil => rfl
  | cons hfirst _ ih =>
      rw [List.map_cons, List.map_cons, List.cons.injEq] at hreported
      rw [List.flatMap_cons, List.flatMap_cons, bodyActions_eq_of_beq hfirst hreported.1,
        ih hreported.2]

theorem emitType_eq_of_listsEqual {options : EmitOptions}
    {descriptors others : List PropertyDescriptor}
    (h : PropertyDescriptor.ListsEqual descriptors others)
    (hreported : descriptors.map (·.reported) = others.map (·.reported)) :
    emitType options descriptors = emitType options others := by
  have hbodies := h.bodyActions_eq hreported
  have hlists := h
  cases h with
  | nil => rfl
  | @cons a b descriptors others hfirst hrest =>
      funext host
      rcases hlists.refused_or_same options with ⟨error, hrefused⟩ | ⟨hsame, hsame'⟩
      · rw [(hrefused host).1, (hrefused host).2]
      · rw [emitType_eq_runUnit hsame, emitType_eq_runUnit hsame', hbodies,
          PropertyDescriptor.containingType_eq_of_beq hfirst]

/-- Equality of descriptors compares everything but the sites, and what is equal is emitted alike:
what was emitted for one may stand for the other. The sites tell apart no more than the reports,
as emissions that report the same are the same. -/
theorem beq_emitAlike :
    (∀ a b : PropertyDescriptor, (a == b) = true ↔ a.AgreesWith b) ∧
    (Equivalence fun a b : PropertyDescriptor => (a == b) = true) ∧
    ∀ options : EmitOptions,
      (∀ a b : PropertyDescriptor, (a == b) = true →
        EmitAlike (emitProperty options a) (emitProperty options b) ∧
        ((emitProperty options a {}).2.reports = (emitProperty options b {}).2.reports →
          emitProperty options a = emitProperty options b)) ∧
      ∀ descriptors others, PropertyDescriptor.ListsEqual descriptors others →
        EmitAlike (emitType options descriptors) (emitType options others) ∧
        ((descriptors.map fun descriptor => (emitProperty options descriptor {}).2.reports) =
            (others.map fun descriptor => (emitProperty options descriptor {}).2.reports) →
          emitType options descriptors = emitType options others) := by
  refine ⟨fun a b => PropertyDescriptor.beq_iff_agreesWith, PropertyDescriptor.equivalence_beq,
    fun options => ⟨fun a b h => ?_, fun descriptors others h => ?_⟩⟩
  · refine ⟨emitAlike_emitProperty h, fun hreports => emitProperty_eq_of_beq h ?_⟩
    simpa only [reports_emitProperty] using hreports
  · refine ⟨emitAlike_emitType h, fun hreports => emitType_eq_of_listsEqual h ?_⟩
    simpa only [reports_emitProperty] using hreports

theorem beq_emitAlike_sampleAt :
    let here := (PropertyDraft.sampleAt [⟨"A.cs", 1, 1⟩]).build
    let there := (PropertyDraft.sampleAt [⟨"B.cs", 7, 3⟩, ⟨"C.cs", 2, 5⟩]).build
    let guarded := { PropertyDraft.sample with declarationSites := [⟨"A.cs", 1, 1⟩] }.build
    (here == there) = true ∧
      (emitProperty {} here {}).2.reports ≠ (emitProperty {} there {}).2.reports ∧
      (emitProperty {} here {}).1 = (emitProperty {} there {}).1 ∧
      (emitType {} [here, there] {}).1 = (emitType {} [there, there] {}).1 ∧
      emitProperty {} guarded = emitProperty {} PropertyDraft.sample.build := by
  intro here there guarded
  have hequal : (here == there) = true := PropertyDescriptor.beq_iff_withoutSites.mpr rfl
  have hthere : (there == there) = true := PropertyDescriptor.beq_iff_withoutSites.mpr rfl
  have hguarded : (guarded == PropertyDraft.sample.build) = true :=
    PropertyDescriptor.beq_iff_withoutSites.mpr rfl
  have hlists : PropertyDescriptor.ListsEqual [here, there] [there, there] :=
    .cons hequal (.cons hthere .nil)
  obtain ⟨-, -, halike⟩ := beq_emitAlike
  obtain ⟨hproperties, htypes⟩ := halike {}
  refine ⟨hequal, ?_, ?_, ?_, ?_⟩
  · rw [reports_emitProperty, reports_emitProperty]
    decide
  · exact (hproperties here there hequal).1.result_eq {} {}
      (.inl ⟨neverCancels_default, neverCancels_default⟩)
  · exact (htypes _ _ hlists).1.result_eq {} {}
      (.inl ⟨neverCancels_default, neverCancels_default⟩)
  · refine (hproperties guarded _ hguarded).2 ?_
    rw [reports_emitProperty, reports_emitProperty]
    rfl

end ChangeNotification
