import ChangeNotification.Proofs.Emission.Reports

/-! # Cancelled emissions

A host that cancels at one of the reports is noticed at the next checkpoint, which stands after all
reports of the same property and before those of any other. -/

namespace ChangeNotification

open Emission

/-! ## Hosts that cancel -/

/-- A host that listens, and cancels when it hears the `n`-th report from now on. -/
structure Host.CancelsAtReport (host : Host) (n : Nat) : Prop where
  pos : 0 < n
  listens : host.ignoresEmissions = false
  not_cancelled : host.cancelled = false
  cancelsAt : host.cancelsAt = some (host.reports.length + n)

namespace Host.CancelsAtReport

variable {host : Host} {n : Nat}

theorem cancelled_hear (h : host.CancelsAtReport 1) (diagnostic : Diagnostic) :
    (host.hear diagnostic).cancelled = true := by
  simp [hear, report, h.listens, h.cancelsAt]

theorem hear (h : host.CancelsAtReport (n + 2)) (diagnostic : Diagnostic) :
    (host.hear diagnostic).CancelsAtReport (n + 1) where
  pos := Nat.succ_pos n
  listens := by simp [Host.hear, report, h.listens]
  not_cancelled := by simp [Host.hear, report, h.listens, h.not_cancelled, h.cancelsAt]
  cancelsAt := by simp [Host.hear, report, h.listens, h.cancelsAt]; omega

/-- The host has cancelled as soon as it has heard enough. -/
theorem cancelled_foldl_hear_iff (h : host.CancelsAtReport n) (list : List Diagnostic) :
    (list.foldl Host.hear host).cancelled = true ↔ n ≤ list.length := by
  induction list generalizing host n with
  | nil =>
      have hpos := h.pos
      simp only [List.foldl_nil, h.not_cancelled, List.length_nil, Bool.false_eq_true, false_iff]
      omega
  | cons diagnostic list ih =>
      match n, h with
      | 0, h => exact absurd h.pos (Nat.lt_irrefl 0)
      | 1, h =>
          simp [cancelled_foldl_hear_of_cancelled (h.cancelled_hear diagnostic)]
      | n + 2, h =>
          rw [List.foldl_cons, ih (h.hear diagnostic), List.length_cons]
          omega

end Host.CancelsAtReport

/-! ## Checkpoints -/

namespace Action

theorem perform_append (actions more : List Action) (host : Host) (buffer : SourceBuffer) :
    perform (actions ++ more) host buffer =
      match perform actions host buffer with
      | (.ok next, heard) => perform more heard next
      | (.error error, heard) => (.error error, heard) := by
  induction actions generalizing host buffer with
  | nil => rfl
  | cons action actions ih =>
      cases action with
      | checkpoint =>
          simp only [List.cons_append, perform]
          split
          · rfl
          · exact ih host buffer
      | write edit => exact ih host (buffer.apply edit)
      | report diagnostic => exact ih (host.hear diagnostic) buffer

/-- Between checkpoints nothing takes notice of the host. -/
theorem perform_of_no_checkpoint {actions : List Action} (h : .checkpoint ∉ actions) (host : Host)
    (buffer : SourceBuffer) :
    perform actions host buffer =
      (.ok (buffer.applyAll (edits actions)), (diagnostics actions).foldl Host.hear host) := by
  induction actions generalizing host buffer with
  | nil => rfl
  | cons action actions ih =>
      rw [List.mem_cons, not_or] at h
      cases action with
      | checkpoint => exact absurd rfl h.1
      | write edit =>
          rw [perform, ih h.2]
          rfl
      | report diagnostic =>
          rw [perform, ih h.2]
          rfl

end Action

/-! ## Properties -/

namespace PropertyDraft

theorem checkpoint_not_mem_memberActions (draft : PropertyDraft) (member : Member) :
    .checkpoint ∉ draft.memberActions member := by
  have hlines : .checkpoint ∉ draft.memberNotNullLines := by
    unfold memberNotNullLines
    split <;> simp
  cases member with
  | setter => simp [memberActions, hlines, setterBody, writeStatements]
  | comparerSetter => simp [memberActions, setterBody, writeStatements]
  | eventArgs | redirect | event | observable | field | accessor => simp [memberActions]

/-- A property is emitted as a whole or given up after all of its reports. -/
theorem perform_bodyActions_append (draft : PropertyDraft) {host : Host}
    (hhost : host.cancelled = false) (more : List Action) (buffer : SourceBuffer) :
    let heard := draft.reported.foldl Host.hear host
    Action.perform (draft.bodyActions ++ more) host buffer =
      if heard.cancelled then (.error .cancelled, heard)
      else Action.perform more heard (buffer.applyAll (Action.edits draft.bodyActions)) := by
  intro heard
  cases hheard : heard.cancelled with
  | false =>
      have hlive : ((Action.diagnostics draft.bodyActions).foldl Host.hear host).cancelled = false := by
        rw [diagnostics_bodyActions]
        exact hheard
      rw [Action.perform_append, Action.perform_of_live _ hlive, diagnostics_bodyActions]
      rfl
  | true =>
      have honly : draft.eventArgsOnly = false := by
        cases honly : draft.eventArgsOnly with
        | false => rfl
        | true =>
            have hnone : draft.reported = [] := if_pos honly
            simp [heard, hnone, hhost] at hheard
      obtain ⟨front, hfront, hbody⟩ := bodyActions_around_setter honly
      have hreported : Action.diagnostics (draft.memberActions .setter) = draft.reported := by
        simp [diagnostics_memberActions, reported, honly]
      have hlive : ((Action.diagnostics front).foldl Host.hear host).cancelled = false := by
        rwa [hfront]
      rw [hbody, List.append_assoc, Action.perform_append, Action.perform_of_live front hlive]
      simp only [hfront, List.foldl_nil, List.append_assoc]
      rw [Action.perform_append, Action.perform_of_no_checkpoint
        (draft.checkpoint_not_mem_memberActions .setter), hreported]
      exact (if_pos hheard).trans (if_pos trivial).symm

end PropertyDraft

/-! ## Lists of properties -/

/-- Where some report makes the host cancel, no property is begun after the one that made it. -/
theorem PropertyDescriptor.perform_bodyActions_of_cancelled {descriptors : List PropertyDescriptor}
    {host : Host} (hhost : host.cancelled = false)
    (h : ((descriptors.flatMap fun descriptor => descriptor.reported).foldl
      Host.hear host).cancelled = true) (more : List Action) (buffer : SourceBuffer) :
    ∃ before descriptor after, descriptors = before ++ descriptor :: after ∧
      let heard := (before.flatMap fun descriptor => descriptor.reported).foldl Host.hear host
      heard.cancelled = false ∧
        (descriptor.reported.foldl Host.hear heard).cancelled = true ∧
        Action.perform ((descriptors.flatMap fun descriptor => descriptor.bodyActions) ++ more)
          host buffer = (.error .cancelled, descriptor.reported.foldl Host.hear heard) := by
  induction descriptors generalizing host buffer with
  | nil => simp [hhost] at h
  | cons descriptor descriptors ih =>
      rw [List.flatMap_cons, List.foldl_append] at h
      have hstep := descriptor.perform_bodyActions_append hhost
        ((descriptors.flatMap fun descriptor => descriptor.bodyActions) ++ more) buffer
      rw [List.flatMap_cons, List.append_assoc, hstep]
      cases hheard : (descriptor.reported.foldl Host.hear host).cancelled with
      | true => exact ⟨[], descriptor, descriptors, rfl, hhost, hheard, if_pos rfl⟩
      | false =>
          obtain ⟨before, last, after, rfl, hlive, hcancelled, hrun⟩ :=
            ih hheard h (buffer.applyAll (Action.edits descriptor.bodyActions))
          refine ⟨descriptor :: before, last, after, rfl, ?_⟩
          rw [List.flatMap_cons, List.foldl_append]
          exact ⟨hlive, hcancelled, (if_neg (by decide)).trans hrun⟩

/-- Nothing is reported before the first property. -/
theorem Emission.runUnit_of_reported_cancelled {descriptors : List PropertyDescriptor} {host : Host}
    (hhost : host.cancelled = false)
    (h : ((descriptors.flatMap fun descriptor => descriptor.reported).foldl
      Host.hear host).cancelled = true) (options : EmitOptions) (hintName : String)
    (definition : TypeDefinition) :
    ∃ before descriptor after, descriptors = before ++ descriptor :: after ∧
      let heard := (before.flatMap fun descriptor => descriptor.reported).foldl Host.hear host
      heard.cancelled = false ∧
        (descriptor.reported.foldl Host.hear heard).cancelled = true ∧
        runUnit options hintName (unitActions options definition
          (descriptors.flatMap fun descriptor => descriptor.bodyActions)) host =
            (.error .cancelled, descriptor.reported.foldl Host.hear heard) := by
  have hfront : Action.diagnostics (preambleActions options ++ openingActions options definition) =
      [] := by
    simp
  have hlive : ((Action.diagnostics (preambleActions options ++
      openingActions options definition)).foldl Host.hear host).cancelled = false := by
    rwa [hfront]
  obtain ⟨before, descriptor, after, hsplit, hbefore, hcancelled, hbodies⟩ :=
    PropertyDescriptor.perform_bodyActions_of_cancelled hhost h
      (closingActions options definition ++ [.checkpoint])
      (options.buffer.applyAll (Action.edits
        (preambleActions options ++ openingActions options definition)))
  refine ⟨before, descriptor, after, hsplit, hbefore, hcancelled, ?_⟩
  rw [runUnit, unitActions, List.append_assoc, List.append_assoc, Action.perform_append,
    Action.perform_of_live _ hlive, hfront]
  simp only [List.foldl_nil, hbodies]
  rfl

/-! ## All or nothing -/

/-- An emission whose reports come in parts is given up as a whole or not at all, and only between
two parts. -/
structure IsAllOrNothing (emission : Host → Except EmitError GeneratedSource × Host)
    (parts : List (List Diagnostic)) : Prop where
  completes : ∃ unit, (emission {}).1 = .ok unit
  reports_eq : (emission {}).2.reports = parts.flatten
  cancelled_iff : ∀ host n, host.CancelsAtReport n →
    ((emission host).1 = .error .cancelled ↔ n ≤ (emission {}).2.reports.length)
  otherwise : ∀ host n, host.CancelsAtReport n → (emission {}).2.reports.length < n →
    (emission host).1 = (emission {}).1 ∧
      (emission host).2.reports = host.reports ++ (emission {}).2.reports
  /-- What the host has heard ends with the part of the `n`-th report. -/
  heard : ∀ host n, host.CancelsAtReport n → n ≤ (emission {}).2.reports.length →
    ∃ before part after, parts = before ++ part :: after ∧
      before.flatten.length < n ∧ n ≤ (before.flatten ++ part).length ∧
      (emission host).2.reports = host.reports ++ (before.flatten ++ part)
  before_start : ∀ host, host.cancelled = true → emission host = (.error .cancelled, host)

theorem Emission.isAllOrNothing_runUnit (options : EmitOptions) (hintName : String)
    (definition : TypeDefinition) (descriptors : List PropertyDescriptor) :
    IsAllOrNothing (runUnit options hintName (unitActions options definition
      (descriptors.flatMap fun descriptor => descriptor.bodyActions)))
      (descriptors.map fun descriptor => descriptor.reported) := by
  let actions := unitActions options definition
    (descriptors.flatMap fun descriptor => descriptor.bodyActions)
  have hreported : Action.diagnostics actions =
      (descriptors.map fun descriptor => descriptor.reported).flatten := by
    rw [diagnostics_unitActions, PropertyDescriptor.diagnostics_flatMap_bodyActions,
      List.flatMap_def]
  have hfree := runUnit_of_neverCancels neverCancels_default options hintName actions
  have hreports : (runUnit options hintName actions {}).2.reports =
      Action.diagnostics actions := by
    rw [hfree, Host.reports_foldl_hear rfl]
    rfl
  have hlive (host : Host) (n : Nat) (h : host.CancelsAtReport n)
      (hfew : (Action.diagnostics actions).length < n) :
      runUnit options hintName actions host =
        ((runUnit options hintName actions {}).1,
          (Action.diagnostics actions).foldl Host.hear host) := by
    rw [runUnit_of_live _ options hintName, hfree]
    rw [← Bool.not_eq_true, h.cancelled_foldl_hear_iff]
    omega
  have hcancelled (host : Host) (n : Nat) (h : host.CancelsAtReport n)
      (hmany : n ≤ (Action.diagnostics actions).length) :
      ((descriptors.flatMap fun descriptor => descriptor.reported).foldl
        Host.hear host).cancelled = true := by
    rwa [List.flatMap_def, ← hreported, h.cancelled_foldl_hear_iff]
  refine ⟨⟨_, congrArg Prod.fst hfree⟩, hreports.trans hreported, ?_, ?_, ?_,
    fun host h => runUnit_of_cancelled h _ _ _ _⟩
  · intro host n h
    rw [hreports]
    constructor
    · intro hresult
      by_cases hmany : n ≤ (Action.diagnostics actions).length
      · exact hmany
      · rw [hlive host n h (Nat.lt_of_not_le hmany), hfree] at hresult
        cases hresult
    · intro hmany
      obtain ⟨_, _, _, _, _, _, hrun⟩ := runUnit_of_reported_cancelled h.not_cancelled
        (hcancelled host n h hmany) options hintName definition
      exact congrArg Prod.fst hrun
  · intro host n h hfew
    rw [hreports] at hfew ⊢
    rw [hlive host n h hfew, Host.reports_foldl_hear h.listens]
    exact ⟨rfl, rfl⟩
  · intro host n h hmany
    rw [hreports] at hmany
    obtain ⟨before, descriptor, after, rfl, hbefore, hheard, hrun⟩ :=
      runUnit_of_reported_cancelled h.not_cancelled (hcancelled host n h hmany) options hintName
        definition
    refine ⟨before.map fun descriptor => descriptor.reported, descriptor.reported,
      after.map fun descriptor => descriptor.reported, by simp, ?_, ?_, ?_⟩
    · rw [← Bool.not_eq_true, h.cancelled_foldl_hear_iff, List.flatMap_def] at hbefore
      omega
    · rwa [← List.foldl_append, h.cancelled_foldl_hear_iff, List.flatMap_def] at hheard
    · rw [hrun, ← List.foldl_append, Host.reports_foldl_hear h.listens, List.flatMap_def]

/-- Cancelled at one of its reports, an emission returns nothing, after all reports of the
properties up to the one whose report it was. Cancelled at no report that it makes, it returns what
it returns otherwise. -/
theorem emit_isAllOrNothing (options : EmitOptions) (first : PropertyDescriptor)
    {rest : List PropertyDescriptor}
    (hsame : ∀ descriptor ∈ rest, descriptor.containingType = first.containingType) :
    IsAllOrNothing (emitType options (first :: rest))
        ((first :: rest).map fun descriptor => descriptor.reported) ∧
      IsAllOrNothing (emitProperty options first) [first.reported] := by
  constructor
  · have hrun := isAllOrNothing_runUnit options (typeHintName first.containingType)
      first.containingType (first :: rest)
    rwa [← funext (emitType_eq_runUnit hsame options)] at hrun
  · have hrun := isAllOrNothing_runUnit options (propertyHintName first.toPropertyDraft)
      first.containingType [first]
    rwa [List.flatMap_singleton] at hrun

theorem emit_isAllOrNothing_sampleAt :
    let descriptor (lines : List UInt32) : PropertyDescriptor :=
      (PropertyDraft.sampleAt (lines.map (⟨"Model.cs", ·, 1⟩))).build
    let descriptors := [descriptor [3], descriptor [5, 8], descriptor [9]]
    (∀ other ∈ descriptors, other.containingType = (descriptor [3]).containingType) ∧
      Host.CancelsAtReport { cancelsAt := some 2 } 2 ∧
      (emitType {} descriptors { cancelsAt := some 2 }).1 = .error .cancelled ∧
      (emitType {} descriptors { cancelsAt := some 2 }).2.reports =
        (descriptor [3, 5, 8]).reported ∧
      (emitType {} descriptors { cancelsAt := some 5 }).1 = (emitType {} descriptors {}).1 := by
  intro descriptor descriptors
  have hsame : ∀ other ∈ descriptors, other.containingType = (descriptor [3]).containingType := by
    simp [descriptors, descriptor, PropertyDraft.build, PropertyDraft.completed,
      PropertyDraft.sampleAt]
  have hat (n : Nat) (hpos : 0 < n) : Host.CancelsAtReport { cancelsAt := some n } n :=
    ⟨hpos, rfl, rfl, congrArg some (Nat.zero_add n).symm⟩
  have htype : IsAllOrNothing (emitType {} descriptors) [(descriptor [3]).reported,
      (descriptor [5, 8]).reported, (descriptor [9]).reported] :=
    (emit_isAllOrNothing {} (descriptor [3]) fun other hother => hsame other (.tail _ hother)).1
  have hfour : (emitType {} descriptors {}).2.reports.length = 4 := by
    rw [htype.reports_eq]
    rfl
  have hone : (descriptor [3]).reported.length = 1 := rfl
  have htwo : (descriptor [5, 8]).reported.length = 2 := rfl
  have hmany : 2 ≤ (emitType {} descriptors {}).2.reports.length := by omega
  have hfew : (emitType {} descriptors {}).2.reports.length < 5 := by omega
  refine ⟨hsame, hat 2 (by omega), (htype.cancelled_iff _ 2 (hat 2 (by omega))).mpr hmany, ?_,
    (htype.otherwise _ 5 (hat 5 (by omega)) hfew).1⟩
  obtain ⟨before, part, after, hparts, hbefore, hpart, hreports⟩ :=
    htype.heard _ 2 (hat 2 (by omega)) hmany
  rw [hreports]
  simp only [List.length_append] at hpart
  rcases before with _ | ⟨one, _ | ⟨two, more⟩⟩ <;>
    simp only [List.cons_append, List.nil_append, List.cons.injEq] at hparts
  · obtain ⟨rfl, -⟩ := hparts
    simp only [List.flatten_nil, List.length_nil] at hpart
    omega
  · obtain ⟨rfl, rfl, -⟩ := hparts
    rfl
  · obtain ⟨rfl, rfl, -⟩ := hparts
    simp only [List.flatten_cons, List.length_append] at hbefore
    omega

end ChangeNotification
