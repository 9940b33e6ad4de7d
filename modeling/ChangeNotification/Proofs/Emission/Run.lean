import ChangeNotification.Emission.Unit

/-! # Emissions that run to their end

The host only decides whether an emission goes on. Where it never cancels, the text is that of the
edits alone and the host has heard every report. -/

namespace ChangeNotification

/-- The host has not cancelled, and no report of an emission makes it cancel. -/
structure Host.NeverCancels (host : Host) : Prop where
  not_cancelled : host.cancelled = false
  unmoved : host.ignoresEmissions = true ∨ host.cancelsAt = none

/-- The host of a single emission: it listens and never cancels. -/
theorem neverCancels_default : Host.NeverCancels {} := ⟨rfl, .inr rfl⟩

theorem Host.NeverCancels.hear {host : Host} (h : host.NeverCancels) (diagnostic : Diagnostic) :
    (host.hear diagnostic).NeverCancels := by
  obtain ⟨hlive, hunmoved⟩ := h
  by_cases hignores : host.ignoresEmissions = true
  · rw [Host.hear, if_pos hignores]
    exact ⟨hlive, .inl hignores⟩
  · have hnone : host.cancelsAt = none := hunmoved.resolve_left hignores
    rw [Host.hear, if_neg hignores]
    exact ⟨by simp [Host.report, hlive, hnone], .inr (by simp [Host.report, hnone])⟩

theorem Host.NeverCancels.foldl_hear {host : Host} (h : host.NeverCancels)
    (list : List Diagnostic) : (list.foldl Host.hear host).NeverCancels := by
  induction list generalizing host with
  | nil => exact h
  | cons diagnostic list ih => exact ih (h.hear diagnostic)

/-- A host that has cancelled stays so. -/
theorem Host.cancelled_foldl_hear_of_cancelled {host : Host} (h : host.cancelled = true)
    (list : List Diagnostic) : (list.foldl Host.hear host).cancelled = true := by
  induction list generalizing host with
  | nil => exact h
  | cons diagnostic list ih =>
      refine ih ?_
      unfold Host.hear
      split
      · exact h
      · simp [Host.report, h]

namespace Action

/-- What a list of actions writes. -/
def edits (actions : List Action) : List SourceBuffer.Edit :=
  actions.filterMap edit?

/-- What a list of actions reports. -/
def diagnostics (actions : List Action) : List Diagnostic :=
  actions.filterMap diagnostic?

@[simp] theorem edits_append (actions more : List Action) :
    edits (actions ++ more) = edits actions ++ edits more :=
  List.filterMap_append

@[simp] theorem edits_nil : edits [] = [] := rfl

@[simp] theorem edits_checkpoint (actions : List Action) :
    edits (.checkpoint :: actions) = edits actions := rfl

@[simp] theorem edits_write (edit : SourceBuffer.Edit) (actions : List Action) :
    edits (.write edit :: actions) = edit :: edits actions := rfl

@[simp] theorem edits_map_write {α : Type} (f : α → SourceBuffer.Edit) (list : List α) :
    edits (list.map fun item => .write (f item)) = list.map f := by
  induction list with
  | nil => rfl
  | cons item list ih => simp [ih]

@[simp] theorem edits_map_report (list : List Diagnostic) : edits (list.map .report) = [] := by
  simp [edits, edit?]

/-- An emission makes all its edits and all its reports, unless these make the host cancel. -/
theorem perform_of_live {host : Host} (actions : List Action)
    (h : ((diagnostics actions).foldl Host.hear host).cancelled = false) (buffer : SourceBuffer) :
    perform actions host buffer =
      (.ok (buffer.applyAll (edits actions)), (diagnostics actions).foldl Host.hear host) := by
  induction actions generalizing host buffer with
  | nil => rfl
  | cons action actions ih =>
      cases action with
      | checkpoint =>
          rw [perform, if_neg, ih h]
          · rfl
          · intro hcancelled
            have hlater := Host.cancelled_foldl_hear_of_cancelled hcancelled (diagnostics actions)
            exact absurd (hlater.symm.trans h) (by decide)
      | write edit =>
          rw [perform, ih h]
          rfl
      | report diagnostic =>
          rw [perform, ih h]
          rfl

/-- Nothing but cancellation ends an emission early. -/
theorem eq_cancelled_of_perform {actions : List Action} {host : Host} {buffer : SourceBuffer}
    {error : EmitError} (h : (perform actions host buffer).1 = .error error) :
    error = .cancelled := by
  induction actions generalizing host buffer with
  | nil => cases h
  | cons action actions ih =>
      cases action with
      | checkpoint =>
          by_cases hcancelled : host.cancelled = true
          · rw [perform, if_pos hcancelled] at h
            cases h
            rfl
          · rw [perform, if_neg hcancelled] at h
            exact ih h
      | write edit => exact ih h
      | report diagnostic => exact ih h

end Action

theorem Emission.eq_cancelled_of_runUnit {options : EmitOptions} {hintName : String}
    {actions : List Action} {host : Host} {error : EmitError}
    (h : (runUnit options hintName actions host).1 = .error error) : error = .cancelled := by
  simp only [runUnit] at h
  cases hresult : (Action.perform actions host options.buffer).1 with
  | error cause =>
      obtain rfl := Action.eq_cancelled_of_perform hresult
      simpa [hresult, Except.map, eq_comm] using h
  | ok buffer => simp [hresult, Except.map] at h

theorem Emission.runUnit_of_live {host : Host} {actions : List Action}
    (h : ((Action.diagnostics actions).foldl Host.hear host).cancelled = false)
    (options : EmitOptions) (hintName : String) :
    runUnit options hintName actions host =
      (.ok ⟨hintName, (options.buffer.applyAll (Action.edits actions)).text⟩,
        (Action.diagnostics actions).foldl Host.hear host) := by
  rw [runUnit, Action.perform_of_live actions h]
  rfl

theorem Emission.runUnit_of_neverCancels {host : Host} (h : host.NeverCancels)
    (options : EmitOptions) (hintName : String) (actions : List Action) :
    runUnit options hintName actions host =
      (.ok ⟨hintName, (options.buffer.applyAll (Action.edits actions)).text⟩,
        (Action.diagnostics actions).foldl Host.hear host) :=
  runUnit_of_live (h.foldl_hear _).not_cancelled options hintName

open Emission

/-! ## Properties of one type -/

theorem emitType_eq_runUnit {first : PropertyDescriptor} {rest : List PropertyDescriptor}
    (hsame : ∀ descriptor ∈ rest, descriptor.containingType = first.containingType)
    (options : EmitOptions) (host : Host) :
    emitType options (first :: rest) host =
      runUnit options (typeHintName first.containingType)
        (unitActions options first.containingType
          ((first :: rest).flatMap fun descriptor => descriptor.bodyActions)) host := by
  have hnone : (first :: rest).find? (·.containingType ≠ first.containingType) = none := by
    simpa using hsame
  rw [emitType, hnone]

/-! ## Emissions that do not begin -/

/-- The first action of a unit is a checkpoint. -/
theorem Emission.runUnit_of_cancelled {host : Host} (h : host.cancelled = true)
    (options : EmitOptions) (hintName : String) (definition : TypeDefinition)
    (bodies : List Action) :
    runUnit options hintName (unitActions options definition bodies) host =
      (.error .cancelled, host) := by
  simp [runUnit, unitActions, preambleActions, Action.perform, h, Except.map]

theorem emitProperty_of_cancelled {host : Host} (h : host.cancelled = true)
    (options : EmitOptions) (descriptor : PropertyDescriptor) :
    emitProperty options descriptor host = (.error .cancelled, host) :=
  runUnit_of_cancelled h _ _ _ _

theorem emitType_of_cancelled {host : Host} (h : host.cancelled = true) (options : EmitOptions)
    (first : PropertyDescriptor) {rest : List PropertyDescriptor}
    (hsame : ∀ descriptor ∈ rest, descriptor.containingType = first.containingType) :
    emitType options (first :: rest) host = (.error .cancelled, host) := by
  rw [emitType_eq_runUnit hsame]
  exact runUnit_of_cancelled h _ _ _ _

end ChangeNotification
