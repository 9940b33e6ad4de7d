import Mathlib.Data.List.Forall2

/-! # Computations that succeed or fail

What a computation that gives a result was made of, and where one that fails came to its end. -/

namespace ChangeNotification

variable {α β ε : Type}

instance decidableEqExcept [DecidableEq ε] [DecidableEq α] : DecidableEq (Except ε α)
  | .ok a, .ok b => decidable_of_iff' _ (iff_of_eq (Except.ok.injEq a b))
  | .error a, .error b => decidable_of_iff' _ (iff_of_eq (Except.error.injEq a b))
  | .ok _, .error _ => isFalse nofun
  | .error _, .ok _ => isFalse nofun

theorem bind_eq_ok_iff {computation : Except ε α} {next : α → Except ε β} {result : β} :
    computation >>= next = .ok result ↔ ∃ value, computation = .ok value ∧ next value = .ok result := by
  cases computation <;> simp [bind, Except.bind]

theorem bind_eq_error_iff {computation : Except ε α} {next : α → Except ε β} {error : ε} :
    computation >>= next = .error error ↔
      computation = .error error ∨ ∃ value, computation = .ok value ∧ next value = .error error := by
  cases computation <;> simp [bind, Except.bind]

theorem map_eq_ok_iff {f : α → β} {computation : Except ε α} {result : β} :
    computation.map f = .ok result ↔ ∃ value, computation = .ok value ∧ f value = result := by
  cases computation <;> simp [Except.map]

theorem toOption_eq_some_iff {computation : Except ε α} {value : α} :
    computation.toOption = some value ↔ computation = .ok value := by
  cases computation <;> simp [Except.toOption]

theorem mapError_eq_ok_iff {ε' : Type} {computation : Except ε α} {f : ε → ε'} {value : α} :
    computation.mapError f = .ok value ↔ computation = .ok value := by
  constructor
  · intro h
    cases computation with
    | error => cases h
    | ok => exact congrArg _ (Except.ok.inj h)
  · rintro rfl
    rfl

theorem exists_eq_ok_of_toBool {computation : Except ε α} (h : computation.toBool = true) :
    ∃ value, computation = .ok value := by
  cases computation with
  | error => cases h
  | ok value => exact ⟨value, rfl⟩

theorem exists_eq_error_iff {computation : Except ε α} :
    (∃ error, computation = .error error) ↔ ∀ value, computation ≠ .ok value := by
  cases computation <;> simp

/-- What a computation gives and how it fails. -/
structure Settles (computation : Except ε α) (Gives : α → Prop) (Fails : ε → Prop) : Prop where
  eq_ok_iff : ∀ {value}, computation = .ok value ↔ Gives value
  eq_error_iff : ∀ {error}, computation = .error error ↔ Fails error

/-- A computation is settled by what holds for every input and decides on its outcome. -/
theorem Settles.of_total {computation : Except ε α} {Gives : α → Prop} {Fails : ε → Prop}
    (hgives : ∀ value, Gives value → computation = .ok value)
    (hfails : ∀ error, Fails error → computation = .error error)
    (htotal : (∃ value, Gives value) ∨ ∃ error, Fails error) : Settles computation Gives Fails := by
  rcases htotal with ⟨value, hvalue⟩ | ⟨error, herror⟩
  · have heq := hgives value hvalue
    refine ⟨⟨fun h => ?_, hgives _⟩, ⟨fun h => ?_, hfails _⟩⟩
    · rwa [← Except.ok.inj (heq.symm.trans h)]
    · cases heq.symm.trans h
  · have heq := hfails error herror
    refine ⟨⟨fun h => ?_, hgives _⟩, ⟨fun h => ?_, hfails _⟩⟩
    · cases heq.symm.trans h
    · rwa [← Except.error.inj (heq.symm.trans h)]

theorem Settles.total {computation : Except ε α} {Gives : α → Prop} {Fails : ε → Prop}
    (h : Settles computation Gives Fails) : (∃ value, Gives value) ∨ ∃ error, Fails error := by
  cases hresult : computation with
  | ok value => exact .inl ⟨value, h.eq_ok_iff.mp hresult⟩
  | error error => exact .inr ⟨error, h.eq_error_iff.mp hresult⟩

theorem Settles.not_fails {computation : Except ε α} {Gives : α → Prop} {Fails : ε → Prop}
    (h : Settles computation Gives Fails) {value : α} (hvalue : Gives value) (error : ε) :
    ¬ Fails error := by
  intro herror
  cases (h.eq_ok_iff.mpr hvalue).symm.trans (h.eq_error_iff.mpr herror)

/-- A map succeeds item by item. -/
theorem mapM_eq_ok_iff {f : α → Except ε β} {list : List α} {results : List β} :
    list.mapM f = .ok results ↔
      List.Forall₂ (fun item result => f item = .ok result) list results := by
  induction list generalizing results with
  | nil =>
      rw [List.forall₂_nil_left_iff]
      exact ⟨fun h => (Except.ok.inj h).symm, fun h => h ▸ rfl⟩
  | cons item list ih =>
      rw [List.mapM_cons, bind_eq_ok_iff, List.forall₂_cons_left_iff]
      simp only [bind_eq_ok_iff, ih]
      constructor
      · rintro ⟨first, hfirst, others, hothers, h⟩
        exact ⟨first, others, hfirst, hothers, (Except.ok.inj h).symm⟩
      · rintro ⟨first, others, hfirst, hothers, rfl⟩
        exact ⟨first, hfirst, others, hothers, rfl⟩

theorem exists_of_mem_forall₂ {R : α → β → Prop} {list : List α} {results : List β}
    (h : List.Forall₂ R list results) : ∀ result ∈ results, ∃ item ∈ list, R item result := by
  induction h with
  | nil => simp
  | @cons item first list results hfirst _ ih =>
      have hrest : ∀ result ∈ results, ∃ other ∈ item :: list, R other result := by
        intro result hresult
        obtain ⟨other, hother, hrel⟩ := ih result hresult
        exact ⟨other, .tail _ hother, hrel⟩
      exact List.forall_mem_cons.mpr ⟨⟨item, .head _, hfirst⟩, hrest⟩

/-- Every result of a map that succeeds is the result of an item. -/
theorem exists_of_mem_mapM {f : α → Except ε β} {list : List α} {results : List β}
    (h : list.mapM f = .ok results) : ∀ result ∈ results, ∃ item ∈ list, f item = .ok result :=
  exists_of_mem_forall₂ (mapM_eq_ok_iff.mp h)

theorem exists_mapM_eq_ok_iff {f : α → Except ε β} {list : List α} :
    (∃ results, list.mapM f = .ok results) ↔ ∀ item ∈ list, ∃ result, f item = .ok result := by
  simp only [mapM_eq_ok_iff]
  induction list with
  | nil => simp
  | cons item list ih =>
      rw [List.forall_mem_cons, ← ih]
      simp only [List.forall₂_cons_left_iff]
      constructor
      · rintro ⟨_, first, others, hfirst, hothers, rfl⟩
        exact ⟨⟨first, hfirst⟩, others, hothers⟩
      · rintro ⟨⟨first, hfirst⟩, others, hothers⟩
        exact ⟨_, first, others, hfirst, hothers, rfl⟩

/-- A map fails as its first item that fails. -/
theorem mapM_eq_error_iff {f : α → Except ε β} {list : List α} {error : ε} :
    list.mapM f = .error error ↔
      ∃ before item after, list = before ++ item :: after ∧
        (∀ other ∈ before, ∃ result, f other = .ok result) ∧ f item = .error error := by
  induction list with
  | nil =>
      constructor
      · intro h
        cases h
      · rintro ⟨before, item, after, h, -⟩
        simp at h
  | cons first list ih =>
      rw [List.mapM_cons, bind_eq_error_iff]
      constructor
      · rintro (hfirst | ⟨result, hresult, h⟩)
        · exact ⟨[], first, list, rfl, by simp, hfirst⟩
        · rcases bind_eq_error_iff.mp h with hothers | ⟨others, -, h⟩
          · obtain ⟨before, item, after, rfl, hbefore, hitem⟩ := ih.mp hothers
            refine ⟨first :: before, item, after, rfl, ?_, hitem⟩
            exact List.forall_mem_cons.mpr ⟨⟨result, hresult⟩, hbefore⟩
          · cases h
      · rintro ⟨before, item, after, hlist, hbefore, hitem⟩
        cases before with
        | nil =>
            obtain ⟨rfl, rfl⟩ := List.cons.inj hlist
            exact .inl hitem
        | cons other before =>
            obtain ⟨rfl, rfl⟩ := List.cons.inj hlist
            obtain ⟨⟨result, hresult⟩, hbefore⟩ := List.forall_mem_cons.mp hbefore
            have hothers := ih.mpr ⟨before, item, after, rfl, hbefore, hitem⟩
            exact .inr ⟨result, hresult, bind_eq_error_iff.mpr (.inl hothers)⟩

end ChangeNotification
