import ChangeNotification.Proofs.Text.Join

/-! # Brackets in texts

A separator between brackets divides nothing. Pieces that close all their brackets, and have no
separator outside of them, are found again in a row of such pieces. -/

namespace ChangeNotification.Text

def isOpening (c : Char) : Bool := c = '<' || c = '['

def isClosing (c : Char) : Bool := c = '>' || c = ']'

/-- How many brackets are open after a character. Outside of all brackets there is none to be
closed, and no separator. -/
def depthAfter? (separator : Char) (depth : Nat) (c : Char) : Option Nat :=
  if depth = 0 ∧ (c = separator ∨ isClosing c) then none
  else if isClosing c then some (depth - 1)
  else if isOpening c then some (depth + 1)
  else some depth

/-- A text that leaves as many brackets open as it finds, and closes none of those. -/
def KeepsDepth (separator : Char) (depth : Nat) (s : String) : Prop :=
  s.toList.foldlM (depthAfter? separator) depth = some depth

variable {separator : Char} {depth : Nat}

/-! ## Characters -/

theorem depthAfter?_separator : depthAfter? separator 0 separator = none :=
  if_pos ⟨rfl, .inl rfl⟩

theorem depthAfter?_plain {c : Char} (hseparator : c ≠ separator) (hopening : isOpening c = false)
    (hclosing : isClosing c = false) : depthAfter? separator depth c = some depth := by
  simp [depthAfter?, hseparator, hopening, hclosing]

/-- Within further brackets no separator counts. -/
theorem depthAfter?_deeper {next : Nat} {c : Char} (h : depthAfter? separator depth c = some next)
    (other : Char) : depthAfter? other (depth + 1) c = some (next + 1) := by
  rw [depthAfter?] at h
  by_cases hstop : depth = 0 ∧ (c = separator ∨ isClosing c)
  · rw [if_pos hstop] at h
    cases h
  · rw [if_neg hstop] at h
    rw [depthAfter?, if_neg (fun hzero => Nat.succ_ne_zero depth hzero.1)]
    by_cases hclosing : isClosing c
    · have hdepth : depth ≠ 0 := fun hzero => hstop ⟨hzero, .inr hclosing⟩
      rw [if_pos hclosing] at h ⊢
      cases h
      exact congrArg some (by omega)
    · rw [if_neg hclosing] at h ⊢
      by_cases hopening : isOpening c
      · rw [if_pos hopening] at h ⊢
        cases h
        rfl
      · rw [if_neg hopening] at h ⊢
        cases h
        rfl

theorem foldlM_depthAfter?_deeper {list : List Char} {next : Nat}
    (h : list.foldlM (depthAfter? separator) depth = some next) (other : Char) :
    list.foldlM (depthAfter? other) (depth + 1) = some (next + 1) := by
  induction list generalizing depth with
  | nil =>
      cases h
      rfl
  | cons c list ih =>
      rw [List.foldlM_cons] at h ⊢
      cases hc : depthAfter? separator depth c with
      | none => simp [hc] at h
      | some after =>
          rw [hc] at h
          rw [depthAfter?_deeper hc other]
          exact ih h

/-! ## Texts -/

namespace KeepsDepth

variable {s t : String}

theorem deeper (h : KeepsDepth separator depth s) (other : Char) :
    KeepsDepth other (depth + 1) s :=
  foldlM_depthAfter?_deeper h other

theorem of_plain (h : ∀ c ∈ s.toList, c ≠ separator ∧ isOpening c = false ∧ isClosing c = false) :
    KeepsDepth separator depth s := by
  rw [KeepsDepth]
  generalize s.toList = list at h
  induction list with
  | nil => rfl
  | cons c list ih =>
      obtain ⟨hseparator, hopening, hclosing⟩ := h c (.head _)
      rw [List.foldlM_cons, depthAfter?_plain hseparator hopening hclosing]
      exact ih fun other hother => h other (.tail _ hother)

theorem append (hs : KeepsDepth separator depth s) (ht : KeepsDepth separator depth t) :
    KeepsDepth separator depth (s ++ t) := by
  rw [KeepsDepth, String.toList_append, List.foldlM_append, hs]
  exact ht

theorem intercalate (ht : KeepsDepth separator depth t) {pieces : List String}
    (h : ∀ piece ∈ pieces, KeepsDepth separator depth piece) :
    KeepsDepth separator depth (String.intercalate t pieces) := by
  induction pieces with
  | nil => rfl
  | cons piece pieces ih =>
      have hpiece := h piece (.head _)
      by_cases hlast : pieces = []
      · simpa [hlast] using hpiece
      · rw [String.intercalate_cons_of_ne_nil hlast]
        exact (hpiece.append ht).append (ih fun other hother => h other (.tail _ hother))

/-- A text in brackets may hold separators. -/
theorem bracketed {opening closing : String}
    (hopening : opening.toList.foldlM (depthAfter? separator) 0 = some 1)
    (hclosing : closing.toList.foldlM (depthAfter? separator) 1 = some 0)
    (h : KeepsDepth separator 1 s) : KeepsDepth separator 0 (opening ++ s ++ closing) := by
  rw [KeepsDepth, String.toList_append, String.toList_append, List.foldlM_append,
    List.foldlM_append, hopening, Option.bind_eq_bind, Option.bind_some, h]
  exact hclosing

/-- A separator outside of all brackets ends the piece before it. -/
theorem not_append_separator (h : KeepsDepth separator 0 s) (rest : String) :
    ¬ KeepsDepth separator 0 (s ++ String.singleton separator ++ rest) := by
  intro hwhole
  simp only [KeepsDepth, String.toList_append, List.append_assoc, String.toList_singleton,
    List.singleton_append] at hwhole
  rw [List.foldlM_append, h] at hwhole
  simp [depthAfter?_separator] at hwhole

/-- A piece is found again before a separator. -/
theorem append_cut_inj (hs : KeepsDepth separator 0 s) (ht : KeepsDepth separator 0 t)
    (rest other : String) :
    s ++ String.singleton separator ++ rest = t ++ String.singleton separator ++ other ↔
      s = t ∧ rest = other := by
  refine ⟨cut_unique ?_ ?_, fun ⟨hstart, hrest⟩ => by rw [hstart, hrest]⟩
  · rintro more rfl
    exact ht.not_append_separator more hs
  · rintro more rfl
    exact hs.not_append_separator more ht

/-- Pieces are found again in a row, where each but the last stands before a separator. -/
theorem intercalate_inj {pieces others : List String} (space : String)
    (hpieces : ∀ piece ∈ pieces, KeepsDepth separator 0 piece)
    (hothers : ∀ piece ∈ others, KeepsDepth separator 0 piece) (hne : pieces ≠ [])
    (hne' : others ≠ []) :
    String.intercalate (String.singleton separator ++ space) pieces =
      String.intercalate (String.singleton separator ++ space) others ↔ pieces = others := by
  refine ⟨fun h => ?_, fun h => by rw [h]⟩
  have hlonger (piece : String) {rest : List String} (hrest : rest ≠ []) :
      String.intercalate (String.singleton separator ++ space) (piece :: rest) =
        piece ++ String.singleton separator ++
          (space ++ String.intercalate (String.singleton separator ++ space) rest) := by
    rw [String.intercalate_cons_of_ne_nil hrest]
    simp only [String.append_assoc]
  induction pieces generalizing others with
  | nil => exact absurd rfl hne
  | cons piece pieces ih =>
      cases others with
      | nil => exact absurd rfl hne'
      | cons other others =>
          have hpiece := hpieces piece (.head _)
          have hother := hothers other (.head _)
          by_cases hlast : pieces = []
          · subst hlast
            by_cases hlast' : others = []
            · subst hlast'
              simpa using h
            · rw [String.intercalate_singleton, hlonger other hlast'] at h
              exact absurd (h ▸ hpiece) (hother.not_append_separator _)
          · by_cases hlast' : others = []
            · subst hlast'
              rw [String.intercalate_singleton, hlonger piece hlast] at h
              exact absurd (h ▸ hother) (hpiece.not_append_separator _)
            · rw [hlonger piece hlast, hlonger other hlast', hpiece.append_cut_inj hother,
                String.append_right_inj] at h
              rw [h.1, ih (fun next hnext => hpieces next (.tail _ hnext))
                (fun next hnext => hothers next (.tail _ hnext)) hlast hlast' h.2]

end KeepsDepth

end ChangeNotification.Text
