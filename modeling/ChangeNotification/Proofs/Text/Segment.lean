import ChangeNotification.Text.Segment
import Mathlib.Data.List.Basic

/-! # Texts cut at a separator

What is put behind a text gets into its last piece, as far as no further separator comes in. A lead
is found again in front of whatever follows it. -/

namespace ChangeNotification.Text

variable {separator : Char}

/-! ## Pieces -/

theorem pieces_eq_splitOn (separator : Char) (s : List Char) :
    pieces separator s = s.splitOn separator := by
  induction s with
  | nil => rw [pieces, List.splitOn_nil]
  | cons c s ih =>
      rw [pieces, List.splitOn, List.splitOnP_cons_eq_if_modifyHead, ih, List.splitOn]
      simp only [beq_iff_eq]
      split
      · rfl
      · cases hpieces : s.splitOnP (· == separator) with
        | nil => exact absurd hpieces (List.splitOnP_ne_nil _ _)
        | cons piece more => rfl

theorem pieces_append_cons (separator : Char) (s t : List Char) :
    pieces separator (s ++ separator :: t) = pieces separator s ++ pieces separator t := by
  simp only [pieces_eq_splitOn, List.splitOn]
  exact List.splitOnP_append_cons s t (beq_self_eq_true separator)

theorem pieces_of_not_mem {s : List Char} (h : separator ∉ s) : pieces separator s = [s] := by
  rw [pieces_eq_splitOn, List.splitOn_eq_singleton h]

theorem pieces_append_of_not_mem (s : List Char) {t : List Char} (h : separator ∉ t) :
    ∃ before last, pieces separator s = before ++ [last] ∧
      pieces separator (s ++ t) = before ++ [last ++ t] := by
  induction s with
  | nil => exact ⟨[], [], rfl, pieces_of_not_mem h⟩
  | cons c s ih =>
      obtain ⟨before, last, hs, hst⟩ := ih
      by_cases hc : c = separator
      · exact ⟨[] :: before, last, by simp [pieces, hc, hs], by simp [pieces, hc, hst]⟩
      · cases before with
        | nil => exact ⟨[], c :: last, by simp [pieces, hc, hs], by simp [pieces, hc, hst]⟩
        | cons piece before =>
            exact ⟨(c :: piece) :: before, last, by simp [pieces, hc, hs], by simp [pieces, hc, hst]⟩

/-! ## Texts -/

theorem split_of_not_mem {s : String} (h : separator ∉ s.toList) : split separator s = [s] := by
  rw [split, pieces_of_not_mem h, List.map_singleton, String.ofList_toList]

theorem split_append_singleton_append (separator : Char) (s t : String) :
    split separator (s ++ String.singleton separator ++ t) =
      split separator s ++ split separator t := by
  have hpieces := pieces_append_cons separator s.toList t.toList
  simp only [split, String.toList_append, String.toList_singleton, List.append_assoc,
    List.singleton_append, hpieces, List.map_append]

theorem split_append_of_not_mem (s : String) {t : String} (h : separator ∉ t.toList) :
    ∃ before last, split separator s = before ++ [last] ∧
      split separator (s ++ t) = before ++ [last ++ t] := by
  obtain ⟨before, last, hs, hst⟩ := pieces_append_of_not_mem s.toList h
  refine ⟨before.map String.ofList, String.ofList last, by simp [split, hs], ?_⟩
  simp [split, hst, String.ofList_append]

/-! ## Leads -/

theorem afterLead?_eq_some_iff {lead s rest : String} :
    afterLead? lead s = some rest ↔ s = lead ++ rest := by
  rw [afterLead?, Option.map_eq_some_iff]
  constructor
  · rintro ⟨chars, hchars, rfl⟩
    apply String.toList_injective
    simpa using (List.isPrefixOf?_eq_some_iff_append_eq.mp hchars).symm
  · rintro rfl
    exact ⟨rest.toList, List.isPrefixOf?_eq_some_iff_append_eq.mpr (by simp), String.ofList_toList⟩

/-- Of two texts neither of which begins with the other, the one does not lead what begins with the
other. -/
theorem afterLead?_append_eq_none {lead front : String}
    (h : ¬ (lead.toList <+: front.toList ∨ front.toList <+: lead.toList)) (rest : String) :
    afterLead? lead (front ++ rest) = none := by
  refine Option.eq_none_iff_forall_ne_some.mpr fun other hother => h ?_
  have htext := congrArg String.toList (afterLead?_eq_some_iff.mp hother)
  rw [String.toList_append, String.toList_append] at htext
  exact List.prefix_or_prefix_of_prefix ⟨_, htext.symm⟩ ⟨_, rfl⟩

end ChangeNotification.Text
