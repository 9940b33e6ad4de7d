import Mathlib.Data.List.Basic
import Mathlib.Data.List.Forall2

/-! # Joined texts

A separator that stands in no piece makes a join of pieces one that can be undone. -/

namespace ChangeNotification.Text

/-- Rows of texts are equal where what they stand for corresponds one by one. -/
theorem map_eq_map_iff_forall₂ {α β : Type} {f : α → β} {R : α → α → Prop} {list others : List α}
    (h : ∀ item ∈ list, ∀ other ∈ others, f item = f other ↔ R item other) :
    list.map f = others.map f ↔ List.Forall₂ R list others := by
  induction list generalizing others with
  | nil => simp [eq_comm]
  | cons item list ih =>
      cases others with
      | nil => simp
      | cons other others =>
          rw [List.map_cons, List.map_cons, List.cons.injEq, List.forall₂_cons,
            h item (.head _) other (.head _),
            ih fun next hnext last hlast => h next (.tail _ hnext) last (.tail _ hlast)]

theorem not_mem_intercalate {c : Char} {separator : String} (hseparator : c ∉ separator.toList)
    {pieces : List String} (h : ∀ piece ∈ pieces, c ∉ piece.toList) :
    c ∉ (String.intercalate separator pieces).toList := by
  induction pieces with
  | nil => simp
  | cons piece pieces ih =>
      have hpiece := h piece (by simp)
      have ih := ih fun other hother => h other (.tail _ hother)
      by_cases hlast : pieces = []
      · simpa [hlast] using hpiece
      · rw [String.intercalate_cons_of_ne_nil hlast]
        simp only [String.toList_append, List.mem_append, not_or]
        exact ⟨⟨hpiece, hseparator⟩, ih⟩

theorem intercalate_eq_empty_iff {pieces : List String} (h : ∀ piece ∈ pieces, piece ≠ "")
    (separator : String) : String.intercalate separator pieces = "" ↔ pieces = [] := by
  cases pieces with
  | nil => simp
  | cons piece pieces =>
      have hpiece := h piece (.head _)
      by_cases hlast : pieces = []
      · simp [hlast, hpiece]
      · simp [String.intercalate_cons_of_ne_nil hlast, hpiece]

theorem intercalate_inj {separator : Char} {pieces others : List String}
    (hpieces : ∀ piece ∈ pieces, separator ∉ piece.toList)
    (hothers : ∀ piece ∈ others, separator ∉ piece.toList) (hne : pieces ≠ [])
    (hne' : others ≠ []) :
    String.intercalate (String.singleton separator) pieces =
      String.intercalate (String.singleton separator) others ↔ pieces = others := by
  have hcut {list : List String} (h : ∀ piece ∈ list, separator ∉ piece.toList)
      (hlist : list ≠ []) :
      (String.intercalate (String.singleton separator) list).toList.splitOn separator =
        list.map String.toList := by
    rw [String.toList_intercalate, String.toList_singleton]
    exact List.splitOn_intercalate separator (by simpa using h) (by simpa using hlist)
  refine ⟨fun h => ?_, congrArg _⟩
  have hlists : pieces.map String.toList = others.map String.toList := by
    rw [← hcut hpieces hne, ← hcut hothers hne', h]
  exact List.map_injective_iff.mpr (fun _ _ => String.toList_injective) hlists

theorem join_map_append {pieces : List String} (hne : pieces ≠ []) (separator : String) :
    String.join (pieces.map (· ++ separator)) = String.intercalate separator pieces ++ separator := by
  induction pieces with
  | nil => exact absurd rfl hne
  | cons piece pieces ih =>
      rw [List.map_cons, String.join_cons]
      by_cases hlast : pieces = []
      · simp [hlast]
      · rw [ih hlast, String.intercalate_cons_of_ne_nil hlast, String.append_assoc]
        simp [String.append_assoc]

/-- Two cuts at a character are one, unless a start goes on beyond the other one's cut. -/
theorem cut_unique {c : Char} {s t rest other : String}
    (hs : ∀ more, s ≠ t ++ String.singleton c ++ more)
    (ht : ∀ more, t ≠ s ++ String.singleton c ++ more)
    (h : s ++ String.singleton c ++ rest = t ++ String.singleton c ++ other) :
    s = t ∧ rest = other := by
  have hlonger {start long : String} {more : List Char}
      (hmore : long.toList = start.toList ++ c :: more) :
      long = start ++ String.singleton c ++ String.ofList more :=
    String.toList_injective (by simpa using hmore)
  have hlists : s.toList ++ c :: rest.toList = t.toList ++ c :: other.toList := by
    simpa using congrArg String.toList h
  rcases List.append_eq_append_iff.mp hlists with ⟨more, hstart, hrest⟩ | ⟨more, hstart, hrest⟩
  · cases more with
    | nil =>
        rw [List.append_nil] at hstart
        rw [List.nil_append, List.cons.injEq] at hrest
        exact ⟨(String.toList_injective hstart).symm, String.toList_injective hrest.2⟩
    | cons d more =>
        obtain ⟨rfl, -⟩ := List.cons.inj hrest
        exact absurd (hlonger hstart) (ht _)
  · cases more with
    | nil =>
        rw [List.append_nil] at hstart
        rw [List.nil_append, List.cons.injEq] at hrest
        exact ⟨String.toList_injective hstart, (String.toList_injective hrest.2).symm⟩
    | cons d more =>
        obtain ⟨rfl, -⟩ := List.cons.inj hrest
        exact absurd (hlonger hstart) (hs _)

theorem mem_append_singleton_append (c : Char) (s rest : String) :
    c ∈ (s ++ String.singleton c ++ rest).toList := by
  simp

/-- What follows the first of a kind of character is found again. -/
theorem append_cut_inj {c : Char} {s t : String} (hs : c ∉ s.toList) (ht : c ∉ t.toList)
    (rest other : String) :
    s ++ String.singleton c ++ rest = t ++ String.singleton c ++ other ↔ s = t ∧ rest = other := by
  refine ⟨cut_unique ?_ ?_, fun ⟨hstart, hrest⟩ => by rw [hstart, hrest]⟩
  · rintro more rfl
    exact hs (mem_append_singleton_append c t more)
  · rintro more rfl
    exact ht (mem_append_singleton_append c s more)

/-- What precedes the last of a kind of character is found again. -/
theorem append_last_cut_inj {c : Char} {rest other : String} (hrest : c ∉ rest.toList)
    (hother : c ∉ other.toList) (s t : String) :
    s ++ String.singleton c ++ rest = t ++ String.singleton c ++ other ↔ s = t ∧ rest = other := by
  refine ⟨fun h => cut_unique ?_ ?_ h, fun ⟨hstart, hend⟩ => by rw [hstart, hend]⟩
  · rintro more rfl
    simp only [String.append_assoc, String.append_right_inj] at h
    rw [← h] at hother
    exact hother (by simp)
  · rintro more rfl
    simp only [String.append_assoc, String.append_right_inj] at h
    rw [h] at hrest
    exact hrest (by simp)

/-- Of two ends of one text, the one is the end of the other. -/
theorem suffix_or_suffix_of_append_eq {s t back other : String} (h : s ++ back = t ++ other) :
    back.toList <:+ other.toList ∨ other.toList <:+ back.toList := by
  refine List.suffix_or_suffix_of_suffix (List.suffix_append s.toList back.toList) ?_
  rw [← String.toList_append, h, String.toList_append]
  exact List.suffix_append t.toList other.toList

end ChangeNotification.Text
