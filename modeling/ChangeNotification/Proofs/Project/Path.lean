import ChangeNotification.Project.Path
import ChangeNotification.Proofs.Text.Segment
import Mathlib.Data.List.Basic

/-! # Joined paths

A name without slashes becomes the last component of a path that it is joined to, and whatever is
joined, its end stays the end of the whole. -/

namespace ChangeNotification.Path

/-- The components of `base` that come before a name that is joined to it. -/
def lead (base : String) : List String :=
  if base.isEmpty then []
  else if base.toList.getLast? = some '/' then (components base).dropLast
  else components base

variable {base path name suffix : String}

/-! ## Names -/

theorem isAbsolute_of_no_slash (h : '/' ∉ name.toList) : isAbsolute name = false := by
  rw [isAbsolute, Text.afterLead?, Option.isSome_map, ← Bool.not_eq_true,
    Option.isSome_iff_exists]
  rintro ⟨rest, hrest⟩
  have hname : '/' :: rest = name.toList := List.isPrefixOf?_eq_some_iff_append_eq.mp hrest
  rw [← hname] at h
  exact h (.head _)

/-- A slash at the end leaves an empty component. -/
theorem exists_of_getLast? (h : base.toList.getLast? = some '/') :
    ∃ front, base = front ++ String.singleton '/' ∧
      components base = components front ++ [""] := by
  obtain ⟨front, hfront⟩ := List.getLast?_eq_some_iff.mp h
  have hbase : base = String.ofList front ++ String.singleton '/' := by
    apply String.toList_injective
    simp [hfront]
  have hempty : Text.split '/' "" = [""] := by decide
  have hcomponents := Text.split_append_singleton_append '/' (String.ofList front) ""
  rw [String.append_empty, ← hbase, hempty] at hcomponents
  exact ⟨_, hbase, hcomponents⟩

theorem components_of_getLast? (h : base.toList.getLast? = some '/') :
    components base = (components base).dropLast ++ [""] := by
  obtain ⟨front, -, hcomponents⟩ := exists_of_getLast? h
  rw [hcomponents, List.dropLast_concat]

/-- What is joined to a path comes behind the components of the path. -/
theorem components_join_of_relative (h : isAbsolute path = false) (base : String) :
    components (join base path) = lead base ++ components path := by
  have hslash : "/" = String.singleton '/' := by decide
  rw [join, h, if_neg (by decide), lead]
  split
  · rfl
  · split
    · rename_i hlast
      obtain ⟨front, hbase, hcomponents⟩ := exists_of_getLast? hlast
      rw [hcomponents, List.dropLast_concat, components, hbase,
        Text.split_append_singleton_append]
      rfl
    · rw [components, hslash, Text.split_append_singleton_append]
      rfl

theorem components_join (h : '/' ∉ name.toList) :
    components (join base name) = lead base ++ [name] := by
  rw [components_join_of_relative (isAbsolute_of_no_slash h), components,
    Text.split_of_not_mem h]

/-! ## Ends -/

/-- What stands in front of a path that is joined to another one does not depend on it. -/
theorem exists_front (base : String) :
    ∃ front, ∀ path, isAbsolute path = false → join base path = front ++ path := by
  unfold join
  by_cases hempty : base.isEmpty
  · exact ⟨"", fun path hpath => by simp [hpath, hempty]⟩
  · by_cases hlast : base.toList.getLast? = some '/'
    · exact ⟨base, fun path hpath => by simp [hpath, hempty, hlast]⟩
    · exact ⟨base ++ "/", fun path hpath => by simp [hpath, hempty, hlast]⟩

theorem join_of_getLast? {c : Char} (hlast : base.toList.getLast? = some c) (hc : c ≠ '/')
    (hpath : isAbsolute path = false) : join base path = base ++ "/" ++ path := by
  have hempty : base.isEmpty = false := by
    rw [← Bool.not_eq_true, String.isEmpty_iff]
    rintro rfl
    cases hlast
  simp [join, hpath, hempty, hlast, hc]

theorem exists_join_eq_append (base path : String) : ∃ front, join base path = front ++ path := by
  unfold join
  split
  · exact ⟨"", String.empty_append.symm⟩
  · split
    · exact ⟨"", String.empty_append.symm⟩
    · split
      · exact ⟨base, rfl⟩
      · exact ⟨base ++ "/", rfl⟩

theorem exists_components_join (h : '/' ∉ suffix.toList) (base path : String) :
    ∃ before front, components (join base (path ++ suffix)) = before ++ [front ++ suffix] := by
  obtain ⟨outer, houter⟩ := exists_join_eq_append base (path ++ suffix)
  obtain ⟨before, last, -, hcomponents⟩ := Text.split_append_of_not_mem (outer ++ path) h
  refine ⟨before, last, ?_⟩
  rw [houter, ← String.append_assoc, components, hcomponents]

end ChangeNotification.Path
