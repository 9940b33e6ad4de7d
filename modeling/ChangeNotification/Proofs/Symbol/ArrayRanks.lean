import ChangeNotification.Proofs.Symbol.Readability
import Mathlib.Data.List.Induction

/-! # The ranks of nested arrays

C# reads the rank specifiers behind an element type from left to right, the leftmost one as that of
the outermost array. A spelling has them the other way round, as it goes through the elements. -/

namespace ChangeNotification.TypeSymbol

/-! ## Rank specifiers -/

/-- The type that C# reads as an array over an element type, with the ranks from the outermost
array inwards. -/
def arrayText (element : TypeSymbol) (ranks : List UInt32) : String :=
  element.spelling ++ String.join (ranks.map rankSpecifier)

variable {element symbol : TypeSymbol} {ranks : List UInt32}

@[simp] theorem arrayText_nil (element : TypeSymbol) : element.arrayText [] = element.spelling := by
  simp [arrayText]

theorem arrayText_concat (element : TypeSymbol) (ranks : List UInt32) (rank : UInt32) :
    element.arrayText (ranks ++ [rank]) = element.arrayText ranks ++ rankSpecifier rank := by
  simp [arrayText, String.append_assoc]

/-- A text that goes on with a rank specifier is longer. -/
theorem arrayText_concat_ne (element : TypeSymbol) (ranks : List UInt32) (rank : UInt32) :
    element.arrayText (ranks ++ [rank]) ≠ element.spelling := by
  intro h
  have hlength := congrArg String.length h
  simp [arrayText, rankSpecifier] at hlength

/-- Ranks are read back from a text, where no dimension counts as one. -/
theorem arrayText_inj (element : TypeSymbol) (ranks others : List UInt32) :
    element.arrayText ranks = element.arrayText others ↔
      ranks.map (max · 1) = others.map (max · 1) := by
  induction ranks using List.reverseRecOn generalizing others with
  | nil =>
      cases others using List.reverseRecOn with
      | nil => simp
      | append_singleton others rank =>
          have hne := element.arrayText_concat_ne others rank
          simp [hne.symm]
  | append_singleton ranks rank ih =>
      cases others using List.reverseRecOn with
      | nil =>
          have hne := element.arrayText_concat_ne ranks rank
          simp [hne]
      | append_singleton others other =>
          rw [arrayText_concat, arrayText_concat, append_rankSpecifier_inj, ih, List.map_append,
            List.map_append, List.map_singleton, List.map_singleton, List.append_singleton_inj]

/-! ## Nested arrays -/

/-- Arrays nested directly in each other, with the ranks from the outermost one inwards, around an
element. None of them is annotated. -/
inductive IsArrayOver (element : TypeSymbol) : List UInt32 → TypeSymbol → Prop where
  | element : IsArrayOver element [] element
  | array {ranks : List UInt32} {inner symbol : TypeSymbol} (hinner : IsArrayOver element ranks inner)
      (hkind : symbol.kind = .array) (helement : symbol.elementType = some inner)
      (hunmarked : symbol.nullability ≠ .annotated) :
      IsArrayOver element (symbol.arrayRank :: ranks) symbol

theorem IsArrayOver.arrayOf (h : IsArrayOver element ranks symbol) (rank : UInt32) :
    IsArrayOver element (max rank 1 :: ranks) (symbol.arrayOf rank) := by
  have hunmarked : (symbol.arrayOf rank).nullability ≠ .annotated := nofun
  exact .array h rfl rfl hunmarked

/-- The outermost array comes last in the text. -/
theorem IsArrayOver.spelling_eq (h : IsArrayOver element ranks symbol) :
    symbol.spelling = element.arrayText ranks.reverse := by
  induction h with
  | element => simp
  | @array ranks inner symbol _ hkind helement hunmarked ih =>
      have hmark : symbol.nullableMark = "" := by
        simp [nullableMark, isNullableReference, hunmarked]
      have hinner : symbol.element = inner := by
        rw [TypeSymbol.element, helement]
        rfl
      rw [spelling, hmark, String.append_empty, bareSpelling_of_array hkind, hinner, ih,
        List.reverse_cons, arrayText_concat]

/-- The ranks that are read in the spelling of nested arrays are theirs from the innermost array
outwards. The type itself is read exactly where the ranks are the same in both directions. -/
theorem IsArrayOver.spelling_eq_arrayText_iff (h : IsArrayOver element ranks symbol) :
    symbol.spelling = element.arrayText ranks.reverse ∧
    (∀ read, symbol.spelling = element.arrayText read ↔
      read.map (max · 1) = (ranks.map (max · 1)).reverse) ∧
    (symbol.spelling = element.arrayText ranks ↔
      (ranks.map (max · 1)).reverse = ranks.map (max · 1)) := by
  have hread (read : List UInt32) : symbol.spelling = element.arrayText read ↔
      read.map (max · 1) = (ranks.map (max · 1)).reverse := by
    rw [h.spelling_eq, eq_comm, arrayText_inj, List.map_reverse]
  exact ⟨h.spelling_eq, hread, (hread ranks).trans eq_comm⟩

/-! ## Arrays of grids -/

def sampleInteger : TypeSymbol where
  name := "Int32"
  kind := .structType
  namespaceSegments := ["System"]

/-- An array of arrays of two dimensions. -/
def sampleGrids : TypeSymbol :=
  arrayOf (arrayOf sampleInteger 2) 1

theorem isArrayOver_sampleGrids : IsArrayOver sampleInteger [1, 2] sampleGrids :=
  (IsArrayOver.element.arrayOf 2).arrayOf 1

theorem IsArrayOver.spelling_eq_arrayText_iff_sampleGrids :
    IsArrayOver sampleInteger [1, 2] sampleGrids ∧
    sampleGrids.spelling = sampleInteger.arrayText [2, 1] ∧
    (sampleGrids.spelling = sampleInteger.arrayText [1, 2] ↔ [(2 : UInt32), 1] = [1, 2]) := by
  have h := isArrayOver_sampleGrids
  exact ⟨h, h.spelling_eq_arrayText_iff.1, h.spelling_eq_arrayText_iff.2.2⟩

/-- The spelling is read as a grid of arrays. -/
theorem spelling_sampleGrids_ne : IsArrayOver sampleInteger [1, 2] sampleGrids ∧
    sampleInteger.kind ≠ .array ∧ sampleGrids.spelling = "global::System.Int32[,][]" ∧
    sampleInteger.arrayText [1, 2] = "global::System.Int32[][,]" := by
  exact ⟨isArrayOver_sampleGrids, by decide, by decide, by decide⟩

end ChangeNotification.TypeSymbol
