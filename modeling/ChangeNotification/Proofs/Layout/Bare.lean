import ChangeNotification.Proofs.Layout.Nesting
import Mathlib.Data.List.Basic

/-! # Lines apart from their layout

The same lines can be indented by another width and ended in another way. What is left of a text
without its endings and its indentation does not depend on either, and a text with the one ending is
made of the text with the other. -/

namespace ChangeNotification

open Layout

/-! ## Lines without indentation -/

namespace Line

/-- What a line says, leading spaces aside. -/
def bare : Line → String
  | blank => ""
  | code _ content => unindented content

variable {width : Nat} {ending : LineEnding} {lines : List Line}

theorem unindented_line (line : Line) (width : Nat) : unindented (line.text width) = line.bare := by
  cases line with
  | blank => rfl
  | code depth content =>
      have hspaces : ∀ c ∈ List.replicate (depth * width) ' ', decide (c = ' ') = true := by
        simp [List.mem_replicate]
      rw [bare, unindented, unindented, text, String.toList_append, String.toList_ofList,
        List.dropWhile_append_of_pos hspaces]

/-- Code that begins where its line begins is left as it is. -/
theorem bare_code {content : String} (h : content.toList.head? ≠ some ' ') (depth : Nat) :
    (code depth content).bare = content := by
  rw [← unindented_line _ 0, unindented_text h]

theorem map_unindented_split (h : ∀ line ∈ lines, '\n' ∉ (line.text width).toList) :
    (ending.split (document width ending lines)).map unindented = lines.map bare ++ [""] := by
  have hempty : unindented "" = "" := rfl
  rw [split_document ending h, List.map_append, List.map_map, List.map_singleton, hempty]
  refine congrArg (· ++ [""]) (List.map_congr_left fun line _ => ?_)
  exact line.unindented_line width

end Line

/-! ## Pairs of breaks -/

namespace Text

/-- The text with a carriage return before each of its line feeds. -/
def withReturns (text : String) : String :=
  String.ofList (text.toList.flatMap fun c => if c = '\n' then ['\r', '\n'] else [c])

/-- Carriage returns and line feeds stand in pairs alone. -/
structure HasPairedBreaks (chars : List Char) : Prop where
  begins : chars.head? ≠ some '\n'
  paired : ∀ i : Nat, chars[i]? = some '\r' ↔ chars[i + 1]? = some '\n'

theorem withReturns_append (s t : String) :
    withReturns (s ++ t) = withReturns s ++ withReturns t := by
  simp [withReturns, String.ofList_append]

theorem withReturns_of_not_mem {s : String} (h : '\n' ∉ s.toList) : withReturns s = s := by
  have hchars : (s.toList.flatMap fun c => if c = '\n' then ['\r', '\n'] else [c]) =
      s.toList.flatMap fun c => [c] := by
    refine List.flatMap_congr fun c hc => if_neg ?_
    rintro rfl
    exact h hc
  rw [withReturns, hchars, List.flatMap_singleton', String.ofList_toList]

/-- Where no carriage return was, none stands alone. -/
theorem hasPairedBreaks_flatMap {chars : List Char} (h : '\r' ∉ chars) :
    HasPairedBreaks (chars.flatMap fun c => if c = '\n' then ['\r', '\n'] else [c]) := by
  induction chars with
  | nil => exact ⟨by simp, by simp⟩
  | cons c chars ih =>
      rw [List.mem_cons, not_or] at h
      obtain ⟨hbegins, hpaired⟩ := ih h.2
      rw [List.head?_eq_getElem?] at hbegins
      rw [List.flatMap_cons]
      split
      · refine ⟨by simp, fun i => ?_⟩
        match i with
        | 0 => simp
        | 1 => simpa using hbegins
        | i + 2 => exact hpaired i
      · rename_i hc
        refine ⟨by simpa using hc, fun i => ?_⟩
        match i with
        | 0 => simpa [Ne.symm h.1] using hbegins
        | i + 1 => exact hpaired i

theorem hasPairedBreaks_withReturns {text : String} (h : '\r' ∉ text.toList) :
    HasPairedBreaks (withReturns text).toList := by
  rw [withReturns, String.toList_ofList]
  exact hasPairedBreaks_flatMap h

end Text

theorem LineEnding.text_of_ne_crlf {ending : LineEnding} (h : ending ≠ .crlf) :
    ending.text = "\n" := by
  cases ending with
  | native | lf => rfl
  | crlf => exact absurd rfl h

namespace Line

variable {width : Nat} {ending : LineEnding} {lines : List Line}

/-- A text that ends its lines with both characters is one that ends them with line feeds, with
carriage returns before these. -/
theorem document_crlf (hending : ending ≠ .crlf)
    (h : ∀ line ∈ lines, '\n' ∉ (line.text width).toList) :
    document width .crlf lines = Text.withReturns (document width ending lines) := by
  induction lines with
  | nil => rfl
  | cons line lines ih =>
      have hbreak : Text.withReturns ending.text = LineEnding.crlf.text := by
        rw [LineEnding.text_of_ne_crlf hending]
        decide
      rw [document_cons, document_cons, Text.withReturns_append, Text.withReturns_append, hbreak,
        Text.withReturns_of_not_mem (h line (.head _)), ih fun other hother => h other (.tail _ hother)]

theorem return_not_mem_document (hending : ending ≠ .crlf)
    (h : ∀ line ∈ lines, '\r' ∉ (line.text width).toList) :
    '\r' ∉ (document width ending lines).toList := by
  have hbreak : '\r' ∉ ending.text.toList := by
    rw [LineEnding.text_of_ne_crlf hending]
    decide
  induction lines with
  | nil => simp
  | cons line lines ih =>
      have ih := ih fun other hother => h other (.tail _ hother)
      simp [document_cons, h line (.head _), hbreak, ih]

end Line

end ChangeNotification
