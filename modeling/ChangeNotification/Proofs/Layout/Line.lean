import ChangeNotification.SourceBuffer.Basic

/-! # Lines of a generated text

A text that is written line by line is cut back into its lines at its line ending, as long as no
line holds a break of its own. -/

namespace ChangeNotification

/-! ## Cutting a text at a separator -/

namespace Text

/-- The pieces between the occurrences of a separator, with `piece` in front of the first one. -/
def cut (separator : List Char) (piece : List Char) : List Char → List (List Char)
  | [] => [piece]
  | c :: rest =>
      if separator.isSuffixOf (piece ++ [c]) then
        (piece ++ [c]).take ((piece ++ [c]).length - separator.length) :: cut separator [] rest
      else cut separator (piece ++ [c]) rest

/-- A separator does not occur before its last character does. -/
theorem cut_of_not_mem {front : List Char} {c : Char} {s : List Char} (hs : c ∉ s)
    (piece rest : List Char) :
    cut (front ++ [c]) piece (s ++ rest) = cut (front ++ [c]) (piece ++ s) rest := by
  induction s generalizing piece with
  | nil => simp
  | cons d s ih =>
      have hd : d ≠ c := by
        rintro rfl
        exact hs (by simp)
      have hend : ¬ (front ++ [c] <:+ piece ++ [d]) := by
        rintro ⟨before, h⟩
        rw [← List.append_assoc] at h
        exact hd (List.append_inj_right' h rfl |> List.singleton_inj.mp).symm
      rw [List.cons_append, cut]
      simp only [List.isSuffixOf_iff_suffix, hend, ite_false]
      rw [ih (fun h => hs (.tail _ h))]
      simp

/-- A piece that lacks the last character of the separator is cut off as a whole. -/
theorem cut_piece_append {front : List Char} {c : Char} {s : List Char} (hs : c ∉ s)
    (hfront : c ∉ front) (rest : List Char) :
    cut (front ++ [c]) [] (s ++ (front ++ [c]) ++ rest) = s :: cut (front ++ [c]) [] rest := by
  have hall : c ∉ s ++ front := by simp [hs, hfront]
  have hsplit : s ++ (front ++ [c]) ++ rest = (s ++ front) ++ c :: rest := by simp
  rw [hsplit, cut_of_not_mem hall, cut]
  have hend : front ++ [c] <:+ s ++ front ++ [c] := ⟨s, by simp⟩
  simp only [List.nil_append, List.isSuffixOf_iff_suffix, hend, ite_true]
  congr 1
  simp

end Text

namespace LineEnding

/-- Every line ending ends in a line feed. -/
theorem toList_text (ending : LineEnding) :
    ∃ front, ending.text.toList = front ++ ['\n'] ∧ '\n' ∉ front := by
  cases ending with
  | native => exact ⟨[], by decide, by decide⟩
  | lf => exact ⟨[], by decide, by decide⟩
  | crlf => exact ⟨['\r'], by decide, by decide⟩

/-- The lines of a text, cut at the ending. What follows the last ending counts as a line. -/
def split (ending : LineEnding) (text : String) : List String :=
  (Text.cut ending.text.toList [] text.toList).map String.ofList

end LineEnding

/-! ## Lines -/

/-- A line: a blank one, or code at a depth of nesting. -/
inductive Line where
  | blank
  | code (depth : Nat) (content : String)
  deriving DecidableEq, Repr

namespace Line

/-- The line as it stands in a text. A blank line has no indentation. -/
def text (width : Nat) : Line → String
  | blank => ""
  | code depth content => String.ofList (List.replicate (depth * width) ' ') ++ content

/-- The line further inside by a number of levels. -/
def deeper (levels : Nat) : Line → Line
  | blank => blank
  | code depth content => code (depth + levels) content

/-- The text of several lines, each of them ended. -/
def document (width : Nat) (ending : LineEnding) (lines : List Line) : String :=
  String.join (lines.map fun line => line.text width ++ ending.text)

variable {width : Nat} {ending : LineEnding}

@[simp] theorem document_nil : document width ending [] = "" := by
  simp [document]

theorem document_cons (line : Line) (lines : List Line) :
    document width ending (line :: lines) =
      line.text width ++ ending.text ++ document width ending lines := by
  simp [document]

@[simp] theorem document_append (lines more : List Line) :
    document width ending (lines ++ more) =
      document width ending lines ++ document width ending more := by
  induction lines with
  | nil => simp
  | cons line lines ih => simp [document_cons, ih, String.append_assoc]

/-- Lines without breaks are found again in their text. -/
theorem split_document (ending : LineEnding) {lines : List Line}
    (h : ∀ line ∈ lines, '\n' ∉ (line.text width).toList) :
    ending.split (document width ending lines) = lines.map (text width) ++ [""] := by
  obtain ⟨front, hending, hfront⟩ := ending.toList_text
  induction lines with
  | nil => simp [LineEnding.split, Text.cut]
  | cons line lines ih =>
      have ih := ih (fun l hl => h l (.tail _ hl))
      rw [LineEnding.split, hending] at ih ⊢
      rw [document_cons, String.toList_append, String.toList_append, hending,
        Text.cut_piece_append (h line (by simp)) hfront, List.map_cons, ih]
      simp

@[simp] theorem lineFeed_mem_text_blank : '\n' ∈ (blank.text width).toList ↔ False := by
  simp [text]

/-- An indented line breaks only where its content does. -/
@[simp] theorem lineFeed_mem_text_code {depth : Nat} {content : String} :
    '\n' ∈ ((code depth content).text width).toList ↔ '\n' ∈ content.toList := by
  simp [text, List.mem_replicate]

end Line

end ChangeNotification
