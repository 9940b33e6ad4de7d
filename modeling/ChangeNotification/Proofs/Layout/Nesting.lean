import ChangeNotification.Proofs.Layout.Line

/-! # Nested blocks in a text

A scan over the lines of a text keeps the heads of the blocks that are open. It fails at a closing
brace without a block, and at a line that is not indented for the blocks around it. -/

namespace ChangeNotification.Layout

/-! ## Scanning lines -/

/-- The code on a line, leading spaces aside. -/
def unindented (line : String) : String :=
  String.ofList (line.toList.dropWhile (· = ' '))

/-- The number of leading spaces. -/
def indentation (line : String) : Nat :=
  (line.toList.takeWhile (· = ' ')).length

/-- A place between two lines: the code on the line before, and the heads of the blocks that are
open, innermost first. The number of heads is the depth. -/
structure Scan where
  previous : String
  heads : List String
  deriving DecidableEq, Repr

namespace Scan

/-- Before the first line. -/
def start : Scan := ⟨"", []⟩

/-- A closing brace ends a block before its line and an opening brace begins one after it; what is
not blank is indented by the depth in between. -/
def step (width : Nat) (scan : Scan) (line : String) : Option Scan :=
  let code := unindented line
  (if code = "\x7d" then scan.heads.tail? else some scan.heads).bind fun heads =>
    if line = "" ∨ indentation line = heads.length * width then
      some ⟨code, if code = "\x7b" then scan.previous :: heads else heads⟩
    else none

def run (width : Nat) (scan : Scan) (lines : List String) : Option Scan :=
  lines.foldlM (step width) scan

variable {width : Nat}

@[simp] theorem run_nil (scan : Scan) : scan.run width [] = some scan := rfl

@[simp] theorem run_cons (scan : Scan) (line : String) (lines : List String) :
    scan.run width (line :: lines) = (scan.step width line).bind (·.run width lines) := rfl

theorem run_append (scan : Scan) (lines more : List String) :
    scan.run width (lines ++ more) = (scan.run width lines).bind (·.run width more) :=
  List.foldlM_append

end Scan

/-! ## Single lines -/

/-- Code that begins where its line begins and is no brace. -/
structure IsPlain (content : String) : Prop where
  unbroken : '\n' ∉ content.toList
  begins : content.toList.head? ≠ some ' '
  not_empty : content ≠ ""
  not_opening : content ≠ "\x7b"
  not_closing : content ≠ "\x7d"

/-- Two characters are more than a brace. -/
theorem isPlain_of_length {content : String} (unbroken : '\n' ∉ content.toList)
    (begins : content.toList.head? ≠ some ' ') (long : 2 ≤ content.toList.length) :
    IsPlain content := by
  refine ⟨unbroken, begins, ?_, ?_, ?_⟩ <;>
  · rintro rfl
    revert long
    decide

/-- Literals are checked by their characters, as texts themselves are slow to evaluate. -/
theorem unbroken_literal {chars : List Char} (h : '\n' ∉ chars) :
    '\n' ∉ (String.ofList chars).toList := by
  simpa using h

theorem isPlain_literal {chars : List Char}
    (h : '\n' ∉ chars ∧ chars.head? ≠ some ' ' ∧ 2 ≤ chars.length) :
    IsPlain (String.ofList chars) :=
  isPlain_of_length (by simpa using h.1) (by simpa using h.2.1) (by simpa using h.2.2)

/-- Plain code stays plain where the line goes on. -/
theorem IsPlain.append {lead rest : String} (h : IsPlain lead) (hrest : '\n' ∉ rest.toList) :
    IsPlain (lead ++ rest) := by
  cases hlead : lead.toList with
  | nil => exact absurd (String.toList_injective hlead) h.not_empty
  | cons c more =>
      have hbegins : (lead ++ rest).toList.head? ≠ some ' ' := by
        simpa [hlead] using h.begins
      cases htotal : more ++ rest.toList with
      | nil =>
          obtain ⟨rfl, hnone⟩ := List.append_eq_nil_iff.mp htotal
          rwa [String.toList_eq_nil_iff.mp hnone, String.append_empty]
      | cons d others =>
          refine isPlain_of_length (by simp [h.unbroken, hrest]) hbegins ?_
          simp [hlead, htotal, Nat.add_assoc]

theorem IsPlain.append_literal {lead : String} (h : IsPlain lead) {chars : List Char}
    (hchars : '\n' ∉ chars) : IsPlain (lead ++ String.ofList chars) :=
  h.append (unbroken_literal hchars)

/-- A text that may be empty is plain code where a literal follows. -/
theorem isPlain_append_literal {lead : String} (hlead : '\n' ∉ lead.toList)
    (hbegins : lead.toList.head? ≠ some ' ') {chars : List Char}
    (h : '\n' ∉ chars ∧ chars.head? ≠ some ' ' ∧ 2 ≤ chars.length) :
    IsPlain (lead ++ String.ofList chars) := by
  obtain ⟨hbreak, hspace, hlong⟩ := h
  refine isPlain_of_length (by simp [hlead, hbreak]) ?_ (by simp; omega)
  cases hfirst : lead.toList with
  | nil => simpa [hfirst] using hspace
  | cons c more => simpa [hfirst] using hbegins

variable {width : Nat}

/-- Where a text is not led by a space, the spaces in front of it are told apart from it. -/
theorem takeWhile_dropWhile_spaces {chars : List Char} (count : Nat) (h : chars.head? ≠ some ' ') :
    (List.replicate count ' ' ++ chars).takeWhile (· = ' ') = List.replicate count ' ' ∧
      (List.replicate count ' ' ++ chars).dropWhile (· = ' ') = chars := by
  have hspaces : ∀ c ∈ List.replicate count ' ', decide (c = ' ') = true := by
    simp [List.mem_replicate]
  rw [List.takeWhile_append_of_pos hspaces, List.dropWhile_append_of_pos hspaces]
  cases chars with
  | nil => simp
  | cons c rest =>
      have hne : c ≠ ' ' := by simpa using h
      rw [List.takeWhile_cons_of_neg (by simpa using hne),
        List.dropWhile_cons_of_neg (by simpa using hne), List.append_nil]
      exact ⟨rfl, rfl⟩

theorem unindented_text {depth : Nat} {content : String} (h : content.toList.head? ≠ some ' ') :
    unindented ((Line.code depth content).text width) = content := by
  rw [unindented, Line.text, String.toList_append, String.toList_ofList,
    (takeWhile_dropWhile_spaces _ h).2, String.ofList_toList]

theorem indentation_text {depth : Nat} {content : String} (h : content.toList.head? ≠ some ' ') :
    indentation ((Line.code depth content).text width) = depth * width := by
  rw [indentation, Line.text, String.toList_append, String.toList_ofList,
    (takeWhile_dropWhile_spaces _ h).1, List.length_replicate]

namespace Scan

theorem step_blank (width : Nat) (scan : Scan) :
    scan.step width (Line.blank.text width) = some ⟨"", scan.heads⟩ := by
  simp [step, Line.text, unindented]

theorem step_code {content : String} (h : IsPlain content) (previous : String)
    (heads : List String) :
    step width ⟨previous, heads⟩ ((Line.code heads.length content).text width) =
      some ⟨content, heads⟩ := by
  simp [step, unindented_text h.begins, indentation_text h.begins, h.not_opening, h.not_closing]

theorem step_opening (previous : String) (heads : List String) :
    step width ⟨previous, heads⟩ ((Line.code heads.length "\x7b").text width) =
      some ⟨"\x7b", previous :: heads⟩ := by
  have hbegins : "\x7b".toList.head? ≠ some ' ' := by decide
  simp [step, unindented_text hbegins, indentation_text hbegins]

theorem step_closing (previous head : String) (heads : List String) :
    step width ⟨previous, head :: heads⟩ ((Line.code heads.length "\x7d").text width) =
      some ⟨"\x7d", heads⟩ := by
  have hbegins : "\x7d".toList.head? ≠ some ' ' := by decide
  simp [step, unindented_text hbegins, indentation_text hbegins]

end Scan

/-! ## Lines within blocks -/

/-- Lines that, scanned where blocks are open, end inside the same blocks and close none of them
on the way. -/
structure Within (width : Nat) (heads : List String) (lines : List String) : Prop where
  returns : ∀ previous, ∃ last, Scan.run width ⟨previous, heads⟩ lines = some ⟨last, heads⟩
  stays : ∀ previous p, p <+: lines →
    ∃ scan, Scan.run width ⟨previous, heads⟩ p = some scan ∧ heads <:+ scan.heads

namespace Within

theorem nil (heads : List String) : Within width heads [] where
  returns previous := ⟨previous, rfl⟩
  stays previous p hp := by
    rw [List.prefix_nil.mp hp]
    exact ⟨_, rfl, List.suffix_rfl⟩

theorem cons {heads lines : List String} {line : String}
    (hline : ∀ previous, ∃ last, Scan.step width ⟨previous, heads⟩ line = some ⟨last, heads⟩)
    (h : Within width heads lines) : Within width heads (line :: lines) where
  returns previous := by
    obtain ⟨last, hlast⟩ := hline previous
    simpa [hlast] using h.returns last
  stays previous p hp := by
    rcases List.prefix_cons_iff.mp hp with rfl | ⟨q, rfl, hq⟩
    · exact ⟨_, rfl, List.suffix_rfl⟩
    · obtain ⟨last, hlast⟩ := hline previous
      simpa [hlast] using h.stays last q hq

theorem append {heads lines more : List String} (h : Within width heads lines)
    (hmore : Within width heads more) : Within width heads (lines ++ more) where
  returns previous := by
    obtain ⟨last, hlast⟩ := h.returns previous
    simpa [Scan.run_append, hlast] using hmore.returns last
  stays previous p hp := by
    rcases List.prefix_or_prefix_of_prefix hp (List.prefix_append lines more) with hp' | hp'
    · exact h.stays previous p hp'
    · obtain ⟨q, rfl⟩ := hp'
      obtain ⟨last, hlast⟩ := h.returns previous
      simpa [Scan.run_append, hlast] using
        hmore.stays last q ((List.prefix_append_right_inj lines).mp hp)

/-- Lines between braces, scanned below their head, stay within the blocks around the head. -/
theorem block {heads lines : List String} {head : String} (hhead : IsPlain head)
    (h : Within width (head :: heads) lines) :
    Within width heads ((Line.code heads.length head).text width ::
      (Line.code heads.length "\x7b").text width ::
        (lines ++ [(Line.code heads.length "\x7d").text width])) where
  returns previous := by
    obtain ⟨last, hlast⟩ := h.returns "\x7b"
    refine ⟨"\x7d", ?_⟩
    rw [Scan.run_cons, Scan.step_code hhead, Option.bind_some, Scan.run_cons, Scan.step_opening,
      Option.bind_some, Scan.run_append, hlast, Option.bind_some, Scan.run_cons,
      Scan.step_closing]
    rfl
  stays previous p hp := by
    rcases List.prefix_cons_iff.mp hp with rfl | ⟨q, rfl, hq⟩
    · exact ⟨_, rfl, List.suffix_rfl⟩
    rw [Scan.run_cons, Scan.step_code hhead, Option.bind_some]
    rcases List.prefix_cons_iff.mp hq with rfl | ⟨r, rfl, hr⟩
    · exact ⟨_, rfl, List.suffix_rfl⟩
    rw [Scan.run_cons, Scan.step_opening, Option.bind_some]
    -- Either the closing brace is not reached, or nothing is left after it.
    rcases List.prefix_concat_iff.mp hr with rfl | hr
    · obtain ⟨last, hlast⟩ := h.returns "\x7b"
      refine ⟨⟨"\x7d", heads⟩, ?_, List.suffix_rfl⟩
      rw [Scan.run_append, hlast, Option.bind_some, Scan.run_cons, Scan.step_closing]
      rfl
    · obtain ⟨scan, hrun, hheads⟩ := h.stays "\x7b" r hr
      exact ⟨scan, hrun, (List.suffix_cons head heads).trans hheads⟩

end Within

/-! ## Properly nested lines -/

/-- Lines at a depth in which every block is closed. -/
inductive Nested : Nat → List Line → Prop where
  | nil (depth : Nat) : Nested depth []
  | blank {depth : Nat} {rest : List Line} (hrest : Nested depth rest) :
      Nested depth (.blank :: rest)
  | code {depth : Nat} {content : String} {rest : List Line} (hcontent : IsPlain content)
      (hrest : Nested depth rest) : Nested depth (.code depth content :: rest)
  | block {depth : Nat} {head : String} {body rest : List Line} (hhead : IsPlain head)
      (hbody : Nested (depth + 1) body) (hrest : Nested depth rest) :
      Nested depth (.code depth head :: .code depth "\x7b" :: (body ++ .code depth "\x7d" :: rest))

namespace Nested

theorem within {depth : Nat} {lines : List Line} (h : Nested depth lines) (width : Nat)
    (heads : List String) (hdepth : heads.length = depth) :
    Within width heads (lines.map (Line.text width)) := by
  induction h generalizing heads with
  | nil => exact .nil heads
  | blank _ ih => exact .cons (fun _ => ⟨"", Scan.step_blank width _⟩) (ih heads hdepth)
  | @code depth content rest hcontent _ ih =>
      subst hdepth
      exact .cons (fun previous => ⟨content, Scan.step_code hcontent previous heads⟩) (ih heads rfl)
  | @block depth head body rest hhead _ _ ihbody ihrest =>
      subst hdepth
      have hblock := Within.block hhead (ihbody (head :: heads) rfl)
      simpa using hblock.append (ihrest heads rfl)

theorem append {depth : Nat} {lines more : List Line} (h : Nested depth lines)
    (hmore : Nested depth more) : Nested depth (lines ++ more) := by
  induction h with
  | nil => exact hmore
  | blank _ ih => exact .blank (ih hmore)
  | code hcontent _ ih => exact .code hcontent (ih hmore)
  | block hhead hbody _ _ ihrest => simpa using Nested.block hhead hbody (ihrest hmore)

theorem deeper {depth : Nat} {lines : List Line} (h : Nested depth lines) (levels : Nat) :
    Nested (depth + levels) (lines.map (Line.deeper levels)) := by
  induction h with
  | nil => exact .nil _
  | blank _ ih => exact .blank ih
  | code hcontent _ ih => exact .code hcontent ih
  | @block depth head body rest hhead _ _ ihbody ihrest =>
      rw [Nat.add_right_comm] at ihbody
      simpa [Line.deeper] using Nested.block hhead ihbody ihrest

/-- No line of theirs breaks. -/
theorem unbroken {depth : Nat} {lines : List Line} (h : Nested depth lines) (width : Nat) :
    ∀ line ∈ lines, '\n' ∉ (line.text width).toList := by
  induction h with
  | nil => simp
  | blank _ ih => simpa using ih
  | code hcontent _ ih => simpa using ⟨hcontent.unbroken, ih⟩
  | block hhead _ _ ihbody ihrest =>
      intro line hline
      simp only [List.mem_cons, List.mem_append] at hline
      rcases hline with rfl | rfl | hline | rfl | hline
      · simpa using hhead.unbroken
      · simp
      · exact ihbody line hline
      · simp
      · exact ihrest line hline

end Nested

end ChangeNotification.Layout
