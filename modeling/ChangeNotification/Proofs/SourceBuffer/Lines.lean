import ChangeNotification.Proofs.SourceBuffer.Writing
import ChangeNotification.Proofs.Text.Control

/-! # The lines of a run of edits

Edits that write whole lines write the same lines into every buffer that has the same depth. How
they look there is left to the buffer. -/

namespace ChangeNotification.SourceBuffer

open Layout

/-! ## Single edits -/

namespace Edit

/-- Edits that write nothing but whole lines. -/
def isWhole : Edit → Bool
  | addLine _ | blankLine | separate | openBlock _ | openBrace | closeBlock | indent | dedent => true
  | add _ | addIndent | endLine _ | clear => false

/-- The lines of an edit at a depth, at the beginning of a block or behind it. -/
def lines (depth : Nat) (atStart : Bool) : Edit → List Line
  | addLine s => [.code depth s]
  | blankLine => [.blank]
  | separate => if atStart then [] else [.blank]
  | openBlock head => [.code depth head, .code depth "\x7b"]
  | openBrace => [.code depth "\x7b"]
  | closeBlock => [.code (depth - 1) "\x7d"]
  | indent | dedent | add _ | addIndent | endLine _ | clear => []

/-- The depth after an edit. -/
def depthAfter (depth : Nat) : Edit → Nat
  | openBlock _ | openBrace | indent => depth + 1
  | closeBlock | dedent => depth - 1
  | _ => depth

/-- Whether nothing stands behind the last opening brace after an edit. -/
def startsAfter (atStart : Bool) : Edit → Bool
  | openBlock _ | openBrace => true
  | separate | indent | dedent => atStart
  | _ => false

end Edit

/-- The buffer after an edit, as far as the lines to come depend on it. -/
structure Took (buffer after : SourceBuffer) (edit : Edit) : Prop where
  text : after.text = buffer.text ++ Line.document buffer.indentWidth buffer.lineEnding
    (edit.lines buffer.depth buffer.atBlockStart)
  indentWidth : after.indentWidth = buffer.indentWidth
  lineEnding : after.lineEnding = buffer.lineEnding
  depth : after.depth = edit.depthAfter buffer.depth
  atBlockStart : after.atBlockStart = edit.startsAfter buffer.atBlockStart

theorem took_apply (buffer : SourceBuffer) {edit : Edit} (h : edit.isWhole = true) :
    Took buffer (buffer.apply edit) edit := by
  have hline (b : SourceBuffer) (s : String) : b.addLine s = b.writeLines [.code b.depth s] :=
    apply_addLine s
  cases edit with
  | addLine s =>
      rw [apply_addLine]
      exact ⟨rfl, rfl, rfl, rfl, by simp [writeLines, Edit.startsAfter]⟩
  | blankLine =>
      rw [apply_blankLine]
      exact ⟨rfl, rfl, rfl, rfl, by simp [writeLines, Edit.startsAfter]⟩
  | separate =>
      rw [apply_separate]
      refine ⟨rfl, rfl, rfl, rfl, ?_⟩
      cases hstart : buffer.atBlockStart <;> simp [writeLines, Edit.startsAfter, hstart]
  | openBlock head =>
      rw [apply_openBlock]
      exact ⟨rfl, rfl, rfl, rfl, rfl⟩
  | openBrace =>
      refine ⟨?_, rfl, rfl, rfl, rfl⟩
      simp [apply, openBrace, hline, indent, writeLines, Edit.lines]
  | closeBlock =>
      rw [apply_closeBlock]
      exact ⟨rfl, rfl, rfl, rfl, by simp [writeLines, Edit.startsAfter]⟩
  | indent | dedent => exact ⟨(String.append_empty).symm, rfl, rfl, rfl, rfl⟩
  | add | addIndent | endLine | clear => cases h

/-! ## Runs of edits -/

/-- The lines of edits, one after the other. -/
def linesOf (depth : Nat) (atStart : Bool) : List Edit → List Line
  | [] => []
  | edit :: edits =>
      edit.lines depth atStart ++ linesOf (edit.depthAfter depth) (edit.startsAfter atStart) edits

/-- A run of edits adds their lines. -/
theorem text_applyAll {edits : List Edit} (h : ∀ edit ∈ edits, edit.isWhole = true)
    (buffer : SourceBuffer) :
    (buffer.applyAll edits).text =
      buffer.text ++ Line.document buffer.indentWidth buffer.lineEnding
        (linesOf buffer.depth buffer.atBlockStart edits) := by
  induction edits generalizing buffer with
  | nil => simp [linesOf]
  | cons edit edits ih =>
      obtain ⟨htext, hwidth, hending, hdepth, hstart⟩ := took_apply buffer (h edit (.head _))
      rw [applyAll_cons, ih (fun other hother => h other (.tail _ hother)), htext, hwidth, hending,
        hdepth, hstart, linesOf, Line.document_append, String.append_assoc]

theorem linesOf_openBlocks (depth : Nat) (atStart : Bool) {heads : List String} (hne : heads ≠ [])
    (edits : List Edit) :
    linesOf depth atStart (heads.map .openBlock ++ edits) =
      openings depth heads ++ linesOf (depth + heads.length) true edits := by
  induction heads generalizing depth atStart with
  | nil => exact absurd rfl hne
  | cons head heads ih =>
      by_cases hlast : heads = []
      · subst hlast
        rfl
      · have ih := ih (depth + 1) true hlast
        rw [Nat.add_right_comm] at ih
        exact congrArg ([Line.code depth head, .code depth "\x7b"] ++ ·) ih

/-! ## Characters -/

open Text (IsControl Lacks)

/-- An edit that writes nothing but whole lines without a character. -/
def Edit.Lacks (c : Char) : Edit → Prop
  | addLine s | openBlock s => Text.Lacks c s
  | blankLine | separate | openBrace | closeBlock | indent | dedent => True
  | add _ | addIndent | endLine _ | clear => False

variable {c : Char} {edit : Edit} {edits : List Edit}

theorem Edit.Lacks.isWhole (h : edit.Lacks c) : edit.isWhole = true := by
  cases edit with
  | addLine | blankLine | separate | openBlock | openBrace | closeBlock | indent | dedent => rfl
  | add | addIndent | endLine | clear => exact h.elim

theorem lacks_text_code (hc : IsControl c) {content : String} (h : Text.Lacks c content)
    (depth width : Nat) : Text.Lacks c ((Line.code depth content).text width) := by
  refine .append ?_ h
  rw [Text.Lacks, String.toList_ofList, List.mem_replicate]
  exact fun hspace => hc.ne (Nat.le_refl _) hspace.2

theorem Edit.Lacks.lines (hc : IsControl c) (h : edit.Lacks c) (depth : Nat) (atStart : Bool)
    (width : Nat) : ∀ line ∈ edit.lines depth atStart, Text.Lacks c (line.text width) := by
  have hblank : Text.Lacks c (Line.blank.text width) := by
    simp [Text.Lacks, Line.text]
  have hopening (depth : Nat) : Text.Lacks c ((Line.code depth "\x7b").text width) :=
    lacks_text_code hc (hc.lacks_literal (by decide)) depth width
  have hclosing (depth : Nat) : Text.Lacks c ((Line.code depth "\x7d").text width) :=
    lacks_text_code hc (hc.lacks_literal (by decide)) depth width
  cases edit with
  | addLine s => simpa [Edit.lines] using lacks_text_code hc h depth width
  | blankLine => simpa [Edit.lines] using hblank
  | separate => cases atStart <;> simp [Edit.lines, hblank]
  | openBlock head => simp [Edit.lines, hopening, lacks_text_code hc h depth width]
  | openBrace => simp [Edit.lines, hopening]
  | closeBlock => simp [Edit.lines, hclosing]
  | indent | dedent => simp [Edit.lines]
  | add | addIndent | endLine | clear => exact h.elim

/-- Lines have the characters of their edits. -/
theorem lacks_linesOf (hc : IsControl c) (h : ∀ edit ∈ edits, edit.Lacks c) (depth : Nat)
    (atStart : Bool) (width : Nat) :
    ∀ line ∈ linesOf depth atStart edits, Text.Lacks c (line.text width) := by
  induction edits generalizing depth atStart with
  | nil => simp [linesOf]
  | cons edit edits ih =>
      rw [linesOf, List.forall_mem_append]
      exact ⟨(h edit (.head _)).lines hc depth atStart width,
        ih (fun other hother => h other (.tail _ hother)) _ _⟩

end ChangeNotification.SourceBuffer
