import ChangeNotification.Proofs.Layout.Enclosure

/-! # Edits that write whole lines

Each edit of a block document is a list of lines at the depth of the buffer, so that a run of
edits is told by the lines it writes. -/

namespace ChangeNotification.SourceBuffer

open Layout

/-- The buffer after lines were written in full. -/
def writeLines (buffer : SourceBuffer) (lines : List Line) : SourceBuffer :=
  { buffer with
    text := buffer.text ++ Line.document buffer.indentWidth buffer.lineEnding lines
    atBlockStart := buffer.atBlockStart && lines.isEmpty }

/-- The buffer at the beginning of a block one level further inside. -/
def enterBlock (buffer : SourceBuffer) : SourceBuffer :=
  { buffer with depth := buffer.depth + 1, atBlockStart := true }

/-- The buffer back at a depth. -/
def leaveTo (buffer : SourceBuffer) (depth : Nat) : SourceBuffer :=
  { buffer with depth }

variable {buffer : SourceBuffer}

@[simp] theorem writeLines_nil : buffer.writeLines [] = buffer := by
  simp [writeLines]

@[simp] theorem writeLines_writeLines (lines more : List Line) :
    (buffer.writeLines lines).writeLines more = buffer.writeLines (lines ++ more) := by
  simp only [writeLines, Line.document_append, String.append_assoc]
  cases lines <;> simp

@[simp] theorem depth_writeLines (lines : List Line) :
    (buffer.writeLines lines).depth = buffer.depth := rfl

@[simp] theorem atBlockStart_writeLines_cons (line : Line) (lines : List Line) :
    (buffer.writeLines (line :: lines)).atBlockStart = false := by
  simp [writeLines]

@[simp] theorem depth_enterBlock : buffer.enterBlock.depth = buffer.depth + 1 := rfl

@[simp] theorem atBlockStart_enterBlock : buffer.enterBlock.atBlockStart = true := rfl

@[simp] theorem depth_leaveTo (depth : Nat) : (buffer.leaveTo depth).depth = depth := rfl

/-! ## Single edits -/

@[simp] theorem apply_addLine (content : String) :
    buffer.apply (.addLine content) = buffer.writeLines [.code buffer.depth content] := by
  simp [apply, addLine, endLine, addIndent, add, append, indentation, writeLines,
    Line.document_cons, Line.text, String.append_assoc]

theorem blankLine_eq_writeLines : buffer.blankLine = buffer.writeLines [.blank] := by
  simp [blankLine, endLine, add, append, writeLines, Line.document_cons, Line.text]

@[simp] theorem apply_blankLine : buffer.apply .blankLine = buffer.writeLines [.blank] :=
  blankLine_eq_writeLines

@[simp] theorem apply_separate :
    buffer.apply .separate = buffer.writeLines (if buffer.atBlockStart then [] else [.blank]) := by
  cases h : buffer.atBlockStart <;> simp [apply, separate, h, blankLine_eq_writeLines]

@[simp] theorem apply_openBlock (head : String) :
    buffer.apply (.openBlock head) =
      (buffer.writeLines [.code buffer.depth head, .code buffer.depth "\x7b"]).enterBlock := by
  have hline (b : SourceBuffer) (s : String) : b.addLine s = b.writeLines [.code b.depth s] :=
    apply_addLine s
  simp [apply, openBlock, openBrace, hline, indent, enterBlock]

@[simp] theorem apply_closeBlock :
    buffer.apply .closeBlock =
      (buffer.leaveTo (buffer.depth - 1)).writeLines [.code (buffer.depth - 1) "\x7d"] := by
  have hline (b : SourceBuffer) (s : String) : b.addLine s = b.writeLines [.code b.depth s] :=
    apply_addLine s
  simp [apply, closeBlock, dedent, hline, leaveTo]

/-- A block is its lines at the depth around it, once it is left and closed. -/
theorem leaveTo_writeLines_enterBlock (head lines : List Line) (closing : Line) :
    (((buffer.writeLines head).enterBlock.writeLines lines).leaveTo buffer.depth).writeLines
      [closing] = buffer.writeLines (head ++ lines ++ [closing]) := by
  simp [enterBlock, writeLines, leaveTo, String.append_assoc]

/-! ## Runs of edits -/

theorem applyAll_addLines (contents : List String) :
    buffer.applyAll (contents.map .addLine) =
      buffer.writeLines (contents.map (.code buffer.depth)) := by
  induction contents generalizing buffer with
  | nil => simp
  | cons content contents ih => simp [ih]

/-- Opening blocks leads to the beginning of the innermost one. -/
theorem applyAll_openBlocks (heads : List String) :
    buffer.applyAll (heads.map .openBlock) =
      { buffer.writeLines (openings buffer.depth heads) with
        depth := buffer.depth + heads.length
        atBlockStart := buffer.atBlockStart || !heads.isEmpty } := by
  induction heads generalizing buffer with
  | nil => simp [openings, writeLines]
  | cons head heads ih =>
      rw [List.map_cons, applyAll_cons, apply_openBlock, ih]
      simp [enterBlock, writeLines, openings, Line.document_cons, String.append_assoc]
      omega

/-- Closing as many blocks as there are above a depth leads back to it. -/
theorem applyAll_closeBlocks (blocks depth : Nat) (h : buffer.depth = depth + blocks) :
    (buffer.applyAll (List.replicate blocks .closeBlock)) =
      (buffer.writeLines (closings depth blocks)).leaveTo depth := by
  induction blocks generalizing depth with
  | zero =>
      obtain rfl : depth = buffer.depth := h.symm
      simp [closings, leaveTo]
  | succ blocks ih =>
      have hinner := ih (depth + 1) (by omega)
      rw [List.replicate_succ', applyAll_append, hinner]
      simp [closings, leaveTo, writeLines, String.append_assoc]

/-- A block of two paragraphs below lines of its own. Nothing separates them at the beginning of
the block, so the first one must not be empty. -/
theorem applyAll_paragraphs (above : List String) (head : String) {first : List String}
    (hfirst : first ≠ []) (second : List String) :
    buffer.applyAll (above.map Edit.addLine ++ Edit.openBlock head ::
        (first.map Edit.addLine ++ Edit.separate :: second.map Edit.addLine ++
          [Edit.closeBlock])) =
      buffer.writeLines (above.map (Line.code buffer.depth) ++ Line.code buffer.depth head ::
        Line.code buffer.depth "\x7b" :: (first.map (Line.code (buffer.depth + 1)) ++ Line.blank ::
          second.map (Line.code (buffer.depth + 1)) ++ [Line.code buffer.depth "\x7d"])) := by
  obtain ⟨line, lines, rfl⟩ := List.exists_cons_of_ne_nil hfirst
  simp only [applyAll_append, applyAll_cons, applyAll_nil, applyAll_addLines, apply_addLine,
    apply_openBlock, apply_separate, apply_closeBlock, writeLines_writeLines, depth_writeLines,
    depth_enterBlock, List.map_cons, List.cons_append, atBlockStart_writeLines_cons,
    Bool.false_eq_true, if_false, Nat.add_sub_cancel]
  rw [leaveTo_writeLines_enterBlock]
  simp

end ChangeNotification.SourceBuffer
