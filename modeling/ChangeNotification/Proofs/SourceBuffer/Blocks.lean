import ChangeNotification.Proofs.SourceBuffer.Lines
import Mathlib.Data.Nat.PSub

/-! # Blocks inside blocks

Edits that close the blocks they open write the same lines at the beginning of every block. Only the
indentation of the block comes in front of them. -/

namespace ChangeNotification

/-! ## Lines further inside -/

theorem Text.intercalate_concat_empty (separator : String) (pieces : List String) :
    String.intercalate separator (pieces ++ [""]) = String.join (pieces.map (· ++ separator)) := by
  induction pieces with
  | nil => simp
  | cons piece pieces ih =>
      rw [List.cons_append, String.intercalate_cons_of_ne_nil (by simp), ih, List.map_cons,
        String.join_cons]

/-- The text with spaces in front of every line that is not empty. -/
def LineEnding.indented (ending : LineEnding) (spaces : Nat) (text : String) : String :=
  String.intercalate ending.text <| (ending.split text).map fun line =>
    if line = "" then "" else String.ofList (List.replicate spaces ' ') ++ line

namespace Line

variable {width : Nat} {ending : LineEnding} {lines : List Line}

/-- A blank line, or code that is there and does not break. -/
def IsFilled : Line → Prop
  | blank => True
  | code _ content => content ≠ "" ∧ '\n' ∉ content.toList

theorem IsFilled.lineFeed_not_mem {line : Line} (h : line.IsFilled) (width : Nat) :
    '\n' ∉ (line.text width).toList := by
  cases line with
  | blank => simp
  | code depth content => simpa using h.2

theorem text_deeper {line : Line} (h : line.IsFilled) (levels width : Nat) :
    (line.deeper levels).text width =
      if line.text width = "" then "" else
        String.ofList (List.replicate (levels * width) ' ') ++ line.text width := by
  cases line with
  | blank => rfl
  | code depth content =>
      have hfilled : (code depth content).text width ≠ "" := by
        simp [text, h.1]
      have hspaces : String.ofList (List.replicate ((depth + levels) * width) ' ') =
          String.ofList (List.replicate (levels * width) ' ') ++
            String.ofList (List.replicate (depth * width) ' ') := by
        rw [← String.ofList_append, List.replicate_append_replicate, ← Nat.add_mul, Nat.add_comm]
      rw [if_neg hfilled, deeper, text, text, hspaces, String.append_assoc]

/-- Lines that are filled are indented as a whole by going deeper with each of them. -/
theorem indented_document (h : ∀ line ∈ lines, line.IsFilled) (levels : Nat) :
    ending.indented (levels * width) (document width ending lines) =
      document width ending (lines.map (deeper levels)) := by
  have hsplit : ending.split (document width ending lines) = lines.map (text width) ++ [""] :=
    split_document ending fun line hline => (h line hline).lineFeed_not_mem width
  rw [LineEnding.indented, hsplit, List.map_append, List.map_singleton, if_pos rfl,
    Text.intercalate_concat_empty, document, List.map_map, List.map_map, List.map_map]
  refine congrArg String.join (List.map_congr_left fun line hline => ?_)
  simp only [Function.comp_apply]
  rw [text_deeper (h line hline)]

end Line

namespace SourceBuffer

/-! ## Balanced edits -/

namespace Edit

/-- The level behind an edit that writes lines, counted in blocks. A block that is closed has been
opened. -/
def levelAfter? (level : Nat) : Edit → Option Nat
  | addLine _ | blankLine | separate => some level
  | openBlock _ | openBrace => some (level + 1)
  | closeBlock => level.ppred
  | add _ | addIndent | endLine _ | indent | dedent | clear => none

/-- An edit whose text does not break, and is not empty where it is a line of its own. -/
def IsUnbroken : Edit → Prop
  | addLine s => s ≠ "" ∧ '\n' ∉ s.toList
  | openBlock head => '\n' ∉ head.toList
  | _ => True

/-- An edit that opens a block under a head has one. -/
def IsHeaded : Edit → Prop
  | openBlock head => head ≠ ""
  | _ => True

end Edit

/-- Edits that write lines, open blocks, and close all of them again. -/
def IsBalanced (edits : List Edit) : Prop :=
  edits.foldlM Edit.levelAfter? 0 = some 0

instance (edits : List Edit) : Decidable (IsBalanced edits) :=
  inferInstanceAs (Decidable (_ = _))

variable {edit : Edit} {edits : List Edit} {level after : Nat} {start : Bool}

namespace Edit

theorem isWhole_of_levelAfter? (h : edit.levelAfter? level = some after) : edit.isWhole = true := by
  cases edit with
  | addLine | blankLine | separate | openBlock | openBrace | closeBlock => rfl
  | add | addIndent | endLine | indent | dedent | clear => cases h

/-- Levels are depths, from wherever they are counted. -/
theorem depthAfter_of_levelAfter? (h : edit.levelAfter? level = some after) (levels : Nat) :
    edit.depthAfter (level + levels) = after + levels := by
  cases edit with
  | addLine | blankLine | separate =>
      cases h
      rfl
  | openBlock | openBrace =>
      cases h
      exact Nat.add_right_comm level levels 1
  | closeBlock =>
      have hlevel : level = after + 1 := (Nat.ppred_eq_some.mp h).symm
      rw [hlevel]
      change after + 1 + levels - 1 = after + levels
      omega
  | add | addIndent | endLine | indent | dedent | clear => cases h

theorem lines_of_levelAfter? (h : edit.levelAfter? level = some after) (levels : Nat)
    (start : Bool) :
    edit.lines (level + levels) start = (edit.lines level start).map (Line.deeper levels) := by
  cases edit with
  | addLine | blankLine | openBlock | openBrace => rfl
  | separate => cases start <;> rfl
  | closeBlock =>
      have hlevel : level = after + 1 := (Nat.ppred_eq_some.mp h).symm
      rw [hlevel]
      have hdepth : after + 1 + levels - 1 = after + levels := by omega
      simp [lines, Line.deeper, hdepth]
  | add | addIndent | endLine | indent | dedent | clear => cases h

theorem isFilled_of_isHeaded (hunbroken : edit.IsUnbroken) (hheaded : edit.IsHeaded) (depth : Nat)
    (start : Bool) : ∀ line ∈ edit.lines depth start, line.IsFilled := by
  have hbrace (depth : Nat) :
      (Line.code depth "\x7b").IsFilled ∧ (Line.code depth "\x7d").IsFilled := by
    simp [Line.IsFilled]
  cases edit with
  | addLine s =>
      have hline : (Line.code depth s).IsFilled := hunbroken
      simpa [lines] using hline
  | blankLine => simp [lines, Line.IsFilled]
  | separate => cases start <;> simp [lines, Line.IsFilled]
  | openBlock head =>
      have hline : (Line.code depth head).IsFilled := ⟨hheaded, hunbroken⟩
      simpa [lines, hbrace] using hline
  | openBrace | closeBlock => simp [lines, hbrace]
  | add | addIndent | endLine | indent | dedent | clear => simp [lines]

end Edit

/-! ## Runs of balanced edits -/

theorem exists_levelAfter?_of_foldlM
    (h : (edit :: edits).foldlM Edit.levelAfter? level = some after) :
    ∃ next, edit.levelAfter? level = some next ∧ edits.foldlM Edit.levelAfter? next = some after :=
  Option.bind_eq_some_iff.mp h

theorem isWhole_of_foldlM (h : edits.foldlM Edit.levelAfter? level = some after) :
    ∀ edit ∈ edits, edit.isWhole = true := by
  induction edits generalizing level with
  | nil => simp
  | cons edit edits ih =>
      obtain ⟨next, hedit, hedits⟩ := exists_levelAfter?_of_foldlM h
      exact List.forall_mem_cons.mpr ⟨Edit.isWhole_of_levelAfter? hedit, ih hedits⟩

/-- From a deeper place on, edits write their lines deeper. -/
theorem linesOf_deeper (h : edits.foldlM Edit.levelAfter? level = some after) (levels : Nat)
    (start : Bool) :
    linesOf (level + levels) start edits =
      (linesOf level start edits).map (Line.deeper levels) := by
  induction edits generalizing level start with
  | nil => rfl
  | cons edit edits ih =>
      obtain ⟨next, hedit, hedits⟩ := exists_levelAfter?_of_foldlM h
      have hdepth : edit.depthAfter level = next := Edit.depthAfter_of_levelAfter? hedit 0
      rw [linesOf, linesOf, Edit.lines_of_levelAfter? hedit, Edit.depthAfter_of_levelAfter? hedit,
        hdepth, ih hedits, List.map_append]

theorem isFilled_linesOf (h : ∀ edit ∈ edits, edit.IsUnbroken ∧ edit.IsHeaded) (depth : Nat)
    (start : Bool) : ∀ line ∈ linesOf depth start edits, line.IsFilled := by
  induction edits generalizing depth start with
  | nil => simp [linesOf]
  | cons edit edits ih =>
      rw [linesOf, List.forall_mem_append]
      obtain ⟨hedit, hedits⟩ := List.forall_mem_cons.mp h
      exact ⟨Edit.isFilled_of_isHeaded hedit.1 hedit.2 depth start, ih hedits _ _⟩

/-- The depth and the place in the block after edits, from whatever was before. -/
theorem applyAll_of_foldlM (h : edits.foldlM Edit.levelAfter? level = some after)
    {buffer : SourceBuffer} {levels : Nat} (hdepth : buffer.depth = level + levels) :
    (buffer.applyAll edits).depth = after + levels ∧
      (buffer.applyAll edits).atBlockStart =
        edits.foldl Edit.startsAfter buffer.atBlockStart := by
  induction edits generalizing buffer level with
  | nil =>
      cases h
      exact ⟨hdepth, rfl⟩
  | cons edit edits ih =>
      obtain ⟨next, hedit, hedits⟩ := exists_levelAfter?_of_foldlM h
      have htook := took_apply buffer (Edit.isWhole_of_levelAfter? hedit)
      have hnext : (buffer.apply edit).depth = next + levels := by
        rw [htook.depth, hdepth, Edit.depthAfter_of_levelAfter? hedit]
      obtain ⟨hdepth', hstart⟩ := ih hedits hnext
      rw [htook.atBlockStart] at hstart
      exact ⟨hdepth', hstart⟩

/-! ## Blocks -/

/-- A buffer in which a separation is a blank line. -/
def IsSeparable (buffer : SourceBuffer) : Prop :=
  buffer.separate.text = buffer.text ++ buffer.lineEnding.text

theorem isSeparable_iff {buffer : SourceBuffer} :
    buffer.IsSeparable ↔ buffer.atBlockStart = false := by
  have hending : buffer.lineEnding.text ≠ "" := by
    cases buffer.lineEnding <;> decide
  rw [IsSeparable, separate]
  cases buffer.atBlockStart with
  | true =>
      have hlonger : buffer.text ≠ buffer.text ++ buffer.lineEnding.text := by
        intro h
        have hlength := congrArg String.length h
        rw [String.length_append] at hlength
        exact hending (String.length_eq_zero_iff.mp (by omega))
      simpa using hlonger
  | false => simp [blankLine, endLine, add, append]

/-- Edits that write into a block what they write into a fresh buffer, indented like the block, and
come back to its depth. They separate lines in the one where they do in the other. -/
structure WriteInside (block : SourceBuffer) (edits : List Edit) : Prop where
  text : (block.applyAll edits).text = block.text ++
    block.lineEnding.indented (block.depth * block.indentWidth)
      ((fresh block.indentWidth block.lineEnding).applyAll edits).text
  depth : (block.applyAll edits).depth = block.depth
  separates : ∀ before after, edits = before ++ .separate :: after →
    ((block.applyAll before).IsSeparable ↔
      ((fresh block.indentWidth block.lineEnding).applyAll before).IsSeparable)

/-- Behind an opening brace balanced edits write their lines as they do at the beginning of a text. -/
theorem writeInside_openBrace (buffer : SourceBuffer) {edits : List Edit}
    (hbalanced : IsBalanced edits) (hlines : ∀ edit ∈ edits, edit.IsUnbroken ∧ edit.IsHeaded) :
    WriteInside buffer.openBrace edits := by
  have hstart : buffer.openBrace.atBlockStart = true := rfl
  generalize buffer.openBrace = block at hstart ⊢
  have hblock : block.depth = 0 + block.depth := (Nat.zero_add _).symm
  have hwhole := isWhole_of_foldlM hbalanced
  refine ⟨?_, ?_, ?_⟩
  · have hlines := isFilled_linesOf hlines 0 true
    have hdeeper := linesOf_deeper hbalanced block.depth true
    rw [Nat.zero_add] at hdeeper
    rw [text_applyAll hwhole, text_applyAll hwhole, hstart, hdeeper]
    change _ = block.text ++ block.lineEnding.indented _
      ("" ++ Line.document block.indentWidth block.lineEnding (linesOf 0 true edits))
    rw [String.empty_append, Line.indented_document hlines]
  · rw [(applyAll_of_foldlM hbalanced hblock).1, Nat.zero_add]
  · rintro before after rfl
    rw [IsBalanced, List.foldlM_append] at hbalanced
    obtain ⟨level, hbefore, -⟩ := Option.bind_eq_some_iff.mp hbalanced
    have hnone : (fresh block.indentWidth block.lineEnding).depth = 0 + 0 := rfl
    have hfresh := applyAll_of_foldlM hbefore hnone
    rw [isSeparable_iff, isSeparable_iff, (applyAll_of_foldlM hbefore hblock).2, hfresh.2, hstart]
    rfl

/-- Two members, the second of which has a block inside. -/
def sampleMembers : List Edit :=
  [.addLine "int a;", .separate, .openBlock "int B", .separate, .openBrace, .blankLine, .closeBlock,
    .separate, .addLine "return a;", .closeBlock]

theorem writeInside_openBrace_sampleMembers :
    IsBalanced sampleMembers ∧ (∀ edit ∈ sampleMembers, edit.IsUnbroken ∧ edit.IsHeaded) ∧
      WriteInside ((fresh 4 .crlf).openBlock "class C").openBrace sampleMembers := by
  have hbalanced : IsBalanced sampleMembers := by decide
  have hlines : ∀ edit ∈ sampleMembers, edit.IsUnbroken ∧ edit.IsHeaded := by
    simp [sampleMembers, Edit.IsUnbroken, Edit.IsHeaded]
  exact ⟨hbalanced, hlines, writeInside_openBrace _ hbalanced hlines⟩

/-- A block without a head. Where the head would stand, the line is empty in a fresh buffer and has
nothing but its indentation further inside. -/
theorem not_writeInside_openBlock_empty :
    let edits : List Edit := [.openBlock "", .closeBlock]
    IsBalanced edits ∧ (∀ edit ∈ edits, edit.IsUnbroken) ∧
      ¬ WriteInside (fresh 4 .lf).openBrace edits := by
  refine ⟨by decide, by simp [Edit.IsUnbroken], fun h => ?_⟩
  have htext := h.text
  revert htext
  decide +kernel

end SourceBuffer

end ChangeNotification
