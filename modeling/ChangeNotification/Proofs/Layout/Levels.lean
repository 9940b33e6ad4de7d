import ChangeNotification.Proofs.Layout.Bare
import Mathlib.Data.Nat.PSub

/-! # Indentation by levels

The level of a line is the number of blocks around it. A rule says how many spaces stand before the
lines of each level, and lines that are properly nested can follow one rule in the outer blocks and
another one in the inner blocks. -/

namespace ChangeNotification.Layout

/-! ## Counting blocks -/

/-- The number of open blocks behind a line. A closing brace ends a block before its line, and an
opening brace begins one after it. It fails where no block is left to end, and at a line that is not
empty and has not the spaces for its level. -/
def levelStep (spaces : Nat → Nat) (blocks : Nat) (line : String) : Option Nat :=
  let code := unindented line
  (if code = "\x7d" then blocks.ppred else some blocks).bind fun level =>
    if line = "" ∨ indentation line = spaces level then
      some (if code = "\x7b" then level + 1 else level)
    else none

def levelRun (spaces : Nat → Nat) (blocks : Nat) (lines : List String) : Option Nat :=
  lines.foldlM (levelStep spaces) blocks

/-- Lines that end all the blocks that they begin, and no others, and are indented by a rule. -/
def IndentedBy (spaces : Nat → Nat) (lines : List String) : Prop :=
  levelRun spaces 0 lines = some 0

variable {spaces other : Nat → Nat} {blocks level after : Nat} {line : String} {lines : List String}

@[simp] theorem levelRun_nil : levelRun spaces blocks [] = some blocks := rfl

@[simp] theorem levelRun_cons : levelRun spaces blocks (line :: lines) =
    (levelStep spaces blocks line).bind (levelRun spaces · lines) := rfl

theorem levelRun_append (more : List String) : levelRun spaces blocks (lines ++ more) =
    (levelRun spaces blocks lines).bind (levelRun spaces · more) :=
  List.foldlM_append

/-- Literals are checked by their characters, as texts themselves are slow to evaluate. -/
theorem levelRun_literal {chars : List Char} {result : Option Nat}
    (h : ((if chars.dropWhile (· = ' ') = ['\x7d'] then blocks.ppred else some blocks).bind
      fun level =>
        if chars = [] ∨ (chars.takeWhile (· = ' ')).length = spaces level then
          some (if chars.dropWhile (· = ' ') = ['\x7b'] then level + 1 else level)
        else none) = some after)
    (hlines : levelRun spaces after lines = result) :
    levelRun spaces blocks (String.ofList chars :: lines) = result := by
  have hempty : "" = String.ofList [] := rfl
  have hclosing : "\x7d" = String.ofList ['\x7d'] := rfl
  have hopening : "\x7b" = String.ofList ['\x7b'] := rfl
  have hstep : levelStep spaces blocks (String.ofList chars) = some after := by
    simpa only [levelStep, unindented, indentation, String.toList_ofList, hempty, hclosing, hopening,
      String.ofList_inj] using h
  rw [levelRun_cons, hstep]
  exact hlines

theorem unindented_literal_ne_closing {chars : List Char}
    (h : chars.dropWhile (· = ' ') ≠ ['\x7d']) : unindented (String.ofList chars) ≠ "\x7d" := by
  have hclosing : "\x7d" = String.ofList ['\x7d'] := rfl
  rwa [unindented, String.toList_ofList, hclosing, ne_eq, String.ofList_inj]

theorem levelStep_empty : levelStep spaces blocks "" = some blocks := by
  simp [levelStep, unindented]

/-- An empty line, such as the one behind the last ending, is indented by every rule. -/
theorem indentedBy_concat_empty_iff : IndentedBy spaces (lines ++ [""]) ↔ IndentedBy spaces lines := by
  rw [IndentedBy, levelRun_append, IndentedBy]
  cases levelRun spaces 0 lines with
  | none => simp
  | some level => simp [levelStep_empty]

/-! ## Single lines -/

section

variable {depth width : Nat} {content : String}

theorem levelStep_code (h : IsPlain content) (hspaces : spaces depth = depth * width) :
    levelStep spaces depth ((Line.code depth content).text width) = some depth := by
  simp [levelStep, unindented_text h.begins, indentation_text h.begins, h.not_opening, h.not_closing,
    hspaces]

theorem levelStep_opening (hspaces : spaces depth = depth * width) :
    levelStep spaces depth ((Line.code depth "\x7b").text width) = some (depth + 1) := by
  have hbegins : "\x7b".toList.head? ≠ some ' ' := by decide
  simp [levelStep, unindented_text hbegins, indentation_text hbegins, hspaces]

theorem levelStep_closing (hspaces : spaces depth = depth * width) :
    levelStep spaces (depth + 1) ((Line.code depth "\x7d").text width) = some depth := by
  have hbegins : "\x7d".toList.head? ≠ some ' ' := by decide
  simp [levelStep, unindented_text hbegins, indentation_text hbegins, hspaces]

end

/-! ## What lines tell about a rule -/

/-- The levels do not depend on the rule. -/
theorem levelStep_unique {after' : Nat} (h : levelStep spaces blocks line = some after)
    (hother : levelStep other blocks line = some after') : after = after' := by
  obtain ⟨level, hlevel, hline⟩ := Option.bind_eq_some_iff.mp h
  obtain ⟨level', hlevel', hline'⟩ := Option.bind_eq_some_iff.mp hother
  obtain rfl : level = level' := Option.some.inj (hlevel.symm.trans hlevel')
  split at hline
  · split at hline'
    · exact Option.some.inj (hline.symm.trans hline')
    · cases hline'
  · cases hline

theorem levelRun_unique {after' : Nat} (h : levelRun spaces blocks lines = some after)
    (hother : levelRun other blocks lines = some after') : after = after' := by
  induction lines generalizing blocks with
  | nil => exact Option.some.inj (h.symm.trans hother)
  | cons line lines ih =>
      obtain ⟨next, hstep, hrun⟩ := Option.bind_eq_some_iff.mp h
      obtain ⟨next', hstep', hrun'⟩ := Option.bind_eq_some_iff.mp hother
      obtain rfl := levelStep_unique hstep hstep'
      exact ih hrun hrun'

/-- A line that is neither empty nor a closing brace shows the spaces for the blocks before it. -/
theorem indentation_of_levelRun {front back : List String} (hline : line ≠ "")
    (hclosing : unindented line ≠ "\x7d")
    (h : levelRun spaces blocks (front ++ line :: back) = some after)
    (hfront : levelRun other blocks front = some level) : indentation line = spaces level := by
  rw [levelRun_append] at h
  obtain ⟨reached, hreached, hrest⟩ := Option.bind_eq_some_iff.mp h
  obtain rfl := levelRun_unique hreached hfront
  obtain ⟨next, hstep, -⟩ := Option.bind_eq_some_iff.mp hrest
  rw [levelStep, if_neg hclosing, Option.bind_some] at hstep
  split at hstep
  · rename_i hspaces
    exact hspaces.resolve_left hline
  · cases hstep

/-! ## One rule for all levels -/

theorem levelStep_of_step {width : Nat} {scan next : Scan}
    (h : scan.step width line = some next) :
    levelStep (· * width) scan.heads.length line = some next.heads.length := by
  obtain ⟨heads, hheads, hline⟩ := Option.bind_eq_some_iff.mp h
  have hlevel : (if unindented line = "\x7d" then scan.heads.length.ppred
      else some scan.heads.length) = some heads.length := by
    by_cases hclosing : unindented line = "\x7d"
    · rw [if_pos hclosing] at hheads ⊢
      cases hscan : scan.heads with
      | nil =>
          rw [hscan] at hheads
          cases hheads
      | cons head others =>
          rw [hscan] at hheads
          cases hheads
          rfl
    · rw [if_neg hclosing] at hheads ⊢
      exact congrArg (Option.map List.length) hheads
  by_cases hspaces : line = "" ∨ indentation line = heads.length * width
  · rw [if_pos hspaces] at hline
    cases hline
    simp only [levelStep, hlevel, Option.bind_some, if_pos hspaces]
    split <;> rfl
  · rw [if_neg hspaces] at hline
    cases hline

theorem levelRun_of_run {width : Nat} {scan last : Scan} (h : scan.run width lines = some last) :
    levelRun (· * width) scan.heads.length lines = some last.heads.length := by
  induction lines generalizing scan with
  | nil =>
      cases h
      rfl
  | cons line lines ih =>
      obtain ⟨next, hstep, hrun⟩ := Option.bind_eq_some_iff.mp h
      rw [levelRun_cons, levelStep_of_step hstep]
      exact ih hrun

/-- Nested lines are indented by the width a level. -/
theorem Nested.indentedBy {lines : List Line} (h : Nested 0 lines) (width : Nat) :
    IndentedBy (· * width) (lines.map (Line.text width)) := by
  obtain ⟨last, hlast⟩ := (h.within width [] rfl).returns ""
  exact levelRun_of_run hlast

/-! ## Another rule inside of a block -/

/-- The rule of a block at a width in which the lines bring their own indentation by a rule. -/
def insideBlock (width : Nat) (spaces : Nat → Nat) : Nat → Nat
  | 0 => 0
  | level + 1 => width + spaces level

theorem insideBlock_width (width : Nat) : insideBlock width (· * width) = (· * width) := by
  funext level
  cases level with
  | zero => exact (Nat.zero_mul width).symm
  | succ level =>
      simp only [insideBlock, Nat.succ_mul]
      exact Nat.add_comm _ _

/-- A line inside of a block, with the indentation that it brings. An empty one stays empty. -/
def inBlock (line : String) : Line :=
  if line = "" then .blank else .code 1 line

theorem indentation_code (depth width : Nat) (content : String) :
    indentation ((Line.code depth content).text width) = depth * width + indentation content := by
  have hspaces : ∀ c ∈ List.replicate (depth * width) ' ', decide (c = ' ') = true := by
    simp [List.mem_replicate]
  rw [indentation, indentation, Line.text, String.toList_append, String.toList_ofList,
    List.takeWhile_append_of_pos hspaces, List.length_append, List.length_replicate]

theorem unindented_inBlock (width : Nat) (line : String) :
    unindented ((inBlock line).text width) = unindented line := by
  rw [Line.unindented_line, inBlock]
  split
  · subst line
    rfl
  · rfl

/-- Inside of a block a line does what it does by itself, one level further in. -/
theorem levelStep_inBlock (width : Nat) (h : levelStep spaces blocks line = some after) :
    levelStep (insideBlock width spaces) (blocks + 1) ((inBlock line).text width) =
      some (after + 1) := by
  obtain ⟨level, hlevel, hline⟩ := Option.bind_eq_some_iff.mp h
  have hinside : (if unindented line = "\x7d" then (blocks + 1).ppred else some (blocks + 1)) =
      some (level + 1) := by
    by_cases hclosing : unindented line = "\x7d"
    · rw [if_pos hclosing] at hlevel ⊢
      exact congrArg some (Nat.ppred_eq_some.mp hlevel).symm
    · rw [if_neg hclosing] at hlevel ⊢
      exact congrArg (Option.map (· + 1)) hlevel
  by_cases hspaces : line = "" ∨ indentation line = spaces level
  · rw [if_pos hspaces] at hline
    cases hline
    have htext : (inBlock line).text width = "" ∨
        indentation ((inBlock line).text width) = insideBlock width spaces (level + 1) := by
      by_cases hempty : line = ""
      · exact .inl (by rw [inBlock, if_pos hempty]; rfl)
      · right
        rw [inBlock, if_neg hempty, indentation_code, hspaces.resolve_left hempty, Nat.one_mul]
        rfl
    simp only [levelStep, unindented_inBlock, hinside, Option.bind_some, if_pos htext]
    split <;> rfl
  · rw [if_neg hspaces] at hline
    cases hline

theorem inBlock_text_ne_empty (width : Nat) (h : line ≠ "") : (inBlock line).text width ≠ "" := by
  rw [inBlock, if_neg h, Line.text]
  intro hempty
  have hchars := congrArg String.toList hempty
  rw [String.toList_append] at hchars
  exact h (String.toList_eq_nil_iff.mp (List.append_eq_nil_iff.mp hchars).2)

theorem levelRun_inBlock (width : Nat) (h : levelRun spaces blocks lines = some after) :
    levelRun (insideBlock width spaces) (blocks + 1) ((lines.map inBlock).map (Line.text width)) =
      some (after + 1) := by
  induction lines generalizing blocks with
  | nil =>
      cases h
      rfl
  | cons line lines ih =>
      obtain ⟨next, hstep, hrun⟩ := Option.bind_eq_some_iff.mp h
      rw [List.map_cons, List.map_cons, levelRun_cons, levelStep_inBlock width hstep]
      exact ih hrun

/-- The beginning of a block below a preamble. -/
def blockHead (preamble : List String) (head : String) : List Line :=
  preamble.map (.code 0) ++ [.code 0 head, .code 0 "\x7b"]

/-- A block below a preamble, of lines with the indentation that they bring. -/
def blockLines (preamble : List String) (head : String) (lines : List String) : List Line :=
  blockHead preamble head ++ lines.map inBlock ++ [.code 0 "\x7d"]

section

variable {preamble : List String} (hpreamble : ∀ line ∈ preamble, IsPlain line) {head : String}
  (hhead : IsPlain head) (width : Nat)

include hpreamble hhead

theorem levelRun_blockHead :
    levelRun (insideBlock width spaces) 0 ((blockHead preamble head).map (Line.text width)) =
      some 1 := by
  have hspaces : insideBlock width spaces 0 = 0 * width := (Nat.zero_mul width).symm
  induction preamble with
  | nil =>
      rw [blockHead, List.map_nil, List.nil_append, List.map_cons, List.map_singleton, levelRun_cons,
        levelStep_code hhead hspaces, Option.bind_some, levelRun_cons, levelStep_opening hspaces]
      rfl
  | cons line preamble ih =>
      rw [blockHead, List.map_cons, List.cons_append, List.map_cons, levelRun_cons,
        levelStep_code (hpreamble line (.head _)) hspaces]
      exact ih fun other hother => hpreamble other (.tail _ hother)

/-- A block follows the outer rule for itself, and its lines go on by the rule that they bring. -/
theorem indentedBy_blockLines (h : IndentedBy spaces lines) :
    IndentedBy (insideBlock width spaces) ((blockLines preamble head lines).map (Line.text width)) := by
  have hspaces : insideBlock width spaces 0 = 0 * width := (Nat.zero_mul width).symm
  rw [IndentedBy, blockLines, List.map_append, List.map_append, levelRun_append, levelRun_append,
    levelRun_blockHead hpreamble hhead width, Option.bind_some, levelRun_inBlock width h,
    Option.bind_some, List.map_singleton, levelRun_cons, levelStep_closing hspaces]
  rfl

/-- Lines with a block of their own are indented like the block around them only where they bring the
width of that block. -/
theorem indentedBy_blockLines_iff {inner : Nat} {front back : List String}
    (h : IndentedBy (· * inner) (front ++ line :: back))
    (hfront : levelRun (· * inner) 0 front = some 1) (hline : line ≠ "")
    (hclosing : unindented line ≠ "\x7d") :
    IndentedBy (· * width)
      ((blockLines preamble head (front ++ line :: back)).map (Line.text width)) ↔ width = inner := by
  have hown := indentedBy_blockLines hpreamble hhead width h
  constructor
  · intro houter
    have hcut : (blockLines preamble head (front ++ line :: back)).map (Line.text width) =
        (blockHead preamble head ++ front.map inBlock).map (Line.text width) ++
          (inBlock line).text width ::
            (back.map inBlock ++ [Line.code 0 "\x7d"]).map (Line.text width) := by
      simp [blockLines]
    have hreached : levelRun (insideBlock width (· * inner)) 0
        ((blockHead preamble head ++ front.map inBlock).map (Line.text width)) = some 2 := by
      rw [List.map_append, levelRun_append, levelRun_blockHead hpreamble hhead width,
        Option.bind_some, levelRun_inBlock width hfront]
    have htext := inBlock_text_ne_empty width hline
    have hcode : unindented ((inBlock line).text width) ≠ "\x7d" := by
      rwa [unindented_inBlock]
    rw [IndentedBy, hcut] at houter hown
    have hspaces : (· * width) 2 = insideBlock width (· * inner) 2 :=
      (indentation_of_levelRun htext hcode houter hreached).symm.trans
        (indentation_of_levelRun htext hcode hown hreached)
    simp only [insideBlock] at hspaces
    omega
  · rintro rfl
    rwa [insideBlock_width] at hown

end

end ChangeNotification.Layout
