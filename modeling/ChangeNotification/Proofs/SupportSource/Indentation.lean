import ChangeNotification.Proofs.Emission.Layout
import ChangeNotification.Proofs.Layout.Levels

/-! # Indentation of the support sources

The attributes and the enumeration are indented as generated units are, by the width of the options.
The adapter brings its own indentation and stands inside of a block, so that it follows the width of
the options in its outermost block alone. -/

namespace ChangeNotification

open Layout
open SourceBuffer (Edit linesOf)
open Text (isControl_lineFeed)

/-! ## Edits that write one line -/

namespace SourceBuffer

/-- The line of an edit that writes one, whatever stands before it, and leaves the depth. -/
def Edit.line? (depth : Nat) : Edit → Option Line
  | addLine s => some (.code depth s)
  | blankLine => some .blank
  | _ => none

theorem exists_linesOf_map {α : Type} {write : α → Edit} {line : α → Line} {depth : Nat}
    (h : ∀ item, (write item).line? depth = some (line item)) (items : List α) (atStart : Bool)
    (more : List Edit) :
    ∃ stillAtStart, linesOf depth atStart (items.map write ++ more) =
      items.map line ++ linesOf depth stillAtStart more := by
  induction items generalizing atStart with
  | nil => exact ⟨atStart, rfl⟩
  | cons item items ih =>
      obtain ⟨stillAtStart, hrest⟩ := ih ((write item).startsAfter atStart)
      refine ⟨stillAtStart, ?_⟩
      have hitem := h item
      rw [List.map_cons, List.map_cons, List.cons_append, linesOf]
      cases hwrite : write item with
      | addLine | blankLine =>
          rw [hwrite] at hitem hrest
          rw [List.cons_append, ← Option.some.inj hitem]
          exact congrArg (_ :: ·) hrest
      | add | addIndent | endLine | separate | openBlock | openBrace | closeBlock | indent | dedent
      | clear =>
          rw [hwrite] at hitem
          cases hitem

end SourceBuffer

namespace SupportSource

/-! ## Lines of a source -/

/-- What stands before the block of a support source. -/
def directives (options : EmitOptions) : List String :=
  (if options.autoGeneratedHeader then [Emission.autoGeneratedHeader] else []) ++
    [Emission.nullableDirective]

theorem isPlain_directives (options : EmitOptions) : ∀ line ∈ directives options, IsPlain line := by
  have hheader : IsPlain Emission.autoGeneratedHeader := isPlain_literal (by decide)
  have hdirective : IsPlain Emission.nullableDirective := isPlain_literal (by decide)
  unfold directives
  split <;> simp [hheader, hdirective]

/-- The lines of a source, and an empty one behind the last ending. -/
theorem split_render (options : EmitOptions) (name : String) {edits : List Edit}
    (h : ∀ edit ∈ edits, edit.Lacks '\n') :
    options.lineEnding.split (render options name edits).sourceText =
      ((directives options).map (Line.code 0) ++ linesOf 0 false edits).map
        (Line.text options.indentWidth.toNat) ++ [""] := by
  have hdirective : Edit.Lacks '\n' (.addLine Emission.nullableDirective) :=
    isControl_lineFeed.lacks_literal (by decide)
  have hall : ∀ edit ∈ Emission.headerEdits options ++ .addLine Emission.nullableDirective :: edits,
      edit.Lacks '\n' := by
    rw [List.forall_mem_append, List.forall_mem_cons]
    exact ⟨lacks_headerEdits isControl_lineFeed options, hdirective, h⟩
  have hlines : linesOf 0 true
      (Emission.headerEdits options ++ .addLine Emission.nullableDirective :: edits) =
        (directives options).map (Line.code 0) ++ linesOf 0 false edits := by
    rw [Emission.headerEdits, directives]
    cases options.autoGeneratedHeader <;> rfl
  rw [← hlines, ← Line.split_document options.lineEnding
    (SourceBuffer.lacks_linesOf isControl_lineFeed hall 0 true options.indentWidth.toNat),
    ← options.text_applyAll hall, render, List.append_assoc]
  rfl

theorem isPlain_namespaceHead : IsPlain ("namespace " ++ Vocabulary.attributeNamespace) :=
  (isPlain_literal (by decide)).append (unbroken_literal (by decide))

/-! ## Attributes -/

theorem isPlain_attributeUsage (allowMultiple : Bool) : IsPlain (attributeUsage allowMultiple) := by
  unfold attributeUsage
  split <;> exact (isPlain_literal (by decide)).append_literal (by decide)
    |>.append_literal (by decide)

theorem isPlain_attributeMember (role : AttributeRole) : IsPlain (attributeMember role) := by
  have hname : '\n' ∉ role.simpleName.toList := role.lacks_simpleName isControl_lineFeed
  have henum : '\n' ∉ Vocabulary.qualifiedAccessibilityEnum.toList := unbroken_literal (by decide)
  cases role with
  | enable =>
      have hargument : '\n' ∉ Vocabulary.eventArgsOnlyArgument.toList := unbroken_literal (by decide)
      exact (isPlain_literal (by decide)).append hargument |>.append_literal (by decide)
  | event phase | observable phase =>
      exact (isPlain_literal (by decide)).append hname
        |>.append_literal (by decide) |>.append henum
        |>.append_literal (by decide) |>.append henum |>.append_literal (by decide)
  | redirect phase =>
      exact (isPlain_literal (by decide)).append hname |>.append_literal (by decide)

/-- Attribute classes are nested one level inside, and the block around them ends behind them. -/
theorem exists_nested_attributeClasses (roles : List AttributeRole) (atStart : Bool) :
    ∃ body, Nested 1 body ∧
      linesOf 1 atStart (roles.flatMap attributeClassEdits ++ [.closeBlock]) =
        body ++ [.code 0 "\x7d"] := by
  induction roles generalizing atStart with
  | nil => exact ⟨[], .nil 1, rfl⟩
  | cons role roles ih =>
      obtain ⟨body, hbody, hlines⟩ := ih false
      have hhead : IsPlain
          ("internal sealed class " ++ role.simpleName ++ " : global::System.Attribute") :=
        (isPlain_literal (by decide)).append (role.lacks_simpleName isControl_lineFeed)
          |>.append_literal (by decide)
      have hmember : Nested 2 [.code 2 (attributeMember role)] :=
        .code (isPlain_attributeMember role) (.nil 2)
      have hclass := Nested.code (isPlain_attributeUsage (allowsMultiple role))
        (Nested.block hhead hmember hbody)
      cases atStart with
      | true =>
          refine ⟨_, hclass, ?_⟩
          exact congrArg (_ :: _ :: _ :: _ :: _ :: ·) hlines
      | false =>
          refine ⟨_, .blank hclass, ?_⟩
          exact congrArg (_ :: _ :: _ :: _ :: _ :: _ :: ·) hlines

theorem nested_attributesEdits : Nested 0 (linesOf 0 false attributesEdits) := by
  obtain ⟨body, hbody, hlines⟩ := exists_nested_attributeClasses AttributeRole.all true
  have hall : linesOf 0 false attributesEdits =
      .code 0 ("namespace " ++ Vocabulary.attributeNamespace) :: .code 0 "\x7b" ::
        (body ++ [.code 0 "\x7d"]) :=
    congrArg (_ :: _ :: ·) hlines
  rw [hall]
  exact .block isPlain_namespaceHead hbody (.nil 0)

/-! ## The enumeration -/

/-- A member of the enumeration with its value. -/
def enumMember (entry : AccessibilityChoice × Nat) : String :=
  entry.1.memberName ++ " = " ++ toString entry.2 ++ ","

theorem isPlain_enumMember (entry : AccessibilityChoice × Nat) : IsPlain (enumMember entry) := by
  obtain ⟨choice, value⟩ := entry
  have hname : IsPlain choice.memberName := by
    rcases choice with _ | (_ | _ | _ | _ | _ | _) <;> exact isPlain_literal (by decide)
  exact hname.append_literal (by decide)
    |>.append (isControl_lineFeed.lacks_toString value) |>.append_literal (by decide)

theorem nested_accessibilityEnumEdits : Nested 0 (linesOf 0 false accessibilityEnumEdits) := by
  have hmember (entry : AccessibilityChoice × Nat) :
      Edit.line? 2 (.addLine (enumMember entry)) = some (.code 2 (enumMember entry)) := rfl
  obtain ⟨atStart, hlines⟩ := SourceBuffer.exists_linesOf_map hmember
    AccessibilityChoice.all.zipIdx true [.closeBlock, .closeBlock]
  have hall : linesOf 0 false accessibilityEnumEdits =
      .code 0 ("namespace " ++ Vocabulary.attributeNamespace) :: .code 0 "\x7b" ::
        .code 1 ("internal enum " ++ Vocabulary.accessibilityEnum) :: .code 1 "\x7b" ::
          (AccessibilityChoice.all.zipIdx.map (fun entry => .code 2 (enumMember entry)) ++
            [.code 1 "\x7d", .code 0 "\x7d"]) :=
    congrArg (_ :: _ :: _ :: _ :: ·) hlines
  have hcontents : ∀ content ∈ AccessibilityChoice.all.zipIdx.map enumMember, IsPlain content :=
    List.forall_mem_map.mpr fun entry _ => isPlain_enumMember entry
  have henum : IsPlain ("internal enum " ++ Vocabulary.accessibilityEnum) :=
    (isPlain_literal (by decide)).append (unbroken_literal (by decide))
  have hmembers := nested_code hcontents 2
  rw [List.map_map] at hmembers
  rw [hall]
  exact .block isPlain_namespaceHead (.block henum hmembers (.nil 1)) (.nil 0)

/-! ## The adapter -/

set_option maxRecDepth 2000 in
/-- By themselves the lines of the adapter are indented by four spaces a level. -/
theorem indentedBy_eventToObservableLines : IndentedBy (· * 4) eventToObservableLines := by
  unfold eventToObservableLines
  rw [IndentedBy]
  repeat refine levelRun_literal rfl ?_
  rfl

/-- They have a block of their own. -/
theorem exists_inner_eventToObservableLines :
    ∃ front line back, eventToObservableLines = front ++ line :: back ∧
      levelRun (· * 4) 0 front = some 1 ∧ line ≠ "" ∧ unindented line ≠ "\x7d" :=
  ⟨[_, _], _, _, rfl, levelRun_literal rfl (levelRun_literal rfl rfl), by decide,
    unindented_literal_ne_closing (by decide)⟩

theorem linesOf_eventToObservableEdits (options : EmitOptions) :
    (directives options).map (Line.code 0) ++ linesOf 0 false eventToObservableEdits =
      blockLines (directives options)
        ("namespace " ++ Vocabulary.attributeNamespace ++ ".Internal") eventToObservableLines := by
  have hline (line : String) :
      Edit.line? 1 (if line = "" then .blankLine else .addLine line) = some (inBlock line) := by
    rw [inBlock]
    split <;> rfl
  obtain ⟨atStart, hlines⟩ :=
    SourceBuffer.exists_linesOf_map hline eventToObservableLines true [.closeBlock]
  rw [blockLines, blockHead, List.append_assoc, List.append_assoc]
  exact congrArg (_ ++ _ :: _ :: ·) hlines

/-! ## Rules of the sources -/

def adapterName : String :=
  Vocabulary.attributeNamespace ++ "." ++ "EventToObservable" ++ ".g.cs"

/-- The rule for the levels of a source, at a width. -/
def rule (width : Nat) (source : GeneratedSource) : Nat → Nat :=
  if source.hintName = adapterName then insideBlock width (· * 4) else (· * width)

/-- A source of nested lines is indented by the width of the options. -/
theorem indentedBy_render (options : EmitOptions) (name : String) {edits : List Edit}
    (h : ∀ edit ∈ edits, edit.Lacks '\n') (hnested : Nested 0 (linesOf 0 false edits)) :
    IndentedBy (· * options.indentWidth.toNat)
      (options.lineEnding.split (render options name edits).sourceText) := by
  rw [split_render options name h, indentedBy_concat_empty_iff]
  exact ((nested_code (isPlain_directives options) 0).append hnested).indentedBy _

theorem split_adapter (options : EmitOptions) :
    options.lineEnding.split (render options "EventToObservable" eventToObservableEdits).sourceText =
      (blockLines (directives options) ("namespace " ++ Vocabulary.attributeNamespace ++ ".Internal")
        eventToObservableLines).map (Line.text options.indentWidth.toNat) ++ [""] := by
  rw [split_render options _ (lacks_eventToObservableEdits isControl_lineFeed),
    linesOf_eventToObservableEdits]

theorem isPlain_adapterHead :
    IsPlain ("namespace " ++ Vocabulary.attributeNamespace ++ ".Internal") :=
  isPlain_namespaceHead.append_literal (by decide)

theorem indentedBy_adapter (options : EmitOptions) :
    IndentedBy (insideBlock options.indentWidth.toNat (· * 4)) (options.lineEnding.split
      (render options "EventToObservable" eventToObservableEdits).sourceText) := by
  rw [split_adapter, indentedBy_concat_empty_iff]
  exact indentedBy_blockLines (isPlain_directives options) isPlain_adapterHead _
    indentedBy_eventToObservableLines

theorem indentedBy_width_adapter_iff (options : EmitOptions) :
    IndentedBy (· * options.indentWidth.toNat) (options.lineEnding.split
      (render options "EventToObservable" eventToObservableEdits).sourceText) ↔
        options.indentWidth.toNat = 4 := by
  have hown := indentedBy_eventToObservableLines
  obtain ⟨front, line, back, hlines, hfront, hline, hclosing⟩ := exists_inner_eventToObservableLines
  rw [split_adapter, indentedBy_concat_empty_iff, hlines]
  rw [hlines] at hown
  exact indentedBy_blockLines_iff (isPlain_directives options) isPlain_adapterHead _ hown hfront
    hline hclosing

/-- In every support source all blocks are closed, and each line stands where the rule of the source
puts it. This is the width of the options a level for all sources but the adapter, and for the adapter
only if the width is the one that its lines bring. -/
theorem indentedBy_of_mem_all {options : EmitOptions} {source : GeneratedSource}
    (h : source ∈ all options) :
    let width := options.indentWidth.toNat
    let lines := options.lineEnding.split source.sourceText
    IndentedBy (rule width source) lines ∧
      (IndentedBy (· * width) lines ↔ source.hintName ≠ adapterName ∨ width = 4) := by
  intro width lines
  have hplain (hname : source.hintName ≠ adapterName) (hlines : IndentedBy (· * width) lines) :
      IndentedBy (rule width source) lines ∧
        (IndentedBy (· * width) lines ↔ source.hintName ≠ adapterName ∨ width = 4) := by
    rw [rule, if_neg hname]
    exact ⟨hlines, fun _ => .inl hname, fun _ => hlines⟩
  simp only [all, List.mem_cons, List.not_mem_nil, or_false] at h
  rcases h with rfl | rfl | rfl
  · have hname : Vocabulary.attributeNamespace ++ "." ++ "Attributes" ++ ".g.cs" ≠ adapterName := by
      decide
    exact hplain hname (indentedBy_render options _
      (lacks_attributesEdits isControl_lineFeed) nested_attributesEdits)
  · have hname : Vocabulary.attributeNamespace ++ "." ++ Vocabulary.accessibilityEnum ++ ".g.cs" ≠
        adapterName := by
      decide
    exact hplain hname (indentedBy_render options _
      (lacks_accessibilityEnumEdits isControl_lineFeed) nested_accessibilityEnumEdits)
  · have hname : (render options "EventToObservable" eventToObservableEdits).hintName =
        adapterName := rfl
    rw [rule, if_pos hname]
    refine ⟨indentedBy_adapter options, (indentedBy_width_adapter_iff options).trans ?_⟩
    exact ⟨.inr, fun h => h.resolve_left (not_not_intro hname)⟩

/-- Options with a width of two spaces. -/
def narrow : EmitOptions where
  lineEnding := .lf
  indentWidth := 2

theorem indentedBy_of_mem_all_narrow :
    let adapter := render narrow "EventToObservable" eventToObservableEdits
    let attributes := render narrow "Attributes" attributesEdits
    adapter ∈ all narrow ∧
      IndentedBy (insideBlock 2 (· * 4)) (LineEnding.lf.split adapter.sourceText) ∧
      ¬ IndentedBy (· * 2) (LineEnding.lf.split adapter.sourceText) ∧
    attributes ∈ all narrow ∧ IndentedBy (· * 2) (LineEnding.lf.split attributes.sourceText) := by
  intro adapter attributes
  have hadapter : adapter ∈ all narrow := by simp [all, adapter]
  have hattributes : attributes ∈ all narrow := by simp [all, attributes]
  have hname : attributes.hintName ≠ adapterName := by decide
  obtain ⟨hrule, hwidth⟩ := indentedBy_of_mem_all hadapter
  refine ⟨hadapter, hrule, fun h => ?_, hattributes, ?_⟩
  · have hchoice := hwidth.mp h
    exact hchoice.elim (fun hname => hname rfl) (by decide)
  · exact (indentedBy_of_mem_all hattributes).2.mpr (.inl hname)

/-- The adapter is not indented by two spaces a level. -/
theorem not_indentedBy_narrow :
    ¬ ∀ source ∈ all narrow, IndentedBy (· * 2) (LineEnding.lf.split source.sourceText) := by
  intro h
  have hwidth := (indentedBy_width_adapter_iff narrow).mp (h _ (by simp [all]))
  exact absurd hwidth (by decide)

end SupportSource

end ChangeNotification
