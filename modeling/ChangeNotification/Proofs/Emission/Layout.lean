import ChangeNotification.Proofs.Emission.Characters
import ChangeNotification.Proofs.Emission.Reports
import ChangeNotification.Proofs.Layout.Bare

/-! # Options are about layout

Under all options an emission gives the same name, the same reports and the same code. The options
decide on the first line, on the comment behind the head of the type, on the width of the indentation
and on what ends the lines. -/

namespace ChangeNotification

open Layout Emission
open SourceBuffer (Edit linesOf)
open Text (IsControl isControl_lineFeed isControl_return)

/-! ## Code of a text -/

/-- The lines of a text that was laid out by the options, without their indentation and without the
line that marks the text as generated. -/
def EmitOptions.codeLines (options : EmitOptions) (text : String) : List String :=
  let lines := (options.lineEnding.split text).map unindented
  if options.autoGeneratedHeader then lines.tail else lines

/-- The characters that line endings are made of. -/
def Text.breaks : List Char :=
  ['\n', '\r']

theorem EmitOptions.text_applyAll (options : EmitOptions) {c : Char} {edits : List Edit}
    (h : ∀ edit ∈ edits, edit.Lacks c) :
    (options.buffer.applyAll edits).text =
      Line.document options.indentWidth.toNat options.lineEnding (linesOf 0 true edits) := by
  have htext := SourceBuffer.text_applyAll (fun edit hedit => (h edit hedit).isWhole) options.buffer
  rw [htext]
  exact String.empty_append

theorem lacks_headerEdits {c : Char} (hc : IsControl c) (options : EmitOptions) :
    ∀ edit ∈ headerEdits options, Edit.Lacks c edit := by
  have hheader : Edit.Lacks c (.addLine autoGeneratedHeader) := hc.lacks_literal (by decide)
  unfold headerEdits
  split
  · exact List.forall_mem_singleton.mpr hheader
  · simp

/-- The code below the header is the same for all options. -/
theorem EmitOptions.codeLines_headed (options : EmitOptions) {s : String} {edits : List Edit}
    (hs : Text.Lacks '\n' s) (h : ∀ edit ∈ edits, edit.Lacks '\n') :
    options.codeLines (options.buffer.applyAll (headerEdits options ++ .addLine s :: edits)).text =
      (Line.code 0 s :: linesOf 0 false edits).map Line.bare ++ [""] := by
  have hall : ∀ edit ∈ headerEdits options ++ .addLine s :: edits, edit.Lacks '\n' := by
    rw [List.forall_mem_append, List.forall_mem_cons]
    exact ⟨lacks_headerEdits isControl_lineFeed options, hs, h⟩
  have hlines := SourceBuffer.lacks_linesOf isControl_lineFeed hall 0 true options.indentWidth.toNat
  rw [codeLines, options.text_applyAll hall, Line.map_unindented_split hlines, headerEdits]
  cases options.autoGeneratedHeader <;> rfl

/-- Where lines end in other ways, the text is the same but for its line ends. -/
theorem EmitOptions.text_crlf (options : EmitOptions) {ending : LineEnding} (hending : ending ≠ .crlf)
    {edits : List Edit} (h : ∀ c ∈ Text.breaks, ∀ edit ∈ edits, edit.Lacks c) :
    let textOf (lineEnding : LineEnding) :=
      ({ options with lineEnding }.buffer.applyAll edits).text
    textOf .crlf = Text.withReturns (textOf ending) ∧
      Text.HasPairedBreaks (textOf .crlf).toList := by
  intro textOf
  have hfeed := h '\n' (by simp [Text.breaks])
  have hreturn := h '\r' (by simp [Text.breaks])
  have htext (lineEnding : LineEnding) : textOf lineEnding =
      Line.document options.indentWidth.toNat lineEnding (linesOf 0 true edits) :=
    EmitOptions.text_applyAll _ hfeed
  have hlines {c : Char} (hc : IsControl c) (h : ∀ edit ∈ edits, edit.Lacks c) :=
    SourceBuffer.lacks_linesOf hc h 0 true options.indentWidth.toNat
  have hcrlf : textOf .crlf = Text.withReturns (textOf ending) := by
    rw [htext, htext]
    exact Line.document_crlf hending (hlines isControl_lineFeed hfeed)
  refine ⟨hcrlf, hcrlf ▸ Text.hasPairedBreaks_withReturns ?_⟩
  rw [htext]
  exact Line.return_not_mem_document hending (hlines isControl_return hreturn)

/-! ## The comment behind a head -/

namespace Emission

/-- What stands behind the head of the designated type, where the options ask for it. -/
def mark : String := " " ++ markerComment

/-- A line without the comment at its end. -/
def unmarked (line : String) : String :=
  if mark.toList.isSuffixOf line.toList then
    String.ofList (line.toList.take (line.toList.length - mark.toList.length))
  else line

theorem unmarked_append_mark (head : String) : unmarked (head ++ mark) = head := by
  have hmarked : mark.toList <:+ (head ++ mark).toList := by
    rw [String.toList_append]
    exact List.suffix_append _ _
  rw [unmarked, if_pos (List.isSuffixOf_iff_suffix.mpr hmarked), String.toList_append,
    List.length_append, Nat.add_sub_cancel, List.take_left, String.ofList_toList]

theorem mark_eq :
    mark = " " ++ "//" ++ " This is implementation class by PropNotify" ++ "." := by
  simp only [mark, markerComment, String.reduceAppend]

theorem slashes_infix_mark : ['/', '/'] <:+: mark.toList := by
  rw [mark_eq]
  simp only [String.toList_append, List.append_assoc]
  exact ⟨_, _, List.append_assoc _ _ _⟩

theorem dot_suffix_mark : ['.'] <:+ mark.toList := by
  rw [mark_eq, String.toList_append]
  exact List.suffix_append _ _

/-- Two of a character stand in what follows a text without it, if they stand in the whole. -/
theorem infix_of_infix_append {c : Char} {s t : List Char} (hs : c ∉ s)
    (h : [c, c] <:+: s ++ t) : [c, c] <:+: t := by
  obtain ⟨front, back, h⟩ := h
  rw [List.append_assoc] at h
  rcases List.append_eq_append_iff.mp h with ⟨rest, hrest, ht⟩ | ⟨rest, hrest, ht⟩
  · cases rest with
    | nil => exact ⟨[], back, by simpa using ht⟩
    | cons d rest =>
        obtain ⟨rfl, -⟩ := List.cons.inj ht
        exact absurd (by simp [hrest]) hs
  · exact ⟨rest, back, by rw [ht, List.append_assoc]⟩

/-- A head has no comment of its own, unless the name of the type has one. -/
theorem unmarked_declarationHead {declaration : TypeDeclaration}
    (h : ¬ ['/', '/'] <:+: declaration.name.toList) :
    unmarked (declarationHead declaration) = declarationHead declaration := by
  refine if_neg fun hmarked => ?_
  rw [List.isSuffixOf_iff_suffix] at hmarked
  cases hgeneric : declaration.isGeneric with
  | true =>
      -- Type arguments end in a bracket, which the comment does not end in.
      have hhead : declarationHead declaration = "partial " ++
          (if declaration.isValueType then "struct" else "class") ++ " " ++ (declaration.name ++
            "<" ++ String.intercalate ", " declaration.genericArguments) ++ ">" := by
        simp [declarationHead, TypeDeclaration.declaredName, hgeneric, String.append_assoc]
      have hlast : (declarationHead declaration).toList.getLast? = some '>' := by
        rw [hhead, String.toList_append]
        exact List.getLast?_concat
      have hdot := List.singleton_suffix_iff_getLast?_eq_some.mp (dot_suffix_mark.trans hmarked)
      rw [hlast] at hdot
      cases hdot
  | false =>
      have hhead : (declarationHead declaration).toList =
          ("partial " ++ (if declaration.isValueType then "struct" else "class") ++ " ").toList ++
            declaration.name.toList := by
        simp [declarationHead, TypeDeclaration.declaredName, hgeneric]
      have hkeyword : '/' ∉ ("partial " ++ (if declaration.isValueType then "struct" else "class") ++
          " ").toList := by
        split <;> decide
      rw [hhead] at hmarked
      exact h (infix_of_infix_append hkeyword (slashes_infix_mark.trans hmarked.isInfix))

end Emission

/-! ## Units -/

namespace Emission

/-- The heads of the blocks around the designated type. -/
def outerHeads (definition : TypeDefinition) : List String :=
  (if definition.isGlobal then [] else ["namespace " ++ definition.namespaceName]) ++
    definition.container.declarations.map declarationHead

/-- The place of the designated type's head in the code of a unit: behind two directives, and behind
a head and a brace for each block around the type. -/
def headPlace (definition : TypeDefinition) : Nat :=
  2 + 2 * (outerHeads definition).length

theorem blockHeads_eq (options : EmitOptions) (definition : TypeDefinition) :
    blockHeads options definition = outerHeads definition ++
      [declarationHead definition.toTypeDeclaration ++ if options.markerComment then mark else ""] :=
  rfl

/-- The code of a unit, without the comment behind the head of the designated type. -/
def unmarkedLines (options : EmitOptions) (definition : TypeDefinition) (text : String) :
    List String :=
  (options.codeLines text).modify (headPlace definition) unmarked

end Emission

theorem modify_append_cons {α : Type} (front : List α) (item : α) (back : List α) (f : α → α) :
    (front ++ item :: back).modify front.length f = front ++ f item :: back :=
  List.modifyTailIdx_add (List.modifyHead f) 0 front (item :: back)

namespace Emission

/-- The edits of a unit below its first directive, with the head of the designated type. -/
def editsBelow (definition : TypeDefinition) (head : String) (bodies : List Action) : List Edit :=
  .addLine obsoleteWarningsDirective ::
    ((outerHeads definition ++ [head]).map Edit.openBlock ++
      (Action.edits bodies ++
        List.replicate ((outerHeads definition).length + 1) Edit.closeBlock))

theorem edits_unitActions_eq (options : EmitOptions) (definition : TypeDefinition)
    (bodies : List Action) :
    Action.edits (unitActions options definition bodies) =
      headerEdits options ++ .addLine nullableDirective ::
        editsBelow definition (declarationHead definition.toTypeDeclaration ++
          if options.markerComment then mark else "") bodies := by
  rw [edits_unitActions, ← preambleEdits_eq_map, preambleEdits, blockHeads_eq]
  simp [editsBelow]

/-- The code before the head of the designated type. -/
def codeBefore (definition : TypeDefinition) : List String :=
  nullableDirective :: obsoleteWarningsDirective ::
    (openings 0 (outerHeads definition)).map Line.bare

/-- The code behind the head of the designated type. -/
def codeBehind (definition : TypeDefinition) (bodies : List Action) : List String :=
  "\x7b" :: (linesOf ((outerHeads definition).length + 1) true (Action.edits bodies ++
    List.replicate ((outerHeads definition).length + 1) Edit.closeBlock)).map Line.bare ++ [""]

theorem length_codeBefore (definition : TypeDefinition) :
    (codeBefore definition).length = headPlace definition := by
  simp [codeBefore, headPlace, length_openings]
  omega

theorem linesOf_editsBelow (definition : TypeDefinition) (head : String) (bodies : List Action) :
    linesOf 0 false (editsBelow definition head bodies) =
      .code 0 obsoleteWarningsDirective :: (openings 0 (outerHeads definition) ++
        .code (outerHeads definition).length head ::
          .code (outerHeads definition).length "\x7b" ::
            linesOf ((outerHeads definition).length + 1) true (Action.edits bodies ++
              List.replicate ((outerHeads definition).length + 1) Edit.closeBlock)) := by
  have hne : outerHeads definition ++ [head] ≠ [] := by simp
  have hblocks := SourceBuffer.linesOf_openBlocks 0 false hne (Action.edits bodies ++
    List.replicate ((outerHeads definition).length + 1) Edit.closeBlock)
  rw [openings_concat, List.length_append, List.length_singleton, Nat.zero_add] at hblocks
  exact congrArg (List.cons _) (hblocks.trans (by simp))

theorem map_bare_linesOf_editsBelow (definition : TypeDefinition) {head : String}
    (hhead : head.toList.head? ≠ some ' ') (bodies : List Action) :
    (Line.code 0 nullableDirective :: linesOf 0 false (editsBelow definition head bodies)).map
        Line.bare ++ [""] =
      codeBefore definition ++ head :: codeBehind definition bodies := by
  have hdirectives : nullableDirective.toList.head? ≠ some ' ' ∧
      obsoleteWarningsDirective.toList.head? ≠ some ' ' := by decide
  have hbrace : "\x7b".toList.head? ≠ some ' ' := by decide
  rw [linesOf_editsBelow]
  simp only [List.map_cons, List.map_append, Line.bare_code hdirectives.1,
    Line.bare_code hdirectives.2, Line.bare_code hhead, Line.bare_code hbrace]
  simp [codeBefore, codeBehind]

/-- The code of a unit is the same for all options. -/
theorem unmarkedLines_unitActions (options : EmitOptions) {definition : TypeDefinition}
    (h : definition.Lacks '\n') (hname : ¬ ['/', '/'] <:+: definition.name.toList)
    {bodies : List Action} (hbodies : ∀ edit ∈ Action.edits bodies, Edit.Lacks '\n' edit) :
    unmarkedLines options definition
        (options.buffer.applyAll (Action.edits (unitActions options definition bodies))).text =
      codeBefore definition ++
        declarationHead definition.toTypeDeclaration :: codeBehind definition bodies := by
  have hall := lacks_unitActions options h isControl_lineFeed hbodies
  rw [edits_unitActions_eq] at hall ⊢
  generalize hcomment : (if options.markerComment then mark else "") = comment at hall ⊢
  rw [List.forall_mem_append, List.forall_mem_cons] at hall
  have hbegins : (declarationHead definition.toTypeDeclaration ++ comment).toList.head? ≠
      some ' ' := by
    simp [declarationHead]
  have hunmarked : unmarked (declarationHead definition.toTypeDeclaration ++ comment) =
      declarationHead definition.toTypeDeclaration := by
    cases hmarker : options.markerComment with
    | true =>
        rw [hmarker, if_pos rfl] at hcomment
        rw [← hcomment, unmarked_append_mark]
    | false =>
        rw [hmarker, if_neg Bool.false_ne_true] at hcomment
        rw [← hcomment, String.append_empty, unmarked_declarationHead hname]
  rw [unmarkedLines, options.codeLines_headed hall.2.1 hall.2.2,
    map_bare_linesOf_editsBelow definition hbegins, ← length_codeBefore, modify_append_cons,
    hunmarked]

/-- An emission on which the options have no influence but in the layout: its name, the host after it
with all reports, and the code of its text are the same for all of them. Of the line endings nothing
but the ends of the lines depends. -/
structure VariesInLayout (definition : TypeDefinition)
    (emit : EmitOptions → Except EmitError GeneratedSource × Host) : Prop where
  same : ∃ hintName after lines, lines[headPlace definition]? =
      some (declarationHead definition.toTypeDeclaration) ∧
    ∀ options, ∃ text, emit options = (.ok ⟨hintName, text⟩, after) ∧
      unmarkedLines options definition text = lines
  crlf : ∀ (options : EmitOptions) (ending : LineEnding), ending ≠ .crlf → ∃ hintName text,
    (emit { options with lineEnding := ending }).1 = .ok ⟨hintName, text⟩ ∧
      (emit { options with lineEnding := .crlf }).1 = .ok ⟨hintName, Text.withReturns text⟩ ∧
        Text.HasPairedBreaks (Text.withReturns text).toList

theorem isControl_of_mem_breaks {c : Char} (h : c ∈ Text.breaks) : IsControl c := by
  rcases List.mem_cons.mp h with rfl | h
  · exact isControl_lineFeed
  · rw [List.mem_singleton.mp h]
    exact isControl_return

theorem variesInLayout_runUnit {host : Host} (hhost : host.NeverCancels) (hintName : String)
    {definition : TypeDefinition} (h : ∀ c ∈ Text.breaks, definition.Lacks c)
    (hname : ¬ ['/', '/'] <:+: definition.name.toList) {bodies : List Action}
    (hbodies : ∀ c ∈ Text.breaks, ∀ edit ∈ Action.edits bodies, edit.Lacks c) :
    VariesInLayout definition fun options =>
      runUnit options hintName (unitActions options definition bodies) host where
  same := by
    have hfeed : '\n' ∈ Text.breaks := by simp [Text.breaks]
    refine ⟨hintName, (Action.diagnostics bodies).foldl Host.hear host, codeBefore definition ++
      declarationHead definition.toTypeDeclaration :: codeBehind definition bodies, ?_,
      fun options => ⟨_, ?_, unmarkedLines_unitActions options (h _ hfeed) hname (hbodies _ hfeed)⟩⟩
    · rw [← length_codeBefore, List.getElem?_append_right (Nat.le_refl _), Nat.sub_self]
      rfl
    · rw [runUnit_of_neverCancels hhost, diagnostics_unitActions]
  crlf options ending hending := by
    have hedits : ∀ c ∈ Text.breaks,
        ∀ edit ∈ Action.edits (unitActions options definition bodies), edit.Lacks c := by
      intro c hc
      exact lacks_unitActions options (h c hc) (isControl_of_mem_breaks hc) (hbodies c hc)
    obtain ⟨hcrlf, hpaired⟩ := options.text_crlf hending hedits
    refine ⟨hintName, _, ?_, ?_, hcrlf ▸ hpaired⟩
    · rw [runUnit_of_neverCancels hhost]
      rfl
    · rw [runUnit_of_neverCancels hhost, ← hcrlf]
      rfl

end Emission

/-! ## Support sources -/

namespace SupportSource

/-- The code of a support source is the same for all options. -/
theorem codeLines_render (options : EmitOptions) (name : String) {edits : List Edit}
    (h : ∀ edit ∈ edits, edit.Lacks '\n') :
    options.codeLines (render options name edits).sourceText =
      (Line.code 0 nullableDirective :: linesOf 0 false edits).map Line.bare ++ [""] := by
  have hdirective : Text.Lacks '\n' nullableDirective := isControl_lineFeed.lacks_literal (by decide)
  rw [← options.codeLines_headed hdirective h, render, List.append_assoc]
  rfl

theorem render_crlf (options : EmitOptions) {ending : LineEnding} (hending : ending ≠ .crlf)
    (name : String) {edits : List Edit}
    (h : ∀ c, IsControl c → ∀ edit ∈ edits, edit.Lacks c) :
    let source := render { options with lineEnding := ending } name edits
    let other := render { options with lineEnding := .crlf } name edits
    other = { source with sourceText := Text.withReturns source.sourceText } ∧
      Text.HasPairedBreaks other.sourceText.toList := by
  intro source other
  have hedits : ∀ c ∈ Text.breaks,
      ∀ edit ∈ headerEdits options ++ [.addLine nullableDirective] ++ edits, edit.Lacks c := by
    intro c hc
    have hc := isControl_of_mem_breaks hc
    have hdirective : Edit.Lacks c (.addLine nullableDirective) := hc.lacks_literal (by decide)
    simp only [List.forall_mem_append, List.forall_mem_singleton]
    exact ⟨⟨lacks_headerEdits hc options, hdirective⟩, h c hc⟩
  obtain ⟨hcrlf, hpaired⟩ := options.text_crlf hending hedits
  exact ⟨congrArg (GeneratedSource.mk _) hcrlf, hpaired⟩

end SupportSource

/-- The support sources have the same names and the same code for all options, and of the line endings
nothing but the ends of the lines depends. -/
structure SupportSource.VaryInLayout : Prop where
  same : ∀ options other : EmitOptions,
    (all options).map (fun source => (source.hintName, options.codeLines source.sourceText)) =
      (all other).map fun source => (source.hintName, other.codeLines source.sourceText)
  crlf : ∀ (options : EmitOptions) (ending : LineEnding), ending ≠ .crlf →
    all { options with lineEnding := .crlf } =
      (all { options with lineEnding := ending }).map (fun source =>
        { source with sourceText := Text.withReturns source.sourceText }) ∧
    ∀ source ∈ all { options with lineEnding := .crlf },
      Text.HasPairedBreaks source.sourceText.toList

theorem SupportSource.varyInLayout : VaryInLayout where
  same options other := by
    simp only [all, List.map_cons, List.map_nil,
      codeLines_render _ _ (lacks_attributesEdits isControl_lineFeed),
      codeLines_render _ _ (lacks_accessibilityEnumEdits isControl_lineFeed),
      codeLines_render _ _ (lacks_eventToObservableEdits isControl_lineFeed)]
    rfl
  crlf options ending hending := by
    have hattributes := render_crlf options hending "Attributes" fun _ => lacks_attributesEdits
    have henum := render_crlf options hending Vocabulary.accessibilityEnum
      fun _ => lacks_accessibilityEnumEdits
    have hadapter := render_crlf options hending "EventToObservable"
      fun _ => lacks_eventToObservableEdits
    refine ⟨?_, ?_⟩
    · rw [all, hattributes.1, henum.1, hadapter.1]
      rfl
    · simp only [all, List.forall_mem_cons]
      exact ⟨hattributes.2, henum.2, hadapter.2, by simp⟩

/-! ## Emissions -/

/-- Where nothing cancels, the options have no influence but in the layout on the units of a property
and of all properties of a type, if their names break no lines and the name of the type looks like no
comment. They have none on the support sources either. -/
theorem emit_variesInLayout {host : Host} (hhost : host.NeverCancels) (first : PropertyDescriptor)
    {rest : List PropertyDescriptor}
    (hsame : ∀ other ∈ rest, other.containingType = first.containingType)
    (h : ∀ descriptor ∈ first :: rest, ∀ c ∈ Text.breaks, descriptor.Lacks c)
    (hname : ¬ ['/', '/'] <:+: first.containingType.name.toList) :
    VariesInLayout first.containingType (emitProperty · first host) ∧
      VariesInLayout first.containingType (emitType · (first :: rest) host) ∧
      SupportSource.VaryInLayout := by
  have hfirst := h first (.head _)
  have htype : ∀ c ∈ Text.breaks, first.containingType.Lacks c := fun c hc =>
    (hfirst c hc).containingType
  refine ⟨?_, ?_, SupportSource.varyInLayout⟩
  · exact variesInLayout_runUnit hhost _ htype hname fun c hc =>
      (hfirst c hc).bodyActions (isControl_of_mem_breaks hc)
  · simp only [emitType_eq_runUnit hsame]
    exact variesInLayout_runUnit hhost _ htype hname fun c hc =>
      PropertyDescriptor.lacks_flatMap_bodyActions (fun descriptor hdescriptor =>
        h descriptor hdescriptor c hc) (isControl_of_mem_breaks hc)

theorem lacks_sample {c : Char} (hc : IsControl c) : PropertyDraft.sample.build.Lacks c where
  containingType :=
    { namespaceName := hc.lacks_literal (by decide)
      chain := by
        have hchain : PropertyDraft.sample.build.containingType.chain =
            [{ name := "Grid" },
              { name := "Cell", isValueType := true, genericArguments := ["T", "U"] }] := rfl
        rw [hchain, List.forall_mem_cons, List.forall_mem_singleton]
        refine ⟨⟨hc.lacks_literal (by decide), by simp⟩, ⟨hc.lacks_literal (by decide), ?_⟩⟩
        rw [List.forall_mem_cons, List.forall_mem_singleton]
        exact ⟨hc.lacks_literal (by decide), hc.lacks_literal (by decide)⟩ }
  propertyName := hc.lacks_literal (by decide)
  propertyType := hc.lacks_literal (by decide)
  redirects := by
    have hredirects : PropertyDraft.sample.build.redirects =
        [⟨"global::App.ITitled", "Retitled", .changed⟩] := rfl
    rw [hredirects, List.forall_mem_singleton]
    exact ⟨hc.lacks_literal (by decide), hc.lacks_literal (by decide)⟩

theorem emit_variesInLayout_sample :
    let definition := PropertyDraft.sample.containingType
    headPlace definition = 6 ∧
    VariesInLayout definition (emitProperty · PropertyDraft.sample.build {}) ∧
    VariesInLayout definition
      (emitType · [PropertyDraft.sample.build, PropertyDraft.sample.build] {}) ∧
    SupportSource.VaryInLayout := by
  have hsample : ∀ descriptor ∈ [PropertyDraft.sample.build, PropertyDraft.sample.build],
      ∀ c ∈ Text.breaks, descriptor.Lacks c := by
    rw [List.forall_mem_cons, List.forall_mem_singleton, and_self]
    exact fun c hc => lacks_sample (isControl_of_mem_breaks hc)
  exact ⟨by decide, emit_variesInLayout neverCancels_default PropertyDraft.sample.build (by simp)
    hsample (by decide)⟩

end ChangeNotification
