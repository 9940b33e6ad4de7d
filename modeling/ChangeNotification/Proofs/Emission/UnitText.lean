import ChangeNotification.Proofs.Emission.Code
import ChangeNotification.Proofs.Emission.Run
import ChangeNotification.Proofs.SourceBuffer.Writing

/-! # The text of a unit

An emission that is not cancelled prints the declarations of its properties, inside the blocks of
the containing type. -/

namespace ChangeNotification

open Layout

/-! ## Declarations -/

namespace PropertyDraft

theorem edits_writeStatements (draft : PropertyDraft) (statements : List Statement) :
    Action.edits (draft.writeStatements statements) =
      ((draft.instructions statements).map Code.Instruction.text).map .addLine := by
  have htext : (draft.instructions statements).map Code.Instruction.text =
      statements.map (Statement.line draft.memberNames draft.propertyType) := by
    simp [instructions, Statement.text_instruction]
  rw [htext, List.map_map, writeStatements, Action.edits_map_write]
  rfl

theorem edits_setterBody (draft : PropertyDraft) (reports : List Diagnostic)
    (comparison : Statement) :
    Action.edits (draft.setterBody reports comparison) =
      ((draft.instructions (draft.guardStatements ++ [comparison])).map
        Code.Instruction.text).map .addLine ++ .separate ::
        ((draft.instructions draft.changeStatements).map Code.Instruction.text).map .addLine := by
  simp [setterBody, edits_writeStatements, instructions]

theorem edits_memberNotNullLines (draft : PropertyDraft) :
    Action.edits draft.memberNotNullLines =
      (if draft.requiresNullGuard then
        ["[global::System.Diagnostics.CodeAnalysis.MemberNotNull(nameof(" ++
          draft.memberNames.field ++ "))]"]
      else []).map .addLine := by
  unfold memberNotNullLines
  split <;> rfl

end PropertyDraft

/-- The blank line in front of a declaration stands at no depth. -/
theorem Code.deeper_separation (start : Bool) (depth : Nat) :
    (if start then [] else [Line.blank]).map (Line.deeper depth) =
      if start then [] else [.blank] := by
  split <;> rfl

/-- A declaration on one line is added below what is there. -/
theorem SourceBuffer.applyAll_declaration {declaration : Code.Declaration}
    (hline : declaration.isSetter = false) (buffer : SourceBuffer) :
    buffer.applyAll [.separate, .addLine declaration.text] =
      buffer.writeLines ((Code.separated buffer.atBlockStart [declaration]).map
        (Line.deeper buffer.depth)) := by
  have hlines : declaration.lines = [.code 0 declaration.text] := by
    cases declaration <;> first | rfl | contradiction
  simp [Code.separated, Code.deeper_separation, hlines, Line.deeper]

/-- A setter is added below what is there, its attributes first. -/
theorem SourceBuffer.applyAll_setter (attributes : List String) (name parameters : String)
    {checks : List Code.Instruction} (hchecks : checks ≠ []) (change : List Code.Instruction)
    (buffer : SourceBuffer) :
    let setter := Code.Declaration.setter attributes name parameters checks change
    buffer.applyAll (Edit.separate :: (attributes.map Edit.addLine ++ Edit.openBlock setter.text ::
        ((checks.map Code.Instruction.text).map Edit.addLine ++ Edit.separate ::
          (change.map Code.Instruction.text).map Edit.addLine ++ [Edit.closeBlock]))) =
      buffer.writeLines ((Code.separated buffer.atBlockStart [setter]).map
        (Line.deeper buffer.depth)) := by
  intro setter
  have hne : checks.map Code.Instruction.text ≠ [] := by simpa using hchecks
  rw [applyAll_cons, apply_separate, applyAll_paragraphs _ _ hne, writeLines_writeLines]
  simp [setter, Code.separated, Code.deeper_separation, Code.Declaration.lines, Line.deeper,
    Function.comp_def, Nat.add_comm]

namespace PropertyDraft

/-- A member is written as its declaration, at the depth of the buffer. -/
theorem applyAll_memberActions (draft : PropertyDraft) (member : Member) (buffer : SourceBuffer) :
    buffer.applyAll (Action.edits (draft.memberActions member)) =
      buffer.writeLines ((Code.separated buffer.atBlockStart [draft.declaration member]).map
        (Line.deeper buffer.depth)) := by
  have htext := draft.text_declaration member
  cases member with
  | eventArgs | redirect | event | field | accessor =>
      rw [← SourceBuffer.applyAll_declaration rfl, htext]
      rfl
  | observable phase accessibility =>
      rw [← SourceBuffer.applyAll_declaration (by cases phase <;> rfl), htext]
      rfl
  | setter =>
      rw [declaration, ← SourceBuffer.applyAll_setter _ _ _ (by simp [instructions])]
      rw [declaration] at htext
      simp [memberActions, edits_memberNotNullLines, edits_setterBody, htext]
  | comparerSetter =>
      rw [declaration, ← SourceBuffer.applyAll_setter _ _ _ (by simp [instructions])]
      rw [declaration] at htext
      simp [memberActions, edits_setterBody, htext]

/-- The checkpoints between groups of members leave no mark in the text. -/
theorem edits_bodyActions (draft : PropertyDraft) :
    Action.edits draft.bodyActions =
      draft.memberGroups.flatten.flatMap fun member =>
        Action.edits (draft.memberActions member) := by
  have hgroup (group : List Member) : Action.edits (group.flatMap draft.memberActions) =
      group.flatMap fun member => Action.edits (draft.memberActions member) := by
    induction group with
    | nil => rfl
    | cons member group ih => simp [ih]
  rw [bodyActions]
  induction draft.memberGroups with
  | nil => rfl
  | cons group groups ih => simp [hgroup, ih]

end PropertyDraft

/-! ## Bodies -/

/-- Edits that write declarations at whatever place they start. -/
def SourceBuffer.Writes (edits : List SourceBuffer.Edit) (declarations : List Code.Declaration) :
    Prop :=
  ∀ buffer : SourceBuffer, buffer.applyAll edits =
    buffer.writeLines ((Code.separated buffer.atBlockStart declarations).map
      (Line.deeper buffer.depth))

namespace SourceBuffer.Writes

theorem nil : Writes [] [] := fun buffer => by simp [Code.separated]

theorem append {edits more : List SourceBuffer.Edit} {declarations others : List Code.Declaration}
    (h : Writes edits declarations) (hmore : Writes more others) :
    Writes (edits ++ more) (declarations ++ others) := by
  intro buffer
  rw [applyAll_append, h, hmore, writeLines_writeLines, Code.separated_append]
  simp [writeLines, Code.isEmpty_separated]

end SourceBuffer.Writes

theorem PropertyDraft.writes_bodyActions (draft : PropertyDraft) :
    SourceBuffer.Writes (Action.edits draft.bodyActions) draft.declarations := by
  rw [edits_bodyActions, declarations]
  induction draft.memberGroups.flatten with
  | nil => exact .nil
  | cons member members ih =>
      have hmember : SourceBuffer.Writes (Action.edits (draft.memberActions member))
          [draft.declaration member] :=
        draft.applyAll_memberActions member
      rw [List.flatMap_cons, List.map_cons, ← List.singleton_append]
      exact hmember.append ih

/-- Several bodies are separated like the members of one. -/
theorem PropertyDescriptor.writes_flatMap_bodyActions (descriptors : List PropertyDescriptor) :
    SourceBuffer.Writes (Action.edits (descriptors.flatMap fun descriptor => descriptor.bodyActions))
      (descriptors.flatMap fun descriptor => descriptor.declarations) := by
  induction descriptors with
  | nil => exact .nil
  | cons descriptor descriptors ih =>
      rw [List.flatMap_cons, Action.edits_append]
      exact .append descriptor.toPropertyDraft.writes_bodyActions ih

/-! ## Units -/

namespace Emission

/-- The lines before all blocks. -/
def preamble (options : EmitOptions) : List String :=
  (if options.autoGeneratedHeader then [autoGeneratedHeader] else []) ++
    [nullableDirective, obsoleteWarningsDirective]

/-- The text of declarations within their type. -/
def unitText (options : EmitOptions) (definition : TypeDefinition)
    (declarations : List Code.Declaration) : String :=
  Line.document options.indentWidth.toNat options.lineEnding
    (enclose (preamble options) (blockHeads options definition) (Code.separated true declarations))

theorem preambleEdits_eq_map (options : EmitOptions) :
    preambleEdits options = (preamble options).map .addLine := by
  unfold preambleEdits headerEdits preamble
  split <;> rfl

theorem edits_unitActions (options : EmitOptions) (definition : TypeDefinition)
    (bodies : List Action) :
    Action.edits (unitActions options definition bodies) =
      (preamble options).map SourceBuffer.Edit.addLine ++
        (blockHeads options definition).map SourceBuffer.Edit.openBlock ++ Action.edits bodies ++
        List.replicate (blockHeads options definition).length SourceBuffer.Edit.closeBlock := by
  have hopening : Action.edits (openingActions options definition) =
      (blockHeads options definition).map .openBlock := by
    rw [openingActions]
    induction blockHeads options definition with
    | nil => rfl
    | cons head heads ih => simp [ih]
  have hclosing : Action.edits (closingActions options definition) =
      List.replicate (blockHeads options definition).length .closeBlock := by
    rw [closingActions]
    induction blockHeads options definition with
    | nil => rfl
    | cons head heads ih => simp [ih, List.replicate_succ]
  have hpreamble : Action.edits (preambleActions options) =
      (preamble options).map .addLine := by
    rw [preambleActions, preambleEdits_eq_map, List.map_map]
    exact Action.edits_map_write _ _
  simp [unitActions, hpreamble, hopening, hclosing]

theorem blockHeads_ne_nil (options : EmitOptions) (definition : TypeDefinition) :
    blockHeads options definition ≠ [] := by
  simp [blockHeads]

/-- The edits of a unit write the declarations of its bodies into the blocks of the type. -/
theorem text_unitActions (options : EmitOptions) (definition : TypeDefinition)
    {bodies : List Action} {declarations : List Code.Declaration}
    (h : SourceBuffer.Writes (Action.edits bodies) declarations) :
    (options.buffer.applyAll (Action.edits (unitActions options definition bodies))).text =
      unitText options definition declarations := by
  obtain ⟨outermost, others, hheads⟩ :=
    List.exists_cons_of_ne_nil (blockHeads_ne_nil options definition)
  simp only [edits_unitActions, SourceBuffer.applyAll_append, SourceBuffer.applyAll_addLines,
    SourceBuffer.applyAll_openBlocks, h _]
  rw [SourceBuffer.applyAll_closeBlocks _ 0]
  · simp [SourceBuffer.leaveTo, SourceBuffer.writeLines, EmitOptions.buffer, unitText, enclose,
      hheads, String.append_assoc]
  · simp [SourceBuffer.writeLines, EmitOptions.buffer]

end Emission

open Emission

/-- What the emission of a property returns, and what its host has heard. -/
theorem emitProperty_of_neverCancels {host : Host} (h : host.NeverCancels) (options : EmitOptions)
    (descriptor : PropertyDescriptor) :
    emitProperty options descriptor host =
      (.ok ⟨propertyHintName descriptor.toPropertyDraft,
          unitText options descriptor.containingType descriptor.declarations⟩,
        (Action.diagnostics (unitActions options descriptor.containingType
          descriptor.bodyActions)).foldl Host.hear host) := by
  rw [emitProperty, runUnit_of_neverCancels h, text_unitActions _ _ descriptor.toPropertyDraft.writes_bodyActions]

/-- What the emission of properties of one type returns, and what its host has heard. -/
theorem emitType_of_neverCancels {host : Host} (h : host.NeverCancels) (options : EmitOptions)
    (first : PropertyDescriptor) {rest : List PropertyDescriptor}
    (hsame : ∀ descriptor ∈ rest, descriptor.containingType = first.containingType) :
    emitType options (first :: rest) host =
      (.ok ⟨typeHintName first.containingType,
          unitText options first.containingType
            ((first :: rest).flatMap fun descriptor => descriptor.declarations)⟩,
        (Action.diagnostics (unitActions options first.containingType
          ((first :: rest).flatMap fun descriptor => descriptor.bodyActions))).foldl
            Host.hear host) := by
  rw [emitType_eq_runUnit hsame, runUnit_of_neverCancels h,
    text_unitActions _ _ (PropertyDescriptor.writes_flatMap_bodyActions (first :: rest))]

end ChangeNotification
