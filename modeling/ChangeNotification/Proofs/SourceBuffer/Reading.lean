import ChangeNotification.SourceBuffer.Session
import Mathlib.Data.List.DropRight

/-! # Reading a buffer

Whatever writes into a buffer drops the text that was kept of it, so that what is kept is always the
text itself. Reads then show the edits before them and leave no trace. -/

namespace ChangeNotification

open SourceBuffer (Edit Request Observation)

/-! ## Kept texts -/

namespace MemoBuffer

/-- What is kept of the text is the text. -/
def IsCoherent (buffer : MemoBuffer) : Prop :=
  ∀ text, buffer.memo = some text → text = buffer.text

variable {buffer : MemoBuffer}

theorem isCoherent_of_memo_none (h : buffer.memo = none) : buffer.IsCoherent := by
  intro text htext
  rw [h] at htext
  cases htext

/-- An edit does to the text what it does where nothing is kept. -/
theorem toSourceBuffer_apply (buffer : MemoBuffer) (edit : Edit) :
    (buffer.apply edit).toSourceBuffer = buffer.toSourceBuffer.apply edit := by
  have hline (buffer : MemoBuffer) (s : String) :
      (buffer.addLine s).toSourceBuffer = buffer.toSourceBuffer.addLine s := by
    simp [addLine, endLine, add, addIndent, append, SourceBuffer.addLine, SourceBuffer.endLine,
      SourceBuffer.add, SourceBuffer.addIndent, SourceBuffer.append, String.append_assoc]
  have hblank : buffer.blankLine.toSourceBuffer = buffer.toSourceBuffer.blankLine := by
    simp [blankLine, add, append, SourceBuffer.blankLine, SourceBuffer.endLine, SourceBuffer.add,
      SourceBuffer.append]
  have hbrace (buffer : MemoBuffer) :
      buffer.openBrace.toSourceBuffer = buffer.toSourceBuffer.openBrace := by
    rw [SourceBuffer.openBrace, ← hline]
    rfl
  cases edit with
  | add | addIndent | indent | dedent | clear => rfl
  | endLine s =>
      simp [apply, endLine, add, append, SourceBuffer.apply, SourceBuffer.endLine, SourceBuffer.add,
        SourceBuffer.append, String.append_assoc]
  | addLine s => exact hline buffer s
  | blankLine => exact hblank
  | separate =>
      simp only [apply, separate, SourceBuffer.apply, SourceBuffer.separate]
      split
      · rfl
      · exact hblank
  | openBlock head =>
      have hhead := hbrace (buffer.addLine head)
      rw [hline] at hhead
      exact hhead
  | openBrace => exact hbrace buffer
  | closeBlock => exact hline buffer.dedent "\x7d"

/-- What an edit leaves of the kept text fits to what it makes of the text. -/
theorem IsCoherent.apply (h : buffer.IsCoherent) (edit : Edit) :
    (buffer.apply edit).IsCoherent := by
  cases edit with
  | indent | dedent => exact h
  | separate =>
      change (if buffer.atBlockStart then buffer else buffer.blankLine).IsCoherent
      split
      · exact h
      · exact isCoherent_of_memo_none rfl
  | add | addIndent | endLine | addLine | blankLine | openBlock | openBrace | closeBlock | clear =>
      exact isCoherent_of_memo_none rfl

/-- A read shows the text and changes nothing but what is kept. -/
theorem IsCoherent.sourceText (h : buffer.IsCoherent) :
    buffer.sourceText.1 = buffer.text ∧
      buffer.sourceText.2.toSourceBuffer = buffer.toSourceBuffer ∧
        buffer.sourceText.2.IsCoherent := by
  unfold MemoBuffer.sourceText
  split
  · rename_i text htext
    exact ⟨h text htext, rfl, h⟩
  · refine ⟨rfl, rfl, fun text htext => ?_⟩
    exact (Option.some.inj htext).symm

end MemoBuffer

/-! ## Edits behind a clear -/

namespace SourceBuffer

/-- The edits behind the last one that clears the buffer. -/
def sinceClear (edits : List Edit) : List Edit :=
  edits.rtakeWhile (· ≠ .clear)

variable {indentWidth : Nat} {lineEnding : LineEnding}

/-- No edit changes how lines look. -/
theorem layout_apply (buffer : SourceBuffer) (edit : Edit) :
    (buffer.apply edit).indentWidth = buffer.indentWidth ∧
      (buffer.apply edit).lineEnding = buffer.lineEnding := by
  cases edit with
  | separate =>
      simp only [apply, separate]
      split <;> exact ⟨rfl, rfl⟩
  | _ => exact ⟨rfl, rfl⟩

theorem layout_applyAll (buffer : SourceBuffer) (edits : List Edit) :
    (buffer.applyAll edits).indentWidth = buffer.indentWidth ∧
      (buffer.applyAll edits).lineEnding = buffer.lineEnding := by
  induction edits generalizing buffer with
  | nil => exact ⟨rfl, rfl⟩
  | cons edit edits ih =>
      obtain ⟨hwidth, hending⟩ := layout_apply buffer edit
      obtain ⟨hwidth', hending'⟩ := ih (buffer.apply edit)
      exact ⟨hwidth'.trans hwidth, hending'.trans hending⟩

theorem clear_applyAll_fresh (edits : List Edit) :
    ((fresh indentWidth lineEnding).applyAll edits).clear = fresh indentWidth lineEnding := by
  obtain ⟨hwidth, hending⟩ := layout_applyAll (fresh indentWidth lineEnding) edits
  rw [clear, hwidth, hending]
  rfl

/-- What stands before the last clear does not show. -/
theorem applyAll_sinceClear (edits : List Edit) :
    (fresh indentWidth lineEnding).applyAll (sinceClear edits) =
      (fresh indentWidth lineEnding).applyAll edits := by
  induction edits using List.reverseRecOn with
  | nil => rfl
  | append_singleton edits edit ih =>
      rw [applyAll_append]
      by_cases hclear : edit = .clear
      · subst hclear
        rw [sinceClear, List.rtakeWhile_concat_neg _ _ _ (by simp)]
        exact (clear_applyAll_fresh edits).symm
      · rw [sinceClear, List.rtakeWhile_concat_pos _ _ _ (by simpa using hclear), applyAll_append]
        exact congrArg (applyAll · [edit]) ih

end SourceBuffer

/-! ## Sessions -/

namespace SourceBuffer

def Request.edit? : Request → Option Edit
  | .edit change => some change
  | .read => none

/-- The requests without the reads. -/
def editsOf (requests : List Request) : List Edit :=
  requests.filterMap Request.edit?

theorem editsOf_append (requests more : List Request) :
    editsOf (requests ++ more) = editsOf requests ++ editsOf more :=
  List.filterMap_append

theorem editsOf_map_edit (edits : List Edit) : editsOf (edits.map .edit) = edits := by
  rw [editsOf, List.filterMap_map]
  exact List.filterMap_some

end SourceBuffer

namespace MemoBuffer

open SourceBuffer (editsOf)

variable {buffer : MemoBuffer}

/-- After a request the buffer has taken the edit, if it is one. -/
theorem IsCoherent.serve (h : buffer.IsCoherent) (request : Request) :
    (buffer.serve request).2.IsCoherent ∧
      (buffer.serve request).2.toSourceBuffer =
        buffer.toSourceBuffer.applyAll (editsOf [request]) := by
  cases request with
  | edit edit => exact ⟨h.apply edit, toSourceBuffer_apply buffer edit⟩
  | read =>
      obtain ⟨-, hbuffer, hcoherent⟩ := h.sourceText
      exact ⟨hcoherent, hbuffer⟩

theorem IsCoherent.session (h : buffer.IsCoherent) (requests : List Request) :
    (buffer.session requests).2.IsCoherent ∧
      (buffer.session requests).2.toSourceBuffer =
        buffer.toSourceBuffer.applyAll (editsOf requests) := by
  induction requests generalizing buffer with
  | nil => exact ⟨h, rfl⟩
  | cons request requests ih =>
      obtain ⟨hcoherent, hbuffer⟩ := h.serve request
      obtain ⟨hcoherent', hbuffer'⟩ := ih hcoherent
      refine ⟨hcoherent', hbuffer'.trans ?_⟩
      rw [hbuffer, ← SourceBuffer.applyAll_append, ← SourceBuffer.editsOf_append]
      rfl

/-- A request is seen after the requests before it were served. -/
theorem getElem?_session (before : List Request) (request : Request) (after : List Request) :
    (buffer.session (before ++ request :: after)).1[before.length]? =
      some ((buffer.session before).2.serve request).1 := by
  induction before generalizing buffer with
  | nil => rfl
  | cons first before ih => exact ih

theorem session_concat (before : List Request) (request : Request) :
    (buffer.session (before ++ [request])).2 = ((buffer.session before).2.serve request).2 := by
  induction before generalizing buffer with
  | nil => rfl
  | cons first before ih => exact ih

/-- What is seen of a buffer is how deep and how long it is then. -/
theorem serve_seen (buffer : MemoBuffer) (request : Request) :
    (buffer.serve request).1.depth = (buffer.serve request).2.depth ∧
      (buffer.serve request).1.size = (buffer.serve request).2.text.utf8ByteSize := by
  cases request <;> exact ⟨rfl, rfl⟩

end MemoBuffer

namespace SourceBuffer

/-- A session in which reads show what was written since the last clear, and nothing is different
from the session without the reads. -/
structure ReadsCoherently (indentWidth : Nat) (lineEnding : LineEnding)
    (requests : List Request) : Prop where
  read : ∀ before after, requests = before ++ .read :: after →
    ((fresh indentWidth lineEnding).session requests).1[before.length]?.bind (·.read) =
      some ((fresh indentWidth lineEnding).applyAll (sinceClear (editsOf before))).text
  last : ((fresh indentWidth lineEnding).session requests).2.sourceText.1 =
    ((fresh indentWidth lineEnding).session requests).2.intoString
  unread : ∀ before request after, requests = before ++ request :: after →
    let reached := ((fresh indentWidth lineEnding).session (before ++ [request])).2
    let unread := ((fresh indentWidth lineEnding).session
      ((editsOf (before ++ [request])).map .edit)).2
    reached.toSourceBuffer = unread.toSourceBuffer ∧
      ((fresh indentWidth lineEnding).session requests).1[before.length]?.map
        (fun seen => (seen.depth, seen.size)) = some (unread.depth, unread.text.utf8ByteSize)

/-- Reads can be put anywhere among the edits of a buffer. -/
theorem session_readsCoherently (indentWidth : Nat) (lineEnding : LineEnding)
    (requests : List Request) : ReadsCoherently indentWidth lineEnding requests := by
  have hfresh : MemoBuffer.IsCoherent { fresh indentWidth lineEnding with } :=
    MemoBuffer.isCoherent_of_memo_none rfl
  refine ⟨?_, ?_, ?_⟩
  · rintro before after rfl
    obtain ⟨hcoherent, hbuffer⟩ := hfresh.session before
    rw [session, MemoBuffer.getElem?_session, Option.bind_some]
    have htext := hcoherent.sourceText.1
    rw [hbuffer] at htext
    rw [applyAll_sinceClear]
    exact congrArg some htext
  · exact (hfresh.session requests).1.sourceText.1
  · rintro before request after rfl
    intro reached unread
    have hreached : reached.toSourceBuffer = unread.toSourceBuffer := by
      refine (hfresh.session _).2.trans ((hfresh.session _).2.trans ?_).symm
      rw [editsOf_map_edit]
    refine ⟨hreached, ?_⟩
    obtain ⟨hdepth, hsize⟩ :=
      (MemoBuffer.session { fresh indentWidth lineEnding with } before).2.serve_seen request
    rw [session, MemoBuffer.getElem?_session, Option.map_some, hdepth, hsize,
      ← MemoBuffer.session_concat]
    rw [← hreached]
    rfl

example : ((fresh 4 .lf).session
    [.edit (.addLine "first"), .read, .edit (.addLine "second"), .read, .edit .clear, .read]).1.map
      (·.read) = [none, some "first\n", none, some "first\nsecond\n", none, some ""] := by
  decide +kernel

end SourceBuffer

end ChangeNotification
