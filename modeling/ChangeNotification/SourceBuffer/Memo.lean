import ChangeNotification.SourceBuffer.Basic

/-!
Buffers that are read while they are written. The text that was read is kept for the next read until
something is written.
-/

namespace ChangeNotification

/-- A buffer with the text that was read last, unless something was written since. -/
structure MemoBuffer extends SourceBuffer where
  memo : Option String := none
  deriving DecidableEq, Repr, Inhabited

namespace MemoBuffer

open SourceBuffer (Edit)

/-! ### Writing -/

/-- Writes `s`. What was read before is no longer the text. -/
def append (buffer : MemoBuffer) (s : String) : MemoBuffer :=
  { buffer with text := buffer.text ++ s, memo := none }

def add (buffer : MemoBuffer) (s : String) : MemoBuffer :=
  { buffer.append s with atBlockStart := false }

def addIndent (buffer : MemoBuffer) : MemoBuffer :=
  buffer.append buffer.indentation

def endLine (buffer : MemoBuffer) (s : String) : MemoBuffer :=
  (buffer.append s).add buffer.lineEnding.text

def addLine (buffer : MemoBuffer) (s : String) : MemoBuffer :=
  buffer.addIndent.endLine s

def blankLine (buffer : MemoBuffer) : MemoBuffer :=
  buffer.add buffer.lineEnding.text

def separate (buffer : MemoBuffer) : MemoBuffer :=
  if buffer.atBlockStart then buffer else buffer.blankLine

/-- Goes one level deeper, which writes nothing. -/
def indent (buffer : MemoBuffer) : MemoBuffer :=
  { buffer with depth := buffer.depth + 1 }

def dedent (buffer : MemoBuffer) : MemoBuffer :=
  { buffer with depth := buffer.depth - 1 }

def openBrace (buffer : MemoBuffer) : MemoBuffer :=
  { (buffer.addLine "\x7b").indent with atBlockStart := true }

def openBlock (buffer : MemoBuffer) (head : String) : MemoBuffer :=
  (buffer.addLine head).openBrace

def closeBlock (buffer : MemoBuffer) : MemoBuffer :=
  buffer.dedent.addLine "\x7d"

def clear (buffer : MemoBuffer) : MemoBuffer :=
  { buffer with text := "", depth := 0, atBlockStart := true, memo := none }

def apply (buffer : MemoBuffer) : Edit → MemoBuffer
  | .add s => buffer.add s
  | .addIndent => buffer.addIndent
  | .endLine s => buffer.endLine s
  | .addLine s => buffer.addLine s
  | .blankLine => buffer.blankLine
  | .separate => buffer.separate
  | .openBlock head => buffer.openBlock head
  | .openBrace => buffer.openBrace
  | .closeBlock => buffer.closeBlock
  | .indent => buffer.indent
  | .dedent => buffer.dedent
  | .clear => buffer.clear

/-! ### Reading -/

/-- The text, as it was read last if it is kept. -/
def sourceText (buffer : MemoBuffer) : String × MemoBuffer :=
  match buffer.memo with
  | some text => (text, buffer)
  | none => (buffer.text, { buffer with memo := some buffer.text })

/-- The text of a buffer that is not needed any more. -/
def intoString (buffer : MemoBuffer) : String :=
  buffer.text

end MemoBuffer

end ChangeNotification
