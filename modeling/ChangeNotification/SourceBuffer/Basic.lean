/-!
A text that grows line by line, with the depth of nesting at which its lines stand. Blocks are
pairs of braces on lines of their own.
-/

namespace ChangeNotification

/-- What ends a line; the native ending is a line feed. -/
inductive LineEnding where
  | native | lf | crlf
  deriving DecidableEq, Repr, Inhabited

def LineEnding.text : LineEnding → String
  | native | lf => "\n"
  | crlf => "\r\n"

/-- The text written so far, and where the next line stands. -/
structure SourceBuffer where
  indentWidth : Nat
  lineEnding : LineEnding
  text : String := ""
  depth : Nat := 0
  atBlockStart : Bool := true
  deriving DecidableEq, Repr, Inhabited

namespace SourceBuffer

/-- A buffer in which nothing is written yet. -/
def fresh (indentWidth : Nat) (lineEnding : LineEnding) : SourceBuffer :=
  { indentWidth, lineEnding }

def append (buffer : SourceBuffer) (s : String) : SourceBuffer :=
  { buffer with text := buffer.text ++ s }

/-- Goes on with the current line. -/
def add (buffer : SourceBuffer) (s : String) : SourceBuffer :=
  { buffer.append s with atBlockStart := false }

/-- The spaces in front of a line. -/
def indentation (buffer : SourceBuffer) : String :=
  String.ofList (List.replicate (buffer.depth * buffer.indentWidth) ' ')

/-- Starts a line. -/
def addIndent (buffer : SourceBuffer) : SourceBuffer :=
  buffer.append buffer.indentation

/-- Ends the current line with `s`. -/
def endLine (buffer : SourceBuffer) (s : String) : SourceBuffer :=
  buffer.add (s ++ buffer.lineEnding.text)

def addLine (buffer : SourceBuffer) (s : String) : SourceBuffer :=
  buffer.addIndent.endLine s

/-- A line without anything, indentation included. -/
def blankLine (buffer : SourceBuffer) : SourceBuffer :=
  buffer.endLine ""

/-- A blank line before a member, but for the first of a block. -/
def separate (buffer : SourceBuffer) : SourceBuffer :=
  if buffer.atBlockStart then buffer else buffer.blankLine

def indent (buffer : SourceBuffer) : SourceBuffer :=
  { buffer with depth := buffer.depth + 1 }

def dedent (buffer : SourceBuffer) : SourceBuffer :=
  { buffer with depth := buffer.depth - 1 }

def openBrace (buffer : SourceBuffer) : SourceBuffer :=
  { (buffer.addLine "\x7b").indent with atBlockStart := true }

/-- A block under its head. -/
def openBlock (buffer : SourceBuffer) (head : String) : SourceBuffer :=
  (buffer.addLine head).openBrace

def closeBlock (buffer : SourceBuffer) : SourceBuffer :=
  buffer.dedent.addLine "\x7d"

/-- The buffer as it was in the beginning. -/
def clear (buffer : SourceBuffer) : SourceBuffer :=
  { buffer with text := "", depth := 0, atBlockStart := true }

/-! ### Edits as data -/

/-- One change of a buffer. -/
inductive Edit where
  | add (s : String)
  | addIndent
  | endLine (s : String)
  | addLine (s : String)
  | blankLine
  | separate
  | openBlock (head : String)
  | openBrace
  | closeBlock
  | indent
  | dedent
  | clear
  deriving DecidableEq, Repr

def apply (buffer : SourceBuffer) : Edit → SourceBuffer
  | .add s => buffer.add s
  | .addIndent => buffer.addIndent
  | .endLine s => buffer.endLine s
  | .addLine s => buffer.addLine s
  | .blankLine => buffer.blankLine
  | .separate => buffer.separate
  | .openBlock head => buffer.openBlock head
  | .openBrace => buffer.openBrace
  | .closeBlock => buffer.closeBlock
  | .indent => buffer.indent
  | .dedent => buffer.dedent
  | .clear => buffer.clear

def applyAll (buffer : SourceBuffer) (edits : List Edit) : SourceBuffer :=
  edits.foldl apply buffer

@[simp] theorem applyAll_nil (buffer : SourceBuffer) : buffer.applyAll [] = buffer := rfl

@[simp] theorem applyAll_cons (buffer : SourceBuffer) (edit : Edit) (edits : List Edit) :
    buffer.applyAll (edit :: edits) = (buffer.apply edit).applyAll edits := rfl

theorem applyAll_append (buffer : SourceBuffer) (edits more : List Edit) :
    buffer.applyAll (edits ++ more) = (buffer.applyAll edits).applyAll more :=
  List.foldl_append

end SourceBuffer

end ChangeNotification
