import ChangeNotification.SourceBuffer.Memo

/-!
Sessions in which a buffer is edited and read in turns.
-/

namespace ChangeNotification

namespace SourceBuffer

inductive Request where
  | edit (edit : Edit)
  | read
  deriving DecidableEq, Repr

/-- What can be seen of a buffer after a request; a read shows the text. -/
structure Observation where
  depth : Nat
  size : Nat
  read : Option String
  deriving DecidableEq, Repr

end SourceBuffer

open SourceBuffer (Request Observation)

namespace MemoBuffer

def observe (buffer : MemoBuffer) (read : Option String) : Observation :=
  ⟨buffer.depth, buffer.text.utf8ByteSize, read⟩

/-- What is seen after a request, and the buffer then. -/
def serve (buffer : MemoBuffer) : Request → Observation × MemoBuffer
  | .edit edit =>
      let next := buffer.apply edit
      (next.observe none, next)
  | .read =>
      let (text, next) := buffer.sourceText
      (next.observe (some text), next)

/-- What is seen after each request, and the buffer at the end. -/
def session (buffer : MemoBuffer) : List Request → List Observation × MemoBuffer
  | [] => ([], buffer)
  | request :: rest =>
      let (seen, next) := buffer.serve request
      let (others, last) := next.session rest
      (seen :: others, last)

end MemoBuffer

/-- A session that begins with a buffer of which nothing was read. -/
def SourceBuffer.session (buffer : SourceBuffer) (requests : List Request) :
    List Observation × MemoBuffer :=
  MemoBuffer.session { buffer with } requests

end ChangeNotification
