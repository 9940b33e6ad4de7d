import ChangeNotification.Json.Basic
import ChangeNotification.Json.Token

/-!
Reading a JSON text. The reader takes one token after the other and keeps the containers that
are still open on a stack, latest first. Containers may be nested to any depth, but those beyond
a bound have no value.
-/

namespace ChangeNotification.Json

/-- A container that is still open, with what it holds so far, latest first. An object waits
for the value of the member `name`. -/
inductive Frame where
  | array (elements : List Json)
  | object (members : List (Option String × Json)) (name : Option String)

/-- What the reader expects next, inside the open containers. -/
inductive Reader where
  | value (stack : List Frame)
  | firstElement (stack : List Frame)
  | firstName (stack : List Frame)
  | nextName (stack : List Frame) (members : List (Option String × Json))
  | colon (stack : List Frame) (members : List (Option String × Json)) (name : Option String)
  | done (stack : List Frame) (value : Json)

/-- The number of containers, one in the other, that have values. -/
def maxDepth : Nat := 127

namespace Reader

/-- The step at the end of a container. -/
def close (stack : List Frame) (container : Json) : Reader :=
  .done stack (if stack.length < maxDepth then container else .other)

/-- The step at a place where a value has to stand. -/
def begin (stack : List Frame) : Token → Option Reader
  | .null => some (.done stack .null)
  | .bool b => some (.done stack (.bool b))
  | .int n => some (.done stack (.int n))
  | .otherNumber => some (.done stack .other)
  | .string text => some (.done stack (.ofText? text))
  | .openArray => some (.firstElement stack)
  | .openObject => some (.firstName stack)
  | .closeArray | .closeObject | .colon | .comma => none

def step : Reader → Token → Option Reader
  | .value stack, token => begin stack token
  | .firstElement stack, .closeArray => some (close stack (.array []))
  | .firstElement stack, token => begin (.array [] :: stack) token
  | .firstName stack, .closeObject => some (close stack (.object []))
  | .firstName stack, .string name => some (.colon stack [] name)
  | .nextName stack members, .string name => some (.colon stack members name)
  | .colon stack members name, .colon => some (.value (.object members name :: stack))
  | .done (.array elements :: stack) v, .comma => some (.value (.array (v :: elements) :: stack))
  | .done (.array elements :: stack) v, .closeArray =>
      some (close stack (.array (v :: elements).reverse))
  | .done (.object members name :: stack) v, .comma => some (.nextName stack ((name, v) :: members))
  | .done (.object members name :: stack) v, .closeObject =>
      some (close stack (.ofMembers ((name, v) :: members).reverse))
  | _, _ => none

def run (reader : Reader) (tokens : List Token) : Option Reader :=
  tokens.foldlM step reader

/-- The value read, if the text is over. -/
def result? : Reader → Option Json
  | .done [] v => some v
  | _ => none

end Reader

def ofTokens? (tokens : List Token) : Option Json :=
  ((Reader.value []).run tokens).bind Reader.result?

/-- The value of a JSON text. -/
def parse? (text : String) : Option Json :=
  (scan text.toList).bind ofTokens?

end ChangeNotification.Json
