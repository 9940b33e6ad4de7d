/-!
JSON values as a reader sees them: members keep their order and their repetitions.
-/

namespace ChangeNotification

/-- A JSON value. Some values have no use here beyond being well-formed, and `other` stands for
all of them: numbers that are not written as integers, strings with an unpaired surrogate,
objects with such a string for a name, and containers that are nested too deep. -/
inductive Json where
  | null
  | bool (b : Bool)
  | int (n : Int)
  | other
  | string (s : String)
  | array (elements : List Json)
  | object (members : List (String × Json))
  deriving BEq, Repr, Inhabited

namespace Json

def ofNat (n : Nat) : Json := .int n

/-- The form of a string that may have no text. -/
def ofText? : Option String → Json
  | some s => .string s
  | none => .other

/-- The object of members whose names may have no text. -/
def ofMembers (members : List (Option String × Json)) : Json :=
  match members.mapM fun (name, v) => name.map (·, v) with
  | some members => .object members
  | none => .other

def ofTexts (texts : List String) : Json := .array (texts.map .string)

/-- The form of a value that may be absent. -/
def ofOption {α : Type} (toJson : α → Json) : Option α → Json
  | some a => toJson a
  | none => null

end Json

end ChangeNotification
