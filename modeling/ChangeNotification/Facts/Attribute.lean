import ChangeNotification.OrderedMap
import ChangeNotification.Symbol.Basic

/-!
Attributes on a property, with the literals they were given.
-/

namespace ChangeNotification

/-- A literal argument of an attribute. -/
inductive AttributeValue where
  | bool (b : Bool)
  | int (n : Int64)
  | text (s : String)
  deriving DecidableEq, Repr, Inhabited

/-- The literal in a message; nothing inside a text is escaped. -/
def AttributeValue.display : AttributeValue → String
  | bool true => "true"
  | bool false => "false"
  | int n => toString n.toInt
  | text s => "\"" ++ s ++ "\""

/-- The application of an attribute class. -/
structure Attribute where
  className : String
  constructorArguments : List AttributeValue := []
  namedArguments : OrderedMap String AttributeValue := ∅
  deriving DecidableEq

/-- Whether the attribute is of a class; the mark of the root namespace does not count. -/
def Attribute.isOf (attr : Attribute) (className : String) : Bool :=
  unrooted attr.className = unrooted className

end ChangeNotification
