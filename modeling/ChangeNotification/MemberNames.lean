import ChangeNotification.Phase
import ChangeNotification.Text.Lowercase

/-!
The identifiers of the members generated for a property.
-/

namespace ChangeNotification

/-- The names that derive from a property's name. -/
structure MemberNames where
  property : String

namespace MemberNames

/-- The backing field: the property with its first character in lower case. -/
def field (names : MemberNames) : String := "__" ++ Text.lowercaseFirst names.property

/-- The accessor and both setters. -/
def method (names : MemberNames) : String := "_" ++ names.property

/-- The static field with the arguments of the interface's event. -/
def eventArgs (names : MemberNames) (phase : Phase) : String :=
  "__Property" ++ phase.suffix ++ "EventArgs_" ++ names.property

def event (names : MemberNames) (phase : Phase) : String := names.property ++ phase.suffix

/-- The factory of the observable that adapts the event. -/
def observable (names : MemberNames) (phase : Phase) : String :=
  names.event phase ++ "AsObservable"

end MemberNames

end ChangeNotification
