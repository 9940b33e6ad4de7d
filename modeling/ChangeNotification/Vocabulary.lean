import ChangeNotification.Facts.Attribute
import ChangeNotification.Facts.Property
import ChangeNotification.Phase

/-!
The names that are recognised in facts and declared by the support sources.
-/

namespace ChangeNotification

namespace Vocabulary

def attributeNamespace : String := "PropNotify"

/-- The named argument of the enabling attribute that asks for the event arguments alone. -/
def eventArgsOnlyArgument : String := "EventArgsOnly"

def accessibilityEnum : String := "NotificationAccessibility"

def qualifiedAccessibilityEnum : String := "PropNotify.NotificationAccessibility"

def eventToObservableType : String := "global::PropNotify.Internal.EventToObservable"

/-- The interface that tells of changes in a phase. -/
def notifyInterface : Phase → String
  | .changing => "System.ComponentModel.INotifyPropertyChanging"
  | .changed => "System.ComponentModel.INotifyPropertyChanged"

end Vocabulary

/-! ### The literals of the accessibility enumeration -/

/-- A member of the accessibility enumeration: leave the choice open, or ask for a level. -/
inductive AccessibilityChoice where
  | byDefault
  | level (accessibility : Accessibility)
  deriving DecidableEq, Repr, Inhabited

namespace AccessibilityChoice

/-- The members in the order of their values, from zero on. -/
def all : List AccessibilityChoice :=
  [.byDefault, .level .publicAccess, .level .protectedAccess, .level .internalAccess,
    .level .protectedInternal, .level .privateProtected, .level .privateAccess]

def memberName : AccessibilityChoice → String
  | .byDefault => "Default"
  | .level .publicAccess => "Public"
  | .level .protectedAccess => "Protected"
  | .level .internalAccess => "Internal"
  | .level .protectedInternal => "ProtectedInternal"
  | .level .privateProtected => "PrivateProtected"
  | .level .privateAccess => "Private"

def ofValue? (value : Int) : Option AccessibilityChoice :=
  if 0 ≤ value then all[value.toNat]? else none

def ofMemberName? (name : String) : Option AccessibilityChoice :=
  all.find? (·.memberName = name)

theorem mem_all (choice : AccessibilityChoice) : choice ∈ all := by
  rcases choice with _ | (_ | _ | _ | _ | _ | _) <;> simp [all]

end AccessibilityChoice

/-! ### The roles of attributes -/

/-- What a recognised attribute asks for. -/
inductive AttributeRole where
  | enable
  | event (phase : Phase)
  | observable (phase : Phase)
  | redirect (phase : Phase)
  deriving DecidableEq, Repr, Inhabited

namespace AttributeRole

def all : List AttributeRole :=
  [.enable, .event .changed, .event .changing, .observable .changed, .observable .changing,
    .redirect .changed, .redirect .changing]

/-- The name of the role's attribute class within its namespace. -/
def simpleName : AttributeRole → String
  | enable => "EnableNotificationSupportAttribute"
  | event phase => phase.suffix ++ "EventAttribute"
  | observable phase => phase.suffix ++ "ObservableAttribute"
  | redirect phase => "Explicit" ++ phase.suffix ++ "EventAttribute"

def className (role : AttributeRole) : String :=
  Vocabulary.attributeNamespace ++ "." ++ role.simpleName

end AttributeRole

/-- The role of an attribute, if it is recognised. -/
def Attribute.role? (attr : Attribute) : Option AttributeRole :=
  AttributeRole.all.find? (attr.isOf ·.className)

end ChangeNotification
