import ChangeNotification.Resolution.Error
import ChangeNotification.Vocabulary

/-!
The accessibility that an attribute asks for, given as a member of the accessibility enumeration
by its value or by its name.
-/

namespace ChangeNotification

/-- The member name in a spelling of a literal: the name of the enumeration, with the dots after
it, may stand before it. -/
def accessibilityLiteral (spelled : String) : String :=
  let name := unrooted spelled
  let afterEnum? := (Text.afterLead? Vocabulary.qualifiedAccessibilityEnum name).or
    (Text.afterLead? Vocabulary.accessibilityEnum name)
  match afterEnum? with
  | some rest => String.ofList (rest.toList.dropWhile (· = '.'))
  | none => name

/-- What an attribute of that class asks for. An attribute without arguments asks for the
default. -/
def Attribute.accessibilityChoice (attr : Attribute) (property : String) :
    Except ResolveError AccessibilityChoice :=
  let unknown (value : AttributeValue) : ResolveError :=
    .unknownAccessibility attr.className property value.display
  match attr.constructorArguments with
  | [] => .ok .byDefault
  | [.int n] =>
      match AccessibilityChoice.ofValue? n.toInt with
      | some choice => .ok choice
      | none => .error (unknown (.int n))
  | [.text s] =>
      match AccessibilityChoice.ofMemberName? (accessibilityLiteral s) with
      | some choice => .ok choice
      | none => .error (unknown (.text s))
  | [.bool b] =>
      .error (.invalidAttributeArgument attr.className property
        ("expected a notification accessibility, found " ++ (AttributeValue.bool b).display))
  | arguments =>
      .error (.unexpectedConstructorArguments attr.className property arguments.length)

/-- The accessibility that an attribute asks for; an open choice is made by `default`. -/
def Attribute.accessibility (attr : Attribute) (property : String)
    (default : Option Accessibility) : Except ResolveError (Option Accessibility) := do
  match ← attr.accessibilityChoice property with
  | .byDefault => return default
  | .level accessibility => return some accessibility

end ChangeNotification
