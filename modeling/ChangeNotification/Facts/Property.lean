import ChangeNotification.Facts.Attribute

/-!
What a front end knows about a property: its names and types, its accessibility, its attributes
and the places where it is declared.
-/

namespace ChangeNotification

/-- Who may use a member. -/
inductive Accessibility where
  | publicAccess | protectedAccess | protectedInternal | privateProtected | internalAccess
  | privateAccess
  deriving DecidableEq, Repr, Inhabited

/-- The modifiers of a declaration. -/
def Accessibility.keyword : Accessibility → String
  | publicAccess => "public"
  | protectedAccess => "protected"
  | protectedInternal => "protected internal"
  | privateProtected => "private protected"
  | internalAccess => "internal"
  | privateAccess => "private"

/-- A place in a source file. -/
structure SourceLocation where
  path : String
  line : UInt32
  column : UInt32
  deriving DecidableEq, Repr, Inhabited

def SourceLocation.display (location : SourceLocation) : String :=
  location.path ++ ":" ++ toString location.line.toNat ++ ":" ++ toString location.column.toNat

/-- One property declaration. The accessor has an accessibility only where it declares one. -/
structure PropertyFacts where
  name : String
  containingType : TypeSymbol
  propertyType : TypeSymbol
  accessibility : Accessibility := .publicAccess
  accessorAccessibility : Option Accessibility := none
  attributes : List Attribute := []
  declarationSites : List SourceLocation := []
  deriving DecidableEq

namespace PropertyFacts

def effectiveAccessibility (facts : PropertyFacts) : Accessibility :=
  facts.accessorAccessibility.getD facts.accessibility

def findAttribute? (facts : PropertyFacts) (className : String) : Option Attribute :=
  facts.attributes.find? (·.isOf className)

end PropertyFacts

/-- The properties of one file. -/
structure FactBundle where
  properties : List PropertyFacts := []
  deriving DecidableEq

end ChangeNotification
