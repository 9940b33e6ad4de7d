/-!
The defects for which a property is not resolved.
-/

namespace ChangeNotification

/-- Why a property cannot be resolved. Attributes are named as in the facts. -/
inductive ResolveError where
  | notAnnotated (property : String)
  | emptyPropertyName (containingType : String)
  | unexpectedConstructorArguments (attributeName property : String) (count : Nat)
  | unknownAccessibility (attributeName property value : String)
  | invalidAttributeArgument (attributeName property detail : String)
  deriving DecidableEq, Repr, Inhabited

def ResolveError.message : ResolveError → String
  | notAnnotated property =>
      "Property '" ++ property ++ "' does not carry the notification support attribute"
  | emptyPropertyName containingType =>
      "Property name is empty (declared on '" ++ containingType ++ "')"
  | unexpectedConstructorArguments attributeName property count =>
      "Internal error: attribute '" ++ attributeName ++ "' on '" ++ property ++ "' has " ++
        toString count ++ " constructor arguments"
  | unknownAccessibility attributeName property value =>
      "Unknown notification accessibility " ++ value ++ " in attribute '" ++ attributeName ++
        "' on '" ++ property ++ "'"
  | invalidAttributeArgument attributeName property detail =>
      "Invalid argument for attribute '" ++ attributeName ++ "' on '" ++ property ++ "': " ++ detail

end ChangeNotification
