import ChangeNotification.Symbol.Basic

/-!
Type declarations and the containers around them, as far as a partial declaration repeats them.
-/

namespace ChangeNotification

/-- One level of a possibly nested, possibly generic type. -/
structure TypeDeclaration where
  name : String
  isValueType : Bool := false
  isNullableAnnotated : Bool := false
  genericArguments : List String := []
  deriving DecidableEq, Repr, Inhabited

namespace TypeDeclaration

def isGeneric (declaration : TypeDeclaration) : Bool :=
  !declaration.genericArguments.isEmpty

/-- `Name` or `Name<T, U>`, as the declaration is headed. -/
def declaredName (declaration : TypeDeclaration) : String :=
  if declaration.isGeneric then
    declaration.name ++ "<" ++ String.intercalate ", " declaration.genericArguments ++ ">"
  else declaration.name

/-- `Name`, or the name with its arguments between braces, as in names of units. -/
def hintSegment (declaration : TypeDeclaration) : String :=
  if declaration.isGeneric then
    declaration.name ++ "\x7b" ++ String.intercalate "_" declaration.genericArguments ++ "\x7d"
  else declaration.name

end TypeDeclaration

/-- What stands around a declaration: a namespace, or a type that is declared in a container. -/
inductive TypeContainer where
  | inNamespace (name : String)
  | inType (outer : TypeContainer) (declaration : TypeDeclaration)
  deriving DecidableEq, Repr, Inhabited

namespace TypeContainer

/-- The name of the namespace around it all; empty for the global one. -/
def namespaceName : TypeContainer → String
  | inNamespace name => name
  | inType outer _ => outer.namespaceName

/-- The declarations in between, outermost first. -/
def declarations : TypeContainer → List TypeDeclaration
  | inNamespace _ => []
  | inType outer declaration => outer.declarations ++ [declaration]

end TypeContainer

/-- A type declaration in its place. -/
structure TypeDefinition extends TypeDeclaration where
  container : TypeContainer
  deriving DecidableEq, Repr, Inhabited

namespace TypeDefinition

/-- The declarations from the outermost type down to this one. -/
def chain (definition : TypeDefinition) : List TypeDeclaration :=
  definition.container.declarations ++ [definition.toTypeDeclaration]

def namespaceName (definition : TypeDefinition) : String :=
  definition.container.namespaceName

/-- The global namespace has no name and no block of its own. -/
def isGlobal (definition : TypeDefinition) : Bool :=
  definition.namespaceName.isEmpty

/-- A class of that name, nested in this type. -/
def nested (definition : TypeDefinition) (name : String) : TypeDefinition :=
  { name, container := .inType definition.container definition.toTypeDeclaration }

/-- The dotted path of namespace and declared names. -/
def qualifiedName (definition : TypeDefinition) : String :=
  let types := String.intercalate "." (definition.chain.map TypeDeclaration.declaredName)
  if definition.isGlobal then types else definition.namespaceName ++ "." ++ types

end TypeDefinition

/-! ### Definitions of symbols -/

/-- The level of a declaration that a symbol stands for. -/
def TypeSymbol.declaration (symbol : TypeSymbol) : TypeDeclaration where
  name := symbol.name
  isValueType := symbol.kind.isValue
  isNullableAnnotated := symbol.nullability = .annotated
  genericArguments := symbol.typeArguments.map TypeSymbol.name

mutual

/-- The containers around a symbol. The namespace of a nested symbol does not count. -/
def TypeSymbol.container : TypeSymbol → TypeContainer
  | ⟨_, _, namespaceSegments, containingType, _, _, _, _, _⟩ =>
      containerOf namespaceSegments containingType
termination_by structural symbol => symbol

def TypeSymbol.containerOf (namespaceSegments : List String) : Option TypeSymbol → TypeContainer
  | some outer => .inType outer.container outer.declaration
  | none => .inNamespace (String.intercalate "." namespaceSegments)
termination_by structural outer => outer

end

/-- The definition that the partial declarations of a symbol repeat. -/
def TypeSymbol.definition (symbol : TypeSymbol) : TypeDefinition :=
  { symbol.declaration with container := symbol.container }

end ChangeNotification
