import ChangeNotification.Definition.Basic
import ChangeNotification.Json.Record

/-!
The JSON form of definitions. A container carries its kind beside its own fields.
-/

namespace ChangeNotification

namespace TypeDeclaration

/-- The fields of a declaration after its container. -/
def fieldsToJson (declaration : TypeDeclaration) : List (String × Json) :=
  [("name", .string declaration.name),
    ("isValueType", .bool declaration.isValueType),
    ("isNullableAnnotated", .bool declaration.isNullableAnnotated),
    ("genericTypeArgs", Json.ofTexts declaration.genericArguments)]

def fieldNames : List String :=
  ["container", "name", "isValueType", "isNullableAnnotated", "genericTypeArgs"]

def ofRecord? {j : Json} (r : j.Record) : Option TypeDeclaration := do
  let name ← r.required "name" (·.val.text?)
  let isValueType ← r.required "isValueType" (·.val.bool?)
  let isNullableAnnotated ← r.required "isNullableAnnotated" (·.val.bool?)
  let genericArguments ← r.required "genericTypeArgs" (·.val.texts?)
  return ⟨name, isValueType, isNullableAnnotated, genericArguments⟩

end TypeDeclaration

namespace TypeContainer

inductive Kind where
  | inNamespace | inType
  deriving DecidableEq, Repr

/-- The kind a container is marked with. Inside another container it may also be given by its
number. -/
def Kind.ofJson? (enclosed : Bool) : Json → Option Kind
  | .string "namespace" => some inNamespace
  | .string "type" => some inType
  | .int 0 => if enclosed then some inNamespace else none
  | .int 1 => if enclosed then some inType else none
  | _ => none

def toJson : TypeContainer → Json
  | inNamespace name => .object [("kind", .string "namespace"), ("name", .string name)]
  | inType outer declaration =>
      .object (("kind", .string "type") :: ("container", outer.toJson) :: declaration.fieldsToJson)

def ofJson? (enclosed : Bool) (j : Json) : Option TypeContainer := do
  match ← Kind.ofJson? enclosed (← j.tag? "kind") with
  | .inNamespace => do
      let r ← j.record? ["kind", "name"]
      return .inNamespace (← r.required "name" (·.val.text?))
  | .inType => do
      let r ← j.record? ("kind" :: TypeDeclaration.fieldNames)
      let outer ← r.required "container" fun v => ofJson? true v.val
      return .inType outer (← TypeDeclaration.ofRecord? r)
termination_by sizeOf j
decreasing_by exact v.2

end TypeContainer

namespace TypeDefinition

def toJson (definition : TypeDefinition) : Json :=
  .object (("container", definition.container.toJson) ::
    definition.toTypeDeclaration.fieldsToJson)

def ofJson? (j : Json) : Option TypeDefinition := do
  let r ← j.record? TypeDeclaration.fieldNames
  let container ← r.required "container" fun v => TypeContainer.ofJson? false v.val
  return { (← TypeDeclaration.ofRecord? r) with container }

end TypeDefinition

end ChangeNotification
