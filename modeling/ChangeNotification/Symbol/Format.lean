import ChangeNotification.Json.Record
import ChangeNotification.Symbol.Basic

/-!
The JSON form of types.
-/

namespace ChangeNotification

namespace TypeKind

def jsonName : TypeKind → String
  | classType => "class"
  | structType => "struct"
  | interfaceType => "interface"
  | enumType => "enum"
  | delegateType => "delegate"
  | typeParameter => "typeParameter"
  | array => "array"

def ofJsonName? : String → Option TypeKind
  | "class" => some classType
  | "struct" => some structType
  | "interface" => some interfaceType
  | "enum" => some enumType
  | "delegate" => some delegateType
  | "typeParameter" => some typeParameter
  | "array" => some array
  | _ => none

def toJson (kind : TypeKind) : Json := .string kind.jsonName

def ofJson? (j : Json) : Option TypeKind := j.variant?.bind ofJsonName?

end TypeKind

namespace Nullability

def jsonName : Nullability → String
  | unknown => "Unknown"
  | notAnnotated => "NotAnnotated"
  | annotated => "Annotated"

def ofJsonName? : String → Option Nullability
  | "Unknown" => some unknown
  | "NotAnnotated" => some notAnnotated
  | "Annotated" => some annotated
  | _ => none

def toJson (nullability : Nullability) : Json := .string nullability.jsonName

def ofJson? (j : Json) : Option Nullability := j.variant?.bind ofJsonName?

end Nullability

namespace TypeSymbol

mutual

/-- Every field is written but an absent container and an absent element type. -/
def toJson : TypeSymbol → Json
  | ⟨name, kind, namespaceSegments, containingType, nullability, typeArguments, elementType,
      arrayRank, interfaces⟩ =>
      .object <|
        [("name", .string name), ("kind", kind.toJson),
          ("namespace", Json.ofTexts namespaceSegments)] ++
        memberToJson "containingType" containingType ++
        [("nullableAnnotation", nullability.toJson),
          ("typeArguments", .array (listToJson typeArguments))] ++
        memberToJson "elementType" elementType ++
        [("arrayRank", Json.ofNat arrayRank.toNat), ("allInterfaces", Json.ofTexts interfaces)]
termination_by structural symbol => symbol

def memberToJson (name : String) : Option TypeSymbol → List (String × Json)
  | some symbol => [(name, toJson symbol)]
  | none => []
termination_by structural symbol => symbol

def listToJson : List TypeSymbol → List Json
  | [] => []
  | symbol :: rest => toJson symbol :: listToJson rest
termination_by structural symbols => symbols

end

def fieldNames : List String :=
  ["name", "kind", "namespace", "containingType", "nullableAnnotation", "typeArguments",
    "elementType", "arrayRank", "allInterfaces"]

def ofJson? (j : Json) : Option TypeSymbol := do
  let r ← j.record? fieldNames
  let name ← r.required "name" (·.val.text?)
  let kind ← r.defaulted "kind" .classType (TypeKind.ofJson? ·.val)
  let namespaceSegments ← r.defaulted "namespace" [] (·.val.texts?)
  let containingType ← r.optional "containingType" fun v => ofJson? v.val
  let nullability ← r.defaulted "nullableAnnotation" .unknown (Nullability.ofJson? ·.val)
  let typeArguments ← r.defaulted "typeArguments" [] fun v => v.val.list? fun w => ofJson? w.val
  let elementType ← r.optional "elementType" fun v => ofJson? v.val
  let arrayRank ← r.defaulted "arrayRank" 1 (·.val.uint32?)
  let interfaces ← r.defaulted "allInterfaces" [] (·.val.texts?)
  return ⟨name, kind, namespaceSegments, containingType, nullability, typeArguments, elementType,
    arrayRank, interfaces⟩
termination_by sizeOf j
decreasing_by
  · exact v.2
  · exact Nat.lt_trans w.2 v.2
  · exact v.2

end TypeSymbol

end ChangeNotification
