import ChangeNotification.Facts.Property
import ChangeNotification.Symbol.Format

/-!
The JSON form of facts. Whatever a field stands for when it is missing is its default in the
types; an absent accessibility of the accessor is left out in writing.
-/

namespace ChangeNotification

namespace Accessibility

def jsonName : Accessibility → String
  | publicAccess => "public"
  | protectedAccess => "protected"
  | protectedInternal => "protectedInternal"
  | privateProtected => "privateProtected"
  | internalAccess => "internal"
  | privateAccess => "private"

def ofJsonName? : String → Option Accessibility
  | "public" => some publicAccess
  | "protected" => some protectedAccess
  | "protectedInternal" => some protectedInternal
  | "privateProtected" => some privateProtected
  | "internal" => some internalAccess
  | "private" => some privateAccess
  | _ => none

def toJson (accessibility : Accessibility) : Json := .string accessibility.jsonName

def ofJson? (j : Json) : Option Accessibility := j.variant?.bind ofJsonName?

end Accessibility

namespace AttributeValue

def toJson : AttributeValue → Json
  | bool b => .bool b
  | int n => .int n.toInt
  | text s => .string s

def ofJson? : Json → Option AttributeValue
  | .bool b => some (bool b)
  | .string s => some (text s)
  | j => j.int64?.map int

end AttributeValue

namespace Attribute

def toJson (attr : Attribute) : Json :=
  .object [
    ("className", .string attr.className),
    ("constructorArguments", .array (attr.constructorArguments.map AttributeValue.toJson)),
    ("namedArguments",
      .object (attr.namedArguments.entries.map fun (name, v) => (name, v.toJson)))]

/-- Of several arguments of one name the last counts. -/
def namedArguments? (j : Json) : Option (OrderedMap String AttributeValue) := do
  let members ← j.members?
  let entries ← members.mapM fun (name, v) => do return (name, ← AttributeValue.ofJson? v.val)
  return .ofList entries

def ofJson? (j : Json) : Option Attribute := do
  let r ← j.record? ["className", "constructorArguments", "namedArguments"]
  let className ← r.required "className" (·.val.text?)
  let constructorArguments ← r.defaulted "constructorArguments" [] fun v =>
    v.val.list? (AttributeValue.ofJson? ·.val)
  let namedArguments ← r.defaulted "namedArguments" ∅ (namedArguments? ·.val)
  return ⟨className, constructorArguments, namedArguments⟩

end Attribute

namespace SourceLocation

def toJson (location : SourceLocation) : Json :=
  .object [
    ("path", .string location.path),
    ("line", .ofNat location.line.toNat),
    ("column", .ofNat location.column.toNat)]

def ofJson? (j : Json) : Option SourceLocation := do
  let r ← j.record? ["path", "line", "column"]
  let path ← r.required "path" (·.val.text?)
  let line ← r.required "line" (·.val.uint32?)
  let column ← r.required "column" (·.val.uint32?)
  return ⟨path, line, column⟩

end SourceLocation

namespace PropertyFacts

def toJson (facts : PropertyFacts) : Json :=
  .object <|
    [("name", .string facts.name),
      ("containingType", facts.containingType.toJson),
      ("propertyType", facts.propertyType.toJson),
      ("accessibility", facts.accessibility.toJson)] ++
    (match facts.accessorAccessibility with
      | some accessibility => [("accessorAccessibility", accessibility.toJson)]
      | none => []) ++
    [("attributes", .array (facts.attributes.map Attribute.toJson)),
      ("declarationSites", .array (facts.declarationSites.map SourceLocation.toJson))]

def fieldNames : List String :=
  ["name", "containingType", "propertyType", "accessibility", "accessorAccessibility",
    "attributes", "declarationSites"]

def ofJson? (j : Json) : Option PropertyFacts := do
  let r ← j.record? fieldNames
  let name ← r.required "name" (·.val.text?)
  let containingType ← r.required "containingType" (TypeSymbol.ofJson? ·.val)
  let propertyType ← r.required "propertyType" (TypeSymbol.ofJson? ·.val)
  let accessibility ← r.defaulted "accessibility" .publicAccess (Accessibility.ofJson? ·.val)
  let accessorAccessibility ← r.optional "accessorAccessibility" (Accessibility.ofJson? ·.val)
  let attributes ← r.defaulted "attributes" [] (·.val.list? (Attribute.ofJson? ·.val))
  let declarationSites ← r.defaulted "declarationSites" []
    (·.val.list? (SourceLocation.ofJson? ·.val))
  return ⟨name, containingType, propertyType, accessibility, accessorAccessibility, attributes,
    declarationSites⟩

end PropertyFacts

namespace FactBundle

def toJson (bundle : FactBundle) : Json :=
  .object [("properties", .array (bundle.properties.map PropertyFacts.toJson))]

def ofJson? (j : Json) : Option FactBundle := do
  let r ← j.record? ["properties"]
  let properties ← r.defaulted "properties" [] (·.val.list? (PropertyFacts.ofJson? ·.val))
  return ⟨properties⟩

end FactBundle

end ChangeNotification
