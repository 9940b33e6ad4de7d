import ChangeNotification.Emission.Member
import ChangeNotification.Emission.Options

/-!
Generated units: the members of one property, or of all properties of a type, inside a partial
declaration of the type and of everything around it.
-/

namespace ChangeNotification

/-- A generated file: its name, unique to what it declares, and its text. -/
structure GeneratedSource where
  hintName : String
  sourceText : String
  deriving DecidableEq, Repr, Inhabited

namespace Emission

def autoGeneratedHeader : String := "// <auto-generated />"

def markerComment : String := "// This is implementation class by PropNotify."

def nullableDirective : String := "#nullable enable"

def obsoleteWarningsDirective : String := "#pragma warning disable CS0612,CS0618,CS0619"

/-- The line that marks a file as generated, where the options ask for it. -/
def headerEdits (options : EmitOptions) : List SourceBuffer.Edit :=
  if options.autoGeneratedHeader then [.addLine autoGeneratedHeader] else []

/-- The lines before all blocks. -/
def preambleEdits (options : EmitOptions) : List SourceBuffer.Edit :=
  headerEdits options ++ [.addLine nullableDirective, .addLine obsoleteWarningsDirective]

def preambleActions (options : EmitOptions) : List Action :=
  .checkpoint :: (preambleEdits options).map .write

/-- The head of a partial declaration. -/
def declarationHead (declaration : TypeDeclaration) : String :=
  "partial " ++ (if declaration.isValueType then "struct" else "class") ++ " " ++
    declaration.declaredName

/-- The heads of all blocks around the members, outermost first. The last one is marked, where
the options ask for it. -/
def blockHeads (options : EmitOptions) (definition : TypeDefinition) : List String :=
  (if definition.isGlobal then [] else ["namespace " ++ definition.namespaceName]) ++
    definition.container.declarations.map declarationHead ++
    [declarationHead definition.toTypeDeclaration ++
      (if options.markerComment then " " ++ markerComment else "")]

def openingActions (options : EmitOptions) (definition : TypeDefinition) : List Action :=
  (blockHeads options definition).flatMap fun head => [.checkpoint, .write (.openBlock head)]

def closingActions (options : EmitOptions) (definition : TypeDefinition) : List Action :=
  (blockHeads options definition).flatMap fun _ => [.checkpoint, .write .closeBlock]

/-- The whole emission of a unit, around the bodies of its properties. -/
def unitActions (options : EmitOptions) (definition : TypeDefinition)
    (bodies : List Action) : List Action :=
  preambleActions options ++ openingActions options definition ++ bodies ++
    closingActions options definition ++ [.checkpoint]

/-- The segments of a unit's name that stand for a type. -/
def typeSegments (definition : TypeDefinition) : List String :=
  (if definition.isGlobal then [] else [definition.namespaceName]) ++
    definition.chain.map TypeDeclaration.hintSegment

def propertyHintName (draft : PropertyDraft) : String :=
  "gen_" ++ String.intercalate "." (typeSegments draft.containingType ++ [draft.propertyName]) ++
    ".g.cs"

def typeHintName (definition : TypeDefinition) : String :=
  "gen_" ++ String.intercalate "." (typeSegments definition) ++ "-members.g.cs"

/-- Runs the emission of a unit on an empty buffer. -/
def runUnit (options : EmitOptions) (hintName : String) (actions : List Action) (host : Host) :
    Except EmitError GeneratedSource × Host :=
  let (result, host) := Action.perform actions host options.buffer
  (result.map fun buffer => ⟨hintName, buffer.text⟩, host)

end Emission

open Emission

/-- Generates the members of one property. -/
def emitProperty (options : EmitOptions) (descriptor : PropertyDescriptor) (host : Host) :
    Except EmitError GeneratedSource × Host :=
  runUnit options (propertyHintName descriptor.toPropertyDraft)
    (unitActions options descriptor.containingType descriptor.bodyActions) host

/-- Generates the members of several properties of one type into one declaration. -/
def emitType (options : EmitOptions) (descriptors : List PropertyDescriptor) (host : Host) :
    Except EmitError GeneratedSource × Host :=
  match descriptors with
  | [] => (.error .noProperties, host)
  | first :: _ =>
      match descriptors.find? (·.containingType ≠ first.containingType) with
      | some other =>
          (.error (.mixedContainingTypes first.containingType.qualifiedName
            other.containingType.qualifiedName), host)
      | none =>
          runUnit options (typeHintName first.containingType)
            (unitActions options first.containingType
              (descriptors.flatMap fun descriptor => descriptor.bodyActions)) host

end ChangeNotification
