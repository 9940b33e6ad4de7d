import ChangeNotification.Facts.Format

/-!
Diagnostics that are reported while members are generated, with their JSON form.
-/

namespace ChangeNotification

inductive DiagnosticLevel where
  | error | warning | info
  deriving DecidableEq, Repr, Inhabited

structure Diagnostic where
  level : DiagnosticLevel
  code : String
  message : String
  location : Option SourceLocation := none
  suggestion : Option String := none
  deriving DecidableEq, Repr, Inhabited

namespace Diagnostic

/-- The code of the warning about a reference outside a nullable context. -/
def nullableContextCode : String := "PN0001"

def nullableContextDisabled (location : Option SourceLocation) : Diagnostic where
  level := .warning
  code := nullableContextCode
  message := "Nullable context is not enabled."
  location := location
  suggestion := some
    "Set the Nullable property to enable in the project file or set #nullable enable in the source code."

end Diagnostic

/-! ### JSON -/

namespace DiagnosticLevel

def jsonName : DiagnosticLevel → String
  | error => "Error"
  | warning => "Warning"
  | info => "Info"

def ofJsonName? : String → Option DiagnosticLevel
  | "Error" => some error
  | "Warning" => some warning
  | "Info" => some info
  | _ => none

def toJson (level : DiagnosticLevel) : Json := .string level.jsonName

def ofJson? (j : Json) : Option DiagnosticLevel := j.variant?.bind ofJsonName?

end DiagnosticLevel

namespace Diagnostic

def toJson (diagnostic : Diagnostic) : Json :=
  .object [
    ("level", diagnostic.level.toJson),
    ("code", .string diagnostic.code),
    ("message", .string diagnostic.message),
    ("location", Json.ofOption SourceLocation.toJson diagnostic.location),
    ("suggestion", Json.ofOption Json.string diagnostic.suggestion)]

def ofJson? (j : Json) : Option Diagnostic := do
  let r ← j.record? ["level", "code", "message", "location", "suggestion"]
  let level ← r.required "level" (DiagnosticLevel.ofJson? ·.val)
  let code ← r.required "code" (·.val.text?)
  let message ← r.required "message" (·.val.text?)
  let location ← r.nullable "location" (SourceLocation.ofJson? ·.val)
  let suggestion ← r.nullable "suggestion" (·.val.text?)
  return ⟨level, code, message, location, suggestion⟩

end Diagnostic

end ChangeNotification
