import ChangeNotification.Json.Record
import ChangeNotification.SourceBuffer.Basic

/-!
How generated text is laid out, with the JSON form of the options.
-/

namespace ChangeNotification

namespace LineEnding

def jsonName : LineEnding → String
  | native => "native"
  | lf => "lf"
  | crlf => "crlf"

def ofJsonName? : String → Option LineEnding
  | "native" => some native
  | "lf" => some lf
  | "crlf" => some crlf
  | _ => none

def toJson (lineEnding : LineEnding) : Json := .string lineEnding.jsonName

def ofJson? (j : Json) : Option LineEnding := j.variant?.bind ofJsonName?

end LineEnding

structure EmitOptions where
  autoGeneratedHeader : Bool := true
  markerComment : Bool := true
  lineEnding : LineEnding := .native
  indentWidth : UInt64 := 4
  deriving DecidableEq, Repr, Inhabited

namespace EmitOptions

/-- An empty buffer that lays out as the options say. -/
def buffer (options : EmitOptions) : SourceBuffer where
  indentWidth := options.indentWidth.toNat
  lineEnding := options.lineEnding

def toJson (options : EmitOptions) : Json :=
  .object [
    ("autoGeneratedHeader", .bool options.autoGeneratedHeader),
    ("markerComment", .bool options.markerComment),
    ("lineEnding", options.lineEnding.toJson),
    ("indentWidth", .ofNat options.indentWidth.toNat)]

def fieldNames : List String :=
  ["autoGeneratedHeader", "markerComment", "lineEnding", "indentWidth"]

def ofJson? (j : Json) : Option EmitOptions := do
  let r ← j.record? fieldNames
  let autoGeneratedHeader ← r.defaulted "autoGeneratedHeader" true (·.val.bool?)
  let markerComment ← r.defaulted "markerComment" true (·.val.bool?)
  let lineEnding ← r.defaulted "lineEnding" .native (LineEnding.ofJson? ·.val)
  let indentWidth ← r.defaulted "indentWidth" 4 (·.val.uint64?)
  return ⟨autoGeneratedHeader, markerComment, lineEnding, indentWidth⟩

end EmitOptions

end ChangeNotification
