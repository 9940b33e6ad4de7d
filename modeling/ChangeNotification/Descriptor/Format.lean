import ChangeNotification.Descriptor.Draft
import ChangeNotification.Json.Record

/-!
The JSON form of redirects.
-/

namespace ChangeNotification

namespace Phase

def ofJsonName? : String → Option Phase
  | "Changing" => some changing
  | "Changed" => some changed
  | _ => none

def toJson (phase : Phase) : Json := .string phase.suffix

def ofJson? (j : Json) : Option Phase := j.variant?.bind ofJsonName?

end Phase

namespace EventRedirect

def toJson (redirect : EventRedirect) : Json :=
  .object [
    ("interfaceType", .string redirect.interfaceType),
    ("eventName", .string redirect.eventName),
    ("phase", redirect.phase.toJson)]

def ofJson? (j : Json) : Option EventRedirect := do
  let r ← j.record? ["interfaceType", "eventName", "phase"]
  let interfaceType ← r.required "interfaceType" (·.val.text?)
  let eventName ← r.required "eventName" (·.val.text?)
  let phase ← r.required "phase" (Phase.ofJson? ·.val)
  return ⟨interfaceType, eventName, phase⟩

end EventRedirect

end ChangeNotification
