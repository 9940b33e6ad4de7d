import ChangeNotification.Emission.Diagnostic
import ChangeNotification.SourceBuffer.Basic

/-!
Emissions as lists of actions, and the host that lets them run. A host collects diagnostics and
may cancel at any time; an emission takes notice of that at its checkpoints.
-/

namespace ChangeNotification

inductive EmitError where
  | cancelled
  | noProperties
  | mixedContainingTypes (expected found : String)
  deriving DecidableEq, Repr, Inhabited

namespace EmitError

def message : EmitError → String
  | cancelled => "Generation was cancelled"
  | noProperties => "No properties to emit"
  | mixedContainingTypes expected found =>
      "Properties of '" ++ found ++ "' cannot be emitted into the unit for '" ++ expected ++ "'"

def isCancelled : EmitError → Bool
  | cancelled => true
  | noProperties | mixedContainingTypes .. => false

end EmitError

/-- The host of emissions. It may ignore what emissions report; it may want to cancel as soon as
it holds a number of reports. -/
structure Host where
  ignoresEmissions : Bool := false
  cancelsAt : Option Nat := none
  reports : List Diagnostic := []
  cancelled : Bool := false
  deriving DecidableEq, Repr, Inhabited

namespace Host

/-- A report to the host itself. -/
def report (host : Host) (diagnostic : Diagnostic) : Host :=
  let reports := host.reports ++ [diagnostic]
  { host with
    reports
    cancelled := host.cancelled || host.cancelsAt.any (· ≤ reports.length) }

/-- A report of an emission. -/
def hear (host : Host) (diagnostic : Diagnostic) : Host :=
  if host.ignoresEmissions then host else host.report diagnostic

def cancel (host : Host) : Host := { host with cancelled := true }

/-- The host after its reports were taken away. -/
def cleared (host : Host) : Host := { host with reports := [] }

def check (host : Host) : Except EmitError Unit :=
  if host.cancelled then .error .cancelled else .ok ()

end Host

/-- One thing that an emission does. -/
inductive Action where
  | checkpoint
  | write (edit : SourceBuffer.Edit)
  | report (diagnostic : Diagnostic)
  deriving DecidableEq, Repr

namespace Action

/-- Runs actions on a buffer. An emission that was cancelled ends without a buffer, and what it
reported until then stays reported. -/
def perform : List Action → Host → SourceBuffer → Except EmitError SourceBuffer × Host
  | [], host, buffer => (.ok buffer, host)
  | .checkpoint :: rest, host, buffer =>
      if host.cancelled then (.error .cancelled, host) else perform rest host buffer
  | .write edit :: rest, host, buffer => perform rest host (buffer.apply edit)
  | .report diagnostic :: rest, host, buffer => perform rest (host.hear diagnostic) buffer

def edit? : Action → Option SourceBuffer.Edit
  | write edit => some edit
  | checkpoint | report _ => none

def diagnostic? : Action → Option Diagnostic
  | report diagnostic => some diagnostic
  | checkpoint | write _ => none

end Action

end ChangeNotification
