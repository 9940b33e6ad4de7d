import ChangeNotification.Project.Bundle
import ChangeNotification.Project.Delivery
import ChangeNotification.Project.Outcome

/-!
Everything that a generation is going to do, worked out from the configuration and the bundles
before anything is written.
-/

namespace ChangeNotification

/-- A file that gives no bundle. -/
structure RejectedBundle where
  path : String
  error : BundleError
  deriving DecidableEq, Repr

structure Plan where
  rejected : List RejectedBundle
  outcomes : List Outcome
  support : List GeneratedSource

/-- How many sources were generated, how many bundles and properties failed, and how many
diagnostics were reported. -/
structure Summary where
  generated : Nat := 0
  failed : Nat := 0
  diagnostics : Nat := 0
  deriving DecidableEq, Repr, Inhabited

namespace BundleFile

def rejected? (file : BundleFile) : Option RejectedBundle :=
  match file.load with
  | .error error => some ⟨file.path, error⟩
  | .ok _ => none

/-- The properties of a bundle for which members are to be generated. -/
def targets (file : BundleFile) : List PropertyFacts :=
  match file.load with
  | .error _ => []
  | .ok bundle => bundle.properties.filter (·.isNotificationTarget)

end BundleFile

namespace Plan

def outcomesOf (config : Config) (targets : List PropertyFacts) : List Outcome :=
  match config.mode with
  | .perProperty => Outcome.ofProperties config.emit targets
  | .perType => Outcome.ofTypes config.emit targets

def ofBundles (config : Config) (files : List BundleFile) : Plan where
  rejected := files.filterMap BundleFile.rejected?
  outcomes := outcomesOf config (files.flatMap BundleFile.targets)
  support := if config.includeSupportSources then SupportSource.all config.emit else []

def diagnostics (plan : Plan) : List Diagnostic :=
  plan.outcomes.flatMap (·.diagnostics)

def summary (plan : Plan) : Summary where
  generated := plan.outcomes.countP (·.succeeded) + plan.support.length
  failed := plan.rejected.length + plan.outcomes.countP (!·.succeeded)
  diagnostics := plan.diagnostics.length

/-! ### Effects -/

/-- The report of something that failed. -/
def failureLine (label message : String) : Effect :=
  .warn ("  ✗ " ++ label ++ " - " ++ message)

def deliveryEffects (destination : Destination) (label : String) (source : GeneratedSource) :
    List Effect :=
  destination.effects source ++ [.say ("  ✓ " ++ label ++ " → " ++ destination.place source)]

def outcomeEffects (destination : Destination) (outcome : Outcome) : List Effect :=
  match outcome.result with
  | .ok source => deliveryEffects destination outcome.label source
  | .error error => [failureLine outcome.label error.message]

def diagnosticEffects (diagnostic : Diagnostic) : List Effect :=
  let place := (diagnostic.location.map SourceLocation.display).getD "<unknown>"
  .warn ("  warning " ++ diagnostic.code ++ " " ++ place ++ ": " ++ diagnostic.message) ::
    match diagnostic.suggestion with
    | some suggestion => [.warn ("    help: " ++ suggestion)]
    | none => []

/-- Carries out a plan: what failed to load, the outcomes, their diagnostics, and the support
sources. -/
def effects (destination : Destination) (plan : Plan) : List Effect :=
  plan.rejected.map (fun bundle => failureLine bundle.path (bundle.error.message bundle.path)) ++
    plan.outcomes.flatMap (outcomeEffects destination) ++
    plan.diagnostics.flatMap diagnosticEffects ++
    plan.support.flatMap (deliveryEffects destination "support")

end Plan

end ChangeNotification
