import ChangeNotification.Emission.Unit
import ChangeNotification.Resolution.Property

/-!
What becomes of the properties for which members are to be generated, each with a unit of its
own or together with the others of its type.
-/

namespace ChangeNotification

inductive GenerationError where
  | resolve (error : ResolveError)
  | emit (error : EmitError)
  deriving DecidableEq, Repr, Inhabited

def GenerationError.message : GenerationError → String
  | resolve error => error.message
  | emit error => error.message

/-- What became of one unit, under a label for reports. -/
structure Outcome where
  label : String
  result : Except GenerationError GeneratedSource
  diagnostics : List Diagnostic := []

namespace Outcome

def ofEmission (label : String) (emission : Except EmitError GeneratedSource × Host) : Outcome :=
  ⟨label, emission.1.mapError .emit, emission.2.reports⟩

def succeeded (outcome : Outcome) : Bool := outcome.result.toBool

end Outcome

namespace PropertyFacts

def label (facts : PropertyFacts) : String :=
  facts.containingType.name ++ "." ++ facts.name

/-- The outcome of a property in a unit of its own. -/
def outcome (options : EmitOptions) (facts : PropertyFacts) : Outcome :=
  match facts.resolve with
  | .error error => ⟨facts.label, .error (.resolve error), []⟩
  | .ok descriptor => .ofEmission facts.label (emitProperty options descriptor {})

/-- The outcome of a property that does not resolve. -/
def failure? (facts : PropertyFacts) : Option Outcome :=
  match facts.resolve with
  | .error error => some ⟨facts.label, .error (.resolve error), []⟩
  | .ok _ => none

end PropertyFacts

/-- Descriptors of one type, in their order. -/
structure TypeGroup where
  owner : TypeDefinition
  members : List PropertyDescriptor

namespace TypeGroup

/-- Adds a descriptor to the group of its type, or behind all groups if there is none yet. -/
def add (descriptor : PropertyDescriptor) : List TypeGroup → List TypeGroup
  | [] => [⟨descriptor.containingType, [descriptor]⟩]
  | group :: rest =>
      if group.owner = descriptor.containingType then
        { group with members := group.members ++ [descriptor] } :: rest
      else group :: add descriptor rest

/-- The groups of descriptors, in order of the first descriptor of each. -/
def ofDescriptors (descriptors : List PropertyDescriptor) : List TypeGroup :=
  descriptors.foldl (fun groups descriptor => add descriptor groups) []

def outcome (options : EmitOptions) (group : TypeGroup) : Outcome :=
  .ofEmission group.owner.name (emitType options group.members {})

end TypeGroup

namespace Outcome

def ofProperties (options : EmitOptions) (targets : List PropertyFacts) : List Outcome :=
  targets.map (·.outcome options)

/-- The outcomes by type. Properties that do not resolve come first. -/
def ofTypes (options : EmitOptions) (targets : List PropertyFacts) : List Outcome :=
  targets.filterMap PropertyFacts.failure? ++
    (TypeGroup.ofDescriptors (targets.filterMap (·.resolve.toOption))).map (·.outcome options)

end Outcome

end ChangeNotification
