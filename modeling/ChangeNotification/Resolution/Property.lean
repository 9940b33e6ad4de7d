import ChangeNotification.Descriptor.Basic
import ChangeNotification.Resolution.Accessibility
import ChangeNotification.Symbol.Spelling

/-!
Resolving a property: from what is known about it to the descriptor of what is generated. The
attributes are taken in their order and each asks for one step; the first defect ends it.
-/

namespace ChangeNotification

namespace Attribute

/-- Whether only the event arguments are asked for. -/
def eventArgsOnly (attr : Attribute) (property : String) : Except ResolveError Bool :=
  match attr.namedArguments.find? Vocabulary.eventArgsOnlyArgument with
  | none => .ok false
  | some (.bool only) => .ok only
  | some other =>
      .error (.invalidAttributeArgument attr.className property
        (Vocabulary.eventArgsOnlyArgument ++ " must be a bool, found " ++ other.display))

/-- A name with the mark of the root namespace. -/
def rooted (name : String) : String :=
  if (Text.afterLead? "global::" name).isSome then name else "global::" ++ name

/-- The redirect that an attribute asks for, by an interface and the name of its event. -/
def eventRedirect (attr : Attribute) (property : String) (phase : Phase) :
    Except ResolveError EventRedirect :=
  match attr.constructorArguments with
  | [.text interfaceType, .text eventName] => .ok ⟨rooted interfaceType, eventName, phase⟩
  | [_, _] =>
      .error (.invalidAttributeArgument attr.className property
        "expected an interface type name and an event name")
  | arguments =>
      .error (.unexpectedConstructorArguments attr.className property arguments.length)

/-- The step that an attribute asks for, if its class is recognised beside the enabling one. -/
def step (attr : Attribute) (property : String) (default : Option Accessibility) :
    Except ResolveError (List PropertyDraft.Step) := do
  match attr.role? with
  | some (.event phase) => return [.event phase (← attr.accessibility property default)]
  | some (.observable phase) => return [.observable phase (← attr.accessibility property default)]
  | some (.redirect phase) => return [.redirect (← attr.eventRedirect property phase)]
  | some .enable | none => return []

end Attribute

namespace PropertyFacts

def enablingAttribute? (facts : PropertyFacts) : Option Attribute :=
  facts.findAttribute? (AttributeRole.className .enable)

/-- Whether members are to be generated for the property. -/
def isNotificationTarget (facts : PropertyFacts) : Bool :=
  facts.enablingAttribute?.isSome

/-- The accessibility of generated members for which no other is asked. -/
def defaultAccessibility (facts : PropertyFacts) : Accessibility :=
  facts.effectiveAccessibility

/-- The nullability of the property type; values leave nothing open. -/
def settledNullability (facts : PropertyFacts) : Nullability :=
  if facts.propertyType.kind.isValue then .notAnnotated else facts.propertyType.nullability

/-- The draft before the attributes. -/
def draft (facts : PropertyFacts) : PropertyDraft where
  containingType := facts.containingType.definition
  propertyName := facts.name
  propertyType := facts.propertyType.spelling

/-- The steps that follow from the types and the places of a property. -/
def typeSteps (facts : PropertyFacts) : List PropertyDraft.Step := [
  .typeFacts facts.propertyType.kind.isReference facts.settledNullability,
  .notifies .changing (facts.containingType.implements (Vocabulary.notifyInterface .changing)),
  .notifies .changed (facts.containingType.implements (Vocabulary.notifyInterface .changed)),
  .declarationSites facts.declarationSites]

/-- The steps that the attributes ask for, in their order. -/
def attributeSteps (facts : PropertyFacts) : Except ResolveError (List PropertyDraft.Step) := do
  let steps ← facts.attributes.mapM (·.step facts.name (some facts.defaultAccessibility))
  return steps.flatten

def resolve (facts : PropertyFacts) : Except ResolveError PropertyDescriptor := do
  if facts.name = "" then throw (.emptyPropertyName facts.containingType.name)
  match facts.enablingAttribute? with
  | none => throw (.notAnnotated facts.name)
  | some enabling =>
      let only ← enabling.eventArgsOnly facts.name
      let steps ← facts.attributeSteps
      return (facts.draft.applyAll (facts.typeSteps ++ .eventArgsOnly only :: steps)).build

end PropertyFacts

end ChangeNotification
