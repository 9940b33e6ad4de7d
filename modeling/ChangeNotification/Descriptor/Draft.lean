import ChangeNotification.Definition.Basic
import ChangeNotification.Facts.Property
import ChangeNotification.Phase

/-!
Drafts of what to generate for a property, changed step by step.
-/

namespace ChangeNotification

/-- An interface event that is implemented by forwarding to the generated event of a phase. -/
structure EventRedirect where
  interfaceType : String
  eventName : String
  phase : Phase
  deriving DecidableEq, Repr, Inhabited

/-- What is generated for one phase. A member without accessibility is not generated; the
interface of the phase is notified where the type implements it. -/
structure PhaseMembers where
  notifies : Bool := false
  event : Option Accessibility := none
  observable : Option Accessibility := none
  deriving DecidableEq, Repr, Inhabited

/-- All that the members of one property depend on, and the places to report on. -/
structure PropertyDraft where
  containingType : TypeDefinition
  propertyName : String
  propertyType : String
  isReference : Bool := false
  nullability : Nullability := .unknown
  eventArgsOnly : Bool := false
  changing : PhaseMembers := {}
  changed : PhaseMembers := {}
  redirects : List EventRedirect := []
  declarationSites : List SourceLocation := []
  deriving DecidableEq, Repr, Inhabited

namespace PropertyDraft

def members (draft : PropertyDraft) : Phase → PhaseMembers
  | .changing => draft.changing
  | .changed => draft.changed

def updateMembers (draft : PropertyDraft) (phase : Phase) (f : PhaseMembers → PhaseMembers) :
    PropertyDraft :=
  match phase with
  | .changing => { draft with changing := f draft.changing }
  | .changed => { draft with changed := f draft.changed }

/-- A reference that is never `null`: setting it to `null` is refused. -/
def requiresNullGuard (draft : PropertyDraft) : Bool :=
  draft.isReference && draft.nullability = .notAnnotated

/-- A reference outside a nullable context, about which nothing can be guarded. -/
def hasIndeterminateNullability (draft : PropertyDraft) : Bool :=
  draft.isReference && draft.nullability = .unknown

/-! ### Steps -/

/-- One change of a draft. -/
inductive Step where
  | typeFacts (isReference : Bool) (nullability : Nullability)
  | eventArgsOnly (only : Bool)
  | notifies (phase : Phase) (enabled : Bool)
  | event (phase : Phase) (accessibility : Option Accessibility)
  | observable (phase : Phase) (accessibility : Option Accessibility)
  | redirect (redirect : EventRedirect)
  | declarationSites (sites : List SourceLocation)
  deriving DecidableEq, Repr

def Step.referenceType (nullability : Nullability) : Step := .typeFacts true nullability

/-- Values are never `null`, so there is nothing left open about them. -/
def Step.valueType : Step := .typeFacts false .notAnnotated

def apply (draft : PropertyDraft) : Step → PropertyDraft
  | .typeFacts isReference nullability => { draft with isReference, nullability }
  | .eventArgsOnly only => { draft with eventArgsOnly := only }
  | .notifies phase enabled => draft.updateMembers phase ({ · with notifies := enabled })
  | .event phase accessibility => draft.updateMembers phase ({ · with event := accessibility })
  | .observable phase accessibility =>
      draft.updateMembers phase ({ · with observable := accessibility })
  | .redirect redirect => { draft with redirects := draft.redirects ++ [redirect] }
  | .declarationSites sites =>
      { draft with declarationSites := draft.declarationSites ++ sites }

def applyAll (draft : PropertyDraft) (steps : List Step) : PropertyDraft :=
  steps.foldl apply draft

end PropertyDraft

end ChangeNotification
