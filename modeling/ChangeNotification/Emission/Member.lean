import ChangeNotification.Descriptor.Basic
import ChangeNotification.Emission.Host
import ChangeNotification.MemberNames
import ChangeNotification.Vocabulary

/-!
The members that a descriptor declares, in the order of the text, and the statements of its
setters; both as data, with the lines they are written as.
-/

namespace ChangeNotification

/-! ### Statements of the setters -/

inductive Statement where
  | nullGuard
  | returnIfSame
  | returnIfEqual
  | returnIfEqualByComparer
  | raiseEvent (phase : Phase)
  | notifyInterface (phase : Phase)
  | assign
  | returnTrue
  deriving DecidableEq, Repr

namespace Statement

def line (names : MemberNames) (propertyType : String) : Statement → String
  | nullGuard => "if (value is null) throw new global::System.ArgumentNullException(nameof(value));"
  | returnIfSame => "if (object.ReferenceEquals(this." ++ names.field ++ ", value)) return false;"
  | returnIfEqual =>
      "if (global::System.Collections.Generic.EqualityComparer<" ++ propertyType ++
        ">.Default.Equals(this." ++ names.field ++ ", value)) return false;"
  | returnIfEqualByComparer =>
      "if (equalityComparer.Equals(this." ++ names.field ++ ", value)) return false;"
  | raiseEvent phase => names.event phase ++ "?.Invoke(this, global::System.EventArgs.Empty);"
  | notifyInterface phase =>
      "this.Property" ++ phase.suffix ++ "?.Invoke(this, " ++ names.eventArgs phase ++ ");"
  | assign => "this." ++ names.field ++ " = value;"
  | returnTrue => "return true;"

end Statement

namespace PropertyDraft

/-- The statements that refuse `null`. -/
def guardStatements (draft : PropertyDraft) : List Statement :=
  if draft.requiresNullGuard then [.nullGuard] else []

/-- The statements that tell of a change: the event first, then the interface. -/
def phaseStatements (draft : PropertyDraft) (phase : Phase) : List Statement :=
  (if (draft.members phase).event.isSome then [.raiseEvent phase] else []) ++
    (if (draft.members phase).notifies then [.notifyInterface phase] else [])

/-- The statements of a change that takes place. -/
def changeStatements (draft : PropertyDraft) : List Statement :=
  draft.phaseStatements .changing ++ .assign :: draft.phaseStatements .changed ++ [.returnTrue]

/-- How the setter without a comparer tells that nothing changes. -/
def sameValueStatement (draft : PropertyDraft) : Statement :=
  if draft.isReference then .returnIfSame else .returnIfEqual

end PropertyDraft

/-! ### Members -/

inductive Member where
  | eventArgs (phase : Phase)
  | redirect (redirect : EventRedirect)
  | event (phase : Phase) (accessibility : Accessibility)
  | observable (phase : Phase) (accessibility : Accessibility)
  | field
  | accessor
  | setter
  | comparerSetter
  deriving DecidableEq, Repr

namespace Member

def eventHandlerType : String := "global::System.EventHandler?"

def eventArgsType (phase : Phase) : String :=
  "global::System.ComponentModel.Property" ++ phase.suffix ++ "EventArgs"

/-- The line of a member without a body; the head of a setter. -/
def line (names : MemberNames) (propertyType : String) : Member → String
  | eventArgs phase =>
      "private static " ++ eventArgsType phase ++ " " ++ names.eventArgs phase ++ " = new " ++
        eventArgsType phase ++ "(nameof(" ++ names.property ++ "));"
  | redirect r =>
      "event " ++ eventHandlerType ++ " " ++ r.interfaceType ++ "." ++ r.eventName ++
        " \x7b add => " ++ names.event r.phase ++ " += value; remove => " ++ names.event r.phase ++
        " -= value; \x7d"
  | event phase accessibility =>
      accessibility.keyword ++ " event " ++ eventHandlerType ++ " " ++ names.event phase ++ ";"
  | observable .changing accessibility =>
      accessibility.keyword ++ " global::System.IObservable<object?> " ++
        names.observable .changing ++ "() => new " ++ Vocabulary.eventToObservableType ++
        "<object?>(h => " ++ names.event .changing ++ " += h, h => " ++ names.event .changing ++
        " -= h, () => this, pushValueAtSubscribed: false);"
  | observable .changed accessibility =>
      accessibility.keyword ++ " global::System.IObservable<" ++ propertyType ++ "> " ++
        names.observable .changed ++ "(bool pushValueAtSubscribed = false) => new " ++
        Vocabulary.eventToObservableType ++ "<" ++ propertyType ++ ">(h => " ++
        names.event .changed ++ " += h, h => " ++ names.event .changed ++ " -= h, () => this." ++
        names.field ++ ", pushValueAtSubscribed);"
  | field => "private " ++ propertyType ++ " " ++ names.field ++ ";"
  | accessor =>
      "private " ++ propertyType ++ " " ++ names.method ++ "() => this." ++ names.field ++ ";"
  | setter => "private bool " ++ names.method ++ "(" ++ propertyType ++ " value)"
  | comparerSetter =>
      "private bool " ++ names.method ++ "(" ++ propertyType ++
        " value, global::System.Collections.Generic.IEqualityComparer<" ++ propertyType ++
        "> equalityComparer)"

end Member

namespace PropertyDraft

def memberNames (draft : PropertyDraft) : MemberNames := ⟨draft.propertyName⟩

/-! ### The members of a descriptor -/

def eventArgsMembers (draft : PropertyDraft) : List Member :=
  [Phase.changing, .changed].flatMap fun phase =>
    if (draft.members phase).notifies then [.eventArgs phase] else []

def redirectMembers (draft : PropertyDraft) : List Member :=
  draft.redirects.map .redirect

def eventMembers (draft : PropertyDraft) : List Member :=
  [Phase.changing, .changed].flatMap fun phase =>
    ((draft.members phase).event.map (.event phase)).toList

def observableMembers (draft : PropertyDraft) : List Member :=
  [Phase.changing, .changed].flatMap fun phase =>
    ((draft.members phase).observable.map (.observable phase)).toList

/-- The members in groups; between two groups an emission may be cancelled. -/
def memberGroups (draft : PropertyDraft) : List (List Member) :=
  if draft.eventArgsOnly then [draft.eventArgsMembers]
  else [draft.eventArgsMembers, draft.redirectMembers, draft.eventMembers,
    draft.observableMembers, [.field, .accessor], [.setter], [.comparerSetter]]

/-! ### Writing members -/

/-- One report per place where the property is declared, or one without a place. -/
def nullableContextDiagnostics (draft : PropertyDraft) : List Diagnostic :=
  if draft.hasIndeterminateNullability then
    match draft.declarationSites with
    | [] => [.nullableContextDisabled none]
    | sites => sites.map fun site => .nullableContextDisabled (some site)
  else []

def writeStatements (draft : PropertyDraft) (statements : List Statement) : List Action :=
  statements.map fun statement =>
    .write (.addLine (statement.line draft.memberNames draft.propertyType))

/-- The attribute that tells the compiler about the guard of a setter. -/
def memberNotNullLines (draft : PropertyDraft) : List Action :=
  if draft.requiresNullGuard then
    [.write (.addLine ("[global::System.Diagnostics.CodeAnalysis.MemberNotNull(nameof(" ++
      draft.memberNames.field ++ "))]"))]
  else []

/-- The body of a setter between its braces. -/
def setterBody (draft : PropertyDraft) (reports : List Diagnostic) (comparison : Statement) :
    List Action :=
  draft.writeStatements draft.guardStatements ++ reports.map .report ++
    draft.writeStatements [comparison] ++ .write .separate ::
    draft.writeStatements draft.changeStatements

def memberActions (draft : PropertyDraft) (member : Member) : List Action :=
  let line := member.line draft.memberNames draft.propertyType
  .write .separate ::
    match member with
    | .setter =>
        draft.memberNotNullLines ++ .write (.openBlock line) ::
          draft.setterBody draft.nullableContextDiagnostics draft.sameValueStatement ++
          [.write .closeBlock]
    | .comparerSetter =>
        .write (.openBlock line) :: draft.setterBody [] .returnIfEqualByComparer ++
          [.write .closeBlock]
    | _ => [.write (.addLine line)]

/-- The emission of the members alone. -/
def bodyActions (draft : PropertyDraft) : List Action :=
  draft.memberGroups.flatMap fun group => .checkpoint :: group.flatMap draft.memberActions

end PropertyDraft

end ChangeNotification
