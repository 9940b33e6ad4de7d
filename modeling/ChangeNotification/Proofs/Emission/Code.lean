import ChangeNotification.Emission.Member
import ChangeNotification.Proofs.Layout.Line

/-! # Generated code as syntax

Declarations and instructions as they stand in a unit. Every name that they declare or refer to has
a place of its own, so that it can be asked what generated code needs and what it provides. -/

namespace ChangeNotification

namespace Code

/-! ## Instructions -/

/-- What the setters are made of. -/
inductive Instruction where
  | refuseNull
  | returnFalseIf (condition : String)
  | raise (event : String)
  | notify (interfaceEvent args : String)
  | assign (field : String)
  | returnTrue
  deriving DecidableEq, Repr

namespace Instruction

def text : Instruction → String
  | refuseNull => "if (value is null) throw new global::System.ArgumentNullException(nameof(value));"
  | returnFalseIf condition => "if (" ++ condition ++ ") return false;"
  | raise event => event ++ "?.Invoke(this, global::System.EventArgs.Empty);"
  | notify interfaceEvent args => "this." ++ interfaceEvent ++ "?.Invoke(this, " ++ args ++ ");"
  | assign field => "this." ++ field ++ " = value;"
  | returnTrue => "return true;"

/-- The event that is raised. -/
def raised? : Instruction → Option String
  | raise event => some event
  | _ => none

/-- The field whose arguments are passed on. -/
def passed? : Instruction → Option String
  | notify _ args => some args
  | _ => none

end Instruction

/-! ## Declarations -/

/-- The members of a partial type. A setter first makes its checks and then the change. -/
inductive Declaration where
  | argsField (type name property : String)
  | redirect (implemented added removed : String)
  | event (modifiers name : String)
  | observable (modifiers type factory parameters subscribed unsubscribed value push : String)
  | field (type name : String)
  | getter (type name field : String)
  | setter (attributes : List String) (name parameters : String)
      (checks change : List Instruction)
  deriving DecidableEq, Repr

namespace Declaration

/-- The declaration on its line, or what it has above its braces. -/
def text : Declaration → String
  | argsField type name property =>
      "private static " ++ type ++ " " ++ name ++ " = new " ++ type ++ "(nameof(" ++ property ++ "));"
  | redirect implemented added removed =>
      "event global::System.EventHandler? " ++ implemented ++ " \x7b add => " ++ added ++
        " += value; remove => " ++ removed ++ " -= value; \x7d"
  | event modifiers name => modifiers ++ " event global::System.EventHandler? " ++ name ++ ";"
  | observable modifiers type factory parameters subscribed unsubscribed value push =>
      modifiers ++ " global::System.IObservable<" ++ type ++ "> " ++ factory ++ "(" ++ parameters ++
        ") => new global::PropNotify.Internal.EventToObservable<" ++ type ++ ">(h => " ++
        subscribed ++ " += h, h => " ++ unsubscribed ++ " -= h, () => " ++ value ++ ", " ++ push ++
        ");"
  | .field type name => "private " ++ type ++ " " ++ name ++ ";"
  | getter type name target => "private " ++ type ++ " " ++ name ++ "() => this." ++ target ++ ";"
  | setter _ name parameters _ _ => "private bool " ++ name ++ "(" ++ parameters ++ ")"

/-- The lines of a declaration. A blank line stands between the checks and the change. -/
def lines (declaration : Declaration) : List Line :=
  match declaration with
  | setter attributes _ _ checks change =>
      attributes.map (.code 0) ++ .code 0 declaration.text :: .code 0 "\x7b" ::
        (checks.map (.code 1 ·.text) ++ .blank :: change.map (.code 1 ·.text) ++ [.code 0 "\x7d"])
  | _ => [.code 0 declaration.text]

/-- The event that is declared. -/
def declaredEvent? : Declaration → Option String
  | event _ name => some name
  | _ => none

/-- The field of arguments that is declared. -/
def declaredArgs? : Declaration → Option String
  | argsField _ name _ => some name
  | _ => none

/-- The events that are added to or removed from, subscribed to or unsubscribed from, or raised. -/
def usedEvents : Declaration → List String
  | redirect _ added removed => [added, removed]
  | observable _ _ _ _ subscribed unsubscribed _ _ => [subscribed, unsubscribed]
  | setter _ _ _ checks change => (checks ++ change).filterMap Instruction.raised?
  | _ => []

/-- The fields of arguments that are passed on. -/
def usedArgs : Declaration → List String
  | setter _ _ _ checks change => (checks ++ change).filterMap Instruction.passed?
  | _ => []

def isSetter : Declaration → Bool
  | setter .. => true
  | _ => false

end Declaration

/-- Declarations with a blank line before each, but for one at the start of a block. -/
def separated (start : Bool) : List Declaration → List Line
  | [] => []
  | declaration :: rest =>
      (if start then [] else [.blank]) ++ declaration.lines ++ separated false rest

theorem Declaration.lines_ne_nil (declaration : Declaration) : declaration.lines ≠ [] := by
  cases declaration <;> simp [lines]

theorem separated_append (start : Bool) (declarations more : List Declaration) :
    separated start (declarations ++ more) =
      separated start declarations ++ separated (start && declarations.isEmpty) more := by
  induction declarations generalizing start with
  | nil => simp [separated]
  | cons declaration rest ih => simp [separated, ih]

theorem isEmpty_separated (start : Bool) (declarations : List Declaration) :
    (separated start declarations).isEmpty = declarations.isEmpty := by
  cases declarations with
  | nil => rfl
  | cons declaration rest => simp [separated, declaration.lines_ne_nil]

end Code

/-! ## The code of a property -/

namespace Statement

def instruction (names : MemberNames) (propertyType : String) : Statement → Code.Instruction
  | nullGuard => .refuseNull
  | returnIfSame => .returnFalseIf ("object.ReferenceEquals(this." ++ names.field ++ ", value)")
  | returnIfEqual =>
      .returnFalseIf ("global::System.Collections.Generic.EqualityComparer<" ++ propertyType ++
        ">.Default.Equals(this." ++ names.field ++ ", value)")
  | returnIfEqualByComparer =>
      .returnFalseIf ("equalityComparer.Equals(this." ++ names.field ++ ", value)")
  | raiseEvent phase => .raise (names.event phase)
  | notifyInterface phase => .notify ("Property" ++ phase.suffix) (names.eventArgs phase)
  | assign => .assign names.field
  | returnTrue => .returnTrue

theorem text_instruction (names : MemberNames) (propertyType : String) (statement : Statement) :
    (statement.instruction names propertyType).text = statement.line names propertyType := by
  unfold instruction Code.Instruction.text line
  cases statement with
  | nullGuard | raiseEvent | assign | returnTrue => rfl
  | returnIfSame | returnIfEqual | returnIfEqualByComparer | notifyInterface =>
      simp only [String.append_assoc, String.reduceAppend]
      rw [← String.append_assoc]
      simp only [String.reduceAppend]

end Statement

namespace PropertyDraft

def instructions (draft : PropertyDraft) (statements : List Statement) : List Code.Instruction :=
  statements.map (Statement.instruction draft.memberNames draft.propertyType)

theorem instructions_append (draft : PropertyDraft) (statements more : List Statement) :
    draft.instructions (statements ++ more) =
      draft.instructions statements ++ draft.instructions more :=
  List.map_append

/-- A member with the names that it is written with. -/
def declaration (draft : PropertyDraft) : Member → Code.Declaration
  | .eventArgs phase =>
      .argsField (Member.eventArgsType phase) (draft.memberNames.eventArgs phase)
        draft.memberNames.property
  | .redirect r =>
      .redirect (r.interfaceType ++ "." ++ r.eventName) (draft.memberNames.event r.phase)
        (draft.memberNames.event r.phase)
  | .event phase accessibility => .event accessibility.keyword (draft.memberNames.event phase)
  | .observable .changing accessibility =>
      .observable accessibility.keyword "object?" (draft.memberNames.observable .changing) ""
        (draft.memberNames.event .changing) (draft.memberNames.event .changing) "this"
        "pushValueAtSubscribed: false"
  | .observable .changed accessibility =>
      .observable accessibility.keyword draft.propertyType (draft.memberNames.observable .changed)
        "bool pushValueAtSubscribed = false" (draft.memberNames.event .changed)
        (draft.memberNames.event .changed) ("this." ++ draft.memberNames.field)
        "pushValueAtSubscribed"
  | .field => .field draft.propertyType draft.memberNames.field
  | .accessor => .getter draft.propertyType draft.memberNames.method draft.memberNames.field
  | .setter =>
      .setter
        (if draft.requiresNullGuard then
          ["[global::System.Diagnostics.CodeAnalysis.MemberNotNull(nameof(" ++
            draft.memberNames.field ++ "))]"]
        else [])
        draft.memberNames.method (draft.propertyType ++ " value")
        (draft.instructions (draft.guardStatements ++ [draft.sameValueStatement]))
        (draft.instructions draft.changeStatements)
  | .comparerSetter =>
      .setter [] draft.memberNames.method
        (draft.propertyType ++ " value, global::System.Collections.Generic.IEqualityComparer<" ++
          draft.propertyType ++ "> equalityComparer")
        (draft.instructions (draft.guardStatements ++ [.returnIfEqualByComparer]))
        (draft.instructions draft.changeStatements)

theorem text_declaration (draft : PropertyDraft) (member : Member) :
    (draft.declaration member).text = member.line draft.memberNames draft.propertyType := by
  unfold declaration Code.Declaration.text Member.line Member.eventHandlerType
    Vocabulary.eventToObservableType
  cases member with
  | eventArgs | field | accessor => rfl
  | redirect | event | setter | comparerSetter =>
      simp only [String.append_assoc, String.reduceAppend]
  | observable phase accessibility =>
      cases phase with
      | changing => simp only [String.append_assoc, String.reduceAppend]
      | changed =>
          have hvalue (rest : String) :
              " -= h, () => " ++ ("this." ++ rest) = " -= h, () => this." ++ rest := by
            rw [← String.append_assoc]
            simp only [String.reduceAppend]
          simp only [String.append_assoc, String.reduceAppend, hvalue]

/-- All that is declared for a property, in the order of the text. -/
def declarations (draft : PropertyDraft) : List Code.Declaration :=
  draft.memberGroups.flatten.map draft.declaration

end PropertyDraft

/-- A property with members of every kind, of a generic struct in a class. Its changing event is
only there for the observable. -/
def PropertyDraft.sample : PropertyDraft where
  containingType :=
    { name := "Cell", isValueType := true, genericArguments := ["T", "U"]
      container := .inType (.inNamespace "App.Models") { name := "Grid" } }
  propertyName := "Title"
  propertyType := "string"
  isReference := true
  nullability := .notAnnotated
  changing := { notifies := true, observable := some .publicAccess }
  changed := { notifies := true, event := some .publicAccess }
  redirects := [⟨"global::App.ITitled", "Retitled", .changed⟩]

end ChangeNotification
