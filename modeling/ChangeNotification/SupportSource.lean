import ChangeNotification.Emission.Unit
import ChangeNotification.Vocabulary

/-!
The sources that generated code and annotated code rely on: the attribute classes, the
accessibility enumeration, and the observable that adapts an event.
-/

namespace ChangeNotification.SupportSource

open SourceBuffer (Edit)

/-- The application that restricts an attribute class to properties. -/
def attributeUsage (allowMultiple : Bool) : String :=
  "[global::System.AttributeUsage(global::System.AttributeTargets.Property, AllowMultiple = " ++
    (if allowMultiple then "true" else "false") ++ ", Inherited = false)]"

/-- What an attribute class of a role declares. -/
def attributeMember (role : AttributeRole) : String :=
  match role with
  | .enable => "public bool " ++ Vocabulary.eventArgsOnlyArgument ++ " \x7b get; set; \x7d"
  | .event _ | .observable _ =>
      "public " ++ role.simpleName ++ "(global::" ++ Vocabulary.qualifiedAccessibilityEnum ++
        " accessibility = global::" ++ Vocabulary.qualifiedAccessibilityEnum ++
        ".Default) \x7b \x7d"
  | .redirect _ => "public " ++ role.simpleName ++ "(string interfaceType, string eventName) \x7b \x7d"

/-- Only redirects may be asked for several times. -/
def allowsMultiple : AttributeRole → Bool
  | .redirect _ => true
  | .enable | .event _ | .observable _ => false

def attributeClassEdits (role : AttributeRole) : List Edit := [
  .separate,
  .addLine (attributeUsage (allowsMultiple role)),
  .openBlock ("internal sealed class " ++ role.simpleName ++ " : global::System.Attribute"),
  .addLine (attributeMember role),
  .closeBlock]

def attributesEdits : List Edit :=
  .openBlock ("namespace " ++ Vocabulary.attributeNamespace) ::
    AttributeRole.all.flatMap attributeClassEdits ++ [.closeBlock]

def accessibilityEnumEdits : List Edit :=
  .openBlock ("namespace " ++ Vocabulary.attributeNamespace) ::
    .openBlock ("internal enum " ++ Vocabulary.accessibilityEnum) ::
    AccessibilityChoice.all.zipIdx.map (fun (choice, value) =>
      .addLine (choice.memberName ++ " = " ++ toString value ++ ",")) ++
    [.closeBlock, .closeBlock]

/-- The lines of the adapter, which bring their own indentation. -/
def eventToObservableLines : List String := [
  "internal sealed class EventToObservable<T> : global::System.IObservable<T>",
  "\x7b",
  "    private readonly global::System.Action<global::System.EventHandler> _addHandler;",
  "    private readonly global::System.Action<global::System.EventHandler> _removeHandler;",
  "    private readonly global::System.Func<T> _getValue;",
  "    private readonly bool _pushValueAtSubscribed;",
  "",
  "    public EventToObservable(global::System.Action<global::System.EventHandler> addHandler, global::System.Action<global::System.EventHandler> removeHandler, global::System.Func<T> getValue, bool pushValueAtSubscribed)",
  "    \x7b",
  "        _addHandler = addHandler;",
  "        _removeHandler = removeHandler;",
  "        _getValue = getValue;",
  "        _pushValueAtSubscribed = pushValueAtSubscribed;",
  "    \x7d",
  "",
  "    public global::System.IDisposable Subscribe(global::System.IObserver<T> observer)",
  "    \x7b",
  "        if (observer is null) throw new global::System.ArgumentNullException(nameof(observer));",
  "",
  "        global::System.EventHandler handler = (sender, e) => observer.OnNext(_getValue());",
  "        _addHandler(handler);",
  "        if (_pushValueAtSubscribed) observer.OnNext(_getValue());",
  "        return new Subscription(_removeHandler, handler);",
  "    \x7d",
  "",
  "    private sealed class Subscription : global::System.IDisposable",
  "    \x7b",
  "        private global::System.Action<global::System.EventHandler>? _removeHandler;",
  "        private readonly global::System.EventHandler _handler;",
  "",
  "        public Subscription(global::System.Action<global::System.EventHandler> removeHandler, global::System.EventHandler handler)",
  "        \x7b",
  "            _removeHandler = removeHandler;",
  "            _handler = handler;",
  "        \x7d",
  "",
  "        public void Dispose()",
  "        \x7b",
  "            var removeHandler = global::System.Threading.Interlocked.Exchange(ref _removeHandler, null);",
  "            removeHandler?.Invoke(_handler);",
  "        \x7d",
  "    \x7d",
  "\x7d"]

def eventToObservableEdits : List Edit :=
  .openBlock ("namespace " ++ Vocabulary.attributeNamespace ++ ".Internal") ::
    eventToObservableLines.map (fun line => if line = "" then .blankLine else .addLine line) ++
    [.closeBlock]

/-- A support source of that name, under the same header as generated units. -/
def render (options : EmitOptions) (name : String) (edits : List Edit) : GeneratedSource :=
  let header := Emission.headerEdits options ++ [.addLine Emission.nullableDirective]
  ⟨Vocabulary.attributeNamespace ++ "." ++ name ++ ".g.cs",
    (options.buffer.applyAll (header ++ edits)).text⟩

def all (options : EmitOptions) : List GeneratedSource := [
  render options "Attributes" attributesEdits,
  render options Vocabulary.accessibilityEnum accessibilityEnumEdits,
  render options "EventToObservable" eventToObservableEdits]

end ChangeNotification.SupportSource
