import ChangeNotification.Symbol.Basic

/-!
How generated code spells a type: from the root namespace, nested types through their
containers, type arguments in full, and a question mark after a nullable reference.
-/

namespace ChangeNotification.TypeSymbol

def nullableMark (symbol : TypeSymbol) : String :=
  if symbol.isNullableReference then "?" else ""

/-- The brackets of an array with one comma between each two dimensions. -/
def rankSpecifier (rank : UInt32) : String :=
  "[" ++ String.ofList (List.replicate (rank.toNat - 1) ',') ++ "]"

def argumentList : List String → String
  | [] => ""
  | arguments => "<" ++ String.intercalate ", " arguments ++ ">"

mutual

/-- The spelling without the symbol's own nullable mark. -/
def bareSpelling : TypeSymbol → String
  | ⟨name, kind, namespaceSegments, containingType, _, typeArguments, elementType, arrayRank, _⟩ =>
      match kind with
      | .typeParameter => name
      | .array => elementSpelling elementType ++ rankSpecifier arrayRank
      | _ =>
          qualifier namespaceSegments containingType ++ name ++
            argumentList (argumentSpellings typeArguments)
termination_by structural symbol => symbol

/-- What stands before the name of a type. A container is spelled without its nullable mark,
and the namespace of a nested type does not count. -/
def qualifier (namespaceSegments : List String) : Option TypeSymbol → String
  | some container => bareSpelling container ++ "."
  | none => "global::" ++ String.join (namespaceSegments.map (· ++ "."))
termination_by structural container => container

def elementSpelling : Option TypeSymbol → String
  | some element => bareSpelling element ++ nullableMark element
  | none => "object"
termination_by structural element => element

def argumentSpellings : List TypeSymbol → List String
  | [] => []
  | argument :: rest => (bareSpelling argument ++ nullableMark argument) :: argumentSpellings rest
termination_by structural arguments => arguments

end

def spelling (symbol : TypeSymbol) : String :=
  bareSpelling symbol ++ nullableMark symbol

theorem argumentSpellings_eq_map (arguments : List TypeSymbol) :
    argumentSpellings arguments = arguments.map spelling := by
  induction arguments with
  | nil => rfl
  | cons argument rest ih => simp [argumentSpellings, spelling, ih]

end ChangeNotification.TypeSymbol
