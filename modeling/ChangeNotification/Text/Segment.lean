/-!
Texts cut at a separator, and texts that begin with a given lead.
-/

namespace ChangeNotification.Text

/-- The pieces between the separators; without a separator there is one piece. -/
def pieces (separator : Char) : List Char → List (List Char)
  | [] => [[]]
  | c :: rest =>
      if c = separator then [] :: pieces separator rest
      else match pieces separator rest with
        | [] => [[c]]
        | piece :: more => (c :: piece) :: more

def split (separator : Char) (s : String) : List String :=
  (pieces separator s.toList).map String.ofList

/-- What follows `lead` in `s`, if `s` begins with it. -/
def afterLead? (lead s : String) : Option String :=
  (lead.toList.isPrefixOf? s.toList).map String.ofList

/-- `s` without `lead` at its beginning, or `s` itself. -/
def withoutLead (lead s : String) : String :=
  (afterLead? lead s).getD s

end ChangeNotification.Text
