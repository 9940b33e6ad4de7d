import ChangeNotification.Text.Segment

/-!
Paths as they are written. Joining them changes nothing inside them.
-/

namespace ChangeNotification.Path

def isAbsolute (path : String) : Bool :=
  (Text.afterLead? "/" path).isSome

/-- What stands between two slashes or at an end. A leading slash leaves an empty component in
front and one at the end an empty component behind. -/
def components (path : String) : List String :=
  Text.split '/' path

/-- `path` as seen from `base`. One that is absolute stands for itself. -/
def join (base path : String) : String :=
  if isAbsolute path then path
  else if base.isEmpty then path
  else if base.toList.getLast? = some '/' then base ++ path
  else base ++ "/" ++ path

/-- The path below `base` that leads through `names`. -/
def below (base : String) (names : List String) : String :=
  names.foldl join base

end ChangeNotification.Path
