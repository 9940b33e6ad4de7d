/-!
The two points of a change at which listeners are told.
-/

namespace ChangeNotification

/-- Before the value changes, or after. -/
inductive Phase where
  | changing | changed
  deriving DecidableEq, Repr, Inhabited

/-- The word for the phase in generated names. -/
def Phase.suffix : Phase → String
  | changing => "Changing"
  | changed => "Changed"

end ChangeNotification
