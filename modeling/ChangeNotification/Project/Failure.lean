import ChangeNotification.Project.FileTree

/-!
Why a command ends without success.
-/

namespace ChangeNotification

inductive Failure where
  | unreadable (path : String)
  | invalidConfig (path : String)
  | missingFacts (path : String)
  | notCreated (path : String) (cause : FileError)
  | notWritten (path : String) (cause : FileError)
  | file (cause : FileError)
  | incomplete (failed : Nat)
  deriving DecidableEq, Repr, Inhabited

namespace Failure

def message : Failure → String
  | unreadable path => "Failed to read " ++ path
  | invalidConfig path => "Invalid config file " ++ path
  | missingFacts path => "Facts path does not exist: " ++ path
  | notCreated path _ => "Failed to create " ++ path
  | notWritten path _ => "Failed to write " ++ path
  | file cause => cause.message
  | incomplete failed => toString failed ++ " properties failed to generate"

/-- What lies behind the message, where it does not say so itself. -/
def cause? : Failure → Option FileError
  | notCreated _ cause | notWritten _ cause => some cause
  | unreadable _ | invalidConfig _ | missingFacts _ | file _ | incomplete _ => none

end Failure

end ChangeNotification
