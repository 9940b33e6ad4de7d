import ChangeNotification.Project.Config

/-!
The arguments of a command: what a command accepts, and how a list of words is read against
that. An option waits for its value until the next word, and what is wrong with it shows only
when it is settled; so an unknown word shows first.
-/

namespace ChangeNotification.CommandLine

/-- Why a list of words is refused. Help that is asked for is no result either. -/
inductive UsageError where
  | unknownArgument
  | invalidValue
  | valueValidation
  | argumentConflict
  | tooManyValues
  | displayHelp
  deriving DecidableEq, Repr, Inhabited

/-- What an argument says. -/
inductive Value where
  | flag
  | text (s : String)
  | mode (mode : GenerationMode)
  | count (n : Nat)
  deriving DecidableEq, Repr, Inhabited

/-- The values that an argument takes. -/
inductive ValueKind where
  | text
  | path
  | mode
  | count
  deriving DecidableEq, Repr, Inhabited

/-- The number that decimal digits give, with a plus in front or without; it has 64 bits. -/
def count? (s : String) : Option Nat :=
  let digits := match s.toList with
    | '+' :: rest => rest
    | digits => digits
  if digits.isEmpty || !digits.all Char.isDigit then none
  else
    let n := digits.foldl (fun n c => 10 * n + (c.toNat - '0'.toNat)) 0
    if n < UInt64.size then some n else none

def ValueKind.read (kind : ValueKind) (s : String) : Except UsageError Value :=
  match kind with
  | text => .ok (.text s)
  | path => if s.isEmpty then .error .invalidValue else .ok (.text s)
  | mode =>
      match GenerationMode.ofName? s with
      | some m => .ok (.mode m)
      | none => .error .invalidValue
  | count =>
      match count? s with
      | some n => .ok (.count n)
      | none => .error .valueValidation

/-- An option by its long name, and by a letter where it has one. A flag takes no value. -/
structure OptionRule where
  long : String
  short : Option Char := none
  kind : Option ValueKind := none
  deriving DecidableEq, Repr

/-- An argument that is told by its place. -/
structure PlaceRule where
  name : String
  kind : ValueKind
  deriving DecidableEq, Repr

/-- The arguments that a command accepts. -/
structure Grammar where
  options : List OptionRule
  places : List PlaceRule := []

/-- The option that asks for help, which every command has. -/
def helpRule : OptionRule := { long := "help", short := some 'h' }

namespace Grammar

def long? (grammar : Grammar) (name : String) : Option OptionRule :=
  (helpRule :: grammar.options).find? (·.long = name)

def short? (grammar : Grammar) (letter : Char) : Option OptionRule :=
  (helpRule :: grammar.options).find? (·.short = some letter)

end Grammar

/-! ### Words -/

inductive Word where
  | escape
  | long (name : String) (value : Option String)
  | short (letters : List Char)
  | plain (s : String)
  deriving DecidableEq, Repr

/-- A long option, whose value may follow behind the first equals sign. -/
def Word.ofLong (letters : List Char) : Word :=
  match letters.span (· ≠ '=') with
  | (name, '=' :: value) => long (String.ofList name) (some (String.ofList value))
  | (name, _) => long (String.ofList name) none

/-- A single dash is no option. -/
def Word.ofText (s : String) : Word :=
  match s.toList with
  | ['-', '-'] => escape
  | '-' :: '-' :: letters => ofLong letters
  | ['-'] => plain s
  | '-' :: letters => short letters
  | _ => plain s

/-! ### Reading -/

/-- An argument that was begun and is not settled yet. -/
structure Pending where
  name : String
  kind : ValueKind
  value : Option String

/-- What was read so far. -/
structure Reading where
  given : List (String × Value) := []
  pending : Option Pending := none
  places : List PlaceRule
  /-- Whether only places are left to read. -/
  escaped : Bool := false

namespace Reading

def record (r : Reading) (name : String) (value : Value) : Reading :=
  { r with given := r.given ++ [(name, value)] }

/-- Takes an argument in, unless it was given before. -/
def accept (r : Reading) (name : String) (value : Except UsageError Value) :
    Except UsageError Reading :=
  if (r.given.lookup name).isSome then .error .argumentConflict
  else value.map (r.record name)

def settle (r : Reading) : Except UsageError Reading :=
  match r.pending with
  | none => .ok r
  | some pending =>
      match pending.value with
      | none => .error .invalidValue
      | some s => { r with pending := none }.accept pending.name (pending.kind.read s)

/-- Reads a flag. -/
def flag (r : Reading) (rule : OptionRule) : Except UsageError Reading := do
  let r ← r.settle
  if rule = helpRule then throw .displayHelp
  r.accept rule.long (.ok .flag)

/-- Reads an option that takes a value, which may be attached. -/
def option (r : Reading) (rule : OptionRule) (kind : ValueKind) (value : Option String) :
    Except UsageError Reading := do
  let r ← r.settle
  match value with
  | some s => r.accept rule.long (kind.read s)
  | none => return { r with pending := some ⟨rule.long, kind, none⟩ }

def long (grammar : Grammar) (r : Reading) (name : String) (value : Option String) :
    Except UsageError Reading :=
  match grammar.long? name with
  | none => .error .unknownArgument
  | some rule =>
      match rule.kind, value with
      | some kind, value => r.option rule kind value
      | none, none => r.flag rule
      | none, some _ => .error .tooManyValues

/-- Reads flags by their letters. What follows an option that takes a value is its value; an
equals sign between them does not count. -/
def short (grammar : Grammar) (r : Reading) : List Char → Except UsageError Reading
  | [] => .ok r
  | letter :: rest =>
      match grammar.short? letter with
      | none => .error .unknownArgument
      | some rule =>
          match rule.kind with
          | none => do (← r.flag rule).short grammar rest
          | some kind =>
              match rest with
              | [] => r.option rule kind none
              | '=' :: value => r.option rule kind (some (String.ofList value))
              | value => r.option rule kind (some (String.ofList value))

/-- Reads a word that is no option: the value that is waited for, or the next place. -/
def plain (r : Reading) (s : String) : Except UsageError Reading :=
  match r.pending, r.escaped with
  | some ⟨name, kind, none⟩, false => .ok { r with pending := some ⟨name, kind, some s⟩ }
  | _, _ =>
      match r.places with
      | [] => .error .unknownArgument
      | place :: places => do
          let r ← r.settle
          return { r with pending := some ⟨place.name, place.kind, some s⟩, places }

def word (grammar : Grammar) (r : Reading) (s : String) : Except UsageError Reading :=
  if r.escaped then r.plain s
  else
    match Word.ofText s with
    | .escape => .ok { r with escaped := true }
    | .long name value => r.long grammar name value
    | .short letters => r.short grammar letters
    | .plain s => r.plain s

end Reading

/-- The arguments that a list of words gives. -/
def Grammar.read (grammar : Grammar) (words : List String) :
    Except UsageError (List (String × Value)) := do
  let r ← words.foldlM (Reading.word grammar) { places := grammar.places }
  return (← r.settle).given

end ChangeNotification.CommandLine
