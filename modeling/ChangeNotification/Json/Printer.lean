import ChangeNotification.Json.Basic

/-!
Writing JSON, on one line or laid out with two spaces a level. Only what JSON requires is
escaped, so text outside ASCII is written as it is.
-/

namespace ChangeNotification.Json

def hexDigit (n : Nat) : Char :=
  if n < 10 then Char.ofNat ('0'.toNat + n) else Char.ofNat ('a'.toNat + (n - 10))

/-- A character inside a string. -/
def escapeChar (c : Char) : List Char :=
  if c = '"' then ['\\', '"']
  else if c = '\\' then ['\\', '\\']
  else if c = '\x08' then ['\\', 'b']
  else if c = '\x0c' then ['\\', 'f']
  else if c = '\n' then ['\\', 'n']
  else if c = '\r' then ['\\', 'r']
  else if c = '\t' then ['\\', 't']
  else if c.toNat < 0x20 then
    ['\\', 'u', '0', '0', hexDigit (c.toNat / 16), hexDigit (c.toNat % 16)]
  else [c]

def quote (s : String) : String :=
  "\"" ++ String.ofList (s.toList.flatMap escapeChar) ++ "\""

/-- A value that is no container. A literal that has no value here is written as `null`. -/
def scalar : Json → String
  | .bool true => "true"
  | .bool false => "false"
  | .int n => toString n
  | .string s => quote s
  | _ => "null"

mutual

/-- The value on one line. -/
def compact : Json → String
  | .array elements => "[" ++ String.intercalate "," (compactElements elements) ++ "]"
  | .object members => "\x7b" ++ String.intercalate "," (compactMembers members) ++ "\x7d"
  | v => scalar v
termination_by structural v => v

def compactElements : List Json → List String
  | [] => []
  | v :: rest => compact v :: compactElements rest
termination_by structural vs => vs

def compactMembers : List (String × Json) → List String
  | [] => []
  | (name, v) :: rest => (quote name ++ ":" ++ compact v) :: compactMembers rest
termination_by structural ms => ms

end

/-- The beginning of a line at a depth of nesting. -/
def newLine (depth : Nat) : String :=
  "\n" ++ String.ofList (List.replicate (2 * depth) ' ')

/-- Items on lines of their own between brackets; no line is broken where there is no item. -/
def block (depth : Nat) (opening closing : String) : List String → String
  | [] => opening ++ closing
  | items =>
      opening ++ newLine (depth + 1) ++ String.intercalate ("," ++ newLine (depth + 1)) items ++
        newLine depth ++ closing

mutual

/-- The value laid out from a depth of nesting on. -/
def prettyAt (depth : Nat) : Json → String
  | .array elements => block depth "[" "]" (prettyElements (depth + 1) elements)
  | .object members => block depth "\x7b" "\x7d" (prettyMembers (depth + 1) members)
  | v => scalar v
termination_by structural v => v

def prettyElements (depth : Nat) : List Json → List String
  | [] => []
  | v :: rest => prettyAt depth v :: prettyElements depth rest
termination_by structural vs => vs

def prettyMembers (depth : Nat) : List (String × Json) → List String
  | [] => []
  | (name, v) :: rest => (quote name ++ ": " ++ prettyAt depth v) :: prettyMembers depth rest
termination_by structural ms => ms

end

/-- The value laid out on several lines. -/
def pretty (v : Json) : String := prettyAt 0 v

end ChangeNotification.Json
