/-!
The tokens of a JSON text. Scanning follows RFC 8259 to the letter: no leading zeros, no raw
control characters, no comments, four kinds of blanks.
-/

namespace ChangeNotification.Json

/-- A token. Of a number that is not written as an integer only that it is one is kept; a
string with an unpaired surrogate has no text. -/
inductive Token where
  | openObject | closeObject | openArray | closeArray | colon | comma
  | null
  | bool (b : Bool)
  | int (n : Int)
  | otherNumber
  | string (text : Option String)
  deriving DecidableEq, Repr

def isBlank (c : Char) : Bool :=
  c = ' ' || c = '\t' || c = '\n' || c = '\r'

/-! ### Strings -/

def hexDigit? (c : Char) : Option Nat :=
  if '0' ≤ c ∧ c ≤ '9' then some (c.toNat - '0'.toNat)
  else if 'a' ≤ c ∧ c ≤ 'f' then some (c.toNat - 'a'.toNat + 10)
  else if 'A' ≤ c ∧ c ≤ 'F' then some (c.toNat - 'A'.toNat + 10)
  else none

/-- The code unit written by four hexadecimal digits. -/
def codeUnit? (a b c d : Char) : Option Nat := do
  return (((← hexDigit? a) * 16 + (← hexDigit? b)) * 16 + (← hexDigit? c)) * 16 + (← hexDigit? d)

/-- A piece of a string: a character, or one half of a surrogate pair. -/
inductive Piece where
  | char (c : Char)
  | half (unit : Nat)
  deriving DecidableEq, Repr

def Piece.ofUnit (unit : Nat) : Piece :=
  if 0xD800 ≤ unit ∧ unit < 0xE000 then .half unit else .char (Char.ofNat unit)

/-- The character that a backslash and this letter stand for. -/
def simpleEscape? : Char → Option Char
  | '"' => some '"'
  | '\\' => some '\\'
  | '/' => some '/'
  | 'b' => some '\x08'
  | 'f' => some '\x0c'
  | 'n' => some '\n'
  | 'r' => some '\r'
  | 't' => some '\t'
  | _ => none

/-- The pieces of a string up to its closing quote, and what follows the quote. -/
def readPieces : List Char → Option (List Piece × List Char)
  | [] => none
  | '"' :: rest => some ([], rest)
  | '\\' :: 'u' :: a :: b :: c :: d :: rest => do
      let unit ← codeUnit? a b c d
      let (pieces, rest) ← readPieces rest
      return (.ofUnit unit :: pieces, rest)
  | '\\' :: c :: rest => do
      let c ← simpleEscape? c
      let (pieces, rest) ← readPieces rest
      return (.char c :: pieces, rest)
  | c :: rest =>
      if 0x20 ≤ c.toNat ∧ c ≠ '\\' then do
        let (pieces, rest) ← readPieces rest
        return (.char c :: pieces, rest)
      else none

/-- The text of the pieces; the halves of a pair must stand together. -/
def joinPieces : List Piece → Option (List Char)
  | [] => some []
  | .char c :: rest => (joinPieces rest).map (c :: ·)
  | .half high :: .half low :: rest =>
      if high < 0xDC00 ∧ 0xDC00 ≤ low then
        (joinPieces rest).map
          (Char.ofNat (0x10000 + (high - 0xD800) * 0x400 + (low - 0xDC00)) :: ·)
      else none
  | .half _ :: _ => none

def Token.ofPieces (pieces : List Piece) : Token :=
  .string ((joinPieces pieces).map String.ofList)

theorem readPieces_length {s rest : List Char} {pieces : List Piece}
    (h : readPieces s = some (pieces, rest)) : rest.length < s.length := by
  fun_induction readPieces s generalizing pieces with
  | case1 => simp at h
  | case2 => simp_all
  | case3 a b c d s ih =>
      simp only [bind, Option.bind_eq_some_iff, pure] at h
      obtain ⟨_, _, ⟨p, r⟩, hr, h⟩ := h
      obtain ⟨-, rfl⟩ := Prod.mk.inj (Option.some.inj h)
      have : r.length < s.length := ih hr
      simp only [List.length_cons]; omega
  | case4 c s _ ih =>
      simp only [bind, Option.bind_eq_some_iff, pure] at h
      obtain ⟨_, _, ⟨p, r⟩, hr, h⟩ := h
      obtain ⟨-, rfl⟩ := Prod.mk.inj (Option.some.inj h)
      have : r.length < s.length := ih hr
      simp only [List.length_cons]; omega
  | case5 c s _ _ _ _ ih =>
      simp only [bind, Option.bind_eq_some_iff, pure] at h
      obtain ⟨⟨p, r⟩, hr, h⟩ := h
      obtain ⟨-, rfl⟩ := Prod.mk.inj (Option.some.inj h)
      have : r.length < s.length := ih hr
      simp only [List.length_cons]; omega
  | case6 => simp at h

/-! ### Numbers -/

def isDigit (c : Char) : Bool := '0' ≤ c && c ≤ '9'

def natOfDigits (digits : List Char) : Nat :=
  digits.foldl (fun n c => n * 10 + (c.toNat - '0'.toNat)) 0

/-- Drops a run of at least one digit. -/
def dropDigits? (s : List Char) : Option (List Char) :=
  match s with
  | c :: rest => if isDigit c then some (rest.dropWhile isDigit) else none
  | [] => none

/-- What follows the fraction, and whether there was one. -/
def readFraction : List Char → Option (Bool × List Char)
  | '.' :: rest => (dropDigits? rest).map (true, ·)
  | s => some (false, s)

def dropSign : List Char → List Char
  | '+' :: rest | '-' :: rest => rest
  | s => s

/-- What follows the exponent, and whether there was one. -/
def readExponent : List Char → Option (Bool × List Char)
  | 'e' :: rest | 'E' :: rest => (dropDigits? (dropSign rest)).map (true, ·)
  | s => some (false, s)

/-- Whether digits may stand before a fraction: at least one, and no zero in front of others. -/
def isWhole (digits : List Char) : Bool :=
  digits = ['0'] ∨ (digits ≠ [] ∧ digits.head? ≠ some '0')

/-- A number with its sign already read. A zero with a sign is no integer. -/
def readMagnitude (negative : Bool) (s : List Char) : Option (Token × List Char) :=
  let digits := s.takeWhile isDigit
  if isWhole digits then do
    let (fraction, rest) ← readFraction (s.dropWhile isDigit)
    let (exponent, rest) ← readExponent rest
    let n := natOfDigits digits
    let token : Token :=
      if fraction ∨ exponent ∨ (negative ∧ n = 0) then .otherNumber
      else .int (if negative then -(n : Int) else n)
    return (token, rest)
  else none

/-! ### Tokens -/

/-- A word and the token it stands for. -/
def keyword? (s : List Char) : Option (Token × List Char) :=
  match s with
  | 'n' :: 'u' :: 'l' :: 'l' :: rest => some (.null, rest)
  | 't' :: 'r' :: 'u' :: 'e' :: rest => some (.bool true, rest)
  | 'f' :: 'a' :: 'l' :: 's' :: 'e' :: rest => some (.bool false, rest)
  | _ => none

/-- The token that begins with `c`, and what follows it in `rest`. -/
def readToken (c : Char) (rest : List Char) : Option (Token × List Char) :=
  match c with
  | '\x7b' => some (.openObject, rest)
  | '\x7d' => some (.closeObject, rest)
  | '[' => some (.openArray, rest)
  | ']' => some (.closeArray, rest)
  | ':' => some (.colon, rest)
  | ',' => some (.comma, rest)
  | '"' => (readPieces rest).map fun (pieces, rest) => (.ofPieces pieces, rest)
  | '-' => readMagnitude true rest
  | _ => if isDigit c then readMagnitude false (c :: rest) else keyword? (c :: rest)

/-! ### Every token is shorter than what it is read from -/

theorem dropDigits?_length {s rest : List Char} (h : dropDigits? s = some rest) :
    rest.length < s.length := by
  unfold dropDigits? at h
  split at h
  · split at h
    · rename_i c r _
      obtain rfl := Option.some.inj h
      have := (List.dropWhile_suffix isDigit (l := r)).length_le
      simp only [List.length_cons]; omega
    · simp at h
  · simp at h

theorem readFraction_length {s rest : List Char} {present : Bool}
    (h : readFraction s = some (present, rest)) : rest.length ≤ s.length := by
  unfold readFraction at h
  split at h
  · obtain ⟨r, hr, h⟩ := Option.map_eq_some_iff.mp h
    obtain ⟨-, rfl⟩ := Prod.mk.inj h
    have := dropDigits?_length hr
    simp only [List.length_cons]; omega
  · obtain ⟨-, rfl⟩ := Prod.mk.inj (Option.some.inj h)
    exact Nat.le_refl _

theorem dropSign_length (s : List Char) : (dropSign s).length ≤ s.length := by
  unfold dropSign
  split <;> simp

theorem readExponent_length {s rest : List Char} {present : Bool}
    (h : readExponent s = some (present, rest)) : rest.length ≤ s.length := by
  unfold readExponent at h
  split at h
  iterate 2
    rename_i s
    obtain ⟨r, hr, h⟩ := Option.map_eq_some_iff.mp h
    obtain ⟨-, rfl⟩ := Prod.mk.inj h
    have := dropDigits?_length hr
    have := dropSign_length s
    simp only [List.length_cons]; omega
  obtain ⟨-, rfl⟩ := Prod.mk.inj (Option.some.inj h)
  exact Nat.le_refl _

theorem readMagnitude_length {negative : Bool} {s rest : List Char} {token : Token}
    (h : readMagnitude negative s = some (token, rest)) : rest.length < s.length := by
  simp only [readMagnitude] at h
  split at h
  case isFalse => simp at h
  rename_i hw
  simp only [bind, Option.bind_eq_some_iff, pure] at h
  obtain ⟨⟨_, r₁⟩, h₁, ⟨_, r₂⟩, h₂, h⟩ := h
  obtain ⟨-, rfl⟩ := Prod.mk.inj (Option.some.inj h)
  have h₁ : r₁.length ≤ _ := readFraction_length h₁
  have h₂ : r₂.length ≤ r₁.length := readExponent_length h₂
  have hd : s.takeWhile isDigit ≠ [] := by
    intro hd
    simp [hd, isWhole] at hw
  have hs := congrArg List.length (List.takeWhile_append_dropWhile (p := isDigit) (l := s))
  have := List.length_pos_iff.mpr hd
  simp only [List.length_append] at hs
  show r₂.length < s.length
  omega

theorem keyword?_length {s rest : List Char} {token : Token}
    (h : keyword? s = some (token, rest)) : rest.length < s.length := by
  unfold keyword? at h
  split at h
  iterate 3
    obtain ⟨-, rfl⟩ := Prod.mk.inj (Option.some.inj h)
    simp only [List.length_cons]; omega
  simp at h

theorem readToken_length {c : Char} {s rest : List Char} {token : Token}
    (h : readToken c s = some (token, rest)) : rest.length ≤ s.length := by
  unfold readToken at h
  split at h
  iterate 6
    obtain ⟨-, rfl⟩ := Prod.mk.inj (Option.some.inj h)
    exact Nat.le_refl _
  · obtain ⟨⟨_, r⟩, hr, h⟩ := Option.map_eq_some_iff.mp h
    obtain ⟨-, rfl⟩ := Prod.mk.inj h
    exact Nat.le_of_lt (readPieces_length hr)
  · exact Nat.le_of_lt (readMagnitude_length h)
  · split at h
    · exact Nat.le_of_lt_succ (readMagnitude_length h)
    · exact Nat.le_of_lt_succ (keyword?_length h)

/-- The tokens of a text, if it is made of tokens and blanks. -/
def scan : List Char → Option (List Token)
  | [] => some []
  | c :: rest =>
      if isBlank c then scan rest
      else match _h : readToken c rest with
        | some (token, rest') => (scan rest').map (token :: ·)
        | none => none
termination_by s => s.length
decreasing_by
  · simp
  · have := readToken_length ‹_›
    simp only [List.length_cons]; omega

end ChangeNotification.Json
