import ChangeNotification.Json.Printer
import ChangeNotification.Json.Reader
import Mathlib.Data.List.TakeWhile

/-! # Texts that are read again

A value that is laid out on several lines is read as what it was. The reader is followed through the
text: where a value begins it waits for one, and behind the value it goes on with what is left. -/

namespace ChangeNotification.Json

/-- A value with a text of its own, and with no more than so many containers in one another. -/
inductive Fits : Nat → Json → Prop where
  | null {levels : Nat} : Fits levels .null
  | bool {levels : Nat} (b : Bool) : Fits levels (.bool b)
  | int {levels : Nat} (n : Int) : Fits levels (.int n)
  | string {levels : Nat} (s : String) : Fits levels (.string s)
  | array {levels : Nat} {elements : List Json} (h : ∀ v ∈ elements, Fits levels v) :
      Fits (levels + 1) (.array elements)
  | object {levels : Nat} {members : List (String × Json)} (h : ∀ m ∈ members, Fits levels m.2) :
      Fits (levels + 1) (.object members)

@[simp] theorem fits_null {levels : Nat} : Fits levels .null := .null

@[simp] theorem fits_bool {levels : Nat} (b : Bool) : Fits levels (.bool b) := .bool b

@[simp] theorem fits_int {levels : Nat} (n : Int) : Fits levels (.int n) := .int n

@[simp] theorem fits_string {levels : Nat} (s : String) : Fits levels (.string s) := .string s

@[simp] theorem fits_array {levels : Nat} {elements : List Json} :
    Fits (levels + 1) (.array elements) ↔ ∀ v ∈ elements, Fits levels v :=
  ⟨fun | .array h => h, .array⟩

@[simp] theorem fits_object {levels : Nat} {members : List (String × Json)} :
    Fits (levels + 1) (.object members) ↔ ∀ m ∈ members, Fits levels m.2 :=
  ⟨fun | .object h => h, .object⟩

/-- What can stand behind a value: nothing, a comma, or the rest of the lines. -/
inductive IsBoundary : List Char → Prop where
  | over : IsBoundary []
  | comma (rest : List Char) : IsBoundary (',' :: rest)
  | line (rest : List Char) : IsBoundary ('\n' :: rest)

theorem isBoundary_newLine_append (depth : Nat) (rest : List Char) :
    IsBoundary ((newLine depth).toList ++ rest) := by
  rw [newLine, String.toList_append, List.append_assoc]
  exact .line _

/-! ## Numbers -/

section Numbers

variable {rest : List Char} {n : Nat}

theorem isDigit_of_mem_toDigits {c : Char} (h : c ∈ Nat.toDigits 10 n) : isDigit c = true :=
  Nat.isDigit_of_mem_toDigits (by decide) (by decide) h

theorem natOfDigits_toDigits (n : Nat) : natOfDigits (Nat.toDigits 10 n) = n := by
  have hstep : (fun (n : Nat) (c : Char) => n * 10 + (c.toNat - '0'.toNat)) =
      fun n c => 10 * n + (c.toNat - '0'.toNat) := by
    funext n c
    rw [Nat.mul_comm]
  rw [natOfDigits, hstep]
  exact Nat.ofDigitChars_toDigits (by decide) (by decide)

theorem head?_toDigits_ne_zero (h : n ≠ 0) : (Nat.toDigits 10 n).head? ≠ some '0' := by
  induction n using Nat.strongRecOn with
  | ind n ih =>
      rcases Nat.lt_or_ge n 10 with hsmall | hlarge
      · have hdigit : ∀ n < 10, n ≠ 0 → n.digitChar ≠ '0' := by decide
        rw [Nat.toDigits_of_lt_base hsmall]
        simpa using hdigit n hsmall h
      · rw [Nat.toDigits_of_base_le (by decide) hlarge, List.head?_append,
          Option.or_of_isSome (by simp [Nat.toDigits_ne_nil])]
        exact ih (n / 10) (by omega) (by omega)

theorem isWhole_toDigits (n : Nat) : isWhole (Nat.toDigits 10 n) = true := by
  by_cases hzero : n = 0
  · subst hzero
    decide
  · simp [isWhole, Nat.toDigits_ne_nil, head?_toDigits_ne_zero hzero]

theorem readMagnitude_toDigits (negative : Bool) (n : Nat) (hrest : IsBoundary rest)
    (hzero : negative = true → n ≠ 0) :
    readMagnitude negative (Nat.toDigits 10 n ++ rest) =
      some (.int (if negative then -(n : Int) else n), rest) := by
  have hends : rest.takeWhile isDigit = [] ∧ rest.dropWhile isDigit = rest ∧
      readFraction rest = some (false, rest) ∧ readExponent rest = some (false, rest) := by
    cases hrest <;> exact ⟨rfl, rfl, rfl, rfl⟩
  obtain ⟨htake, hdrop, hfraction, hexponent⟩ := hends
  have hdigits : ∀ c ∈ Nat.toDigits 10 n, isDigit c = true := fun c => isDigit_of_mem_toDigits
  simp [readMagnitude, List.takeWhile_append_of_pos hdigits, List.dropWhile_append_of_pos hdigits,
    htake, hdrop, hfraction, hexponent, isWhole_toDigits, natOfDigits_toDigits]
  simpa using hzero

theorem readToken_of_isDigit {c : Char} (h : isDigit c = true) :
    readToken c rest = readMagnitude false (c :: rest) := by
  unfold readToken
  split
  case h_9 => rw [if_pos h]
  all_goals exact absurd h (by decide)

end Numbers

/-! ## Strings -/

theorem hexDigit?_hexDigit : ∀ n < 16, hexDigit? (hexDigit n) = some n := by
  decide

/-- A character is written with a letter that stands for it, by its number, or as it is. -/
theorem escapeChar_cases (c : Char) :
    (∃ letter, letter ≠ 'u' ∧ simpleEscape? letter = some c ∧ escapeChar c = ['\\', letter]) ∨
      (c.toNat < 0x20 ∧ escapeChar c =
        ['\\', 'u', '0', '0', hexDigit (c.toNat / 16), hexDigit (c.toNat % 16)]) ∨
      (0x20 ≤ c.toNat ∧ c ≠ '"' ∧ c ≠ '\\' ∧ escapeChar c = [c]) := by
  unfold escapeChar
  iterate 7
    split
    · subst_vars
      refine .inl ⟨_, ?_, ?_, rfl⟩ <;> decide
  split
  · exact .inr (.inl ⟨‹_›, rfl⟩)
  · exact .inr (.inr ⟨Nat.not_lt.mp ‹_›, ‹_›, ‹_›, rfl⟩)

variable {c : Char} {rest after : List Char} {pieces : List Piece}

/-- What is written for a character is read as the character. -/
theorem readPieces_escapeChar (h : readPieces rest = some (pieces, after)) :
    readPieces (escapeChar c ++ rest) = some (.char c :: pieces, after) := by
  rcases escapeChar_cases c with
    ⟨letter, hletter, hmeans, hwritten⟩ | ⟨hcontrol, hwritten⟩ | ⟨hplain, hquote, hslash, hwritten⟩
  · rw [hwritten]
    simp [readPieces, hletter, hmeans, h]
  · have hunit : codeUnit? '0' '0' (hexDigit (c.toNat / 16)) (hexDigit (c.toNat % 16)) =
        some c.toNat := by
      have hzero : hexDigit? '0' = some 0 := by decide
      simp [codeUnit?, hzero, hexDigit?_hexDigit (c.toNat / 16) (by omega),
        hexDigit?_hexDigit (c.toNat % 16) (by omega)]
      omega
    have hpiece : Piece.ofUnit c.toNat = .char c := by
      rw [Piece.ofUnit, if_neg (by omega), Char.ofNat_toNat]
    rw [hwritten]
    simp [readPieces, hunit, hpiece, h]
  · rw [hwritten]
    simp [readPieces, hslash, hplain, h]

theorem readPieces_flatMap (s rest : List Char) :
    readPieces (s.flatMap escapeChar ++ '"' :: rest) = some (s.map .char, rest) := by
  induction s with
  | nil => simp [readPieces]
  | cons c s ih =>
      rw [List.flatMap_cons, List.append_assoc, readPieces_escapeChar ih, List.map_cons]

theorem joinPieces_map_char (s : List Char) : joinPieces (s.map .char) = some s := by
  induction s with
  | nil => rfl
  | cons c s ih => rw [List.map_cons, joinPieces, ih, Option.map_some]

theorem toList_quote (s : String) :
    (quote s).toList = '"' :: (s.toList.flatMap escapeChar ++ ['"']) := by
  simp [quote]

theorem readToken_quote (s : String) (rest : List Char) :
    readToken '"' (s.toList.flatMap escapeChar ++ '"' :: rest) = some (.string (some s), rest) := by
  simp [readToken, readPieces_flatMap, Token.ofPieces, joinPieces_map_char]

/-! ## Following the reader -/

namespace Reader

/-- The value that is read in the end, from what is left of a text. -/
def finish? (reader : Reader) (text : List Char) : Option Json :=
  (scan text).bind fun tokens => (reader.run tokens).bind result?

variable {reader next : Reader} {token : Token} {c : Char} {text rest : List Char} {v w : Json}
  {stack : List Frame}

theorem parse?_eq_finish? (text : String) : parse? text = (Reader.value []).finish? text.toList :=
  rfl

theorem finish?_cons_of_isBlank (h : isBlank c = true) :
    reader.finish? (c :: rest) = reader.finish? rest := by
  rw [finish?, scan, if_pos h, finish?]

theorem finish?_append_of_isBlank {blanks : List Char} (h : ∀ c ∈ blanks, isBlank c = true) :
    reader.finish? (blanks ++ rest) = reader.finish? rest := by
  induction blanks with
  | nil => rfl
  | cons c blanks ih =>
      rw [List.cons_append, finish?_cons_of_isBlank (h c (.head _)),
        ih fun other hother => h other (.tail _ hother)]

theorem finish?_newLine (depth : Nat) :
    reader.finish? ((newLine depth).toList ++ rest) = reader.finish? rest :=
  finish?_append_of_isBlank (by simp [newLine, isBlank])

/-- One token takes the reader one step on. -/
theorem finish?_cons_of_readToken (hblank : isBlank c = false)
    (htoken : readToken c text = some (token, rest)) (hstep : reader.step token = some next) :
    reader.finish? (c :: text) = next.finish? rest := by
  rw [finish?, scan, if_neg (by simp [hblank])]
  split
  · rename_i token' rest' htoken'
    cases htoken.symm.trans htoken'
    cases hscan : scan rest with
    | none => simp [finish?, hscan]
    | some tokens => simp [finish?, hscan, run, hstep]
  · rename_i hnone
    cases htoken.symm.trans hnone

theorem finish?_of_run (hrun : ∀ tokens, (next.run tokens).bind result? = some w →
    (reader.run tokens).bind result? = some w) (h : next.finish? text = some w) :
    reader.finish? text = some w := by
  rw [finish?, Option.bind_eq_some_iff] at h ⊢
  obtain ⟨tokens, hscan, h⟩ := h
  exact ⟨tokens, hscan, hrun tokens h⟩

/-- Before its first element an array waits for what it waits for before any other. -/
theorem finish?_firstElement (h : (Reader.value (.array [] :: stack)).finish? text = some w) :
    (Reader.firstElement stack).finish? text = some w := by
  refine finish?_of_run (fun tokens h => ?_) h
  cases tokens with
  | nil => cases h
  | cons token tokens => cases token <;> first | exact h | cases h

theorem finish?_firstName (h : (Reader.nextName stack []).finish? text = some w) :
    (Reader.firstName stack).finish? text = some w := by
  refine finish?_of_run (fun tokens h => ?_) h
  cases tokens with
  | nil => cases h
  | cons token tokens => cases token <;> first | exact h | cases h

/-! ## Values that are no containers -/

theorem isBlank_of_isDigit (h : isDigit c = true) : isBlank c = false := by
  rw [← Bool.not_eq_true]
  intro hblank
  simp only [isBlank, Bool.or_eq_true, decide_eq_true_eq] at hblank
  rcases hblank with ((rfl | rfl) | rfl) | rfl <;> exact absurd h (by decide)

theorem finish?_int (n : Int) (hrest : IsBoundary rest) :
    (value stack).finish? ((toString n).toList ++ rest) =
      (done stack (.int n)).finish? rest := by
  cases n with
  | ofNat n =>
      have hwritten : (toString (Int.ofNat n)).toList = Nat.toDigits 10 n := Nat.toList_repr
      have hread := readMagnitude_toDigits false n hrest (by simp)
      have hdigits : ∀ c ∈ Nat.toDigits 10 n, isDigit c = true := fun c => isDigit_of_mem_toDigits
      rw [hwritten]
      cases hcases : Nat.toDigits 10 n with
      | nil => exact absurd hcases Nat.toDigits_ne_nil
      | cons c digits =>
          rw [hcases] at hread hdigits
          have hfirst := hdigits c (.head _)
          exact finish?_cons_of_readToken (isBlank_of_isDigit hfirst)
            ((readToken_of_isDigit hfirst).trans hread) rfl
  | negSucc n =>
      have hwritten : (toString (Int.negSucc n)).toList = '-' :: Nat.toDigits 10 (n + 1) := by
        change ("-" ++ (n + 1).repr).toList = _
        rw [String.toList_append, Nat.toList_repr]
        rfl
      have hread := readMagnitude_toDigits true (n + 1) hrest (by simp)
      rw [hwritten]
      exact finish?_cons_of_readToken (by decide) hread rfl

theorem finish?_quote (s : String) (hstep : reader.step (.string (some s)) = some next) :
    reader.finish? ((quote s).toList ++ rest) = next.finish? rest := by
  rw [toList_quote, List.cons_append, List.append_assoc]
  exact finish?_cons_of_readToken (by decide) (readToken_quote s rest) hstep

/-! ## Containers -/

/-- How the reader gets through a container: what it waits for before the first item, before any
item that comes after others, latest first, and behind an item. -/
structure Passage (α : Type) (stack : List Frame) where
  opening : String
  closing : String
  first : Reader
  start : List α → Reader
  stop : α → List α → Reader
  container : List α → Json
  finish?_opening : ∀ text,
    (value stack).finish? (opening.toList ++ text) = first.finish? text
  finish?_first : ∀ {text w}, (start []).finish? text = some w → first.finish? text = some w
  step_comma : ∀ item before, (stop item before).step .comma = some (start (item :: before))
  finish?_closing_first : ∀ text,
    first.finish? (closing.toList ++ text) = (done stack (container [])).finish? text
  finish?_closing : ∀ item before text, (stop item before).finish? (closing.toList ++ text) =
    (done stack (container (item :: before).reverse)).finish? text

def Passage.array (h : stack.length < maxDepth) : Passage Json stack where
  opening := "["
  closing := "]"
  first := .firstElement stack
  start before := .value (.array before :: stack)
  stop v before := .done (.array before :: stack) v
  container := .array
  finish?_opening text := finish?_cons_of_readToken (by decide) rfl rfl
  finish?_first := finish?_firstElement
  step_comma v before := rfl
  finish?_closing_first text := finish?_cons_of_readToken (by decide) rfl
    (by simp [step, close, h])
  finish?_closing v before text := finish?_cons_of_readToken (by decide) rfl
    (by simp [step, close, h])

/-- A member as the reader keeps it. -/
def memberRead (member : String × Json) : Option String × Json := (some member.1, member.2)

theorem ofMembers_map_memberRead (members : List (String × Json)) :
    ofMembers (members.map memberRead) = .object members := by
  have hmembers {name? : Option String × Json → Option (String × Json)}
      (hname : ∀ member, name? (memberRead member) = some member) :
      (members.map memberRead).mapM name? = some members := by
    induction members with
    | nil => rfl
    | cons member members ih => rw [List.map_cons, List.mapM_cons, hname, ih]; rfl
  rw [ofMembers, hmembers fun member => rfl]

def Passage.object (h : stack.length < maxDepth) : Passage (String × Json) stack where
  opening := "\x7b"
  closing := "\x7d"
  first := .firstName stack
  start before := .nextName stack (before.map memberRead)
  stop member before := .done (.object (before.map memberRead) (some member.1) :: stack) member.2
  container := .object
  finish?_opening text := finish?_cons_of_readToken (by decide) rfl rfl
  finish?_first := finish?_firstName
  step_comma member before := rfl
  finish?_closing_first text := finish?_cons_of_readToken (by decide) rfl
    (by simp [step, close, h])
  finish?_closing member before text := finish?_cons_of_readToken (by decide) rfl (by
    have hmembers := ofMembers_map_memberRead (member :: before).reverse
    rw [List.map_reverse] at hmembers
    rw [← hmembers]
    simp [step, close, h, memberRead])

namespace Passage

variable {α : Type} (passage : Passage α stack) {text : α → String} {items before : List α}
  {depth : Nat}

/-- Wherever an item can stand, it is read from a text. -/
def Reads (text : String) (item : α) : Prop :=
  ∀ {before rest w}, IsBoundary rest → (passage.stop item before).finish? rest = some w →
    (passage.start before).finish? (text.toList ++ rest) = some w

variable (hitems : ∀ item ∈ items, passage.Reads (text item) item)

include hitems

theorem finish?_intercalate (depth : Nat) (hne : items ≠ []) (hrest : IsBoundary rest)
    (h : ∀ last init, last :: init = items.reverse ++ before →
      (passage.stop last init).finish? rest = some w) :
    (passage.start before).finish?
      ((String.intercalate ("," ++ newLine depth) (items.map text)).toList ++ rest) = some w := by
  induction items generalizing before with
  | nil => exact absurd rfl hne
  | cons item items ih =>
      cases items with
      | nil =>
          rw [List.map_singleton, String.intercalate_singleton]
          exact hitems item (.head _) hrest (h item before rfl)
      | cons next items =>
          rw [List.map_cons, List.map_cons, String.intercalate_cons_cons, ← List.map_cons]
          simp only [String.toList_append, List.append_assoc]
          refine hitems item (.head _) (.comma _) ?_
          calc
            _ = (passage.start (item :: before)).finish? ((newLine depth).toList ++ _) :=
              finish?_cons_of_readToken (by decide) rfl (passage.step_comma item before)
            _ = some w := by
              rw [finish?_newLine]
              exact ih (fun other hother => hitems other (.tail _ hother)) (by simp)
                fun last init hlast => h last init (by simpa using hlast)

theorem finish?_block (h : (done stack (passage.container items)).finish? rest = some w) :
    (value stack).finish?
      ((block depth passage.opening passage.closing (items.map text)).toList ++ rest) =
        some w := by
  cases items with
  | nil =>
      rw [List.map_nil, block, String.toList_append, List.append_assoc, passage.finish?_opening,
        passage.finish?_closing_first]
      exact h
  | cons item items =>
      have hbehind (last : α) (init : List α)
          (hlast : last :: init = (item :: items).reverse ++ []) :
          (passage.stop last init).finish?
            ((newLine depth).toList ++ (passage.closing.toList ++ rest)) = some w := by
        have hall : (last :: init).reverse = item :: items := by
          rw [hlast, List.append_nil, List.reverse_reverse]
        rw [finish?_newLine, passage.finish?_closing, hall]
        exact h
      have hinside := passage.finish?_intercalate hitems (depth + 1) (by simp)
        (isBoundary_newLine_append depth _) hbehind
      simp only [List.map_cons, block, String.toList_append, List.append_assoc]
      rw [passage.finish?_opening]
      refine passage.finish?_first ?_
      rw [finish?_newLine]
      exact hinside

end Passage

end Reader

/-! ## Values -/

theorem prettyElements_eq_map (depth : Nat) (elements : List Json) :
    prettyElements depth elements = elements.map (prettyAt depth) := by
  induction elements with
  | nil => rfl
  | cons v elements ih => rw [prettyElements, ih, List.map_cons]

theorem prettyMembers_eq_map (depth : Nat) (members : List (String × Json)) :
    prettyMembers depth members =
      members.map fun member => quote member.1 ++ ": " ++ prettyAt depth member.2 := by
  induction members with
  | nil => rfl
  | cons member members ih => rw [prettyMembers, ih, List.map_cons]

open Reader in
theorem finish?_prettyAt {levels depth : Nat} {v w : Json} {stack : List Frame} {rest : List Char}
    (hfits : Fits levels v) (hlevels : stack.length + levels ≤ maxDepth) (hrest : IsBoundary rest)
    (h : (done stack v).finish? rest = some w) :
    (value stack).finish? ((prettyAt depth v).toList ++ rest) = some w := by
  induction hfits generalizing stack depth rest w with
  | null =>
      rw [← h]
      change (value stack).finish? ("null".toList ++ rest) = _
      exact finish?_cons_of_readToken (by decide) rfl rfl
  | bool b =>
      rw [← h]
      cases b with
      | true =>
          change (value stack).finish? ("true".toList ++ rest) = _
          exact finish?_cons_of_readToken (by decide) rfl rfl
      | false =>
          change (value stack).finish? ("false".toList ++ rest) = _
          exact finish?_cons_of_readToken (by decide) rfl rfl
  | int n => exact (finish?_int n hrest).trans h
  | string s => exact (finish?_quote s rfl).trans h
  | @array levels elements _ ih =>
      rw [prettyAt, prettyElements_eq_map]
      refine (Passage.array (by omega)).finish?_block (fun v hv => ?_) h
      intro before rest w hrest hw
      exact ih v hv (by rw [List.length_cons]; omega) hrest hw
  | @object levels members _ ih =>
      rw [prettyAt, prettyMembers_eq_map]
      refine (Passage.object (by omega)).finish?_block (fun member hmember => ?_) h
      intro before rest w hrest hw
      have hvalue : (value (.object (before.map memberRead) (some member.1) :: stack)).finish?
          ((prettyAt (depth + 1) member.2).toList ++ rest) = some w :=
        ih member hmember (by rw [List.length_cons]; omega) hrest hw
      simp only [String.toList_append, List.append_assoc]
      calc
        _ = (colon stack (before.map memberRead) (some member.1)).finish? _ :=
          finish?_quote member.1 rfl
        _ = (value (.object (before.map memberRead) (some member.1) :: stack)).finish? _ :=
          finish?_cons_of_readToken (c := ':') (by decide) rfl rfl
        _ = _ := finish?_cons_of_isBlank (c := ' ') (by decide)
        _ = some w := hvalue

/-- What is laid out as the text of a value is read as the value. -/
theorem parse?_pretty {v : Json} (h : Fits maxDepth v) : parse? v.pretty = some v := by
  have hdone : (Reader.done [] v).finish? [] = some v := by
    rw [Reader.finish?, scan]
    rfl
  have hread : (Reader.value []).finish? ((prettyAt 0 v).toList ++ []) = some v :=
    finish?_prettyAt h (by simp) .over hdone
  rw [List.append_nil] at hread
  rw [Reader.parse?_eq_finish?]
  exact hread

end ChangeNotification.Json
