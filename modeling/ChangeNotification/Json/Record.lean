import ChangeNotification.Json.Basic

/-!
JSON values as records. A record is an object, or an array that holds the values of the fields
in their declared order. Unknown members do not count; a field given twice is an error.
-/

namespace ChangeNotification.Json

/-- A value that is part of `j`, so that decoders can recur on it. -/
abbrev Part (j : Json) := { v : Json // sizeOf v < sizeOf j }

theorem sizeOf_lt_array {v : Json} {elements : List Json} (h : v ∈ elements) :
    sizeOf v < sizeOf (Json.array elements) := by
  have := List.sizeOf_lt_of_mem h
  simp only [array.sizeOf_spec]; omega

theorem sizeOf_lt_object {m : String × Json} {members : List (String × Json)} (h : m ∈ members) :
    sizeOf m.2 < sizeOf (Json.object members) := by
  have := List.sizeOf_lt_of_mem h
  obtain ⟨name, v⟩ := m
  simp only [object.sizeOf_spec, Prod.mk.sizeOf_spec] at *; omega

/-- The elements of an array. -/
def elements? : (j : Json) → Option (List j.Part)
  | .array elements => some (elements.attach.map fun v => ⟨v.1, sizeOf_lt_array v.2⟩)
  | _ => none

/-- The members of an object. -/
def members? : (j : Json) → Option (List (String × j.Part))
  | .object members => some (members.attach.map fun m => (m.1.1, ⟨m.1.2, sizeOf_lt_object m.2⟩))
  | _ => none

/-! ### Values without parts -/

def bool? : Json → Option Bool
  | .bool b => some b
  | _ => none

def text? : Json → Option String
  | .string s => some s
  | _ => none

/-- An integer below `bound` that is not negative. -/
def natBelow? (bound : Nat) : Json → Option Nat
  | .int n => if 0 ≤ n ∧ n < bound then some n.toNat else none
  | _ => none

def uint32? (j : Json) : Option UInt32 :=
  (j.natBelow? UInt32.size).map UInt32.ofNat

def uint64? (j : Json) : Option UInt64 :=
  (j.natBelow? UInt64.size).map UInt64.ofNat

/-- An integer of 64 bits with a sign. -/
def int64? : Json → Option Int64
  | .int n =>
      if Int64.minValue.toInt ≤ n ∧ n ≤ Int64.maxValue.toInt then some (Int64.ofInt n) else none
  | _ => none

/-- The name of one of several variants, alone or as the one member of an object, with the
value `null`. -/
def variant? : Json → Option String
  | .string name => some name
  | .object [(name, .null)] => some name
  | _ => none

def list? {α : Type} (j : Json) (decode : j.Part → Option α) : Option (List α) :=
  j.elements?.bind (List.mapM decode)

def texts? (j : Json) : Option (List String) :=
  j.list? (text? ·.val)

/-! ### Records -/

/-- What tells of which kind `j` is: in an object the field `name`, given once, in an array the first
element. -/
def tag? (name : String) : Json → Option Json
  | .object members =>
      match members.filter (·.1 = name) with
      | [(_, tag)] => some tag
      | _ => none
  | .array elements => elements.head?
  | _ => none

/-- The fields of `j` that are given. In a positional record only trailing fields are missing. -/
structure Record (j : Json) where
  positional : Bool
  fields : List (String × j.Part)

/-- Reads `j` as a record with the fields `names`. -/
def record? (names : List String) (j : Json) : Option j.Record :=
  match j.members?, j.elements? with
  | some members, _ =>
      let fields := members.filter (names.contains ·.1)
      if (fields.map Prod.fst).Nodup then some ⟨false, fields⟩ else none
  | none, some elements =>
      if elements.length ≤ names.length then some ⟨true, names.zip elements⟩ else none
  | none, none => none

namespace Record

variable {j : Json} {α : Type}

def find? (r : j.Record) (name : String) : Option j.Part :=
  r.fields.lookup name

/-- A field that has to be given. -/
def required (r : j.Record) (name : String) (decode : j.Part → Option α) : Option α :=
  (r.find? name).bind decode

/-- A field that stands for `default` when it is not given. -/
def defaulted (r : j.Record) (name : String) (default : α) (decode : j.Part → Option α) :
    Option α :=
  match r.find? name with
  | some v => decode v
  | none => some default

def orNull (decode : j.Part → Option α) (v : j.Part) : Option (Option α) :=
  match v.val with
  | .null => some none
  | _ => (decode v).map some

/-- A field that may be `null` or missing. -/
def optional (r : j.Record) (name : String) (decode : j.Part → Option α) : Option (Option α) :=
  r.defaulted name none (orNull decode)

/-- A field that may be `null`, and in an object missing; in a positional record it keeps its
place. -/
def nullable (r : j.Record) (name : String) (decode : j.Part → Option α) : Option (Option α) :=
  if r.positional then r.required name (orNull decode) else r.optional name decode

end Record

end ChangeNotification.Json
