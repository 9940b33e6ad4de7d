import ChangeNotification.Text.Segment

/-!
Types as a front end reports them: their kind, the place they are declared in, and what they
are made of.
-/

namespace ChangeNotification

inductive TypeKind where
  | classType | structType | interfaceType | enumType | delegateType | typeParameter | array
  deriving DecidableEq, Repr, Inhabited

namespace TypeKind

/-- Kinds whose values may be `null`. A type parameter is neither of this sort nor a value. -/
def isReference : TypeKind → Bool
  | classType | interfaceType | delegateType | array => true
  | structType | enumType | typeParameter => false

def isValue : TypeKind → Bool
  | structType | enumType => true
  | _ => false

theorem not_isReference_of_isValue {kind : TypeKind} (h : kind.isValue) : ¬ kind.isReference := by
  cases kind <;> simp_all [isValue, isReference]

end TypeKind

/-- What the source says about `null` in a type; outside a nullable context it says nothing. -/
inductive Nullability where
  | unknown | notAnnotated | annotated
  deriving DecidableEq, Repr, Inhabited

/-- A type. The namespace is that of an outermost type, the element type that of an array. -/
structure TypeSymbol where
  name : String
  kind : TypeKind := .classType
  namespaceSegments : List String := []
  containingType : Option TypeSymbol := none
  nullability : Nullability := .unknown
  typeArguments : List TypeSymbol := []
  elementType : Option TypeSymbol := none
  arrayRank : UInt32 := 1
  interfaces : List String := []
  deriving Repr, Inhabited

namespace TypeSymbol

mutual

/-- Types are the same if all that they are made of is the same. -/
def decEq : (a b : TypeSymbol) → Decidable (a = b)
  | ⟨_, _, _, containingType, _, typeArguments, elementType, _, _⟩,
    ⟨_, _, _, containingType', _, typeArguments', elementType', _, _⟩ =>
      have := decEqOption containingType containingType'
      have := decEqList typeArguments typeArguments'
      have := decEqOption elementType elementType'
      decidable_of_iff' _ (iff_of_eq (TypeSymbol.mk.injEq ..))
termination_by structural a => a

def decEqOption : (a b : Option TypeSymbol) → Decidable (a = b)
  | none, none => isTrue rfl
  | none, some _ => isFalse nofun
  | some _, none => isFalse nofun
  | some a, some b =>
      have := decEq a b
      decidable_of_iff' _ (iff_of_eq (Option.some.injEq a b))
termination_by structural a => a

def decEqList : (as bs : List TypeSymbol) → Decidable (as = bs)
  | [], [] => isTrue rfl
  | [], _ :: _ => isFalse nofun
  | _ :: _, [] => isFalse nofun
  | a :: as, b :: bs =>
      have := decEq a b
      have := decEqList as bs
      decidable_of_iff' _ (iff_of_eq (List.cons.injEq a as b bs))
termination_by structural as => as

end

instance : DecidableEq TypeSymbol := decEq

end TypeSymbol

/-- A qualified name without the mark of the root namespace. -/
def unrooted (name : String) : String :=
  Text.withoutLead "global::" name

namespace TypeSymbol

/-- An array of `element`; no array has fewer than one dimension. -/
def arrayOf (element : TypeSymbol) (rank : UInt32) : TypeSymbol :=
  { name := "", kind := .array, elementType := some element, arrayRank := max rank 1 }

/-- The symbol put into the namespace of a dotted path; empty segments do not count. -/
def inNamespace (symbol : TypeSymbol) (dotted : String) : TypeSymbol :=
  { symbol with namespaceSegments := (Text.split '.' dotted).filter (· ≠ "") }

def implements (symbol : TypeSymbol) (interface : String) : Bool :=
  symbol.interfaces.any (unrooted · = unrooted interface)

/-- A type that is certain to admit `null`. -/
def isNullableReference (symbol : TypeSymbol) : Bool :=
  symbol.kind.isReference && symbol.nullability = .annotated

end TypeSymbol

end ChangeNotification
