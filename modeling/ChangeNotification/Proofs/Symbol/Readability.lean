import ChangeNotification.Proofs.Symbol.Path

/-! # Readability of spelled types

Two types with proper names are spelled alike only if they are the same type, as far as spelling
goes: the spelling of a type can be read in one way. -/

namespace ChangeNotification

open Text

/-! ## The same type -/

mutual

/-- Symbols that stand for the same type. Of arrays the name does not count, of declared types the
kind and the way in which the path divides into namespace and containers. -/
inductive TypeSymbol.SpellsSame : TypeSymbol → TypeSymbol → Prop where
  | typeParameter {symbol other : TypeSymbol} (kind : symbol.kind = .typeParameter)
      (kind_other : other.kind = .typeParameter) (name : symbol.name = other.name) :
      TypeSymbol.SpellsSame symbol other
  | array {symbol other : TypeSymbol} (kind : symbol.kind = .array) (kind_other : other.kind = .array)
      (rank : max symbol.arrayRank 1 = max other.arrayRank 1)
      (element : TypeSymbol.SpellsSame symbol.element other.element)
      (nullability : symbol.isNullableReference = other.isNullableReference) :
      TypeSymbol.SpellsSame symbol other
  | named {symbol other : TypeSymbol} (kind : symbol.kind.isNamed = true)
      (kind_other : other.kind.isNamed = true)
      (path : List.Forall₂ PathSegment.SpellsSame symbol.path other.path)
      (nullability : symbol.isNullableReference = other.isNullableReference) :
      TypeSymbol.SpellsSame symbol other

/-- Path components of the same name with the same type arguments, one by one. -/
inductive PathSegment.SpellsSame : PathSegment → PathSegment → Prop where
  | intro {segment other : PathSegment} (name : segment.name = other.name)
      (typeArguments : List.Forall₂ TypeSymbol.SpellsSame segment.typeArguments
        other.typeArguments) : PathSegment.SpellsSame segment other

end

/-! ## Spellings among separators

Type arguments stand between commas, and the components of a path between dots. -/

section

variable {separator : Char} (hseparator : separator = '.' ∨ separator = ',')

include hseparator

/-- A name holds no brackets and no separators. -/
theorem Text.IsName.keepsDepth {s : String} (h : IsName s) : KeepsDepth separator 0 s := by
  apply KeepsDepth.of_plain
  intro c hc
  have hplain := h.not_reserved c hc
  simp only [reserved, List.mem_cons, not_or] at hplain
  refine ⟨?_, by simp [isOpening, hplain], by simp [isClosing, hplain]⟩
  rintro rfl
  rcases hseparator with rfl | rfl <;> simp at hplain

theorem TypeSymbol.keepsDepth_argumentList {arguments : List String}
    (h : ∀ argument ∈ arguments, KeepsDepth ',' 0 argument) :
    KeepsDepth separator 0 (argumentList arguments) := by
  cases arguments with
  | nil => rfl
  | cons argument arguments =>
      have hinside : KeepsDepth separator 1 (String.intercalate ", " (argument :: arguments)) := by
        refine KeepsDepth.intercalate ?_ fun piece hpiece => (h piece hpiece).deeper separator
        have hliteral : KeepsDepth '.' 0 ", " := rfl
        exact hliteral.deeper separator
      rw [argumentList]
      · rcases hseparator with rfl | rfl
        · exact hinside.bracketed rfl rfl
        · exact hinside.bracketed rfl rfl
      · simp

theorem PathSegment.keepsDepth_spelling {segment : PathSegment} (hname : IsName segment.name)
    (harguments : ∀ argument ∈ segment.typeArguments, KeepsDepth ',' 0 argument.spelling) :
    KeepsDepth separator 0 segment.spelling := by
  refine (hname.keepsDepth hseparator).append (TypeSymbol.keepsDepth_argumentList hseparator ?_)
  exact List.forall_mem_map.mpr harguments

end

namespace TypeSymbol

variable {symbol other : TypeSymbol}

theorem keepsDepth_nullableMark (symbol : TypeSymbol) : KeepsDepth ',' 0 symbol.nullableMark := by
  rw [nullableMark]
  split <;> rfl

theorem keepsDepth_rankSpecifier (rank : UInt32) : KeepsDepth ',' 0 (rankSpecifier rank) := by
  have hcommas : KeepsDepth '.' 0 (String.ofList (List.replicate (rank.toNat - 1) ',')) := by
    apply KeepsDepth.of_plain
    intro c hc
    rw [String.toList_ofList] at hc
    rw [List.eq_of_mem_replicate hc]
    decide
  exact (hcommas.deeper ',').bracketed rfl rfl

theorem keepsDepth_spelling (h : symbol.Throughout IsWellNamed) :
    KeepsDepth ',' 0 symbol.spelling := by
  refine h.path_induction fun symbol h helement harguments => ?_
  refine KeepsDepth.append ?_ symbol.keepsDepth_nullableMark
  rcases symbol.kind.cases with hkind | hkind | hkind
  · rw [bareSpelling_of_typeParameter hkind]
    exact (h.here.name (by simp [hkind])).keepsDepth (.inr rfl)
  · rw [bareSpelling_of_array hkind]
    exact (helement hkind).append (keepsDepth_rankSpecifier symbol.arrayRank)
  · have hroot : KeepsDepth ',' 0 "global::" := rfl
    have hdot : KeepsDepth ',' 0 "." := rfl
    rw [bareSpelling_eq_path h hkind]
    refine hroot.append (hdot.intercalate (List.forall_mem_map.mpr fun segment hsegment => ?_))
    exact PathSegment.keepsDepth_spelling (.inr rfl)
      (h.isWellNamed_of_mem_path hkind segment hsegment).name (harguments segment hsegment)

/-! ## Arrays -/

theorem toNat_max_one (rank : UInt32) : (max rank 1).toNat = max rank.toNat 1 := by
  have hmax : max rank 1 = if rank ≤ 1 then 1 else rank := rfl
  have hone : (1 : UInt32).toNat = 1 := rfl
  rw [hmax]
  by_cases hle : rank ≤ 1
  · rw [if_pos hle, hone]
    rw [UInt32.le_iff_toNat_le, hone] at hle
    omega
  · rw [if_neg hle]
    rw [UInt32.le_iff_toNat_le, hone] at hle
    omega

/-- The last brackets of an array show its rank, and what precedes them is the element type. -/
theorem append_rankSpecifier_inj (s t : String) (rank rank' : UInt32) :
    s ++ rankSpecifier rank = t ++ rankSpecifier rank' ↔ s = t ∧ max rank 1 = max rank' 1 := by
  let commas (rank : UInt32) := String.ofList (List.replicate (rank.toNat - 1) ',')
  have hcut (s : String) (rank : UInt32) :
      s ++ rankSpecifier rank = s ++ String.singleton '[' ++ (commas rank ++ "]") := by
    rw [rankSpecifier, String.append_assoc, String.append_assoc]
    rfl
  have hbracket (rank : UInt32) : '[' ∉ (commas rank ++ "]").toList := by
    simp [commas]
  have hcount : commas rank = commas rank' ↔ max rank 1 = max rank' 1 := by
    rw [String.ofList_inj, List.replicate_inj, ← UInt32.toNat_inj, toNat_max_one, toNat_max_one,
      and_iff_left (.inr rfl)]
    omega
  rw [hcut, hcut, append_last_cut_inj (hbracket rank) (hbracket rank'), String.append_left_inj,
    hcount]

end TypeSymbol

/-! ## Components of paths -/

namespace PathSegment

variable {segment other : PathSegment}

theorem spelling_of_generic (h : segment.typeArguments ≠ []) : segment.spelling =
    segment.name ++ String.singleton '<' ++
      (String.intercalate (String.singleton ',' ++ " ")
        (segment.typeArguments.map TypeSymbol.spelling) ++ ">") := by
  have hlist : TypeSymbol.argumentList (segment.typeArguments.map TypeSymbol.spelling) =
      "<" ++ String.intercalate ", " (segment.typeArguments.map TypeSymbol.spelling) ++ ">" := by
    rw [TypeSymbol.argumentList]
    simpa using h
  rw [PathSegment.spelling, hlist, String.append_assoc, String.append_assoc]
  rfl

theorem spelling_of_not_generic (h : segment.typeArguments = []) :
    segment.spelling = segment.name := by
  rw [spelling, h]
  exact String.append_empty

theorem IsWellNamed.no_bracket (h : segment.IsWellNamed) : '<' ∉ segment.name.toList :=
  fun hbracket => h.name.not_reserved '<' hbracket (by decide)

/-- A name is followed by a bracket only where there are type arguments. -/
theorem IsWellNamed.typeArguments_ne_nil (h : segment.IsWellNamed)
    (hspelling : segment.spelling = other.spelling) (hother : other.typeArguments ≠ []) :
    segment.typeArguments ≠ [] := by
  intro hnone
  rw [spelling_of_not_generic hnone, spelling_of_generic hother] at hspelling
  apply h.no_bracket
  rw [hspelling]
  exact mem_append_singleton_append '<' _ _

theorem IsWellNamed.keepsDepth_typeArguments (h : segment.IsWellNamed) :
    ∀ piece ∈ segment.typeArguments.map TypeSymbol.spelling, KeepsDepth ',' 0 piece :=
  List.forall_mem_map.mpr fun argument hargument =>
    TypeSymbol.keepsDepth_spelling (h.typeArguments argument hargument)

theorem IsWellNamed.spelling_inj (h : segment.IsWellNamed) (hother : other.IsWellNamed) :
    segment.spelling = other.spelling ↔
      segment.name = other.name ∧ segment.typeArguments.map TypeSymbol.spelling =
        other.typeArguments.map TypeSymbol.spelling := by
  refine ⟨fun hspelling => ?_, fun ⟨hname, harguments⟩ => by
    rw [spelling, spelling, hname, harguments]⟩
  by_cases hnone : segment.typeArguments = []
  · by_cases hnone' : other.typeArguments = []
    · rw [spelling_of_not_generic hnone, spelling_of_not_generic hnone'] at hspelling
      exact ⟨hspelling, by rw [hnone, hnone']⟩
    · exact absurd hnone (h.typeArguments_ne_nil hspelling hnone')
  · have hnone' := hother.typeArguments_ne_nil hspelling.symm hnone
    rw [spelling_of_generic hnone, spelling_of_generic hnone',
      append_cut_inj h.no_bracket hother.no_bracket, String.append_left_inj,
      KeepsDepth.intercalate_inj " " h.keepsDepth_typeArguments hother.keepsDepth_typeArguments
        (by simpa using hnone) (by simpa using hnone')] at hspelling
    exact hspelling

end PathSegment

/-! ## Kinds of spellings

The last character of a spelling before its mark shows whether this is the spelling of an array,
and the colons at the start of a path whether it is that of a declared type. -/

theorem Text.getLast?_append_of_eq_some {s t : String} {c : Char}
    (h : t.toList.getLast? = some c) : (s ++ t).toList.getLast? = some c := by
  rw [String.toList_append, List.getLast?_append, h]
  rfl

theorem Text.IsName.getLast? {s : String} (h : IsName s) :
    ∃ c, s.toList.getLast? = some c ∧ c ≠ '?' ∧ c ≠ ']' := by
  have hne : s.toList ≠ [] := by
    simpa using h.not_empty
  have hplain := h.not_reserved _ (List.getLast_mem hne)
  refine ⟨_, List.getLast?_eq_some_getLast hne, ?_, ?_⟩
  · intro hmark
    exact hplain (hmark ▸ by decide)
  · intro hbracket
    exact hplain (hbracket ▸ by decide)

/-- A component ends with its name or with the bracket after its type arguments. -/
theorem PathSegment.IsWellNamed.getLast?_spelling {segment : PathSegment}
    (h : segment.IsWellNamed) :
    ∃ c, segment.spelling.toList.getLast? = some c ∧ c ≠ '?' ∧ c ≠ ']' := by
  by_cases hnone : segment.typeArguments = []
  · rw [spelling_of_not_generic hnone]
    exact h.name.getLast?
  · rw [spelling_of_generic hnone]
    exact ⟨'>', getLast?_append_of_eq_some (getLast?_append_of_eq_some rfl), by decide, by decide⟩

namespace TypeSymbol

variable {symbol other : TypeSymbol}

theorem getLast?_bareSpelling (h : symbol.Throughout IsWellNamed) :
    ∃ c, symbol.bareSpelling.toList.getLast? = some c ∧ c ≠ '?' ∧
      (c = ']' ↔ symbol.kind = .array) := by
  rcases symbol.kind.cases with hkind | hkind | hkind
  · rw [bareSpelling_of_typeParameter hkind]
    obtain ⟨c, hlast, hmark, hbracket⟩ := (h.here.name (by simp [hkind])).getLast?
    refine ⟨c, hlast, hmark, ?_⟩
    simp [hbracket, hkind]
  · rw [bareSpelling_of_array hkind]
    refine ⟨']', getLast?_append_of_eq_some (getLast?_append_of_eq_some rfl), by decide, ?_⟩
    simp [hkind]
  · rw [bareSpelling_of_isNamed hkind]
    obtain ⟨c, hlast, hmark, hbracket⟩ := (h.isWellNamed_of_mem_path hkind symbol.lastSegment
      (by simp [path_eq])).getLast?_spelling
    refine ⟨c, getLast?_append_of_eq_some hlast, hmark, ?_⟩
    simp [hbracket, TypeKind.ne_array_of_isNamed hkind]

theorem colon_mem_bareSpelling (h : symbol.Throughout IsWellNamed) (hkind : symbol.kind ≠ .array) :
    ':' ∈ symbol.bareSpelling.toList ↔ symbol.kind.isNamed = true := by
  rcases symbol.kind.cases with hparameter | harray | hnamed
  · have hcolon : ':' ∉ symbol.name.toList := fun hmem =>
      (h.here.name hkind).not_reserved ':' hmem (by decide)
    rw [bareSpelling_of_typeParameter hparameter]
    simp [hcolon, hparameter, TypeKind.isNamed]
  · exact absurd harray hkind
  · rw [bareSpelling_eq_path h hnamed]
    simp [hnamed]

theorem kind_of_bareSpelling_eq (h : symbol.Throughout IsWellNamed)
    (hother : other.Throughout IsWellNamed) (hbare : symbol.bareSpelling = other.bareSpelling) :
    (symbol.kind = .typeParameter ∧ other.kind = .typeParameter) ∨
      (symbol.kind = .array ∧ other.kind = .array) ∨
        (symbol.kind.isNamed = true ∧ other.kind.isNamed = true) := by
  obtain ⟨c, hlast, -, hc⟩ := getLast?_bareSpelling h
  obtain ⟨c', hlast', -, hc'⟩ := getLast?_bareSpelling hother
  rw [hbare, hlast', Option.some_inj] at hlast
  have harray : symbol.kind = .array ↔ other.kind = .array := by
    rw [← hc, ← hc', hlast]
  by_cases hkind : symbol.kind = .array
  · exact .inr (.inl ⟨hkind, harray.mp hkind⟩)
  · have hkind' : other.kind ≠ .array := fun hother => hkind (harray.mpr hother)
    have hnamed : symbol.kind.isNamed = true ↔ other.kind.isNamed = true := by
      rw [← colon_mem_bareSpelling h hkind, ← colon_mem_bareSpelling hother hkind', hbare]
    rcases symbol.kind.cases with hleft | hleft | hleft
    · rcases other.kind.cases with hright | hright | hright
      · exact .inl ⟨hleft, hright⟩
      · exact absurd hright hkind'
      · have hboth := hnamed.mpr hright
        rw [hleft] at hboth
        cases hboth
    · exact absurd hleft hkind
    · exact .inr (.inr ⟨hleft, hnamed.mp hleft⟩)

/-! ## Readability -/

theorem bareSpelling_ne_append_mark (h : symbol.Throughout IsWellNamed) (s : String) :
    symbol.bareSpelling ≠ s ++ "?" := by
  intro hmark
  obtain ⟨c, hlast, hc, -⟩ := getLast?_bareSpelling h
  have hend : (s ++ "?").toList.getLast? = some '?' := getLast?_append_of_eq_some rfl
  rw [hmark, hend, Option.some_inj] at hlast
  exact hc hlast.symm

theorem spelling_inj (h : symbol.Throughout IsWellNamed) (hother : other.Throughout IsWellNamed) :
    symbol.spelling = other.spelling ↔
      symbol.bareSpelling = other.bareSpelling ∧
        symbol.isNullableReference = other.isNullableReference := by
  rw [spelling, spelling, nullableMark, nullableMark]
  cases symbol.isNullableReference with
  | false =>
      cases other.isNullableReference with
      | false => simp
      | true => simp [bareSpelling_ne_append_mark h]
  | true =>
      cases other.isNullableReference with
      | false => simp [(bareSpelling_ne_append_mark hother _).symm]
      | true => simp [String.append_left_inj]

theorem bareSpelling_inj_of_array (hkind : symbol.kind = .array) (hkind' : other.kind = .array) :
    symbol.bareSpelling = other.bareSpelling ↔
      symbol.element.spelling = other.element.spelling ∧
        max symbol.arrayRank 1 = max other.arrayRank 1 := by
  rw [bareSpelling_of_array hkind, bareSpelling_of_array hkind', append_rankSpecifier_inj]

theorem Throughout.keepsDepth_path (h : symbol.Throughout IsWellNamed)
    (hkind : symbol.kind.isNamed = true) :
    ∀ piece ∈ symbol.path.map PathSegment.spelling, KeepsDepth '.' 0 piece := by
  refine List.forall_mem_map.mpr fun segment hsegment => ?_
  have hnamed := h.isWellNamed_of_mem_path hkind segment hsegment
  exact PathSegment.keepsDepth_spelling (.inl rfl) hnamed.name
    fun argument hargument => keepsDepth_spelling (hnamed.typeArguments argument hargument)

theorem bareSpelling_inj_of_isNamed (h : symbol.Throughout IsWellNamed)
    (hother : other.Throughout IsWellNamed) (hkind : symbol.kind.isNamed = true)
    (hkind' : other.kind.isNamed = true) :
    symbol.bareSpelling = other.bareSpelling ↔
      symbol.path.map PathSegment.spelling = other.path.map PathSegment.spelling := by
  have hdot : "." = String.singleton '.' ++ "" := rfl
  rw [bareSpelling_eq_path h hkind, bareSpelling_eq_path hother hkind', String.append_right_inj,
    hdot]
  exact KeepsDepth.intercalate_inj "" (h.keepsDepth_path hkind) (hother.keepsDepth_path hkind')
    (by simpa using symbol.path_ne_nil) (by simpa using other.path_ne_nil)

end TypeSymbol

theorem PathSegment.IsWellNamed.spelling_eq_iff {segment other : PathSegment}
    (h : segment.IsWellNamed) (hother : other.IsWellNamed)
    (harguments : ∀ argument ∈ segment.typeArguments, ∀ argument' ∈ other.typeArguments,
      argument.spelling = argument'.spelling ↔ argument.SpellsSame argument') :
    segment.spelling = other.spelling ↔ segment.SpellsSame other := by
  rw [h.spelling_inj hother, map_eq_map_iff_forall₂ harguments]
  constructor
  · rintro ⟨hname, htypes⟩
    exact .intro hname htypes
  · rintro ⟨hname, htypes⟩
    exact ⟨hname, htypes⟩

/-- Where all names are proper, what is spelled alike is the same type. -/
theorem TypeSymbol.spelling_eq_iff_spellsSame {symbol other : TypeSymbol}
    (h : symbol.Throughout IsWellNamed) (hother : other.Throughout IsWellNamed) :
    symbol.spelling = other.spelling ↔ symbol.SpellsSame other := by
  suffices hall : ∀ other : TypeSymbol, other.Throughout IsWellNamed →
      (symbol.spelling = other.spelling ↔ symbol.SpellsSame other) from hall other hother
  refine h.path_induction fun symbol h helement harguments other hother => ?_
  have hpath (hkind : symbol.kind.isNamed = true) (hkind' : other.kind.isNamed = true) :
      symbol.path.map PathSegment.spelling = other.path.map PathSegment.spelling ↔
        List.Forall₂ PathSegment.SpellsSame symbol.path other.path := by
    refine map_eq_map_iff_forall₂ fun segment hsegment segment' hsegment' => ?_
    have hnamed := h.isWellNamed_of_mem_path hkind segment hsegment
    have hnamed' := hother.isWellNamed_of_mem_path hkind' segment' hsegment'
    exact hnamed.spelling_eq_iff hnamed' fun argument hargument argument' hargument' =>
      harguments segment hsegment argument hargument argument'
        (hnamed'.typeArguments argument' hargument')
  rw [spelling_inj h hother]
  constructor
  · rintro ⟨hbare, hnullable⟩
    rcases kind_of_bareSpelling_eq h hother hbare with ⟨hkind, hkind'⟩ | ⟨hkind, hkind'⟩ |
      ⟨hkind, hkind'⟩
    · rw [bareSpelling_of_typeParameter hkind, bareSpelling_of_typeParameter hkind'] at hbare
      exact .typeParameter hkind hkind' hbare
    · obtain ⟨hspelling, hrank⟩ := (bareSpelling_inj_of_array hkind hkind').mp hbare
      have hsame := (helement hkind _ hother.throughout_element).mp hspelling
      exact .array hkind hkind' hrank hsame hnullable
    · have hspelling := (bareSpelling_inj_of_isNamed h hother hkind hkind').mp hbare
      exact .named hkind hkind' ((hpath hkind hkind').mp hspelling) hnullable
  · intro hsame
    cases hsame with
    | typeParameter hkind hkind' hname =>
        rw [bareSpelling_of_typeParameter hkind, bareSpelling_of_typeParameter hkind']
        exact ⟨hname, by simp [isNullableReference, hkind, hkind', TypeKind.isReference]⟩
    | array hkind hkind' hrank hsame hnullable =>
        have hspelling := (helement hkind _ hother.throughout_element).mpr hsame
        exact ⟨(bareSpelling_inj_of_array hkind hkind').mpr ⟨hspelling, hrank⟩, hnullable⟩
    | named hkind hkind' hsame hnullable =>
        have hspelling := (hpath hkind hkind').mpr hsame
        exact ⟨(bareSpelling_inj_of_isNamed h hother hkind hkind').mpr hspelling, hnullable⟩

/-- A matrix of strings that may be `null`. -/
def TypeSymbol.matrixSample (name : String) : TypeSymbol where
  name := name
  kind := .array
  arrayRank := 2
  elementType := some
    { name := "String", namespaceSegments := ["System"], nullability := .annotated }

/-- A nested type whose container is marked. -/
def TypeSymbol.nestedSample : TypeSymbol where
  name := "Inner"
  containingType := some
    { name := "Outer", namespaceSegments := ["App"], nullability := .annotated }
  typeArguments := [matrixSample ""]

/-- A type with the container of the nested one for a namespace. -/
def TypeSymbol.outermostSample : TypeSymbol where
  name := "Inner"
  kind := .structType
  namespaceSegments := ["App", "Outer"]
  nullability := .annotated
  typeArguments := [matrixSample "Matrix"]

theorem TypeSymbol.spelling_eq_iff_spellsSame_nestedSample :
    nestedSample.Throughout IsWellNamed ∧ outermostSample.Throughout IsWellNamed ∧
      nestedSample.spelling = "global::App.Outer.Inner<global::System.String?[,]>" ∧
      nestedSample.SpellsSame outermostSample ∧
      ¬ nestedSample.SpellsSame (matrixSample "") := by
  have hmatrix (name : String) : (matrixSample name).Throughout IsWellNamed := by
    refine .intro ⟨nofun, nofun, nofun⟩ nofun nofun ?_
    rintro _ ⟨⟩
    refine .intro ⟨fun _ => by decide, ?_, nofun⟩ nofun nofun nofun
    simpa using (by decide : IsName "System")
  have hnested : nestedSample.Throughout IsWellNamed := by
    refine .intro ⟨fun _ => by decide, nofun, ?_⟩ ?_ ?_ nofun
    · rintro _ ⟨⟩
      rfl
    · rintro _ ⟨⟩
      refine .intro ⟨fun _ => by decide, ?_, nofun⟩ nofun nofun nofun
      simpa using (by decide : IsName "App")
    · simpa [nestedSample] using hmatrix ""
  have houtermost : outermostSample.Throughout IsWellNamed := by
    refine .intro ⟨fun _ => by decide, ?_, nofun⟩ nofun ?_ nofun
    · simpa [outermostSample] using (by decide : IsName "App" ∧ IsName "Outer")
    · simpa [outermostSample] using hmatrix "Matrix"
  refine ⟨hnested, houtermost, by decide, ?_, ?_⟩
  · exact (spelling_eq_iff_spellsSame hnested houtermost).mp (by decide)
  · rw [← spelling_eq_iff_spellsSame hnested (hmatrix "")]
    decide

end ChangeNotification
