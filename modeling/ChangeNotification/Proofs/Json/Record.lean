import ChangeNotification.Json.Record
import Mathlib.Data.List.Nodup

/-! # Records by name

A record that is given as an object is known by the values under its names. What is read of it
depends on nothing else. -/

namespace ChangeNotification.Json

/-! ## Lists -/

section

variable {α β : Type}

/-- A list is read item by item. -/
theorem mapM_eq_some_iff {read : α → Option β} {items : List α} {results : List β} :
    items.mapM read = some results ↔ items.map read = results.map some := by
  induction items generalizing results with
  | nil => cases results <;> simp
  | cons item items ih =>
      cases results with
      | nil => simp [Option.bind_eq_some_iff]
      | cons result results => simp [Option.bind_eq_some_iff, ih]

/-- Items that are each read as they were written make the list that was written. -/
theorem mapM_written {write : α → β} {read : β → Option α} {items : List α}
    (h : ∀ item ∈ items, read (write item) = some item) :
    (items.map write).mapM read = some items := by
  rw [mapM_eq_some_iff, List.map_map]
  exact List.map_congr_left h

/-- Reading the elements of an array takes their values alone. -/
theorem list?_array (elements : List Json) (read : Json → Option α) :
    (array elements).list? (read ·.val) = elements.mapM read := by
  have hvalues : (elements.attach.map fun v =>
      (⟨v.1, sizeOf_lt_array v.2⟩ : (array elements).Part)).map Subtype.val = elements := by
    rw [List.map_map]
    exact elements.attach_map_subtype_val
  rw [list?, elements?, Option.bind_some]
  conv_rhs => rw [← hvalues, List.mapM_map]
  rfl

theorem list?_written {write : α → Json} {read : Json → Option α} {items : List α}
    (h : ∀ item ∈ items, read (write item) = some item) :
    (array (items.map write)).list? (read ·.val) = some items := by
  rw [list?_array, mapM_written h]

/-- An element may be replaced by one that is read the same. -/
theorem list?_element {read : Json → Option α} {v w : Json} {before after : List Json}
    (h : ∀ a, read v = some a → read w = some a) {items : List α}
    (hread : (array (before ++ v :: after)).list? (read ·.val) = some items) :
    (array (before ++ w :: after)).list? (read ·.val) = some items := by
  rw [list?_array, mapM_eq_some_iff] at hread ⊢
  have hv : read v ∈ items.map some := by
    rw [← hread]
    simp
  obtain ⟨a, -, ha⟩ := List.mem_map.mp hv
  have hw : read w = read v := (h a ha.symm).trans ha
  simpa [hw] using hread

theorem texts?_ofTexts (texts : List String) : (ofTexts texts).texts? = some texts :=
  list?_written fun _ _ => rfl

end

/-! ## Fields -/

/-- Reads a value in the place of which `null` may stand. -/
def orNull? {α : Type} (read : Json → Option α) : Json → Option (Option α)
  | .null => some none
  | v => (read v).map some

theorem orNull?_of_ne_null {α : Type} {v : Json} (h : v ≠ .null) (read : Json → Option α) :
    orNull? read v = (read v).map some := by
  cases v with
  | null => exact absurd rfl h
  | bool | int | other | string | array | object => rfl

namespace Record

variable {j : Json} {α : Type}

/-- The values of the fields that are given. -/
def values (r : j.Record) : List (String × Json) :=
  r.fields.map fun field => (field.1, field.2.val)

theorem map_val_find? (r : j.Record) (name : String) :
    (r.find? name).map Subtype.val = r.values.lookup name := by
  rw [find?, values]
  induction r.fields with
  | nil => rfl
  | cons field fields ih =>
      obtain ⟨first, v⟩ := field
      rw [List.map_cons, List.lookup_cons, List.lookup_cons]
      cases name == first with
      | true => rfl
      | false => exact ih

theorem required_eq (r : j.Record) (name : String) (read : Json → Option α) :
    r.required name (read ·.val) = ((r.values.lookup name).map read).getD none := by
  rw [← map_val_find?, required]
  cases r.find? name <;> rfl

theorem defaulted_eq (r : j.Record) (name : String) (default : α) (read : Json → Option α) :
    r.defaulted name default (read ·.val) =
      ((r.values.lookup name).map read).getD (some default) := by
  rw [← map_val_find?, defaulted]
  cases r.find? name <;> rfl

theorem orNull_eq (read : Json → Option α) :
    (orNull (read ·.val) : j.Part → Option (Option α)) = (orNull? read ·.val) := by
  funext v
  obtain ⟨v, -⟩ := v
  cases v <;> rfl

theorem optional_eq (r : j.Record) (name : String) (read : Json → Option α) :
    r.optional name (read ·.val) =
      ((r.values.lookup name).map (orNull? read)).getD (some none) := by
  rw [optional, orNull_eq, defaulted_eq]

theorem nullable_eq {r : j.Record} (h : r.positional = false) (name : String)
    (read : Json → Option α) :
    r.nullable name (read ·.val) =
      ((r.values.lookup name).map (orNull? read)).getD (some none) := by
  rw [nullable, h]
  exact r.optional_eq name read

end Record

/-! ## Objects -/

variable {names : List String} {members : List (String × Json)}

theorem members?_object (members : List (String × Json)) :
    ∃ parts, (object members).members? = some parts ∧
      parts.map (fun part => (part.1, part.2.val)) = members := by
  refine ⟨_, rfl, ?_⟩
  rw [List.map_map]
  exact members.attach_map_subtype_val

/-- No field is given twice. Other members may be. -/
def GivesOnce (names : List String) (members : List (String × Json)) : Prop :=
  ((members.filter (names.contains ·.1)).map Prod.fst).Nodup

instance (names : List String) (members : List (String × Json)) :
    Decidable (GivesOnce names members) :=
  inferInstanceAs (Decidable (List.Nodup _))

/-- An object is a record if it gives no field twice. Other members do not count. -/
theorem exists_record?_object (names : List String) (members : List (String × Json)) :
    ∃ r : (object members).Record, r.positional = false ∧
      r.values = members.filter (names.contains ·.1) ∧
      (object members).record? names = if GivesOnce names members then some r else none := by
  obtain ⟨parts, hparts, hmembers⟩ := members?_object members
  have hvalues : (parts.filter (names.contains ·.1)).map (fun part => (part.1, part.2.val)) =
      members.filter (names.contains ·.1) := by
    have hfilter := congrArg (List.filter (names.contains ·.1)) hmembers
    rwa [List.filter_map] at hfilter
  have honce : GivesOnce names members ↔
      ((parts.filter (names.contains ·.1)).map Prod.fst).Nodup := by
    rw [GivesOnce, ← hvalues, List.map_map]
    rfl
  refine ⟨⟨false, parts.filter (names.contains ·.1)⟩, rfl, hvalues, ?_⟩
  rw [record?, hparts]
  simp only [honce]

theorem record?_object (h : GivesOnce names members) :
    ∃ r, (object members).record? names = some r ∧ r.positional = false ∧
      r.values = members.filter (names.contains ·.1) := by
  obtain ⟨r, hpositional, hvalues, hrecord⟩ := exists_record?_object names members
  exact ⟨r, hrecord.trans (if_pos h), hpositional, hvalues⟩

/-- An object that has fields alone, each once. -/
theorem record?_fields (hknown : ∀ name ∈ members.map Prod.fst, name ∈ names)
    (hnodup : (members.map Prod.fst).Nodup) :
    ∃ r, (object members).record? names = some r ∧ r.positional = false ∧ r.values = members := by
  have hall : members.filter (names.contains ·.1) = members := by
    refine List.filter_eq_self.mpr fun m hm => ?_
    simpa using hknown m.1 (List.mem_map_of_mem hm)
  have hrecord := @record?_object names members (by rwa [GivesOnce, hall])
  rwa [hall] at hrecord

/-- What follows the reading of a record may take the object as it is. -/
theorem record?_bind {α : Type} {next : (object members).Record → Option α} {result : Option α}
    (hknown : ∀ name ∈ members.map Prod.fst, name ∈ names)
    (hnodup : (members.map Prod.fst).Nodup)
    (h : ∀ r : (object members).Record, r.positional = false → r.values = members →
      next r = result) : (object members).record? names >>= next = result := by
  obtain ⟨r, hr, hpositional, hvalues⟩ := record?_fields hknown hnodup
  rw [hr]
  exact h r hpositional hvalues

/-! ## Objects with the same fields -/

section

variable {others : List (String × Json)} {name : String} {v : Json}

theorem lookup_cons_of_ne {first : String} (h : name ≠ first) :
    ((first, v) :: members).lookup name = members.lookup name := by
  rw [List.lookup_cons, beq_false_of_ne h]

theorem lookup_eq_none_of_not_mem (h : name ∉ members.map Prod.fst) :
    members.lookup name = none := by
  refine List.lookup_eq_none_iff.mpr fun member hmember => ?_
  rw [bne_iff_ne]
  rintro rfl
  exact h (List.mem_map_of_mem hmember)

theorem GivesOnce.perm (h : GivesOnce names members) (hperm : members.Perm others) :
    GivesOnce names others :=
  ((hperm.filter _).map Prod.fst).nodup_iff.mp h

theorem givesOnce_cons_of_not_mem (h : name ∉ names) :
    GivesOnce names ((name, v) :: members) ↔ GivesOnce names members := by
  rw [GivesOnce, List.filter_cons_of_neg (by simpa using h), GivesOnce]

theorem givesOnce_cons_of_mem (h : name ∈ names) :
    GivesOnce names ((name, v) :: members) ↔
      members.lookup name = none ∧ GivesOnce names members := by
  rw [GivesOnce, List.filter_cons_of_pos (by simpa using h), List.map_cons, List.nodup_cons,
    List.lookup_eq_none_iff, GivesOnce]
  refine and_congr_left fun _ => ?_
  simp only [List.mem_map, List.mem_filter]
  constructor
  · intro hnot member hmember
    rw [bne_iff_ne]
    rintro rfl
    exact hnot ⟨member, ⟨hmember, by simpa using h⟩, rfl⟩
  · rintro hnot ⟨member, ⟨hmember, -⟩, rfl⟩
    simpa using hnot member hmember

theorem GivesOnce.lookup_eq_some_iff (h : GivesOnce names members) (hname : name ∈ names) :
    members.lookup name = some v ↔ (name, v) ∈ members := by
  induction members with
  | nil => simp
  | cons member members ih =>
      obtain ⟨first, w⟩ := member
      by_cases hfirst : name = first
      · subst hfirst
        obtain ⟨hnone, -⟩ := (givesOnce_cons_of_mem hname).mp h
        have hnot : (name, v) ∉ members := by
          intro hmem
          simpa using List.lookup_eq_none_iff.mp hnone _ hmem
        simp [hnot, eq_comm]
      · have hrest : GivesOnce names members := by
          by_cases hknown : first ∈ names
          · exact ((givesOnce_cons_of_mem hknown).mp h).2
          · exact (givesOnce_cons_of_not_mem hknown).mp h
        simp [lookup_cons_of_ne hfirst, hfirst, ih hrest]

/-- What stands in a field does not depend on the order of the members. -/
theorem GivesOnce.lookup_perm (h : GivesOnce names members) (hperm : members.Perm others)
    (hname : name ∈ names) : members.lookup name = others.lookup name := by
  refine Option.ext fun v => ?_
  rw [h.lookup_eq_some_iff hname, (h.perm hperm).lookup_eq_some_iff hname, hperm.mem_iff]

theorem lookup_filter_contains (hname : name ∈ names) (members : List (String × Json)) :
    (members.filter (names.contains ·.1)).lookup name = members.lookup name := by
  induction members with
  | nil => rfl
  | cons member members ih =>
      obtain ⟨first, w⟩ := member
      by_cases hknown : first ∈ names
      · rw [List.filter_cons_of_pos (by simpa using hknown), List.lookup_cons, List.lookup_cons, ih]
      · have hne : name ≠ first := ne_of_mem_of_not_mem hname hknown
        rw [List.filter_cons_of_neg (by simpa using hknown), ih, lookup_cons_of_ne hne]

variable {α : Type} {a : α} {next : (object members).Record → Option α}

theorem givesOnce_of_record?_bind (h : (object members).record? names >>= next = some a) :
    GivesOnce names members := by
  obtain ⟨r, -, -, hrecord⟩ := exists_record?_object names members
  by_contra honce
  rw [hrecord, if_neg honce] at h
  cases h

/-- What is read of an object depends on the values in its fields. -/
theorem record?_bind_congr {next' : (object others).Record → Option α}
    (hothers : GivesOnce names others)
    (h : ∀ (r : (object members).Record) (r' : (object others).Record),
      (∀ name ∈ names, r.values.lookup name = members.lookup name) →
      (∀ name ∈ names, r'.values.lookup name = others.lookup name) →
      next r = some a → next' r' = some a)
    (hread : (object members).record? names >>= next = some a) :
    (object others).record? names >>= next' = some a := by
  obtain ⟨r, hr, -, hvalues⟩ := record?_object (givesOnce_of_record?_bind hread)
  obtain ⟨r', hr', -, hvalues'⟩ := record?_object hothers
  rw [hr] at hread
  rw [hr']
  refine h r r' (fun name hname => ?_) (fun name hname => ?_) hread
  · rw [hvalues, lookup_filter_contains hname]
  · rw [hvalues', lookup_filter_contains hname]

end

/-! ## Members that may be absent -/

section

variable {α : Type} {write : α → Json} {read : Json → Option α} {item : Option α}

/-- A member that is left out when there is nothing to write. -/
theorem optional_written (hnull : ∀ a, write a ≠ .null)
    (h : ∀ a ∈ item, read (write a) = some a) :
    (item.map (orNull? read ∘ write)).getD (some none) = some item := by
  cases item with
  | none => rfl
  | some a => simp [orNull?_of_ne_null (hnull a), h a rfl]

/-- A member that is `null` when there is nothing to write. -/
theorem orNull?_ofOption (hnull : ∀ a, write a ≠ .null)
    (h : ∀ a ∈ item, read (write a) = some a) : orNull? read (ofOption write item) = some item := by
  cases item with
  | none => rfl
  | some a => simp [ofOption, orNull?_of_ne_null (hnull a), h a rfl]

end

end ChangeNotification.Json
