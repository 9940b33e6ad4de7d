import ChangeNotification.OrderedMap
import Mathlib.Data.List.Induction
import Mathlib.Data.List.Sort

/-! # Maps and their entries

A map is determined by its look-ups, and it is the map of its own entries. -/

namespace ChangeNotification.OrderedMap

variable {κ ν : Type} [Ord κ] [Std.TransOrd κ] [Std.LawfulEqOrd κ]

/-! ## Entries -/

instance : Std.Irrefl fun a b : κ × ν => compare a.1 b.1 = .lt where
  irrefl a h := by
    have hself : compare a.1 a.1 = .eq := Std.ReflOrd.compare_self
    rw [hself] at h
    cases h

/-- Of two keys only one comes before the other. -/
instance : Std.Antisymm fun a b : κ × ν => compare a.1 b.1 = .lt where
  antisymm a b hab hba := by
    have hgt := Std.OrientedCmp.gt_of_lt hba
    rw [hab] at hgt
    cases hgt

theorem find?_eq_some_iff [DecidableEq κ] {m : OrderedMap κ ν} {k : κ} {v : ν} :
    m.find? k = some v ↔ (k, v) ∈ m.entries := by
  obtain ⟨entries, ascending⟩ := m
  simp only [find?, compare_beq_eq]
  induction entries with
  | nil => simp
  | cons head rest ih =>
      obtain ⟨k', v'⟩ := head
      obtain ⟨hhead, hrest⟩ := List.pairwise_cons.mp ascending
      by_cases h : k = k'
      · subst h
        have hnone : (k, v) ∉ rest := by
          intro hmem
          have hself : compare k k = .eq := Std.ReflOrd.compare_self
          exact absurd (hself.symm.trans (hhead _ hmem)) (by decide)
        simp [hnone, eq_comm]
      · simp [h, ih hrest]

/-- Maps with the same look-ups are equal. -/
theorem ext_find? [DecidableEq κ] {m n : OrderedMap κ ν} (h : ∀ k, m.find? k = n.find? k) :
    m = n := by
  refine ext (m.ascending.eq_of_mem_iff n.ascending fun ⟨k, v⟩ => ?_)
  rw [← find?_eq_some_iff, ← find?_eq_some_iff, h]

/-- Entries of one kind are the same in two maps that agree on this kind. -/
theorem filter_entries_congr [DecidableEq κ] {m n : OrderedMap κ ν} {p : κ × ν → Bool}
    (h : ∀ k v, p (k, v) = true → (m.find? k = some v ↔ n.find? k = some v)) :
    m.entries.filter p = n.entries.filter p := by
  have hm := m.ascending.filter p
  have hn := n.ascending.filter p
  refine hm.eq_of_mem_iff hn fun ⟨k, v⟩ => ?_
  rw [List.mem_filter, List.mem_filter, ← find?_eq_some_iff, ← find?_eq_some_iff]
  exact ⟨fun ⟨hmem, hp⟩ => ⟨(h k v hp).mp hmem, hp⟩, fun ⟨hmem, hp⟩ => ⟨(h k v hp).mpr hmem, hp⟩⟩

/-! ## Other values -/

/-- The map with other values for the same keys. -/
def mapValues (m : OrderedMap κ ν) (f : κ → ν → ν) : OrderedMap κ ν :=
  ⟨m.entries.map fun entry => (entry.1, f entry.1 entry.2), List.pairwise_map.mpr m.ascending⟩

theorem find?_mapValues [DecidableEq κ] (m : OrderedMap κ ν) (f : κ → ν → ν) (k : κ) :
    (m.mapValues f).find? k = (m.find? k).map (f k) := by
  obtain ⟨entries, ascending⟩ := m
  simp only [find?, mapValues, compare_beq_eq, List.find?_map, Option.map_map]
  change Option.map _ (entries.find? fun entry => decide (k = entry.1)) = _
  cases hfind : entries.find? fun entry => decide (k = entry.1) with
  | none => rfl
  | some entry =>
      have hkey : k = entry.1 := by simpa using List.find?_some hfind
      simp [hkey]

/-! ## Insertion in order -/

omit [Std.LawfulEqOrd κ] in
/-- An entry behind all others comes last. -/
theorem insertEntry_of_forall_lt {k : κ} (v : ν) {entries : List (κ × ν)}
    (h : ∀ entry ∈ entries, compare entry.1 k = .lt) :
    insertEntry k v entries = entries ++ [(k, v)] := by
  induction entries with
  | nil => rfl
  | cons head rest ih =>
      have hgt : compare k head.1 = .gt := Std.OrientedCmp.gt_of_lt (h head (.head _))
      have hrest := ih fun entry hentry => h entry (.tail _ hentry)
      simp only [insertEntry, hgt, hrest, List.cons_append]

theorem entries_foldl_insert (m : OrderedMap κ ν) {entries : List (κ × ν)}
    (h : (m.entries ++ entries).Pairwise fun a b => compare a.1 b.1 = .lt) :
    (entries.foldl (fun m e => m.insert e.1 e.2) m).entries = m.entries ++ entries := by
  induction entries generalizing m with
  | nil => simp
  | cons head rest ih =>
      have hbefore : ∀ entry ∈ m.entries, compare entry.1 head.1 = .lt :=
        fun entry hentry => (List.pairwise_append.mp h).2.2 entry hentry head (.head _)
      have hinsert : (m.insert head.1 head.2).entries = m.entries ++ [head] :=
        insertEntry_of_forall_lt head.2 hbefore
      have hnext := ih (m.insert head.1 head.2) (by simpa [hinsert] using h)
      rw [List.foldl_cons, hnext, hinsert, List.append_assoc, List.singleton_append]

theorem ofList_entries (m : OrderedMap κ ν) : ofList m.entries = m :=
  ext (entries_foldl_insert ∅ m.ascending)

/-! ## Entries in any order -/

/-- Under a key stands the last of its entries. -/
theorem find?_ofList [DecidableEq κ] (entries : List (κ × ν)) (k : κ) :
    (ofList entries).find? k = ((entries.filter (·.1 = k)).getLast?).map Prod.snd := by
  induction entries using List.reverseRecOn with
  | nil => rfl
  | append_singleton entries last ih =>
      have hinsert : ofList (entries ++ [last]) = (ofList entries).insert last.1 last.2 := by
        rw [ofList, List.foldl_append, List.foldl_cons, List.foldl_nil, ofList]
      rw [hinsert, find?_insert, ih, List.filter_append]
      by_cases hlast : k = last.1
      · simp [hlast]
      · simp [hlast, Ne.symm hlast]

/-- The order of entries counts only among those of one key. -/
theorem ofList_congr [DecidableEq κ] {entries others : List (κ × ν)}
    (h : ∀ k, entries.filter (·.1 = k) = others.filter (·.1 = k)) :
    ofList entries = ofList others :=
  ext_find? fun k => by rw [find?_ofList, find?_ofList, h]

end ChangeNotification.OrderedMap
