/-!
Finite maps kept as lists in strictly ascending order of their keys, so that two maps with
the same look-ups are equal.
-/

namespace ChangeNotification

/-- A finite map with one entry per key, in ascending order of the keys. -/
structure OrderedMap (κ : Type) (ν : Type) [Ord κ] where
  entries : List (κ × ν)
  ascending : entries.Pairwise (fun a b => compare a.1 b.1 = .lt)

namespace OrderedMap

variable {κ ν : Type} [Ord κ]

theorem ext {m n : OrderedMap κ ν} (h : m.entries = n.entries) : m = n := by
  cases m; cases n; cases h; rfl

instance [DecidableEq κ] [DecidableEq ν] : DecidableEq (OrderedMap κ ν) := fun m n =>
  decidable_of_iff (m.entries = n.entries) ⟨ext, fun h => h ▸ rfl⟩

def empty : OrderedMap κ ν := ⟨[], .nil⟩

instance : EmptyCollection (OrderedMap κ ν) := ⟨empty⟩

instance : Inhabited (OrderedMap κ ν) := ⟨empty⟩

/-- Puts an entry at its place, in the stead of the one with the same key. -/
def insertEntry (k : κ) (v : ν) : List (κ × ν) → List (κ × ν)
  | [] => [(k, v)]
  | (k', v') :: rest =>
      match compare k k' with
      | .lt => (k, v) :: (k', v') :: rest
      | .eq => (k, v) :: rest
      | .gt => (k', v') :: insertEntry k v rest

theorem mem_insertEntry {k : κ} {v : ν} {e : κ × ν} {entries : List (κ × ν)}
    (h : e ∈ insertEntry k v entries) : e = (k, v) ∨ e ∈ entries := by
  induction entries with
  | nil => simpa [insertEntry] using h
  | cons head rest ih =>
      obtain ⟨k', v'⟩ := head
      rw [insertEntry] at h
      split at h
      · simpa using h
      · rcases List.mem_cons.mp h with h | h
        · exact .inl h
        · exact .inr (.tail _ h)
      · rcases List.mem_cons.mp h with h | h
        · exact .inr (h ▸ .head _)
        · exact (ih h).imp id (.tail _)

theorem insertEntry_ascending [Std.TransOrd κ] [Std.LawfulEqOrd κ] (k : κ) (v : ν)
    {entries : List (κ × ν)} (h : entries.Pairwise (fun a b => compare a.1 b.1 = .lt)) :
    (insertEntry k v entries).Pairwise (fun a b => compare a.1 b.1 = .lt) := by
  induction entries with
  | nil => simp [insertEntry]
  | cons head rest ih =>
      obtain ⟨k', v'⟩ := head
      have hrest := List.pairwise_cons.mp h
      rw [insertEntry]
      split
      · rename_i hlt
        refine List.pairwise_cons.mpr ⟨fun e he => ?_, h⟩
        rcases List.mem_cons.mp he with rfl | he
        · exact hlt
        · exact Std.TransCmp.lt_trans hlt (hrest.1 e he)
      · rename_i heq
        obtain rfl := Std.LawfulEqCmp.eq_of_compare heq
        exact List.pairwise_cons.mpr ⟨hrest.1, hrest.2⟩
      · rename_i hgt
        refine List.pairwise_cons.mpr ⟨fun e he => ?_, ih hrest.2⟩
        rcases mem_insertEntry he with rfl | he
        · exact Std.OrientedCmp.lt_of_gt hgt
        · exact hrest.1 e he

def insert [Std.TransOrd κ] [Std.LawfulEqOrd κ] (m : OrderedMap κ ν) (k : κ) (v : ν) :
    OrderedMap κ ν :=
  ⟨insertEntry k v m.entries, insertEntry_ascending k v m.ascending⟩

/-- The map of a list of entries; of several entries with one key the last stays. -/
def ofList [Std.TransOrd κ] [Std.LawfulEqOrd κ] (entries : List (κ × ν)) : OrderedMap κ ν :=
  entries.foldl (fun m e => m.insert e.1 e.2) ∅

def find? (m : OrderedMap κ ν) (k : κ) : Option ν :=
  (m.entries.find? (fun e => compare k e.1 == .eq)).map Prod.snd

@[simp] theorem find?_empty (k : κ) : (∅ : OrderedMap κ ν).find? k = none := rfl

theorem compare_beq_eq [Std.LawfulEqOrd κ] [Std.TransOrd κ] [DecidableEq κ] (k k' : κ) :
    (compare k k' == .eq) = decide (k = k') := by
  by_cases h : k = k' <;> simp [h]

theorem find?_insert [Std.TransOrd κ] [Std.LawfulEqOrd κ] [DecidableEq κ]
    (m : OrderedMap κ ν) (k k' : κ) (v : ν) :
    (m.insert k v).find? k' = if k' = k then some v else m.find? k' := by
  obtain ⟨entries, _⟩ := m
  show Option.map Prod.snd ((insertEntry k v entries).find? _) =
    if k' = k then some v else Option.map Prod.snd (entries.find? _)
  simp only [compare_beq_eq]
  induction entries with
  | nil => by_cases h : k' = k <;> simp [insertEntry, h]
  | cons head rest ih =>
      obtain ⟨k₀, v₀⟩ := head
      have ih := ih (List.pairwise_cons.mp (by assumption)).2
      rw [insertEntry]
      split
      · by_cases h : k' = k <;> simp [h]
      · rename_i heq
        obtain rfl := Std.LawfulEqCmp.eq_of_compare heq
        by_cases h : k' = k <;> simp [h]
      · rename_i hgt
        by_cases h : k' = k₀
        · subst h
          have hne : k' ≠ k := fun h => by subst h; simp at hgt
          simp [hne]
        · simpa [h] using ih

end OrderedMap

end ChangeNotification
