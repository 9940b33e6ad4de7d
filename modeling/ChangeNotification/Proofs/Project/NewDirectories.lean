import ChangeNotification.Proofs.Project.FileTree

/-! # New directories

A directory that is made on the way of a path has a component of the path for its name. Where the
beginning of the path leads to a directory, it is a component of the rest. The path leads to all
directories that are made for it, one after the other. -/

namespace ChangeNotification.FileTree

/-- Whatever is in the later tree alone has one of the names. -/
def NamesNew (names : List String) (tree after : FileTree) : Prop :=
  ∀ location, tree.node? location = none → (after.node? location).isSome = true →
    ∃ name ∈ names, location.getLast? = some name

variable {tree middle later after : FileTree} {names others front back way : List String}
  {location next parent place : Location} {name component path : String}

theorem NamesNew.refl (names : List String) (tree : FileTree) : NamesNew names tree tree := by
  intro location hnone hsome
  rw [hnone] at hsome
  cases hsome

theorem NamesNew.trans (h : NamesNew names tree middle) (h' : NamesNew names middle after) :
    NamesNew names tree after := by
  intro location hnone hsome
  cases hmiddle : middle.node? location with
  | none => exact h' location hmiddle hsome
  | some node => exact h location hnone (by rw [hmiddle]; rfl)

theorem NamesNew.mono (h : NamesNew names tree after) (hsub : names ⊆ others) :
    NamesNew others tree after := by
  intro location hnone hsome
  obtain ⟨name, hname, hlast⟩ := h location hnone hsome
  exact ⟨name, hsub hname, hlast⟩

theorem namesNew_makeAt (h : tree.makeAt parent name = .ok after) :
    NamesNew [name] tree after := by
  intro location hnone hsome
  have hplace : location = parent ++ [name] := by
    by_contra hne
    rw [(makeAt_eq_ok_iff.mp h).1.node?_of_ne hne, hnone] at hsome
    cases hsome
  exact ⟨name, .head _, by rw [hplace, List.getLast?_concat]⟩

/-! ## Ways -/

theorem namesNew_makeWay (tree : FileTree) (location : Location) (way : List String) :
    NamesNew way tree (tree.makeWay location way).1 := by
  induction way generalizing tree location with
  | nil => exact .refl _ _
  | cons component way ih =>
      have hsub : way ⊆ component :: way := fun _ => .tail _
      rcases tree.makeWay_cons_cases location component way with
        hends | ⟨next, -, hrest⟩ | ⟨made, hmade, hrest⟩
      · rw [hends]
        exact .refl _ _
      · rw [hrest]
        exact (ih tree next).mono hsub
      · rw [hrest]
        exact ((namesNew_makeAt hmade).mono (by simp)).trans ((ih made _).mono hsub)

/-- Nothing is made on a way as far as it leads somewhere. -/
theorem namesNew_makeWay_of_prefix (hfront : front.foldlM tree.enter location = .ok place)
    (hway : way <+: front ++ back) : NamesNew back tree (tree.makeWay location way).1 := by
  induction front generalizing location way with
  | nil => exact (namesNew_makeWay tree location way).mono hway.subset
  | cons component front ih =>
      cases way with
      | nil => exact .refl _ _
      | cons component' way =>
          rw [List.cons_append] at hway
          obtain ⟨rfl, hrest⟩ := List.cons_prefix_cons.mp hway
          rw [List.foldlM_cons] at hfront
          obtain ⟨next, hnext, hfront⟩ := bind_eq_ok_iff.mp hfront
          simp only [makeWay, hnext]
          split
          · exact ih hfront hrest
          · exact .refl _ _

/-- Components that lead nowhere else can be left out. -/
theorem foldlM_enter_filter (h : front.foldlM tree.enter location = .ok place) :
    (front.filter fun component => component ≠ "" ∧ component ≠ ".").foldlM tree.enter location =
      .ok place := by
  induction front generalizing location with
  | nil => exact h
  | cons component front ih =>
      rw [List.foldlM_cons] at h
      obtain ⟨next, hnext, hfront⟩ := bind_eq_ok_iff.mp h
      by_cases hstays : component = "" ∨ component = "."
      · have hsame : next = location := by
          rcases (enter_eq_ok_iff.mp hnext).2 with ⟨-, hnext⟩ | ⟨hup, -⟩ | ⟨hname, -⟩
          · exact hnext
          · rcases hstays with rfl | rfl <;> exact absurd hup (by decide)
          · rcases hstays with rfl | rfl <;> exact absurd hname (by decide)
        rw [List.filter_cons_of_neg (by simpa [imp_iff_not_or, or_comm] using hstays)]
        exact ih (hsame ▸ hfront)
      · rw [List.filter_cons_of_pos (by simpa [not_or] using hstays), List.foldlM_cons, hnext]
        exact ih hfront

/-! ## Paths -/

section

variable (hcomponents : Path.components path = front ++ back)
  (hfront : tree.follow front = .ok place)

include hcomponents hfront

theorem namesNew_makeDirectory (h : tree.makeDirectory path = .ok after) :
    NamesNew back tree after := by
  obtain ⟨lead, name, slashes, parent, husable, -, hparent, hmake⟩ := exists_of_makeDirectory h
  obtain ⟨hputs, hfree⟩ := makeAt_eq_ok_iff.mp hmake
  have hsplit : lead ++ (name :: slashes) = front ++ back := by
    rw [← hcomponents, ← (usable_eq_ok husable).2, List.append_assoc, List.singleton_append]
  have hname : name ∈ back := by
    rcases List.append_eq_append_iff.mp hsplit with ⟨more, hmore, hback⟩ | ⟨more, -, hback⟩
    · cases more with
      | nil =>
          rw [List.nil_append] at hback
          exact hback ▸ .head _
      -- The name would be in the part that leads somewhere.
      | cons component more =>
          obtain ⟨rfl, -⟩ := List.cons.inj hback
          rw [hmore, List.append_cons, follow_append, hputs.follow_of_free hfree hparent] at hfront
          cases hfront
    · rw [hback]
      exact List.mem_append_right _ (.head _)
  exact (namesNew_makeAt hmake).mono (by simpa using hname)

theorem namesNew_ensureDirectory (h : tree.ensureDirectory path = .ok after) :
    NamesNew back tree after := by
  unfold ensureDirectory at h
  split at h
  · rename_i made hmade
    cases h
    exact namesNew_makeDirectory hcomponents hfront hmade
  · split at h
    · cases h
      exact .refl _ _
    · cases h

/-- Where the beginning of a path leads somewhere, no directory is new but those that are named by
the rest. -/
theorem namesNew_makeDirectories (h : tree.makeDirectories path = .ok after) :
    NamesNew back tree after := by
  rcases makeDirectories_eq_ok_iff.mp h with hensure | ⟨-, made, hmade, hensure⟩
  · exact namesNew_ensureDirectory hcomponents hfront hensure
  · have hway : wayTo path <+: (front.filter fun component => component ≠ "" ∧ component ≠ ".") ++
        back.filter fun component => component ≠ "" ∧ component ≠ "." := by
      rw [wayTo, hcomponents, List.filter_append]
      exact List.dropLast_prefix _
    have hnew := namesNew_makeWay_of_prefix (foldlM_enter_filter hfront) hway
    have hgrows := (addsDirectories_makeWay tree [] (wayTo path)).growsInto
    rw [hmade] at hnew hgrows
    have hnew' := namesNew_ensureDirectory hcomponents (hgrows.follow hfront) hensure
    exact (hnew.mono fun _ => List.mem_of_mem_filter).trans hnew'

end

/-- A path as seen from a directory begins with components that lead somewhere. -/
theorem exists_follow_join (h : tree.locate path = .ok location) (other : String) :
    ∃ front place, Path.components (Path.join path other) = front ++ Path.components other ∧
      tree.follow front = .ok place := by
  cases habsolute : Path.isAbsolute other with
  | true => exact ⟨[], [], by rw [Path.join, habsolute]; rfl, rfl⟩
  | false => exact ⟨_, location, Path.components_join_of_relative habsolute path, follow_lead h⟩

/-! ## Paths that lead through directories -/

/-- A place that components lead to, or lead through on their way. -/
def Reaches (tree : FileTree) (location : Location) (way : List String) (place : Location) : Prop :=
  ∃ front, front <+: way ∧ front.foldlM tree.enter location = .ok place

theorem Reaches.self (tree : FileTree) (location : Location) (way : List String) :
    tree.Reaches location way location :=
  ⟨[], List.nil_prefix, rfl⟩

theorem Reaches.step (henter : tree.enter location component = .ok next)
    (h : tree.Reaches next way place) : tree.Reaches location (component :: way) place := by
  obtain ⟨front, hfront, hplace⟩ := h
  refine ⟨component :: front, List.cons_prefix_cons.mpr ⟨rfl, hfront⟩, ?_⟩
  rw [List.foldlM_cons, henter]
  exact hplace

/-- What a way makes is reached on the way. -/
theorem reaches_makeWay (location : Location) (way : List String) (hnone : tree.node? place = none)
    (hsome : ((tree.makeWay location way).1.node? place).isSome = true) :
    (tree.makeWay location way).1.Reaches location way place := by
  induction way generalizing tree location with
  | nil =>
      rw [makeWay, hnone] at hsome
      cases hsome
  | cons component way ih =>
      rcases tree.makeWay_cons_cases location component way with
        hends | ⟨next, hnext, hrest⟩ | ⟨made, hmade, hrest⟩
      · rw [hends, hnone] at hsome
        cases hsome
      · rw [hrest] at hsome ⊢
        exact .step ((addsDirectories_makeWay tree next way).growsInto.enter hnext) (ih _ hnone hsome)
      · rw [hrest] at hsome ⊢
        obtain ⟨hputs, -⟩ := makeAt_eq_ok_iff.mp hmade
        have henter : made.enter location component = .ok (location ++ [component]) := by
          have hlocation := (addsDirectories_makeAt hmade).growsInto.directory hputs.inDirectory
          rw [enter_name hlocation hputs.isName hputs.size, hputs.node?_self]
          rfl
        refine .step ((addsDirectories_makeWay made _ way).growsInto.enter henter) ?_
        by_cases hplace : place = location ++ [component]
        · exact hplace ▸ .self _ _ _
        · exact ih _ ((hputs.node?_of_ne hplace).trans hnone) hsome

/-- What is reached without components that lead nowhere else is reached with them too. -/
theorem Reaches.of_filter
    (h : tree.Reaches location (way.filter fun component => component ≠ "" ∧ component ≠ ".") place) :
    tree.Reaches location way place := by
  induction way generalizing location with
  | nil => exact h
  | cons component way ih =>
      obtain ⟨front, hfront, hplace⟩ := h
      cases front with
      | nil =>
          cases hplace
          exact .self _ _ _
      | cons first front =>
          have hfirst := hplace
          rw [List.foldlM_cons] at hfirst
          obtain ⟨next, hnext, hrest⟩ := bind_eq_ok_iff.mp hfirst
          by_cases hstays : component = "" ∨ component = "."
          · rw [List.filter_cons_of_neg (by simpa [imp_iff_not_or, or_comm] using hstays)] at hfront
            refine .step (enter_eq_ok_iff.mpr ?_) (ih ⟨first :: front, hfront, hplace⟩)
            exact ⟨(enter_eq_ok_iff.mp hnext).1, .inl ⟨hstays, rfl⟩⟩
          · rw [List.filter_cons_of_pos (by simpa [not_or] using hstays)] at hfront
            obtain ⟨rfl, hback⟩ := List.cons_prefix_cons.mp hfront
            exact .step hnext (ih ⟨front, hback, hrest⟩)

/-- A path that leads to a location, or leads through it on its way. -/
def LeadsThrough (tree : FileTree) (path : String) (location : Location) : Prop :=
  tree.Reaches [] (Path.components path) location

theorem GrowsInto.leadsThrough (h : tree.GrowsInto later) (hpath : tree.LeadsThrough path location) :
    later.LeadsThrough path location := by
  obtain ⟨front, hfront, hlocation⟩ := hpath
  exact ⟨front, hfront, h.follow hlocation⟩

theorem leadsThrough_makeDirectory (h : tree.makeDirectory path = .ok after)
    (hnone : tree.node? location = none) (hsome : (after.node? location).isSome = true) :
    after.LeadsThrough path location := by
  obtain ⟨lead, name, slashes, parent, husable, -, hparent, hmake⟩ := exists_of_makeDirectory h
  obtain ⟨hputs, -⟩ := makeAt_eq_ok_iff.mp hmake
  have hgrows := (addsDirectories_makeAt hmake).growsInto
  have hlocation : location = parent ++ [name] := by
    by_contra hne
    rw [hputs.node?_of_ne hne, hnone] at hsome
    cases hsome
  refine ⟨lead ++ [name], ?_, ?_⟩
  · rw [← (usable_eq_ok husable).2]
    exact List.prefix_append _ _
  · rw [hlocation]
    exact hputs.follow (hgrows.follow hparent) (hgrows.directory hputs.inDirectory)

theorem leadsThrough_ensureDirectory (h : tree.ensureDirectory path = .ok after)
    (hnone : tree.node? location = none) (hsome : (after.node? location).isSome = true) :
    after.LeadsThrough path location := by
  unfold ensureDirectory at h
  split at h
  · rename_i made hmade
    cases h
    exact leadsThrough_makeDirectory hmade hnone hsome
  · split at h
    · cases h
      rw [hnone] at hsome
      cases hsome
    · cases h

/-- The path of a directory that is made leads through all that is new. -/
theorem leadsThrough_makeDirectories (h : tree.makeDirectories path = .ok after)
    (hnone : tree.node? location = none) (hsome : (after.node? location).isSome = true) :
    after.LeadsThrough path location := by
  rcases makeDirectories_eq_ok_iff.mp h with hensure | ⟨-, made, hmade, hensure⟩
  · exact leadsThrough_ensureDirectory hensure hnone hsome
  · cases hnode : made.node? location with
    | none => exact leadsThrough_ensureDirectory hensure hnode hsome
    | some node =>
        have hway : made.Reaches [] (wayTo path) location := by
          have hreaches := reaches_makeWay [] (wayTo path) hnone
          rw [hmade, hnode] at hreaches
          exact hreaches rfl
        obtain ⟨front, hfront, hlocation⟩ := hway
        have hthrough : made.LeadsThrough path location :=
          .of_filter ⟨front, hfront.trans (List.dropLast_prefix _), hlocation⟩
        exact (ensureDirectory_spec hensure).1.growsInto.leadsThrough hthrough

end ChangeNotification.FileTree
