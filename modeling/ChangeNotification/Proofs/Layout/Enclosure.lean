import ChangeNotification.Proofs.Layout.Nesting

/-! # Lines enclosed in blocks

A unit has lines before all blocks, then opens blocks one inside the other, and closes them after
the lines that it is about. -/

namespace ChangeNotification.Layout

/-! ## Opening and closing -/

/-- The heads from a depth on inwards, each followed by its opening brace. -/
def openings (depth : Nat) : List String → List Line
  | [] => []
  | head :: heads => .code depth head :: .code depth "\x7b" :: openings (depth + 1) heads

/-- The closing braces of as many blocks, innermost first, down to a depth. -/
def closings (depth : Nat) : Nat → List Line
  | 0 => []
  | blocks + 1 => closings (depth + 1) blocks ++ [.code depth "\x7d"]

/-- Lines below a preamble and inside of blocks. -/
def enclose (preamble heads : List String) (inner : List Line) : List Line :=
  preamble.map (.code 0) ++ openings 0 heads ++ inner.map (Line.deeper heads.length) ++
    closings 0 heads.length

theorem length_openings (depth : Nat) (heads : List String) :
    (openings depth heads).length = 2 * heads.length := by
  induction heads generalizing depth with
  | nil => rfl
  | cons head heads ih =>
      rw [openings, List.length_cons, List.length_cons, ih, List.length_cons]
      omega

theorem openings_concat (depth : Nat) (heads : List String) (head : String) :
    openings depth (heads ++ [head]) = openings depth heads ++
      [.code (depth + heads.length) head, .code (depth + heads.length) "\x7b"] := by
  induction heads generalizing depth with
  | nil => rfl
  | cons first heads ih =>
      rw [List.cons_append, openings, ih, openings, List.length_cons, Nat.add_right_comm,
        Nat.add_assoc depth]
      rfl

theorem nested_openings {heads : List String} (hheads : ∀ head ∈ heads, IsPlain head)
    {depth : Nat} {inner : List Line} (h : Nested (depth + heads.length) inner) :
    Nested depth (openings depth heads ++ inner ++ closings depth heads.length) := by
  induction heads generalizing depth with
  | nil => simpa [openings, closings] using h
  | cons head heads ih =>
      rw [List.length_cons, Nat.add_comm heads.length 1, ← Nat.add_assoc] at h
      have hbody := ih (fun other hother => hheads other (.tail _ hother)) h
      simpa [openings, closings] using Nested.block (hheads head (by simp)) hbody (.nil depth)

theorem nested_code {contents : List String} (h : ∀ content ∈ contents, IsPlain content)
    (depth : Nat) : Nested depth (contents.map (.code depth)) := by
  induction contents with
  | nil => exact .nil depth
  | cons content contents ih =>
      exact .code (h content (by simp)) (ih fun other hother => h other (.tail _ hother))

theorem nested_enclose {preamble heads : List String} (hpreamble : ∀ line ∈ preamble, IsPlain line)
    (hheads : ∀ head ∈ heads, IsPlain head) {inner : List Line} (h : Nested 0 inner) :
    Nested 0 (enclose preamble heads inner) := by
  have hblocks := nested_openings hheads (h.deeper heads.length)
  simpa [enclose] using (nested_code hpreamble 0).append hblocks

variable {width : Nat} {ending : LineEnding}

/-- Scanning heads and their braces opens the blocks from the outermost on. -/
theorem run_openings (width : Nat) {heads : List String} (hheads : ∀ head ∈ heads, IsPlain head)
    (previous : String) (outer : List String) :
    ∃ last, Scan.run width ⟨previous, outer⟩ ((openings outer.length heads).map (Line.text width)) =
      some ⟨last, heads.reverse ++ outer⟩ := by
  induction heads generalizing previous outer with
  | nil => exact ⟨previous, rfl⟩
  | cons head heads ih =>
      obtain ⟨last, hlast⟩ :=
        ih (fun other hother => hheads other (.tail _ hother)) "\x7b" (head :: outer)
      refine ⟨last, ?_⟩
      rw [openings, List.map_cons, List.map_cons, Scan.run_cons,
        Scan.step_code (hheads head (by simp)), Option.bind_some, Scan.run_cons,
        Scan.step_opening, Option.bind_some]
      simpa using hlast

theorem unindented_openings {heads : List String} (hheads : ∀ head ∈ heads, IsPlain head)
    (depth : Nat) :
    (openings depth heads).map (unindented ∘ Line.text width) =
      heads.flatMap fun head => [head, "\x7b"] := by
  induction heads generalizing depth with
  | nil => rfl
  | cons head heads ih =>
      have hbrace : "\x7b".toList.head? ≠ some ' ' := by decide
      simp [openings, ih (fun other hother => hheads other (.tail _ hother)),
        unindented_text (hheads head (by simp)).begins, unindented_text hbrace]

theorem unindented_closings (depth blocks : Nat) :
    (closings depth blocks).map (unindented ∘ Line.text width) =
      List.replicate blocks "\x7d" := by
  induction blocks generalizing depth with
  | zero => rfl
  | succ blocks ih =>
      have hbrace : "\x7d".toList.head? ≠ some ' ' := by decide
      simp [closings, ih, unindented_text hbrace, List.replicate_succ']

/-! ## Texts of units -/

/-- A text that is a properly nested brace document, with members inside of blocks that have the
given heads, outermost first. Before them stands the preamble, and after them nothing but closing
braces. -/
structure IsUnitText (width : Nat) (ending : LineEnding) (preamble heads : List String)
    (text : String) : Prop where
  ended : ∃ front, text = front ++ ending.text
  nested : ∃ last, Scan.start.run width (ending.split text) = some ⟨last, []⟩
  enclosed : ∃ opening members closing,
    ending.split text = opening ++ members ++ closing ∧
    opening.map unindented = preamble ++ heads.flatMap (fun head => [head, "\x7b"]) ∧
    (∃ last, Scan.start.run width opening = some ⟨last, heads.reverse⟩) ∧
    Within width heads.reverse members ∧
    closing.map unindented = heads.map (fun _ => "\x7d") ++ [""]

/-- Nested lines become a nested document where they are enclosed. -/
theorem isUnitText_document {preamble heads : List String} {inner : List Line}
    (hpreamble : ∀ line ∈ preamble, IsPlain line) (hheads : ∀ head ∈ heads, IsPlain head)
    (hblocks : heads ≠ []) (h : Nested 0 inner) :
    IsUnitText width ending preamble heads
      (Line.document width ending (enclose preamble heads inner)) := by
  have hnested := nested_enclose hpreamble hheads h
  have hsplit := Line.split_document ending (hnested.unbroken width)
  refine ⟨?_, ?_, ?_⟩
  · obtain ⟨outermost, others, rfl⟩ := List.exists_cons_of_ne_nil hblocks
    refine ⟨Line.document width ending (preamble.map (.code 0) ++ openings 0 (outermost :: others)
      ++ inner.map (Line.deeper (others.length + 1)) ++ closings 1 others.length) ++
      (Line.code 0 "\x7d").text width, ?_⟩
    simp [enclose, closings, Line.document_cons, String.append_assoc]
  · obtain ⟨last, hlast⟩ := (hnested.within width [] rfl).returns ""
    refine ⟨"", ?_⟩
    rw [hsplit, Scan.run_append, Scan.start, hlast]
    simpa [Line.text] using Scan.step_blank width ⟨last, []⟩
  · refine ⟨(preamble.map (Line.code 0) ++ openings 0 heads).map (Line.text width),
      (inner.map (Line.deeper heads.length)).map (Line.text width),
      (closings 0 heads.length).map (Line.text width) ++ [""], ?_, ?_, ?_, ?_, ?_⟩
    · rw [hsplit, enclose]
      simp
    · have hlines : preamble.map (unindented ∘ Line.text width ∘ Line.code 0) = preamble := by
        refine (List.map_congr_left (g := id) fun line hline => ?_).trans (List.map_id preamble)
        exact unindented_text (hpreamble line hline).begins
      simp [unindented_openings hheads, hlines]
    · obtain ⟨last, hlast⟩ :=
        ((nested_code hpreamble 0).within width [] rfl).returns ""
      obtain ⟨next, hnext⟩ := run_openings width hheads last []
      refine ⟨next, ?_⟩
      rw [List.map_append, Scan.run_append, Scan.start, hlast, Option.bind_some]
      simpa using hnext
    · have hdeeper := h.deeper heads.length
      exact hdeeper.within width heads.reverse (by simp)
    · have hempty : unindented "" = "" := by decide
      simp [unindented_closings, hempty, List.map_const']

end ChangeNotification.Layout
