import ChangeNotification.Proofs.Text.Join
import ChangeNotification.Proofs.Text.Lowercase

/-! # Control characters

Generated text is made of names and of literals in which there are no control characters. A control
character is in it only if it is in a name. -/

namespace ChangeNotification.Text

/-- A character before the space. The null character stands for characters that do not exist and is
left out. -/
structure IsControl (c : Char) : Prop where
  ne_null : c ≠ '\x00'
  lt_space : c.toNat < ' '.toNat

/-- A text without a character. -/
def Lacks (c : Char) (s : String) : Prop :=
  c ∉ s.toList

variable {c : Char} {s t : String} {chars : List Char}

theorem isControl_lineFeed : IsControl '\n' := ⟨by decide, by decide⟩

theorem isControl_return : IsControl '\r' := ⟨by decide, by decide⟩

theorem IsControl.ne (hc : IsControl c) {d : Char} (hd : ' '.toNat ≤ d.toNat) : c ≠ d := by
  rintro rfl
  exact absurd hc.lt_space (Nat.not_lt.mpr hd)

/-- Whether there are no characters before the space. -/
def isPrintable (chars : List Char) : Bool :=
  chars.all fun d => Nat.ble ' '.toNat d.toNat

/-- Literals are checked by their characters, as texts themselves are slow to evaluate. -/
theorem IsControl.lacks_literal (hc : IsControl c) (h : isPrintable chars = true) :
    Lacks c (String.ofList chars) := by
  rw [Lacks, String.toList_ofList]
  intro hmem
  have hspace := List.all_eq_true.mp h c hmem
  exact hc.ne (Nat.le_of_ble_eq_true hspace) rfl

theorem IsControl.lacks_toString (hc : IsControl c) (n : Nat) : Lacks c (toString n) := by
  have htext : toString n = n.repr := rfl
  rw [Lacks, htext, Nat.toList_repr]
  intro hmem
  have hdigit := Nat.isDigit_of_mem_toDigits (by decide) (by decide) hmem
  simp only [Char.isDigit, Bool.and_eq_true, decide_eq_true_eq] at hdigit
  exact hc.ne (Nat.le_trans (by decide) hdigit.1) rfl

namespace Lacks

theorem append (hs : Lacks c s) (ht : Lacks c t) : Lacks c (s ++ t) := by
  rw [Lacks, String.toList_append, List.mem_append, not_or]
  exact ⟨hs, ht⟩

theorem append_literal (hs : Lacks c s) (hc : IsControl c) (h : isPrintable chars = true) :
    Lacks c (s ++ String.ofList chars) :=
  hs.append (hc.lacks_literal h)

theorem lowercaseFirst (hs : Lacks c s) (hc : IsControl c) : Lacks c (lowercaseFirst s) :=
  not_mem_lowercaseFirst hc.ne_null (Nat.le_trans (Nat.le_of_lt hc.lt_space) (by decide)) hs

end Lacks

end ChangeNotification.Text
