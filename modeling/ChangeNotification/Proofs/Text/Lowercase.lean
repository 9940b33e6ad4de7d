import ChangeNotification.Text.Lowercase

/-! # Characters in lower case

The lower case of a character lies above the Latin capitals, unless the character stays as it is. So
a name in lower case gets no new character up to these, and begins with none of them. -/

namespace ChangeNotification.Text

/-- Every entry of the table leads above the Latin capitals. -/
theorem capitals_lt_of_mem_caseRuns : ∀ run ∈ caseRuns, 'Z'.toNat < run.first + run.shift := by
  decide +kernel

theorem ne_ofNat {c : Char} {code : Nat} (hc : c ≠ '\x00') (h : c.toNat < code) :
    c ≠ Char.ofNat code := by
  intro heq
  by_cases hvalid : code.isValidChar
  · have hchar : Char.ofNat code = Char.ofNatAux code hvalid := dif_pos hvalid
    rw [hchar] at heq
    have hcode : c.toNat = code := congrArg Char.toNat heq
    omega
  · have hchar : Char.ofNat code = '\x00' := dif_neg hvalid
    exact hc (heq.trans hchar)

/-- Up to the Latin capitals, a lower case is that of a character that has no other. -/
theorem eq_of_mem_lowercase {c d : Char} (hd : d ≠ '\x00') (hbound : d.toNat ≤ 'Z'.toNat)
    (h : d ∈ lowercase c) : d = c := by
  rw [lowercase] at h
  by_cases hdot : c = 'İ'
  · rw [if_pos hdot, List.mem_cons, List.mem_singleton] at h
    rcases h with rfl | rfl
    · exact absurd hbound (by decide)
    · exact absurd hbound (by decide)
  rw [if_neg hdot] at h
  cases hfind : caseRuns.find? (·.covers c.toNat) with
  | none => simpa [hfind] using h
  | some run =>
      have hrun := capitals_lt_of_mem_caseRuns run (List.mem_of_find?_eq_some hfind)
      have hcovers := List.find?_some hfind
      simp only [CaseRun.covers, Bool.and_eq_true, decide_eq_true_eq] at hcovers
      have hfirst : run.first ≤ c.toNat := hcovers.1.1
      simp only [hfind, List.mem_singleton] at h
      exact absurd h (ne_ofNat hd (by omega))

theorem lowercaseFirst_cons {s : String} {c : Char} {rest : List Char}
    (h : s.toList = c :: rest) : (lowercaseFirst s).toList = lowercase c ++ rest := by
  simp [lowercaseFirst, h]

/-- A name in lower case has no character up to the Latin capitals that the name does not have. -/
theorem not_mem_lowercaseFirst {d : Char} (hd : d ≠ '\x00') (hbound : d.toNat ≤ 'Z'.toNat)
    {s : String} (h : d ∉ s.toList) : d ∉ (lowercaseFirst s).toList := by
  intro hmem
  cases hs : s.toList with
  | nil => simp [lowercaseFirst, hs] at hmem
  | cons c rest =>
      rw [lowercaseFirst_cons hs, List.mem_append] at hmem
      rw [hs, List.mem_cons, not_or] at h
      have hlower := mt (eq_of_mem_lowercase hd hbound) h.1
      exact hmem.elim hlower h.2

theorem lowercase_ne_nil (c : Char) : lowercase c ≠ [] := by
  rw [lowercase]
  split
  · simp
  · split <;> simp

/-- No name in lower case begins with a capital that has a lower case of its own. -/
theorem head?_lowercaseFirst_ne {capital : Char} (hcapital : capital ≠ '\x00')
    (hbound : capital.toNat ≤ 'Z'.toNat) (hlower : capital ∉ lowercase capital) (s : String) :
    (lowercaseFirst s).toList.head? ≠ some capital := by
  intro hhead
  cases hs : s.toList with
  | nil => simp [lowercaseFirst, hs] at hhead
  | cons c rest =>
      obtain ⟨first, others, hfirst⟩ := List.exists_cons_of_ne_nil (lowercase_ne_nil c)
      rw [lowercaseFirst_cons hs, hfirst, List.cons_append, List.head?_cons] at hhead
      have hmem : capital ∈ lowercase c := by
        rw [hfirst, ← Option.some.inj hhead]
        exact List.mem_cons_self
      have hc := eq_of_mem_lowercase hcapital hbound hmem
      exact hlower (hc ▸ hmem)

end ChangeNotification.Text
