import NtpSuite.Core.Filegen

/-!
# Names That Are Checked

When `valid_fileref` returns, and that it is right then.

The search for the next separator begins at the separator that was found last, so it is
found again. A name with a separator is refused if its first component is `..`, and otherwise
the loop has no end.

## Theorems

* `dotDot_iff`: What the loop looks for.
* `filerefTurn_strchr`: The loop stays at a separator.
* `fileref_checked_iff`: When the function returns the right result.
-/

namespace NtpSuite.Filegen

variable {p q : CStr}

theorem dotDot_iff : dotDot p = true ↔ p = [DOT, DOT] ∨ ∃ q, p = DOT :: DOT :: DIR_SEP :: q := by
  match p with
  | [] | [_] | [_, _] => simp [dotDot]
  | a :: b :: c :: q => simp [dotDot, and_assoc]

theorem mem_components (h : dotDot p = true) : [DOT, DOT] ∈ p.splitOn DIR_SEP := by
  rcases dotDot_iff.mp h with rfl | ⟨q, rfl⟩
  · decide
  · have hdots : ∀ x ∈ [DOT, DOT], (x == DIR_SEP) = false := by decide
    have hfirst := List.splitOnP_append_cons_of_forall_mem hdots DIR_SEP (beq_self_eq_true _) q
    rw [List.splitOn_eq_splitOnP]
    exact hfirst ▸ List.mem_cons_self

theorem strchr_eq_none : strchr DIR_SEP p = none ↔ DIR_SEP ∉ p := by
  induction p with
  | nil => simp [strchr]
  | cons a p ih =>
    unfold strchr
    split_ifs with ha
    · simp [ha]
    · simp [ih, Ne.symm ha]

theorem filerefTurn_strchr (h : strchr DIR_SEP p = some q) : filerefTurn q = .inl q := by
  induction p with
  | nil => cases h
  | cons a p ih =>
    unfold strchr at h
    split_ifs at h with ha
    · obtain rfl := Option.some.inj h
      have hdots : dotDot (a :: p) = false := by
        cases p <;> simp [dotDot, ha, DIR_SEP, DOT]
      rw [filerefTurn, hdots, strchr, if_pos ha]
      rfl
    · exact ih h

/-- The function returns the right result if and only if the name has no separator or is refused
    for its first component. -/
theorem fileref_checked_iff (dir fname : CStr) :
    (∃ r, ValidFileref (some dir) (some fname) r ∧
      (r = true ↔ dir ≠ [] ∧ [DOT, DOT] ∉ fname.splitOn DIR_SEP)) ↔
    dir = [] ∨ DIR_SEP ∉ fname ∨ dotDot fname = true := by
  unfold ValidFileref
  by_cases hdir : dir = []
  · simp [hdir]
  simp only [Option.getD_some, hdir, if_false, ne_eq, not_false_eq_true, true_and, false_or]
  -- The first turn looks at the first component, and it is the only one.
  by_cases hdots : dotDot fname = true
  · have hturn : filerefTurn fname = .inr false := if_pos hdots
    refine iff_of_true ⟨false, .leave _ _ hturn, ?_⟩ (.inr hdots)
    simp [mem_components hdots]
  rw [or_iff_left hdots]
  cases hsep : strchr DIR_SEP fname with
  | none =>
    have hnone := strchr_eq_none.mp hsep
    have hturn : filerefTurn fname = .inr true := by
      rw [filerefTurn, if_neg hdots, hsep]
    refine iff_of_true ⟨true, .leave _ _ hturn, iff_of_true rfl ?_⟩ hnone
    rw [List.splitOn_eq_singleton hnone, List.mem_singleton]
    exact fun hname => hdots (dotDot_iff.mpr (.inl hname.symm))
  | some p =>
    -- After the first turn the loop is at a separator.
    have hturn : filerefTurn fname = .inl p := by
      rw [filerefTurn, if_neg hdots, hsep]
    have hin : DIR_SEP ∈ fname := by
      by_contra hout
      rw [strchr_eq_none.mpr hout] at hsep
      cases hsep
    refine iff_of_false ?_ (not_not.mpr hin)
    rintro ⟨r, hends, -⟩
    cases hends with
    | leave _ _ hleave => cases hturn.symm.trans hleave
    | turn _ t _ hnext rest =>
      obtain rfl := Sum.inl.inj (hturn.symm.trans hnext)
      exact rest.ne_stay (filerefTurn_strchr hsep)

/-- The name of a file in a subdirectory. -/
theorem subdirectory_unchecked :
    ¬ ∃ r, ValidFileref (some [DOT]) (some [0x61, DIR_SEP, 0x62]) r := by
  rintro ⟨r, hends⟩
  cases (hends : Loop.Ends filerefTurn [0x61, DIR_SEP, 0x62] r) with
  | leave _ _ hleave => cases hleave
  | turn _ t _ hnext rest =>
    obtain rfl := Sum.inl.inj hnext
    exact rest.ne_stay rfl

end NtpSuite.Filegen
