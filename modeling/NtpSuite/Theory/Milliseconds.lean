import NtpSuite.Theory.NtpqRoundTrip

/-!
# Milliseconds

`mstolfp` makes of a number of milliseconds what `atolfp` makes of the same number with the
point three places to the left.

## Main definitions

* `Numeral`: A number as it is written.
* `Numeral.moved`: The number with the point moved.

## Theorems

* `Numeral.parts`: What is read of a number.
* `mstolfp_moved`: The two functions agree.
-/

namespace NtpSuite.Ntpq

open List Option Tiling

/-- A number: white space, a sign, digits, and perhaps a point with digits behind it. -/
structure Numeral where
  blanks : CStr
  neg : Bool
  int : CStr
  frac : Option CStr
  isspace_blanks : ∀ c ∈ blanks, isspace c = true
  isdigit_int : ∀ c ∈ int, isdigit c = true
  isdigit_frac : ∀ c ∈ frac.getD [], isdigit c = true
  ne_nil : int ++ frac.getD [] ≠ []

def minus (neg : Bool) : CStr := if neg then [0x2d] else []

namespace Numeral

variable (d : Numeral)

def unsigned : CStr := d.int ++ d.frac.elim [] (0x2e :: ·)

def text : CStr := d.blanks ++ (minus d.neg ++ d.unsigned)

/-- The digits behind the point when it is three places to the left: the last three before
    it, with zeros before them if there are fewer, and those that were behind it. -/
def behindPoint : CStr :=
  replicate (3 - d.int.length) 0x30 ++ d.int.drop (d.int.length - 3) ++ d.frac.getD []

theorem isdigit_behindPoint : ∀ c ∈ d.behindPoint, isdigit c = true := by
  intro c hc
  rw [behindPoint, mem_append, mem_append] at hc
  rcases hc with (hc | hc) | hc
  · rw [eq_of_mem_replicate hc]
    rfl
  · exact d.isdigit_int c (mem_of_mem_drop hc)
  · exact d.isdigit_frac c hc

theorem behindPoint_ne_nil : d.behindPoint ≠ [] := by
  intro hnil
  have hlen := congrArg length hnil
  simp only [behindPoint, length_append, length_replicate, length_drop, length_nil] at hlen
  omega

/-- The number with the point three places to the left. -/
def moved : Numeral where
  blanks := d.blanks
  neg := d.neg
  int := d.int.take (d.int.length - 3)
  frac := some d.behindPoint
  isspace_blanks := d.isspace_blanks
  isdigit_int := fun c hc => d.isdigit_int c (mem_of_mem_take hc)
  isdigit_frac := d.isdigit_behindPoint
  ne_nil := append_ne_nil_of_right_ne_nil _ d.behindPoint_ne_nil

/-- The number as `mstolfp` writes it, with a zero if no digits are left before the point. -/
def written : Numeral where
  blanks := []
  neg := d.neg
  int := if d.int.length > 3 then d.moved.int else [0x30]
  frac := some d.behindPoint
  isspace_blanks := nofun
  isdigit_int := by
    split_ifs
    · exact d.moved.isdigit_int
    · decide
  isdigit_frac := d.isdigit_behindPoint
  ne_nil := append_ne_nil_of_right_ne_nil _ d.behindPoint_ne_nil

theorem movePoint_eq : movePoint (minus d.neg) d.int (d.frac.getD []) = d.written.text := by
  unfold movePoint
  simp [written, text, unsigned, moved, behindPoint]
  omega

theorem decimalNum_written : decimalNum d.written.int = decimalNum d.moved.int := by
  change decimalNum (if d.int.length > 3 then _ else _) = decimalNum (d.int.take _)
  split_ifs with hlong
  · rfl
  · -- The zero stands for no digits.
    have hnone : d.int.length - 3 = 0 := by omega
    rw [hnone]
    rfl

theorem atNumber_unsigned : atNumber d.unsigned = true := by
  unfold unsigned
  cases hint : d.int with
  | cons c int => simp [atNumber, d.isdigit_int c (hint ▸ mem_cons_self)]
  | nil =>
    cases hfrac : d.frac with
    | none => exact absurd (by rw [hint, hfrac]; rfl) d.ne_nil
    | some frac => rfl

theorem span_unsigned : d.unsigned.takeWhile isdigit = d.int ∧
    d.unsigned.dropWhile isdigit = d.frac.elim [] (0x2e :: ·) := by
  refine takeWhile_append_stop d.isdigit_int fun c hc => ?_
  cases hfrac : d.frac with
  | none =>
    rw [hfrac] at hc
    cases hc
  | some frac =>
    rw [hfrac] at hc
    obtain rfl := some.inj hc
    rfl

theorem span_frac :
    (d.frac.getD []).takeWhile isdigit = d.frac.getD [] ∧
      (d.frac.getD []).dropWhile isdigit = [] := by
  have hspan := takeWhile_append_stop (k := []) d.isdigit_frac nofun
  rwa [append_nil] at hspan

/-- White space is skipped, and the number has no other sign. -/
theorem skip_text : d.text.dropWhile isspace = minus d.neg ++ d.unsigned ∧
    d.unsigned.head? ≠ some 0x2d ∧ d.unsigned.head? ≠ some 0x2b := by
  -- The first octet is a point or a digit.
  have hhead : ∀ c : BitVec 8, (c == 0x2e || isdigit c) = true →
      isspace c = false ∧ c ≠ 0x2d ∧ c ≠ 0x2b := by decide
  have hnum := d.atNumber_unsigned
  unfold text
  cases hcp : d.unsigned with
  | nil =>
    rw [hcp] at hnum
    cases hnum
  | cons c cp =>
    rw [hcp] at hnum
    obtain ⟨hspace, hminus, hplus⟩ := hhead c hnum
    refine ⟨(takeWhile_append_stop d.isspace_blanks fun c' hc' => ?_).2, by simpa using hminus,
      by simpa using hplus⟩
    cases hneg : d.neg <;> rw [hneg] at hc' <;> obtain rfl := some.inj hc'
    · exact hspace
    · rfl

theorem parts : msSign d.text = minus d.neg ∧ msBody d.text = d.unsigned ∧
    msInt d.text = d.int ∧ msFrac d.text = d.frac.getD [] ∧ msRest d.text = [] := by
  obtain ⟨hskip, hminus, -⟩ := d.skip_text
  have hsign : msSign d.text = minus d.neg := by
    unfold msSign
    rw [hskip]
    cases d.neg with
    | true => rfl
    | false => exact if_neg hminus
  have hbody : msBody d.text = d.unsigned := by
    unfold msBody
    rw [hsign, hskip]
    cases d.neg <;> rfl
  have hspan := d.span_frac
  unfold msInt msFrac msRest
  rw [hbody, d.span_unsigned.1, d.span_unsigned.2]
  refine ⟨hsign, rfl, rfl, ?_⟩
  cases hfrac : d.frac with
  | none => exact ⟨rfl, rfl⟩
  | some frac =>
    rw [hfrac] at hspan
    exact hspan

theorem atolfp_text {frac : CStr} (hfrac : d.frac = some frac) :
    atolfp d.text = some (makeLfp d.neg (decimalNum d.int) (fraction frac)) := by
  obtain ⟨hskip, hminus, hplus⟩ := d.skip_text
  have hsign : ((minus d.neg ++ d.unsigned).head? == some 0x2d) = d.neg := by
    cases d.neg with
    | true => rfl
    | false => exact beq_eq_false_iff_ne.mpr hminus
  have hbody : (if d.neg then (minus d.neg ++ d.unsigned).drop 1 else minus d.neg ++ d.unsigned) =
      d.unsigned := by
    cases d.neg <;> rfl
  have hspan := d.span_frac
  rw [hfrac, getD_some] at hspan
  unfold atolfp
  simp only [hskip, hsign, hbody, if_neg hplus, d.atNumber_unsigned, not_true_eq_false, if_false,
    d.span_unsigned, hfrac, elim_some]
  simp [hspan, atEnd, isspace]

end Numeral

/-- What `mstolfp` makes of a number is what `atolfp` makes of the number with the point
    moved, and the buffer has room for that. -/
theorem mstolfp_moved (d : Numeral) (buf : Buffer)
    (hlen : d.int.length ≤ 40 ∧ (d.frac.getD []).length ≤ 40) (hbuf : buf.Within DIGITS_SIZE) :
    (mstolfp d.text buf).2 = atolfp d.moved.text ∧
      (mstolfp d.text buf).1.Within DIGITS_SIZE := by
  obtain ⟨hsign, hbody, hint, hfrac, hrest⟩ := d.parts
  constructor
  · rw [mstolfp_eq, hbody, if_neg (not_not.mpr d.atNumber_unsigned), hrest,
      hsign, hint, hfrac, d.movePoint_eq]
    calc atolfp d.written.text
      _ = some (makeLfp d.neg (decimalNum d.written.int) (fraction d.behindPoint)) :=
        d.written.atolfp_text rfl
      _ = atolfp d.moved.text := by
        rw [d.decimalNum_written]
        exact (d.moved.atolfp_text rfl).symm
  · -- A sign, 40 digits, a point with 40 more, and the zero at the end.
    rw [mstolfp_within_iff]
    refine ⟨hbuf, fun _ => ?_⟩
    rw [hsign, hint, hfrac]
    have hsize : (minus d.neg).length ≤ 1 := by cases d.neg <;> decide
    unfold DIGITS_SIZE
    omega

/-- A number below zero. -/
def minusTwelve : Numeral :=
  ⟨[0x20], true, [0x31, 0x32], some [0x35], by decide, by decide, by decide, by decide⟩

theorem mstolfp_moved_minusTwelve : (mstolfp minusTwelve.text ⟨fun _ => 0, []⟩).2 =
    atolfp [0x20, 0x2d, 0x2e, 0x30, 0x31, 0x32, 0x35] :=
  (mstolfp_moved _ ⟨fun _ => 0, []⟩ (by decide) nofun).1

end NtpSuite.Ntpq
