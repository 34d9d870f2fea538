import NtpSuite.Core.NtpqVars

/-!
# The Buffers of the Decoders

When the functions that read a response stay inside their buffers.

A value is compared with the size of its buffer, but a name is not, nor is a word of
an array or the text of a number. So a name must be short wherever the loop over the
variables comes to, and so must be what is decoded there. A word that fits into the
buffer of words always fits into that of the digits; a value that is decoded directly
may not.

What `nextvar` finds does not depend on the buffers, so the condition is about the
data alone.

## Main definitions

* `Bufs.Inside`: Everything was written inside the buffers.
* `found`: What `nextvar` finds.
* `TimeFits`, `WordsFit`, `PlaceFits`: The conditions.
* `Comes`: Where the loop comes to.

## Theorems

* `mstolfp_within_iff`, `decodeWords_inside_iff`, `nextvar_inside_iff`: The functions.
* `found_shorter`: Every variable is found further on.
* `decoders_inside_iff`: The loop.
-/

namespace NtpSuite.Ntpq

open List Option

/-- Everything was written inside the buffers. -/
structure Bufs.Inside (b : Bufs) : Prop where
  name : b.name.Within MAXVARLEN
  value : b.value.Within MAXVALLEN
  word : b.word.Within WORD_SIZE
  digits : b.digits.Within DIGITS_SIZE

theorem Bufs.inside_iff {b : Bufs} :
    b.Inside ↔ b.name.Within MAXVARLEN ∧ b.value.Within MAXVALLEN ∧ b.word.Within WORD_SIZE ∧
      b.digits.Within DIGITS_SIZE :=
  ⟨fun h => ⟨h.name, h.value, h.word, h.digits⟩, fun h => ⟨h.1, h.2.1, h.2.2.1, h.2.2.2⟩⟩

instance (b : Bufs) : Decidable b.Inside := decidable_of_iff _ Bufs.inside_iff.symm

/-- Buffers to which nothing was written. -/
def Bufs.fresh (name value word digits : Memory) : Bufs :=
  ⟨⟨name, []⟩, ⟨value, []⟩, ⟨word, []⟩, ⟨digits, []⟩⟩

theorem Bufs.fresh_inside (name value word digits : Memory) :
    (Bufs.fresh name value word digits).Inside :=
  ⟨Buffer.within_nil _, Buffer.within_nil _, Buffer.within_nil _, Buffer.within_nil _⟩

/-! ### Numbers -/

/-- The sign of a number. -/
def msSign (str : CStr) : CStr := if (str.dropWhile isspace).head? = some 0x2d then [0x2d] else []

/-- What follows the sign. -/
def msBody (str : CStr) : CStr := (str.dropWhile isspace).drop (msSign str).length

/-- The digits before the point. -/
def msInt (str : CStr) : CStr := (msBody str).takeWhile isdigit

/-- The digits behind the point. -/
def msFrac (str : CStr) : CStr :=
  let cp := (msBody str).dropWhile isdigit
  if cp.head? = some 0x2e then (cp.drop 1).takeWhile isdigit else []

/-- What follows the number. -/
def msRest (str : CStr) : CStr :=
  let cp := (msBody str).dropWhile isdigit
  if cp.head? = some 0x2e then (cp.drop 1).dropWhile isdigit else cp

variable (str : CStr) (b : Bufs) {beyond : BitVec 8}

theorem mstolfp_eq (buf : Buffer) :
    mstolfp str buf =
      if ¬ atNumber (msBody str) then (buf.put 0 (msSign str), none)
      else if atEnd (msRest str) then
        (buf.put 0 (movePoint (msSign str) (msInt str) (msFrac str) ++ [0]),
          atolfp (movePoint (msSign str) (msInt str) (msFrac str)))
      else (buf.put 0 (movePoint (msSign str) (msInt str) (msFrac str) ++ [0]), none) := rfl

/-- The text with the point moved fits: a zero and three digits at least, the point, and
    the zero at the end. -/
def TimeFits (str : CStr) : Prop :=
  atNumber (msBody str) = true →
    (msSign str).length + max ((msInt str).length + 2) 6 + (msFrac str).length ≤ DIGITS_SIZE

instance (str : CStr) : Decidable (TimeFits str) := inferInstanceAs (Decidable (_ → _))

theorem length_movePoint (sign int frac : CStr) :
    (movePoint sign int frac).length + 1 = sign.length + max (int.length + 2) 6 + frac.length := by
  unfold movePoint
  by_cases hlong : int.length > 3
  · simp only [if_pos hlong, length_append, length_take, length_cons,
      length_nil, length_replicate, length_drop]
    omega
  · simp only [if_neg hlong, length_append, length_cons, length_nil, length_replicate, length_drop]
    omega

theorem mstolfp_within_iff (buf : Buffer) :
    (mstolfp str buf).1.Within DIGITS_SIZE ↔ buf.Within DIGITS_SIZE ∧ TimeFits str := by
  rw [mstolfp_eq]
  unfold TimeFits
  by_cases hnum : atNumber (msBody str) = true
  · have hlen := length_movePoint (msSign str) (msInt str) (msFrac str)
    have hput : (buf.put 0 (movePoint (msSign str) (msInt str) (msFrac str) ++ [0])).Within
        DIGITS_SIZE ↔ buf.Within DIGITS_SIZE ∧
        (msSign str).length + max ((msInt str).length + 2) 6 + (msFrac str).length ≤
          DIGITS_SIZE := by
      rw [Buffer.within_put, length_append, length_singleton, and_comm]
      apply and_congr_right
      omega
    simp only [hnum, not_true_eq_false, if_false, forall_const]
    split_ifs
    · exact hput
    · exact hput
  · have hsign : (msSign str).length ≤ 1 := by
      unfold msSign
      split_ifs <;> simp
    have hsize : 0 + (msSign str).length ≤ DIGITS_SIZE := by
      unfold DIGITS_SIZE
      omega
    simp only [hnum, not_false_eq_true, if_true, Buffer.within_put, hsize, or_true, true_and,
      false_implies, and_true, Bool.false_eq_true]

theorem mstolfp_snd (buf buf' : Buffer) : (mstolfp str buf).2 = (mstolfp str buf').2 := by
  rw [mstolfp_eq, mstolfp_eq]
  split_ifs <;> rfl

theorem length_takeWhile_add_dropWhile {α : Type} (p : α → Bool) (l : List α) :
    (l.takeWhile p).length + (l.dropWhile p).length = l.length := by
  rw [← length_append, takeWhile_append_dropWhile]

/-- A word that fits into the buffer of words fits into that of digits. -/
theorem timeFits_of_length {str : CStr} (h : str.length < WORD_SIZE) : TimeFits str := by
  intro _
  have hspace := length_takeWhile_add_dropWhile isspace str
  have hint := length_takeWhile_add_dropWhile isdigit (msBody str)
  have hbody : (msSign str).length + (msBody str).length ≤ str.length := by
    unfold msBody
    rw [length_drop]
    have hsign : (msSign str).length ≤ (str.dropWhile isspace).length := by
      unfold msSign
      split_ifs with hminus
      · cases hcp : str.dropWhile isspace with
        | nil => simp [hcp] at hminus
        | cons c cp => simp
      · simp
    omega
  have hfrac : (msFrac str).length ≤ ((msBody str).dropWhile isdigit).length := by
    unfold msFrac
    simp only
    split_ifs
    · have hrest := length_takeWhile_add_dropWhile isdigit (((msBody str).dropWhile isdigit).drop 1)
      rw [length_drop] at hrest
      omega
    · simp
  unfold WORD_SIZE at h
  unfold DIGITS_SIZE msInt
  omega

theorem decodetime_inside_iff : (decodetime str b).1.Inside ↔ b.Inside ∧ TimeFits str := by
  unfold decodetime
  rw [Bufs.inside_iff, Bufs.inside_iff]
  simp only [mstolfp_within_iff]
  tauto

/-! ### Arrays -/

/-- The word is a number. -/
def isTime (word : CStr) : Prop := (mstolfp word ⟨fun _ => 0, []⟩).2.isSome = true

instance (word : CStr) : Decidable (isTime word) := inferInstanceAs (Decidable (_ = true))

/-- The words that are looked at are short: those up to the first one that is not a
    number, and no more than so many. -/
def WordsFit : Nat → CStr → Prop
  | 0, _ => True
  | n + 1, str =>
    let cp := str.dropWhile isspace
    let word := cp.takeWhile fun c => ¬ isspace c
    cp ≠ [] → word.length < WORD_SIZE ∧
      (isTime word → WordsFit n (cp.dropWhile fun c => ¬ isspace c))

theorem putWord_inside_iff (word : CStr) (b : Bufs) :
    { b with word := b.word.put 0 (word ++ [0]) }.Inside ↔ b.Inside ∧ word.length < WORD_SIZE := by
  rw [Bufs.inside_iff, Bufs.inside_iff]
  have hput : (b.word.put 0 (word ++ [0])).Within WORD_SIZE ↔
      b.word.Within WORD_SIZE ∧ word.length < WORD_SIZE := by
    rw [Buffer.within_put, length_append, length_singleton, and_comm]
    apply and_congr_right
    omega
  tauto

theorem decodeWords_inside_iff (n : Nat) (str : CStr) (b : Bufs) :
    (decodeWords n str b).1.Inside ↔ b.Inside ∧ WordsFit n str := by
  induction n generalizing str b with
  | zero => simp [decodeWords, WordsFit]
  | succ n ih =>
    unfold decodeWords WordsFit
    by_cases hcp : str.dropWhile isspace = []
    · simp [hcp]
    · obtain ⟨word, hword⟩ :
          ∃ word, word = (str.dropWhile isspace).takeWhile fun c => ¬ isspace c := ⟨_, rfl⟩
      simp only [← hword, ne_eq, hcp, if_false, not_false_eq_true, forall_const]
      -- The word is copied and decoded before the loop goes on.
      have hfirst : (decodetime word { b with word := b.word.put 0 (word ++ [0]) }).1.Inside ↔
          b.Inside ∧ word.length < WORD_SIZE := by
        rw [decodetime_inside_iff, putWord_inside_iff, and_assoc]
        apply and_congr_right
        intro _
        exact ⟨And.left, fun h => ⟨h, timeFits_of_length h⟩⟩
      have htime : isTime word ↔
          (decodetime word { b with word := b.word.put 0 (word ++ [0]) }).2.isSome = true := by
        unfold isTime decodetime
        rw [mstolfp_snd]
      cases hlfp : (decodetime word { b with word := b.word.put 0 (word ++ [0]) }).2 with
      | none =>
        simp only [hlfp, isSome_none, Bool.false_eq_true] at htime ⊢
        simp only [htime, false_implies, and_true, hfirst]
      | some lfp =>
        simp only [hlfp, isSome_some, iff_true] at htime ⊢
        simp only [htime, forall_const, ih, hfirst, and_assoc]

/-! ### Variables -/

/-- What `nextvar` finds, with whatever is in the buffers. -/
def found (beyond : BitVec 8) (data : CStr) : Option (Var × CStr) :=
  (nextvar beyond data (Bufs.fresh (fun _ => 0) (fun _ => 0) (fun _ => 0) (fun _ => 0))).2

/-- The name that is copied. -/
def nameAt (data : CStr) : CStr :=
  trimEnd ((data.dropWhile fun c => c = COMMA ∨ isspace c).takeWhile fun c => ¬ endsName c)

theorem putName_inside_iff (name : CStr) (b : Bufs) :
    (b.putName name).Inside ↔ b.Inside ∧ name.length < MAXVARLEN := by
  rw [Bufs.inside_iff, Bufs.inside_iff]
  have hput : ((b.name.put 0 name).put name.length [0]).Within MAXVARLEN ↔
      b.name.Within MAXVARLEN ∧ name.length < MAXVARLEN := by
    rw [Buffer.within_put, Buffer.within_put, ← and_assoc, and_comm]
    apply and_congr_right
    simp only [length_singleton, one_ne_zero, false_or]
    omega
  tauto

theorem length_trimEnd_le (s : CStr) : (trimEnd s).length ≤ s.length :=
  ( rdropWhile_prefix isspace s).length_le

theorem putValue_inside_iff {value : CStr} (h : value.length < MAXVALLEN) :
    (b.putValue value).Inside ↔ b.Inside := by
  have htrim := length_trimEnd_le value
  rw [Bufs.inside_iff, Bufs.inside_iff]
  have hput : ((b.value.put 0 value).put (trimEnd value).length [0]).Within MAXVALLEN ↔
      b.value.Within MAXVALLEN := by
    rw [Buffer.within_put, Buffer.within_put]
    simp only [length_singleton, one_ne_zero, false_or]
    constructor
    · rintro ⟨-, -, hold⟩
      exact hold
    · intro hold
      exact ⟨by omega, by omega, hold⟩
  simp only [Bufs.putValue, hput]

/-- What is found is the same, and the writes are a name and perhaps a value that fits. -/
theorem nextvar_inside_iff (beyond : BitVec 8) (data : CStr) (b : Bufs) :
    (nextvar beyond data b).2 = found beyond data ∧
      ((nextvar beyond data b).1.Inside ↔ b.Inside ∧ (nameAt data).length < MAXVARLEN) := by
  unfold found nextvar nameAt
  by_cases hcp : (data.dropWhile fun c => c = COMMA ∨ isspace c) = []
  · simp only [hcp, if_true]
    exact ⟨trivial, (and_iff_left (show 0 < MAXVARLEN by decide)).symm⟩
  · simp only [hcp, if_false]
    cases (data.dropWhile fun c => c = COMMA ∨ isspace c).dropWhile fun c => ¬ endsName c with
    | nil => exact ⟨rfl, putName_inside_iff _ b⟩
    | cons c cp =>
      simp only
      split_ifs with hend
      · exact ⟨rfl, putName_inside_iff _ b⟩
      · unfold nextvalue
        simp only
        cases spanValue beyond (cp.dropWhile fun c => isspace c ∧ c ≠ CR ∧ c ≠ LF) with
        | none => exact ⟨rfl, putName_inside_iff _ b⟩
        | some r =>
          simp only
          by_cases hbad : r.1.length ≥ MAXVALLEN ∨
              r.2 ≠ [] ∧ r.2.head? ≠ some COMMA ∧ r.2.head? ≠ some CR
          · simp only [if_pos hbad]
            exact ⟨trivial, putName_inside_iff _ b⟩
          · have hlen : r.1.length < MAXVALLEN := by
              by_contra hge
              exact hbad (Or.inl (not_lt.mp hge))
            simp only [if_neg hbad]
            exact ⟨trivial, (putValue_inside_iff _ hlen).trans (putName_inside_iff _ b)⟩

theorem length_dropWhile_le {α : Type} (p : α → Bool) (l : List α) :
    (l.dropWhile p).length ≤ l.length :=
  (dropWhile_suffix p).length_le

theorem length_spanValue {cp : CStr} {r : CStr × CStr} (h : spanValue beyond cp = some r) :
    r.2.length ≤ cp.length := by
  unfold spanValue at h
  split_ifs at h
  · cases cp with
    | nil => cases h
    | cons q tl =>
      cases h
      have hdrop := length_dropWhile_le (fun c => decide (c ≠ QUOTE)) tl
      rw [length_drop, length_cons]
      omega
  · rw [span_eq_takeWhile_dropWhile] at h
    cases h
    exact length_dropWhile_le _ cp

theorem found_shorter {data rest : CStr} {v : Var} (h : found beyond data = some (v, rest)) :
    rest.length < data.length := by
  have hstart := length_dropWhile_le (fun c => decide (c = COMMA ∨ isspace c)) data
  unfold found nextvar at h
  by_cases hcp : (data.dropWhile fun c => c = COMMA ∨ isspace c) = []
  · simp only [hcp, if_true] at h
    cases h
  · have hpos := length_pos_of_ne_nil hcp
    have hname := length_dropWhile_le (fun c => decide ¬ endsName c)
      (data.dropWhile fun c => c = COMMA ∨ isspace c)
    simp only [hcp, if_false] at h
    cases hrest : (data.dropWhile fun c => c = COMMA ∨ isspace c).dropWhile
        fun c => ¬ endsName c with
    | nil =>
      simp only [hrest, some.injEq, Prod.mk.injEq] at h
      rw [← h.2]
      exact hpos.trans_le hstart
    | cons c cp =>
      rw [hrest, length_cons] at hname
      simp only [hrest] at h
      split_ifs at h
      · simp only [some.injEq, Prod.mk.injEq] at h
        rw [← h.2]
        omega
      · unfold nextvalue at h
        have hblank := length_dropWhile_le
          (fun c => decide (isspace c ∧ c ≠ CR ∧ c ≠ LF)) cp
        cases hspan : spanValue beyond (cp.dropWhile fun c => isspace c ∧ c ≠ CR ∧ c ≠ LF) with
        | none =>
          simp only [hspan] at h
          cases h
        | some r =>
          have hvalue := length_spanValue hspan
          simp only [hspan] at h
          split_ifs at h
          · simp only [some.injEq, Prod.mk.injEq] at h
            rw [← h.2, length_drop]
            omega
          · simp only [some.injEq, Prod.mk.injEq] at h
            rw [← h.2]
            omega

/-! ### The loop -/

/-- What is decoded fits. -/
def Use.Fits : Use → Prop
  | .arr str => WordsFit 8 str
  | .time str => TimeFits str
  | .stop => True
  | .other => True

theorem Use.apply_inside_iff {u : Use} {b b' : Bufs} (h : u.apply b = some b') :
    b'.Inside ↔ b.Inside ∧ u.Fits := by
  cases u with
  | arr str =>
    cases h
    exact decodeWords_inside_iff 8 str b
  | time str =>
    cases h
    exact decodetime_inside_iff str b
  | stop => cases h
  | other =>
    cases h
    exact (and_iff_left trivial).symm

theorem Use.apply_eq_none {u : Use} {b : Bufs} : u.apply b = none ↔ u = .stop := by
  cases u <;> simp [Use.apply]

/-- The loop comes from some data to a rest of it. -/
inductive Comes (use : Var → Use) (beyond : BitVec 8) : CStr → CStr → Prop
  | here (data : CStr) : Comes use beyond data data
  | next {data rest data' : CStr} {v : Var} (hfound : found beyond data = some (v, rest))
      (hgo : use v ≠ .stop) (h : Comes use beyond rest data') : Comes use beyond data data'

/-- The name and the value that are found at some data fit. -/
def PlaceFits (use : Var → Use) (beyond : BitVec 8) (data : CStr) : Prop :=
  (nameAt data).length < MAXVARLEN ∧ ∀ v rest, found beyond data = some (v, rest) → (use v).Fits

theorem forall_comes_iff {use : Var → Use} {data : CStr} {P : CStr → Prop} :
    (∀ data', Comes use beyond data data' → P data') ↔
      P data ∧ ∀ v rest, found beyond data = some (v, rest) → use v ≠ .stop →
        ∀ data', Comes use beyond rest data' → P data' := by
  constructor
  · intro h
    exact ⟨h data (.here data), fun v rest hfound hgo data' hcomes =>
      h data' (.next hfound hgo hcomes)⟩
  · rintro ⟨hhere, hnext⟩ data' hcomes
    cases hcomes with
    | here => exact hhere
    | next hfound hgo hrest => exact hnext _ _ hfound hgo data' hrest

/-- What holds of everything that is found holds of the one variable there is. -/
theorem forall_found_iff {data rest : CStr} {v : Var} {P : Var → CStr → Prop}
    (h : found beyond data = some (v, rest)) :
    (∀ v rest, found beyond data = some (v, rest) → P v rest) ↔ P v rest := by
  constructor
  · intro hall
    exact hall v rest h
  · intro hP v' rest' h'
    rw [h] at h'
    cases h'
    exact hP

theorem printLoop_inside_iff (use : Var → Use) (beyond : BitVec 8) (fuel : Nat) (data : CStr)
    (b : Bufs) (hfuel : data.length < fuel) :
    (printLoop use beyond fuel data b).Inside ↔
      b.Inside ∧ ∀ data', Comes use beyond data data' → PlaceFits use beyond data' := by
  induction fuel generalizing data b with
  | zero => exact absurd hfuel (Nat.not_lt_zero _)
  | succ fuel ih =>
    obtain ⟨hsame, hinside⟩ := nextvar_inside_iff beyond data b
    rw [forall_comes_iff]
    unfold printLoop
    generalize nextvar beyond data b = r at hsame hinside
    obtain ⟨b1, out⟩ := r
    cases out with
    | none =>
      have hplace : PlaceFits use beyond data ↔ (nameAt data).length < MAXVARLEN := by
        unfold PlaceFits
        simp [← hsame]
      simp [hinside, hplace, ← hsame]
    | some r =>
      obtain ⟨v, rest⟩ := r
      have hshort := found_shorter hsame.symm
      have hplace : PlaceFits use beyond data ↔
          (nameAt data).length < MAXVARLEN ∧ (use v).Fits := by
        unfold PlaceFits
        rw [forall_found_iff hsame.symm]
      rw [forall_found_iff hsame.symm, hplace]
      simp only
      cases happly : (use v).apply b1 with
      | none =>
        have hstop := Use.apply_eq_none.mp happly
        simp only [hinside, hstop, ne_eq, not_true_eq_false, false_implies, and_true]
        exact and_congr_right fun _ => (and_iff_left trivial).symm
      | some b2 =>
        have hgo : use v ≠ .stop := by
          intro hstop
          rw [Use.apply_eq_none.mpr hstop] at happly
          cases happly
        simp [ih rest b2 (by omega), Use.apply_inside_iff happly, hinside, hgo, and_assoc]

/-- For every response and everything that may be done with its variables: the decoders stay inside
    their buffers if and only if what they copy is short wherever the loop comes to. -/
theorem decoders_inside_iff (use : Var → Use) (beyond : BitVec 8) (data : CStr)
    (name value word digits : Memory) :
    (printLoop use beyond (data.length + 1) data (.fresh name value word digits)).Inside ↔
      ∀ data', Comes use beyond data data' → PlaceFits use beyond data' := by
  rw [printLoop_inside_iff use beyond _ data _ (Nat.lt_succ_self _)]
  exact and_iff_right (Bufs.fresh_inside name value word digits)

/-- Three responses to `cookedprint` and `doprintpeers`: a name of 256 characters, an
    array with a word of 60 characters, and an offset of 99 digits. -/
theorem decoders_overrun :
    ¬ (printLoop cookedUse 0 300 (List.replicate 256 0x61)
        (.fresh (fun _ => 0) (fun _ => 0) (fun _ => 0) (fun _ => 0))).Inside ∧
    ¬ (printLoop cookedUse 0 300 (Control.octets "filtdelay=" ++ List.replicate 60 0x31)
        (.fresh (fun _ => 0) (fun _ => 0) (fun _ => 0) (fun _ => 0))).Inside ∧
    ¬ (printLoop (peersUse true) 0 300 (Control.octets "offset=" ++ List.replicate 99 0x31)
        (.fresh (fun _ => 0) (fun _ => 0) (fun _ => 0) (fun _ => 0))).Inside := by
  decide +kernel

end NtpSuite.Ntpq
