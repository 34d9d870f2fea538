import NtpSuite.Theory.RestrictList

/-!
# The Count of Limited Entries

`res_limited_refcnt` should be the number of entries with `RES_LIMITED`, and
monitoring should be on as long as there are any.

The count is kept up to date in five places. `Tallied n v` says that it is
`n`, and that monitoring is on if `n` is not zero. For each operation on the
list of a family the number of limited entries on it changes by as much as
the count, whatever the number on the other list is.

One place is wrong. `free_res` tests `RES_LIMITED && res->flags`, which is true
for all flags but zero, where `RES_LIMITED & res->flags` is meant. `Tidy` is
what an entry has to be for the two to agree.

## Main definitions

* `limited`: The number of limited entries on the list of a family.
* `Tallied`: The count is right, and so is monitoring.
* `Tidy`: The entry is limited or has no flags.
* `FreesTidy`: Every entry that a step frees is tidy.

## Theorems

* `freeRes_tallied`: An entry is freed.
* `hackList_tallied`, `sourceList_tallied`: The operations keep the count right.
* `restrictStep_tallied`: So does every step.
* `limited_refcount`: The count is right after every run.
-/

namespace NtpSuite

open Function (update update_self update_of_ne)
open List

/-- The flags contain `RES_LIMITED`. -/
def isLimited (flags : BitVec 16) : Bool := RES_LIMITED &&& flags ≠ 0

variable {m n p : Nat}

theorem isLimited_eq (flags : BitVec 16) : isLimited flags = flags.getLsbD 5 := by
  have hbit : RES_LIMITED = BitVec.twoPow 16 5 := by decide
  unfold isLimited
  rw [hbit, BitVec.and_comm, BitVec.and_twoPow]
  cases flags.getLsbD 5 with
  | false => simp
  | true => decide

@[simp] theorem isLimited_or (f g : BitVec 16) :
    isLimited (f ||| g) = (isLimited f || isLimited g) := by
  simp [isLimited_eq]

@[simp] theorem isLimited_and_not (f g : BitVec 16) :
    isLimited (f &&& ~~~g) = (isLimited f && !isLimited g) := by
  simp [isLimited_eq]

@[simp] theorem isLimited_zero : isLimited 0 = false := by decide

/-- The count is right, and monitoring is on if it is not zero. -/
structure Tallied (n : Nat) (v : ResVars) : Prop where
  refcnt : v.res_limited_refcnt = n
  monitored : v.mon_enabled.getLsbD 1 = decide (0 < n)

theorem monitored_iff (v : ResVars) :
    v.mon_enabled &&& MON_RES ≠ 0 ↔ v.mon_enabled.getLsbD 1 = true := by
  have hbit : MON_RES = BitVec.twoPow 32 1 := by decide
  rw [hbit, BitVec.and_twoPow]
  cases v.mon_enabled.getLsbD 1 with
  | false => simp
  | true => decide

theorem monStart_bit (v : ResVars) (mode : BitVec 32) :
    (monStart v mode).mon_enabled = v.mon_enabled ||| mode := by
  unfold monStart
  split_ifs with hoff hon
  · rw [hoff]
    simp [MON_OFF]
  · rfl
  · rw [not_not] at hon
    rw [hon]
    simp [MON_OFF]

theorem monStop_bit (v : ResVars) (mode : BitVec 32) (i : Nat) (hi : i < 32) :
    (monStop v mode).mon_enabled.getLsbD i = (v.mon_enabled.getLsbD i && !mode.getLsbD i) := by
  unfold monStop
  split_ifs with hoff hnone
  · simp [hoff, MON_OFF]
  · rcases hnone with hand | hmode
    · have hbit := congrArg (BitVec.getLsbD · i) hand
      simp only [BitVec.getLsbD_and, BitVec.ofNat_eq_ofNat, BitVec.getLsbD_zero] at hbit
      cases hv : v.mon_enabled.getLsbD i <;> simp_all
    · simp [hmode, MON_OFF]
  · simp [hi]

theorem incResLimited_tallied {v : ResVars} (h : Tallied n v) :
    Tallied (n + 1) (incResLimited v) := by
  unfold incResLimited
  refine ⟨?_, ?_⟩
  · simp only
    split_ifs with hzero
    · unfold monStart
      split_ifs <;> simp [h.refcnt]
    · rw [h.refcnt]
  · split_ifs with hzero
    · rw [monStart_bit]
      simp [MON_RES]
    · rw [h.refcnt] at hzero
      simp [h.monitored, pos_of_ne_zero hzero]

theorem decResLimited_tallied {v : ResVars} (h : Tallied (n + 1) v) :
    Tallied n (decResLimited v) := by
  have hdec : (if v.res_limited_refcnt = 0 then ULONG_MAX else v.res_limited_refcnt - 1) = n := by
    simp [h.refcnt]
  unfold decResLimited
  simp only [hdec]
  split_ifs with hzero
  · refine ⟨?_, ?_⟩
    · unfold monStop
      split_ifs <;> rfl
    · rw [monStop_bit _ _ 1 (by decide)]
      simp [hzero, MON_RES]
  · refine ⟨rfl, ?_⟩
    simp [h.monitored, pos_of_ne_zero hzero]

theorem Tallied.congr {v v' : ResVars} (h : Tallied n v)
    (hcount : v'.res_limited_refcnt = v.res_limited_refcnt)
    (hmon : v'.mon_enabled = v.mon_enabled) : Tallied n v' :=
  ⟨hcount.trans h.refcnt, by rw [hmon, h.monitored]⟩

/-! ### The list of a family -/

section

variable {w : Nat}

/-- The number of limited entries on the list. -/
def limited (h : ResHeap w) : Nat := h.list.countP fun p => isLimited (h.mem p).flags

theorem countP_update {β : Type} (test : β → Bool) (mem : Nat → β) (p : Nat) (e : β)
    (xs : List Nat) (hxs : xs.Nodup) (hp : p ∈ xs) :
    xs.countP (fun q => test (update mem p e q)) + (test (mem p)).toNat =
      xs.countP (fun q => test (mem q)) + (test e).toNat := by
  induction xs with
  | nil => cases hp
  | cons x xs ih =>
    rw [nodup_cons] at hxs
    simp only [countP_cons]
    by_cases hx : x = p
    · subst hx
      rw [Chained.countP_off hxs.1, update_self]
      cases test (mem x) <;> cases test e <;> simp
    · have hmem : p ∈ xs := by
        rcases mem_cons.mp hp with rfl | hmem
        · exact absurd rfl hx
        · exact hmem
      have hrec := ih hxs.2 hmem
      rw [update_of_ne hx]
      omega

variable {h : ResHeap w}

theorem limited_modify (hw : ResWf h) (hp : p ∈ h.list) (f : RestrictU w → RestrictU w) :
    limited (h.modify p f) + (isLimited (h.mem p).flags).toNat =
      limited h + (isLimited (f (h.mem p)).flags).toNat :=
  countP_update (fun e : RestrictU w => isLimited e.flags) h.mem p _ h.list hw.list_nodup hp

theorem limited_freeRes (hw : ResWf h) (v : ResVars) (hp : p ∈ h.list) :
    limited (freeRes h v p).1 + (isLimited (h.mem p).flags).toNat = limited h := by
  have hrest : limited (freeRes h v p).1 =
      (h.list.erase p).countP fun q => isLimited (h.mem q).flags := by
    exact Chained.countP_off hw.list_nodup.not_mem_erase fun r : RestrictU w => isLimited r.flags
  have hall := (perm_cons_erase hp).countP_eq fun q => isLimited (h.mem q).flags
  rw [hrest]
  unfold limited
  rw [hall, countP_cons]
  cases isLimited (h.mem p).flags <;> simp

variable {inc : Nat} {v : ResVars}

theorem limited_addRes (hw : ResWf h) (hinc : 0 < inc) (v : ResVars) (pmatch : RestrictU w) :
    limited (addRes inc h v pmatch).1 = limited h + (isLimited pmatch.flags).toNat := by
  obtain ⟨p, hnew, hmem, hlist⟩ := addRes_list hw hinc v pmatch
  unfold limited
  rw [hlist, (linkSortSlist_perm _ _ _).countP_eq, countP_cons, hmem,
    Chained.countP_off hnew fun r : RestrictU w => isLimited r.flags, update_self]
  cases isLimited pmatch.flags <;> simp

/-- The entry is limited or has no flags. -/
def Tidy (e : RestrictU w) : Prop := e.flags = 0 ∨ isLimited e.flags = true

instance (e : RestrictU w) : Decidable (Tidy e) := inferInstanceAs (Decidable (_ ∨ _))

theorem freeRes_vars (h : ResHeap w) (v : ResVars) (hp : p ∈ h.list) :
    (freeRes h v p).2 =
      if (h.mem p).flags ≠ 0 then decResLimited { v with restrictcount := v.restrictcount - 1 }
      else { v with restrictcount := v.restrictcount - 1 } := by
  have hconst : RES_LIMITED ≠ 0 := by decide
  unfold freeRes
  simp only [hconst, ne_eq, not_false_eq_true, true_and, if_pos hp]

theorem freeRes_tallied (hw : ResWf h) (ht : Tallied (limited h + m) v) (hp : p ∈ h.list)
    (htidy : Tidy (h.mem p)) : Tallied (limited (freeRes h v p).1 + m) (freeRes h v p).2 := by
  have hnum := limited_freeRes hw v hp
  have hcount : Tallied (limited h + m) { v with restrictcount := v.restrictcount - 1 } :=
    ht.congr rfl rfl
  rw [freeRes_vars h v hp]
  rcases htidy with hzero | hlim
  · rw [hzero, isLimited_zero, Bool.toNat_false, add_zero] at hnum
    rw [if_neg (not_not.mpr hzero), hnum]
    exact hcount
  · have hne : (h.mem p).flags ≠ 0 := by
      intro hzero
      rw [hzero] at hlim
      cases hlim
    rw [hlim] at hnum
    rw [if_pos hne]
    apply decResLimited_tallied
    rw [← hnum, add_right_comm] at hcount
    exact hcount

theorem addRes_tallied (hw : ResWf h) (hinc : 0 < inc) (ht : Tallied (limited h + m) v)
    (pmatch : RestrictU w) :
    Tallied (limited (addRes inc h v pmatch).1 + m) (addRes inc h v pmatch).2 := by
  have hcount : Tallied (limited h + m) { v with restrictcount := v.restrictcount + 1 } :=
    ht.congr rfl rfl
  rw [limited_addRes hw hinc]
  have hvars : (addRes inc h v pmatch).2 =
      if isLimited pmatch.flags then incResLimited { v with restrictcount := v.restrictcount + 1 }
      else { v with restrictcount := v.restrictcount + 1 } := by
    simp [addRes, isLimited]
  rw [hvars]
  cases isLimited pmatch.flags with
  | false => simpa using hcount
  | true =>
    rw [add_right_comm]
    exact incResLimited_tallied hcount

theorem addFlags_tallied (hw : ResWf h) (ht : Tallied (limited h + m) v) (hp : p ∈ h.list)
    (flags : BitVec 16) :
    Tallied (limited (addFlags h v p flags).1 + m) (addFlags h v p flags).2 := by
  have hnum := limited_modify hw hp fun r => { r with flags := r.flags ||| flags }
  have hvars : (addFlags h v p flags).2 =
      if isLimited flags && !isLimited (h.mem p).flags then incResLimited v else v := by
    simp [addFlags, isLimited]
  have hheap : (addFlags h v p flags).1 =
      h.modify p fun r => { r with flags := r.flags ||| flags } := rfl
  rw [hvars, hheap]
  simp only [isLimited_or] at hnum
  cases hold : isLimited (h.mem p).flags <;> cases hnew : isLimited flags <;>
    simp only [hold, hnew, Bool.or_false, Bool.or_true, Bool.toNat_false, Bool.toNat_true,
      add_zero, Nat.add_right_cancel_iff] at hnum <;>
    simp [hnum]
  · exact ht
  · rw [add_right_comm]
    exact incResLimited_tallied ht
  · exact ht
  · exact ht

theorem removeFlags_tallied (hw : ResWf h) (ht : Tallied (limited h + m) v) (hp : p ∈ h.list)
    (flags : BitVec 16) :
    Tallied (limited (removeFlags h v p flags).1 + m) (removeFlags h v p flags).2 := by
  have hnum := limited_modify hw hp fun r => { r with flags := r.flags &&& ~~~flags }
  have hvars : (removeFlags h v p flags).2 =
      if isLimited (h.mem p).flags && isLimited flags then decResLimited v else v := by
    simp [removeFlags, isLimited]
  have hheap : (removeFlags h v p flags).1 =
      h.modify p fun r => { r with flags := r.flags &&& ~~~flags } := rfl
  rw [hvars, hheap]
  simp only [isLimited_and_not] at hnum
  cases hold : isLimited (h.mem p).flags <;> cases hnew : isLimited flags <;>
    simp only [hold, hnew, Bool.not_false, Bool.not_true, Bool.and_true, Bool.and_false,
      Bool.toNat_false, Bool.toNat_true, add_zero, Nat.add_right_cancel_iff] at hnum <;>
    simp
  · rw [hnum]
    exact ht
  · rw [hnum]
    exact ht
  · rw [hnum]
    exact ht
  · apply decResLimited_tallied
    rw [← hnum, add_right_comm] at ht
    exact ht

/-- An entry that is to be removed is tidy. -/
def RemovesTidy (h : ResHeap w) (op : RestrictOp) (addr mask : BitVec w) (mflags : BitVec 16) :
    Prop :=
  ∀ p ∈ h.list, p ≠ 0 → (h.mem p).mflags = mflags → (h.mem p).addr = addr →
    (h.mem p).mask = mask →
    (op = .removeif ∨ op = .remove ∧ RESM_INTERFACE &&& mflags = 0) → Tidy (h.mem p)

theorem hackList_tallied (hw : ResWf h) (hinc : 0 < inc) (ht : Tallied (limited h + m) v)
    (op : RestrictOp) (pmatch : RestrictU w)
    (htidy : RemovesTidy h op pmatch.addr pmatch.mask pmatch.mflags) :
    Tallied (limited (hackList inc h v op pmatch).1 + m) (hackList inc h v op pmatch).2 := by
  unfold hackList
  cases hm : matchRestrictEntry h pmatch with
  | none =>
    cases op with
    | flags => exact addRes_tallied hw hinc ht pmatch
    | unflag | remove | removeif => exact ht
  | some res =>
    obtain ⟨hres, hmflags, haddr, hmask⟩ := matchRestrictEntry_spec hm
    have hfree := htidy res hres
    cases op with
    | flags => exact addFlags_tallied hw ht hres pmatch.flags
    | unflag => exact removeFlags_tallied hw ht hres pmatch.flags
    | remove =>
      simp only
      split_ifs with hok
      · rw [hmflags] at hok
        exact freeRes_tallied hw ht hres
          (hfree hok.2 hmflags haddr hmask (.inr ⟨rfl, hok.1⟩))
      · exact ht
    | removeif =>
      simp only
      split_ifs with hok
      · exact freeRes_tallied hw ht hres (hfree hok hmflags haddr hmask (.inl rfl))
      · exact ht

theorem removesTidy_flags (h : ResHeap w) (addr mask : BitVec w) (mflags : BitVec 16) :
    RemovesTidy h .flags addr mask mflags := by
  rintro p - - - - - (hop | ⟨hop, -⟩)
  · cases hop
  · cases hop

/-- A lookup keeps the count right if it frees a tidy entry or none. -/
theorem lookup_tallied (hw : ResWf h) {m : Nat} (ht : Tallied (limited h + m) v) (insist : Bool)
    (current_time : Nat) (addr : BitVec w) (port : Nat)
    (htidy : ∀ p ∈ firstHit h current_time addr port,
      (h.mem p).expired current_time = true → Tidy (h.mem p)) :
    Tallied
      (limited (countMatch (matchLoop insist current_time addr port h.list h v)).1.1 + m)
      (countMatch (matchLoop insist current_time addr port h.list h v)).1.2 := by
  obtain ⟨p, hp, hfirst, heq⟩ := matchLoop_eq insist current_time addr port hw v
  -- The lookup itself.
  have hloop : Tallied (limited (matchLoop insist current_time addr port h.list h v).1.1 + m)
      (matchLoop insist current_time addr port h.list h v).1.2 := by
    rw [heq]
    split_ifs with hexp
    · exact freeRes_tallied hw ht hp (htidy p hfirst hexp)
    · exact ht
  -- Counting does not concern the flags.
  have hsame : ∀ g : ResHeap w,
      limited (g.modify p fun e => { e with count := e.count + 1 }) = limited g := by
    intro g
    unfold limited ResHeap.modify
    apply countP_congr
    intro q _
    simp only
    by_cases hq : q = p
    · rw [hq, update_self]
    · rw [update_of_ne hq]
  rw [heq] at hloop ⊢
  unfold countMatch
  simp only
  rw [hsame]
  split_ifs at hloop ⊢ with hexp hzero hzero
  · exact hloop.congr rfl rfl
  · exact hloop.congr rfl rfl
  · exact hloop.congr rfl rfl
  · exact hloop.congr rfl rfl

theorem sourceList_tallied (hw : ResWf h) (hinc : 0 < inc) {m : Nat}
    (ht : Tallied (limited h + m) v) (insist : Bool) (current_time : Nat) (addr : BitVec w)
    (port expire : Nat) (htidy : ∀ p ∈ firstHit h current_time addr port,
      sourceFrees (h.mem p) current_time expire → Tidy (h.mem p)) :
    Tallied (limited (sourceList inc insist h v current_time addr port expire).1 + m)
      (sourceList inc insist h v current_time addr port expire).2 := by
  obtain ⟨p, r, hp, hfirst, hr, hcases⟩ :=
    sourceList_cases hw inc insist v current_time addr port expire
  have hfreed : ResWf r.1 ∧ Tallied (limited r.1 + m) r.2 := by
    rw [hr]
    split_ifs with hfrees
    · exact ⟨freeRes_wf hw v hp (hw.ne_zero hfrees.expire_ne_zero),
        freeRes_tallied hw ht hp (htidy p hfirst hfrees)⟩
    · exact ⟨hw, ht⟩
  rcases hcases with heq | heq
  · rw [heq]
    exact hfreed.2
  · rw [heq]
    exact hackList_tallied hfreed.1 hinc hfreed.2 _ _ (removesTidy_flags _ _ _ _)

end

/-! ### Both families -/

/-- An entry that `hack_restrict` removes is tidy. -/
def HackTidy (s : RestrictSys) (op : RestrictOp) (spec : ResSpec) (mflags : BitVec 16) : Prop :=
  match spec with
  | .source => True
  | .v4 addr mask => RemovesTidy s.v4 op (addr &&& mask) mask mflags
  | .v6 addr mask => RemovesTidy s.v6 op (addr &&& mask) mask mflags

/-- An entry that a lookup finds expired is tidy. -/
def LookupTidy (s : RestrictSys) : ResAddr → Prop
  | .v4 addr port => ∀ p ∈ firstHit s.v4 s.current_time addr port,
    (s.v4.mem p).expired s.current_time = true → Tidy (s.v4.mem p)
  | .v6 addr port => ∀ p ∈ firstHit s.v6 s.current_time addr port,
    (s.v6.mem p).expired s.current_time = true → Tidy (s.v6.mem p)

/-- An entry that `restrict_source` replaces, or finds expired, is tidy. -/
def SourceTidy (s : RestrictSys) (expire : Nat) : ResAddr → Prop
  | .v4 addr port => ∀ p ∈ firstHit s.v4 s.current_time addr port,
    sourceFrees (s.v4.mem p) s.current_time expire → Tidy (s.v4.mem p)
  | .v6 addr port => ∀ p ∈ firstHit s.v6 s.current_time addr port,
    sourceFrees (s.v6.mem p) s.current_time expire → Tidy (s.v6.mem p)

/-- Addresses that `restrict_source` does not concern itself with. -/
def sourceSkips (s : RestrictSys) (addr : ResAddr) : Bool :=
  !s.vars.restrict_source_enabled || addr.isUnspec || addr.isMcast || addr.isRefclock

/-- Every entry that the step frees is tidy: one that is removed, one that has expired when a lookup
    comes to it, and one that `restrict_source` replaces. -/
def FreesTidy (s : RestrictSys) : RestrictEvent → Prop
  | .hack op spec mflags _ _ => HackTidy s op spec mflags
  | .source addr farewell expire => sourceSkips s addr = true ∨
    if farewell then HackTidy s .remove addr.host 0 else SourceTidy s expire addr
  | .lookup srcadr => srcadr.isMcast = true ∨ LookupTidy s srcadr
  | .pass _ => True
  | .monitor _ => True

instance {w : Nat} (h : ResHeap w) (op : RestrictOp) (addr mask : BitVec w)
    (mflags : BitVec 16) : Decidable (RemovesTidy h op addr mask mflags) := by
  unfold RemovesTidy
  infer_instance

instance (s : RestrictSys) (op : RestrictOp) (spec : ResSpec) (mflags : BitVec 16) :
    Decidable (HackTidy s op spec mflags) := by
  unfold HackTidy
  split <;> infer_instance

instance (s : RestrictSys) (addr : ResAddr) : Decidable (LookupTidy s addr) := by
  unfold LookupTidy
  split <;> infer_instance

instance (s : RestrictSys) (expire : Nat) (addr : ResAddr) :
    Decidable (SourceTidy s expire addr) := by
  unfold SourceTidy
  split <;> infer_instance

instance (s : RestrictSys) (e : RestrictEvent) : Decidable (FreesTidy s e) := by
  unfold FreesTidy
  split <;> infer_instance

/-- The lists are well formed and the count is right. -/
structure CountInv (s : RestrictSys) : Prop where
  wf : RestrictWf s
  tally : Tallied (limited s.v4 + limited s.v6) s.vars

theorem countInv_start : CountInv {} := ⟨restrictWf_start, by decide, by decide⟩

variable {s : RestrictSys}

theorem hackRestrict_tallied (h : CountInv s) (op : RestrictOp) (spec : ResSpec)
    (mflags flags : BitVec 16) (expire : Nat) (htidy : HackTidy s op spec mflags) :
    Tallied (limited (hackRestrict s op spec mflags flags expire).v4 +
      limited (hackRestrict s op spec mflags flags expire).v6)
      (hackRestrict s op spec mflags flags expire).vars := by
  unfold hackRestrict
  cases spec with
  | source =>
    split_ifs
    · exact h.tally.congr rfl rfl
    · exact h.tally.congr rfl rfl
  | v4 addr mask => exact hackList_tallied h.wf.v4 (by decide) h.tally op _ htidy
  | v6 addr mask =>
    have ht := h.tally
    rw [add_comm] at ht
    rw [add_comm]
    exact hackList_tallied h.wf.v6 (by decide) ht op _ htidy

theorem restrictSource_tallied (h : CountInv s) (addr : ResAddr) (farewell : Bool) (expire : Nat)
    (htidy : FreesTidy s (.source addr farewell expire)) :
    Tallied (limited (restrictSource s addr farewell expire).v4 +
      limited (restrictSource s addr farewell expire).v6)
      (restrictSource s addr farewell expire).vars := by
  unfold restrictSource
  split_ifs with hskip hfar
  · exact h.tally
  · have hrem := htidy.resolve_left hskip
    rw [if_pos hfar] at hrem
    exact hackRestrict_tallied h _ _ _ _ _ hrem
  · have hsrc := htidy.resolve_left hskip
    rw [if_neg hfar] at hsrc
    cases addr with
    | v4 a port => exact sourceList_tallied h.wf.v4 (by decide) h.tally _ _ _ _ _ hsrc
    | v6 a port =>
      have ht := h.tally
      rw [add_comm] at ht
      rw [add_comm]
      exact sourceList_tallied h.wf.v6 (by decide) ht _ _ _ _ _ hsrc

theorem restrictions_tallied (h : CountInv s) (srcadr : ResAddr)
    (htidy : FreesTidy s (.lookup srcadr)) :
    Tallied (limited (restrictions s srcadr).1.v4 + limited (restrictions s srcadr).1.v6)
      (restrictions s srcadr).1.vars := by
  have ht : Tallied (limited s.v4 + limited s.v6)
      { s.vars with res_calls := s.vars.res_calls + 1 } := h.tally.congr rfl rfl
  unfold restrictions matchRestrict4Addr matchRestrict6Addr
  split_ifs with hm
  · exact ht
  · have hlook := htidy.resolve_left hm
    cases srcadr with
    | v4 addr port => exact lookup_tallied h.wf.v4 ht _ _ _ _ hlook
    | v6 addr port =>
      rw [add_comm] at ht
      rw [add_comm]
      exact lookup_tallied h.wf.v6 ht _ _ _ _ hlook

/-- Switching monitoring by hand does not concern the bit for the limits. -/
theorem monitor_tallied {v : ResVars} (ht : Tallied n v) :
    Tallied n (monStart v MON_ON) ∧ Tallied n (monStop v MON_ON) := by
  refine ⟨⟨?_, ?_⟩, ⟨?_, ?_⟩⟩
  · rw [← ht.refcnt]
    unfold monStart
    split_ifs <;> rfl
  · rw [monStart_bit, ← ht.monitored]
    simp [MON_ON]
  · rw [← ht.refcnt]
    unfold monStop
    split_ifs <;> rfl
  · rw [monStop_bit _ _ 1 (by decide), ← ht.monitored]
    simp [MON_ON]

theorem restrictStep_tallied (s : RestrictSys) (e : RestrictEvent) (h : CountInv s)
    (htidy : FreesTidy s e) : CountInv (restrictStep s e) := by
  refine ⟨restrictStep_wf s e h.wf, ?_⟩
  cases e with
  | hack op spec mflags flags expire =>
    exact hackRestrict_tallied h op spec mflags flags expire htidy
  | source addr farewell expire => exact restrictSource_tallied h addr farewell expire htidy
  | lookup srcadr => exact restrictions_tallied h srcadr htidy
  | pass seconds => exact h.tally
  | monitor on =>
    cases on with
    | true => exact (monitor_tallied h.tally).1
    | false => exact (monitor_tallied h.tally).2

/-- There are limited entries if their number is not zero. -/
theorem limited_pos {w : Nat} (h : ResHeap w) :
    0 < limited h ↔ ∃ p ∈ h.list, isLimited (h.mem p).flags = true :=
  countP_pos_iff

/-- As long as the entries that are freed are tidy, the count is the number of limited entries on
    the two lists, and monitoring is on exactly if there is one. -/
theorem limited_refcount (es : List RestrictEvent) (hes : Run.Meets restrictStep FreesTidy {} es) :
    let s := Run.exec restrictStep {} es
    s.vars.res_limited_refcnt =
      s.v4.list.countP (fun p => RES_LIMITED &&& (s.v4.mem p).flags ≠ 0) +
      s.v6.list.countP (fun p => RES_LIMITED &&& (s.v6.mem p).flags ≠ 0) ∧
    (s.vars.mon_enabled &&& MON_RES ≠ 0 ↔
      (∃ p ∈ s.v4.list, RES_LIMITED &&& (s.v4.mem p).flags ≠ 0) ∨
      ∃ p ∈ s.v6.list, RES_LIMITED &&& (s.v6.mem p).flags ≠ 0) := by
  intro s
  have hinv : CountInv s :=
    Run.exec_invariant restrictStep_tallied _ es countInv_start hes
  refine ⟨hinv.tally.refcnt, ?_⟩
  rw [monitored_iff, hinv.tally.monitored, decide_eq_true_iff, Nat.add_pos_iff_pos_or_pos,
    limited_pos, limited_pos]
  simp only [isLimited, decide_eq_true_iff]

/-- Limited entries that come and go, by hand, by their end and by the template for sources. -/
def limiterRun : List RestrictEvent :=
  [.hack .flags (.v4 0x0a000000 0xff000000) 0 (RES_LIMITED ||| RES_IGNORE) 0,
    .hack .flags (.v4 0x0a010000 0xffff0000) 0 RES_LIMITED 60,
    .hack .flags .source 0 RES_LIMITED 0,
    .source (.v6 1 123) false 0,
    .monitor true,
    .hack .flags (.v6 0 0) 0 RES_LIMITED 0,
    .pass 60,
    .lookup (.v4 0x0a010001 123),
    .source (.v6 1 123) true 0,
    .hack .unflag (.v6 0 0) 0 RES_LIMITED 0]

theorem limited_refcount_limiterRun :
    let s := Run.exec restrictStep {} limiterRun
    s.vars.res_limited_refcnt =
      s.v4.list.countP (fun p => RES_LIMITED &&& (s.v4.mem p).flags ≠ 0) +
      s.v6.list.countP (fun p => RES_LIMITED &&& (s.v6.mem p).flags ≠ 0) ∧
    (s.vars.mon_enabled &&& MON_RES ≠ 0 ↔
      (∃ p ∈ s.v4.list, RES_LIMITED &&& (s.v4.mem p).flags ≠ 0) ∨
      ∃ p ∈ s.v6.list, RES_LIMITED &&& (s.v6.mem p).flags ≠ 0) :=
  limited_refcount limiterRun (by decide)

/-- An entry without `RES_LIMITED` that is removed by hand. -/
def unlimitedRemoved : List RestrictEvent :=
  [.hack .flags (.v4 0x0a010000 0xffff0000) 0 RES_IGNORE 0,
    .hack .remove (.v4 0x0a010000 0xffff0000) 0 0 0]

/-- Removing it counts down. If there is a limited entry, monitoring is switched off although the
    entry is still there; if there is none, the counter underflows. -/
theorem limited_refcount_off :
    (let s := Run.exec restrictStep {}
      (.hack .flags (.v4 0x0a000000 0xff000000) 0 RES_LIMITED 0 :: unlimitedRemoved)
    s.vars.res_limited_refcnt = 0 ∧ s.vars.mon_enabled = MON_OFF ∧
    s.v4.list.countP (fun p => RES_LIMITED &&& (s.v4.mem p).flags ≠ 0) = 1) ∧
    (Run.exec restrictStep {} unlimitedRemoved).vars.res_limited_refcnt = ULONG_MAX := by
  decide

end NtpSuite
