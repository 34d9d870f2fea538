import NtpSuite.Core.Restrict
import NtpSuite.Lib.Chained
import NtpSuite.Lib.Run

/-!
# Well-Formed Restrict Lists

What holds of the restrict lists whatever is done to them, and what a lookup
does.

`ResWf` is the invariant of the list of a family: its entries and the free
ones are different, and the default entry is on the list with the key it was
given. Every operation keeps it, so lookups always find something and no
entry is freed twice.

A lookup goes down the list to the first entry that has expired or is for the
source, `firstHit`. The loop of the source seems to go on after an expired
entry, but it cannot: the entry has been cleared, and a cleared entry is for
every source. So the lookup ends there, with an entry that is no longer on
the list, no flags, and everything behind it unseen.

## Main definitions

* `ResWf`: The invariant of the list of a family.
* `firstHit`: The entry at which a lookup ends.
* `withoutExpired`: The lists without the entries that have expired.

## Theorems

* `matchLoop_eq`: What a lookup does.
* `hackList_wf`, `sourceList_wf`: The operations keep the invariant.
* `restrictStep_wf`: So does every step.
* `expired_without_effect_iff`: When entries that have expired have no effect.
-/

namespace NtpSuite

open Function (update update_self update_of_ne)
open List

section

variable {w : Nat}

/-- The invariant of the list of a family. -/
structure ResWf (h : ResHeap w) : Prop where
  nodup : (h.list ++ h.resfree).Nodup
  lt : ∀ p ∈ h.list ++ h.resfree, p < h.allocated
  listed : 0 ∈ h.list
  addr : (h.mem 0).addr = 0
  mask : (h.mem 0).mask = 0
  mflags : (h.mem 0).mflags = 0
  expire : (h.mem 0).expire = 0

variable {h : ResHeap w} {inc : Nat}

theorem ResWf.list_nodup (hw : ResWf h) : h.list.Nodup :=
  (nodup_append.mp hw.nodup).1

/-- The entry at which a lookup ends: the first that has expired or is for the source. -/
def firstHit (h : ResHeap w) (current_time : Nat) (addr : BitVec w) (port : Nat) : Option Nat :=
  h.list.find? fun p => (h.mem p).expired current_time || (h.mem p).hits addr port

/-- An entry with a zero mask and no match flags is for every source. -/
theorem hits_of_zero {res : RestrictU w} (haddr : res.addr = 0) (hmask : res.mask = 0)
    (hmflags : res.mflags = 0) (addr : BitVec w) (port : Nat) : res.hits addr port = true := by
  unfold RestrictU.hits
  simp [haddr, hmask, hmflags]

@[simp] theorem freeRes_mem (h : ResHeap w) (v : ResVars) (p : Nat) :
    (freeRes h v p).1.mem = update h.mem p {} := rfl

@[simp] theorem freeRes_list (h : ResHeap w) (v : ResVars) (p : Nat) :
    (freeRes h v p).1.list = h.list.erase p := rfl

theorem matchLoop_spec (insist : Bool) (current_time : Nat) (addr : BitVec w) (port : Nat)
    (ps : List Nat) (hps : ps.Nodup) (h : ResHeap w) (v : ResVars) :
    matchLoop insist current_time addr port ps h v =
      match ps.find? fun p => (h.mem p).expired current_time || (h.mem p).hits addr port with
      | none => ((h, v), none)
      | some p => (if (h.mem p).expired current_time then freeRes h v p else (h, v), some p) := by
  induction ps with
  | nil => rfl
  | cons p ps ih =>
    rw [nodup_cons] at hps
    have hself : ¬(insist = true ∧ ps.head? = some p) := by
      rintro ⟨-, hhead⟩
      exact hps.1 (mem_of_mem_head? hhead)
    simp only [matchLoop, if_neg hself]
    by_cases hexp : (h.mem p).expired current_time = true
    · -- The entry is cleared, and is then for every source.
      have hclear : ((freeRes h v p).1.mem p).hits addr port = true := by
        rw [freeRes_mem, update_self]
        exact hits_of_zero rfl rfl rfl addr port
      simp only [hexp, hclear, if_true, Bool.true_or, List.find?_cons_of_pos]
    · by_cases hhit : (h.mem p).hits addr port = true
      · simp [hexp, hhit]
      · simp [hexp, hhit, List.find?_cons_of_neg, ih hps.2]

theorem matchLoop_eq (insist : Bool) (current_time : Nat) (addr : BitVec w) (port : Nat)
    (hw : ResWf h) (v : ResVars) :
    ∃ p, p ∈ h.list ∧ firstHit h current_time addr port = some p ∧
      matchLoop insist current_time addr port h.list h v =
        (if (h.mem p).expired current_time then freeRes h v p else (h, v), some p) := by
  have hspec := matchLoop_spec insist current_time addr port h.list hw.list_nodup h v
  have hdef : (h.mem 0).hits addr port = true :=
    hits_of_zero hw.addr hw.mask hw.mflags addr port
  cases hfind : h.list.find?
      fun p => (h.mem p).expired current_time || (h.mem p).hits addr port with
  | none =>
    rw [List.find?_eq_none] at hfind
    exact absurd (by simp [hdef]) (hfind 0 hw.listed)
  | some p =>
    rw [hfind] at hspec
    exact ⟨p, mem_of_find?_eq_some hfind, hfind, hspec⟩

/-! ### The operations -/

theorem freeRes_wf (hw : ResWf h) (v : ResVars) {p : Nat} (hp : p ∈ h.list) (hne : p ≠ 0) :
    ResWf (freeRes h v p).1 := by
  have hperm : (h.list ++ h.resfree).Perm (h.list.erase p ++ p :: h.resfree) :=
    ((perm_cons_erase hp).append_right _).trans perm_middle.symm
  have hmem : (freeRes h v p).1.mem 0 = h.mem 0 :=
    update_of_ne (Ne.symm hne) _ _
  refine ⟨hperm.nodup_iff.mp hw.nodup, ?_, ?_, ?_, ?_, ?_, ?_⟩
  · intro q hq
    exact hw.lt q (hperm.mem_iff.mpr hq)
  · exact (mem_erase_of_ne (Ne.symm hne)).mpr hw.listed
  · rw [hmem, hw.addr]
  · rw [hmem, hw.mask]
  · rw [hmem, hw.mflags]
  · rw [hmem, hw.expire]

theorem modify_wf (hw : ResWf h) (p : Nat) {f : RestrictU w → RestrictU w}
    (hf : ∀ e, (f e).addr = e.addr ∧ (f e).mask = e.mask ∧ (f e).mflags = e.mflags ∧
      (f e).expire = e.expire) : ResWf (h.modify p f) := by
  have hsame : ((h.modify p f).mem 0).addr = (h.mem 0).addr ∧
      ((h.modify p f).mem 0).mask = (h.mem 0).mask ∧
      ((h.modify p f).mem 0).mflags = (h.mem 0).mflags ∧
      ((h.modify p f).mem 0).expire = (h.mem 0).expire := by
    unfold ResHeap.modify
    by_cases hp : p = 0
    · simp [hp, hf]
    · simp [update_of_ne (Ne.symm hp)]
  obtain ⟨haddr, hmask, hmflags, hexpire⟩ := hsame
  exact ⟨hw.nodup, hw.lt, hw.listed, haddr.trans hw.addr, hmask.trans hw.mask,
    hmflags.trans hw.mflags, hexpire.trans hw.expire⟩

theorem allocRes_spec (hw : ResWf h) (hinc : 0 < inc) :
    (allocRes inc h).1.list = h.list ∧ (allocRes inc h).1.mem = h.mem ∧
      (allocRes inc h).2 ∉ h.list ∧
      ((allocRes inc h).2 :: h.list ++ (allocRes inc h).1.resfree).Nodup ∧
      ∀ q ∈ (allocRes inc h).2 :: h.list ++ (allocRes inc h).1.resfree,
        q < (allocRes inc h).1.allocated := by
  have hnodup := hw.nodup
  have hlt := hw.lt
  unfold allocRes
  cases hfree : h.resfree with
  | cons res rest =>
    rw [hfree] at hnodup hlt
    have hperm : (h.list ++ res :: rest).Perm (res :: h.list ++ rest) := perm_middle
    refine ⟨rfl, rfl, ?_, hperm.nodup_iff.mp hnodup, fun q hq => hlt q (hperm.mem_iff.mpr hq)⟩
    exact fun hmem => (nodup_append.mp hnodup).2.2 res hmem res (by simp) rfl
  | nil =>
    rw [hfree, append_nil] at hnodup hlt
    have hnew : h.allocated ∉ h.list := fun hmem => absurd (hlt _ hmem) (lt_irrefl _)
    refine ⟨rfl, rfl, hnew, ?_, ?_⟩
    · -- The block comes after everything that was allocated before.
      have hblock : ((List.range (inc - 1)).map (h.allocated + 1 + ·)).Nodup :=
        nodup_range.map fun a b hab => by omega
      refine nodup_append.mpr ⟨nodup_cons.mpr ⟨hnew, hnodup⟩, hblock, ?_⟩
      intro a ha b hb
      simp only [mem_map] at hb
      rcases mem_cons.mp ha with hfirst | hold
      · have : a = h.allocated := hfirst
        omega
      · have := hlt a hold
        omega
    · intro q hq
      simp only [cons_append, mem_cons, mem_append, mem_map, mem_range] at hq ⊢
      rcases hq with rfl | hold | ⟨i, hi, rfl⟩
      · omega
      · have := hlt q hold
        omega
      · omega

theorem linkSortSlist_perm (before : Nat → Bool) (p : Nat) (xs : List Nat) :
    (linkSortSlist before p xs).Perm (p :: xs) := by
  induction xs with
  | nil => rfl
  | cons x xs ih =>
    simp only [linkSortSlist]
    split_ifs
    · rfl
    · exact (ih.cons x).trans (List.Perm.swap p x xs)

theorem addRes_list (hw : ResWf h) (hinc : 0 < inc) (v : ResVars) (pmatch : RestrictU w) :
    ∃ p, p ∉ h.list ∧ (addRes inc h v pmatch).1.mem = update h.mem p pmatch ∧
      (addRes inc h v pmatch).1.list =
        linkSortSlist (fun cur => resSortsBefore pmatch (update h.mem p pmatch cur)) p
          h.list := by
  obtain ⟨hlist, hmem, hnew, -, -⟩ := allocRes_spec hw hinc
  refine ⟨(allocRes inc h).2, hnew, ?_, ?_⟩
  · simp only [addRes, hmem]
  · simp only [addRes, hlist, hmem, update_self]

theorem addRes_wf (hw : ResWf h) (hinc : 0 < inc) (v : ResVars) (pmatch : RestrictU w) :
    ResWf (addRes inc h v pmatch).1 := by
  obtain ⟨hlist, hmem, hnew, hnodup, hlt⟩ := allocRes_spec hw hinc
  have hperm : ((addRes inc h v pmatch).1.list ++ (addRes inc h v pmatch).1.resfree).Perm
      ((allocRes inc h).2 :: h.list ++ (allocRes inc h).1.resfree) := by
    simp only [addRes, hlist]
    exact (linkSortSlist_perm _ _ _).append_right _
  have hdef : (addRes inc h v pmatch).1.mem 0 = h.mem 0 := by
    simp only [addRes, hmem]
    apply update_of_ne
    intro hzero
    rw [← hzero] at hnew
    exact hnew hw.listed
  refine ⟨hperm.nodup_iff.mpr hnodup, fun q hq => hlt q (hperm.mem_iff.mp hq), ?_, ?_, ?_, ?_, ?_⟩
  · simp only [addRes, hlist]
    exact (linkSortSlist_perm _ _ _).mem_iff.mpr (mem_cons_of_mem _ hw.listed)
  · rw [hdef, hw.addr]
  · rw [hdef, hw.mask]
  · rw [hdef, hw.mflags]
  · rw [hdef, hw.expire]

theorem matchRestrictEntry_spec {pmatch : RestrictU w} {p : Nat}
    (hp : matchRestrictEntry h pmatch = some p) :
    p ∈ h.list ∧ (h.mem p).mflags = pmatch.mflags ∧ (h.mem p).addr = pmatch.addr ∧
      (h.mem p).mask = pmatch.mask := by
  have hkey := List.find?_some hp
  simp only [Bool.and_eq_true, decide_eq_true_eq] at hkey
  exact ⟨mem_of_find?_eq_some hp, hkey.1.1, hkey.1.2, hkey.2⟩

theorem matchRestrictEntry_none {pmatch : RestrictU w} (hnone : matchRestrictEntry h pmatch = none)
    {p : Nat} (hp : p ∈ h.list) (haddr : (h.mem p).addr = pmatch.addr)
    (hmask : (h.mem p).mask = pmatch.mask) : (h.mem p).mflags ≠ pmatch.mflags := by
  have hno := List.find?_eq_none.mp hnone p hp
  simpa [haddr, hmask] using hno

/-- What the switch of `hack_restrict` does to the list: nothing, a new entry, other flags for an
    entry, or an entry other than the default entry is freed. -/
theorem hackList_cases (inc : Nat) (h : ResHeap w) (v : ResVars) (op : RestrictOp)
    (pmatch : RestrictU w) :
    (hackList inc h v op pmatch).1 = h ∨ (matchRestrictEntry h pmatch = none ∧
      (hackList inc h v op pmatch).1 = (addRes inc h v pmatch).1) ∨
    (∃ p, ∃ f : BitVec 16 → BitVec 16, (hackList inc h v op pmatch).1 =
      h.modify p fun r => { r with flags := f r.flags }) ∨
    ∃ p ∈ h.list, p ≠ 0 ∧ (hackList inc h v op pmatch).1 = (freeRes h v p).1 := by
  unfold hackList
  cases hm : matchRestrictEntry h pmatch with
  | none =>
    cases op with
    | flags => exact .inr (.inl ⟨rfl, rfl⟩)
    | unflag | remove | removeif => exact .inl rfl
  | some res =>
    obtain ⟨hres, -⟩ := matchRestrictEntry_spec hm
    cases op with
    | flags => exact .inr (.inr (.inl ⟨res, (· ||| pmatch.flags), rfl⟩))
    | unflag => exact .inr (.inr (.inl ⟨res, (· &&& ~~~pmatch.flags), rfl⟩))
    | remove =>
      simp only
      split_ifs with hok
      · exact .inr (.inr (.inr ⟨res, hres, hok.2, rfl⟩))
      · exact .inl rfl
    | removeif =>
      simp only
      split_ifs with hok
      · exact .inr (.inr (.inr ⟨res, hres, hok, rfl⟩))
      · exact .inl rfl

theorem hackList_wf (hw : ResWf h) (hinc : 0 < inc) (v : ResVars) (op : RestrictOp)
    (pmatch : RestrictU w) : ResWf (hackList inc h v op pmatch).1 := by
  rcases hackList_cases inc h v op pmatch with heq | ⟨-, heq⟩ | ⟨p, f, heq⟩ | ⟨p, hp, hne, heq⟩
  · rw [heq]
    exact hw
  · rw [heq]
    exact addRes_wf hw hinc v pmatch
  · rw [heq]
    exact modify_wf (f := fun r => { r with flags := f r.flags }) hw p
      fun e => ⟨rfl, rfl, rfl, rfl⟩
  · rw [heq]
    exact freeRes_wf hw v hp hne

theorem ResWf.ne_zero (hw : ResWf h) {p : Nat} (hp : (h.mem p).expire ≠ 0) : p ≠ 0 := by
  rintro rfl
  exact hp hw.expire

theorem RestrictU.expire_ne_zero {e : RestrictU w} {current_time : Nat}
    (he : e.expired current_time = true) : e.expire ≠ 0 := by
  unfold RestrictU.expired at he
  simp only [Bool.and_eq_true, decide_eq_true_eq] at he
  exact he.1

theorem matchLoop_wf (hw : ResWf h) (insist : Bool) (v : ResVars) (current_time : Nat)
    (addr : BitVec w) (port : Nat) :
    ResWf (matchLoop insist current_time addr port h.list h v).1.1 := by
  obtain ⟨p, hp, -, heq⟩ := matchLoop_eq insist current_time addr port hw v
  rw [heq]
  split_ifs with hexp
  · exact freeRes_wf hw v hp (hw.ne_zero (RestrictU.expire_ne_zero hexp))
  · exact hw

theorem countMatch_wf {r : (ResHeap w × ResVars) × Option Nat} (hw : ResWf r.1.1) :
    ResWf (countMatch r).1.1 := by
  unfold countMatch
  cases r.2 with
  | none => exact hw
  | some res =>
    exact modify_wf (f := fun e => { e with count := e.count + 1 }) hw res
      fun e => ⟨rfl, rfl, rfl, rfl⟩

/-- The entry that `restrict_source` frees before it adds one: an entry that has expired, or an
    entry for the host that expires if the new one does not. -/
def sourceFrees (e : RestrictU w) (current_time expire : Nat) : Prop :=
  e.expired current_time = true ∨ expire = 0 ∧ e.mask = BitVec.allOnes w ∧ e.expire ≠ 0

instance (e : RestrictU w) (current_time expire : Nat) :
    Decidable (sourceFrees e current_time expire) :=
  inferInstanceAs (Decidable (_ ∨ _))

/-- The entry that `restrict_source` adds. -/
def sourceEntry (v : ResVars) (addr : BitVec w) (expire : Nat) : RestrictU w :=
  { addr := addr &&& BitVec.allOnes w, mask := BitVec.allOnes w,
    mflags := v.restrict_source_mflags, flags := v.restrict_source_flags, expire := expire }

theorem sourceList_cases (hw : ResWf h) (inc : Nat) (insist : Bool) (v : ResVars)
    (current_time : Nat) (addr : BitVec w) (port expire : Nat) :
    ∃ p r, p ∈ h.list ∧ firstHit h current_time addr port = some p ∧
      r = (if sourceFrees (h.mem p) current_time expire then freeRes h v p else (h, v)) ∧
      (sourceList inc insist h v current_time addr port expire = r ∨
        sourceList inc insist h v current_time addr port expire =
          hackList inc r.1 r.2 .flags (sourceEntry r.2 addr expire)) := by
  obtain ⟨p, hp, hfirst, heq⟩ := matchLoop_eq insist current_time addr port hw v
  refine ⟨p, _, hp, hfirst, rfl, ?_⟩
  unfold sourceList sourceFrees sourceEntry
  simp only [heq]
  by_cases hexp : (h.mem p).expired current_time = true
  · -- The lookup has freed the entry, which does not expire any more.
    simp only [hexp, true_or, if_true, freeRes_mem, update_self, ne_eq,
      not_true_eq_false, decide_false, Bool.and_false, Bool.false_eq_true, if_false, Bool.not_false,
      Bool.and_true]
    split_ifs
    · exact .inl rfl
    · exact .inr rfl
  · simp only [hexp, false_or, if_false, Bool.false_eq_true]
    by_cases hmask : (h.mem p).mask = BitVec.allOnes w
    · by_cases hreplace : expire = 0 ∧ (h.mem p).expire ≠ 0
      · simp [hmask, hreplace.1, hreplace.2]
      · by_cases hzero : expire = 0
        · have hkeeps : (h.mem p).expire = 0 := by
            by_contra hne
            exact hreplace ⟨hzero, hne⟩
          simp [hmask, hkeeps]
        · simp [hmask, hzero]
    · simp [hmask]

theorem sourceFrees.expire_ne_zero {e : RestrictU w} {current_time expire : Nat}
    (h : sourceFrees e current_time expire) : e.expire ≠ 0 := by
  rcases h with hexp | ⟨-, -, hne⟩
  · exact RestrictU.expire_ne_zero hexp
  · exact hne

theorem sourceList_wf (hw : ResWf h) (hinc : 0 < inc) (insist : Bool) (v : ResVars)
    (current_time : Nat) (addr : BitVec w) (port expire : Nat) :
    ResWf (sourceList inc insist h v current_time addr port expire).1 := by
  obtain ⟨p, r, hp, -, hr, hcases⟩ :=
    sourceList_cases hw inc insist v current_time addr port expire
  have hwr : ResWf r.1 := by
    rw [hr]
    split_ifs with hfrees
    · exact freeRes_wf hw v hp (hw.ne_zero hfrees.expire_ne_zero)
    · exact hw
  rcases hcases with heq | heq
  · rw [heq]
    exact hwr
  · rw [heq]
    exact hackList_wf hwr hinc _ _ _

end

/-! ### Both families -/

/-- Both lists are well formed. -/
structure RestrictWf (s : RestrictSys) : Prop where
  v4 : ResWf s.v4
  v6 : ResWf s.v6

theorem resWf_start (w : Nat) : ResWf ({} : ResHeap w) where
  nodup := by simp
  lt := by simp
  listed := by simp
  addr := rfl
  mask := rfl
  mflags := rfl
  expire := rfl

theorem restrictWf_start : RestrictWf {} := ⟨resWf_start 32, resWf_start 128⟩

variable {s : RestrictSys}

theorem hackRestrict_wf (h : RestrictWf s) (op : RestrictOp) (spec : ResSpec)
    (mflags flags : BitVec 16) (expire : Nat) :
    RestrictWf (hackRestrict s op spec mflags flags expire) := by
  unfold hackRestrict
  cases spec with
  | source =>
    split_ifs
    · exact ⟨h.v4, h.v6⟩
    · exact ⟨h.v4, h.v6⟩
  | v4 addr mask => exact ⟨hackList_wf h.v4 (by decide) _ _ _, h.v6⟩
  | v6 addr mask => exact ⟨h.v4, hackList_wf h.v6 (by decide) _ _ _⟩

theorem restrictions_wf (h : RestrictWf s) (srcadr : ResAddr) :
    RestrictWf (restrictions s srcadr).1 := by
  unfold restrictions
  split_ifs
  · exact ⟨h.v4, h.v6⟩
  · cases srcadr with
    | v4 addr port => exact ⟨countMatch_wf (matchLoop_wf h.v4 _ _ _ _ _), h.v6⟩
    | v6 addr port => exact ⟨h.v4, countMatch_wf (matchLoop_wf h.v6 _ _ _ _ _)⟩

theorem restrictSource_wf (h : RestrictWf s) (addr : ResAddr) (farewell : Bool) (expire : Nat) :
    RestrictWf (restrictSource s addr farewell expire) := by
  unfold restrictSource
  split_ifs
  · exact h
  · exact hackRestrict_wf h _ _ _ _ _
  · cases addr with
    | v4 a port => exact ⟨sourceList_wf h.v4 (by decide) _ _ _ _ _ _, h.v6⟩
    | v6 a port => exact ⟨h.v4, sourceList_wf h.v6 (by decide) _ _ _ _ _ _⟩

theorem restrictStep_wf (s : RestrictSys) (e : RestrictEvent) (h : RestrictWf s) :
    RestrictWf (restrictStep s e) := by
  cases e with
  | hack op spec mflags flags expire => exact hackRestrict_wf h op spec mflags flags expire
  | source addr farewell expire => exact restrictSource_wf h addr farewell expire
  | lookup srcadr => exact restrictions_wf h srcadr
  | pass seconds | monitor on => exact ⟨h.v4, h.v6⟩

theorem exec_restrictWf (es : List RestrictEvent) : RestrictWf (Run.exec restrictStep {} es) :=
  Run.exec_invariant (fun s e h _ => restrictStep_wf s e h) _ es restrictWf_start
    (Run.meets_true _ _ _)

/-! ### Entries that have expired -/

section

variable {w : Nat}

/-- The list of a family without the entries that have expired. -/
def ResHeap.withoutExpired (h : ResHeap w) (current_time : Nat) : ResHeap w :=
  { h with list := h.list.filter fun p => !(h.mem p).expired current_time }

variable {h : ResHeap w}

theorem withoutExpired_wf (hw : ResWf h) (current_time : Nat) :
    ResWf (h.withoutExpired current_time) where
  __ := hw
  nodup := hw.nodup.sublist (filter_sublist.append_right _)
  lt := by
    intro p hp
    exact hw.lt p ((filter_sublist.append_right _).subset hp)
  listed := by
    refine mem_filter.mpr ⟨hw.listed, ?_⟩
    simp [RestrictU.expired, hw.expire]

/-- A lookup that ends with an entry that has not expired ends there also
    without those that have. -/
theorem firstHit_withoutExpired {current_time : Nat} {addr : BitVec w} {port p : Nat}
    (hfirst : firstHit h current_time addr port = some p)
    (hexp : (h.mem p).expired current_time = false) :
    firstHit (h.withoutExpired current_time) current_time addr port = some p := by
  obtain ⟨hhit, ks, ps, hlist, hks⟩ := List.find?_eq_some_iff_append.mp hfirst
  unfold firstHit ResHeap.withoutExpired
  rw [List.find?_filter, List.find?_eq_some_iff_append]
  refine ⟨?_, ks, ps, hlist, ?_⟩
  · rw [hexp] at hhit ⊢
    simpa using hhit
  · intro k hk
    have hmiss := hks k hk
    simp only [Bool.not_eq_true', Bool.or_eq_false_iff] at hmiss
    simp [hmiss.1, hmiss.2]

theorem countMatch_eq (hw : ResWf h) (insist : Bool) (v : ResVars) {current_time : Nat}
    {addr : BitVec w} {port p : Nat} (hfirst : firstHit h current_time addr port = some p) :
    (countMatch (matchLoop insist current_time addr port h.list h v)).2 =
        (if (h.mem p).expired current_time then 0 else (h.mem p).flags, some p) ∧
      (countMatch (matchLoop insist current_time addr port h.list h v)).1.1.list =
        if (h.mem p).expired current_time then h.list.erase p else h.list := by
  obtain ⟨q, -, hq, heq⟩ := matchLoop_eq insist current_time addr port hw v
  rw [hfirst, Option.some.injEq] at hq
  subst hq
  rw [heq]
  unfold countMatch ResHeap.modify
  by_cases hexp : (h.mem p).expired current_time = true
  · simp [hexp]
  · simp [hexp]

/-- For one family: a lookup is that on the list without the entries that have expired, and counts
    an entry of the list, exactly if it does not end with an entry that has expired. -/
theorem lookup_iff (hw : ResWf h) (insist : Bool) (v v' : ResVars) (current_time : Nat)
    (addr : BitVec w) (port : Nat) :
    ((countMatch (matchLoop insist current_time addr port h.list h v)).2.1 =
        (countMatch (matchLoop insist current_time addr port
          (h.withoutExpired current_time).list (h.withoutExpired current_time) v')).2.1 ∧
      ∀ p, (countMatch (matchLoop insist current_time addr port h.list h v)).2.2 = some p →
        p ∈ (countMatch (matchLoop insist current_time addr port h.list h v)).1.1.list) ↔
      ∀ p, firstHit h current_time addr port = some p →
        (h.mem p).expired current_time = false := by
  obtain ⟨p, hp, hfirst, -⟩ := matchLoop_eq insist current_time addr port hw v
  obtain ⟨hres, hlist⟩ := countMatch_eq hw insist v hfirst
  rw [hres, hlist]
  constructor
  · -- An entry that has expired is not on the list afterwards.
    rintro ⟨-, hmem⟩ q hq
    rw [hfirst, Option.some.injEq] at hq
    subst hq
    by_contra hexp
    rw [Bool.not_eq_false] at hexp
    have hin := hmem p rfl
    rw [if_pos hexp, hw.list_nodup.mem_erase_iff] at hin
    exact hin.1 rfl
  · intro hlive
    have hexp := hlive p hfirst
    have hfirst' := firstHit_withoutExpired hfirst hexp
    obtain ⟨hres', -⟩ := countMatch_eq (withoutExpired_wf hw current_time) insist v' hfirst'
    rw [hres']
    refine ⟨rfl, ?_⟩
    intro q hq
    rw [Option.some.injEq] at hq
    subst hq
    simpa [hexp] using hp

end

/-- The lists without the entries that have expired. -/
def withoutExpired (s : RestrictSys) : RestrictSys :=
  { s with
    v4 := s.v4.withoutExpired s.current_time
    v6 := s.v6.withoutExpired s.current_time }

/-- The list for a source. -/
def RestrictSys.listFor (s : RestrictSys) : ResAddr → List Nat
  | .v4 _ _ => s.v4.list
  | .v6 _ _ => s.v6.list

/-- Going down the list for the source, the first entry that has expired or is for the source has
    not expired. Sources with a multicast address are not looked up. -/
def LiveFirst (s : RestrictSys) (srcadr : ResAddr) : Prop :=
  srcadr.isMcast = true ∨
    match srcadr with
    | .v4 addr port => ∀ p, firstHit s.v4 s.current_time addr port = some p →
      (s.v4.mem p).expired s.current_time = false
    | .v6 addr port => ∀ p, firstHit s.v6 s.current_time addr port = some p →
      (s.v6.mem p).expired s.current_time = false

/-- Restrictions that have expired have no effect on a lookup, and the entry that is counted is on
    the list, exactly if the first entry on the way that has expired or is for the source has not
    expired. This holds for all lists that can be built, at all times and for all sources. -/
theorem expired_without_effect_iff (es : List RestrictEvent) (current_time : Nat)
    (srcadr : ResAddr) :
    let s := { Run.exec restrictStep {} es with current_time := current_time }
    ((restrictions s srcadr).2.flags = (restrictions (withoutExpired s) srcadr).2.flags ∧
      ∀ p, (restrictions s srcadr).2.counted = some p →
        p ∈ (restrictions s srcadr).1.listFor srcadr) ↔ LiveFirst s srcadr := by
  intro s
  have hwf : RestrictWf s := ⟨(exec_restrictWf es).v4, (exec_restrictWf es).v6⟩
  unfold LiveFirst
  by_cases hm : srcadr.isMcast = true
  · simp [restrictions, hm]
  · rw [or_iff_right hm]
    cases srcadr with
    | v4 addr port =>
      simp only [restrictions, if_neg hm]
      exact lookup_iff hwf.v4 false _ _ s.current_time addr port
    | v6 addr port =>
      simp only [restrictions, if_neg hm]
      exact lookup_iff hwf.v6 true _ _ s.current_time addr port

/-- A host entry that ignores packets for ten seconds, before a network entry
    without an end that ignores them too. -/
def fleetingRun : List RestrictEvent :=
  [.hack .flags (.v4 0xc0a80000 0xffff0000) 0 RES_IGNORE 0,
    .hack .flags (.v4 0xc0a80001 0xffffffff) 0 RES_IGNORE 10]

/-- After ten seconds, a lookup for the host frees the host entry and returns
    no flags, although the network entry is for the host too; the entry it
    counts is on the free list. The next lookup finds the network entry. -/
theorem expired_entry_opens :
    let s := Run.exec restrictStep {} (fleetingRun ++ [.pass 10])
    let r := restrictions s (.v4 0xc0a80001 5000)
    r.2.flags = 0 ∧
    (restrictions (withoutExpired s) (.v4 0xc0a80001 5000)).2.flags = RES_IGNORE ∧
    r.2.counted = some 2 ∧ r.1.v4.list = [1, 0] ∧ 2 ∈ r.1.v4.resfree ∧
    (restrictions r.1 (.v4 0xc0a80001 5000)).2.flags = RES_IGNORE := by
  decide

end NtpSuite
