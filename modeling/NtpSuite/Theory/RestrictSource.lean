import NtpSuite.Theory.RestrictCount

/-!
# The Entries of `restrict source`

With `restrict source` every association gets a host entry of its own while it
lasts: `newpeer` adds it and `unpeer` removes it. Together the two should
leave the list as it was, and neither should touch a host entry that was
there before.

The two do not use the same key. The entry is added under the match flags of
the template, and removed under match flags zero. So an entry whose template
has match flags stays, and if the host has an entry of its own with match
flags zero, it is that entry which goes. The third way to leave a trace is
the lookup for an entry of the host, which frees an entry that has expired or
is about to.

`ResHeap.sourceClean` says for the list of a family when none of this
happens. That it has to hold is shown by counting: of the entries that expire,
of those with the key of the removal, and of all.

## Main definitions

* `ResHeap.entries`: The entries of a list, in order.
* `ResHeap.keepsHosts`: No host entry of the address is removed or changed.
* `ResHeap.sourceClean`: When the two calls leave no trace.

## Theorems

* `entries_freeRes`, `entries_addRes`: What an operation does to the entries.
* `farewell_eq`: What the removal does.
* `sourceList_eq`: What the addition does if it frees nothing.
* `source_restores_iff`: The two calls, for one family.
* `restrictSource_noTrace_iff`: The two calls.
-/

namespace NtpSuite

open Function List Option

section

variable {w : Nat}

/-- The entries of the list, in order. -/
def ResHeap.entries (h : ResHeap w) : List (RestrictU w) := h.list.map h.mem

/-- The key under which `restrict_source` removes the entry of a host. -/
def farewellEntry (addr : BitVec w) : RestrictU w :=
  { addr := addr &&& BitVec.allOnes w, mask := BitVec.allOnes w }

variable {h : ResHeap w}

/-- The entries of the list without some that are changed. -/
theorem entries_update {p : Nat} (e : RestrictU w) {xs : List Nat} (hp : p ∉ xs) :
    xs.map (update h.mem p e) = xs.map h.mem := by
  exact map_congr_left (Chained.update_off hp)

theorem entries_freeRes (hw : ResWf h) (v : ResVars) {p : Nat} (hp : p ∈ h.list) :
    h.entries.Perm (h.mem p :: (freeRes h v p).1.entries) := by
  have hgone : p ∉ h.list.erase p := hw.list_nodup.not_mem_erase
  have hrest : (freeRes h v p).1.entries = (h.list.erase p).map h.mem := entries_update {} hgone
  rw [hrest]
  exact (perm_cons_erase hp).map h.mem

variable {inc : Nat} {pmatch : RestrictU w} {current_time : Nat} {addr : BitVec w} (v : ResVars)

theorem entries_addRes (hw : ResWf h) (hinc : 0 < inc) (v : ResVars) (pmatch : RestrictU w) :
    (addRes inc h v pmatch).1.entries.Perm (pmatch :: h.entries) := by
  obtain ⟨p, hp, hmem, hlist⟩ := addRes_list hw hinc v pmatch
  unfold ResHeap.entries
  rw [hmem, hlist, ← entries_update pmatch hp]
  have hperm := (linkSortSlist_perm (fun cur => resSortsBefore pmatch
    (update h.mem p pmatch cur)) p h.list).map (update h.mem p pmatch)
  simpa using hperm

/-- What the flags of an entry are has no effect on a test that does not look at them. -/
theorem countP_modify (h : ResHeap w) (p : Nat) (f : BitVec 16 → BitVec 16)
    {test : RestrictU w → Bool} (htest : ∀ e fl, test { e with flags := fl } = test e) :
    (h.modify p fun r => { r with flags := f r.flags }).entries.countP test =
      h.entries.countP test := by
  unfold ResHeap.entries ResHeap.modify
  rw [countP_map, countP_map]
  apply countP_congr
  intro q _
  by_cases hq : q = p
  · simp [hq, htest]
  · simp [update_of_ne hq]

/-! ### What is left of the entries that expire -/

/-- The entry has a time after which it is not valid. -/
def RestrictU.expires (e : RestrictU w) : Bool := e.expire ≠ 0

/-- `hack_restrict` without a time never makes them more. -/
theorem hackList_expires (hw : ResWf h) (hinc : 0 < inc) (v : ResVars) (op : RestrictOp)
    (hexp : pmatch.expire = 0) :
    (hackList inc h v op pmatch).1.entries.countP RestrictU.expires ≤
      h.entries.countP RestrictU.expires := by
  rcases hackList_cases inc h v op pmatch with heq | ⟨-, heq⟩ | ⟨p, f, heq⟩ | ⟨p, hp, -, heq⟩
  · rw [heq]
  · rw [heq, (entries_addRes hw hinc v pmatch).countP_eq]
    simp [RestrictU.expires, hexp]
  · rw [heq, countP_modify h p f fun _ _ => rfl]
  · rw [heq, (entries_freeRes hw v hp).countP_eq, countP_cons]
    omega

/-- If the addition frees an entry, that shows to the end. -/
theorem sourceFrees_shows (hw : ResWf h) (hinc : 0 < inc) (insist : Bool) (v : ResVars)
    {port p : Nat} (hfirst : firstHit h current_time addr port = some p)
    (hfrees : sourceFrees (h.mem p) current_time 0) :
    let r := sourceList inc insist h v current_time addr port 0
    (hackList inc r.1 r.2 .remove (farewellEntry addr)).1.entries ≠ h.entries := by
  intro r heq
  obtain ⟨q, r', hq, hqfirst, hr', hcases⟩ :=
    sourceList_cases hw inc insist v current_time addr port 0
  rw [hfirst, some.injEq] at hqfirst
  subst hqfirst
  rw [if_pos hfrees] at hr'
  have hwr : ResWf r'.1 := by
    rw [hr']
    exact freeRes_wf hw v hq (hw.ne_zero hfrees.expire_ne_zero)
  have hfewer : h.entries.countP RestrictU.expires =
      r'.1.entries.countP RestrictU.expires + 1 := by
    rw [hr', (entries_freeRes hw v hq).countP_eq]
    simp [RestrictU.expires, hfrees.expire_ne_zero]
  have hadd : r.1.entries.countP RestrictU.expires ≤
      r'.1.entries.countP RestrictU.expires := by
    rcases hcases with hnone | hsome
    · exact le_of_eq (by rw [show r = r' from hnone])
    · rw [show r = _ from hsome]
      exact hackList_expires hwr hinc _ _ rfl
  have hwf : ResWf r.1 := sourceList_wf hw hinc insist v current_time addr port 0
  have hremove : (hackList inc r.1 r.2 .remove (farewellEntry addr)).1.entries.countP
      RestrictU.expires ≤ r.1.entries.countP RestrictU.expires :=
    hackList_expires hwf hinc r.2 .remove rfl
  rw [heq] at hremove
  omega

/-! ### The removal -/

/-- What the removal does: it cannot come to the default entry, whose mask is not that of a host. -/
theorem farewell_eq (hw : ResWf h) (hpos : 0 < w) (inc : Nat) (v : ResVars) (addr : BitVec w) :
    hackList inc h v .remove (farewellEntry addr) =
      match matchRestrictEntry h (farewellEntry addr) with
      | none => (h, v)
      | some q => freeRes h v q := by
  unfold hackList
  cases hm : matchRestrictEntry h (farewellEntry addr) with
  | none => rfl
  | some q =>
    obtain ⟨-, hmflags, -, hmask⟩ := matchRestrictEntry_spec hm
    have hne : q ≠ 0 := by
      rintro rfl
      rw [hw.mask] at hmask
      have hbit := congrArg (BitVec.getLsbD · 0) hmask
      simp [farewellEntry, hpos] at hbit
    have hplain : RESM_INTERFACE &&& (h.mem q).mflags = 0 := by
      rw [hmflags]
      simp [farewellEntry]
    simp only
    rw [if_pos ⟨hplain, hne⟩]

theorem freeRes_entries_ne (hw : ResWf h) (v : ResVars) {q : Nat} (hq : q ∈ h.list) :
    (freeRes h v q).1.entries ≠ h.entries := by
  intro heq
  have hlen := (entries_freeRes hw v hq).length_eq
  rw [length_cons, heq] at hlen
  omega

/-- The removal by itself changes nothing exactly if there is no entry with its key. -/
theorem farewell_restores_iff (hw : ResWf h) (hpos : 0 < w) (inc : Nat) (v : ResVars)
    (addr : BitVec w) :
    (hackList inc h v .remove (farewellEntry addr)).1.entries = h.entries ↔
      matchRestrictEntry h (farewellEntry addr) = none := by
  rw [farewell_eq hw hpos]
  cases hm : matchRestrictEntry h (farewellEntry addr) with
  | none => simp
  | some q =>
    have hne := freeRes_entries_ne hw v (matchRestrictEntry_spec hm).1
    simp [hne]

/-! ### The addition -/

/-- What the addition does if it frees nothing: a host entry that is found is left alone. -/
theorem sourceList_eq (hw : ResWf h) (inc : Nat) (insist : Bool) (v : ResVars) {port p : Nat}
    (hfirst : firstHit h current_time addr port = some p)
    (hkeeps : ¬sourceFrees (h.mem p) current_time 0) :
    sourceList inc insist h v current_time addr port 0 =
      if (h.mem p).mask = BitVec.allOnes w then (h, v)
      else hackList inc h v .flags (sourceEntry v addr 0) := by
  obtain ⟨q, -, hqfirst, heq⟩ := matchLoop_eq insist current_time addr port hw v
  rw [hfirst, some.injEq] at hqfirst
  subst hqfirst
  have hlive : ¬(h.mem p).expired current_time = true := fun hexp => hkeeps (.inl hexp)
  unfold sourceList sourceEntry
  simp only [heq, if_neg hlive]
  by_cases hmask : (h.mem p).mask = BitVec.allOnes w
  · have hexpire : (h.mem p).expire = 0 := by
      by_contra hne
      exact hkeeps (.inr ⟨rfl, hmask, hne⟩)
    simp [hmask, hexpire]
  · simp [hmask]

theorem matchRestrictEntry_modify (h : ResHeap w) (p : Nat) (f : BitVec 16 → BitVec 16)
    (pmatch : RestrictU w) :
    matchRestrictEntry (h.modify p fun r => { r with flags := f r.flags }) pmatch =
      matchRestrictEntry h pmatch := by
  unfold matchRestrictEntry ResHeap.modify
  congr 1
  funext q
  by_cases hq : q = p
  · simp [hq]
  · simp [update_of_ne hq]

theorem hackList_flags_none (inc : Nat) (v : ResVars) (hm : matchRestrictEntry h pmatch = none) :
    hackList inc h v .flags pmatch = addRes inc h v pmatch := by
  simp only [hackList, hm]

theorem hackList_flags_some (inc : Nat) (v : ResVars) {q : Nat}
    (hm : matchRestrictEntry h pmatch = some q) :
    hackList inc h v .flags pmatch = addFlags h v q pmatch.flags := by
  simp only [hackList, hm]

theorem addFlags_self {q : Nat} {flags : BitVec 16}
    (hflags : (h.mem q).flags ||| flags = (h.mem q).flags) : (addFlags h v q flags).1 = h := by
  simp [addFlags, ResHeap.modify, hflags]

/-- An entry that is there already gets the flags of the template. -/
theorem addFlags_restores_iff (hw : ResWf h) (hpos : 0 < w) (inc : Nat) (v v' : ResVars)
    (addr : BitVec w) {q : Nat} (hq : q ∈ h.list) (flags : BitVec 16) :
    (hackList inc (addFlags h v q flags).1 v' .remove (farewellEntry addr)).1.entries =
        h.entries ↔
      matchRestrictEntry h (farewellEntry addr) = none ∧
        (h.mem q).flags ||| flags = (h.mem q).flags := by
  set h' := (addFlags h v q flags).1 with hh'
  have hw' : ResWf h' :=
    modify_wf (f := fun r => { r with flags := r.flags ||| flags }) hw q
      fun e => ⟨rfl, rfl, rfl, rfl⟩
  have hsearch : matchRestrictEntry h' (farewellEntry addr) =
      matchRestrictEntry h (farewellEntry addr) :=
    matchRestrictEntry_modify h q (· ||| flags) _
  have hlen : h'.entries.length = h.entries.length := by
    simp [hh', addFlags, ResHeap.modify, ResHeap.entries]
  rw [farewell_eq hw' hpos, hsearch]
  cases hm : matchRestrictEntry h (farewellEntry addr) with
  | some r =>
    have hr : r ∈ h'.list := (matchRestrictEntry_spec hm).1
    have hlen' := (entries_freeRes hw' v' hr).length_eq
    rw [length_cons] at hlen'
    simp only [reduceCtorEq, false_and, iff_false]
    intro heq
    rw [heq] at hlen'
    omega
  | none =>
    simp only [true_and]
    constructor
    · -- The lists are the same place by place, so also at the entry's place.
      intro heq
      have hat := map_inj_left.mp heq q hq
      have hflags := congrArg RestrictU.flags hat
      simpa [hh', addFlags, ResHeap.modify] using hflags
    · intro hflags
      rw [show h' = h from addFlags_self v hflags]

/-- An entry that is put in its place and taken out again. -/
theorem linkSortSlist_erase (before : Nat → Bool) {p : Nat} {xs : List Nat} (hp : p ∉ xs) :
    (linkSortSlist before p xs).erase p = xs := by
  induction xs with
  | nil => simp [linkSortSlist]
  | cons x xs ih =>
    rw [mem_cons, not_or] at hp
    simp only [linkSortSlist]
    split_ifs
    · rw [erase_cons_head]
    · rw [erase_cons_tail (by simpa using Ne.symm hp.1), ih hp.2]

/-- The entry has the key of the removal. -/
def RestrictU.farewellKey (addr : BitVec w) (e : RestrictU w) : Bool :=
  e.mflags = 0 && e.addr = addr &&& BitVec.allOnes w && e.mask = BitVec.allOnes w

theorem matchRestrictEntry_farewell (h : ResHeap w) (addr : BitVec w) :
    matchRestrictEntry h (farewellEntry addr) =
      h.list.find? fun p => (h.mem p).farewellKey addr := rfl

/-- A new entry under other match flags is not what the removal finds. -/
theorem addRes_shows (hw : ResWf h) (hpos : 0 < w) (hinc : 0 < inc) (v v' : ResVars)
    (addr : BitVec w) (hkey : pmatch.farewellKey addr = false) :
    (hackList inc (addRes inc h v pmatch).1 v' .remove (farewellEntry addr)).1.entries ≠
      h.entries := by
  set h' := (addRes inc h v pmatch).1
  have hw' : ResWf h' := addRes_wf hw hinc v pmatch
  have hperm : h'.entries.Perm (pmatch :: h.entries) := entries_addRes hw hinc v pmatch
  rw [farewell_eq hw' hpos]
  cases hm : matchRestrictEntry h' (farewellEntry addr) with
  | none =>
    intro heq
    have hlen := hperm.length_eq
    rw [length_cons, show h'.entries = h.entries from heq] at hlen
    omega
  | some q =>
    -- An old entry goes instead, and there were as many with its key as before.
    intro heq
    have hq : q ∈ h'.list := (matchRestrictEntry_spec hm).1
    have hqkey : (h'.mem q).farewellKey addr = true := by
      have hfound := List.find?_some hm
      exact hfound
    have hadded := hperm.countP_eq (RestrictU.farewellKey addr)
    have hfreed := (entries_freeRes hw' v' hq).countP_eq (RestrictU.farewellKey addr)
    rw [countP_cons_of_neg (by simp [hkey])] at hadded
    rw [countP_cons_of_pos hqkey, show (freeRes h' v' q).1.entries = h.entries from heq]
      at hfreed
    omega

/-- A new entry under the key of the removal is the one that the removal
    finds, and the list is as it was. -/
theorem addRes_farewell (hw : ResWf h) (hpos : 0 < w) (hinc : 0 < inc) (v v' : ResVars)
    (addr : BitVec w) (hkey : pmatch.farewellKey addr = true)
    (hnone : matchRestrictEntry h (farewellEntry addr) = none) :
    let h' := (hackList inc (addRes inc h v pmatch).1 v' .remove (farewellEntry addr)).1
    h'.list = h.list ∧ ∀ q ∈ h.list, h'.mem q = h.mem q := by
  intro h'
  have hw' : ResWf (addRes inc h v pmatch).1 := addRes_wf hw hinc v pmatch
  obtain ⟨p, hp, hmem, hlist⟩ := addRes_list hw hinc v pmatch
  have hne : ∀ q ∈ h.list, q ≠ p := fun q hq heq => hp (heq ▸ hq)
  have hfind : matchRestrictEntry (addRes inc h v pmatch).1 (farewellEntry addr) = some p := by
    rw [matchRestrictEntry_farewell, hlist, hmem]
    have hin : p ∈ linkSortSlist (fun cur => resSortsBefore pmatch
        (update h.mem p pmatch cur)) p h.list :=
      (linkSortSlist_perm _ _ _).mem_iff.mpr (by simp)
    cases hfound : List.find? (fun q => (update h.mem p pmatch q).farewellKey addr)
        (linkSortSlist (fun cur => resSortsBefore pmatch
          (update h.mem p pmatch cur)) p h.list) with
    | none =>
      have hmiss := List.find?_eq_none.mp hfound p hin
      simp [hkey] at hmiss
    | some q =>
      have hqkey := List.find?_some hfound
      have hqmem := (linkSortSlist_perm _ _ _).mem_iff.mp (mem_of_find?_eq_some hfound)
      rcases mem_cons.mp hqmem with rfl | hold
      · rfl
      · -- An old entry with the key would have been found before.
        rw [update_of_ne (hne q hold)] at hqkey
        exact absurd hqkey (List.find?_eq_none.mp hnone q hold)
  have hh' : h' = (freeRes (addRes inc h v pmatch).1 v' p).1 := by
    simp only [h', farewell_eq hw' hpos, hfind]
  rw [hh', freeRes_list, freeRes_mem, hlist, hmem]
  refine ⟨linkSortSlist_erase _ hp, ?_⟩
  intro q hq
  rw [update_of_ne (hne q hq), update_of_ne (hne q hq)]

/-! ### Both calls -/

/-- No host entry of the address that does not expire is removed or changed. -/
def ResHeap.keepsHosts (h h' : ResHeap w) (addr : BitVec w) : Prop :=
  ∀ p ∈ h.list, (h.mem p).addr = addr → (h.mem p).mask = BitVec.allOnes w →
    (h.mem p).expire = 0 → p ∈ h'.list ∧ h'.mem p = h.mem p

theorem keepsHosts_self (h : ResHeap w) (addr : BitVec w) : h.keepsHosts h addr :=
  fun _ hp _ _ _ => ⟨hp, rfl⟩

/-- The two calls leave no trace on the list: the host has no entry with match flags zero; the first
    entry on the way that has expired or is for the host has not expired, and does not expire if it
    is a host entry; and unless it is a host entry, the template has no match flags, or the host has
    an entry with those of the template that has all its flags. -/
def ResHeap.sourceClean (h : ResHeap w) (v : ResVars) (current_time : Nat) (addr : BitVec w)
    (port : Nat) : Prop :=
  matchRestrictEntry h (farewellEntry addr) = none ∧
    ∀ p ∈ firstHit h current_time addr port, ¬sourceFrees (h.mem p) current_time 0 ∧
      ((h.mem p).mask = BitVec.allOnes w ∨
        match matchRestrictEntry h (sourceEntry v addr 0) with
        | none => v.restrict_source_mflags = 0
        | some q => (h.mem q).flags ||| v.restrict_source_flags = (h.mem q).flags)

theorem sourceEntry_farewellKey (addr : BitVec w) :
    (sourceEntry v addr 0).farewellKey addr = true ↔ v.restrict_source_mflags = 0 := by
  simp [RestrictU.farewellKey, sourceEntry]

theorem source_restores_iff (hw : ResWf h) (hpos : 0 < w) (hinc : 0 < inc) (insist : Bool)
    (v : ResVars) (current_time : Nat) (addr : BitVec w) (port : Nat) :
    let r := sourceList inc insist h v current_time addr port 0
    (hackList inc r.1 r.2 .remove (farewellEntry addr)).1.entries = h.entries ↔
      h.sourceClean v current_time addr port := by
  intro r
  obtain ⟨p, -, hfirst, -⟩ := matchLoop_eq insist current_time addr port hw v
  unfold ResHeap.sourceClean
  simp only [hfirst, mem_def, some.injEq, forall_eq']
  by_cases hfrees : sourceFrees (h.mem p) current_time 0
  · have hshows := sourceFrees_shows hw hinc insist v hfirst hfrees
    simp only [hfrees, not_true_eq_false, false_and, and_false, iff_false]
    exact hshows
  · have hr : r = _ := sourceList_eq hw inc insist v hfirst hfrees
    rw [hr]
    simp only [hfrees, not_false_eq_true, true_and]
    by_cases hmask : (h.mem p).mask = BitVec.allOnes w
    · simp only [hmask, if_true, true_or, and_true]
      exact farewell_restores_iff hw hpos inc v addr
    · simp only [hmask, if_false, false_or]
      cases hm : matchRestrictEntry h (sourceEntry v addr 0) with
      | some q =>
        have hq := (matchRestrictEntry_spec hm).1
        rw [hackList_flags_some inc v hm]
        exact addFlags_restores_iff hw hpos inc v _ addr hq _
      | none =>
        rw [hackList_flags_none inc v hm]
        constructor
        · intro heq
          have hzero : v.restrict_source_mflags = 0 := by
            by_contra hne
            rw [← sourceEntry_farewellKey v addr, Bool.not_eq_true] at hne
            exact addRes_shows hw hpos hinc v _ addr hne heq
          refine ⟨?_, hzero⟩
          have hsame : sourceEntry v addr 0 =
              { farewellEntry addr with flags := v.restrict_source_flags } := by
            simp [sourceEntry, farewellEntry, hzero]
          rw [hsame] at hm
          exact hm
        · rintro ⟨hnone, hzero⟩
          obtain ⟨hlist, hmem⟩ := addRes_farewell hw hpos hinc v (addRes inc h v
            (sourceEntry v addr 0)).2 addr ((sourceEntry_farewellKey v addr).mpr hzero) hnone
          unfold ResHeap.entries
          rw [hlist]
          exact map_congr_left hmem

/-- If the list is clean, neither call touches a host entry that was there. -/
theorem source_keepsHosts (hw : ResWf h) (hpos : 0 < w) (hinc : 0 < inc) (insist : Bool)
    (v : ResVars) {port : Nat} (hclean : h.sourceClean v current_time addr port) :
    let r := sourceList inc insist h v current_time addr port 0
    h.keepsHosts r.1 addr ∧
      h.keepsHosts (hackList inc r.1 r.2 .remove (farewellEntry addr)).1 addr := by
  intro r
  obtain ⟨p, -, hfirst, -⟩ := matchLoop_eq insist current_time addr port hw v
  obtain ⟨hnone, hhit⟩ := hclean
  obtain ⟨hfrees, hrest⟩ := hhit p hfirst
  have hr : r = _ := sourceList_eq hw inc insist v hfirst hfrees
  -- The removal finds nothing in the list as it was.
  have hstays (v' : ResVars) :
      (hackList inc h v' .remove (farewellEntry addr)).1 = h := by
    rw [farewell_eq hw hpos, hnone]
  by_cases hmask : (h.mem p).mask = BitVec.allOnes w
  · rw [hr, if_pos hmask, hstays]
    exact ⟨keepsHosts_self h addr, keepsHosts_self h addr⟩
  · rw [or_iff_right hmask] at hrest
    rw [hr, if_neg hmask]
    cases hm : matchRestrictEntry h (sourceEntry v addr 0) with
    | some q =>
      rw [hm] at hrest
      have hsame : (addFlags h v q (sourceEntry v addr 0).flags).1 = h := addFlags_self v hrest
      rw [hackList_flags_some inc v hm, hsame, hstays]
      exact ⟨keepsHosts_self h addr, keepsHosts_self h addr⟩
    | none =>
      rw [hm] at hrest
      rw [hackList_flags_none inc v hm]
      obtain ⟨q, hq, hmem, hlist⟩ := addRes_list hw hinc v (sourceEntry v addr 0)
      obtain ⟨hlist', hmem'⟩ := addRes_farewell hw hpos hinc v (addRes inc h v
        (sourceEntry v addr 0)).2 addr ((sourceEntry_farewellKey v addr).mpr hrest) hnone
      constructor
      · intro x hx _ _ _
        rw [hlist, hmem]
        have hne : x ≠ q := fun heq => hq (heq ▸ hx)
        exact ⟨(linkSortSlist_perm _ _ _).mem_iff.mpr (mem_cons_of_mem q hx), update_of_ne hne _ _⟩
      · intro x hx _ _ _
        rw [hlist']
        exact ⟨hx, hmem' x hx⟩

/-- Both calls leave no trace exactly if the list is clean. -/
theorem source_noTrace_iff (hw : ResWf h) (hpos : 0 < w) (hinc : 0 < inc) (insist : Bool)
    (v : ResVars) (current_time : Nat) (addr : BitVec w) (port : Nat) :
    let r := sourceList inc insist h v current_time addr port 0
    let h' := (hackList inc r.1 r.2 .remove (farewellEntry addr)).1
    (h'.entries = h.entries ∧ h.keepsHosts r.1 addr ∧ h.keepsHosts h' addr) ↔
      h.sourceClean v current_time addr port := by
  have hiff := source_restores_iff hw hpos hinc insist v current_time addr port
  constructor
  · rintro ⟨hentries, -, -⟩
    exact hiff.mp hentries
  · intro hclean
    exact ⟨hiff.mpr hclean, source_keepsHosts hw hpos hinc insist v hclean⟩

end

/-! ### The template -/

@[simp] theorem incResLimited_enabled (v : ResVars) :
    (incResLimited v).restrict_source_enabled = v.restrict_source_enabled := by
  unfold incResLimited monStart
  split_ifs <;> rfl

@[simp] theorem decResLimited_enabled (v : ResVars) :
    (decResLimited v).restrict_source_enabled = v.restrict_source_enabled := by
  unfold decResLimited monStop
  simp only
  split_ifs <;> rfl

section

variable {w : Nat}

@[simp] theorem freeRes_enabled (h : ResHeap w) (v : ResVars) (p : Nat) :
    (freeRes h v p).2.restrict_source_enabled = v.restrict_source_enabled := by
  unfold freeRes
  split_ifs <;> simp

theorem hackList_enabled (inc : Nat) (h : ResHeap w) (v : ResVars) (op : RestrictOp)
    (pmatch : RestrictU w) :
    (hackList inc h v op pmatch).2.restrict_source_enabled = v.restrict_source_enabled := by
  unfold hackList addRes addFlags removeFlags
  split <;> (try simp only) <;> (try split_ifs) <;> simp

theorem sourceList_enabled {h : ResHeap w} (hw : ResWf h) (inc : Nat) (insist : Bool)
    (v : ResVars) (current_time : Nat) (addr : BitVec w) (port expire : Nat) :
    (sourceList inc insist h v current_time addr port expire).2.restrict_source_enabled =
      v.restrict_source_enabled := by
  obtain ⟨p, r, -, -, hr, hcases⟩ := sourceList_cases hw inc insist v current_time addr port expire
  have henabled : r.2.restrict_source_enabled = v.restrict_source_enabled := by
    rw [hr]
    split_ifs <;> simp
  rcases hcases with heq | heq
  · rw [heq, henabled]
  · rw [heq, hackList_enabled, henabled]

end

/-! ### Both families -/

theorem restrictSource_enabled {s : RestrictSys} (hwf : RestrictWf s) (addr : ResAddr)
    (farewell : Bool) (expire : Nat) :
    (restrictSource s addr farewell expire).vars.restrict_source_enabled =
      s.vars.restrict_source_enabled := by
  unfold restrictSource
  split_ifs
  · rfl
  · cases addr with
    | v4 a port | v6 a port => exact hackList_enabled _ _ _ _ _
  · cases addr with
    | v4 a port => exact sourceList_enabled hwf.v4 _ _ _ _ _ _ _
    | v6 a port => exact sourceList_enabled hwf.v6 _ _ _ _ _ _ _

/-- No host entry of the address that does not expire is removed or changed. -/
def KeepsHosts (s s' : RestrictSys) : ResAddr → Prop
  | .v4 addr _ => s.v4.keepsHosts s'.v4 addr
  | .v6 addr _ => s.v6.keepsHosts s'.v6 addr

/-- The lists `s`, with the entry of an association added (`s1`) and removed
    again (`s2`): the entries are the same in the end, and no host entry of the
    address was removed or changed by either call. -/
structure NoTrace (s s1 s2 : RestrictSys) (addr : ResAddr) : Prop where
  v4 : s2.v4.entries = s.v4.entries
  v6 : s2.v6.entries = s.v6.entries
  added : KeepsHosts s s1 addr
  removed : KeepsHosts s s2 addr

/-- There is no template for the address, or its list is clean. -/
def SourceClean (s : RestrictSys) (addr : ResAddr) : Prop :=
  sourceSkips s addr = true ∨
    match addr with
    | .v4 a port => s.v4.sourceClean s.vars s.current_time a port
    | .v6 a port => s.v6.sourceClean s.vars s.current_time a port

theorem restrictSource_skips {s : RestrictSys} {addr : ResAddr}
    (hskip : sourceSkips s addr = true) (farewell : Bool) (expire : Nat) :
    restrictSource s addr farewell expire = s := by
  unfold sourceSkips at hskip
  unfold restrictSource
  rw [if_pos hskip]

theorem keepsHosts_refl (s : RestrictSys) (addr : ResAddr) : KeepsHosts s s addr := by
  cases addr with
  | v4 a port => exact keepsHosts_self s.v4 a
  | v6 a port => exact keepsHosts_self s.v6 a

/-- Mobilising an association and demobilising it later leaves no trace on the restrict lists
    exactly if the list of the address is clean before. This holds for all lists that can be built,
    all templates, addresses and times between the two. -/
theorem restrictSource_noTrace_iff (es : List RestrictEvent) (addr : ResAddr) (seconds : Nat) :
    let s := Run.exec restrictStep {} es
    let s1 := restrictSource s addr false 0
    let s2 := restrictSource (restrictStep s1 (.pass seconds)) addr true 0
    NoTrace s s1 s2 addr ↔ SourceClean s addr := by
  intro s s1 s2
  have hwf : RestrictWf s := exec_restrictWf es
  unfold SourceClean
  by_cases hskip : sourceSkips s addr = true
  · have hs1 : s1 = s := restrictSource_skips hskip false 0
    have hs2 : s2 = restrictStep s (.pass seconds) := by
      simp only [s2, hs1]
      exact restrictSource_skips (s := restrictStep s (.pass seconds)) hskip true 0
    rw [hs1, hs2]
    simp only [hskip, true_or, iff_true]
    exact ⟨rfl, rfl, keepsHosts_refl s addr, keepsHosts_refl s addr⟩
  · rw [or_iff_right hskip]
    -- The template is still there when the association goes.
    have hskip' : ¬sourceSkips (restrictStep s1 (.pass seconds)) addr = true := by
      have henabled : (restrictStep s1 (.pass seconds)).vars.restrict_source_enabled =
          s.vars.restrict_source_enabled := restrictSource_enabled hwf addr false 0
      unfold sourceSkips at hskip ⊢
      rw [henabled]
      exact hskip
    unfold sourceSkips at hskip hskip'
    have hs2 : s2 = hackRestrict (restrictStep s1 (.pass seconds)) .remove addr.host 0 0 0 := by
      simp only [s2, restrictSource, if_neg hskip', if_true]
    rw [hs2]
    cases addr with
    | v4 a port =>
      have hiff := source_noTrace_iff hwf.v4 (by decide) (by decide : 0 < INC_RESLIST4) false
        s.vars s.current_time a port
      have hs1 : s1 = _ := if_neg hskip
      rw [hs1]
      refine Iff.trans ?_ hiff
      exact ⟨fun ht => ⟨ht.v4, ht.added, ht.removed⟩, fun ht => ⟨ht.1, rfl, ht.2.1, ht.2.2⟩⟩
    | v6 a port =>
      have hiff := source_noTrace_iff hwf.v6 (by decide) (by decide : 0 < INC_RESLIST6) true
        s.vars s.current_time a port
      have hs1 : s1 = _ := if_neg hskip
      rw [hs1]
      refine Iff.trans ?_ hiff
      exact ⟨fun ht => ⟨ht.v6, ht.added, ht.removed⟩, fun ht => ⟨rfl, ht.1, ht.2.1, ht.2.2⟩⟩

def RES_NOMODIFY : BitVec 16 := 0x0080

/-- `restrict source nomodify`. -/
def sourceTemplate : RestrictEvent := .hack .flags .source RESM_SOURCE RES_NOMODIFY 0

/-- With the template as the configuration sets it, an association with 192.0.2.1 comes and goes,
    and its entry stays. If there is `restrict 192.0.2.1 nomodify` besides, the association adds
    nothing, and that entry goes with it. -/
theorem restrictSource_trace :
    (let s := Run.exec restrictStep {} [sourceTemplate]
     let s1 := restrictSource s (.v4 0xc0000201 123) false 0
     let s2 := restrictSource s1 (.v4 0xc0000201 123) true 0
     s.v4.list = [0] ∧ s2.v4.entries = sourceEntry s.vars 0xc0000201 0 :: s.v4.entries) ∧
    let s := Run.exec restrictStep {}
      [sourceTemplate, .hack .flags (.v4 0xc0000201 0xffffffff) 0 RES_NOMODIFY 0]
    let s1 := restrictSource s (.v4 0xc0000201 123) false 0
    let s2 := restrictSource s1 (.v4 0xc0000201 123) true 0
    s.v4.list = [1, 0] ∧ s1.v4.list = [1, 0] ∧ s2.v4.list = [0] := by
  decide

end NtpSuite
