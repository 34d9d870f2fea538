import NtpSuite.Lib.Cidr
import NtpSuite.Theory.RestrictList

/-!
# Longest Match

A lookup takes the first entry for the source. The list is sorted by
descending address, then mask, then match flags, and with masks that are
prefixes the first entry for a source is the one with the longest.

`RestrictU.key` is what the entries are sorted by. The keys on a list are
strictly descending, so no two entries have the same one, and the default
entry, whose key is zero, is the last. Of two entries for the same source the
one with the longer mask has the larger key, as `Lib.Cidr` shows; so the first
of them has the longest.

Sources with a multicast address are not looked up: for those `restrictions`
returns `RES_IGNORE`.

## Main definitions

* `RestrictU.key`: What the entries are sorted by.
* `Prefixed`: The list is sorted, its masks are prefixes and nothing expires.
* `Longest`: The entry with the longest match.
* `PrefixOnly`: The step adds no other mask and nothing that expires.

## Theorems

* `linkSortSlist_pairwise`: A new entry is linked in its place.
* `hackList_prefixed`: The operations keep the list sorted.
* `firstHit_longest`: The first entry for a source is the one with the longest
  match.
* `restrictions_longest`: So after every run.
-/

namespace NtpSuite

open Function (update update_self update_of_ne)
open List BitVec Bool

section

variable {w : Nat}

/-- What the entries are sorted by. -/
def RestrictU.key (r : RestrictU w) : ℕ ×ₗ ℕ ×ₗ ℕ :=
  toLex (r.addr.toNat, toLex (r.mask.toNat, r.mflags.toNat))

theorem RestrictU.key_lt (r1 r2 : RestrictU w) :
    r1.key < r2.key ↔ r1.addr.toNat < r2.addr.toNat ∨ r1.addr.toNat = r2.addr.toNat ∧
      (r1.mask.toNat < r2.mask.toNat ∨
        r1.mask.toNat = r2.mask.toNat ∧ r1.mflags.toNat < r2.mflags.toNat) := by
  unfold RestrictU.key
  rw [Prod.Lex.toLex_lt_toLex, Prod.Lex.toLex_lt_toLex]

/-- Sorting before another entry is having the larger key. -/
theorem resSortsBefore_iff (r1 r2 : RestrictU w) :
    resSortsBefore r1 r2 = true ↔ r2.key < r1.key := by
  rw [RestrictU.key_lt]
  unfold resSortsBefore
  simp only [lt_def]
  split_ifs <;> simp <;> omega

theorem linkSortSlist_pairwise {r : Nat → Nat → Prop} (htrans : ∀ a b c, r a b → r b c → r a c)
    {before : Nat → Bool} {p : Nat} {xs : List Nat} (hxs : xs.Pairwise r)
    (hbefore : ∀ x ∈ xs, before x = true → r p x) (hafter : ∀ x ∈ xs, before x = false → r x p) :
    (linkSortSlist before p xs).Pairwise r := by
  induction xs with
  | nil => simp [linkSortSlist]
  | cons x xs ih =>
    rw [pairwise_cons] at hxs
    simp only [linkSortSlist]
    split_ifs with hx
    · -- It comes before the first, so before all.
      have hpx : r p x := hbefore x (by simp) hx
      refine pairwise_cons.mpr ⟨?_, pairwise_cons.mpr hxs⟩
      intro y hy
      rcases mem_cons.mp hy with rfl | hy
      · exact hpx
      · exact htrans p x y hpx (hxs.1 y hy)
    · rw [not_eq_true] at hx
      refine pairwise_cons.mpr ⟨?_, ih hxs.2 (fun y hy => hbefore y (by simp [hy]))
        (fun y hy => hafter y (by simp [hy]))⟩
      intro y hy
      rcases mem_cons.mp ((linkSortSlist_perm before p xs).mem_iff.mp hy) with rfl | hy
      · exact hafter x (by simp) hx
      · exact hxs.1 y hy

/-- The list is sorted, its masks are prefixes and nothing expires. -/
structure Prefixed (h : ResHeap w) : Prop where
  wf : ResWf h
  sorted : h.list.Pairwise fun p q => (h.mem q).key < (h.mem p).key
  masks : ∀ p ∈ h.list, Cidr.IsMask (h.mem p).mask
  forever : ∀ p ∈ h.list, (h.mem p).expire = 0

theorem prefixed_start (w : Nat) : Prefixed ({} : ResHeap w) where
  wf := resWf_start w
  sorted := by simp
  masks := fun _ _ => Cidr.isMask_zero
  forever := by simp

variable {h : ResHeap w}

section

variable (hp : Prefixed h)

include hp

theorem Prefixed.getLast : h.list.getLast? = some 0 := by
  obtain ⟨as, bs, hlist⟩ := append_of_mem hp.wf.listed
  have hsorted := hp.sorted
  rw [hlist, pairwise_append, pairwise_cons] at hsorted
  cases bs with
  | nil =>
    rw [hlist]
    simp
  | cons b bs =>
    -- There is no smaller key.
    have hlt := hsorted.2.1.1 b (by simp)
    rw [RestrictU.key_lt, hp.wf.addr, hp.wf.mask, hp.wf.mflags] at hlt
    simp at hlt

theorem Prefixed.sublist {h' : ResHeap w} (hwf : ResWf h') (hlist : h'.list.Sublist h.list)
    (hsame : ∀ p ∈ h'.list, (h'.mem p).key = (h.mem p).key ∧
      (h'.mem p).mask = (h.mem p).mask ∧ (h'.mem p).expire = (h.mem p).expire) :
    Prefixed h' where
  wf := hwf
  sorted := by
    refine (hp.sorted.sublist hlist).imp_of_mem ?_
    intro p q hpm hqm hlt
    rw [(hsame p hpm).1, (hsame q hqm).1]
    exact hlt
  masks := by
    intro p hpm
    rw [(hsame p hpm).2.1]
    exact hp.masks p (hlist.mem hpm)
  forever := by
    intro p hpm
    rw [(hsame p hpm).2.2]
    exact hp.forever p (hlist.mem hpm)

theorem freeRes_prefixed (v : ResVars) {p : Nat} (hmem : p ∈ h.list) (hne : p ≠ 0) :
    Prefixed (freeRes h v p).1 := by
  refine hp.sublist (freeRes_wf hp.wf v hmem hne) erase_sublist ?_
  intro q hq
  have hqp : q ≠ p := ((hp.wf.list_nodup.mem_erase_iff).mp hq).1
  rw [freeRes_mem, update_of_ne hqp]
  exact ⟨rfl, rfl, rfl⟩

theorem modify_prefixed (p : Nat) {f : RestrictU w → RestrictU w}
    (hf : ∀ e, (f e).addr = e.addr ∧ (f e).mask = e.mask ∧ (f e).mflags = e.mflags ∧
      (f e).expire = e.expire) : Prefixed (h.modify p f) := by
  refine hp.sublist (modify_wf hp.wf p hf) (List.Sublist.refl _) ?_
  intro q _
  unfold ResHeap.modify
  simp only
  by_cases hq : q = p
  · obtain ⟨haddr, hmask, hmflags, hexpire⟩ := hf (h.mem p)
    rw [hq, update_self]
    refine ⟨?_, hmask, hexpire⟩
    unfold RestrictU.key
    rw [haddr, hmask, hmflags]
  · rw [update_of_ne hq]
    exact ⟨rfl, rfl, rfl⟩

theorem addRes_prefixed {inc : Nat} (hinc : 0 < inc) (v : ResVars)
    {pmatch : RestrictU w} (hmask : Cidr.IsMask pmatch.mask) (hexpire : pmatch.expire = 0)
    (hnone : matchRestrictEntry h pmatch = none) : Prefixed (addRes inc h v pmatch).1 := by
  obtain ⟨p, hnew, hmem, hlist⟩ := addRes_list hp.wf hinc v pmatch
  have hold : ∀ q ∈ h.list, update h.mem p pmatch q = h.mem q := Chained.update_off hnew
  have hcases : ∀ q ∈ (addRes inc h v pmatch).1.list,
      q = p ∧ (addRes inc h v pmatch).1.mem q = pmatch ∨
        q ∈ h.list ∧ (addRes inc h v pmatch).1.mem q = h.mem q := by
    intro q hq
    rw [hlist] at hq
    rw [hmem]
    rcases mem_cons.mp ((linkSortSlist_perm _ p h.list).mem_iff.mp hq) with rfl | hq
    · exact .inl ⟨rfl, update_self ..⟩
    · exact .inr ⟨hq, hold q hq⟩
  refine ⟨addRes_wf hp.wf hinc v pmatch, ?_, ?_, ?_⟩
  · rw [hlist, hmem]
    apply linkSortSlist_pairwise
    · intro a b c hab hbc
      exact lt_trans hbc hab
    · refine hp.sorted.imp_of_mem ?_
      intro a b ha hb hlt
      rw [hold a ha, hold b hb]
      exact hlt
    · intro q hq hbefore
      rw [update_self]
      exact (resSortsBefore_iff _ _).mp hbefore
    · intro q hq hafter
      rw [hold q hq, ← not_eq_true, resSortsBefore_iff, not_lt] at hafter
      rw [hold q hq, update_self]
      refine lt_of_le_of_ne hafter fun heq => ?_
      -- An entry with the same key would have been found.
      unfold RestrictU.key at heq
      simp only [toLex_inj, Prod.mk.injEq] at heq
      exact matchRestrictEntry_none hnone hq (eq_of_toNat_eq heq.1).symm
        (eq_of_toNat_eq heq.2.1).symm (eq_of_toNat_eq heq.2.2).symm
  · intro q hq
    rcases hcases q hq with ⟨-, heq⟩ | ⟨hin, heq⟩
    · rw [heq]
      exact hmask
    · rw [heq]
      exact hp.masks q hin
  · intro q hq
    rcases hcases q hq with ⟨-, heq⟩ | ⟨hin, heq⟩
    · rw [heq]
      exact hexpire
    · rw [heq]
      exact hp.forever q hin

theorem hackList_prefixed {inc : Nat} (hinc : 0 < inc) (v : ResVars)
    (op : RestrictOp) {pmatch : RestrictU w} (hmask : Cidr.IsMask pmatch.mask)
    (hexpire : pmatch.expire = 0) : Prefixed (hackList inc h v op pmatch).1 := by
  rcases hackList_cases inc h v op pmatch with
    heq | ⟨hnone, heq⟩ | ⟨p, f, heq⟩ | ⟨p, hmem, hne, heq⟩
  · rw [heq]
    exact hp
  · rw [heq]
    exact addRes_prefixed hp hinc v hmask hexpire hnone
  · rw [heq]
    exact modify_prefixed (f := fun r => { r with flags := f r.flags }) hp p
      fun e => ⟨rfl, rfl, rfl, rfl⟩
  · rw [heq]
    exact freeRes_prefixed hp v hmem hne

theorem Prefixed.expired {p : Nat} (hmem : p ∈ h.list) (current_time : Nat) :
    (h.mem p).expired current_time = false := by
  unfold RestrictU.expired
  simp [hp.forever p hmem]

theorem matchLoop_prefixed (insist : Bool) (v : ResVars) (current_time : Nat)
    (addr : BitVec w) (port : Nat) :
    ∃ p ∈ h.list, firstHit h current_time addr port = some p ∧
      matchLoop insist current_time addr port h.list h v = ((h, v), some p) := by
  obtain ⟨p, hmem, hfirst, heq⟩ := matchLoop_eq insist current_time addr port hp.wf v
  rw [if_neg (by simp [hp.expired hmem])] at heq
  exact ⟨p, hmem, hfirst, heq⟩

theorem lookup_prefixed (insist : Bool) (v : ResVars) (current_time : Nat)
    (addr : BitVec w) (port : Nat) :
    Prefixed (countMatch (matchLoop insist current_time addr port h.list h v)).1.1 := by
  obtain ⟨p, -, -, heq⟩ := matchLoop_prefixed hp insist v current_time addr port
  rw [heq]
  exact modify_prefixed (f := fun e => { e with count := e.count + 1 }) hp p
    fun e => ⟨rfl, rfl, rfl, rfl⟩

theorem sourceList_prefixed {inc : Nat} (hinc : 0 < inc) (insist : Bool)
    (v : ResVars) (current_time : Nat) (addr : BitVec w) (port : Nat) :
    Prefixed (sourceList inc insist h v current_time addr port 0).1 := by
  obtain ⟨p, r, hmem, -, hr, hcases⟩ :=
    sourceList_cases hp.wf inc insist v current_time addr port 0
  have hno : ¬ sourceFrees (h.mem p) current_time 0 :=
    fun hfrees => hfrees.expire_ne_zero (hp.forever p hmem)
  rw [if_neg hno] at hr
  subst hr
  rcases hcases with heq | heq
  · rw [heq]
    exact hp
  · rw [heq]
    exact hackList_prefixed hp hinc _ _ Cidr.isMask_allOnes rfl

end

/-! ### The first entry for a source -/

/-- The entry with the longest match. At equal length an entry that is only for the NTP port is
    preferred, except to the entries that come from `restrict source`. -/
structure Longest (h : ResHeap w) (addr : BitVec w) (port p : Nat) : Prop where
  listed : p ∈ h.list
  hits : (h.mem p).hits addr port = true
  longest : ∀ q ∈ h.list, (h.mem q).hits addr port = true →
    Cidr.length (h.mem q).mask ≤ Cidr.length (h.mem p).mask
  mflags : ∀ q ∈ h.list, (h.mem q).hits addr port = true →
    Cidr.length (h.mem q).mask = Cidr.length (h.mem p).mask → (h.mem q).mflags ≤ (h.mem p).mflags
  ntponly : ∀ q ∈ h.list, (h.mem q).hits addr port = true →
    Cidr.length (h.mem q).mask = Cidr.length (h.mem p).mask →
    RESM_NTPONLY &&& (h.mem q).mflags ≠ 0 → RESM_NTPONLY &&& (h.mem p).mflags = 0 →
    RESM_SOURCE ≤ (h.mem p).mflags

/-- Of two entries for a source, the one with the larger key has the longer
    mask, or the larger match flags. -/
theorem length_le_of_key_le {e f : RestrictU w} (he : Cidr.IsMask e.mask)
    (hf : Cidr.IsMask f.mask) {addr : BitVec w} {port : Nat} (hehits : e.hits addr port = true)
    (hfhits : f.hits addr port = true) (hkey : f.key ≤ e.key) :
    Cidr.length f.mask ≤ Cidr.length e.mask ∧
      (Cidr.length f.mask = Cidr.length e.mask → f.mflags ≤ e.mflags) := by
  unfold RestrictU.hits at hehits hfhits
  simp only [and_eq_true, decide_eq_true_eq] at hehits hfhits
  rw [← not_lt, RestrictU.key_lt, hehits.1, hfhits.1] at hkey
  constructor
  · by_contra hlen
    rw [not_le] at hlen
    have hmask := Cidr.lt_of_length_lt he hf hlen
    have haddr := Cidr.and_le_and_of_length_lt he hf hlen addr
    omega
  · intro hlen
    have hmask := Cidr.eq_of_length_eq hf he hlen
    rw [hmask] at hkey
    rw [le_def]
    omega

theorem ntponly_iff (m : BitVec 16) : RESM_NTPONLY &&& m ≠ 0 ↔ m.toNat / 0x2000 % 2 = 1 := by
  have hbit : RESM_NTPONLY = BitVec.twoPow 16 13 := by decide
  have htest : m.getLsbD 13 = decide (m.toNat / 0x2000 % 2 = 1) :=
    Nat.testBit_eq_decide_div_mod_eq
  rw [hbit, BitVec.and_comm, BitVec.and_twoPow, htest]
  by_cases h : m.toNat / 0x2000 % 2 = 1
  · simp [h]
    decide
  · simp [h]

/-- Match flags below those of `restrict source` that are no smaller than ones
    for the NTP port are for the NTP port too. -/
theorem ntponly_of_le {m n : BitVec 16} (hm : RESM_NTPONLY &&& m ≠ 0) (hle : m ≤ n)
    (hn : n < RESM_SOURCE) : RESM_NTPONLY &&& n ≠ 0 := by
  rw [ntponly_iff] at hm ⊢
  rw [le_def] at hle
  rw [lt_def, show RESM_SOURCE.toNat = 0x4000 from rfl] at hn
  omega

theorem firstHit_longest (hp : Prefixed h) {current_time : Nat} {addr : BitVec w} {port p : Nat}
    (hfirst : firstHit h current_time addr port = some p) : Longest h addr port p := by
  obtain ⟨hhit, as, bs, hlist, has⟩ := List.find?_eq_some_iff_append.mp hfirst
  have hmem : p ∈ h.list := by simp [hlist]
  rw [hp.expired hmem] at hhit
  -- The other entries for the source come later.
  have hbest : ∀ q ∈ h.list, (h.mem q).hits addr port = true →
      Cidr.length (h.mem q).mask ≤ Cidr.length (h.mem p).mask ∧
        (Cidr.length (h.mem q).mask = Cidr.length (h.mem p).mask →
          (h.mem q).mflags ≤ (h.mem p).mflags) := by
    intro q hq hqhits
    refine length_le_of_key_le (hp.masks p hmem) (hp.masks q hq) hhit hqhits ?_
    have hsorted := hp.sorted
    rw [hlist, pairwise_append, pairwise_cons] at hsorted
    rw [hlist, mem_append, mem_cons] at hq
    rcases hq with hq | rfl | hq
    · have hno := has q hq
      simp [hqhits] at hno
    · exact le_refl _
    · exact le_of_lt (hsorted.2.1.1 q hq)
  refine ⟨hmem, hhit, fun q hq hqhits => (hbest q hq hqhits).1,
    fun q hq hqhits => (hbest q hq hqhits).2, ?_⟩
  intro q hq hqhits hlen hqntp hpntp
  by_contra hsource
  rw [BitVec.not_le] at hsource
  exact ntponly_of_le hqntp ((hbest q hq hqhits).2 hlen) hsource hpntp

theorem lookup_longest (hp : Prefixed h) (insist : Bool) (v : ResVars) (current_time : Nat)
    (addr : BitVec w) (port : Nat) :
    ∃ p, Longest h addr port p ∧
      (countMatch (matchLoop insist current_time addr port h.list h v)).2 =
        ((h.mem p).flags, some p) ∧
      (countMatch (matchLoop insist current_time addr port h.list h v)).1.2.aborted =
        v.aborted := by
  obtain ⟨p, hmem, hfirst, heq⟩ := matchLoop_prefixed hp insist v current_time addr port
  refine ⟨p, firstHit_longest hp hfirst, ?_, ?_⟩
  · rw [(countMatch_eq hp.wf insist v hfirst).1, if_neg (by simp [hp.expired hmem])]
  · rw [heq]
    unfold countMatch
    simp only
    split_ifs
    · rfl
    · rfl

/-- The keys are strictly descending, and the all-zero default entry is the last. -/
structure InOrder (h : ResHeap w) : Prop where
  sorted : h.list.Pairwise fun p q => (h.mem q).key < (h.mem p).key
  last : h.list.getLast? = some 0
  zero : (h.mem 0).addr = 0 ∧ (h.mem 0).mask = 0 ∧ (h.mem 0).mflags = 0

theorem Prefixed.inOrder (hp : Prefixed h) : InOrder h :=
  ⟨hp.sorted, hp.getLast, hp.wf.addr, hp.wf.mask, hp.wf.mflags⟩

end

/-! ### Both families -/

/-- The step adds no other mask and nothing that expires. -/
def PrefixOnly : RestrictEvent → Prop
  | .hack _ .source _ _ _ => True
  | .hack _ (.v4 _ mask) _ _ expire => Cidr.IsMask mask ∧ expire = 0
  | .hack _ (.v6 _ mask) _ _ expire => Cidr.IsMask mask ∧ expire = 0
  | .source _ farewell expire => farewell = true ∨ expire = 0
  | .lookup _ => True
  | .pass _ => True
  | .monitor _ => True

instance : (e : RestrictEvent) → Decidable (PrefixOnly e)
  | .hack _ .source _ _ _ => inferInstanceAs (Decidable True)
  | .hack _ (.v4 _ _) _ _ _ => inferInstanceAs (Decidable (_ ∧ _))
  | .hack _ (.v6 _ _) _ _ _ => inferInstanceAs (Decidable (_ ∧ _))
  | .source _ _ _ => inferInstanceAs (Decidable (_ ∨ _))
  | .lookup _ => inferInstanceAs (Decidable True)
  | .pass _ => inferInstanceAs (Decidable True)
  | .monitor _ => inferInstanceAs (Decidable True)

/-- Both lists are sorted. -/
structure RestrictPrefixed (s : RestrictSys) : Prop where
  v4 : Prefixed s.v4
  v6 : Prefixed s.v6

variable {s : RestrictSys}

theorem hackRestrict_prefixed (h : RestrictPrefixed s) (op : RestrictOp) (spec : ResSpec)
    (mflags flags : BitVec 16) (expire : Nat)
    (honly : PrefixOnly (.hack op spec mflags flags expire)) :
    RestrictPrefixed (hackRestrict s op spec mflags flags expire) := by
  unfold hackRestrict
  cases spec with
  | source =>
    split_ifs
    · exact ⟨h.v4, h.v6⟩
    · exact ⟨h.v4, h.v6⟩
  | v4 addr mask => exact ⟨hackList_prefixed h.v4 (by decide) _ _ honly.1 honly.2, h.v6⟩
  | v6 addr mask => exact ⟨h.v4, hackList_prefixed h.v6 (by decide) _ _ honly.1 honly.2⟩

theorem restrictSource_prefixed (h : RestrictPrefixed s) (addr : ResAddr) (farewell : Bool)
    (expire : Nat) (honly : PrefixOnly (.source addr farewell expire)) :
    RestrictPrefixed (restrictSource s addr farewell expire) := by
  unfold restrictSource
  split_ifs with hskip hfar
  · exact h
  · apply hackRestrict_prefixed h
    cases addr with
    | v4 a port | v6 a port => exact ⟨Cidr.isMask_allOnes, rfl⟩
  · have hzero : expire = 0 := honly.resolve_left hfar
    subst hzero
    cases addr with
    | v4 a port => exact ⟨sourceList_prefixed h.v4 (by decide) _ _ _ _ _, h.v6⟩
    | v6 a port => exact ⟨h.v4, sourceList_prefixed h.v6 (by decide) _ _ _ _ _⟩

theorem restrictions_prefixed (h : RestrictPrefixed s) (srcadr : ResAddr) :
    RestrictPrefixed (restrictions s srcadr).1 := by
  unfold restrictions
  split_ifs
  · exact ⟨h.v4, h.v6⟩
  · cases srcadr with
    | v4 addr port => exact ⟨lookup_prefixed h.v4 _ _ _ _ _, h.v6⟩
    | v6 addr port => exact ⟨h.v4, lookup_prefixed h.v6 _ _ _ _ _⟩

theorem restrictStep_prefixed (s : RestrictSys) (e : RestrictEvent) (h : RestrictPrefixed s)
    (honly : PrefixOnly e) : RestrictPrefixed (restrictStep s e) := by
  cases e with
  | hack op spec mflags flags expire =>
    exact hackRestrict_prefixed h op spec mflags flags expire honly
  | source addr farewell expire => exact restrictSource_prefixed h addr farewell expire honly
  | lookup srcadr => exact restrictions_prefixed h srcadr
  | pass seconds | monitor on => exact ⟨h.v4, h.v6⟩

/-- With prefixes for masks and entries that do not expire, both lists are sorted and end with the
    default entry, and a lookup returns the flags of the entry with the longest match; except that
    sources with a multicast address are ignored. -/
theorem restrictions_longest (es : List RestrictEvent) (hes : ∀ e ∈ es, PrefixOnly e) :
    let s := Run.exec restrictStep {} es
    InOrder s.v4 ∧ InOrder s.v6 ∧
    (∀ addr port, (ResAddr.v4 addr port).isMcast = false → ∃ p, Longest s.v4 addr port p ∧
      (restrictions s (.v4 addr port)).2 = ⟨(s.v4.mem p).flags, some p⟩ ∧
      (restrictions s (.v4 addr port)).1.vars.aborted = s.vars.aborted) ∧
    (∀ addr port, (ResAddr.v6 addr port).isMcast = false → ∃ p, Longest s.v6 addr port p ∧
      (restrictions s (.v6 addr port)).2 = ⟨(s.v6.mem p).flags, some p⟩ ∧
      (restrictions s (.v6 addr port)).1.vars.aborted = s.vars.aborted) ∧
    ∀ srcadr, srcadr.isMcast = true → (restrictions s srcadr).2 = ⟨RES_IGNORE, none⟩ := by
  intro s
  have hinv : RestrictPrefixed s :=
    Run.exec_invariant restrictStep_prefixed _ es ⟨prefixed_start 32, prefixed_start 128⟩
      (Run.meets_of_forall _ fun e he _ => hes e he)
  refine ⟨hinv.v4.inOrder, hinv.v6.inOrder, ?_, ?_, ?_⟩
  · intro addr port hm
    obtain ⟨p, hp, hres, habort⟩ := lookup_longest hinv.v4 false
      { s.vars with res_calls := s.vars.res_calls + 1 } s.current_time addr port
    refine ⟨p, hp, ?_, ?_⟩
    · simp [restrictions, hm, matchRestrict4Addr, hres]
    · simp [restrictions, hm, matchRestrict4Addr, habort]
  · intro addr port hm
    obtain ⟨p, hp, hres, habort⟩ := lookup_longest hinv.v6 true
      { s.vars with res_calls := s.vars.res_calls + 1 } s.current_time addr port
    refine ⟨p, hp, ?_, ?_⟩
    · simp [restrictions, hm, matchRestrict6Addr, hres]
    · simp [restrictions, hm, matchRestrict6Addr, habort]
  · intro srcadr hm
    simp [restrictions, hm]

/-- Networks in networks, one of them for the NTP port and one without, and one
    that is removed again. -/
def nestedRun : List RestrictEvent :=
  [.hack .flags (.v4 0x0a000000 0xff000000) 0 RES_IGNORE 0,
    .hack .flags (.v4 0x0a010000 0xffff0000) 0 0 0,
    .hack .flags (.v4 0x0a010000 0xffff0000) RESM_NTPONLY RES_LIMITED 0,
    .hack .flags (.v4 0x0a010100 0xffffff00) 0 RES_IGNORE 0,
    .hack .remove (.v4 0x0a010100 0xffffff00) 0 0 0,
    .hack .flags (.v6 0xfe80 (Cidr.mask 128 10)) 0 RES_IGNORE 0,
    .hack .unflag (.v6 0 0) 0 RES_IGNORE 0]

theorem restrictions_longest_nestedRun :
    let s := Run.exec restrictStep {} nestedRun
    (∃ p, Longest s.v4 0x0a010101 123 p ∧
      (restrictions s (.v4 0x0a010101 123)).2 = ⟨(s.v4.mem p).flags, some p⟩) ∧
    (restrictions s (.v4 0x0a010101 123)).2.flags = RES_LIMITED ∧
    (restrictions s (.v4 0x0a010101 124)).2.flags = 0 := by
  obtain ⟨p, hp, hres, -⟩ :=
    (restrictions_longest nestedRun (by decide +kernel)).2.2.1 0x0a010101 123 (by decide)
  exact ⟨⟨p, hp, hres⟩, by decide +kernel, by decide +kernel⟩

/-- The default entry is for every source and has no flags, but a source with a
    multicast address is ignored. -/
theorem restrictions_multicast :
    let s := Run.exec restrictStep {} []
    (∀ p ∈ s.v4.list, (s.v4.mem p).flags = 0) ∧
    (s.v4.mem 0).hits 0xe0000101 123 = true ∧
    (restrictions s (.v4 0xe0000101 123)).2.flags = RES_IGNORE := by
  decide

end NtpSuite
