import NtpSuite.Theory.MonitorTable

/-!
# The Depth of the MRU List

`mru maxdepth` is documented as a hard limit on the number of entries, and
`mru mindepth` as the number below which no entry gives way to another.

The second holds. The first is tested on what has been allocated, not on the
list, and only when the free list is empty, and memory comes in chunks. So
what is on the list is bounded by what has been allocated, and that grows to
the first of `initalloc`, `initalloc + incalloc`, `initalloc + 2 * incalloc`
and so on that is not below `maxdepth`. The limit is kept exactly if that is
`maxdepth` itself.

For the other direction a run is given that fills the table. Its first packet
has a time far ahead of all the others, so that the entry at the end of the
list, however old it may be allowed to get, is not old enough to be reclaimed.

## Main definitions

* `DepthLimited`: Both limits are kept in every run with the settings.
* `FitsDepth`: The chunks add up to the limit.
* `fillRun`: A run that fills the table.

## Theorems

* `monStep_allocOk`: If the chunks fit, no step allocates too much.
* `fillRun_filling`: If they do not, the list grows beyond the limit.
* `depth_limited_iff`: The limits are kept exactly if the chunks fit.
-/

namespace NtpSuite.Mon

open List Option

/-- The step takes place with the settings. -/
def UsesKnobs (k : Knobs) : MonEvent → Prop
  | .start k' _ => k' = k
  | .stop _ => True
  | .clearinterface _ => True
  | .packet k' _ _ _ => k' = k

/-- Every entry on the list of `s` is on that of `s'`, with its address. -/
def KeepsEntries (s s' : MonSys) : Prop :=
  ∀ m ∈ s.mon_mru_list, m ∈ s'.mon_mru_list ∧
    (s'.mem m).rmtadr.sockEq (s.mem m).rmtadr = true

/-- In every run with the settings, the list is never longer than its maximum depth, and a packet
    that comes while it is below its minimum depth does not make an entry go. -/
def DepthLimited (k : Knobs) : Prop :=
  ∀ es, (∀ e ∈ es, UsesKnobs k e) →
    (Run.exec monStep {} es).mon_mru_list.length ≤ k.mru_maxdepth ∧
    ∀ p flags refuse, (Run.exec monStep {} es).mon_mru_list.length < k.mru_mindepth →
      KeepsEntries (Run.exec monStep {} es)
        (ntpMonitor (Run.exec monStep {} es) k p flags refuse).1

/-- The first chunk and some of the others add up to the maximum depth. -/
def FitsDepth (k : Knobs) : Prop :=
  k.mru_initalloc ≤ k.mru_maxdepth ∧ k.mru_incalloc ∣ k.mru_maxdepth - k.mru_initalloc

instance (k : Knobs) : Decidable (FitsDepth k) := inferInstanceAs (Decidable (_ ∧ _))

/-! ### The minimum depth -/

variable {s : MonSys} {k : Knobs}

/-- Below the minimum depth an entry comes from the free list. -/
theorem ntpMonitor_keepsEntries (h : MonWf s) (hk : KnobsOk k) (p : MonPacket) (flags : BitVec 16)
    (refuse : Bool) (hmin : s.mon_mru_list.length < k.mru_mindepth) :
    KeepsEntries s (ntpMonitor s k p flags refuse).1 := by
  rcases ntpMonitor_cases h k p flags refuse with
    ⟨-, heq⟩ | ⟨-, mon, hmon, -, heq⟩ | ⟨-, -, s1, mon, hget, heq⟩
  · rw [heq]
    exact fun m hm => ⟨hm, SockAddr.sockEq_refl _⟩
  · rw [heq]
    intro m hm
    exact ⟨(perm_cons_erase hmon).mem_iff.mp hm, touchEntry_sockEq s k p flags mon m⟩
  · obtain ⟨s2, m', rest, -, -, htake, hinv, hshrinks, hmru⟩ :=
      takeFree_inv h hk.initalloc hk.incalloc
    have hfree : getEntry s k p.recv_time refuse = some (takeFree s k) := by
      unfold getEntry
      rw [h.entries, if_pos hmin]
    rw [hfree, htake, some.injEq, Prod.mk.injEq] at hget
    obtain ⟨rfl, rfl⟩ := hget
    rw [heq]
    intro m hm
    rw [← hmru] at hm
    have hne : m ≠ m' := fun hmm => hinv.held_not_mem (mem_singleton_self m') (hmm ▸ hm)
    refine ⟨mem_cons_of_mem m' hm, ?_⟩
    have hmem : (insertEntry { s2 with mon_free := rest } p flags m').mem m = s.mem m :=
      (insertEntry_mem_of_ne _ p flags hne).trans (hshrinks.mem m hm)
    rw [hmem]
    exact SockAddr.sockEq_refl _

/-! ### What is allocated -/

/-- No more is allocated than the maximum depth, and what is missing is a number of chunks. -/
structure AllocOk (k : Knobs) (s : MonSys) : Prop where
  le : s.mru_alloc ≤ k.mru_maxdepth
  first : s.mon_mem_increments = 0 → s.mru_alloc = 0
  rest : s.mon_mem_increments ≠ 0 → k.mru_incalloc ∣ k.mru_maxdepth - s.mru_alloc

theorem AllocOk.congr {s s' : MonSys} (h : AllocOk k s) (halloc : s'.mru_alloc = s.mru_alloc)
    (hinc : s'.mon_mem_increments = s.mon_mem_increments) : AllocOk k s' := by
  refine ⟨?_, ?_, ?_⟩
  · rw [halloc]
    exact h.le
  · rw [hinc, halloc]
    exact h.first
  · rw [hinc, halloc]
    exact h.rest

theorem monGetmoremem_allocOk (hfits : FitsDepth k) (h : AllocOk k s)
    (hroom : s.mru_alloc < k.mru_maxdepth ∨ s.mon_mem_increments = 0) :
    AllocOk k (monGetmoremem s k) := by
  rw [monGetmoremem_eq]
  by_cases hzero : s.mon_mem_increments = 0
  · have hsize : moremem s k = k.mru_initalloc := by simp [moremem, hzero]
    refine ⟨?_, by simp, ?_⟩
    · simp only [hsize, h.first hzero, zero_add]
      exact hfits.1
    · intro _
      simp only [hsize, h.first hzero, zero_add]
      exact hfits.2
  · have hsize : moremem s k = k.mru_incalloc := by simp [moremem, hzero]
    obtain ⟨n, hn⟩ := h.rest hzero
    -- At least one chunk is missing, as something is.
    obtain ⟨j, rfl⟩ : ∃ j, n = j + 1 := by
      refine Nat.exists_eq_succ_of_ne_zero ?_
      rintro rfl
      omega
    rw [Nat.mul_succ] at hn
    refine ⟨?_, by simp, ?_⟩
    · simp only [hsize]
      omega
    · intro _
      simp only [hsize]
      exact ⟨j, by omega⟩

theorem clearEntry_alloc (lcladr : Nat) (s : MonSys) (m : Nat) :
    (clearEntry lcladr s m).mru_alloc = s.mru_alloc ∧
      (clearEntry lcladr s m).mon_mem_increments = s.mon_mem_increments := by
  unfold clearEntry
  split_ifs
  · exact ⟨rfl, rfl⟩
  · exact ⟨rfl, rfl⟩

theorem foldl_clearEntry_alloc (lcladr : Nat) (ms : List Nat) (s : MonSys) :
    (ms.foldl (clearEntry lcladr) s).mru_alloc = s.mru_alloc ∧
      (ms.foldl (clearEntry lcladr) s).mon_mem_increments = s.mon_mem_increments := by
  induction ms generalizing s with
  | nil => exact ⟨rfl, rfl⟩
  | cons m ms ih =>
    obtain ⟨halloc, hinc⟩ := clearEntry_alloc lcladr s m
    obtain ⟨halloc', hinc'⟩ := ih (clearEntry lcladr s m)
    exact ⟨halloc'.trans halloc, hinc'.trans hinc⟩

theorem monStop_alloc (s : MonSys) (mode : BitVec 32) :
    (monStop s mode).mru_alloc = s.mru_alloc ∧
      (monStop s mode).mon_mem_increments = s.mon_mem_increments := by
  unfold monStop
  simp only [foldl_monFreeEntry]
  split_ifs <;> exact ⟨rfl, rfl⟩

theorem monStart_allocOk (hfits : FitsDepth k) (h : AllocOk k s) (mode : BitVec 32) :
    AllocOk k (monStart s k mode) := by
  unfold monStart
  split_ifs with hmode hon hzero
  · exact h
  · exact h.congr rfl rfl
  · exact (monGetmoremem_allocOk hfits h (.inr hzero)).congr rfl rfl
  · exact h.congr rfl rfl

/-- A packet that finds the free list empty allocates a chunk only below the maximum depth. -/
theorem ntpMonitor_allocOk (h : MonWf s) (hk : KnobsOk k) (hle : k.mru_mindepth ≤ k.mru_maxdepth)
    (hfits : FitsDepth k) (ha : AllocOk k s) (p : MonPacket) (flags : BitVec 16) (refuse : Bool) :
    AllocOk k (ntpMonitor s k p flags refuse).1 := by
  rcases ntpMonitor_cases h k p flags refuse with
    ⟨-, heq⟩ | ⟨-, mon, -, -, heq⟩ | ⟨-, -, s1, mon, hget, heq⟩
  · rw [heq]
    exact ha
  · rw [heq]
    exact ha.congr rfl rfl
  · rw [heq]
    have hs1 : AllocOk k s1 := by
      rcases getEntry_cases h hk p.recv_time refuse with
        hnone | ⟨hroom, hfree⟩ | ⟨-, oldest, -, hlast⟩
      · rw [hnone] at hget
        exact absurd hget (by simp)
      · obtain ⟨s2, m, rest, hs2, -, htake, -, -, -⟩ := takeFree_inv h hk.initalloc hk.incalloc
        rw [hfree, htake] at hget
        obtain ⟨rfl, rfl⟩ := hget
        have hok : AllocOk k s2 := by
          rw [hs2]
          split_ifs with hempty
          · have halloc := h.alloc_of_empty hempty
            refine monGetmoremem_allocOk hfits ha (.inl ?_)
            rcases hroom with hmin | hsome | hmax
            · rw [h.entries] at hmin
              omega
            · exact absurd hempty hsome
            · exact hmax
          · exact ha
        exact hok.congr rfl rfl
      · rw [hlast] at hget
        obtain ⟨rfl, rfl⟩ := hget
        exact ha.congr rfl rfl
    exact hs1.congr rfl rfl

theorem monStep_allocOk (hk : KnobsOk k) (hle : k.mru_mindepth ≤ k.mru_maxdepth)
    (hfits : FitsDepth k) (s : MonSys) (e : MonEvent) (h : MonWf s) (ha : AllocOk k s)
    (he : UsesKnobs k e) : AllocOk k (monStep s e) := by
  cases e with
  | start k' mode =>
    obtain rfl : k' = k := he
    exact monStart_allocOk hfits ha mode
  | stop mode => exact ha.congr (monStop_alloc s mode).1 (monStop_alloc s mode).2
  | clearinterface lcladr =>
    obtain ⟨halloc, hinc⟩ := foldl_clearEntry_alloc lcladr s.mon_mru_list s
    exact ha.congr halloc hinc
  | packet k' p flags refuse =>
    obtain rfl : k' = k := he
    exact ntpMonitor_allocOk h hk hle hfits ha p flags refuse

theorem UsesKnobs.eventOk (hk : KnobsOk k) {e : MonEvent} (he : UsesKnobs k e) : EventOk e := by
  cases e with
  | start k' mode =>
    obtain rfl : k' = k := he
    exact hk
  | stop mode | clearinterface lcladr => trivial
  | packet k' p flags refuse =>
    obtain rfl : k' = k := he
    exact hk

/-- The table and what is allocated. -/
structure Fitting (k : Knobs) (s : MonSys) : Prop where
  wf : MonWf s
  alloc : AllocOk k s

theorem depthLimited_of_fits (hk : KnobsOk k) (hle : k.mru_mindepth ≤ k.mru_maxdepth)
    (hfits : FitsDepth k) : DepthLimited k := by
  intro es hes
  have hmeets : Run.Meets monStep (fun _ e => UsesKnobs k e) {} es :=
    Run.meets_of_forall _ fun e he _ => hes e he
  have hstart : Fitting k {} :=
    ⟨monWf_start, Nat.zero_le _, fun _ => rfl, fun hne => absurd rfl hne⟩
  have hfit : Fitting k (Run.exec monStep {} es) := by
    refine Run.exec_invariant ?_ _ es hstart hmeets
    intro s e h he
    exact ⟨monStep_wf s e h.wf (he.eventOk hk), monStep_allocOk hk hle hfits s e h.wf h.alloc he⟩
  refine ⟨?_, fun p flags refuse hmin => ntpMonitor_keepsEntries hfit.wf hk p flags refuse hmin⟩
  have halloc := hfit.wf.alloc
  have := hfit.alloc.le
  omega

/-! ### A run that fills the table -/

/-- Packets from different sources; the first has a time far ahead of the others. -/
def fillPacket (i : Nat) : MonPacket :=
  { recv_srcadr := { af := .inet6, addr := i }
    recv_time := if i = 0 then 0x8000000000000000 else 0 }

/-- Monitoring is switched on, and packets come from `n` sources. -/
def fillRun (k : Knobs) (n : Nat) : List MonEvent :=
  .start k MON_ON :: (List.range n).map fun i => .packet k (fillPacket i) 0 false

/-- The table after `n` packets: `n` entries, the last of which is that of the first packet. -/
structure Filling (k : Knobs) (n : Nat) (s : MonSys) : Prop where
  wf : MonWf s
  on : s.mon_enabled ≠ MON_OFF
  length : s.mon_mru_list.length = n
  addrs : ∀ m ∈ s.mon_mru_list, ∃ i < n, (s.mem m).rmtadr = (fillPacket i).recv_srcadr
  last : ∀ m, s.mon_mru_list.getLast? = some m → (s.mem m).last = 0x8000000000000000
  grown : s.mon_mem_increments ≠ 0
  alloc : ∃ j, s.mru_alloc = k.mru_initalloc + j * k.mru_incalloc

theorem filling_start (k : Knobs) : Filling k 0 (monStep {} (.start k MON_ON)) := by
  have hwf : MonWf (monStart {} k MON_ON) := (monStart_wf monWf_start k MON_ON).1
  have heq : monStart {} k MON_ON =
      { monGetmoremem {} k with
        mon_hash_bits := min 16 (max 4 (Nat.log2 (k.mru_maxdepth / 8 + 1)))
        mon_hash := fun _ => []
        mon_enabled := MON_ON } := rfl
  simp only [monStep]
  refine ⟨hwf, ?_, ?_, ?_, ?_, ?_, 0, ?_⟩
  all_goals rw [heq, monGetmoremem_eq]
  · simp [MON_ON, MON_OFF]
  · rfl
  · simp
  · simp
  · simp
  · simp [moremem]

/-- An entry that is dated far ahead is not too old for any setting. -/
theorem interval_ahead (k : Knobs) : ¬k.mru_maxage.toInt < interval 0 0x8000000000000000 := by
  have hage : interval 0 0x8000000000000000 = -2 ^ 31 := by decide
  have hmin := BitVec.le_toInt k.mru_maxage
  omega

theorem Filling.unknown {n : Nat} (h : Filling k n s) : Unknown s (fillPacket n).recv_srcadr := by
  intro m hm heq
  obtain ⟨i, hi, haddr⟩ := h.addrs m hm
  rw [haddr, SockAddr.sockEq_iff] at heq
  have : i = n := heq.2.1
  omega

/-- Unless the chunks fit, there is always an entry to be had up to the maximum depth. -/
theorem Filling.room (hfits : ¬FitsDepth k) {n : Nat} (hn : n ≤ k.mru_maxdepth)
    (h : Filling k n s) : s.mon_free ≠ [] ∨ s.mru_alloc < k.mru_maxdepth := by
  by_contra hno
  rw [not_or, not_not] at hno
  apply hfits
  have halloc := h.wf.alloc_of_empty hno.1
  rw [h.length] at halloc
  obtain ⟨j, hj⟩ := h.alloc
  have hmax : k.mru_maxdepth = k.mru_initalloc + j * k.mru_incalloc := by omega
  refine ⟨by omega, j, ?_⟩
  rw [hmax, Nat.add_sub_cancel_left, Nat.mul_comm]

theorem Filling.getEntry_eq (hmin : 0 < k.mru_mindepth) (hfits : ¬FitsDepth k) {n : Nat}
    (hn : n ≤ k.mru_maxdepth) (h : Filling k n s) :
    getEntry s k (fillPacket n).recv_time false = some (takeFree s k) := by
  unfold getEntry
  by_cases hdepth : s.mru_entries < k.mru_mindepth
  · rw [if_pos hdepth]
  · rw [if_neg hdepth]
    -- The list is not empty, so this is not the first packet.
    have hne : n ≠ 0 := by
      rw [h.wf.entries, h.length] at hdepth
      omega
    have hroom := h.room hfits hn
    cases hlast : s.mon_mru_list.getLast? with
    | some oldest =>
      have htime : (fillPacket n).recv_time = 0 := if_neg hne
      simp only [htime, h.last oldest hlast]
      rw [if_neg (interval_ahead k), if_pos hroom]
    | none =>
      rw [if_pos hroom]

theorem filling_step (hk : KnobsOk k) (hmin : 0 < k.mru_mindepth) (hfits : ¬FitsDepth k) {n : Nat}
    (hn : n ≤ k.mru_maxdepth) (h : Filling k n s) :
    Filling k (n + 1) (monStep s (.packet k (fillPacket n) 0 false)) := by
  have hwf := ntpMonitor_wf h.wf hk (fillPacket n) 0 false
  obtain ⟨s1, mon, rest, hs1, -, htake, hinv, hshrinks, hmru⟩ :=
    takeFree_inv h.wf hk.initalloc hk.incalloc
  have hstep : (ntpMonitor s k (fillPacket n) 0 false).1 =
      insertEntry { s1 with mon_free := rest } (fillPacket n) 0 mon := by
    unfold ntpMonitor
    rw [if_neg h.on, (findMon_none h.wf _).mpr h.unknown]
    simp only [h.getEntry_eq hmin hfits hn, htake]
  rw [monStep, hstep]
  rw [hstep] at hwf
  have hnot : mon ∉ s.mon_mru_list := by
    rw [← hmru]
    exact hinv.held_not_mem (mem_singleton_self mon)
  have hmem : ∀ m ∈ s.mon_mru_list,
      (insertEntry { s1 with mon_free := rest } (fillPacket n) 0 mon).mem m = s.mem m := by
    intro m hm
    have hne : m ≠ mon := fun heq => hnot (heq ▸ hm)
    exact (insertEntry_mem_of_ne _ _ 0 hne).trans (hshrinks.mem m (hmru ▸ hm))
  have hself := insertEntry_mem_self { s1 with mon_free := rest } (fillPacket n) 0 mon
  have hlist : (insertEntry { s1 with mon_free := rest } (fillPacket n) 0 mon).mon_mru_list =
      mon :: s.mon_mru_list := by
    rw [← hmru]
    rfl
  refine ⟨hwf, ?_, ?_, ?_, ?_, ?_, ?_⟩
  · have henabled : s1.mon_enabled = s.mon_enabled := by
      rw [hs1]
      split_ifs
      · rw [monGetmoremem_eq]
      · rfl
    exact henabled ▸ h.on
  · rw [hlist, length_cons, h.length]
  · rw [hlist]
    intro m hm
    rcases mem_cons.mp hm with rfl | hold
    · exact ⟨n, by omega, by rw [hself]; rfl⟩
    · obtain ⟨i, hi, haddr⟩ := h.addrs m hold
      exact ⟨i, by omega, by rw [hmem m hold, haddr]⟩
  · -- The entry at the end stays there, and is the new one only at the start.
    intro m hlast
    rw [hlist, List.getLast?_cons] at hlast
    cases hold : s.mon_mru_list.getLast? with
    | some t =>
      rw [hold, getD_some, some.injEq] at hlast
      subst hlast
      rw [hmem t (mem_of_getLast? hold)]
      exact h.last t hold
    | none =>
      rw [hold, getD_none, some.injEq] at hlast
      subst hlast
      rw [List.getLast?_eq_none_iff] at hold
      have hzero : n = 0 := by rw [← h.length, hold, length_nil]
      rw [hself, hzero]
      rfl
  · have hgrown : s1.mon_mem_increments ≠ 0 := by
      rw [hs1]
      split_ifs
      · rw [monGetmoremem_eq]
        simp
      · exact h.grown
    exact hgrown
  · obtain ⟨j, hj⟩ := h.alloc
    have halloc : ∃ j, s1.mru_alloc = k.mru_initalloc + j * k.mru_incalloc := by
      rw [hs1]
      split_ifs
      · refine ⟨j + 1, ?_⟩
        have hsize : moremem s k = k.mru_incalloc := if_neg h.grown
        rw [monGetmoremem_eq]
        simp only [hj, hsize]
        ring
      · exact ⟨j, hj⟩
    exact halloc

theorem fillRun_filling (hk : KnobsOk k) (hmin : 0 < k.mru_mindepth) (hfits : ¬FitsDepth k)
    (n : Nat) (hn : n ≤ k.mru_maxdepth + 1) : Filling k n (Run.exec monStep {} (fillRun k n)) := by
  induction n with
  | zero => exact filling_start k
  | succ n ih =>
    have hrun : fillRun k (n + 1) =
        fillRun k n ++ [.packet k (fillPacket n) 0 false] := by
      simp [fillRun, range_succ]
    rw [hrun, Run.exec_append]
    exact filling_step hk hmin hfits (by omega) (ih (by omega))

/-- For all settings with a minimum depth of at least one that is not above the maximum depth, and
    chunks of at least one entry: the MRU list is never longer than its maximum depth, and no entry
    gives way to another below the minimum depth, in all runs, exactly if the chunks add up to the
    maximum depth. -/
theorem depth_limited_iff (k : Knobs) (hmin : 1 ≤ k.mru_mindepth)
    (hle : k.mru_mindepth ≤ k.mru_maxdepth) (hinit : 1 ≤ k.mru_initalloc)
    (hinc : 1 ≤ k.mru_incalloc) : DepthLimited k ↔ FitsDepth k := by
  have hk : KnobsOk k := ⟨hinit, hinc, by omega⟩
  constructor
  · intro hlimited
    by_contra hfits
    have hfill := fillRun_filling hk hmin hfits (k.mru_maxdepth + 1) (le_refl _)
    have huses : ∀ e ∈ fillRun k (k.mru_maxdepth + 1), UsesKnobs k e := by
      intro e he
      rcases mem_cons.mp he with rfl | hpacket
      · rfl
      · obtain ⟨i, -, rfl⟩ := mem_map.mp hpacket
        rfl
    have hmax := (hlimited _ huses).1
    rw [hfill.length] at hmax
    omega
  · exact depthLimited_of_fits hk hle

theorem depth_limited_iff_doubling :
    let k : Knobs := { mru_mindepth := 3, mru_maxdepth := 8, mru_initalloc := 2, mru_incalloc := 2 }
    (1 ≤ k.mru_mindepth ∧ k.mru_mindepth ≤ k.mru_maxdepth ∧ 1 ≤ k.mru_initalloc ∧
      1 ≤ k.mru_incalloc) ∧ DepthLimited k :=
  ⟨by decide,
    (depth_limited_iff _ (by decide) (by decide) (by decide) (by decide)).mpr (by decide)⟩

/-- With `mru maxdepth 3 initalloc 2 incalloc 2`, four packets from different sources make a list of
    four. The chunks do not fit with the defaults either, for which an entry is 88 octets. -/
theorem depth_exceeded :
    let k : Knobs := { mru_mindepth := 1, mru_maxdepth := 3, mru_initalloc := 2, mru_incalloc := 2 }
    let s := Run.exec monStep {} (.start k MON_ON ::
      [1, 2, 3, 4].map fun addr => .packet k (packetFrom addr 0 7) 0 false)
    s.mon_mru_list.length = 4 ∧ k.mru_maxdepth = 3 ∧ ¬FitsDepth {} := by
  decide

end NtpSuite.Mon
