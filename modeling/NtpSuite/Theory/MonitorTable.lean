import NtpSuite.Core.Monitor
import NtpSuite.Lib.Run

/-!
# The Table of the Monitor

The MRU list, the hash chains, the free list and the two counters agree after
every run, and the MRU list is in the order of the latest packets.

While a packet is processed, an entry can be on none of the lists: it has been
taken from the free list or from the end of the MRU list and is not linked
yet. `MonInv` is the invariant with the entries that are in hand as a
parameter, so that each of the small operations is one lemma that moves an
entry into the hand or out of it. In between steps nothing is in hand, and the
invariant is `MonWf`.

`ntpMonitor_cases` says once what a packet can do: nothing, or its source is
known and the entry is moved to the front, or an entry that was free or the
oldest becomes the entry of the source.

The order of the list is stated without any mark on the entries. `latest` is
the number of the last packet from an address, which only depends on the run,
and the list is in descending order of it.

## Main definitions

* `MonInv`, `MonWf`: The invariant.
* `Shrinks`: Entries go and the others stay as they are.
* `latest`: The number of the last packet from an address.

## Theorems

* `takeFree_inv`, `monReclaimEntry_inv`: An entry for a new source.
* `ntpMonitor_cases`: What a packet can do.
* `monStep_wf`: Every step keeps the invariant.
* `monitor_consistent`: The table after every run.
-/

namespace NtpSuite

open Function List Chained SockAddr

/-! ### Addresses -/

theorem SockAddr.sockEq_iff (a b : SockAddr) :
    a.sockEq b = true ↔
      a.af = b.af ∧ a.addr = b.addr ∧ (a.af = .inet ∨ a.scope = b.scope) := by
  simp [SockAddr.sockEq, and_assoc]

@[simp] theorem SockAddr.sockEq_refl (a : SockAddr) : a.sockEq a = true := by
  simp [sockEq_iff]

theorem SockAddr.sockEq_symm {a b : SockAddr} (h : a.sockEq b = true) : b.sockEq a = true := by
  rw [sockEq_iff] at h ⊢
  obtain ⟨haf, haddr, hscope⟩ := h
  refine ⟨haf.symm, haddr.symm, ?_⟩
  rcases hscope with hinet | hscope
  · exact .inl (haf ▸ hinet)
  · exact .inr hscope.symm

theorem SockAddr.sockEq_trans {a b c : SockAddr} (hab : a.sockEq b = true)
    (hbc : b.sockEq c = true) : a.sockEq c = true := by
  rw [sockEq_iff] at hab hbc ⊢
  obtain ⟨haf, haddr, hscope⟩ := hab
  obtain ⟨haf', haddr', hscope'⟩ := hbc
  refine ⟨haf.trans haf', haddr.trans haddr', ?_⟩
  rcases hscope with hinet | hscope
  · exact .inl hinet
  · rcases hscope' with hinet' | hscope'
    · exact .inl (haf.trans hinet')
    · exact .inr (hscope.trans hscope')

theorem sockHash_congr {a b : SockAddr} (h : a.sockEq b = true) : sockHash a = sockHash b := by
  rw [sockEq_iff] at h
  unfold sockHash SockAddr.octets
  rw [h.1, h.2.1]

namespace Mon

/-- The invariant, with the entries `held` in hand: the entries on the lists and in hand are
    different; the chains have the entries of the MRU list, each in the bucket of its address; no
    two of those have the same address; and the counters are right. -/
structure MonInv (held : List Nat) (s : MonSys) : Prop where
  nodup : (held ++ (s.mon_mru_list ++ s.mon_free)).Nodup
  lt : ∀ m ∈ held ++ (s.mon_mru_list ++ s.mon_free), m < s.allocated
  indexes : Chained.Indexes s.mon_hash (fun m => some (s.bucket m)) s.mon_mru_list
  unique : s.mon_mru_list.Pairwise fun a b => ¬(s.mem a).rmtadr.sockEq (s.mem b).rmtadr = true
  entries : s.mru_entries = s.mon_mru_list.length
  alloc : s.mru_alloc = held.length + s.mon_mru_list.length + s.mon_free.length
  off : s.mon_enabled = MON_OFF → s.mon_mru_list = []
  sound : s.aborted = false

/-- The invariant between steps. -/
abbrev MonWf (s : MonSys) : Prop := MonInv [] s

theorem monWf_start : MonWf {} where
  nodup := by simp
  lt := by simp
  indexes := indexes_nil _
  unique := .nil
  entries := rfl
  alloc := rfl
  off := fun _ => rfl
  sound := rfl

variable {s : MonSys} {m : Nat} {mon : Nat}

theorem MonInv.mru_nodup {held : List Nat} (h : MonInv held s) : s.mon_mru_list.Nodup :=
  (nodup_append.mp (nodup_append.mp h.nodup).2.1).1

theorem MonInv.held_not_mem {held : List Nat} (h : MonInv held s) (hm : m ∈ held) :
    m ∉ s.mon_mru_list := fun hmem =>
  (nodup_append.mp h.nodup).2.2 m hm m (mem_append_left _ hmem) rfl

theorem MonInv.eq_of_sockEq {held : List Nat} (h : MonInv held s) {a b : Nat}
    (ha : a ∈ s.mon_mru_list) (hb : b ∈ s.mon_mru_list)
    (heq : (s.mem a).rmtadr.sockEq (s.mem b).rmtadr = true) : a = b := by
  by_contra hne
  have hsymm : Std.Symm fun a b => ¬(s.mem a).rmtadr.sockEq (s.mem b).rmtadr = true :=
    ⟨fun _ _ hab hba => hab (sockEq_symm hba)⟩
  exact h.unique.forall ha hb hne heq

/-- All that is allocated is on the list if nothing is free. -/
theorem MonInv.alloc_of_empty (h : MonWf s) (hempty : s.mon_free = []) :
    s.mru_alloc = s.mon_mru_list.length := by
  have halloc := h.alloc
  rw [hempty] at halloc
  simpa using halloc

/-! ### Small operations -/

theorem foldl_monFreeEntry (ms : List Nat) (s : MonSys) :
    ms.foldl monFreeEntry s =
      { s with
        mem := fun m => if m ∈ ms then {} else s.mem m
        mon_free := ms.reverse ++ s.mon_free } := by
  induction ms generalizing s with
  | nil => simp
  | cons m ms ih =>
    rw [foldl_cons, ih]
    unfold monFreeEntry
    simp only [reverse_cons, append_assoc, cons_append, nil_append, MonSys.mk.injEq, and_true]
    funext x
    by_cases hx : x = m
    · simp [hx]
    · simp [hx]

/-- Entries go, and the others stay as they are. -/
structure Shrinks (s s' : MonSys) : Prop where
  mru : s'.mon_mru_list.Sublist s.mon_mru_list
  mem : ∀ m ∈ s'.mon_mru_list, s'.mem m = s.mem m

theorem Shrinks.refl (s : MonSys) : Shrinks s s := ⟨List.Sublist.refl _, fun _ _ => rfl⟩

theorem Shrinks.trans {s' s'' : MonSys} (h : Shrinks s s') (h' : Shrinks s' s'') :
    Shrinks s s'' :=
  ⟨h'.mru.trans h.mru, fun m hm => (h'.mem m hm).trans (h.mem m (h'.mru.subset hm))⟩

theorem Shrinks.pairwise {s' : MonSys} (h : Shrinks s s') {r : MonEntry → MonEntry → Prop}
    (hs : s.mon_mru_list.Pairwise fun a b => r (s.mem a) (s.mem b)) :
    s'.mon_mru_list.Pairwise fun a b => r (s'.mem a) (s'.mem b) := by
  refine (hs.sublist h.mru).imp_of_mem ?_
  intro a b ha hb hab
  rw [h.mem a ha, h.mem b hb]
  exact hab

/-- The entries on the lists and in hand change places, and the chains stay. -/
theorem MonInv.move {held held' : List Nat} {s' : MonSys} (h : MonInv held s)
    (hmru : s'.mon_mru_list = s.mon_mru_list) (hmem : ∀ m ∈ s.mon_mru_list, s'.mem m = s.mem m)
    (hhash : s'.mon_hash = s.mon_hash) (hbits : s'.mon_hash_bits = s.mon_hash_bits)
    (hentries : s'.mru_entries = s.mru_entries) (henabled : s'.mon_enabled = s.mon_enabled)
    (hsound : s'.aborted = s.aborted) (hnodup : (held' ++ (s'.mon_mru_list ++ s'.mon_free)).Nodup)
    (hlt : ∀ m ∈ held' ++ (s'.mon_mru_list ++ s'.mon_free), m < s'.allocated)
    (halloc : s'.mru_alloc = held'.length + s'.mon_mru_list.length + s'.mon_free.length) :
    MonInv held' s' where
  nodup := hnodup
  lt := hlt
  indexes := by
    rw [hhash, hmru]
    apply h.indexes.congr
    intro m hm
    unfold MonSys.bucket
    rw [hbits, hmem m hm]
  unique := by
    have hshrinks : Shrinks s s' :=
      ⟨hmru ▸ List.Sublist.refl _, fun m hm => hmem m (hmru ▸ hm)⟩
    exact hshrinks.pairwise (r := fun e e' => ¬e.rmtadr.sockEq e'.rmtadr = true) h.unique
  entries := by rw [hentries, hmru, h.entries]
  alloc := halloc
  off := by
    rw [henabled, hmru]
    exact h.off
  sound := hsound.trans h.sound

/-- How many entries are allocated. -/
def moremem (s : MonSys) (k : Knobs) : Nat :=
  if s.mon_mem_increments = 0 then k.mru_initalloc else k.mru_incalloc

/-- The new entries, in the order they are on the free list. -/
def chunk (s : MonSys) (k : Knobs) : List Nat := (List.range (moremem s k)).map (s.allocated + ·)

theorem monGetmoremem_eq (s : MonSys) (k : Knobs) :
    monGetmoremem s k =
      { s with
        mem := fun m => if m ∈ chunk s k then {} else s.mem m
        mon_free := chunk s k ++ s.mon_free
        mru_alloc := s.mru_alloc + moremem s k
        mon_mem_increments := s.mon_mem_increments + 1
        allocated := s.allocated + moremem s k } := by
  unfold monGetmoremem
  simp only [foldl_monFreeEntry, reverse_reverse, mem_reverse]
  rfl

theorem mem_chunk {k : Knobs} :
    m ∈ chunk s k ↔ s.allocated ≤ m ∧ m < s.allocated + moremem s k := by
  unfold chunk
  simp only [mem_map, mem_range]
  constructor
  · omega
  · rintro ⟨hle, hlt⟩
    exact ⟨m - s.allocated, by omega, by omega⟩

theorem chunk_nodup (s : MonSys) (k : Knobs) : (chunk s k).Nodup :=
  nodup_range.map fun a b hab => by omega

/-- The new entries come after all that were allocated before. -/
theorem monGetmoremem_inv {held : List Nat} (h : MonInv held s) (k : Knobs) :
    MonInv held (monGetmoremem s k) ∧
      ∀ m ∈ s.mon_mru_list, (monGetmoremem s k).mem m = s.mem m := by
  have hnew : ∀ m ∈ held ++ (s.mon_mru_list ++ s.mon_free), m ∉ chunk s k := by
    intro m hm hc
    have := h.lt m hm
    have := (mem_chunk.mp hc).1
    omega
  have hperm : (held ++ (s.mon_mru_list ++ (chunk s k ++ s.mon_free))).Perm
      (chunk s k ++ (held ++ (s.mon_mru_list ++ s.mon_free))) := by
    rw [← append_assoc, ← append_assoc held]
    refine (perm_append_comm_assoc _ _ _).trans ?_
    rfl
  have hmem : ∀ m ∈ s.mon_mru_list, (monGetmoremem s k).mem m = s.mem m := by
    intro m hm
    rw [monGetmoremem_eq]
    exact if_neg (hnew m (mem_append_right _ (mem_append_left _ hm)))
  refine ⟨?_, hmem⟩
  refine h.move ?_ hmem ?_ ?_ ?_ ?_ ?_ ?_ ?_ ?_
  all_goals rw [monGetmoremem_eq]
  · refine hperm.nodup_iff.mpr (nodup_append.mpr ⟨chunk_nodup s k, h.nodup, ?_⟩)
    intro a ha b hb hab
    exact hnew b hb (hab ▸ ha)
  · intro m hm
    rcases mem_append.mp (hperm.mem_iff.mp hm) with hc | hold
    · exact (mem_chunk.mp hc).2
    · have := h.lt m hold
      simp only
      omega
  · have hlen : (chunk s k).length = moremem s k := by simp [chunk]
    simp only [length_append, hlen]
    have := h.alloc
    omega

theorem takeFree_inv (h : MonWf s) {k : Knobs} (hinit : 0 < k.mru_initalloc)
    (hinc : 0 < k.mru_incalloc) :
    ∃ s1 mon rest, s1 = (if s.mon_free = [] then monGetmoremem s k else s) ∧
      s1.mon_free = mon :: rest ∧ takeFree s k = ({ s1 with mon_free := rest }, mon) ∧
      MonInv [mon] { s1 with mon_free := rest } ∧
      Shrinks s { s1 with mon_free := rest } ∧ s1.mon_mru_list = s.mon_mru_list := by
  obtain ⟨s1, hs1⟩ : ∃ s1, s1 = (if s.mon_free = [] then monGetmoremem s k else s) := ⟨_, rfl⟩
  have hinv : MonWf s1 ∧ (∀ m ∈ s.mon_mru_list, s1.mem m = s.mem m) ∧
      s1.mon_mru_list = s.mon_mru_list := by
    rw [hs1]
    split_ifs
    · exact ⟨(monGetmoremem_inv h k).1, (monGetmoremem_inv h k).2, by rw [monGetmoremem_eq]⟩
    · exact ⟨h, fun _ _ => rfl, rfl⟩
  have hfree : s1.mon_free ≠ [] := by
    rw [hs1]
    split_ifs with hempty
    · have hpos : 0 < moremem s k := by
        unfold moremem
        split_ifs
        · exact hinit
        · exact hinc
      have hfirst : s.allocated ∈ chunk s k := mem_chunk.mpr ⟨le_refl _, by omega⟩
      rw [monGetmoremem_eq]
      exact ne_nil_of_mem (mem_append_left _ hfirst)
    · exact hempty
  obtain ⟨mon, rest, hcons⟩ := exists_cons_of_ne_nil hfree
  obtain ⟨hwf, hmem, hmru⟩ := hinv
  have hnodup := hwf.nodup
  have hlt := hwf.lt
  have halloc := hwf.alloc
  rw [hcons] at hnodup hlt halloc
  have hperm : ([] ++ (s1.mon_mru_list ++ mon :: rest)).Perm
      ([mon] ++ (s1.mon_mru_list ++ rest)) := perm_middle
  refine ⟨s1, mon, rest, hs1, hcons, ?_, ?_, ?_, hmru⟩
  · unfold takeFree
    simp only [← hs1, hcons]
  · refine hwf.move rfl (fun _ _ => rfl) rfl rfl rfl rfl rfl
      (hperm.nodup_iff.mp hnodup) (fun m hm => hlt m (hperm.mem_iff.mpr hm)) ?_
    simp only [length_cons, length_nil] at halloc ⊢
    omega
  · exact ⟨hmru ▸ List.Sublist.refl _, fun m hm => hmem m (hmru ▸ hm)⟩

/-- An entry is unlinked from the MRU list and its chain. -/
def unlinkEntry (s : MonSys) (m : Nat) : MonSys :=
  removeFromHash { s with mon_mru_list := s.mon_mru_list.erase m } m

theorem unlinkEntry_shrinks (s : MonSys) (m : Nat) : Shrinks s (unlinkEntry s m) :=
  ⟨erase_sublist, fun _ _ => rfl⟩

theorem unlinkEntry_inv {held : List Nat} (h : MonInv held s) (hm : m ∈ s.mon_mru_list) :
    MonInv (m :: held) (unlinkEntry s m) := by
  have hperm : (held ++ (s.mon_mru_list ++ s.mon_free)).Perm
      (m :: held ++ (s.mon_mru_list.erase m ++ s.mon_free)) :=
    (((perm_cons_erase hm).append_right _).append_left held).trans perm_middle
  have hlen : s.mon_mru_list.length = (s.mon_mru_list.erase m).length + 1 := by
    rw [length_erase_of_mem hm]
    have := length_pos_of_mem hm
    omega
  have hchain : m ∈ s.mon_hash (s.bucket m) := h.indexes.mem_iff.mpr ⟨hm, rfl⟩
  refine ⟨hperm.nodup_iff.mp h.nodup, fun x hx => h.lt x (hperm.mem_iff.mpr hx), ?_, ?_, ?_, ?_,
    ?_, ?_⟩
  · exact h.indexes.unlink rfl
  · exact (unlinkEntry_shrinks s m).pairwise
      (r := fun e e' => ¬e.rmtadr.sockEq e'.rmtadr = true) h.unique
  · have hentries := h.entries
    simp only [unlinkEntry, removeFromHash, uintPred]
    rw [if_neg (by omega)]
    omega
  · have halloc := h.alloc
    simp only [unlinkEntry, removeFromHash, length_cons]
    omega
  · intro henabled
    have hempty := h.off henabled
    simp [unlinkEntry, removeFromHash, hempty]
  · simp only [unlinkEntry, removeFromHash, h.sound, Bool.false_or, decide_eq_false_iff_not,
      not_not]
    exact hchain

theorem update_inv {held : List Nat} (h : MonInv held s) (hm : m ∈ held) (e : MonEntry) :
    MonInv held { s with mem := update s.mem m e } := by
  refine h.move rfl ?_ rfl rfl rfl rfl rfl h.nodup h.lt h.alloc
  exact update_off (h.held_not_mem hm)

theorem monFreeEntry_inv {held : List Nat} (h : MonInv (m :: held) s) :
    MonInv held (monFreeEntry s m) := by
  have hw := update_inv h (mem_cons_self) {}
  have hperm : (m :: held ++ (s.mon_mru_list ++ s.mon_free)).Perm
      (held ++ (s.mon_mru_list ++ m :: s.mon_free)) :=
    (perm_middle.symm).trans ((perm_middle.symm).append_left held)
  refine hw.move rfl (fun _ _ => rfl) rfl rfl rfl rfl rfl (hperm.nodup_iff.mp h.nodup)
    (fun x hx => h.lt x (hperm.mem_iff.mpr hx)) ?_
  have halloc := h.alloc
  simp only [monFreeEntry, length_cons] at halloc ⊢
  omega

theorem monReclaimEntry_inv (h : MonWf s) (hm : m ∈ s.mon_mru_list) :
    MonInv [m] (monReclaimEntry s m) ∧ Shrinks s (monReclaimEntry s m) := by
  have hinv : MonInv [m] (unlinkEntry s m) := unlinkEntry_inv h hm
  refine ⟨update_inv hinv (mem_singleton_self m) {}, ?_⟩
  refine ⟨erase_sublist, ?_⟩
  exact update_off (hinv.held_not_mem (mem_singleton_self m))

/-! ### Packets -/

/-- The settings that the source relies on. -/
structure KnobsOk (k : Knobs) : Prop where
  initalloc : 0 < k.mru_initalloc
  incalloc : 0 < k.mru_incalloc
  maxdepth : 0 < k.mru_maxdepth

instance (k : Knobs) : Decidable (KnobsOk k) :=
  decidable_of_iff (0 < k.mru_initalloc ∧ 0 < k.mru_incalloc ∧ 0 < k.mru_maxdepth)
    ⟨fun h => ⟨h.1, h.2.1, h.2.2⟩, fun h => ⟨h.initalloc, h.incalloc, h.maxdepth⟩⟩

/-- Where an entry for a new source comes from: the free list, which may have been filled, or the
    end of the MRU list if that is not below its minimum depth. -/
theorem getEntry_cases (h : MonWf s) {k : Knobs} (hk : KnobsOk k) (recv_time : LFp)
    (refuse : Bool) :
    getEntry s k recv_time refuse = none ∨
    ((s.mru_entries < k.mru_mindepth ∨ s.mon_free ≠ [] ∨ s.mru_alloc < k.mru_maxdepth) ∧
      getEntry s k recv_time refuse = some (takeFree s k)) ∨
    (k.mru_mindepth ≤ s.mru_entries ∧ ∃ oldest ∈ s.mon_mru_list,
      getEntry s k recv_time refuse = some (monReclaimEntry s oldest, oldest)) := by
  unfold getEntry
  by_cases hmin : s.mru_entries < k.mru_mindepth
  · simp only [if_pos hmin]
    exact .inr (.inl ⟨.inl hmin, trivial⟩)
  · simp only [if_neg hmin]
    rw [not_lt] at hmin
    cases hlast : s.mon_mru_list.getLast? with
    | some oldest =>
      have hold : oldest ∈ s.mon_mru_list := mem_of_getLast? hlast
      by_cases hage : k.mru_maxage.toInt < interval recv_time (s.mem oldest).last
      · simp only [if_pos hage]
        exact .inr (.inr ⟨hmin, oldest, hold, rfl⟩)
      · simp only [if_neg hage]
        by_cases hfree : s.mon_free ≠ [] ∨ s.mru_alloc < k.mru_maxdepth
        · simp only [if_pos hfree]
          exact .inr (.inl ⟨.inr hfree, trivial⟩)
        · simp only [if_neg hfree]
          cases refuse with
          | true => exact .inl rfl
          | false => exact .inr (.inr ⟨hmin, oldest, hold, rfl⟩)
    | none =>
      -- With an empty list, all that is allocated is free.
      rw [List.getLast?_eq_none_iff] at hlast
      have hroom : s.mon_free ≠ [] ∨ s.mru_alloc < k.mru_maxdepth := by
        by_contra hno
        rw [not_or, not_not] at hno
        have halloc := h.alloc_of_empty hno.1
        rw [hlast, length_nil] at halloc
        have := hk.maxdepth
        omega
      simp only [if_pos hroom]
      exact .inr (.inl ⟨.inr hroom, trivial⟩)

theorem getEntry_inv {s1 : MonSys} (h : MonWf s) {k : Knobs} (hk : KnobsOk k) {recv_time : LFp}
    {refuse : Bool} (hget : getEntry s k recv_time refuse = some (s1, mon)) :
    MonInv [mon] s1 ∧ Shrinks s s1 ∧ s1.mon_enabled = s.mon_enabled := by
  rcases getEntry_cases h hk recv_time refuse with hnone | ⟨-, hfree⟩ | ⟨-, oldest, hold, hlast⟩
  · rw [hnone] at hget
    exact absurd hget (by simp)
  · obtain ⟨s2, m, rest, hs2, -, htake, hinv, hshrinks, -⟩ :=
      takeFree_inv h hk.initalloc hk.incalloc
    rw [hfree, htake] at hget
    obtain ⟨rfl, rfl⟩ := hget
    refine ⟨hinv, hshrinks, ?_⟩
    rw [hs2]
    split_ifs
    · rw [monGetmoremem_eq]
    · rfl
  · rw [hlast] at hget
    obtain ⟨rfl, rfl⟩ := hget
    exact ⟨(monReclaimEntry_inv h hold).1, (monReclaimEntry_inv h hold).2, rfl⟩

/-- No entry is for the address. -/
def Unknown (s : MonSys) (addr : SockAddr) : Prop :=
  ∀ m ∈ s.mon_mru_list, ¬(s.mem m).rmtadr.sockEq addr = true

instance (s : MonSys) (addr : SockAddr) : Decidable (Unknown s addr) :=
  inferInstanceAs (Decidable (∀ _ ∈ _, _))

theorem findMon_none (h : MonWf s) (addr : SockAddr) : findMon s addr = none ↔ Unknown s addr := by
  apply h.indexes.find?_eq_none
  intro m _ heq
  unfold MonSys.bucket monHash
  rw [sockHash_congr heq]

theorem findMon_some (h : MonWf s) {addr : SockAddr} (hfind : findMon s addr = some m) :
    m ∈ s.mon_mru_list ∧ (s.mem m).rmtadr.sockEq addr = true :=
  h.indexes.find?_eq_some hfind

/-- What a packet can do: nothing, if monitoring is off or it is refused; the entry of its source is
    updated and moved to the front; or an entry becomes that of its source. -/
theorem ntpMonitor_cases (h : MonWf s) (k : Knobs) (p : MonPacket) (flags : BitVec 16)
    (refuse : Bool) :
    (Unknown s p.recv_srcadr ∧ ntpMonitor s k p flags refuse = (s, doused flags)) ∨
    (s.mon_enabled ≠ MON_OFF ∧ ∃ mon ∈ s.mon_mru_list,
      (s.mem mon).rmtadr.sockEq p.recv_srcadr = true ∧
      ntpMonitor s k p flags refuse =
        (touchEntry s k p flags mon, ((s.mem mon).control k p flags).2)) ∨
    (s.mon_enabled ≠ MON_OFF ∧ Unknown s p.recv_srcadr ∧ ∃ s1 mon,
      getEntry s k p.recv_time refuse = some (s1, mon) ∧
      ntpMonitor s k p flags refuse = (insertEntry s1 p flags mon, doused flags)) := by
  unfold ntpMonitor
  split_ifs with hoff
  · refine .inl ⟨?_, rfl⟩
    intro m hm
    rw [h.off hoff] at hm
    exact absurd hm (by simp)
  · cases hfind : findMon s p.recv_srcadr with
    | some mon =>
      obtain ⟨hmon, heq⟩ := findMon_some h hfind
      exact .inr (.inl ⟨hoff, mon, hmon, heq, rfl⟩)
    | none =>
      have hnew := (findMon_none h p.recv_srcadr).mp hfind
      cases hget : getEntry s k p.recv_time refuse with
      | none => exact .inl ⟨hnew, rfl⟩
      | some r => exact .inr (.inr ⟨hoff, hnew, r.1, r.2, rfl, rfl⟩)

theorem touchEntry_mem_self (s : MonSys) (k : Knobs) (p : MonPacket) (flags : BitVec 16)
    (mon : Nat) : (touchEntry s k p flags mon).mem mon = (s.mem mon).again k p flags :=
  update_self _ _ _

theorem touchEntry_mem_of_ne (s : MonSys) (k : Knobs) (p : MonPacket) (flags : BitVec 16)
    (hne : m ≠ mon) : (touchEntry s k p flags mon).mem m = s.mem m :=
  update_of_ne hne _ _

theorem insertEntry_mem_self (s : MonSys) (p : MonPacket) (flags : BitVec 16) (mon : Nat) :
    (insertEntry s p flags mon).mem mon = p.first flags :=
  update_self _ _ _

theorem insertEntry_mem_of_ne (s : MonSys) (p : MonPacket) (flags : BitVec 16)
    (hne : m ≠ mon) : (insertEntry s p flags mon).mem m = s.mem m :=
  update_of_ne hne _ _

/-- Another packet changes the port of an address at most. -/
theorem MonEntry.again_sockEq (e : MonEntry) (k : Knobs) (p : MonPacket) (flags : BitVec 16) :
    (e.again k p flags).rmtadr.sockEq e.rmtadr = true := by
  simp [MonEntry.again, sockEq_iff]

theorem touchEntry_sockEq (s : MonSys) (k : Knobs) (p : MonPacket) (flags : BitVec 16)
    (mon m : Nat) : ((touchEntry s k p flags mon).mem m).rmtadr.sockEq (s.mem m).rmtadr = true := by
  by_cases hm : m = mon
  · rw [hm, touchEntry_mem_self]
    exact MonEntry.again_sockEq _ k p flags
  · rw [touchEntry_mem_of_ne s k p flags hm]
    exact sockEq_refl _

theorem touchEntry_inv (h : MonWf s) (k : Knobs) (p : MonPacket) (flags : BitVec 16)
    (hmon : mon ∈ s.mon_mru_list) : MonWf (touchEntry s k p flags mon) := by
  have hperm : s.mon_mru_list.Perm (mon :: s.mon_mru_list.erase mon) := perm_cons_erase hmon
  have hall : (s.mon_mru_list ++ s.mon_free).Perm
      (mon :: s.mon_mru_list.erase mon ++ s.mon_free) := hperm.append_right _
  -- The address of no entry changes but for the port.
  have haddr := touchEntry_sockEq s k p flags mon
  refine ⟨hall.nodup_iff.mp h.nodup, fun m hm => h.lt m (hall.mem_iff.mpr hm), ?_, ?_, ?_, ?_, ?_,
    h.sound⟩
  · refine (h.indexes.congr ?_).perm hperm
    intro m _
    unfold MonSys.bucket monHash
    rw [sockHash_congr (haddr m)]
    rfl
  · have hsymm : Std.Symm fun a b => ¬(s.mem a).rmtadr.sockEq (s.mem b).rmtadr = true :=
      ⟨fun _ _ hab hba => hab (sockEq_symm hba)⟩
    refine ((hperm.pairwise_iff (fun {_ _} => hsymm.symm _ _)).mp h.unique).imp ?_
    intro a b hab heq
    exact hab (sockEq_trans (sockEq_symm (haddr a))
      (sockEq_trans heq (haddr b)))
  · exact h.entries.trans hperm.length_eq
  · have halloc := h.alloc
    rw [hperm.length_eq] at halloc
    exact halloc
  · intro henabled
    rw [h.off henabled] at hmon
    exact absurd hmon (by simp)

theorem insertEntry_inv (h : MonInv [mon] s) (hon : s.mon_enabled ≠ MON_OFF) {p : MonPacket}
    (hnew : Unknown s p.recv_srcadr) (flags : BitVec 16) : MonWf (insertEntry s p flags mon) := by
  have hnot : mon ∉ s.mon_mru_list := h.held_not_mem (mem_singleton_self mon)
  have hmem : ∀ m ∈ s.mon_mru_list, (insertEntry s p flags mon).mem m = s.mem m := by
    intro m hm
    have hne : m ≠ mon := fun heq => hnot (heq ▸ hm)
    exact insertEntry_mem_of_ne s p flags hne
  have hself := insertEntry_mem_self s p flags mon
  refine ⟨h.nodup, h.lt, ?_, ?_, ?_, ?_, fun henabled => absurd henabled hon, h.sound⟩
  · have hold : Chained.Indexes s.mon_hash
        (fun m => some ((insertEntry s p flags mon).bucket m)) s.mon_mru_list := by
      apply h.indexes.congr
      intro m hm
      unfold MonSys.bucket
      rw [hmem m hm]
      rfl
    have hbucket : (insertEntry s p flags mon).bucket mon =
        monHash s.mon_hash_bits p.recv_srcadr := by
      unfold MonSys.bucket
      rw [hself]
      rfl
    exact hold.link (congrArg some hbucket)
  · refine pairwise_cons.mpr ⟨?_, ?_⟩
    · intro m hm heq
      rw [hself, hmem m hm] at heq
      exact hnew m hm (sockEq_symm heq)
    · refine h.unique.imp_of_mem ?_
      intro a b ha hb hab
      rw [hmem a ha, hmem b hb]
      exact hab
  · simp [insertEntry, h.entries]
  · have halloc := h.alloc
    simp only [insertEntry, length_cons, length_nil] at halloc ⊢
    omega

theorem Shrinks.unknown {s' : MonSys} (h : Shrinks s s') {addr : SockAddr}
    (hnew : Unknown s addr) : Unknown s' addr := by
  intro m hm
  rw [h.mem m hm]
  exact hnew m (h.mru.subset hm)

theorem ntpMonitor_wf (h : MonWf s) {k : Knobs} (hk : KnobsOk k) (p : MonPacket) (flags : BitVec 16)
    (refuse : Bool) : MonWf (ntpMonitor s k p flags refuse).1 := by
  rcases ntpMonitor_cases h k p flags refuse with
    ⟨-, heq⟩ | ⟨-, mon, hmon, -, heq⟩ | ⟨hon, hnew, s1, mon, hget, heq⟩
  · rw [heq]
    exact h
  · rw [heq]
    exact touchEntry_inv h k p flags hmon
  · obtain ⟨hinv, hshrinks, henabled⟩ := getEntry_inv h hk hget
    rw [heq]
    exact insertEntry_inv hinv (henabled ▸ hon) (hshrinks.unknown hnew) flags

/-! ### Start and stop -/

theorem monStart_wf (h : MonWf s) (k : Knobs) (mode : BitVec 32) :
    MonWf (monStart s k mode) ∧ Shrinks s (monStart s k mode) := by
  unfold monStart
  by_cases hmode : mode = MON_OFF
  · rw [if_pos hmode]
    exact ⟨h, Shrinks.refl s⟩
  · rw [if_neg hmode]
    by_cases hon : s.mon_enabled = MON_OFF
    · -- Monitoring was off, so the list is empty.
      rw [if_neg (not_not.mpr hon)]
      obtain ⟨s1, hs1⟩ : ∃ s1, s1 = (if s.mon_mem_increments = 0 then monGetmoremem s k else s) :=
        ⟨_, rfl⟩
      have hinv : MonWf s1 ∧ s1.mon_mru_list = [] := by
        rw [hs1]
        split_ifs
        · exact ⟨(monGetmoremem_inv h k).1, by rw [monGetmoremem_eq]; exact h.off hon⟩
        · exact ⟨h, h.off hon⟩
      simp only [← hs1]
      obtain ⟨hw, hempty⟩ := hinv
      refine ⟨{ hw with indexes := ?_, unique := ?_, off := fun _ => hempty }, ?_⟩
      · simp only [hempty]
        exact indexes_nil _
      · simp only [hempty]
        exact .nil
      · exact ⟨by simp [hempty], by simp [hempty]⟩
    · rw [if_pos hon]
      refine ⟨{ h with off := ?_ }, List.Sublist.refl _, fun _ _ => rfl⟩
      intro henabled
      -- A mode that is added does not switch monitoring off.
      exfalso
      apply hmode
      have hor : s.mon_enabled ||| mode = 0#32 := henabled
      rw [BitVec.or_eq_zero_iff] at hor
      exact hor.2

theorem monStop_wf (h : MonWf s) (mode : BitVec 32) :
    MonWf (monStop s mode) ∧ Shrinks s (monStop s mode) := by
  unfold monStop
  by_cases hon : s.mon_enabled = MON_OFF
  · rw [if_pos hon]
    exact ⟨h, Shrinks.refl s⟩
  · rw [if_neg hon]
    by_cases hmode : s.mon_enabled &&& mode = 0 ∨ mode = MON_OFF
    · rw [if_pos hmode]
      exact ⟨h, Shrinks.refl s⟩
    · rw [if_neg hmode]
      by_cases hleft : s.mon_enabled &&& ~~~mode ≠ MON_OFF
      · rw [if_pos hleft]
        exact ⟨{ h with
          off := fun henabled => absurd henabled hleft }, List.Sublist.refl _, fun _ _ => rfl⟩
      · rw [if_neg hleft, foldl_monFreeEntry]
        have hperm : (s.mon_mru_list ++ s.mon_free).Perm (s.mon_mru_list.reverse ++ s.mon_free) :=
          (reverse_perm _).symm.append_right _
        refine ⟨⟨hperm.nodup_iff.mp h.nodup, fun m hm => h.lt m (hperm.mem_iff.mpr hm),
          indexes_nil _, .nil, rfl, ?_, fun _ => rfl, h.sound⟩, ?_⟩
        · have halloc := h.alloc
          simp only [length_nil, length_append, length_reverse] at halloc ⊢
          omega
        · exact ⟨by simp, by simp⟩

theorem clearEntry_wf (h : MonWf s) (lcladr : Nat) (hmon : mon ∈ s.mon_mru_list) :
    MonWf (clearEntry lcladr s mon) ∧ Shrinks s (clearEntry lcladr s mon) ∧
      ∀ m ∈ s.mon_mru_list, m ≠ mon → m ∈ (clearEntry lcladr s mon).mon_mru_list := by
  unfold clearEntry
  split_ifs
  · have hinv : MonInv [mon] (unlinkEntry s mon) := unlinkEntry_inv h hmon
    refine ⟨monFreeEntry_inv hinv, ⟨erase_sublist, ?_⟩, ?_⟩
    · exact update_off (hinv.held_not_mem (mem_singleton_self mon))
    · intro m hm hne
      exact (mem_erase_of_ne hne).mpr hm
  · exact ⟨h, Shrinks.refl s, fun m hm _ => hm⟩

/-- The loop over entries that are all still on the list. -/
theorem foldl_clearEntry_wf (lcladr : Nat) (ms : List Nat) (hms : ms.Nodup) (h : MonWf s)
    (hsub : ∀ m ∈ ms, m ∈ s.mon_mru_list) :
    MonWf (ms.foldl (clearEntry lcladr) s) ∧ Shrinks s (ms.foldl (clearEntry lcladr) s) := by
  induction ms generalizing s with
  | nil => exact ⟨h, Shrinks.refl s⟩
  | cons m ms ih =>
    rw [nodup_cons] at hms
    obtain ⟨hw, hshrinks, hkeeps⟩ := clearEntry_wf h lcladr (hsub m mem_cons_self)
    have hrest : ∀ x ∈ ms, x ∈ (clearEntry lcladr s m).mon_mru_list := by
      intro x hx
      have hne : x ≠ m := fun heq => hms.1 (heq ▸ hx)
      exact hkeeps x (hsub x (mem_cons_of_mem m hx)) hne
    obtain ⟨hwf, htail⟩ := ih hms.2 hw hrest
    exact ⟨hwf, hshrinks.trans htail⟩

theorem monClearinterface_wf (h : MonWf s) (lcladr : Nat) :
    MonWf (monClearinterface s lcladr) ∧ Shrinks s (monClearinterface s lcladr) :=
  foldl_clearEntry_wf lcladr s.mon_mru_list h.mru_nodup h fun _ hm => hm

/-! ### What the restrict lists see

The restrict lists switch monitoring on and off and keep a copy of no more
than `mon_enabled`. -/

theorem monStart_enabled (s : MonSys) (k : Knobs) (mode : BitVec 32) {v : ResVars}
    (hv : v.mon_enabled = s.mon_enabled) :
    (NtpSuite.monStart v mode).mon_enabled = (monStart s k mode).mon_enabled := by
  unfold NtpSuite.monStart monStart
  rw [hv]
  split_ifs <;> simp [hv]

theorem monStop_enabled (s : MonSys) (mode : BitVec 32) {v : ResVars}
    (hv : v.mon_enabled = s.mon_enabled) :
    (NtpSuite.monStop v mode).mon_enabled = (monStop s mode).mon_enabled := by
  unfold NtpSuite.monStop monStop
  rw [hv]
  simp only [foldl_monFreeEntry]
  split_ifs <;> simp [hv]

/-! ### Runs -/

/-- The settings of the step are such that the source can rely on them. -/
def EventOk : MonEvent → Prop
  | .start k _ => KnobsOk k
  | .stop _ => True
  | .clearinterface _ => True
  | .packet k _ _ _ => KnobsOk k

instance : (e : MonEvent) → Decidable (EventOk e)
  | .start k _ => inferInstanceAs (Decidable (KnobsOk k))
  | .stop _ => inferInstanceAs (Decidable True)
  | .clearinterface _ => inferInstanceAs (Decidable True)
  | .packet k _ _ _ => inferInstanceAs (Decidable (KnobsOk k))

theorem monStep_wf (s : MonSys) (e : MonEvent) (h : MonWf s) (he : EventOk e) :
    MonWf (monStep s e) := by
  cases e with
  | start k mode => exact (monStart_wf h k mode).1
  | stop mode => exact (monStop_wf h mode).1
  | clearinterface lcladr => exact (monClearinterface_wf h lcladr).1
  | packet k p flags refuse => exact ntpMonitor_wf h he p flags refuse

/-- What an observer has seen: the number of packets, and the number of the
    last one from each address. -/
structure History where
  packets : Nat := 0
  latest : SockAddr → Nat := fun _ => 0

/-- The observer takes note of packets. -/
def observe (o : History) : MonEvent → History
  | .packet _ p _ _ =>
    { packets := o.packets + 1
      latest := fun a => if p.recv_srcadr.sockEq a then o.packets + 1 else o.latest a }
  | _ => o

/-- The number of the last packet from the address in a run. -/
def latest (es : List MonEvent) (addr : SockAddr) : Nat := (Run.exec observe {} es).latest addr

/-- What the observer has noted is about addresses, and about the past. -/
structure HistoryOk (o : History) : Prop where
  le : ∀ a, o.latest a ≤ o.packets
  congr : ∀ a b, a.sockEq b = true → o.latest a = o.latest b

theorem observe_ok (o : History) (e : MonEvent) (h : HistoryOk o) : HistoryOk (observe o e) := by
  cases e with
  | start k mode | stop mode | clearinterface lcladr => exact h
  | packet k p flags refuse =>
    refine ⟨?_, ?_⟩
    · intro a
      have := h.le a
      simp only [observe]
      split_ifs <;> omega
    · intro a b hab
      have hiff : p.recv_srcadr.sockEq a = true ↔ p.recv_srcadr.sockEq b = true :=
        ⟨fun ha => sockEq_trans ha hab,
          fun hb => sockEq_trans hb (sockEq_symm hab)⟩
      simp only [observe, hiff, h.congr a b hab]

/-- The list is in the order of the latest packets. -/
def InOrder (s : MonSys) (o : History) : Prop :=
  s.mon_mru_list.Pairwise fun a b => o.latest (s.mem b).rmtadr < o.latest (s.mem a).rmtadr

/-- A packet from an address nobody on the list has makes no difference. -/
theorem InOrder.unknown {o : History} (h : InOrder s o) {p : MonPacket}
    (hnew : Unknown s p.recv_srcadr) (k : Knobs) (flags : BitVec 16) (refuse : Bool) :
    InOrder s (observe o (.packet k p flags refuse)) := by
  refine h.imp_of_mem ?_
  intro a b ha hb hab
  have hmiss : ∀ m ∈ s.mon_mru_list, ¬p.recv_srcadr.sockEq (s.mem m).rmtadr = true :=
    fun m hm heq => hnew m hm (sockEq_symm heq)
  simp only [observe, if_neg (hmiss a ha), if_neg (hmiss b hb)]
  exact hab

theorem InOrder.shrinks {s' : MonSys} {o : History} (h : InOrder s o) (hs : Shrinks s s') :
    InOrder s' o :=
  hs.pairwise (r := fun e e' => o.latest e'.rmtadr < o.latest e.rmtadr) h

/-- The list with the entry of the latest packet at its head. -/
theorem inOrder_cons {o : History} (ho : HistoryOk o) {p : MonPacket} {ms : List Nat}
    (hlist : s.mon_mru_list = mon :: ms) (hmon : p.recv_srcadr.sockEq (s.mem mon).rmtadr = true)
    (hms : ∀ m ∈ ms, ¬p.recv_srcadr.sockEq (s.mem m).rmtadr = true)
    (hord : ms.Pairwise fun a b => o.latest (s.mem b).rmtadr < o.latest (s.mem a).rmtadr)
    (k : Knobs) (flags : BitVec 16) (refuse : Bool) :
    InOrder s (observe o (.packet k p flags refuse)) := by
  unfold InOrder
  rw [hlist]
  constructor
  · intro m hm
    have := ho.le (s.mem m).rmtadr
    simp only [observe, if_pos hmon, if_neg (hms m hm)]
    omega
  · refine hord.imp_of_mem ?_
    intro a b ha hb hab
    simp only [observe, if_neg (hms a ha), if_neg (hms b hb)]
    exact hab

theorem monStep_inOrder (s : MonSys) (o : History) (e : MonEvent) (h : MonWf s)
    (ho : HistoryOk o) (hord : InOrder s o) (he : EventOk e) :
    InOrder (monStep s e) (observe o e) := by
  cases e with
  | start k mode => exact hord.shrinks (monStart_wf h k mode).2
  | stop mode => exact hord.shrinks (monStop_wf h mode).2
  | clearinterface lcladr => exact hord.shrinks (monClearinterface_wf h lcladr).2
  | packet k p flags refuse =>
    simp only [monStep]
    rcases ntpMonitor_cases h k p flags refuse with
      ⟨hnew, heq⟩ | ⟨-, mon, hmon, haddr, heq⟩ | ⟨-, hnew, s1, mon, hget, heq⟩
    · rw [heq]
      exact hord.unknown hnew k flags refuse
    · -- The others keep their order, and none of them has the address.
      rw [heq]
      have hsame : ∀ m ∈ s.mon_mru_list.erase mon,
          (touchEntry s k p flags mon).mem m = s.mem m := by
        intro m hm
        exact touchEntry_mem_of_ne s k p flags (h.mru_nodup.mem_erase_iff.mp hm).1
      refine inOrder_cons ho rfl ?_ ?_ ?_ k flags refuse
      · exact sockEq_symm
          (sockEq_trans (touchEntry_sockEq s k p flags mon mon) haddr)
      · intro m hm heqm
        rw [hsame m hm] at heqm
        have hone := h.eq_of_sockEq hmon (mem_of_mem_erase hm)
          (sockEq_trans haddr heqm)
        exact (h.mru_nodup.mem_erase_iff.mp hm).1 hone.symm
      · refine (List.Pairwise.sublist erase_sublist hord).imp_of_mem ?_
        intro a b ha hb hab
        rw [hsame a ha, hsame b hb]
        exact hab
    · rw [heq]
      obtain ⟨hinv, hshrinks, -⟩ := getEntry_inv h he hget
      have hsame : ∀ m ∈ s1.mon_mru_list, (insertEntry s1 p flags mon).mem m = s1.mem m := by
        intro m hm
        have hne : m ≠ mon :=
          fun hmm => hinv.held_not_mem (mem_singleton_self mon) (hmm ▸ hm)
        exact insertEntry_mem_of_ne s1 p flags hne
      refine inOrder_cons ho rfl ?_ ?_ ?_ k flags refuse
      · rw [insertEntry_mem_self]
        exact sockEq_refl _
      · intro m hm heqm
        rw [hsame m hm] at heqm
        exact hshrinks.unknown hnew m hm (sockEq_symm heqm)
      · refine (hord.shrinks hshrinks).imp_of_mem ?_
        intro a b ha hb hab
        rw [hsame a ha, hsame b hb]
        exact hab

/-- The table and what the observer has noted. -/
structure Observed (r : MonSys × History) : Prop where
  wf : MonWf r.1
  history : HistoryOk r.2
  order : InOrder r.1 r.2

theorem exec_observed (es : List MonEvent) (hes : ∀ e ∈ es, EventOk e) :
    Observed (Run.exec monStep {} es, Run.exec observe {} es) := by
  have hmeets : Run.Meets (Run.both monStep observe) (fun _ e => EventOk e) ({}, {}) es :=
    Run.meets_of_forall _ fun e he _ => hes e he
  have hstart : Observed ({}, {}) :=
    ⟨monWf_start, ⟨fun _ => le_refl 0, fun _ _ _ => rfl⟩, .nil⟩
  rw [← Run.exec_both]
  refine Run.exec_invariant ?_ _ es hstart hmeets
  intro r e h he
  exact ⟨monStep_wf r.1 e h.wf he, observe_ok r.2 e h.history,
    monStep_inOrder r.1 r.2 e h.wf h.history h.order he⟩

/-- After every run, the entries on the MRU list are those on the chains, each in the bucket of its
    address; no two have the same address; the counters are right; the list is in the order of the
    latest packets, the most recent first; and no assertion has failed. -/
theorem monitor_consistent (es : List MonEvent) (hes : ∀ e ∈ es, EventOk e) :
    let s := Run.exec monStep {} es
    (∀ b, (s.mon_hash b).Perm
      (s.mon_mru_list.filter fun m => monHash s.mon_hash_bits (s.mem m).rmtadr = b)) ∧
    (s.mon_mru_list ++ s.mon_free).Nodup ∧
    (s.mon_mru_list.Pairwise fun a b => ¬(s.mem a).rmtadr.sockEq (s.mem b).rmtadr = true) ∧
    s.mru_entries = s.mon_mru_list.length ∧
    s.mru_alloc = s.mru_entries + s.mon_free.length ∧
    (s.mon_mru_list.Pairwise fun a b =>
      latest es (s.mem b).rmtadr < latest es (s.mem a).rmtadr) ∧
    s.aborted = false := by
  obtain ⟨h, -, hord⟩ := exec_observed es hes
  refine ⟨h.indexes.chain, h.nodup, h.unique, h.entries, ?_, hord, h.sound⟩
  have halloc := h.alloc
  rw [length_nil, zero_add, ← h.entries] at halloc
  exact halloc

/-- A packet from an IPv4 address. -/
def packetFrom (addr : Nat) (recv_time : LFp) (dstadr : Nat) : MonPacket :=
  { recv_srcadr := { addr := addr }, recv_time := recv_time, dstadr := dstadr }

/-- Three sources on a table for two: the second packet of the first source moves it to the front,
    the third source takes the place of the second, and the first then goes with its endpoint. -/
def crowdedRun : List MonEvent :=
  let k : Knobs := { mru_mindepth := 1, mru_maxdepth := 2, mru_initalloc := 1, mru_incalloc := 1 }
  [.start k MON_ON, .packet k (packetFrom 1 0 7) 0 false, .packet k (packetFrom 2 0 8) 0 false,
    .packet k (packetFrom 1 0 7) 0 false, .packet k (packetFrom 3 0 8) 0 false,
    .clearinterface 7]

theorem monitor_consistent_crowdedRun :
    (∀ e ∈ crowdedRun, EventOk e) ∧
    (Run.exec monStep {} (crowdedRun.take 5)).mon_mru_list = [1, 0] ∧
    (Run.exec monStep {} crowdedRun).mon_mru_list = [1] ∧
    (Run.exec monStep {} crowdedRun).mru_entries =
      (Run.exec monStep {} crowdedRun).mon_mru_list.length :=
  ⟨by decide, by decide, by decide,
    (monitor_consistent crowdedRun (by decide)).2.2.2.1⟩

end Mon

end NtpSuite
