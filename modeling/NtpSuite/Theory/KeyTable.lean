import NtpSuite.Core.Authkeys
import NtpSuite.Lib.Run

/-!
# The Key Table

What holds of the key table after every run, whatever the callers do: the keys
on the list are those on the chains, no two have the same identifier, and no
two have the same block for a secret. Nothing is said about whether the blocks
are live, since that is what the source gets wrong.

The functions change one key at a time, and `Keeps` says of the others that
they are as before, with the octets of their secrets. Two functions walk over
the whole list; `Sweeps` is what the body of such a loop has to do for one
key, and `Sweeps.fold` is what the loop then does.

## Main definitions

* `Keys.KeyInv`: The invariant.
* `Keys.Keeps`: A key is as it was.
* `Keys.Intact`: The secret of a key can be cleared and freed.
* `Keys.Sweeps`: The body of a loop over the keys.

## Theorems

* `Keys.allocsymkey_spec`, `Keys.freesymkey_spec`: A key comes and goes.
* `Keys.authFindkey_eq_some_iff`: What a search of a chain finds.
* `Keys.exec_keyInv`: The invariant, for every run.
-/

namespace NtpSuite.Keys

open Function (update update_self update_of_ne)

open Malloc (Heap)
open List Chained

/-- The invariant of the table. -/
structure KeyInv (s : AuthSys) : Prop where
  nodup : (s.key_list ++ s.authfreekeys).Nodup
  lt : ∀ sk ∈ s.key_list ++ s.authfreekeys, sk < s.allocated
  indexes : Chained.Indexes s.key_hash (fun sk => some (s.bucket sk)) s.key_list
  unique : ∀ a ∈ s.key_list, ∀ b ∈ s.key_list, (s.mem a).keyid = (s.mem b).keyid → a = b
  numfree : s.authnumfreekeys = s.authfreekeys.length
  numkeys : s.key_list.length ≤ s.authnumkeys
  heap : s.heap.Wf
  past : ∀ a ∈ s.key_list, (s.mem a).secret < s.heap.next
  owner : ∀ a ∈ s.key_list, ∀ b ∈ s.key_list,
    (s.mem a).secret = (s.mem b).secret → (s.mem a).secret ≠ 0 → a = b

variable {s' : AuthSys} {key : SymKey} {id keyno : Nat}

theorem keyInv_start : KeyInv {} :=
  ⟨by simp, by simp, indexes_nil _, by simp, rfl, by simp, Heap.wf_empty, by simp, by simp⟩

/-- The key is on the list, and it and the block of its secret are as before. -/
structure Keeps (s s' : AuthSys) (a : Nat) : Prop where
  on : a ∈ s'.key_list
  mem : s'.mem a = s.mem a
  block : s'.heap.block (s.mem a).secret = s.heap.block (s.mem a).secret

variable {a : Nat} {s : AuthSys} {sk : Nat} (lib : KeyLib)

theorem Keeps.trans {s'' : AuthSys} (h : Keeps s s' a) (h' : Keeps s' s'' a) : Keeps s s'' a := by
  have hblock := h'.block
  rw [h.mem] at hblock
  exact ⟨h'.on, h'.mem.trans h.mem, hblock.trans h.block⟩

/-- The secret of the key, if it has one, is a live block that holds it. -/
def Intact (s : AuthSys) (sk : Nat) : Prop :=
  (s.mem sk).secret ≠ 0 → s.heap.Holds (s.mem sk).secret (s.mem sk).secretsize

instance (s : AuthSys) (sk : Nat) : Decidable (Intact s sk) := inferInstanceAs (Decidable (_ → _))

theorem Keeps.intact (h : Keeps s s' a) (hintact : Intact s a) : Intact s' a := by
  unfold Intact at hintact ⊢
  unfold Heap.Holds at hintact ⊢
  rw [h.mem, h.block]
  exact hintact

/-- The cache and the clock are as before. -/
structure SameCache (s s' : AuthSys) : Prop where
  keyid : s'.cache_keyid = s.cache_keyid
  secret : s'.cache_secret = s.cache_secret
  secretsize : s'.cache_secretsize = s.cache_secretsize
  type : s'.cache_type = s.cache_type
  flags : s'.cache_flags = s.cache_flags
  time : s'.current_time = s.current_time

theorem SameCache.refl (s : AuthSys) : SameCache s s := ⟨rfl, rfl, rfl, rfl, rfl, rfl⟩

theorem SameCache.trans {s'' : AuthSys} (h : SameCache s s') (h' : SameCache s' s'') :
    SameCache s s'' :=
  ⟨h'.keyid.trans h.keyid, h'.secret.trans h.secret, h'.secretsize.trans h.secretsize,
    h'.type.trans h.type, h'.flags.trans h.flags, h'.time.trans h.time⟩

/-! ### Keys stay where they are -/

/-- The same keys are on the same lists, with the same identifiers and blocks. -/
structure SameKeys (s s' : AuthSys) : Prop where
  list : s'.key_list = s.key_list
  hash : s'.key_hash = s.key_hash
  buckets : s'.authhashbuckets = s.authhashbuckets
  free : s'.authfreekeys = s.authfreekeys
  numfree : s'.authnumfreekeys = s.authnumfreekeys
  numkeys : s'.authnumkeys = s.authnumkeys
  allocated : s'.allocated = s.allocated
  keyid : ∀ a, (s'.mem a).keyid = (s.mem a).keyid
  secret : ∀ a, (s'.mem a).secret = (s.mem a).secret
  heap : s'.heap.Wf
  next : s'.heap.next = s.heap.next

theorem SameKeys.bucket (h : SameKeys s s') : s'.bucket = s.bucket := by
  funext a
  unfold AuthSys.bucket AuthSys.keyhash
  rw [h.keyid a, h.buckets]

theorem KeyInv.same (h : KeyInv s) (hsame : SameKeys s s') : KeyInv s' := by
  refine ⟨?_, ?_, ?_, ?_, ?_, ?_, hsame.heap, ?_, ?_⟩
  · rw [hsame.list, hsame.free]
    exact h.nodup
  · rw [hsame.list, hsame.free, hsame.allocated]
    exact h.lt
  · rw [hsame.list, hsame.hash, hsame.bucket]
    exact h.indexes
  · simp only [hsame.list, hsame.keyid]
    exact h.unique
  · rw [hsame.free, hsame.numfree]
    exact h.numfree
  · rw [hsame.list, hsame.numkeys]
    exact h.numkeys
  · simp only [hsame.list, hsame.secret, hsame.next]
    exact h.past
  · simp only [hsame.list, hsame.secret]
    exact h.owner

/-- A key is written to that keeps its identifier and its block. -/
theorem update_sameKeys (hheap : s.heap.Wf) (hkeyid : key.keyid = (s.mem sk).keyid)
    (hsecret : key.secret = (s.mem sk).secret) : SameKeys s { s with mem := update s.mem sk key } :=
  ⟨rfl, rfl, rfl, rfl, rfl, rfl, rfl, update_field SymKey.keyid hkeyid,
    update_field SymKey.secret hsecret, hheap, rfl⟩

theorem KeyInv.secret_ne (h : KeyInv s) {b : Nat} (ha : a ∈ s.key_list) (hb : b ∈ s.key_list)
    (hne : a ≠ b) (hpos : (s.mem b).secret ≠ 0) : (s.mem a).secret ≠ (s.mem b).secret :=
  fun heq => hne (h.owner a ha b hb heq (heq ▸ hpos))

theorem KeyInv.list_nodup (h : KeyInv s) : s.key_list.Nodup :=
  (nodup_append.mp h.nodup).1

/-! ### Secrets -/

theorem freeSecret_sameCache (s : AuthSys) (sk : Nat) : SameCache s (freeSecret s sk) := by
  unfold freeSecret
  split_ifs <;> exact ⟨rfl, rfl, rfl, rfl, rfl, rfl⟩

theorem freeSecret_sameKeys (h : KeyInv s) (sk : Nat) : SameKeys s (freeSecret s sk) := by
  unfold freeSecret
  split_ifs
  · exact ⟨rfl, rfl, rfl, rfl, rfl, rfl, rfl, fun _ => rfl, fun _ => rfl,
      (h.heap.write _ _).free _, Heap.write_next _ _ _⟩
  · exact ⟨rfl, rfl, rfl, rfl, rfl, rfl, rfl, fun _ => rfl, fun _ => rfl, h.heap, rfl⟩

theorem freeSecret_keeps (h : KeyInv s) (hsk : sk ∈ s.key_list) (ha : a ∈ s.key_list)
    (hne : a ≠ sk) : Keeps s (freeSecret s sk) a := by
  unfold freeSecret
  split_ifs with hpos
  · have hblock := h.secret_ne ha hsk hne hpos
    refine ⟨ha, rfl, ?_⟩
    exact (Heap.free_block_of_ne hblock).trans (Heap.write_block_of_ne hblock)
  · exact ⟨ha, rfl, rfl⟩

theorem freeSecret_fault (hintact : Intact s sk) : (freeSecret s sk).fault = s.fault := by
  unfold freeSecret
  split_ifs with hpos
  · simp [hintact hpos]
  · rfl

/-! ### Keys come and go -/

theorem authMoremem_inv (h : KeyInv s) (keycount : Int) : KeyInv (authMoremem s keycount) := by
  obtain ⟨i, hi⟩ : ∃ i, i = if keycount > 0 then keycount.toNat else MEMINC := ⟨_, rfl⟩
  unfold authMoremem
  rw [← hi]
  have hnew : ∀ sk ∈ ((List.range i).map (s.allocated + ·)).reverse,
      s.allocated ≤ sk ∧ sk < s.allocated + i := by
    intro sk hsk
    obtain ⟨j, hj, rfl⟩ := mem_map.mp (mem_reverse.mp hsk)
    have := mem_range.mp hj
    omega
  have hperm : (s.key_list ++ (((List.range i).map (s.allocated + ·)).reverse ++
      s.authfreekeys)).Perm (((List.range i).map (s.allocated + ·)).reverse ++
      (s.key_list ++ s.authfreekeys)) := by
    rw [← append_assoc, ← append_assoc]
    exact perm_append_comm.append_right _
  refine { h with nodup := ?_, lt := ?_, numfree := ?_ }
  · rw [hperm.nodup_iff, nodup_append]
    refine ⟨?_, h.nodup, ?_⟩
    · exact nodup_reverse.mpr (nodup_range.map (add_right_injective s.allocated))
    · intro a ha b hb hab
      have hlow := (hnew a ha).1
      have hhigh := h.lt b hb
      omega
  · intro sk hsk
    rcases mem_append.mp (hperm.mem_iff.mp hsk) with hchunk | hold
    · exact (hnew sk hchunk).2
    · exact (h.lt sk hold).trans_le (Nat.le_add_right _ _)
  · simp only [length_append, length_reverse, length_map, length_range, h.numfree]
    omega

theorem authMoremem_sameCache (s : AuthSys) (keycount : Int) :
    SameCache s (authMoremem s keycount) := ⟨rfl, rfl, rfl, rfl, rfl, rfl⟩

theorem authResizeHashtable_inv (h : KeyInv s) (auth_log2 : Nat) :
    KeyInv (authResizeHashtable s auth_log2) :=
  { h with indexes := indexes_rebuild _ _ }

/-- A new key: at the end of the list, with all others as they were. -/
structure Adds (s s' : AuthSys) (sk : Nat) (key : SymKey) : Prop where
  inv : KeyInv s'
  new : sk ∉ s.key_list
  list : s'.key_list = s.key_list ++ [sk]
  self : s'.mem sk = key
  keeps : ∀ a ∈ s.key_list, s'.mem a = s.mem a
  heap : s'.heap = s.heap
  cache : SameCache s s'
  fault : s'.fault = s.fault

/-- The free list has a key, and nothing else is different. -/
structure Filled (s s' : AuthSys) : Prop where
  inv : KeyInv s'
  list : s'.key_list = s.key_list
  mem : s'.mem = s.mem
  heap : s'.heap = s.heap
  cache : SameCache s s'
  fault : s'.fault = s.fault
  free : s'.authfreekeys ≠ []

theorem filled_moremem (h : KeyInv s) :
    Filled s (if s.authnumfreekeys < 1 then authMoremem s (-1) else s) := by
  split_ifs with hempty
  · refine ⟨authMoremem_inv h _, rfl, rfl, rfl, authMoremem_sameCache s _, rfl, ?_⟩
    simp [authMoremem, MEMINC, range_succ]
  · refine ⟨h, rfl, rfl, rfl, SameCache.refl s, rfl, ?_⟩
    intro hnil
    rw [h.numfree, hnil] at hempty
    exact hempty Nat.zero_lt_one

/-- What no two keys share is not shared with a new key either, if none has it. -/
theorem distinct_concat (f : SymKey → Nat) (used : Nat → Prop) {mem mem' : Nat → SymKey}
    {l : List Nat} (hself : mem' sk = key) (hold : ∀ a ∈ l, mem' a = mem a)
    (hl : ∀ a ∈ l, ∀ b ∈ l, f (mem a) = f (mem b) → used (f (mem a)) → a = b)
    (hnew : used (f key) → ∀ a ∈ l, f (mem a) ≠ f key) :
    ∀ a ∈ l ++ [sk], ∀ b ∈ l ++ [sk], f (mem' a) = f (mem' b) → used (f (mem' a)) → a = b := by
  intro a ha b hb hab hused
  simp only [mem_append, mem_singleton] at ha hb
  rcases ha with ha | rfl
  · rcases hb with hb | rfl
    · rw [hold a ha, hold b hb] at hab
      rw [hold a ha] at hused
      exact hl a ha b hb hab hused
    · rw [hold a ha, hself] at hab
      rw [hold a ha, hab] at hused
      exact absurd hab (hnew hused a ha)
  · rcases hb with hb | rfl
    · rw [hself, hold b hb] at hab
      rw [hself] at hused
      exact absurd hab.symm (hnew hused b hb)
    · rfl

theorem linked_inv (h : KeyInv s) {rest : List Nat} (hcons : s.authfreekeys = sk :: rest)
    (hnot : sk ∉ s.key_list) (key : SymKey) (hid : ∀ a ∈ s.key_list, (s.mem a).keyid ≠ key.keyid)
    (hnext : key.secret < s.heap.next)
    (hown : key.secret ≠ 0 → ∀ a ∈ s.key_list, (s.mem a).secret ≠ key.secret) :
    KeyInv { s with
      mem := update s.mem sk key
      authfreekeys := rest
      key_hash := Chained.link s.key_hash (s.keyhash key.keyid) sk
      key_list := s.key_list ++ [sk]
      authnumfreekeys := s.authnumfreekeys - 1
      authnumkeys := s.authnumkeys + 1 } := by
  have hnodup := h.nodup
  have hlt := h.lt
  rw [hcons] at hnodup hlt
  have hperm : (s.key_list ++ sk :: rest).Perm (s.key_list ++ [sk] ++ rest) := by
    rw [append_assoc]
    exact List.Perm.refl _
  have hself : update s.mem sk key sk = key := update_self _ _ _
  have hold : ∀ a ∈ s.key_list, update s.mem sk key a = s.mem a := update_off hnot
  refine ⟨hperm.nodup_iff.mp hnodup, fun a ha => hlt a (hperm.mem_iff.mpr ha), ?_, ?_, ?_, ?_,
    h.heap, ?_, ?_⟩
  · -- The key is on the chain of its identifier.
    obtain ⟨bucket, hbucket⟩ : ∃ bucket : Nat → Nat, bucket = fun a =>
        s.keyhash (update s.mem sk key a).keyid := ⟨_, rfl⟩
    have hchains : Chained.Indexes s.key_hash (fun a => some (bucket a)) s.key_list := by
      apply h.indexes.congr
      intro a ha
      rw [hbucket]
      simp only [hold a ha]
      rfl
    have hown : bucket sk = s.keyhash key.keyid := by
      rw [hbucket]
      simp only [hself]
    have hend := (hchains.link (congrArg some hown)).perm
      (perm_append_singleton sk s.key_list).symm
    rw [hbucket] at hend
    exact hend
  · intro a ha b hb hab
    exact distinct_concat SymKey.keyid (fun _ => True) hself hold
      (fun a ha b hb hab _ => h.unique a ha b hb hab) (fun _ => hid) a ha b hb hab trivial
  · have hnum := h.numfree
    rw [hcons] at hnum
    simp [hnum]
  · have hnum := h.numkeys
    simp only [length_append, length_singleton]
    omega
  · intro a ha
    simp only [mem_append, mem_singleton] at ha
    rcases ha with ha | rfl
    · simp only [hold a ha]
      exact h.past a ha
    · simp only [hself]
      exact hnext
  · exact distinct_concat SymKey.secret (· ≠ 0) hself hold h.owner hown

/-- A key with an identifier that is not in use, without a secret or with a
    block that no key has. -/
theorem allocsymkey_spec (h : KeyInv s) (key : SymKey)
    (hid : ∀ a ∈ s.key_list, (s.mem a).keyid ≠ key.keyid) (hnext : key.secret < s.heap.next)
    (hown : key.secret ≠ 0 → ∀ a ∈ s.key_list, (s.mem a).secret ≠ key.secret) :
    ∃ sk, Adds s (allocsymkey s key) sk key := by
  obtain ⟨s1, hs1⟩ : ∃ s1, s1 = if s.authnumfreekeys < 1 then authMoremem s (-1) else s :=
    ⟨_, rfl⟩
  obtain ⟨hinv, hlist, hmem, hheap, hcache, hfault, hfree⟩ : Filled s s1 := hs1 ▸ filled_moremem h
  obtain ⟨sk, rest, hcons⟩ := exists_cons_of_ne_nil hfree
  have heq : allocsymkey s key = { s1 with
      mem := update s1.mem sk key
      authfreekeys := rest
      key_hash := Chained.link s1.key_hash (s1.keyhash key.keyid) sk
      key_list := s1.key_list ++ [sk]
      authnumfreekeys := s1.authnumfreekeys - 1
      authnumkeys := s1.authnumkeys + 1 } := by
    unfold allocsymkey
    simp only [← hs1, hcons]
  have hnot : sk ∉ s1.key_list := fun hin =>
    (nodup_append.mp hinv.nodup).2.2 sk hin sk (hcons ▸ mem_cons_self) rfl
  rw [← hlist, ← hmem] at hid hown
  rw [← hheap] at hnext
  refine ⟨sk, ?_, hlist ▸ hnot, ?_, ?_, ?_, ?_, ?_, ?_⟩
  · rw [heq]
    exact linked_inv hinv hcons hnot key hid hnext hown
  · rw [heq, ← hlist]
  · rw [heq]
    exact update_self _ _ _
  · intro a ha
    rw [← hlist] at ha
    rw [heq, ← hmem]
    exact update_off hnot a ha
  · rw [heq, ← hheap]
  · rw [heq]
    exact hcache.trans ⟨rfl, rfl, rfl, rfl, rfl, rfl⟩
  · rw [heq, ← hfault]

theorem Adds.keeps_of_mem (h : Adds s s' sk key) (ha : a ∈ s.key_list) :
    Keeps s s' a :=
  ⟨by rw [h.list]; exact mem_append_left _ ha, h.keeps a ha, by rw [h.heap]⟩

theorem freesymkey_inv (h : KeyInv s) (hsk : sk ∈ s.key_list) : KeyInv (freesymkey s sk) := by
  have hinv := h.same (freeSecret_sameKeys h sk)
  have hlist : (freeSecret s sk).key_list = s.key_list := (freeSecret_sameKeys h sk).list
  rw [← hlist] at hsk
  unfold freesymkey
  generalize freeSecret s sk = s1 at hinv hsk ⊢
  have hperm : (s1.key_list ++ s1.authfreekeys).Perm
      (s1.key_list.erase sk ++ sk :: s1.authfreekeys) :=
    ((perm_cons_erase hsk).append_right _).trans perm_middle.symm
  have hnot : sk ∉ s1.key_list.erase sk := hinv.list_nodup.not_mem_erase
  have hold : ∀ a ∈ s1.key_list.erase sk, update s1.mem sk {} a = s1.mem a :=
    update_off hnot
  have hsub : ∀ a ∈ s1.key_list.erase sk, a ∈ s1.key_list := fun a ha => mem_of_mem_erase ha
  refine ⟨hperm.nodup_iff.mp hinv.nodup, fun a ha => hinv.lt a (hperm.mem_iff.mpr ha), ?_, ?_, ?_,
    ?_, hinv.heap, ?_, ?_⟩
  · apply (hinv.indexes.unlink (x := sk) rfl).congr
    intro a ha
    unfold AuthSys.bucket
    simp only [hold a ha]
    rfl
  · intro a ha b hb hab
    simp only [hold a ha, hold b hb] at hab
    exact hinv.unique a (hsub a ha) b (hsub b hb) hab
  · simp [hinv.numfree]
  · have hnum := hinv.numkeys
    simp only [length_erase_of_mem hsk]
    omega
  · intro a ha
    simp only [hold a ha]
    exact hinv.past a (hsub a ha)
  · intro a ha b hb hab hpos
    simp only [hold a ha, hold b hb] at hab hpos
    exact hinv.owner a (hsub a ha) b (hsub b hb) hab hpos

theorem freesymkey_list (h : KeyInv s) (sk : Nat) :
    (freesymkey s sk).key_list = s.key_list.erase sk := by
  unfold freesymkey
  rw [← (freeSecret_sameKeys h sk).list]

theorem freesymkey_keeps (h : KeyInv s) (hsk : sk ∈ s.key_list) (ha : a ∈ s.key_list)
    (hne : a ≠ sk) : Keeps s (freesymkey s sk) a := by
  have hkeeps := freeSecret_keeps h hsk ha hne
  refine ⟨?_, ?_, ?_⟩
  · rw [freesymkey_list h]
    exact (mem_erase_of_ne hne).mpr ha
  · exact (update_of_ne hne _ _).trans hkeeps.mem
  · exact hkeeps.block

theorem freesymkey_sameCache (s : AuthSys) (sk : Nat) : SameCache s (freesymkey s sk) := by
  have hcache := freeSecret_sameCache s sk
  exact { hcache with }

theorem freesymkey_fault (hintact : Intact s sk) : (freesymkey s sk).fault = s.fault :=
  freeSecret_fault hintact

/-! ### Searches -/

/-- A search of the chain of an identifier finds the key with it. -/
theorem authFindkey_eq_some_iff (h : KeyInv s) :
    authFindkey s id = some sk ↔ sk ∈ s.key_list ∧ (s.mem sk).keyid = id := by
  have htest : ∀ a ∈ s.key_list, decide ((s.mem a).keyid = id) = true →
      some (s.bucket a) = some (s.keyhash id) := by
    intro a _ ha
    unfold AuthSys.bucket
    rw [decide_eq_true_eq.mp ha]
  unfold authFindkey
  constructor
  · intro hfind
    obtain ⟨hmem, hpass⟩ := h.indexes.find?_eq_some hfind
    exact ⟨hmem, decide_eq_true_eq.mp hpass⟩
  · rintro ⟨hmem, hkeyid⟩
    cases hfind : (s.key_hash (s.keyhash id)).find? fun sk => decide ((s.mem sk).keyid = id) with
    | none =>
      have hnone := (h.indexes.find?_eq_none htest).mp hfind sk hmem
      exact absurd (decide_eq_true hkeyid) hnone
    | some sk' =>
      obtain ⟨hmem', hpass⟩ := h.indexes.find?_eq_some hfind
      rw [h.unique sk' hmem' sk hmem ((decide_eq_true_eq.mp hpass).trans hkeyid.symm)]

theorem authFindkey_eq_none_iff (h : KeyInv s) :
    authFindkey s id = none ↔ ∀ a ∈ s.key_list, (s.mem a).keyid ≠ id := by
  constructor
  · intro hnone a ha hid
    have hsome := (authFindkey_eq_some_iff h).mpr ⟨ha, hid⟩
    rw [hnone] at hsome
    exact absurd hsome (by simp)
  · intro hall
    cases hfind : authFindkey s id with
    | none => rfl
    | some sk =>
      obtain ⟨hmem, hid⟩ := (authFindkey_eq_some_iff h).mp hfind
      exact absurd hid (hall sk hmem)

/-! ### Functions about one identifier -/

/-- All keys with another identifier stay, and the cache is emptied unless its key stays. -/
structure Touches (s s' : AuthSys) (id : Nat) : Prop where
  inv : KeyInv s'
  keeps : ∀ a ∈ s.key_list, (s.mem a).keyid ≠ id → Keeps s s' a
  cache : s'.cache_keyid = 0 ∧ s'.cache_flags = 0 ∨
    SameCache s s' ∧ ∀ a ∈ s.key_list, (s.mem a).keyid = s.cache_keyid → Keeps s s' a

theorem uncache_sameKeys (h : KeyInv s) (id : Nat) : SameKeys s (uncache s id) := by
  unfold uncache
  split_ifs <;>
    exact ⟨rfl, rfl, rfl, rfl, rfl, rfl, rfl, fun _ => rfl, fun _ => rfl, h.heap, rfl⟩

theorem uncache_keeps (id : Nat) (ha : a ∈ s.key_list) : Keeps s (uncache s id) a := by
  unfold uncache
  split_ifs <;> exact ⟨ha, rfl, rfl⟩

theorem uncache_fault (s : AuthSys) (id : Nat) : (uncache s id).fault = s.fault := by
  unfold uncache
  split_ifs <;> rfl

theorem uncache_cache (s : AuthSys) (id : Nat) :
    (uncache s id).cache_keyid = 0 ∧ (uncache s id).cache_flags = 0 ∨
      SameCache s (uncache s id) ∧ s.cache_keyid ≠ id := by
  unfold uncache
  split_ifs with hid
  · exact .inl ⟨rfl, rfl⟩
  · exact .inr ⟨SameCache.refl s, hid⟩

theorem Adds.touches (h : Adds s s' sk key) (id : Nat) : Touches s s' id :=
  ⟨h.inv, fun _ ha _ => h.keeps_of_mem ha, .inr ⟨h.cache, fun _ ha _ => h.keeps_of_mem ha⟩⟩

/-- A function that changes the key with an identifier, and empties the cache of it before. -/
theorem touches_of_uncache (hinv : KeyInv s') (hcache : SameCache (uncache s id) s')
    (hkeeps : ∀ a ∈ s.key_list, (s.mem a).keyid ≠ id → Keeps s s' a) : Touches s s' id := by
  refine ⟨hinv, hkeeps, ?_⟩
  rcases uncache_cache s id with ⟨hkeyid, hflags⟩ | ⟨hsame, hne⟩
  · exact .inl ⟨hcache.keyid.trans hkeyid, hcache.flags.trans hflags⟩
  · exact .inr ⟨hsame.trans hcache, fun a ha hid => hkeeps a ha (hid ▸ hne)⟩

/-- `authtrust` of a key that is not in the table adds one without a secret. -/
theorem trust_adds (h : KeyInv s) (hid : ∀ a ∈ s.key_list, (s.mem a).keyid ≠ id) (trust : Nat) :
    ∃ sk, Adds s
      (allocsymkey s
        { keyid := id, flags := KEY_TRUSTED, lifetime := trustUntil s.current_time trust }) sk
      { keyid := id, flags := KEY_TRUSTED, lifetime := trustUntil s.current_time trust } :=
  allocsymkey_spec h _ hid h.heap.pos fun hpos => absurd rfl hpos

theorem authtrust_touches (h : KeyInv s) (id trust : Nat) :
    Touches s (authtrust s id trust) id := by
  unfold authtrust
  cases hfind : authFindkey s id with
  | none =>
    have hid := (authFindkey_eq_none_iff h).mp hfind
    simp only
    split_ifs
    · exact ⟨h, fun a ha _ => ⟨ha, rfl, rfl⟩, .inr ⟨SameCache.refl s, fun a ha _ =>
        ⟨ha, rfl, rfl⟩⟩⟩
    · obtain ⟨sk, hadds⟩ := trust_adds h hid trust
      exact hadds.touches id
  | some sk =>
    obtain ⟨hsk, hkeyid⟩ := (authFindkey_eq_some_iff h).mp hfind
    have hsame := uncache_sameKeys h id
    have hinv := h.same hsame
    simp only
    split_ifs
    · refine touches_of_uncache (hinv.same (update_sameKeys hinv.heap rfl rfl))
        ⟨rfl, rfl, rfl, rfl, rfl, rfl⟩ ?_
      intro a ha hne
      have hne' : a ≠ sk := fun heq => hne (heq ▸ hkeyid)
      have hkeeps := uncache_keeps id ha
      exact ⟨hkeeps.on, (update_of_ne hne' _ _).trans hkeeps.mem, hkeeps.block⟩
    · have hsk' : sk ∈ (uncache s id).key_list := hsame.list ▸ hsk
      refine touches_of_uncache (freesymkey_inv hinv hsk') (freesymkey_sameCache _ sk) ?_
      intro a ha hne
      have hne' : a ≠ sk := fun heq => hne (heq ▸ hkeyid)
      have hkeeps := uncache_keeps id ha
      exact hkeeps.trans (freesymkey_keeps hinv hsk' hkeeps.on hne')

/-! ### Secrets are set -/

/-- A key that exists gets another secret in place. -/
def overwrite (s : AuthSys) (sk keytype : Nat) (key : List (BitVec 8)) (len : Nat) : AuthSys :=
  { s with
    mem := update s.mem sk
      { s.mem sk with type := keytype % 2 ^ 16, secretsize := len % 2 ^ 16 }
    heap := s.heap.write (s.mem sk).secret (key.take len)
    fault := s.fault || !decide (s.heap.Holds (s.mem sk).secret len) }

/-- A key that is new gets a block of its own. -/
def withBlock (s : AuthSys) (key : List (BitVec 8)) (len : Nat) : AuthSys :=
  { s with heap := (s.heap.malloc (max 1 len)).1.write s.heap.next (key.take len) }

theorem md5authSetkey_some (hfind : authFindkey s keyno = some sk) (keytype : Nat)
    (key : List (BitVec 8)) (len : Int) :
    md5authSetkey s keyno keytype key len =
      uncache (overwrite s sk keytype key len.toNat) keyno := by
  unfold md5authSetkey
  simp only [hfind]
  rfl

theorem md5authSetkey_none (hfind : authFindkey s keyno = none) (keytype : Nat)
    (key : List (BitVec 8)) (len : Int) :
    md5authSetkey s keyno keytype key len =
      allocsymkey (withBlock s key len.toNat)
        { keyid := keyno, type := keytype % 2 ^ 16, secretsize := len.toNat % 2 ^ 16,
          secret := s.heap.next } := by
  unfold md5authSetkey
  simp only [hfind]
  rfl

theorem overwrite_sameKeys (h : KeyInv s) (sk keytype : Nat) (key : List (BitVec 8)) (len : Nat) :
    SameKeys s (overwrite s sk keytype key len) :=
  ⟨rfl, rfl, rfl, rfl, rfl, rfl, rfl, update_field SymKey.keyid rfl,
    update_field SymKey.secret rfl, h.heap.write _ _, Heap.write_next _ _ _⟩

theorem overwrite_keeps (h : KeyInv s) (hsk : sk ∈ s.key_list) (keytype : Nat)
    (key : List (BitVec 8)) (len : Nat) (ha : a ∈ s.key_list) (hne : a ≠ sk) :
    Keeps s (overwrite s sk keytype key len) a := by
  refine ⟨ha, update_of_ne hne _ _, ?_⟩
  by_cases hpos : (s.mem sk).secret = 0
  · -- Nothing is written through the null pointer.
    have hnot : ¬s.heap.Holds (s.mem sk).secret (key.take len).length := by
      intro hholds
      have := h.heap.holds_pos hholds
      omega
    unfold overwrite
    rw [Heap.write_of_not_holds hnot]
  · exact Heap.write_block_of_ne (h.secret_ne ha hsk hne hpos)

theorem overwrite_sameCache (s : AuthSys) (sk keytype : Nat) (key : List (BitVec 8)) (len : Nat) :
    SameCache s (overwrite s sk keytype key len) := ⟨rfl, rfl, rfl, rfl, rfl, rfl⟩

theorem withBlock_sameCache (s : AuthSys) (key : List (BitVec 8)) (len : Nat) :
    SameCache s (withBlock s key len) := ⟨rfl, rfl, rfl, rfl, rfl, rfl⟩

theorem withBlock_next (s : AuthSys) (key : List (BitVec 8)) (len : Nat) :
    (withBlock s key len).heap.next = s.heap.next + 1 := Heap.write_next _ _ _

theorem withBlock_inv (h : KeyInv s) (key : List (BitVec 8)) (len : Nat) :
    KeyInv (withBlock s key len) := by
  refine { h with heap := (h.heap.malloc _).write _ _, past := ?_ }
  intro a ha
  rw [withBlock_next]
  exact (h.past a ha).trans (Nat.lt_succ_self _)

theorem withBlock_keeps (h : KeyInv s) (key : List (BitVec 8)) (len : Nat) (ha : a ∈ s.key_list) :
    Keeps s (withBlock s key len) a := by
  have hne : (s.mem a).secret ≠ s.heap.next := ne_of_lt (h.past a ha)
  refine ⟨ha, rfl, ?_⟩
  exact (Heap.write_block_of_ne hne).trans (Heap.malloc_block_of_ne _ hne)

theorem setkey_adds (h : KeyInv s) (hfind : authFindkey s keyno = none) (keytype : Nat)
    (key : List (BitVec 8)) (len : Int) :
    ∃ sk, Adds (withBlock s key len.toNat) (md5authSetkey s keyno keytype key len) sk
      { keyid := keyno, type := keytype % 2 ^ 16, secretsize := len.toNat % 2 ^ 16,
        secret := s.heap.next } := by
  rw [md5authSetkey_none hfind]
  apply allocsymkey_spec (withBlock_inv h key len.toNat)
  · exact (authFindkey_eq_none_iff h).mp hfind
  · rw [withBlock_next]
    exact Nat.lt_succ_self _
  · exact fun _ a ha => ne_of_lt (h.past a ha)

theorem md5authSetkey_touches (h : KeyInv s) (keyno keytype : Nat) (key : List (BitVec 8))
    (len : Int) : Touches s (md5authSetkey s keyno keytype key len) keyno := by
  cases hfind : authFindkey s keyno with
  | none =>
    obtain ⟨sk, hadds⟩ := setkey_adds h hfind keytype key len
    have hkeeps : ∀ a ∈ s.key_list, Keeps s (md5authSetkey s keyno keytype key len) a :=
      fun a ha => (withBlock_keeps h key len.toNat ha).trans (hadds.keeps_of_mem ha)
    refine ⟨hadds.inv, fun a ha _ => hkeeps a ha, .inr ⟨?_, fun a ha _ => hkeeps a ha⟩⟩
    exact (withBlock_sameCache s key len.toNat).trans hadds.cache
  | some sk =>
    obtain ⟨hsk, hkeyid⟩ := (authFindkey_eq_some_iff h).mp hfind
    rw [md5authSetkey_some hfind]
    have hinv := h.same (overwrite_sameKeys h sk keytype key len.toNat)
    have hkeeps : ∀ a ∈ s.key_list, (s.mem a).keyid ≠ keyno →
        Keeps s (uncache (overwrite s sk keytype key len.toNat) keyno) a := by
      intro a ha hne
      have hne' : a ≠ sk := fun heq => hne (heq ▸ hkeyid)
      exact (overwrite_keeps h hsk keytype key len.toNat ha hne').trans (uncache_keeps keyno ha)
    refine ⟨hinv.same (uncache_sameKeys hinv keyno), hkeeps, ?_⟩
    rcases uncache_cache (overwrite s sk keytype key len.toNat) keyno with hempty | ⟨hsame, hne⟩
    · exact .inl hempty
    · refine .inr ⟨(overwrite_sameCache s sk keytype key len.toNat).trans hsame, ?_⟩
      exact fun a ha hid => hkeeps a ha (hid ▸ hne)

/-! ### Loops over the list -/

/-- The body of a loop over the keys. It keeps the invariant, and all keys but
    the one it is called for, and that one too if it is spared. -/
structure Sweeps (op : AuthSys → Nat → AuthSys) (spared : Nat → SymKey → Prop) : Prop where
  inv : ∀ s sk, KeyInv s → sk ∈ s.key_list → KeyInv (op s sk)
  keeps : ∀ s sk a, KeyInv s → sk ∈ s.key_list → a ∈ s.key_list →
    (a ≠ sk ∨ spared s.current_time (s.mem a)) → Keeps s (op s sk) a
  cache : ∀ s sk, SameCache s (op s sk)
  fault : ∀ s sk, spared s.current_time (s.mem sk) ∨ Intact s sk → (op s sk).fault = s.fault

/-- What such a loop does with the keys `xs`. -/
structure Swept (spared : Nat → SymKey → Prop) (s s' : AuthSys) (xs : List Nat) : Prop where
  inv : KeyInv s'
  keeps : ∀ a ∈ s.key_list, (a ∉ xs ∨ spared s.current_time (s.mem a)) → Keeps s s' a
  cache : SameCache s s'
  fault : (∀ x ∈ xs, spared s.current_time (s.mem x) ∨ Intact s x) → s'.fault = s.fault

/-- The loop visits each key once, and finds it as it was before the loop. -/
theorem Sweeps.fold {op : AuthSys → Nat → AuthSys} {spared : Nat → SymKey → Prop}
    (h : Sweeps op spared) {xs : List Nat} (hnodup : xs.Nodup) (hinv : KeyInv s)
    (hsub : ∀ x ∈ xs, x ∈ s.key_list) : Swept spared s (xs.foldl op s) xs := by
  induction xs generalizing s with
  | nil =>
    exact ⟨hinv, fun a ha _ => ⟨ha, rfl, rfl⟩, SameCache.refl s, fun _ => rfl⟩
  | cons x xs ih =>
    obtain ⟨hx, hxs⟩ := nodup_cons.mp hnodup
    have hmem : x ∈ s.key_list := hsub x mem_cons_self
    have hrest : ∀ y ∈ xs, Keeps s (op s x) y := by
      intro y hy
      have hne : y ≠ x := fun heq => hx (heq ▸ hy)
      exact h.keeps s x y hinv hmem (hsub y (mem_cons_of_mem x hy)) (.inl hne)
    have htime := (h.cache s x).time
    have htail := ih hxs (h.inv s x hinv hmem) fun y hy => (hrest y hy).on
    refine ⟨htail.inv, ?_, (h.cache s x).trans htail.cache, ?_⟩
    · intro a ha hspared
      have hhead : Keeps s (op s x) a := by
        refine h.keeps s x a hinv hmem ha (hspared.imp_left ?_)
        exact fun hout heq => hout (heq ▸ mem_cons_self)
      refine hhead.trans (htail.keeps a hhead.on ?_)
      rw [htime, hhead.mem]
      exact hspared.imp_left fun hout hin => hout (mem_cons_of_mem x hin)
    · intro hintact
      refine (htail.fault ?_).trans (h.fault s x (hintact x mem_cons_self))
      intro y hy
      rw [htime, (hrest y hy).mem]
      exact (hintact y (mem_cons_of_mem x hy)).imp_right (hrest y hy).intact

theorem delkey_sweeps : Sweeps delkey fun _ k => k.keyid > NTP_MAXKEY := by
  refine ⟨?_, ?_, ?_, ?_⟩
  · intro s sk h hsk
    unfold delkey
    split_ifs
    · exact h
    · have hinv := h.same (freeSecret_sameKeys h sk)
      exact hinv.same (update_sameKeys hinv.heap rfl rfl)
    · exact freesymkey_inv h hsk
  · intro s sk a h hsk ha hspared
    unfold delkey
    split_ifs with hmax
    · exact ⟨ha, rfl, rfl⟩
    all_goals
      have hne : a ≠ sk := by
        rcases hspared with hne | hspared
        · exact hne
        · exact fun heq => hmax (heq ▸ hspared)
    · have hkeeps := freeSecret_keeps h hsk ha hne
      exact ⟨hkeeps.on, (update_of_ne hne _ _).trans hkeeps.mem, hkeeps.block⟩
    · exact freesymkey_keeps h hsk ha hne
  · intro s sk
    unfold delkey
    split_ifs
    · exact SameCache.refl s
    · exact (freeSecret_sameCache s sk).trans ⟨rfl, rfl, rfl, rfl, rfl, rfl⟩
    · exact freesymkey_sameCache s sk
  · intro s sk hintact
    unfold delkey
    split_ifs with hmax
    · rfl
    · exact freeSecret_fault (hintact.resolve_left hmax)
    · exact freesymkey_fault (hintact.resolve_left hmax)

theorem agekey_sweeps : Sweeps agekey fun current_time k => ¬k.expired current_time = true := by
  refine ⟨?_, ?_, ?_, ?_⟩
  · intro s sk h hsk
    unfold agekey
    split_ifs
    · have hinv := freesymkey_inv h hsk
      exact { hinv with }
    · exact h
  · intro s sk a h hsk ha hspared
    unfold agekey
    split_ifs with hexpired
    · have hne : a ≠ sk := by
        rcases hspared with hne | hspared
        · exact hne
        · exact fun heq => hspared (heq ▸ hexpired)
      have hkeeps := freesymkey_keeps h hsk ha hne
      exact ⟨hkeeps.on, hkeeps.mem, hkeeps.block⟩
    · exact ⟨ha, rfl, rfl⟩
  · intro s sk
    unfold agekey
    split_ifs
    · exact (freesymkey_sameCache s sk).trans ⟨rfl, rfl, rfl, rfl, rfl, rfl⟩
    · exact SameCache.refl s
  · intro s sk hintact
    unfold agekey
    split_ifs with hexpired
    · exact freesymkey_fault (hintact.resolve_left (not_not.mpr hexpired))
    · rfl

theorem authDelkeys_swept (h : KeyInv s) :
    Swept (fun _ k => k.keyid > NTP_MAXKEY) s (authDelkeys s) s.key_list :=
  delkey_sweeps.fold h.list_nodup h fun _ hx => hx

theorem authAgekeys_swept (h : KeyInv s) :
    Swept (fun current_time k => ¬k.expired current_time = true) s (authAgekeys s) s.key_list :=
  agekey_sweeps.fold h.list_nodup h fun _ hx => hx

/-! ### Lookups and the key file -/

theorem authhavekey_sameKeys (h : KeyInv s) (id : Nat) : SameKeys s (authhavekey s id).1 := by
  unfold authhavekey
  simp only
  repeat' split
  all_goals exact ⟨rfl, rfl, rfl, rfl, rfl, rfl, rfl, fun _ => rfl, fun _ => rfl, h.heap, rfl⟩

theorem authistrusted_sameKeys (h : KeyInv s) (keyno : Nat) :
    SameKeys s (authistrusted s keyno).1 := by
  unfold authistrusted
  simp only
  repeat' split
  all_goals exact ⟨rfl, rfl, rfl, rfl, rfl, rfl, rfl, fun _ => rfl, fun _ => rfl, h.heap, rfl⟩

/-- The file is read as if its keys were deleted and then set one by one. -/
theorem authreadkeys_eq (s : AuthSys) (lines : List CStr) :
    authreadkeys lib s lines =
      Run.exec setLine (authDelkeys s)
        (lines.filterMap fun line => (readLine lib line).toOption) := by
  unfold authreadkeys Run.exec
  generalize authDelkeys s = s1
  induction lines generalizing s1 with
  | nil => rfl
  | cons line lines ih =>
    rw [foldl_cons, ih]
    cases hline : readLine lib line with
    | error e | ok l => simp [hline, Except.toOption]

/-! ### Runs -/

theorem authusekey_inv (h : KeyInv s) (keyno keytype : Nat) (str : CStr) :
    KeyInv (authusekey s keyno keytype str) := by
  unfold authusekey
  split_ifs
  · exact h
  · exact (md5authSetkey_touches h keyno keytype str str.length).inv

theorem authreadkeys_inv (h : KeyInv s) (lines : List CStr) :
    KeyInv (authreadkeys lib s lines) := by
  rw [authreadkeys_eq]
  refine Run.exec_invariant ?_ _ _ (authDelkeys_swept h).inv (Run.meets_true setLine _ _)
  intro s l h _
  exact (md5authSetkey_touches h l.keyno l.keytype l.key l.key.length).inv

theorem authStep_inv (h : KeyInv s) (e : AuthEvent) : KeyInv (authStep lib s e) := by
  cases e with
  | initAuth =>
    have hfree := (nodup_append.mp h.nodup).2.1
    refine ⟨hfree, fun sk hsk => h.lt sk (mem_append_right _ hsk), indexes_nil _,
      ?_, h.numfree, Nat.zero_le _, h.heap, ?_, ?_⟩ <;> simp [authStep, initAuth]
  | prealloc keycount auth_log2 =>
    unfold authStep authPreallocSymkeys
    simp only
    split_ifs
    · exact authResizeHashtable_inv (authMoremem_inv h _) auth_log2
    · exact authResizeHashtable_inv h auth_log2
  | trust id trust => exact (authtrust_touches h id trust).inv
  | setkey keyno keytype key len => exact (md5authSetkey_touches h keyno keytype key len).inv
  | usekey keyno keytype str => exact authusekey_inv h keyno keytype str
  | delkeys => exact (authDelkeys_swept h).inv
  | agekeys => exact (authAgekeys_swept h).inv
  | havekey id => exact h.same (authhavekey_sameKeys h id)
  | istrusted keyno => exact h.same (authistrusted_sameKeys h keyno)
  | readkeys lines => exact authreadkeys_inv lib h lines
  | clock current_time =>
    exact h.same ⟨rfl, rfl, rfl, rfl, rfl, rfl, rfl, fun _ => rfl, fun _ => rfl, h.heap, rfl⟩

theorem exec_keyInv (es : List AuthEvent) : KeyInv (Run.exec (authStep lib) {} es) := by
  refine Run.exec_invariant ?_ _ es keyInv_start (Run.meets_true (authStep lib) _ es)
  intro s e h _
  exact authStep_inv lib h e

/-- The list of keys, the chains and the free list after every run. -/
theorem key_table_consistent (lib : KeyLib) (es : List AuthEvent) :
    let s := Run.exec (authStep lib) {} es
    (∀ b, (s.key_hash b).Nodup ∧
      ∀ sk, sk ∈ s.key_hash b ↔ sk ∈ s.key_list ∧ s.keyhash (s.mem sk).keyid = b) ∧
    (s.key_list.map fun sk => (s.mem sk).keyid).Nodup ∧
    (s.key_list ++ s.authfreekeys).Nodup ∧ s.authnumfreekeys = s.authfreekeys.length := by
  intro s
  have h : KeyInv s := exec_keyInv lib es
  refine ⟨fun b => ⟨?_, fun sk => ?_⟩, ?_, h.nodup, h.numfree⟩
  · exact (h.indexes b).nodup_iff.mpr (h.list_nodup.filter _)
  · rw [(h.indexes b).mem_iff]
    simp [AuthSys.bucket]
  · exact h.list_nodup.map_on h.unique

end NtpSuite.Keys
