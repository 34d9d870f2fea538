import NtpSuite.Theory.KeyTable

/-!
# The Key Cache

`authhavekey` remembers the key it found last, and answers for this key
without a look at the table from then on. `authtrust` and `MD5auth_setkey`
empty the cache when they are about the key in it. `auth_delkeys` and
`auth_agekeys` do not, so that a key that has expired or was deleted is
accepted until another is looked up. `auth_delkeys` also leaves a trusted key
in the table with its type and without its secret, and `authhavekey` accepts
such a key with an empty secret.

`Careful` is what the steps of a run have to keep to: no step deletes the key
in the cache behind its back, and no step clears, writes, frees or caches a
secret that has been freed. `cache_coherent` says that the cache then stands
for a key in the table in every state of the run, and that no other key is
accepted.

## Main definitions

* `Keys.Cached`: The cache has what a trusted key in the table has.
* `Keys.Careful`: The condition on steps.

## Theorems

* `Keys.Coherent.keeps`: The cache stays right while its key stays.
* `Keys.cache_coherent`: The cache and the acceptance of keys, for every run.
-/

namespace NtpSuite.Keys

open Malloc (Heap)

/-- The key is in the table under the identifier, trusted and with a type, and
    its secret is there. -/
structure Usable (s : AuthSys) (sk id : Nat) : Prop where
  on : sk ∈ s.key_list
  keyid : (s.mem sk).keyid = id
  trusted : isTrusted (s.mem sk).flags = true
  typed : (s.mem sk).type ≠ 0
  holds : s.heap.Holds (s.mem sk).secret (s.mem sk).secretsize

/-- The cache has what the key has. -/
structure Cached (s : AuthSys) (sk : Nat) : Prop where
  usable : Usable s sk s.cache_keyid
  type : s.cache_type = (s.mem sk).type
  secret : s.cache_secret = (s.mem sk).secret
  size : s.cache_secretsize = (s.mem sk).secretsize

/-- The cache is empty, or there is a key for it. -/
structure Coherent (s : AuthSys) : Prop where
  cached : s.cache_keyid ≠ 0 → ∃ sk, Cached s sk
  empty : s.cache_keyid = 0 → s.cache_flags = 0

variable {s : AuthSys} {keyno : Nat}

variable {id sk : Nat} {s' : AuthSys}

theorem coherent_of_empty (hkeyid : s.cache_keyid = 0) (hflags : s.cache_flags = 0) : Coherent s :=
  ⟨fun hne => absurd hkeyid hne, fun _ => hflags⟩

theorem Usable.keeps (h : Usable s sk id) (hkeeps : Keeps s s' sk) :
    Usable s' sk id := by
  refine ⟨hkeeps.on, ?_, ?_, ?_, ?_⟩
  · rw [hkeeps.mem]
    exact h.keyid
  · rw [hkeeps.mem]
    exact h.trusted
  · rw [hkeeps.mem]
    exact h.typed
  · unfold Heap.Holds
    rw [hkeeps.mem, hkeeps.block]
    exact h.holds

theorem Cached.keeps (h : Cached s sk) (hcache : SameCache s s')
    (hkeeps : Keeps s s' sk) : Cached s' sk := by
  refine ⟨?_, ?_, ?_, ?_⟩
  · rw [hcache.keyid]
    exact h.usable.keeps hkeeps
  · rw [hcache.type, hkeeps.mem]
    exact h.type
  · rw [hcache.secret, hkeeps.mem]
    exact h.secret
  · rw [hcache.secretsize, hkeeps.mem]
    exact h.size

theorem Coherent.keeps (h : Coherent s) (hcache : SameCache s s')
    (hkeeps : ∀ sk ∈ s.key_list, (s.mem sk).keyid = s.cache_keyid → Keeps s s' sk) :
    Coherent s' := by
  refine ⟨?_, ?_⟩
  · intro hne
    rw [hcache.keyid] at hne
    obtain ⟨sk, hsk⟩ := h.cached hne
    exact ⟨sk, hsk.keeps hcache (hkeeps sk hsk.usable.on hsk.usable.keyid)⟩
  · rw [hcache.keyid, hcache.flags]
    exact h.empty

theorem Coherent.touches (h : Coherent s) (ht : Touches s s' id) : Coherent s' := by
  rcases ht.cache with ⟨hkeyid, hflags⟩ | ⟨hcache, hkeeps⟩
  · exact coherent_of_empty hkeyid hflags
  · exact h.keeps hcache hkeeps

/-! ### Lookups -/

/-- Nothing but counters has changed. -/
structure OnlyCounts (s s' : AuthSys) : Prop where
  list : s'.key_list = s.key_list
  mem : s'.mem = s.mem
  heap : s'.heap = s.heap
  cache : SameCache s s'
  fault : s'.fault = s.fault

theorem OnlyCounts.keeps (h : OnlyCounts s s') {a : Nat} (ha : a ∈ s.key_list) :
    Keeps s s' a :=
  ⟨h.list ▸ ha, by rw [h.mem], by rw [h.heap]⟩

theorem Coherent.onlyCounts (h : Coherent s) (hcounts : OnlyCounts s s') :
    Coherent s' :=
  h.keeps hcounts.cache fun _ hsk _ => hcounts.keeps hsk

/-- The counters of a lookup that goes to the table. -/
def counted (s : AuthSys) : AuthSys :=
  { s with
    authkeylookups := s.authkeylookups + 1
    authkeyuncached := s.authkeyuncached + 1 }

/-- A lookup that fails, one that is answered from the cache, and one that finds
    the key in the table. -/
theorem authhavekey_cases (s : AuthSys) (id : Nat) :
    (OnlyCounts s (authhavekey s id).1 ∧ (authhavekey s id).2 = false) ∨
    (OnlyCounts s (authhavekey s id).1 ∧ (id = 0 ∨ s.cache_keyid = id)) ∨
    ∃ sk, id ≠ 0 ∧ authFindkey s id = some sk ∧ (s.mem sk).type ≠ 0 ∧
      isTrusted (s.mem sk).flags = true ∧ (authhavekey s id).1 = cacheKey (counted s) sk := by
  unfold authhavekey
  by_cases hknown : id = 0 ∨ s.cache_keyid = id
  · simp only [if_pos hknown]
    exact .inr (.inl ⟨⟨rfl, rfl, rfl, ⟨rfl, rfl, rfl, rfl, rfl, rfl⟩, rfl⟩, hknown⟩)
  · have hzero : id ≠ 0 := fun hzero => hknown (.inl hzero)
    have hsame : authFindkey (counted s) id = authFindkey s id := rfl
    unfold counted at hsame
    simp only [if_neg hknown, hsame]
    cases hfind : authFindkey s id with
    | none => exact .inl ⟨⟨rfl, rfl, rfl, ⟨rfl, rfl, rfl, rfl, rfl, rfl⟩, rfl⟩, rfl⟩
    | some sk =>
      simp only
      by_cases htype : (s.mem sk).type = 0
      · rw [if_pos htype]
        exact .inl ⟨⟨rfl, rfl, rfl, ⟨rfl, rfl, rfl, rfl, rfl, rfl⟩, rfl⟩, rfl⟩
      · rw [if_neg htype]
        by_cases htrusted : isTrusted (s.mem sk).flags = true
        · rw [if_neg (by simp [htrusted])]
          exact .inr (.inr ⟨sk, hzero, rfl, htype, htrusted, rfl⟩)
        · rw [if_pos (by simp [htrusted])]
          exact .inl ⟨⟨rfl, rfl, rfl, ⟨rfl, rfl, rfl, rfl, rfl, rfl⟩, rfl⟩, rfl⟩

/-- A lookup that would cache a key finds its secret there. -/
def LookupOk (s : AuthSys) (id : Nat) : Prop :=
  ∀ sk ∈ authFindkey s id, (s.mem sk).type ≠ 0 → isTrusted (s.mem sk).flags = true →
    s.heap.Holds (s.mem sk).secret (s.mem sk).secretsize

instance (s : AuthSys) (id : Nat) : Decidable (LookupOk s id) :=
  inferInstanceAs (Decidable (∀ sk ∈ authFindkey s id, _))

theorem LookupOk.usable (hok : LookupOk s id) (hinv : KeyInv s)
    (hfind : authFindkey s id = some sk) (htype : (s.mem sk).type ≠ 0)
    (htrusted : isTrusted (s.mem sk).flags = true) : Usable s sk id := by
  obtain ⟨hsk, hkeyid⟩ := (authFindkey_eq_some_iff hinv).mp hfind
  exact ⟨hsk, hkeyid, htrusted, htype, hok sk hfind htype htrusted⟩

theorem cacheKey_cached (h : Usable s sk id) : Cached (cacheKey (counted s) sk) sk :=
  ⟨{ h with keyid := rfl }, rfl, rfl, rfl⟩

/-- After a lookup that succeeds, the key that was asked for is in the cache. -/
theorem authhavekey_cached (hinv : KeyInv s) (h : Coherent s) (hok : LookupOk s id) (hid : id ≠ 0)
    (hhave : (authhavekey s id).2 = true) :
    ∃ sk, Usable s sk id ∧ Cached (authhavekey s id).1 sk ∧
      (authhavekey s id).1.mem = s.mem ∧ (authhavekey s id).1.heap = s.heap := by
  rcases authhavekey_cases s id with ⟨-, hfalse⟩ | ⟨hcounts, hzero | hcache⟩ |
    ⟨sk, -, hfind, htype, htrusted, heq⟩
  · rw [hhave] at hfalse
    exact absurd hfalse (by decide)
  · exact absurd hzero hid
  · have hne : s.cache_keyid ≠ 0 := hcache ▸ hid
    obtain ⟨sk, hsk⟩ := h.cached hne
    have hsk' := hsk.keeps hcounts.cache (hcounts.keeps hsk.usable.on)
    exact ⟨sk, hcache ▸ hsk.usable, hsk', hcounts.mem, hcounts.heap⟩
  · have husable := hok.usable hinv hfind htype htrusted
    rw [heq]
    exact ⟨sk, husable, cacheKey_cached husable, rfl, rfl⟩

theorem authhavekey_coherent (hinv : KeyInv s) (h : Coherent s) (hok : LookupOk s id) :
    Coherent (authhavekey s id).1 := by
  rcases authhavekey_cases s id with ⟨hcounts, -⟩ | ⟨hcounts, -⟩ |
    ⟨sk, hid, hfind, htype, htrusted, heq⟩
  · exact h.onlyCounts hcounts
  · exact h.onlyCounts hcounts
  · have husable := hok.usable hinv hfind htype htrusted
    rw [heq]
    refine ⟨fun _ => ⟨sk, cacheKey_cached husable⟩, ?_⟩
    exact fun hzero => absurd (husable.keyid.symm.trans hzero) hid

theorem authhavekey_fault (s : AuthSys) (id : Nat) : (authhavekey s id).1.fault = s.fault := by
  rcases authhavekey_cases s id with ⟨hcounts, -⟩ | ⟨hcounts, -⟩ | ⟨sk, -, -, -, -, heq⟩
  · exact hcounts.fault
  · exact hcounts.fault
  · rw [heq]
    rfl

/-- `authistrusted` changes counters only, and what it says of a key is right. -/
theorem authistrusted_spec (hinv : KeyInv s) (h : Coherent s) (keyno : Nat) :
    OnlyCounts s (authistrusted s keyno).1 ∧
      ((authistrusted s keyno).2 = true →
        ∃ sk ∈ s.key_list, (s.mem sk).keyid = keyno ∧ isTrusted (s.mem sk).flags = true) := by
  unfold authistrusted
  by_cases hcache : keyno = s.cache_keyid
  · rw [if_pos hcache]
    refine ⟨⟨rfl, rfl, rfl, SameCache.refl s, rfl⟩, fun htrusted => ?_⟩
    have hne : s.cache_keyid ≠ 0 := by
      intro hzero
      simp only [h.empty hzero] at htrusted
      exact absurd htrusted (by decide)
    obtain ⟨sk, hsk⟩ := h.cached hne
    exact ⟨sk, hsk.usable.on, hcache ▸ hsk.usable.keyid, hsk.usable.trusted⟩
  · have hsame : authFindkey { s with authkeyuncached := s.authkeyuncached + 1 } keyno =
        authFindkey s keyno := rfl
    simp only [if_neg hcache, hsame]
    cases hfind : authFindkey s keyno with
    | none =>
      refine ⟨⟨rfl, rfl, rfl, ⟨rfl, rfl, rfl, rfl, rfl, rfl⟩, rfl⟩, ?_⟩
      exact fun hfalse => by simp at hfalse
    | some sk =>
      obtain ⟨hsk, hkeyid⟩ := (authFindkey_eq_some_iff hinv).mp hfind
      simp only
      by_cases htrusted : isTrusted (s.mem sk).flags = true
      · rw [if_neg (by simp [htrusted])]
        exact ⟨⟨rfl, rfl, rfl, ⟨rfl, rfl, rfl, rfl, rfl, rfl⟩, rfl⟩, fun _ =>
          ⟨sk, hsk, hkeyid, htrusted⟩⟩
      · rw [if_pos (by simp [htrusted])]
        exact ⟨⟨rfl, rfl, rfl, ⟨rfl, rfl, rfl, rfl, rfl, rfl⟩, rfl⟩, fun hfalse => by
          simp at hfalse⟩

/-! ### The condition on steps -/

/-- The block of a key that exists can take a secret of that length. -/
def SetOk (s : AuthSys) (keyno len : Nat) : Prop :=
  ∀ sk ∈ authFindkey s keyno, s.heap.Holds (s.mem sk).secret len

instance (s : AuthSys) (keyno len : Nat) : Decidable (SetOk s keyno len) :=
  inferInstanceAs (Decidable (∀ sk ∈ authFindkey s keyno, _))

/-- The key in the cache is not one of those that `auth_delkeys` deletes, and
    the secrets of those are there. -/
def DelOk (s : AuthSys) : Prop :=
  (s.cache_keyid = 0 ∨ s.cache_keyid > NTP_MAXKEY) ∧
    ∀ sk ∈ s.key_list, (s.mem sk).keyid > NTP_MAXKEY ∨ Intact s sk

instance (s : AuthSys) : Decidable (DelOk s) :=
  inferInstanceAs (Decidable (_ ∧ ∀ sk ∈ s.key_list, _))

/-- The key in the cache has not expired, and the secrets of those that have are there. -/
def AgeOk (s : AuthSys) : Prop :=
  ∀ sk ∈ s.key_list, (s.mem sk).expired s.current_time = true →
    (s.mem sk).keyid ≠ s.cache_keyid ∧ Intact s sk

instance (s : AuthSys) : Decidable (AgeOk s) :=
  inferInstanceAs (Decidable (∀ sk ∈ s.key_list, _))

/-- The condition on steps: the key in the cache is not deleted without the
    cache being emptied, and no secret is touched that is not there. -/
def Careful (lib : KeyLib) (s : AuthSys) : AuthEvent → Prop
  | .initAuth => s.cache_keyid = 0
  | .prealloc _ _ => True
  | .trust id trust => trust = 0 → ∀ sk ∈ authFindkey s id, Intact s sk
  | .setkey keyno _ _ len => SetOk s keyno len.toNat
  | .usekey keyno _ str => str ≠ [] → SetOk s keyno str.length
  | .delkeys => DelOk s
  | .agekeys => AgeOk s
  | .havekey id => LookupOk s id
  | .istrusted _ => True
  | .readkeys lines => DelOk s ∧
      Run.Meets setLine (fun s l => SetOk s l.keyno l.key.length) (authDelkeys s)
        (lines.filterMap fun line => (readLine lib line).toOption)
  | .clock _ => True

instance (lib : KeyLib) (s : AuthSys) : (e : AuthEvent) → Decidable (Careful lib s e)
  | .initAuth => inferInstanceAs (Decidable (_ = _))
  | .prealloc _ _ => inferInstanceAs (Decidable True)
  | .trust id _ => inferInstanceAs (Decidable (_ → ∀ sk ∈ authFindkey s id, _))
  | .setkey _ _ _ _ => inferInstanceAs (Decidable (SetOk _ _ _))
  | .usekey _ _ _ => inferInstanceAs (Decidable (_ → SetOk _ _ _))
  | .delkeys => inferInstanceAs (Decidable (DelOk s))
  | .agekeys => inferInstanceAs (Decidable (AgeOk s))
  | .havekey _ => inferInstanceAs (Decidable (LookupOk _ _))
  | .istrusted _ => inferInstanceAs (Decidable True)
  | .readkeys _ => inferInstanceAs (Decidable (_ ∧ Run.Meets _ _ _ _))
  | .clock _ => inferInstanceAs (Decidable True)

/-- What a careful run keeps. -/
structure CacheInv (s : AuthSys) : Prop where
  inv : KeyInv s
  coherent : Coherent s
  sound : s.fault = false

theorem cacheInv_start : CacheInv {} :=
  ⟨keyInv_start, coherent_of_empty rfl rfl, rfl⟩

/-! ### Steps -/

theorem authtrust_fault (h : KeyInv s) {trust : Nat}
    (hok : trust = 0 → ∀ sk ∈ authFindkey s id, Intact s sk) :
    (authtrust s id trust).fault = s.fault := by
  unfold authtrust
  cases hfind : authFindkey s id with
  | none =>
    simp only
    split_ifs
    · rfl
    · obtain ⟨sk, hadds⟩ := trust_adds h ((authFindkey_eq_none_iff h).mp hfind) trust
      exact hadds.fault
  | some sk =>
    obtain ⟨hsk, -⟩ := (authFindkey_eq_some_iff h).mp hfind
    simp only
    split_ifs with htrust
    · exact uncache_fault s id
    · have hintact : Intact s sk := hok (by omega) sk hfind
      rw [freesymkey_fault ((uncache_keeps id hsk).intact hintact), uncache_fault]

theorem md5authSetkey_fault (h : KeyInv s) (keytype : Nat) (key : List (BitVec 8)) {len : Int}
    (hok : SetOk s keyno len.toNat) : (md5authSetkey s keyno keytype key len).fault = s.fault := by
  cases hfind : authFindkey s keyno with
  | none =>
    obtain ⟨sk, hadds⟩ := setkey_adds h hfind keytype key len
    exact hadds.fault
  | some sk =>
    have hholds := hok sk hfind
    rw [md5authSetkey_some hfind, uncache_fault]
    simp [overwrite, hholds]

theorem md5authSetkey_cacheInv (h : CacheInv s) (keytype : Nat) (key : List (BitVec 8)) {len : Int}
    (hok : SetOk s keyno len.toNat) : CacheInv (md5authSetkey s keyno keytype key len) := by
  have htouches := md5authSetkey_touches h.inv keyno keytype key len
  refine ⟨htouches.inv, h.coherent.touches htouches, ?_⟩
  rw [md5authSetkey_fault h.inv keytype key hok]
  exact h.sound

theorem authDelkeys_cacheInv (h : CacheInv s) (hok : DelOk s) : CacheInv (authDelkeys s) := by
  have hswept := authDelkeys_swept h.inv
  refine ⟨hswept.inv, ?_, (hswept.fault hok.2).trans h.sound⟩
  rcases hok.1 with hzero | hauto
  · exact coherent_of_empty (hswept.cache.keyid.trans hzero)
      (hswept.cache.flags.trans (h.coherent.empty hzero))
  · refine h.coherent.keeps hswept.cache fun sk hsk hkeyid => hswept.keeps sk hsk (.inr ?_)
    rw [hkeyid]
    exact hauto

theorem authAgekeys_cacheInv (h : CacheInv s) (hok : AgeOk s) : CacheInv (authAgekeys s) := by
  have hswept := authAgekeys_swept h.inv
  refine ⟨hswept.inv, ?_, (hswept.fault ?_).trans h.sound⟩
  · refine h.coherent.keeps hswept.cache fun sk hsk hkeyid => hswept.keeps sk hsk (.inr ?_)
    exact fun hexpired => (hok sk hsk hexpired).1 hkeyid
  · intro sk hsk
    by_cases hexpired : (s.mem sk).expired s.current_time = true
    · exact .inr (hok sk hsk hexpired).2
    · exact .inl hexpired

theorem authStep_cacheInv (lib : KeyLib) (s : AuthSys) (e : AuthEvent) (h : CacheInv s)
    (hok : Careful lib s e) : CacheInv (authStep lib s e) := by
  have hinv := authStep_inv lib h.inv e
  cases e with
  | initAuth => exact ⟨hinv, coherent_of_empty hok (h.coherent.empty hok), h.sound⟩
  | prealloc keycount auth_log2 =>
    refine ⟨hinv, ?_, ?_⟩
    · unfold authStep authPreallocSymkeys
      simp only
      split_ifs <;>
        exact h.coherent.keeps ⟨rfl, rfl, rfl, rfl, rfl, rfl⟩ fun _ hsk _ => ⟨hsk, rfl, rfl⟩
    · unfold authStep authPreallocSymkeys
      simp only
      split_ifs <;> exact h.sound
  | trust id trust =>
    refine ⟨hinv, h.coherent.touches (authtrust_touches h.inv id trust), ?_⟩
    exact (authtrust_fault h.inv hok).trans h.sound
  | setkey keyno keytype key len => exact md5authSetkey_cacheInv h keytype key hok
  | usekey keyno keytype str =>
    unfold authStep authusekey
    simp only
    split_ifs with hstr
    · exact h
    · exact md5authSetkey_cacheInv h keytype str (hok hstr)
  | delkeys => exact authDelkeys_cacheInv h hok
  | agekeys => exact authAgekeys_cacheInv h hok
  | havekey id =>
    exact ⟨hinv, authhavekey_coherent h.inv h.coherent hok, (authhavekey_fault s id).trans h.sound⟩
  | istrusted keyno =>
    have hcounts := (authistrusted_spec h.inv h.coherent keyno).1
    exact ⟨hinv, h.coherent.onlyCounts hcounts, hcounts.fault.trans h.sound⟩
  | readkeys lines =>
    unfold authStep
    simp only
    rw [authreadkeys_eq]
    refine Run.exec_invariant ?_ _ _ (authDelkeys_cacheInv h hok.1) hok.2
    intro s l h hset
    exact md5authSetkey_cacheInv h l.keytype l.key hset
  | clock current_time =>
    refine ⟨hinv, ?_, h.sound⟩
    obtain ⟨hcached, hempty⟩ := h.coherent
    refine ⟨fun hne => ?_, hempty⟩
    obtain ⟨sk, hsk⟩ := hcached hne
    have husable := hsk.usable
    exact ⟨sk, { husable with }, hsk.type, hsk.secret, hsk.size⟩

theorem exec_cacheInv (lib : KeyLib) (es : List AuthEvent)
    (hes : Run.Meets (authStep lib) (Careful lib) {} es) :
    CacheInv (Run.exec (authStep lib) {} es) :=
  Run.exec_invariant (authStep_cacheInv lib) _ es cacheInv_start hes

/-! ### The use of keys -/

/-- The octets of the secret of a key. -/
def AuthSys.secretOctets (s : AuthSys) (sk : Nat) : List (BitVec 8) :=
  s.heap.read (s.mem sk).secret (s.mem sk).secretsize

theorem Cached.octets (h : Cached s sk) : s.cacheOctets = s.secretOctets sk := by
  unfold AuthSys.cacheOctets AuthSys.secretOctets
  rw [h.secret, h.size]

/-- A key that is accepted for a packet: it is in the table, and the
    authenticator is the digest with its type and its secret. -/
structure Accepted (digest : Digest) (s : AuthSys) (sk keyno : Nat) (pkt mac : List (BitVec 8)) :
    Prop where
  usable : Usable s sk keyno
  mac : digest (s.mem sk).type (s.secretOctets sk ++ pkt) = some mac

/-- What is in the cache after a lookup, which the caller has counted. -/
theorem cached_digest {s1 : AuthSys} {enc dec : Nat} (h : CacheInv s)
    (hs1 : s1 = { s with authencryptions := enc, authdecryptions := dec })
    (hok : LookupOk s keyno) (hid : keyno ≠ 0) (hhave : (authhavekey s1 keyno).2 = true) :
    ∃ sk, Usable s sk keyno ∧ (authhavekey s1 keyno).1.cache_type = (s.mem sk).type ∧
      (authhavekey s1 keyno).1.cacheOctets = s.secretOctets sk := by
  have hcounts : OnlyCounts s s1 := hs1 ▸ ⟨rfl, rfl, rfl, ⟨rfl, rfl, rfl, rfl, rfl, rfl⟩, rfl⟩
  have hkeys : SameKeys s s1 :=
    hs1 ▸ ⟨rfl, rfl, rfl, rfl, rfl, rfl, rfl, fun _ => rfl, fun _ => rfl, h.inv.heap, rfl⟩
  have hok1 : LookupOk s1 keyno := hs1 ▸ hok
  obtain ⟨sk, husable, hcached, hmem, hheap⟩ :=
    authhavekey_cached (h.inv.same hkeys) (h.coherent.onlyCounts hcounts) hok1 hid hhave
  rw [hcounts.mem] at hmem
  rw [hcounts.heap] at hheap
  have hback : Keeps s1 s sk := by
    refine ⟨hcounts.list ▸ husable.on, ?_, ?_⟩
    · rw [hcounts.mem]
    · rw [hcounts.heap]
  refine ⟨sk, husable.keeps hback, ?_, ?_⟩
  · rw [hcached.type, hmem]
  · rw [hcached.octets]
    unfold AuthSys.secretOctets
    rw [hmem, hheap]

theorem authencrypt_accepted (digest : Digest) (h : CacheInv s) (hid : keyno ≠ 0)
    (hok : LookupOk s keyno) {pkt : List (BitVec 8)}
    (hlen : (authencrypt digest s keyno pkt).2.1 ≠ 0) :
    ∃ sk, Accepted digest s sk keyno pkt (authencrypt digest s keyno pkt).2.2 := by
  obtain ⟨s1, hs1⟩ : ∃ s1, s1 = { s with authencryptions := s.authencryptions + 1 } := ⟨_, rfl⟩
  unfold authencrypt at hlen ⊢
  simp only [← hs1, if_neg hid] at hlen ⊢
  cases hhave : (authhavekey s1 keyno).2 with
  | false => simp [hhave] at hlen
  | true =>
    obtain ⟨sk, husable, htype, hoctets⟩ := cached_digest h hs1 hok hid hhave
    unfold md5authencrypt at hlen ⊢
    rw [htype, hoctets] at hlen ⊢
    cases hmac : digest (s.mem sk).type (s.secretOctets sk ++ pkt) with
    | none => simp [hmac] at hlen
    | some mac => exact ⟨sk, husable, hmac⟩

theorem authdecrypt_accepted (digest : Digest) (h : CacheInv s) (hok : LookupOk s keyno)
    {pkt mac : List (BitVec 8)} {size : Nat}
    (htrue : (authdecrypt digest s keyno pkt mac size).2 = true) :
    ∃ sk, Accepted digest s sk keyno pkt (mac.take (size - 4)) := by
  obtain ⟨s1, hs1⟩ : ∃ s1, s1 = { s with authdecryptions := s.authdecryptions + 1 } := ⟨_, rfl⟩
  unfold authdecrypt at htrue
  simp only [← hs1] at htrue
  by_cases hid : keyno = 0
  · simp [hid] at htrue
  · rw [if_neg hid] at htrue
    by_cases hbad : (!(authhavekey s1 keyno).2) = true ∨ size < 4
    · rw [if_pos hbad] at htrue
      exact absurd htrue Bool.false_ne_true
    · rw [if_neg hbad] at htrue
      have hhave : (authhavekey s1 keyno).2 = true := by
        cases hhave : (authhavekey s1 keyno).2 with
        | true => rfl
        | false => exact absurd (.inl (by rw [hhave]; rfl)) hbad
      obtain ⟨sk, husable, htype, hoctets⟩ := cached_digest h hs1 hok hid hhave
      unfold md5authdecrypt at htrue
      rw [htype, hoctets] at htrue
      cases hmac : digest (s.mem sk).type (s.secretOctets sk ++ pkt) with
      | none => simp [hmac] at htrue
      | some own =>
        simp only [hmac, Bool.and_eq_true, decide_eq_true_eq] at htrue
        obtain ⟨hsize, hown⟩ := htrue
        refine ⟨sk, husable, ?_⟩
        rw [hsize, Nat.add_sub_cancel, hown]
        exact hmac

/-- In every state of a careful run, no memory was touched that should not be; if there is a key in
    the cache, the table has a trusted key with that identifier and the type, secret and length of
    the cache; and a key is trusted, used or accepted only if it is in the table. -/
theorem cache_coherent (lib : KeyLib) (es : List AuthEvent)
    (hes : Run.Meets (authStep lib) (Careful lib) {} es) :
    let s := Run.exec (authStep lib) {} es
    s.fault = false ∧
    (s.cache_keyid ≠ 0 → ∃ sk, Usable s sk s.cache_keyid ∧ s.cache_type = (s.mem sk).type ∧
      s.cache_secretsize = (s.mem sk).secretsize ∧ s.cacheOctets = s.secretOctets sk) ∧
    (∀ keyno, (authistrusted s keyno).2 = true →
      ∃ sk ∈ s.key_list, (s.mem sk).keyid = keyno ∧ isTrusted (s.mem sk).flags = true) ∧
    (∀ digest keyno pkt, keyno ≠ 0 → LookupOk s keyno →
      (authencrypt digest s keyno pkt).2.1 ≠ 0 →
      ∃ sk, Accepted digest s sk keyno pkt (authencrypt digest s keyno pkt).2.2) ∧
    ∀ digest keyno pkt mac size, LookupOk s keyno →
      (authdecrypt digest s keyno pkt mac size).2 = true →
      ∃ sk, Accepted digest s sk keyno pkt (mac.take (size - 4)) := by
  intro s
  have h : CacheInv s := exec_cacheInv lib es hes
  refine ⟨h.sound, ?_, ?_, ?_, ?_⟩
  · intro hne
    obtain ⟨sk, hsk⟩ := h.coherent.cached hne
    exact ⟨sk, hsk.usable, hsk.type, hsk.size, hsk.octets⟩
  · exact fun keyno => (authistrusted_spec h.inv h.coherent keyno).2
  · exact fun digest keyno pkt hid hok hlen => authencrypt_accepted digest h hid hok hlen
  · exact fun digest keyno pkt mac size hok htrue => authdecrypt_accepted digest h hok htrue

/-- The library of a run without key files. -/
def noLib : KeyLib where
  atoi := fun _ => 0
  keytype_from_text := fun _ => 0
  hasDigest := fun _ => false

/-- A key for a hundred seconds is set, used and aged, and another expires. -/
def agingRun : List AuthEvent :=
  [.setkey 1 4 [0x61, 0x62] 2, .trust 1 100, .setkey 70000 4 [0x63] 1, .trust 70000 2, .havekey 1,
    .clock 50, .agekeys]

theorem cache_coherent_agingRun :
    Run.Meets (authStep noLib) (Careful noLib) {} agingRun ∧
    (let s := Run.exec (authStep noLib) {} agingRun
     s.key_list = [15] ∧ s.cache_keyid = 1 ∧
     ∃ sk, Usable s sk 1 ∧ s.cacheOctets = s.secretOctets sk) := by
  refine ⟨by decide, by decide, by decide, ?_⟩
  obtain ⟨sk, husable, -, -, hoctets⟩ :=
    (cache_coherent noLib agingRun (by decide)).2.1 (by decide)
  exact ⟨sk, husable, hoctets⟩

/-- A key that has expired is accepted while it is in the cache; the secret of a key in the cache is
    freed with the others; and a trusted key is accepted with an empty secret afterwards. -/
theorem cache_incoherent :
    let run := Run.exec (authStep noLib) {}
    (let s := run [.setkey 1 4 [0x61] 1, .trust 1 2, .havekey 1, .clock 10, .agekeys]
     s.key_list = [] ∧ s.cache_keyid = 1 ∧ (authhavekey s 1).2 = true ∧
       (authistrusted s 1).2 = true) ∧
    (let s := run [.setkey 1 4 [0x61] 1, .trust 1 1, .havekey 1, .delkeys]
     s.cache_keyid = 1 ∧ s.cache_secretsize = 1 ∧ (s.heap.block s.cache_secret).live = false) ∧
    let s := run [.setkey 1 4 [0x61] 1, .trust 1 1, .delkeys]
    (authhavekey s 1).2 = true ∧ (authhavekey s 1).1.cacheOctets = [] := by
  decide

end NtpSuite.Keys
