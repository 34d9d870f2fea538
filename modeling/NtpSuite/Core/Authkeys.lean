import NtpSuite.Core.Assoc
import NtpSuite.Lib.Chained
import NtpSuite.Lib.Malloc

/-!
# Authentication Keys

The key table of `authkeys.c`, the key cache in front of it, and the reader of
the key file in `authreadkeys.c`.

A key in use is on the list of all keys and on a chain of the hash table; the
others are on the free list. Keys are known by their addresses, numbered in
the order of allocation. The secret of a key is a block of its own, and the
key has its address. The cache has a copy of what the key last looked up
holds, with the address of the secret and not the secret itself.

`fault` records that a secret was written, cleared or freed where no live
block of sufficient length is, or that a key was taken from an empty free
list. The source has no such variable: what follows is undefined there.

The caller of `md5authSetkey` has a key of at least `len` octets. The
logarithm from which `auth_resize_hashtable` computes the size of the table is
a parameter, and so are the functions of the C library and of OpenSSL that the
reader of the key file calls. The counters have no bound; times are those of a
`u_long` of 64 bits. The assertions of a debug build are left out.

## Main definitions

* `Keys.SymKey`, `Keys.AuthSys`: A key and the table.
* `Keys.authhavekey`, `Keys.authistrusted`: The lookups.
* `Keys.authtrust`, `Keys.md5authSetkey`, `Keys.authusekey`: A key is changed.
* `Keys.authDelkeys`, `Keys.authAgekeys`: Keys are deleted.
* `Keys.authencrypt`, `Keys.authdecrypt`: The use of a key.
* `Keys.readLine`, `Keys.authreadkeys`: The key file.
* `Keys.authStep`: What can happen next.
-/

namespace NtpSuite.Keys

open Malloc (Heap)

def KEY_TRUSTED : BitVec 16 := 0x001
def MEMINC : Nat := 16
def DEF_AUTHHASHSIZE : Nat := 64

/-- A key. -/
structure SymKey where
  secret : Nat := 0
  lifetime : Nat := 0
  keyid : Nat := 0
  type : Nat := 0
  secretsize : Nat := 0
  flags : BitVec 16 := 0
deriving DecidableEq, Repr

/-- The table and the cache, as they are after the first `init_auth`. -/
structure AuthSys where
  mem : Nat → SymKey := fun _ => {}
  heap : Heap := {}
  key_list : List Nat := []
  key_hash : Nat → List Nat := fun _ => []
  authhashbuckets : Nat := DEF_AUTHHASHSIZE
  authfreekeys : List Nat := []
  authnumfreekeys : Nat := 0
  authnumkeys : Nat := 0
  authkeynotfound : Nat := 0
  authkeylookups : Nat := 0
  authkeyexpired : Nat := 0
  authkeyuncached : Nat := 0
  authnokey : Nat := 0
  authencryptions : Nat := 0
  authdecryptions : Nat := 0
  cache_keyid : Nat := 0
  cache_secret : Nat := 0
  cache_secretsize : Nat := 0
  cache_type : Nat := 0
  cache_flags : BitVec 16 := 0
  current_time : Nat := 0
  allocated : Nat := 0
  fault : Bool := false

/-- The flags have `KEY_TRUSTED`. -/
def isTrusted (flags : BitVec 16) : Bool := KEY_TRUSTED &&& flags != 0

/-- `KEYHASH`. -/
def AuthSys.keyhash (s : AuthSys) (id : Nat) : Nat := id &&& (s.authhashbuckets - 1)

/-- The bucket of a key. -/
def AuthSys.bucket (s : AuthSys) (sk : Nat) : Nat := s.keyhash (s.mem sk).keyid

/-! ### Storage -/

/-- `init_auth`. The cache is not touched. -/
def initAuth (s : AuthSys) : AuthSys := { s with key_hash := fun _ => [], key_list := [] }

/-- `auth_moremem`: the last of the new keys is linked last. -/
def authMoremem (s : AuthSys) (keycount : Int) : AuthSys :=
  let i := if keycount > 0 then keycount.toNat else MEMINC
  { s with
    authfreekeys := ((List.range i).map (s.allocated + ·)).reverse ++ s.authfreekeys
    authnumfreekeys := s.authnumfreekeys + i
    allocated := s.allocated + i }

/-- `auth_resize_hashtable`, with what `auth_log2` makes of the number of keys. -/
def authResizeHashtable (s : AuthSys) (auth_log2 : Nat) : AuthSys :=
  let hashbits := min 15 (max 4 ((auth_log2 + 1) % 2 ^ 16))
  let s := { s with authhashbuckets := 2 ^ hashbits }
  { s with key_hash := Chained.rebuild s.bucket (fun _ => []) s.key_list }

/-- `auth_prealloc_symkeys`. -/
def authPreallocSymkeys (s : AuthSys) (keycount : Int) (auth_log2 : Nat) : AuthSys :=
  let additional := keycount - (s.authnumkeys + s.authnumfreekeys)
  authResizeHashtable (if additional > 0 then authMoremem s additional else s) auth_log2

/-- `allocsymkey`: the key goes to the head of its chain and to the tail of the list. -/
def allocsymkey (s : AuthSys) (key : SymKey) : AuthSys :=
  let s := if s.authnumfreekeys < 1 then authMoremem s (-1) else s
  match s.authfreekeys with
  | [] => { s with fault := true }
  | sk :: rest =>
    { s with
      mem := Function.update s.mem sk key
      authfreekeys := rest
      key_hash := Chained.link s.key_hash (s.keyhash key.keyid) sk
      key_list := s.key_list ++ [sk]
      authnumfreekeys := s.authnumfreekeys - 1
      authnumkeys := s.authnumkeys + 1 }

/-- The secret of a key, if it has one, is cleared and freed. -/
def freeSecret (s : AuthSys) (sk : Nat) : AuthSys :=
  if (s.mem sk).secret ≠ 0 then
    { s with
      heap := (s.heap.write (s.mem sk).secret (List.replicate (s.mem sk).secretsize 0)).free
        (s.mem sk).secret
      fault := s.fault || !decide (s.heap.Holds (s.mem sk).secret (s.mem sk).secretsize) }
  else s

/-- `freesymkey`. -/
def freesymkey (s : AuthSys) (sk : Nat) : AuthSys :=
  let s := freeSecret s sk
  { s with
    key_hash := Chained.unlink s.key_hash (s.bucket sk) sk
    key_list := s.key_list.erase sk
    mem := Function.update s.mem sk {}
    authfreekeys := sk :: s.authfreekeys
    authnumkeys := s.authnumkeys - 1
    authnumfreekeys := s.authnumfreekeys + 1 }

/-! ### Lookups -/

/-- `auth_findkey`. -/
def authFindkey (s : AuthSys) (id : Nat) : Option Nat :=
  (s.key_hash (s.keyhash id)).find? fun sk => (s.mem sk).keyid = id

/-- The cache is set to what a key holds. -/
def cacheKey (s : AuthSys) (sk : Nat) : AuthSys :=
  { s with
    cache_keyid := (s.mem sk).keyid
    cache_type := (s.mem sk).type
    cache_flags := (s.mem sk).flags
    cache_secret := (s.mem sk).secret
    cache_secretsize := (s.mem sk).secretsize }

/-- `authhavekey`: a key without a type was trusted before it was set. -/
def authhavekey (s : AuthSys) (id : Nat) : AuthSys × Bool :=
  let s := { s with authkeylookups := s.authkeylookups + 1 }
  if id = 0 ∨ s.cache_keyid = id then (s, true)
  else
    let s := { s with authkeyuncached := s.authkeyuncached + 1 }
    match authFindkey s id with
    | none => ({ s with authkeynotfound := s.authkeynotfound + 1 }, false)
    | some sk =>
      if (s.mem sk).type = 0 then ({ s with authkeynotfound := s.authkeynotfound + 1 }, false)
      else if !isTrusted (s.mem sk).flags then ({ s with authnokey := s.authnokey + 1 }, false)
      else (cacheKey s sk, true)

/-- `authistrusted`. -/
def authistrusted (s : AuthSys) (keyno : Nat) : AuthSys × Bool :=
  if keyno = s.cache_keyid then (s, isTrusted s.cache_flags)
  else
    let s := { s with authkeyuncached := s.authkeyuncached + 1 }
    match authFindkey s keyno with
    | none => ({ s with authkeynotfound := s.authkeynotfound + 1 }, false)
    | some sk =>
      if !isTrusted (s.mem sk).flags then
        ({ s with authkeynotfound := s.authkeynotfound + 1 }, false)
      else (s, true)

/-! ### Changes -/

/-- The cache is emptied if it has the key. -/
def uncache (s : AuthSys) (id : Nat) : AuthSys :=
  if s.cache_keyid = id then { s with cache_flags := 0, cache_keyid := 0 } else s

/-- How long a key is trusted: one stands for ever. -/
def trustUntil (current_time trust : Nat) : Nat :=
  if trust > 1 then (current_time + trust) % 2 ^ 64 else 0

/-- `authtrust`. -/
def authtrust (s : AuthSys) (id trust : Nat) : AuthSys :=
  match authFindkey s id with
  | none =>
    if trust = 0 then s
    else allocsymkey s
      { keyid := id, flags := KEY_TRUSTED, lifetime := trustUntil s.current_time trust }
  | some sk =>
    let s := uncache s id
    if trust > 0 then
      { s with
        mem := Function.update s.mem sk
          { s.mem sk with
            flags := (s.mem sk).flags ||| KEY_TRUSTED
            lifetime := trustUntil s.current_time trust } }
    else freesymkey s sk

/-- `MD5auth_setkey`: a key that exists keeps its block. -/
def md5authSetkey (s : AuthSys) (keyno keytype : Nat) (key : List (BitVec 8)) (len : Int) :
    AuthSys :=
  let secretsize := len.toNat
  match authFindkey s keyno with
  | some sk =>
    let k := s.mem sk
    let s := { s with
      mem := Function.update s.mem sk
        { k with type := keytype % 2 ^ 16, secretsize := secretsize % 2 ^ 16 }
      heap := s.heap.write k.secret (key.take secretsize)
      fault := s.fault || !decide (s.heap.Holds k.secret secretsize) }
    uncache s keyno
  | none =>
    -- An empty block is asked for as one octet.
    let new := s.heap.malloc (max 1 secretsize)
    let s := { s with heap := new.1.write new.2 (key.take secretsize) }
    allocsymkey s
      { keyid := keyno
        type := keytype % 2 ^ 16
        secretsize := secretsize % 2 ^ 16
        secret := new.2 }

/-- `authusekey`: the text itself is the key. -/
def authusekey (s : AuthSys) (keyno keytype : Nat) (str : CStr) : AuthSys :=
  if str = [] then s else md5authSetkey s keyno keytype str str.length

/-- The loop of `auth_delkeys` for one key. -/
def delkey (s : AuthSys) (sk : Nat) : AuthSys :=
  if (s.mem sk).keyid > NTP_MAXKEY then s
  else if isTrusted (s.mem sk).flags then
    let s := freeSecret s sk
    { s with mem := Function.update s.mem sk { s.mem sk with secretsize := 0, lifetime := 0 } }
  else freesymkey s sk

/-- `auth_delkeys`. -/
def authDelkeys (s : AuthSys) : AuthSys := s.key_list.foldl delkey s

/-- The key has a lifetime, and it is over. -/
def SymKey.expired (k : SymKey) (current_time : Nat) : Bool :=
  decide (k.lifetime > 0) && decide (current_time > k.lifetime)

/-- The loop of `auth_agekeys` for one key. -/
def agekey (s : AuthSys) (sk : Nat) : AuthSys :=
  if (s.mem sk).expired s.current_time then
    let s := freesymkey s sk
    { s with authkeyexpired := s.authkeyexpired + 1 }
  else s

/-- `auth_agekeys`. -/
def authAgekeys (s : AuthSys) : AuthSys := s.key_list.foldl agekey s

/-! ### Use -/

/-- The digests of OpenSSL: the octets for a type and a message, or nothing if
    the digest cannot be had. -/
abbrev Digest := Nat → List (BitVec 8) → Option (List (BitVec 8))

/-- The octets that `cache_secret` and `cache_secretsize` stand for. -/
def AuthSys.cacheOctets (s : AuthSys) : List (BitVec 8) :=
  s.heap.read s.cache_secret s.cache_secretsize

/-- `MD5authencrypt`: the length of the authenticator and the digest. -/
def md5authencrypt (digest : Digest) (s : AuthSys) (pkt : List (BitVec 8)) :
    Nat × List (BitVec 8) :=
  match digest s.cache_type (s.cacheOctets ++ pkt) with
  | none => (0, [])
  | some mac => (mac.length + 4, mac)

/-- `MD5authdecrypt`. -/
def md5authdecrypt (digest : Digest) (s : AuthSys) (pkt mac : List (BitVec 8)) (size : Nat) :
    Bool :=
  match digest s.cache_type (s.cacheOctets ++ pkt) with
  | none => false
  | some own => size = own.length + 4 && mac.take own.length = own

/-- `authencrypt`: the length of the authenticator, zero if there is no key, and
    what follows the key identifier in it. -/
def authencrypt (digest : Digest) (s : AuthSys) (keyno : Nat) (pkt : List (BitVec 8)) :
    AuthSys × Nat × List (BitVec 8) :=
  let s := { s with authencryptions := s.authencryptions + 1 }
  if keyno = 0 then (s, 4, [])
  else
    let r := authhavekey s keyno
    if !r.2 then (r.1, 0, []) else (r.1, md5authencrypt digest r.1 pkt)

/-- `authdecrypt`, for a packet with an authenticator of `size` octets, which
    has `mac` after its key identifier. -/
def authdecrypt (digest : Digest) (s : AuthSys) (keyno : Nat) (pkt mac : List (BitVec 8))
    (size : Nat) : AuthSys × Bool :=
  let s := { s with authdecryptions := s.authdecryptions + 1 }
  if keyno = 0 then (s, false)
  else
    let r := authhavekey s keyno
    if !r.2 ∨ size < 4 then (r.1, false) else (r.1, md5authdecrypt digest r.1 pkt mac size)

/-! ### The key file -/

/-- What the reader of the key file calls: `atoi`, `keytype_from_text`, and
    whether `EVP_get_digestbynid` finds an algorithm. -/
structure KeyLib where
  atoi : CStr → Int
  keytype_from_text : CStr → Nat
  hasDigest : Nat → Bool

/-- A blank or a tab. -/
def isBlank (c : BitVec 8) : Bool := c == 0x20 || c == 0x09

/-- The end of a token: also the end of the line, or a comment. -/
def endsToken (c : BitVec 8) : Bool := c == 0 || c == 0x0a || isBlank c || c == 0x23

/-- `nexttok`: the token, and the rest of the line, which is empty unless a blank ends the token. -/
def nexttok (str : CStr) : Option (CStr × CStr) :=
  let cp := str.dropWhile isBlank
  let token := cp.takeWhile fun c => !endsToken c
  if token = [] then none
  else
    match cp.drop token.length with
    | c :: rest => some (token, if isBlank c then rest else [])
    | [] => some (token, [])

/-- Why a line of the key file sets no key. -/
inductive KeyError where
  | blank
  | cannotChange (token : CStr)
  | reserved (token : CStr)
  | noType (keyno : Nat)
  | invalidType (keyno : Nat)
  | noAlgorithm (keyno : Nat)
  | noKey (keyno : Nat)
  | invalidHex (keyno : Nat)
deriving DecidableEq, Repr

/-- A line of the key file that sets a key. -/
structure KeyLine where
  keyno : Nat
  keytype : Nat
  key : List (BitVec 8)
deriving DecidableEq, Repr

/-- The value of a hex digit of either case. -/
def hexDigit (c : BitVec 8) : Option (BitVec 8) :=
  if 0x30 ≤ c ∧ c ≤ 0x39 then some (c - 0x30)
  else if 0x61 ≤ c ∧ c ≤ 0x66 then some (c - 0x57)
  else if 0x41 ≤ c ∧ c ≤ 0x46 then some (c - 0x37)
  else none

/-- Pairs of digits as octets; a digit left over is not used. -/
def pairUp : List (BitVec 8) → List (BitVec 8)
  | hi :: lo :: rest => (hi <<< 4 ||| lo) :: pairUp rest
  | _ => []

/-- The key itself: a text of up to 20 octets, or up to 40 hex digits. -/
def readKey (token : CStr) : Option (List (BitVec 8)) :=
  if token.length ≤ 20 then some token else (token.take 40 |>.mapM hexDigit).map pairUp

/-- The loop of `authreadkeys` for one line. -/
def readLine (lib : KeyLib) (line : CStr) : Except KeyError KeyLine :=
  match nexttok line with
  | none => .error .blank
  | some (token, line) =>
    let keyno := (lib.atoi token % 2 ^ 32).toNat
    if keyno = 0 then .error (.cannotChange token)
    else if keyno > NTP_MAXKEY then .error (.reserved token)
    else
      match nexttok line with
      | none => .error (.noType keyno)
      | some (token, line) =>
        let keytype := lib.keytype_from_text token
        if keytype = 0 then .error (.invalidType keyno)
        else if !lib.hasDigest keytype then .error (.noAlgorithm keyno)
        else
          match nexttok line with
          | none => .error (.noKey keyno)
          | some (token, _) =>
            match readKey token with
            | none => .error (.invalidHex keyno)
            | some key => .ok { keyno := keyno, keytype := keytype, key := key }

/-- The key of a line is set. -/
def setLine (s : AuthSys) (l : KeyLine) : AuthSys :=
  md5authSetkey s l.keyno l.keytype l.key l.key.length

/-- `authreadkeys` for a file that can be opened, with the lines as `fgets` gives them. -/
def authreadkeys (lib : KeyLib) (s : AuthSys) (lines : List CStr) : AuthSys :=
  lines.foldl (fun s line =>
    match readLine lib line with
    | .error _ => s
    | .ok l => setLine s l) (authDelkeys s)

/-! ### Runs -/

/-- What can happen next; the clock may be set to any time. -/
inductive AuthEvent where
  | initAuth
  | prealloc (keycount : Int) (auth_log2 : Nat)
  | trust (id trust : Nat)
  | setkey (keyno keytype : Nat) (key : List (BitVec 8)) (len : Int)
  | usekey (keyno keytype : Nat) (str : CStr)
  | delkeys
  | agekeys
  | havekey (id : Nat)
  | istrusted (keyno : Nat)
  | readkeys (lines : List CStr)
  | clock (current_time : Nat)
deriving DecidableEq, Repr

/-- One step. -/
def authStep (lib : KeyLib) (s : AuthSys) : AuthEvent → AuthSys
  | .initAuth => initAuth s
  | .prealloc keycount auth_log2 => authPreallocSymkeys s keycount auth_log2
  | .trust id trust => authtrust s id trust
  | .setkey keyno keytype key len => md5authSetkey s keyno keytype key len
  | .usekey keyno keytype str => authusekey s keyno keytype str
  | .delkeys => authDelkeys s
  | .agekeys => authAgekeys s
  | .havekey id => (authhavekey s id).1
  | .istrusted keyno => (authistrusted s keyno).1
  | .readkeys lines => authreadkeys lib s lines
  | .clock current_time => { s with current_time := current_time }

end NtpSuite.Keys
