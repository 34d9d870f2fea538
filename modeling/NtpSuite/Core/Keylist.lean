import NtpSuite.Core.Authkeys

/-!
# Key Lists

The session keys of Autokey: `session_key` and `make_keylist` of `ntp_crypto.c`,
and the loop of `peer_xmit` in `ntp_proto.c` that takes the key for the next
packet.

The addresses of the two ends are fixed, so the digest is a function of the key
identifier and the private value. A random number is drawn until it can be a
key identifier; the numbers drawn for one list are an input, and if none of
them will do the call has not returned. The table of keys is that of
`authkeys.c`, which other calls may change in between.

## Main definitions

* `Keys.sessionKey`: A session key is made and set.
* `Keys.makeKeylist`: The list.
* `Keys.keyExpire`: The list is given up.
* `Keys.peerXmitKey`: The key of the next packet.
-/

namespace NtpSuite.Keys

def NTP_MAXSESSION : Nat := 100

/-- The digest of the addresses, a key identifier and a private value. -/
abbrev SessionDigest := Nat → Nat → List (BitVec 8)

/-- What is the same for all lists: the digest, its number, and the logarithm of
    the longest lifetime. -/
structure KeyHost where
  digest : SessionDigest
  crypto_nid : Nat := 4
  sys_automax : Nat := 12

/-- The key identifier in a digest: its first four octets. -/
def keyidOf (dgst : List (BitVec 8)) : Nat :=
  (dgst.getD 0 0 ++ dgst.getD 1 0 ++ dgst.getD 2 0 ++ dgst.getD 3 0 : BitVec 32).toNat

/-- The key identifier that follows another. -/
def KeyHost.hash (c : KeyHost) (keyno cookie : Nat) : Nat := keyidOf (c.digest keyno cookie)

/-- `session_key`: the key is set if it is to have a lifetime. -/
def sessionKey (c : KeyHost) (s : AuthSys) (keyno cookie lifetime : Nat) : AuthSys × Nat :=
  let dgst := c.digest keyno cookie
  let s :=
    if lifetime ≠ 0 then
      authtrust (md5authSetkey s keyno c.crypto_nid dgst dgst.length) keyno lifetime
    else s
  (s, keyidOf dgst)

/-- `auth_havekey`: a key that is known need not be trusted. -/
def authHavekey (s : AuthSys) (id : Nat) : Bool :=
  id = 0 || s.cache_keyid = id || (authFindkey s id).isSome

/-- The variables of an association that has key lists, and what it announces. -/
structure KeyPeer where
  broadcast : Bool := false
  pcookie : Nat := 0
  keylist : Option (List Nat) := none
  keynumber : Nat := 0
  keyid : Nat := 0
  sndval : Option Autokey := none
  assoc : Bool := false
deriving DecidableEq, Repr

/-- The private value in the keys of a list. -/
def KeyPeer.cookie (p : KeyPeer) : Nat := if p.broadcast then 0 else p.pcookie

/-- A call of `peer_xmit`: the table of keys, the time, the polls, whether a
    signature can be made, and the numbers drawn for each list. -/
structure XmitCall where
  auth : AuthSys
  tstamp : Nat
  ppoll : Nat
  hpoll : Nat
  signs : Bool
  draws : List (List Nat)

/-- The first key identifier: unknown, and above those of the key file. -/
def drawKey (s : AuthSys) : List Nat → Option (AuthSys × Nat)
  | [] => none
  | r :: rest =>
    let keyid := r % 2 ^ 32
    if keyid ≤ NTP_MAXKEY then drawKey s rest
    else
      let (s, known) := authhavekey s keyid
      if known then drawKey s rest else some (s, keyid)

/-- The loop of `make_keylist`: the keys, and the hash of the last. -/
def makeKeys (c : KeyHost) (cookie mpoll tstamp : Nat) :
    Nat → AuthSys → Nat → Int → AuthSys × List Nat × Nat
  | 0, s, keyid, _ => (s, [], keyid)
  | i + 1, s, keyid, lifetime =>
    let (s, next) := sessionKey c s keyid cookie (lifetime + mpoll).toNat
    let lifetime := lifetime - mpoll
    if authHavekey s next ∨ next ≤ NTP_MAXKEY ∨ lifetime < 0 ∨ tstamp = 0 then (s, [keyid], next)
    else
      let (s, keys, last) := makeKeys c cookie mpoll tstamp i s next lifetime
      (s, keyid :: keys, last)

/-- `make_keylist`. -/
def makeKeylist (c : KeyHost) (x : XmitCall) (draws : List Nat) (s : AuthSys) (p : KeyPeer) :
    Option (AuthSys × KeyPeer) := do
  let (s, keyid) ← drawKey s draws
  let mpoll := 2 ^ min x.ppoll x.hpoll
  let lifetime := min (2 ^ c.sys_automax) (NTP_MAXSESSION * mpoll)
  let (s, keys, next) := makeKeys c p.cookie mpoll x.tstamp NTP_MAXSESSION s keyid lifetime
  let keynumber := keys.length - 1
  return (s, { p with
    keylist := some keys
    keynumber := keynumber
    sndval := some { key := next, seq := keynumber }
    assoc := p.assoc || (decide (x.tstamp ≠ 0) && x.signs) })

/-- `key_expire`: the keys that have not been used are no longer trusted. -/
def keyExpire (s : AuthSys) (p : KeyPeer) : AuthSys × KeyPeer :=
  let s := match p.keylist with
    | none => s
    | some keys => (keys.take (p.keynumber + 1)).foldl (fun s k => authtrust s k 0) s
  (s, { p with keylist := none, keynumber := 0, sndval := none, assoc := false })

/-- `keylist[keynumber]`. -/
def KeyPeer.xkeyid (p : KeyPeer) : Nat := (p.keylist.getD []).getD p.keynumber 0

/-- The loop of `peer_xmit` from where a list has to be made. -/
def freshKey (c : KeyHost) (x : XmitCall) :
    List (List Nat) → AuthSys → KeyPeer → Option (AuthSys × KeyPeer)
  | [], _, _ => none
  | draws :: rest, s, p =>
    match makeKeylist c x draws s p with
    | none => none
    | some (s, p) =>
      let (s, trusted) := authistrusted s p.xkeyid
      if trusted then some (s, { p with keyid := p.xkeyid })
      else
        let (s, p) := keyExpire s p
        freshKey c x rest s p

/-- The loop of `peer_xmit` that takes the key for a packet: the last of a new
    list, or the one before the last one taken. -/
def peerXmitKey (c : KeyHost) (x : XmitCall) (p : KeyPeer) : Option (AuthSys × KeyPeer) :=
  if p.keynumber = 0 then freshKey c x x.draws x.auth p
  else
    let p := { p with keynumber := p.keynumber - 1 }
    let (s, trusted) := authistrusted x.auth p.xkeyid
    if trusted then some (s, { p with keyid := p.xkeyid })
    else
      let (s, p) := keyExpire s p
      freshKey c x x.draws s p

end NtpSuite.Keys
