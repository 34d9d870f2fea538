import NtpSuite.Core.Receive
import NtpSuite.Lib.Reading

/-!
# Autokey Extension Fields

The functions of `ntp_crypto.c` that take an extension field apart:
`crypto_verify` and `crypto_recv` for the fields of a packet that belongs to an
association, and `crypto_xmit` with the functions it calls for the answer to a
request. They are readings of the memory from the start of the field on, which
is a place in the receive buffer, or a copy on the heap.

A field is six words and more: the code and the length, the association
identifier, a timestamp, a filestamp, the length of the value, the value, the
length of the signature and the signature. All offsets are in octets.

The cryptographic library is a parameter, as are the key files of this host.
A decoder is given all octets it is told of. What certificates do to the
certificate cache and leap seconds to the leap table is left out, as is what
`crypto_send` writes to the packet that is sent.

## Main definitions

* `cryptoVerify`: Check a response and its signature.
* `installResponse`: What `crypto_recv` does with a response that is good.
* `cryptoRecv`: The fields of a packet for an association.
* `cryptoXmit`: The answer to a request, or a request.
* `fastXmit`, `peerXmit`: The two ways a request gets there.
-/

namespace NtpSuite.Exten

open Reading

def VALUE_LEN : Nat := 24
def MAXHOSTNAME : Nat := 512
def CRYPTO_VN : BitVec 32 := 2
def CRYPTO_ERROR : BitVec 32 := 0x40000000

def CRYPTO_FLAG_TAI : BitVec 32 := 0x0002
def CRYPTO_FLAG_PRIV : BitVec 32 := 0x0010
def CRYPTO_FLAG_MASK : BitVec 32 := 0x00f0
def CRYPTO_FLAG_CERT : BitVec 32 := 0x0100
def CRYPTO_FLAG_VRFY : BitVec 32 := 0x0200
def CRYPTO_FLAG_COOK : BitVec 32 := 0x0800
def CRYPTO_FLAG_SIGN : BitVec 32 := 0x2000
def CRYPTO_FLAG_LEAP : BitVec 32 := 0x4000

/-- The event codes of the Autokey module. -/
inductive Xevnt where
  | ok | len | tsp | fsp | pub | md | key | sgl | sig | vfy | per | cky | dat | crt | id | err
deriving DecidableEq, Repr

/-- The commands with a meaning. -/
inductive Cmd where
  | assoc | cert | cook | auto | leap | sign | iff | gq | mv
deriving DecidableEq, Repr

/-- `CRYPTO_CMD` of a command. -/
def Cmd.code : Cmd → BitVec 32
  | .assoc => CRYPTO_ASSOC
  | .cert => 0x02020000
  | .cook => 0x02030000
  | .auto => 0x02040000
  | .leap => 0x02050000
  | .sign => 0x02060000
  | .iff => 0x02070000
  | .gq => 0x02080000
  | .mv => 0x02090000

def Cmd.all : List Cmd := [.assoc, .cert, .cook, .auto, .leap, .sign, .iff, .gq, .mv]

/-- The cases of the `switch` on a code. -/
inductive Message where
  | request (cmd : Cmd)
  | response (cmd : Cmd)
  | other
deriving DecidableEq, Repr

/-- The case of a code. -/
def message (code : BitVec 32) : Message :=
  match Cmd.all.find? fun cmd => cmd.code == code with
  | some cmd => .request cmd
  | none =>
    match Cmd.all.find? fun cmd => (cmd.code ||| CRYPTO_RESP) == code with
    | some cmd => .response cmd
    | none => .other

/-- The length a field declares. -/
def fieldLen (opcode : BitVec 32) : Nat := (opcode &&& 0xffff).toNat

/-- The code of a field. -/
def fieldCode (opcode : BitVec 32) : BitVec 32 := opcode &&& 0xffff0000

/-! ### What is outside -/

/-- A public key, known by its `EVP_PKEY_size`, which is an `int`. -/
structure PubKey where
  size : Nat
  size_lt : size < 2 ^ 31

/-- A `struct value`. -/
structure Value where
  tstamp : BitVec 32 := 0
  fstamp : BitVec 32 := 0
  data : CStr := []
  sig : CStr := []
deriving DecidableEq, Repr

/-- A certificate of the cache. -/
structure CertInfo where
  subject : CStr
  issuer : CStr
  trust : Bool
  priv : Bool
  error : Bool
  cert : Value
  pkey : Option PubKey

/-- The parameters of an identity scheme: the filestamp, and if there is a key. -/
structure IdentKey where
  fstamp : BitVec 32
  key : Bool
deriving DecidableEq, Repr

/-- The Autokey variables of an association that responses change. -/
structure Vars where
  assoc : Nat := 0
  crypto : BitVec 32 := 0
  pkey : Option PubKey := none
  digest : Option (BitVec 32) := none
  subject : Option CStr := none
  issuer : Option CStr := none
  ident_pkey : Option IdentKey := none
  iffval : Bool := false
  cookval : Value := {}
  recval : Value := {}
  autokey : Option Autokey := none
  pkeyid : BitVec 32 := 0
  hcookie : BitVec 32 := 0
  pcookie : BitVec 32 := 0
  test8 : Bool := true

/-- An association, with the request it still has to answer. -/
structure CryptoPeer extends Vars where
  associd : Nat
  pmode : PktMode := .unspec
  cast_flags : CastFlags := {}
  sndval : Value := {}
  cmmd : Option CStr := none

/-- The keys and values of this host, and the cryptographic library. A scheme
    that is not configured has no function to answer a challenge. -/
structure Host where
  crypto_flags : BitVec 32 := 0
  crypto_time : BitVec 32 := 0
  sign_pkey : Option PubKey := none
  host_pkey : PubKey
  hostval : Value := {}
  pubkey : Value := {}
  tai_leap : Value := {}
  cert_host : BitVec 32 × BitVec 32 × Value := (0, 0, {})
  cinfo : List CertInfo := []
  iffkey_info : Option (CStr → Except Xevnt Value) := none
  gqkey_info : Option (CStr → Except Xevnt Value) := none
  mvkey_info : Option (CStr → Except Xevnt Value) := none
  alice : Cmd → CryptoPeer → Except Xevnt Value := fun _ _ => .error .id
  signs : CStr → Except Xevnt Value := fun _ => .error .crt
  encrypts : CStr → BitVec 32 → Except Xevnt Value := fun _ _ => .error .pub
  findpeerbyassoc : Nat → Option Value := fun _ => none
  verifies : PubKey → CStr → CStr → Bool := fun _ _ _ => false
  digestbynid : BitVec 32 → Bool := fun _ => false
  decrypts : CStr → Option (BitVec 32) := fun _ => none
  cert_parse : CStr → BitVec 32 → Option CertInfo := fun _ _ => none
  cert_hike : Vars → CertInfo → Xevnt × Vars := fun v _ => (.ok, v)
  identifies : Cmd → CStr → Vars → Xevnt := fun _ _ _ => .id

/-! ### `crypto_verify` -/

/-- The association identifier a response must have. -/
def expectedAssoc (code : BitVec 32) (peer : CryptoPeer) : Nat :=
  if code = Cmd.auto.code ||| CRYPTO_RESP ∧ (peer.pmode = .broadcast ∨ peer.cast_flags.bclnt)
  then peer.assoc else peer.associd

/-- The words a length takes, as the source computes it in 32 bits. -/
def words (n : BitVec 32) : BitVec 32 := (n + 3) / 4

/-- The offset of the signature length. -/
def siglenOff (vallen : BitVec 32) : Nat := 20 + 4 * (words vallen).toNat

/-- The check of the lengths, in 32 bits. -/
def lengthsOk (len : Nat) (vallen siglen : BitVec 32) : Bool :=
  decide ((BitVec.ofNat 32 VALUE_LEN + words vallen * 4 + words siglen * 4).toNat ≤ len)

/-- The check of the stamps against those of the value the association has. -/
def checkStamps (tstamp fstamp : BitVec 32) (vp : Option Value) : Xevnt :=
  if tstamp = 0 then .tsp
  else if tstamp < fstamp then .tsp
  else match vp with
    | none => .ok
    | some v =>
      if v.tstamp ≠ 0 ∧ v.fstamp ≠ 0 then
        if tstamp < v.tstamp then .tsp
        else if tstamp < v.fstamp ∨ fstamp < v.fstamp then .fsp
        else .ok
      else .ok

/-- The key to verify with. -/
def verifyKey (host : Host) (peer : CryptoPeer) : Option PubKey :=
  if host.crypto_flags &&& peer.crypto &&& CRYPTO_FLAG_PRIV ≠ 0 then host.sign_pkey else peer.pkey

/-- The check of the key and of the length of the signature. -/
def checkKey (host : Host) (peer : CryptoPeer) (siglen : BitVec 32) : Except Xevnt PubKey :=
  match verifyKey host peer with
  | none => .error .err
  | some pkey =>
    if siglen = 0 ∨ peer.digest.isNone then .error .err
    else if siglen.toNat ≠ pkey.size then .error .sgl
    else .ok pkey

/-- The octets a signature is over, whose number is computed in 32 bits. -/
def signedLen (vallen : BitVec 32) : Nat := (vallen + 12).toNat

/-- The end of `crypto_verify`: the key and the signature. -/
def verifySignature (host : Host) (peer : CryptoPeer) (vallen siglen : BitVec 32) :
    Reading (Xevnt × BitVec 32) := do
  match checkKey host peer siglen with
  | .error rval => return (rval, peer.crypto)
  | .ok pkey =>
    let data ← bytes 8 (signedLen vallen)
    let sig ← bytes (siglenOff vallen + 4) siglen.toNat
    if host.verifies pkey data sig = false then return (.sig, peer.crypto)
    if peer.crypto &&& CRYPTO_FLAG_VRFY ≠ 0 then
      return (.ok, peer.crypto ||| CRYPTO_FLAG_PROV)
    return (.ok, peer.crypto)

/-- The middle of `crypto_verify`: the lengths and the stamps. The length of the
    signature is looked up before the length of the value has been checked. -/
def verifyValue (host : Host) (vp : Option Value) (peer : CryptoPeer) (len : Nat)
    (code vallen : BitVec 32) : Reading (Xevnt × BitVec 32) := do
  let siglen ← word (siglenOff vallen)
  if lengthsOk len vallen siglen = false then return (.len, peer.crypto)
  let tstamp ← word 8
  let fstamp ← word 12
  let rval := checkStamps tstamp fstamp vp
  if rval ≠ .ok then return (rval, peer.crypto)
  -- The public key of a certificate is in the certificate.
  if code = Cmd.cert.code ||| CRYPTO_RESP then return (.ok, peer.crypto)
  verifySignature host peer vallen siglen

/-- `crypto_verify`: the event code, and the flags of the association. -/
def cryptoVerify (host : Host) (vp : Option Value) (peer : CryptoPeer) :
    Reading (Xevnt × BitVec 32) := do
  let opcode ← word 0
  let len := fieldLen opcode
  let code := fieldCode opcode
  if code &&& CRYPTO_ERROR ≠ 0 then return (.err, peer.crypto)
  if len < VALUE_LEN then return (.len, peer.crypto)
  let associd ← word 4
  if associd.toNat ≠ expectedAssoc code peer then return (.err, peer.crypto)
  let vallen ← word 16
  if vallen = 0 then return (.len, peer.crypto)
  verifyValue host vp peer len code vallen

/-! ### Responses -/

/-- `cert_install`. -/
def certInstall (host : Host) : Reading (Option CertInfo) := do
  let vallen ← word 16
  let fstamp ← word 12
  let data ← bytes 20 vallen.toNat
  return host.cert_parse data fstamp

/-- `crypto_iff`, `crypto_gq` and `crypto_mv`, which differ in the filestamps they take. -/
def identify (host : Host) (cmd : Cmd) (stale : BitVec 32 → BitVec 32 → Bool) (v : Vars) :
    Reading Xevnt := do
  match v.ident_pkey with
  | none => return .id
  | some key =>
    let fstamp ← word 12
    if stale fstamp key.fstamp then return .fsp
    if key.key = false then return .pub
    if v.iffval = false then return .id
    let vallen ← word 16
    let data ← bytes 20 vallen.toNat
    return host.identifies cmd data v

def cryptoIff (host : Host) : Vars → Reading Xevnt := identify host .iff fun f g => f != g
def cryptoGq (host : Host) : Vars → Reading Xevnt := identify host .gq fun f g => decide (f < g)
def cryptoMv (host : Host) : Vars → Reading Xevnt := identify host .mv fun f g => f != g

/-- The answer of an identity scheme is good. -/
def proven (v : Vars) (rval : Xevnt) : Vars × Xevnt :=
  if rval = .ok then ({ v with crypto := v.crypto ||| CRYPTO_FLAG_VRFY, test8 := false }, .ok)
  else (v, rval)

/-- The certificate of a server. -/
def installCert (host : Host) (v : Vars) : Reading (Vars × Xevnt) := do
  match ← certInstall host with
  | none => return (v, .crt)
  | some xinfo =>
    let (rval, v) := host.cert_hike v xinfo
    if rval ≠ .ok then return (v, rval)
    return ({ v with
      pkey := if v.pkey.isNone then xinfo.pkey else v.pkey
      test8 := false }, .ok)

/-- The certificate this server has had signed. -/
def installSign (host : Host) (v : Vars) : Reading (Vars × Xevnt) := do
  match ← certInstall host with
  | none => return (v, .crt)
  | some _ => return ({ v with crypto := v.crypto ||| CRYPTO_FLAG_SIGN, test8 := false }, .ok)

/-- The cookie. -/
def installCook (host : Host) (hismode : PktMode) (vallen : BitVec 32) (v : Vars) :
    Reading (Vars × Xevnt) := do
  if vallen.toNat ≠ host.host_pkey.size then return (v, .cky)
  let data ← bytes 20 vallen.toNat
  match host.decrypts data with
  | none => return (v, .cky)
  | some cookie =>
    return ({ v with
      pcookie := if hismode = .active ∨ hismode = .passive then v.hcookie ^^^ cookie else cookie
      crypto := v.crypto ||| CRYPTO_FLAG_COOK
      test8 := false }, .ok)

/-- The autokey values: a key and its number. -/
def installAuto (bclnt : Bool) (associd : Nat) (v : Vars) : Reading (Vars × Xevnt) := do
  if bclnt ∧ v.assoc ≠ associd then return (v, .ok)
  let tstamp ← word 8
  if tstamp = 0 then return (v, .ok)
  let fstamp ← word 12
  let seq ← word 24
  let key ← word 20
  return ({ v with
    recval := { v.recval with tstamp := tstamp, fstamp := fstamp }
    autokey := some { key := key.toNat, seq := seq.toInt }
    pkeyid := key
    crypto := v.crypto ||| CRYPTO_FLAG_AUTO
    test8 := false }, .ok)

/-- The leap second values: three words. -/
def installLeap (v : Vars) : Reading (Vars × Xevnt) := do
  let _ ← word 28
  let _ ← word 24
  let _ ← word 20
  return ({ v with crypto := v.crypto ||| CRYPTO_FLAG_LEAP, test8 := false }, .ok)

/-- What `crypto_recv` does with a response that has been verified. -/
def installResponse (host : Host) (hismode : PktMode) (cmd : Cmd) (associd : Nat)
    (vallen : BitVec 32) (peer : CryptoPeer) : Reading (Vars × Xevnt) :=
  match cmd with
  | .assoc => return (peer.toVars, .ok)
  | .cert => installCert host peer.toVars
  | .iff => do return proven peer.toVars (← cryptoIff host peer.toVars)
  | .gq => do return proven peer.toVars (← cryptoGq host peer.toVars)
  | .mv => do return proven peer.toVars (← cryptoMv host peer.toVars)
  | .cook => installCook host hismode vallen peer.toVars
  | .auto => installAuto peer.cast_flags.bclnt associd peer.toVars
  | .sign => installSign host peer.toVars
  | .leap => installLeap peer.toVars

/-- The value whose stamps a response must not precede. -/
def comparedWith (cmd : Cmd) (peer : CryptoPeer) : Option Value :=
  match cmd with
  | .cook => some peer.cookval
  | .auto => some peer.recval
  | _ => none

/-! ### `crypto_recv` -/

/-- The variables that are set by a field with a value and keep theirs for one without. -/
structure Stamps where
  fstamp : BitVec 32 := 0
  vallen : BitVec 32 := 0
deriving DecidableEq, Repr

/-- The status word and the name of the other side. -/
def recvAssoc (host : Host) (hismode : PktMode) (len associd : Nat) (st : Stamps)
    (peer : CryptoPeer) : Reading (CryptoPeer × Xevnt) := do
  if peer.crypto ≠ 0 then
    return (peer, if peer.assoc ≠ associd then .err else .ok)
  if st.vallen = 0 ∨ st.vallen.toNat > MAXHOSTNAME ∨
      len < (BitVec.ofNat 32 VALUE_LEN + st.vallen).toNat then
    return (peer, .len)
  let mask := host.crypto_flags &&& CRYPTO_FLAG_MASK
  let priv := host.crypto_flags &&& CRYPTO_FLAG_PRIV ≠ 0
  if priv ∧ st.fstamp &&& CRYPTO_FLAG_PRIV = 0 then return (peer, .key)
  if ¬ priv ∧ (hismode = .active ∨ hismode = .passive) ∧
      ¬ (mask = 0 ↔ st.fstamp &&& CRYPTO_FLAG_MASK = 0) then
    return (peer, .key)
  let fstamp := if priv
    then st.fstamp ||| CRYPTO_FLAG_CERT ||| CRYPTO_FLAG_VRFY ||| CRYPTO_FLAG_SIGN else st.fstamp
  let nid := (fstamp >>> 16) &&& 0xffff
  if host.digestbynid nid = false then return (peer, .md)
  let fstamp := if hismode = .server then fstamp ||| CRYPTO_FLAG_AUTO else fstamp
  let fstamp := if fstamp &&& CRYPTO_FLAG_TAI = 0 then fstamp ||| CRYPTO_FLAG_LEAP else fstamp
  let name ← bytes 20 st.vallen.toNat
  return ({ peer with
    assoc := associd
    crypto := fstamp
    digest := some nid
    subject := some name
    issuer := some name }, .ok)

/-- A request is copied, to be answered with the next packet. -/
def saveRequest (len : Nat) (peer : CryptoPeer) : Reading (CryptoPeer × Xevnt) := do
  match peer.cmmd with
  | some _ => return (peer, .ok)
  | none =>
    let fp ← bytes 0 len
    return ({ peer with cmmd := some fp }, .ok)

/-- The octets of a word in network order. -/
def htonl (w : BitVec 32) : CStr :=
  [(w >>> 24).setWidth 8, (w >>> 16).setWidth 8, (w >>> 8).setWidth 8, w.setWidth 8]

/-- A request for an association is answered and looked at as well. Its copy has
    the identifier of this association in it. -/
def recvAssocRequest (host : Host) (hismode : PktMode) (len associd : Nat) (st : Stamps)
    (peer : CryptoPeer) : Reading (CryptoPeer × Xevnt) := do
  if peer.crypto &&& CRYPTO_FLAG_CERT ≠ 0 then return (peer, .err)
  if peer.cmmd.isSome ∧ peer.assoc ≠ associd then return (peer, .err)
  let fp ← bytes 0 len
  let fp := fp.take 4 ++ htonl (BitVec.ofNat 32 peer.associd) ++ fp.drop 8
  recvAssoc host hismode len associd st { peer with cmmd := some fp }

/-- A response other than that to a request for an association. -/
def recvResponse (host : Host) (hismode : PktMode) (cmd : Cmd) (len associd : Nat) (st : Stamps)
    (peer : CryptoPeer) : Reading (CryptoPeer × Xevnt) := do
  if cmd = .cert ∧ len < VALUE_LEN then return (peer, .ok)
  let (rval, crypto) ← cryptoVerify host (comparedWith cmd peer) peer
  let peer := { peer with crypto := crypto }
  if rval ≠ .ok then return (peer, rval)
  let (v, rval) ← installResponse host hismode cmd associd st.vallen peer
  return ({ peer with toVars := v }, rval)

/-- A request of this kind has a value. -/
def Cmd.hasValue : Cmd → Bool
  | .cert | .iff | .gq | .mv | .cook | .sign => true
  | .assoc | .auto | .leap => false

/-- The code of a field, with the error bit for a field that is too short or of another version. -/
def checkedCode (opcode : BitVec 32) : BitVec 32 :=
  if (fieldCode opcode >>> 24) &&& 0x3f ≠ CRYPTO_VN ∨ fieldLen opcode < 8 then
    fieldCode opcode ||| CRYPTO_ERROR
  else fieldCode opcode

/-- The stamps and the length of a field with a value. -/
def readStamps (len : Nat) (st : Stamps) : Reading Stamps := do
  if len < VALUE_LEN then return st
  let _ ← word 8
  let fstamp ← word 12
  let vallen ← word 16
  return { fstamp := fstamp, vallen := vallen }

/-- The `switch` of `crypto_recv`. -/
def recvSwitch (host : Host) (hismode : PktMode) (opcode : BitVec 32) (associd : Nat) (st : Stamps)
    (peer : CryptoPeer) : Reading (CryptoPeer × Xevnt) :=
  let len := fieldLen opcode
  match message (checkedCode opcode) with
  | .request .assoc => recvAssocRequest host hismode len associd st peer
  | .response .assoc => recvAssoc host hismode len associd st peer
  | .response cmd => recvResponse host hismode cmd len associd st peer
  | .request cmd =>
    if cmd.hasValue = true ∧ len < VALUE_LEN then return (peer, .len) else saveRequest len peer
  | .other =>
    if checkedCode opcode &&& (CRYPTO_RESP ||| CRYPTO_ERROR) ≠ 0 then return (peer, .err)
    else saveRequest len peer

/-- One turn of the loop of `crypto_recv`. -/
def recvField (host : Host) (hismode : PktMode) (st : Stamps) (peer : CryptoPeer) :
    Reading (Stamps × CryptoPeer × Xevnt) := do
  let opcode ← word 0
  let pkt1 ← word 4
  let st ← readStamps (fieldLen opcode) st
  let r ← recvSwitch host hismode opcode (pkt1.toNat % 2 ^ 16) st peer
  return (st, r)

/-- The memory from an offset of the receive buffer on. -/
def bufferMem (rb : RecvBuf) (off : Nat) : Memory := fun i => rb.byte (off + i)

/-- The loop of `crypto_recv`. Every field of a framed packet is at least four
    octets long, so there are fewer turns than octets. -/
def recvLoop (host : Host) (hismode : PktMode) (rb : RecvBuf) :
    Nat → Nat → Stamps → CryptoPeer → CryptoPeer × Xevnt
  | 0, _, _, peer => (peer, .ok)
  | fuel + 1, authlen, st, peer =>
    if sizeT (rb.recv_length - authlen) > MAX_MAC_LEN then
      let m := bufferMem rb authlen
      let (st, peer, rval) := (recvField host hismode st peer).run m
      if rval ≠ .ok then (peer, rval)
      else recvLoop host hismode rb fuel (authlen + (fieldLen (wordAt m 0) + 3) / 4 * 4) st peer
    else (peer, .ok)

/-- `crypto_recv`. -/
def cryptoRecv (host : Host) (hismode : PktMode) (rb : RecvBuf) (peer : CryptoPeer) :
    CryptoPeer × Xevnt :=
  recvLoop host hismode rb (rb.recv_length.toNat + 1) LEN_PKT_NOMAC {} peer

/-! ### `crypto_xmit` -/

/-- What is sent: a value, or the header of a field alone. -/
abbrev Sent := Except Xevnt (Option Value)

/-- The result of a function that makes a value. -/
def sendResult : Except Xevnt Value → Sent
  | .ok v => .ok (some v)
  | .error rval => .error rval

/-- `crypto_bob`, `crypto_bob2` and `crypto_bob3`, which differ in the scheme
    whose parameters they need. -/
def answer (scheme : Option (CStr → Except Xevnt Value)) : Reading (Except Xevnt Value) := do
  match scheme with
  | none => return .error .id
  | some f =>
    let vallen ← word 16
    let r ← bytes 20 vallen.toNat
    return f r

def cryptoBob (host : Host) : Reading (Except Xevnt Value) := answer host.iffkey_info
def cryptoBob2 (host : Host) : Reading (Except Xevnt Value) := answer host.gqkey_info
def cryptoBob3 (host : Host) : Reading (Except Xevnt Value) := answer host.mvkey_info

/-- `cert_sign`. -/
def certSign (host : Host) : Reading (Except Xevnt Value) := do
  if host.crypto_time = 0 then return .error .tsp
  let vallen ← word 16
  let req ← bytes 20 vallen.toNat
  match host.signs req with
  | .error rval => return .error rval
  | .ok v =>
    let fstamp ← word 12
    return .ok { v with fstamp := fstamp }

/-- `crypto_encrypt`. -/
def cryptoEncrypt (host : Host) (cookie : BitVec 32) : Reading (Except Xevnt Value) := do
  let len ← word 16
  let key ← bytes 20 len.toNat
  return host.encrypts key cookie

/-- The certificate for a name: a trusted one that is self-signed, or the last one that is not. -/
def findCert (cinfo : List CertInfo) (name : CStr) : Option CertInfo :=
  let named := cinfo.filter fun cp => !(cp.priv || cp.error) && cp.subject == name
  let xp := (named.filter fun cp => cp.issuer == name && cp.trust).getLast?
  let yp := (named.filter fun cp => cp.issuer != name).getLast?
  xp <|> yp

/-- The certificate that is sent for a name, if the clock is set. -/
def certFor (host : Host) (name : CStr) : Option Value :=
  match findCert host.cinfo name with
  | none => none
  | some xp => if host.crypto_time = 0 then none else some xp.cert

/-- The response to a request for a certificate. -/
def sendCert (host : Host) : Reading Sent := do
  let vallen ← word 16
  if vallen = 0 ∨ vallen.toNat > MAXHOSTNAME then return .error .len
  let name ← bytes 20 vallen.toNat
  return .ok (certFor host (name.takeWhile (· ≠ 0)))

/-- `crypto_send` finds room for a value of this length and no signature, at an
    offset of the packet. -/
def sendFits (start : Nat) (vallen : BitVec 32) : Bool :=
  decide (((BitVec.ofNat 32 start) + (16 + (words vallen + 1) * 4 + 4)).toNat ≤ 2120 - MAX_MAC_LEN)

/-- `crypto_xmit` with a request of this host. -/
def xmitRequest (host : Host) (peer : Option CryptoPeer) (start : Nat) (cmd : Cmd) :
    Reading Sent := do
  match cmd with
  | .assoc => return .ok (some { host.hostval with fstamp := host.crypto_flags })
  | .cert =>
    let tstamp ← word 8
    let fstamp ← word 12
    let vallen ← word 16
    if sendFits start vallen = false then return .ok none
    let data ← bytes 20 vallen.toNat
    return .ok (some { tstamp := tstamp, fstamp := fstamp, data := data })
  | .sign =>
    let (first, last, cert) := host.cert_host
    if host.crypto_time < first ∨ host.crypto_time > last then return .error .per
    return .ok (some cert)
  | .iff | .gq | .mv =>
    match peer with
    | none => return .ok none
    | some p => return sendResult (host.alice cmd p)
  | .cook => return .ok (some host.pubkey)
  | .auto | .leap => return .ok none

/-- `crypto_xmit` with a response to a request. -/
def xmitResponse (host : Host) (peer : Option CryptoPeer) (cookie : BitVec 32) (len associd : Nat)
    (cmd : Cmd) : Reading Sent := do
  match cmd with
  | .assoc => return .ok (some { host.hostval with fstamp := host.crypto_flags })
  | .cert => sendCert host
  | .iff => return sendResult (← cryptoBob host)
  | .gq => return sendResult (← cryptoBob2 host)
  | .mv => return sendResult (← cryptoBob3 host)
  | .sign => return sendResult (← certSign host)
  | .cook =>
    if len < VALUE_LEN then return .error .len
    return sendResult (← cryptoEncrypt host (match peer with
      | none => cookie
      | some p => p.hcookie))
  | .auto =>
    match peer with
    | some p => return .ok (some p.sndval)
    | none => match host.findpeerbyassoc associd with
      | none => return .error .err
      | some sndval => return .ok (some sndval)
  | .leap => return .ok (some host.tai_leap)

/-- `crypto_xmit`: what is sent in answer to a field, or for it. -/
def cryptoXmit (host : Host) (peer : Option CryptoPeer) (start : Nat) (cookie : BitVec 32) :
    Reading Sent := do
  let opcode ← word 0
  let associd ← word 4
  match message (fieldCode opcode) with
  | .request cmd => xmitRequest host peer start cmd
  | .response cmd =>
    xmitResponse host peer cookie (fieldLen opcode) (associd.toNat % 2 ^ 16) cmd
  | .other => return if opcode &&& CRYPTO_RESP ≠ 0 then .error .err else .ok none

/-- The response bit of a field is lit. -/
def lightResp (m : Memory) : Memory := Function.update m 0 (m 0 ||| 0x80)

/-- The field `fast_xmit` answers, if there is one: the first of the packet. -/
def fastXmit (rb : RecvBuf) (xkeyid : Nat) : Option Memory :=
  if xkeyid > NTP_MAXKEY ∧ rb.recv_length > LEN_PKT_NOMAC + MAX_MAC_LEN then
    some (lightResp (bufferMem rb LEN_PKT_NOMAC))
  else none

/-- A copy on the heap, with what stands behind it. -/
def heapMem (fp : CStr) (rest : Memory) : Memory := fun i => fp.getD i (rest i)

/-- The field `peer_xmit` answers, if there is one: the saved request. -/
def peerXmit (peer : CryptoPeer) (rest : Memory) : Option Memory :=
  peer.cmmd.map fun fp => lightResp (heapMem fp rest)

end NtpSuite.Exten
