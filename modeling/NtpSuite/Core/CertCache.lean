import NtpSuite.Core.Exten

/-!
# The Certificate Cache

The certificates of `ntp_crypto.c`: `cert_install`, which puts a certificate that
came with a response on the list `cinfo`, and `cert_hike`, which goes one step up
the trail of an association. The list is shared by all associations, and each has
in `xinfo` the address of the certificate it saw last.

Certificates are known by their address. Addresses are not handed out again, and
there is nothing at the address of a certificate that has been freed. A function
that looks at such an address does what nobody knows; it lights `wild`.

What `cert_parse` makes of the octets of a response is a parameter of what
happens, and the library that decodes and verifies certificates is a parameter of
the functions. That `crypto_update` signs the certificates anew is left out.

## Main definitions

* `CertSys`: The certificates and the associations.
* `certInstall`, `certHike`: The two functions.
* `certStep`: A response of an association.
-/

namespace NtpSuite.Certs

open Exten

/-- A `struct cert_info`, with the fields that are not in `CertInfo`. -/
structure CertNode extends CertInfo where
  valid : Bool := false
  sign : Bool := false
  first : BitVec 32
  last : BitVec 32
  grpkey : Option CStr := none

/-- The variables of an association that `cert_hike` changes, and if it has an identity scheme. -/
structure CertPeer where
  issuer : Option CStr := none
  xinfo : Option Nat := none
  crypto : BitVec 32 := 0
  grpkey : Option CStr := none
  ident : Bool := false

/-- The certificates, the list, and all associations. -/
structure CertSys where
  node : Nat → Option CertNode := fun _ => none
  next : Nat := 1
  cinfo : List Nat := []
  peers : Nat → CertPeer := fun _ => {}
  wild : Bool := false

/-- `d2i_X509` and `X509_verify`. -/
structure X509 where
  decodes : CStr → Bool
  verifies : CStr → Option PubKey → Bool

namespace CertSys

/-- `emalloc`: a certificate gets the next address. -/
def alloc (s : CertSys) (cp : CertNode) : CertSys :=
  { s with node := Function.update s.node s.next (some cp), next := s.next + 1 }

/-- `cert_free`. -/
def certFree (s : CertSys) (a : Nat) : CertSys :=
  { s with node := Function.update s.node a none }

/-- A flag of the certificate at an address is lit. -/
def light (s : CertSys) (flag : CertNode → CertNode) (a : Nat) : CertSys :=
  { s with node := Function.update s.node a ((s.node a).map flag) }

def setPeer (s : CertSys) (i : Nat) (peer : CertPeer) : CertSys :=
  { s with peers := Function.update s.peers i peer }

end CertSys

/-- Two certificates are for the same subject by the same issuer. -/
def sameNames (cp xp : CertNode) : Prop := cp.subject = xp.subject ∧ cp.issuer = xp.issuer

instance (cp xp : CertNode) : Decidable (sameNames cp xp) := inferInstanceAs (Decidable (_ ∧ _))

/-- The scan of the list for a certificate with the same names: its address, the
    certificate, and the list without it. -/
def scan (node : Nat → Option CertNode) (cp : CertNode) :
    List Nat → Option (Nat × CertNode × List Nat)
  | [] => none
  | a :: link =>
    match node a with
    | none => none
    | some xp =>
      if sameNames cp xp then some (a, xp, link)
      else (scan node cp link).map fun r => (r.1, r.2.1, a :: r.2.2)

/-- `cert_install` of what `cert_parse` returned: the certificate on the list. -/
def certInstall (cp : Option CertNode) (s : CertSys) : Option Nat × CertSys :=
  match cp with
  | none => (none, s)
  | some cp =>
    let s1 := s.alloc cp
    match scan s.node cp s.cinfo with
    | some (a, xp, rest) =>
      if cp.cert.fstamp ≤ xp.cert.fstamp then
        (some a, (s1.certFree s.next).light (fun c => { c with valid := true }) a)
      else
        (some s.next,
          { s1.certFree a with cinfo := s.next :: rest }.light
            (fun c => { c with valid := true }) s.next)
    | none =>
      (some s.next,
        { s1 with cinfo := s.next :: s.cinfo }.light (fun c => { c with valid := true }) s.next)

/-- The end of `cert_hike`: the certificate seen before is verified with the key of the new one. -/
def hikeVerify (lib : X509) (yp : CertNode) (a : Nat) (s : CertSys) : Xevnt × CertSys :=
  match s.node a with
  | none => (.ok, { s with wild := true })
  | some xp =>
    if lib.decodes xp.cert.data = false then
      (.crt, s.light (fun c => { c with error := true }) a)
    else if lib.verifies xp.cert.data yp.pkey = false then
      (.vfy, s.light (fun c => { c with error := true }) a)
    else if xp.first < yp.first ∨ yp.last < xp.first then
      (.per, s.light (fun c => { c with error := true }) a)
    else (.ok, s.light (fun c => { c with sign := true }) a)

/-- The trail is complete: the association takes the group key, and the identity is
    verified if there is no scheme for it. -/
def complete (yp : CertNode) (peer : CertPeer) : CertPeer :=
  let crypto := peer.crypto ||| CRYPTO_FLAG_CERT
  { peer with
    grpkey := yp.grpkey
    crypto :=
      if peer.ident = false ∨ crypto &&& CRYPTO_FLAG_MASK = 0 then crypto ||| CRYPTO_FLAG_VRFY
      else crypto }

/-- `cert_hike`. -/
def certHike (lib : X509) (i y : Nat) (s : CertSys) : Xevnt × CertSys :=
  match s.node y with
  | none => (.ok, { s with wild := true })
  | some yp =>
    let xinfo := (s.peers i).xinfo
    let peer := { s.peers i with issuer := some yp.issuer, xinfo := some y }
    if yp.subject = yp.issuer ∧ yp.trust = false then (.ok, s.setPeer i peer)
    else
      let s1 := s.setPeer i (if yp.subject = yp.issuer then complete yp peer else peer)
      match xinfo with
      | none => (.ok, s1)
      | some a => hikeVerify lib yp a s1

/-- What happens: a response with a certificate, of an association; one with a
    certificate that was signed for this host; or an association is cleared. -/
inductive CertEvent where
  | cert (i : Nat) (cp : Option CertNode)
  | sign (i : Nat) (cp : Option CertNode)
  | clear (i : Nat)

/-- The cases of `crypto_recv` for the two responses, and `peer_clear`. -/
def certStep (lib : X509) (s : CertSys) : CertEvent → CertSys
  | .cert i cp =>
    match certInstall cp s with
    | (none, s1) => s1
    | (some y, s1) => (certHike lib i y s1).2
  | .sign _ cp => (certInstall cp s).2
  | .clear i => s.setPeer i { ident := (s.peers i).ident }

/-- `crypto_setup`: the certificate of this host is on the list, and no association has seen one. -/
def setup (host : CertNode) (peers : Nat → CertPeer) : CertSys :=
  { (({} : CertSys).alloc host) with
    cinfo := [1]
    peers := fun i => { peers i with xinfo := none } }

end NtpSuite.Certs
