import NtpSuite.Core.Exten
import NtpSuite.Lib.Malloc

/-!
# Copies of Requests

The copies that `crypto_recv` makes of the requests it leaves to `peer_xmit`, as
blocks of memory. An association has the address of one copy in `cmmd`; the
null pointer is zero. `peer_xmit` frees the copy when it has been answered, and
`peer_clear` when the association is cleared.

The functions are those of the module of extension fields, with an allocation
in place of the assignment of the copy. The addresses of all copies that were
made and of all that were freed are recorded.

## Main definitions

* `CopySys`: An association and its copies.
* `cryptoRecvCopy`: `crypto_recv` with its allocations.
* `copyStep`: What happens to an association.
-/

namespace NtpSuite.Exten

open Reading
open Malloc (Heap)

/-- An association with the heap, the address in `cmmd`, and all copies that were made and freed. -/
structure CopySys where
  peer : CryptoPeer
  cmmd : Nat := 0
  heap : Heap := {}
  copies : List Nat := []
  frees : List Nat := []

/-- `emalloc` and `memcpy`: the copy is assigned to `cmmd`. -/
def emallocCopy (fp : CStr) (s : CopySys) : CopySys :=
  let new := s.heap.malloc fp.length
  { s with
    peer := { s.peer with cmmd := some fp }
    cmmd := new.2
    heap := new.1.write new.2 fp
    copies := new.2 :: s.copies }

/-- `free`, and `cmmd` is the null pointer. -/
def freeCopy (s : CopySys) : CopySys :=
  if s.cmmd ≠ 0 then
    { s with
      peer := { s.peer with cmmd := none }
      cmmd := 0
      heap := s.heap.free s.cmmd
      frees := s.cmmd :: s.frees }
  else s

/-- A function that leaves the copies alone. -/
def withPeer (f : CryptoPeer → Reading (CryptoPeer × Xevnt)) (m : Memory) (s : CopySys) :
    CopySys × Xevnt :=
  let r := (f s.peer).run m
  ({ s with peer := r.1 }, r.2)

/-- A request is copied if none is waiting. -/
def saveRequestCopy (len : Nat) (m : Memory) (s : CopySys) : CopySys × Xevnt :=
  if s.cmmd ≠ 0 then (s, .ok) else (emallocCopy (octetsAt m 0 len) s, .ok)

/-- The copy of a request for an association, with the identifier of this one. -/
def assocCopy (len : Nat) (m : Memory) (peer : CryptoPeer) : CStr :=
  let fp := octetsAt m 0 len
  fp.take 4 ++ htonl (BitVec.ofNat 32 peer.associd) ++ fp.drop 8

/-- A request for an association is copied also if one is waiting, unless it is
    from another association. -/
def recvAssocRequestCopy (host : Host) (hismode : PktMode) (len associd : Nat) (st : Stamps)
    (m : Memory) (s : CopySys) : CopySys × Xevnt :=
  if s.peer.crypto &&& CRYPTO_FLAG_CERT ≠ 0 then (s, .err)
  else if s.cmmd ≠ 0 ∧ s.peer.assoc ≠ associd then (s, .err)
  else withPeer (recvAssoc host hismode len associd st) m (emallocCopy (assocCopy len m s.peer) s)

/-- The `switch` of `crypto_recv`. -/
def recvSwitchCopy (host : Host) (hismode : PktMode) (opcode : BitVec 32) (associd : Nat)
    (st : Stamps) (m : Memory) (s : CopySys) : CopySys × Xevnt :=
  let len := fieldLen opcode
  match message (checkedCode opcode) with
  | .request .assoc => recvAssocRequestCopy host hismode len associd st m s
  | .response .assoc => withPeer (recvAssoc host hismode len associd st) m s
  | .response cmd => withPeer (recvResponse host hismode cmd len associd st) m s
  | .request cmd =>
    if cmd.hasValue = true ∧ len < VALUE_LEN then (s, .len) else saveRequestCopy len m s
  | .other =>
    if checkedCode opcode &&& (CRYPTO_RESP ||| CRYPTO_ERROR) ≠ 0 then (s, .err)
    else saveRequestCopy len m s

/-- One turn of the loop of `crypto_recv`. -/
def recvFieldCopy (host : Host) (hismode : PktMode) (st : Stamps) (m : Memory) (s : CopySys) :
    CopySys × Xevnt :=
  recvSwitchCopy host hismode (wordAt m 0) ((wordAt m 4).toNat % 2 ^ 16) st m s

/-- The loop of `crypto_recv`. -/
def recvLoopCopy (host : Host) (hismode : PktMode) (rb : RecvBuf) :
    Nat → Nat → Stamps → CopySys → CopySys × Xevnt
  | 0, _, _, s => (s, .ok)
  | fuel + 1, authlen, st, s =>
    if sizeT (rb.recv_length - authlen) > MAX_MAC_LEN then
      let m := bufferMem rb authlen
      let st := (readStamps (fieldLen (wordAt m 0)) st).run m
      let r := recvFieldCopy host hismode st m s
      if r.2 ≠ .ok then r
      else recvLoopCopy host hismode rb fuel (authlen + (fieldLen (wordAt m 0) + 3) / 4 * 4) st r.1
    else (s, .ok)

/-- `crypto_recv`. -/
def cryptoRecvCopy (host : Host) (hismode : PktMode) (rb : RecvBuf) (s : CopySys) :
    CopySys × Xevnt :=
  recvLoopCopy host hismode rb (rb.recv_length.toNat + 1) LEN_PKT_NOMAC {} s

/-- `peer_clear`: the copy is freed and the variables of Autokey are cleared. -/
def peerClearCopy (s : CopySys) : CopySys :=
  let s := freeCopy s
  { s with peer := { s.peer with toVars := {}, sndval := {} } }

/-- What happens to an association: a packet, of which a protocol error clears it; a packet of its
    own; it is cleared for another reason; or other functions change its variables. -/
inductive CopyEvent where
  | recv (host : Host) (hismode : PktMode) (rb : RecvBuf)
  | xmit
  | clear
  | change (v : Vars)

def copyStep (s : CopySys) : CopyEvent → CopySys
  | .recv host hismode rb =>
    let r := cryptoRecvCopy host hismode rb s
    if r.2 = .err then peerClearCopy r.1 else r.1
  | .xmit => freeCopy s
  | .clear => peerClearCopy s
  | .change v => { s with peer := { s.peer with toVars := v } }

end NtpSuite.Exten
