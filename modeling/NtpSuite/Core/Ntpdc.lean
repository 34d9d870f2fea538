import NtpSuite.Core.RespPkt

/-!
# The Private Mode Client

The function `getresponse` of `ntpdc`, which collects the packets of a response. It
copies the items of a packet to the end of a buffer as soon as the packet has
arrived. Items that are shorter than expected are padded with zeros. The buffer
grows by a fixed number of octets when a packet does not fit, once per packet.

A datagram is the memory of the local variable it was received to, of which the
first `n` octets have arrived. The buffer is a memory without an end, and what is
written to it is recorded together with the octets it has at that time.

The numbers are unbounded here. In the source, the product of padding and items
does not fit into an `int` only if no buffer could hold what is copied.

## Main definitions

* `Getter`: The variables of `getresponse`.
* `verdict`: The checks of a packet.
* `copyItems`: The loop that copies the items.
* `getStep`: A packet, or a timeout.
-/

namespace NtpSuite.Ntpdc

open Reading
open Storing
open Request

def RESP_PKT_SIZE : Nat := RESP_HEADER_SIZE + RESP_DATA_SIZE
def INITDATASIZE : Nat := RESP_PKT_SIZE * 16
def INCDATASIZE : Nat := RESP_PKT_SIZE * 8

/-- Too big to be a sequence number. -/
def NOSEQ : Nat := 999

/-- What `getresponse` returns. -/
inductive Status where
  | okay
  | err (code : Nat)
  | timeout
  | incomplete
  | failed
deriving DecidableEq, Repr

/-- What is written, and the octets that the buffer has. -/
structure Stored where
  off : Nat
  len : Nat
  room : Nat
deriving DecidableEq, Repr

/-- The write is inside the buffer. -/
def Stored.InBounds (w : Stored) : Prop := w.len = 0 ∨ w.off + w.len ≤ w.room

instance (w : Stored) : Decidable w.InBounds := inferInstanceAs (Decidable (_ ∨ _))

/-- The request, and the size of an item that is expected. -/
structure Query where
  implcode : BitVec 8
  reqcode : BitVec 8
  esize : Nat

/-- The variables of `getresponse` and the buffer. `offset` is where `datap` points
    to, from the beginning of the buffer. -/
structure Getter where
  ritems : Nat := 0
  rsize : Nat := 0
  firstpkt : Bool := true
  numrecv : Nat := 0
  lastseq : Nat := NOSEQ
  haveseq : Nat → Bool := fun _ => false
  offset : Nat := 0
  pktdata : Memory
  pktdatasize : Nat
  writes : List Stored := []
  status : Option Status := none

/-- A datagram of `n` octets. `recv` is told of the size of the variable. -/
structure Datagram where
  mem : Memory
  n : Nat
  n_le : n ≤ RESP_PKT_SIZE

/-- `ntohs` of the two octets at an address. -/
def shortAt (m : Memory) (off : Nat) : BitVec 16 := m off ++ m (off + 1)

/-- The header. -/
def readHdr : Reading RespHdr := do
  let hdr ← bytes 0 RESP_HEADER_SIZE
  let m : Memory := fun i => hdr.getD i 0
  return {
    rm_vn_mode := m 0
    auth_seq := m 1
    implementation := m 2
    request := m 3
    err_nitems := shortAt m 4
    mbz_itemsize := shortAt m 6 }

/-- What becomes of a packet: it is tossed, it ends the wait, its number is noted and
    it is tossed, or its items are taken. -/
inductive Verdict where
  | toss
  | fail (code : Nat)
  | note
  | take
deriving DecidableEq, Repr

/-- The packet is a response to the request: the version, the mode, that it is not authenticated,
    that it is a response, the field that is zero, the implementation and the request. -/
def isAnswer (q : Query) (p : RespHdr) : Bool :=
  decide (NTP_OLDVERSION ≤ p.infoVersion) && decide (p.infoVersion ≤ NTP_VERSION)
    && p.infoMode == 7 && !p.infoIsAuth && p.isResponse && p.infoMbz == 0
    && p.implementation == q.implcode && p.request == q.reqcode

/-- The checks of a packet of `n` octets. -/
def verdict (q : Query) (g : Getter) (p : RespHdr) (n : Nat) : Verdict :=
  if ¬ isAnswer q p then .toss
  else if p.infoErr ≠ InfoErr.okay.toNat then .fail p.infoErr
  else if p.infoNitems * p.infoItemsize > n - RESP_HEADER_SIZE then .toss
  else if ¬ g.firstpkt ∧ p.infoItemsize ≠ g.rsize then .toss
  else if g.haveseq p.infoSeq then .toss
  else if ¬ p.isMore ∧ g.lastseq ≠ NOSEQ then .note
  else .take

namespace Getter

/-- Octets are written to the buffer. -/
def put (g : Getter) (off : Nat) (octets : CStr) : Getter :=
  { g with
    pktdata := store g.pktdata off octets
    writes := ⟨off, octets.length, g.pktdatasize⟩ :: g.writes }

/-- `growpktdata`. -/
def growpktdata (g : Getter) : Getter :=
  let old := g.pktdatasize
  { g with pktdatasize := old + INCDATASIZE }.put old (List.replicate INCDATASIZE 0)

/-- An item and its padding. -/
def putItem (g : Getter) (item : CStr) (pad : Nat) : Getter :=
  let g := g.put g.offset item
  let g := g.put (g.offset + item.length) (List.replicate pad 0)
  { g with offset := g.offset + (item.length + pad) }

/-- The number of a packet is noted. -/
def noteSeq (g : Getter) (seq : Nat) : Getter :=
  { g with haveseq := Function.update g.haveseq seq true }

/-- The number of a packet that is taken is noted, and if it is the last one. -/
def notePkt (g : Getter) (p : RespHdr) : Getter :=
  { g.noteSeq p.infoSeq with lastseq := if p.isMore then g.lastseq else p.infoSeq }

/-- The buffer grows if so many octets do not fit. -/
def makeRoom (g : Getter) (len : Nat) : Getter :=
  if g.offset + len > g.pktdatasize then g.growpktdata else g

/-- The packet was taken. It was the last one if there are as many as its number says. -/
def count (g : Getter) (items size pad : Nat) : Getter :=
  { g with
    firstpkt := false
    rsize := if g.firstpkt then size + pad else g.rsize
    ritems := g.ritems + items
    numrecv := g.numrecv + 1
    status := if g.numrecv + 1 ≤ g.lastseq then none else some .okay }

end Getter

/-- The loop over the items of a packet. -/
def copyItems (size pad : Nat) : Nat → Nat → Getter → Reading Getter
  | 0, _, g => return g
  | items + 1, tmp_data, g => do
    let item ← bytes tmp_data size
    copyItems size pad items (tmp_data + size) (g.putItem item pad)

/-- The items of a packet are taken. -/
def takeItems (q : Query) (p : RespHdr) (g : Getter) : Reading Getter := do
  let items := p.infoNitems
  let size := p.infoItemsize
  let pad := q.esize - size
  let g := (g.notePkt p).makeRoom (items * size + pad * items)
  let g ← copyItems size pad items RESP_HEADER_SIZE g
  return g.count items size pad

/-- A packet of `n` octets. -/
def recvPkt (q : Query) (g : Getter) (n : Nat) : Reading Getter := do
  if n < RESP_HEADER_SIZE then return g
  let p ← readHdr
  match verdict q g p n with
  | .toss => return g
  | .fail code => return { g with status := some (.err code) }
  | .note => return g.noteSeq p.infoSeq
  | .take => takeItems q p g

/-- What `getresponse` waits for. -/
inductive GetEvent where
  | datagram (d : Datagram)
  | timeout
  | failure

/-- One turn of `getresponse`, until it has returned. -/
def getStep (q : Query) (g : Getter) (e : GetEvent) : Getter :=
  if g.status.isSome then g
  else
    match e with
    | .datagram d => (recvPkt q g d.n).run d.mem
    | .timeout => { g with status := some (if g.firstpkt then .timeout else .incomplete) }
    | .failure => { g with status := some .failed }

/-- The beginning of `getresponse`, with the buffer as it is. -/
def getStart (pktdata : Memory) (pktdatasize : Nat) : Getter :=
  { pktdata := pktdata, pktdatasize := pktdatasize }

end NtpSuite.Ntpdc
