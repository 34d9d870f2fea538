import NtpSuite.Core.NtpqVars
import NtpSuite.Lib.Tiling

/-!
# The Control Message Client

The functions `getresponse` and `doqueryex` of `ntpq`. A response comes in fragments,
each with its offset. `getresponse` copies the data of a fragment to its place in a
buffer and keeps a list of the fragments it has, in the order of their offsets. It
returns when it has the last fragment and there is no hole before it.

`doqueryex` sends the request once more if there was no response or not all of it. In
the second case it takes another sequence number.

A datagram is the memory of the local variable it was received to, of which the first
`n` octets have arrived.

## Main definitions

* `Getter`: The variables of `getresponse`.
* `verdict`: The checks of a packet.
* `getStep`: A packet, or a timeout.
* `Querier`, `queryStep`: `doqueryex`.
-/

namespace NtpSuite.Ntpq

open Control
open Reading
open Storing
open Tiling

/-- The octets of `rpkt`. -/
def RPKT_SIZE : Nat := CTL_HEADER_LEN + CTL_DATA_SIZE

/-- What `getresponse` and `doqueryex` return: zero, an error code of the server, one of
    the codes for internal use, -1, or what `sendrequest` returned. -/
inductive Result where
  | okay
  | err (code : Nat)
  | unspec
  | incomplete
  | timeout
  | toomuch
  | failed
  | unsent
deriving DecidableEq, Repr

/-- The operation and the sequence number that are expected. -/
structure Query where
  opcode : BitVec 8
  sequence : BitVec 16
deriving DecidableEq, Repr

/-- The variables of `getresponse`, and the buffer. `frags` stands for `offsets` and `counts`. -/
structure Getter where
  rsize : Nat := 0
  rstatus : BitVec 16 := 0
  frags : List Segment := []
  seenlastfrag : Bool := false
  pktdata : Memory
  result : Option Result := none

/-- A datagram of `n` octets. `recv` is told of the size of the variable. -/
structure Datagram where
  mem : Memory
  n : Nat
  n_le : n ≤ RPKT_SIZE

/-! ### The header -/

section Header

variable (h : CtlHdr)

/-- `PKT_VERSION`. -/
def pktVersion : BitVec 8 := (h.li_vn_mode >>> 3) &&& 0x7

/-- `PKT_MODE`. -/
def pktMode : BitVec 8 := h.li_vn_mode &&& 0x7

/-- `CTL_ISRESPONSE`. -/
def ctlIsresponse : Bool := h.r_m_e_op &&& CTL_RESPONSE != 0

/-- `CTL_ISERROR`. -/
def ctlIserror : Bool := h.r_m_e_op &&& CTL_ERROR != 0

/-- `CTL_ISMORE`. -/
def ctlIsmore : Bool := h.r_m_e_op &&& CTL_MORE != 0

/-- `CTL_OP`. -/
def ctlOp : BitVec 8 := h.r_m_e_op &&& CTL_OP_MASK

/-- The version, the mode, that it is a response, the sequence number and the operation. -/
def isAnswer (q : Query) : Bool :=
  decide ((pktVersion h).toNat ≤ NTP_VERSION) && decide (NTP_OLDVERSION ≤ (pktVersion h).toNat)
    && pktMode h == MODE_CONTROL && ctlIsresponse h && h.sequence == q.sequence
    && ctlOp h == q.opcode

/-- The error that a packet reports. -/
def errcode : Result :=
  let code := (h.status >>> 8).toNat
  if code = CtlErr.unspec.toNat then .unspec else .err code

/-- Where the data of a packet belongs. -/
def fragment : Segment := ⟨h.offset.toNat, h.count.toNat⟩

end Header

/-! ### A packet -/

/-- What becomes of a packet: it is tossed, it ends the wait, or its data is taken. -/
inductive Verdict where
  | toss
  | fail (res : Result)
  | take
deriving DecidableEq, Repr

/-- The place for a fragment is taken: one with this offset is there, the one before it
    ends behind its offset, or it ends behind the offset of the next one. -/
def overlaps (f : Segment) (frags : List Segment) : Bool :=
  (behind f.offset frags).head?.any (fun x => f.offset == x.offset)
    || (before f.offset frags).getLast?.any (fun x => decide (x.offset + x.count > f.offset))
    || (behind f.offset frags).head?.any (fun x => decide (f.offset + f.count > x.offset))

/-- The checks of a packet of `n` octets. -/
def verdict (q : Query) (g : Getter) (h : CtlHdr) (n : Nat) : Verdict :=
  let f := fragment h
  if n < CTL_HEADER_LEN then .toss
  else if ¬ isAnswer h q then .toss
  else if ctlIserror h then .fail (errcode h)
  else if n % 4 ≠ 0 then .toss
  else if n < (CTL_HEADER_LEN + f.count + 3) / 4 * 4 then .fail .incomplete
  else if f.count > n - CTL_HEADER_LEN then .toss
  else if f.count = 0 ∧ ctlIsmore h then .toss
  else if f.offset + f.count > DATASIZE then .fail .toomuch
  else if g.seenlastfrag ∧ ¬ ctlIsmore h then .toss
  else if g.frags.length > MAXFRAGS - 1 then .fail .toomuch
  else if overlaps f g.frags then .toss
  else .take

namespace Getter

/-- The fragment is recorded and its data is copied. -/
def record (g : Getter) (h : CtlHdr) (data : CStr) : Getter :=
  { g with
    frags := place (fragment h) g.frags
    seenlastfrag := g.seenlastfrag || !ctlIsmore h
    rstatus := if ctlIsmore h then g.rstatus else h.status
    pktdata := store g.pktdata (fragment h).offset data }

/-- The last fragment was seen and there are no holes. -/
def complete (g : Getter) : Bool := g.seenlastfrag && abuts 0 g.frags

/-- If the response is complete, its size is the end of the last fragment. -/
def finish (g : Getter) : Getter :=
  if g.complete then
    { g with
      rsize := g.frags.getLast?.elim 0 fun x => x.offset + x.count
      result := some .okay }
  else g

end Getter

/-- A packet. -/
def recvPkt (q : Query) (g : Getter) (d : Datagram) : Getter :=
  let h := CtlHdr.read d.mem
  match verdict q g h d.n with
  | .toss => g
  | .fail res => { g with result := some res }
  | .take => (g.record h (octetsAt d.mem CTL_HEADER_LEN (fragment h).count)).finish

/-- What `getresponse` waits for. -/
inductive GetEvent where
  | datagram (d : Datagram)
  | timeout
  | failure

/-- One turn of `getresponse`, until it has returned. -/
def getStep (q : Query) (g : Getter) (e : GetEvent) : Getter :=
  if g.result.isSome then g
  else
    match e with
    | .datagram d => recvPkt q g d
    | .timeout => { g with result := some (if g.frags = [] then .timeout else .incomplete) }
    | .failure => { g with result := some .failed }

/-- The beginning of `getresponse`, with the buffer as it is. -/
def getStart (pktdata : Memory) : Getter := { pktdata := pktdata }

/-! ### A query -/

/-- The variables of `doqueryex`. `retv` is what it has returned. -/
structure Querier where
  sequence : BitVec 16
  done : Bool := false
  getter : Getter
  retv : Option Result := none

namespace Querier

/-- What is expected. -/
def query (d : Querier) (opcode : BitVec 8) : Query := ⟨opcode, d.sequence⟩

/-- `sendrequest`, which may fail, and the beginning of `getresponse`. -/
def request (d : Querier) (sent : Bool) : Querier :=
  if sent then { d with getter := getStart d.getter.pktdata } else { d with retv := some .unsent }

/-- `getresponse` has returned: the request is sent once more, or that is the result. -/
def returned (d : Querier) (res : Result) (sent : Bool) : Querier :=
  if ¬ d.done ∧ (res = .timeout ∨ res = .incomplete) then
    let sequence := if res = .incomplete then d.sequence + 1 else d.sequence
    { d with sequence := sequence, done := true }.request sent
  else { d with retv := some res }

end Querier

/-- The beginning of `doqueryex`, if a host is open. -/
def queryStart (sequence : BitVec 16) (pktdata : Memory) (sent : Bool) : Querier :=
  { sequence := sequence + 1, getter := getStart pktdata : Querier }.request sent

/-- One turn of `getresponse` inside `doqueryex`. `sent` says if the request can be sent again. -/
def queryStep (opcode : BitVec 8) (d : Querier) (e : GetEvent × Bool) : Querier :=
  if d.retv.isSome then d
  else
    let d := { d with getter := getStep (d.query opcode) d.getter e.1 }
    match d.getter.result with
    | none => d
    | some res => d.returned res e.2

end NtpSuite.Ntpq
