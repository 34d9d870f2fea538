import NtpSuite.Core.Request
import NtpSuite.Lib.Storing

/-!
# Private Mode Responses

The packets of a response, and the functions of `ntp_request.c` that put the items
of a response into packets: `prepare_pkt`, `more_pkt` and `flush_pkt`.

A handler gets the place for an item before it is known whether there will be
one, and whether a packet is the last one is known only when there is none. So
the item behind a full packet goes to an extra buffer. When there is one, the
packet is sent and the item is copied to the next packet.

The buffers are memories without an end, and where something is written is
recorded. A packet is its header, with the fields in host order, and the octets
behind it.

## Main definitions

* `RespPkt`: A packet of a response.
* `Packer`: The static variables.
* `preparePkt`, `morePkt`, `flushPkt`: The functions.
* `respond`: What a handler does with them.
-/

namespace NtpSuite.Request

open Reading
open Storing

def RESP_HEADER_SIZE : Nat := 8
def RESP_DATA_SIZE : Nat := 500
def MAXSEQ : Nat := 127

/-- The header of a packet of a response. -/
structure RespHdr where
  rm_vn_mode : BitVec 8
  auth_seq : BitVec 8
  implementation : BitVec 8
  request : BitVec 8
  err_nitems : BitVec 16
  mbz_itemsize : BitVec 16
deriving DecidableEq, Repr

/-- A packet of a response. -/
structure RespPkt extends RespHdr where
  data : CStr
deriving DecidableEq, Repr

namespace RespHdr

def isResponse (p : RespHdr) : Bool := p.rm_vn_mode &&& 0x80 != 0
def isMore (p : RespHdr) : Bool := p.rm_vn_mode &&& 0x40 != 0
def infoVersion (p : RespHdr) : Nat := ((p.rm_vn_mode >>> 3) &&& 7).toNat
def infoMode (p : RespHdr) : Nat := (p.rm_vn_mode &&& 7).toNat
def infoIsAuth (p : RespHdr) : Bool := p.auth_seq &&& 0x80 != 0
def infoSeq (p : RespHdr) : Nat := (p.auth_seq &&& 0x7f).toNat
def infoErr (p : RespHdr) : Nat := ((p.err_nitems >>> 12) &&& 0xf).toNat
def infoNitems (p : RespHdr) : Nat := (p.err_nitems &&& 0xfff).toNat
def infoMbz (p : RespHdr) : Nat := ((p.mbz_itemsize >>> 12) &&& 0xf).toNat
def infoItemsize (p : RespHdr) : Nat := (p.mbz_itemsize &&& 0xfff).toNat

end RespHdr

/-- The number of a code. -/
def InfoErr.toNat : InfoErr → Nat
  | .okay => 0
  | .impl => 1
  | .req => 2
  | .fmt => 3
  | .nodata => 4
  | .auth => 7

/-- `RM_VN_MODE` of a response. -/
def rmVnMode (more : Bool) (version : BitVec 3) : BitVec 8 :=
  0x80 ||| (if more then 0x40 else 0)
    ||| (if version ≠ 0 then version.setWidth 8 else BitVec.ofNat 8 (NTP_OLDVERSION + 1)) <<< 3
    ||| 7

/-- `AUTH_SEQ` without authentication. -/
def authSeq (seq : Nat) : BitVec 8 := BitVec.ofNat 8 seq &&& 0x7f

/-- What all packets of a response have in common. -/
structure Reply where
  reqver : BitVec 3
  implementation : BitVec 8
  request : BitVec 8
  itemsize : Nat

/-- A packet with items. -/
def itemPkt (h : Reply) (more : Bool) (seqno nitems : Nat) (data : CStr) : RespPkt where
  rm_vn_mode := rmVnMode more h.reqver
  auth_seq := authSeq seqno
  implementation := h.implementation
  request := h.request
  err_nitems := BitVec.ofNat 16 nitems
  mbz_itemsize := BitVec.ofNat 16 h.itemsize
  data := data

/-- `req_ack`. -/
def reqAck (h : Reply) (errcode : InfoErr) : RespPkt where
  rm_vn_mode := rmVnMode false h.reqver
  auth_seq := authSeq 0
  implementation := h.implementation
  request := h.request
  err_nitems := BitVec.ofNat 16 errcode.toNat <<< 12
  mbz_itemsize := 0
  data := []

/-! ### The static variables -/

/-- A place for an item: in the packet or in the extra buffer. -/
inductive Slot where
  | data (off : Nat)
  | exbuf
deriving DecidableEq, Repr

/-- Octets of the length were written at a place. -/
structure Write where
  slot : Slot
  len : Nat

/-- The write is inside its buffer. -/
def Write.InBounds (w : Write) : Prop :=
  match w.slot with
  | .data off => off + w.len ≤ RESP_DATA_SIZE
  | .exbuf => w.len ≤ RESP_DATA_SIZE

/-- The static variables, the packets that were sent, and what was written. -/
structure Packer extends Reply where
  seqno : Nat
  nitems : Nat
  databytes : Nat
  usingexbuf : Bool
  data : Memory
  exbuf : Memory
  sent : List RespPkt
  writes : List Write

namespace Packer

/-- The handler fills in an item. -/
def fill (s : Packer) (slot : Slot) (item : CStr) : Packer :=
  let s := { s with writes := ⟨slot, item.length⟩ :: s.writes }
  match slot with
  | .data off => { s with data := store s.data off item }
  | .exbuf => { s with exbuf := store s.exbuf 0 item }

/-- The packet is sent. -/
def sendpkt (s : Packer) (more : Bool) : Packer :=
  { s with
    sent := s.sent ++ [itemPkt s.toReply more s.seqno s.nitems (octetsAt s.data 0 s.databytes)] }

/-- `prepare_pkt`: the beginning of the packet. -/
def preparePkt (h : Reply) (data exbuf : Memory) : Packer × Slot :=
  ({ toReply := h, seqno := 0, nitems := 0, databytes := 0, usingexbuf := false
     data := data, exbuf := exbuf, sent := [], writes := [] }, .data 0)

/-- The packet is sent and the item of the extra buffer is copied to the next. -/
def spill (s : Packer) : Packer :=
  let s := s.sendpkt true
  let s := s.fill (.data 0) (octetsAt s.exbuf 0 s.itemsize)
  { s with seqno := s.seqno + 1, databytes := 0, nitems := 0, usingexbuf := false }

/-- `more_pkt`: the place for another item, if there is one. -/
def morePkt (s : Packer) : Packer × Option Slot :=
  let s := if s.usingexbuf then s.spill else s
  let s := { s with databytes := s.databytes + s.itemsize, nitems := s.nitems + 1 }
  if s.databytes + s.itemsize ≤ RESP_DATA_SIZE then (s, some (.data s.databytes))
  else if s.seqno = MAXSEQ then (s, none)
  else ({ s with usingexbuf := true }, some .exbuf)

/-- `flush_pkt`. -/
def flushPkt (s : Packer) : Packer :=
  if s.seqno = 0 ∧ s.nitems = 0 then { s with sent := s.sent ++ [reqAck s.toReply .nodata] }
  else s.sendpkt false

/-- A handler fills in its items as long as it gets a place for them. -/
def fillItems : Packer → Slot → List CStr → Packer
  | s, _, [] => s
  | s, slot, item :: items =>
    match (s.fill slot item).morePkt with
    | (s, none) => s
    | (s, some slot) => fillItems s slot items

end Packer

/-- A handler with its items. -/
def respond (h : Reply) (data exbuf : Memory) (items : List CStr) : Packer :=
  let r := Packer.preparePkt h data exbuf
  (r.1.fillItems r.2 items).flushPkt

end NtpSuite.Request
