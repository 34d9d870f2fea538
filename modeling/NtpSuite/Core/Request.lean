import NtpSuite.Core.PeerIndex
import NtpSuite.Lib.Reading

/-!
# Private Mode Requests

The requests of `ntp_request.c` that come with a number of items: `do_unconf`,
`do_restrict` and `reset_peer`. Each goes over the items twice, first to check
them and then to do what was asked. Both loops count with the same variable, an
unsigned number of 16 bits that has wrapped around by the time the second loop
looks at it.

A handler is a reading of the memory from the first item on. The size of an item
and the number of octets that came with the packet are checked by
`process_private`. An assertion that fails ends the program.

What `peer_clear` does to an association that is demobilized right after is gone
with it. The time of the last reset is left out.

## Main definitions

* `checkPass`, `applyPass`: The two loops.
* `twoPass`: The three handlers, over what they check and do.
* `doUnconf`, `doRestrict`, `resetPeer`: The handlers.
* `processPrivate`: The checks of the sizes.
-/

namespace NtpSuite.Request

open Reading

/-- The codes of a response. -/
inductive InfoErr where
  | okay | impl | req | fmt | nodata | auth
deriving DecidableEq, Repr

/-- How a request ends: with a response, or with the program. The flags of what was
    bad go to the log. -/
inductive Outcome (σ : Type) where
  | reply (code : InfoErr) (bad : Nat) (s : σ)
  | aborted

/-! ### The two passes -/

section Pass

variable {σ : Type}

/-- `while (items-- > 0 && !bad)`: the counter after the loop, and what was bad. -/
def checkPass (check : CStr → Nat) (item_sz : Nat) : Nat → Nat → Nat → Reading (Nat × Nat)
  | 0, _, bad => return (2 ^ 16 - 1, bad)
  | items + 1, datap, bad =>
    if bad ≠ 0 then return (items, bad)
    else do
      let item ← bytes datap item_sz
      checkPass check item_sz items (datap + item_sz) (check item)

/-- `while (items-- > 0)`. -/
def applyPass (apply : CStr → σ → Option σ) (item_sz : Nat) :
    Nat → Nat → σ → Reading (Option σ)
  | 0, _, s => return some s
  | items + 1, datap, s => do
    let item ← bytes datap item_sz
    match apply item s with
    | none => return none
    | some s => applyPass apply item_sz items (datap + item_sz) s

/-- A handler, with the size of its structure, its error code, and what it checks
    and does for an item. -/
def twoPass (size : Nat) (err : InfoErr) (check : σ → CStr → Nat) (apply : CStr → σ → Option σ)
    (items item_sz : Nat) (s : σ) : Reading (Outcome σ) := do
  if item_sz > size then return .reply .fmt 0 s
  let (items, bad) ← checkPass (check s) item_sz items 0 0
  if bad ≠ 0 then return .reply err bad s
  match ← applyPass apply item_sz items 0 s with
  | none => return .aborted
  | some s => return .reply .okay 0 s

end Pass

/-! ### Items -/

/-- A number in network order. -/
def ntoh (octets : CStr) : Nat := octets.foldl (fun n b => 256 * n + b.toNat) 0

/-- The octets of a field of a structure. -/
def fieldAt (item : CStr) (off len : Nat) : CStr := (item.drop off).take len

/-- `memcpy` of an item over a structure that has other octets behind. -/
def overlay (item old : CStr) : CStr := item ++ old.drop item.length

/-- The address of a `struct conf_unpeer`. -/
def unpeerAddr (client_v6_capable : Bool) (item : CStr) (port : Nat) : SockAddr :=
  let cp := overlay item (List.replicate 24 0)
  if client_v6_capable ∧ ntoh (fieldAt cp 4 4) ≠ 0 then
    { af := .inet6, addr := ntoh (fieldAt cp 8 16), port := port }
  else { af := .inet, addr := ntoh (fieldAt cp 0 4), port := port }

/-- A `struct conf_restrict`. -/
structure ConfRestrict where
  addr : BitVec 32
  mask : BitVec 32
  flags : BitVec 16
  mflags : BitVec 16
  v6_flag : Bool
  addr6 : BitVec 128
  mask6 : BitVec 128

/-- The structure is not cleared, so behind a short item there is what was there before. -/
def confRestrict (item old : CStr) : ConfRestrict :=
  let cr := overlay item old
  { addr := BitVec.ofNat 32 (ntoh (fieldAt cr 0 4))
    mask := BitVec.ofNat 32 (ntoh (fieldAt cr 4 4))
    flags := BitVec.ofNat 16 (ntoh (fieldAt cr 8 2))
    mflags := BitVec.ofNat 16 (ntoh (fieldAt cr 10 2))
    v6_flag := decide (ntoh (fieldAt cr 12 4) ≠ 0)
    addr6 := BitVec.ofNat 128 (ntoh (fieldAt cr 16 16))
    mask6 := BitVec.ofNat 128 (ntoh (fieldAt cr 32 16)) }

/-! ### The handlers -/

section Handlers

variable {α : Type} [Field α]

/-- The associations `findexistingpeer` finds one after the other, for any mode. -/
def existingPeers (s : PeerMem α) (addr : SockAddr) : List Nat :=
  (s.peer_hash (ntpHashAddr addr)).filter fun ptr => addr.addrPortEq (s.mem ptr).srcadr

/-- The first of them that was configured. -/
def findConfigured (s : PeerMem α) (addr : SockAddr) : Option Nat :=
  (existingPeers s addr).find? fun ptr => (s.mem ptr).flags.config

/-- `peer_reset`. -/
def peerReset (s : PeerMem α) (ptr : Nat) : PeerMem α :=
  { s with
    mem := Function.update s.mem ptr { s.mem ptr with
      sent := 0
      received := 0
      processed := 0
      badauth := 0
      bogusorg := 0
      oldpkt := 0
      seldisptoolarge := 0
      selbroken := 0 } }

def unconfCheck (v6 : Bool) (s : PeerMem α) (item : CStr) : Nat :=
  if (findConfigured s (unpeerAddr v6 item NTP_PORT)).isSome then 0 else 1

/-- `INSIST`: the association is still there. -/
def unconfApply (v6 : Bool) (item : CStr) (s : PeerMem α) : Option (PeerMem α) :=
  (findConfigured s (unpeerAddr v6 item NTP_PORT)).map s.unpeer

/-- `do_unconf`. -/
def doUnconf (v6 : Bool) : Nat → Nat → PeerMem α → Reading (Outcome (PeerMem α)) :=
  twoPass 24 .nodata (unconfCheck v6) (unconfApply v6)

/-- The check does not set the port. -/
def resetCheck (v6 : Bool) (s : PeerMem α) (item : CStr) : Nat :=
  if (existingPeers s (unpeerAddr v6 item 0)).isEmpty then 1 else 0

def resetApply (v6 : Bool) (item : CStr) (s : PeerMem α) : Option (PeerMem α) :=
  some ((existingPeers s (unpeerAddr v6 item 123)).foldl peerReset s)

/-- `reset_peer`. -/
def resetPeer (v6 : Bool) : Nat → Nat → PeerMem α → Reading (Outcome (PeerMem α)) :=
  twoPass 24 .nodata (resetCheck v6) (resetApply v6)

def RES_ALLFLAGS : BitVec 16 := 0x3fff

/-- The flags of what is bad about a restriction. The mask is that of the other
    family for an address of version six. -/
def restrictCheck (v6 : Bool) (old item : CStr) : Nat :=
  let cr := confRestrict item old
  (if ~~~RESM_NTPONLY &&& cr.mflags ≠ 0 then 1 else 0)
    ||| (if ~~~RES_ALLFLAGS &&& cr.flags ≠ 0 then 2 else 0)
    ||| (if cr.mask ≠ 0 then
          if v6 ∧ cr.v6_flag then if cr.addr6 = 0 then 4 else 0
          else if cr.addr = 0 then 8 else 0
        else 0)

def restrictApply (v6 : Bool) (op : RestrictOp) (old item : CStr) (s : RestrictSys) :
    Option RestrictSys :=
  let cr := confRestrict item old
  let spec := if v6 ∧ cr.v6_flag then ResSpec.v6 cr.addr6 cr.mask6 else ResSpec.v4 cr.addr cr.mask
  some (hackRestrict s op spec cr.mflags cr.flags 0)

/-- `do_restrict`, where `old` is what its structure is before the first item. -/
def doRestrict (v6 : Bool) (op : RestrictOp) (old : CStr) :
    Nat → Nat → RestrictSys → Reading (Outcome RestrictSys) :=
  twoPass 48 .fmt (fun _ => restrictCheck v6 old) (restrictApply v6 op old)

end Handlers

/-! ### `process_private` -/

def REQ_LEN_HDR : Nat := 8

/-- The sizes of the items of a request, without and with the fields for addresses
    of version six. -/
structure ItemSizes where
  sizeofitem : Nat
  v6_sizeofitem : Nat

def confUnpeerSizes : ItemSizes := ⟨4, 24⟩
def confRestrictSizes : ItemSizes := ⟨12, 48⟩

/-- The fields of a request: twelve bits for the number of items and twelve for their size. -/
structure ReqPkt where
  nitems : BitVec 12
  itemsize : BitVec 12
  recv_len : Nat

/-- The checks of the item size and of the length of the packet. -/
def processPrivate {σ : Type} (sizes : ItemSizes) (handler : Nat → Nat → σ → Reading (Outcome σ))
    (req : ReqPkt) (s : σ) : Reading (Outcome σ) :=
  let items := req.nitems.toNat
  let item_sz := req.itemsize.toNat
  if item_sz ≠ sizes.sizeofitem ∧ item_sz ≠ sizes.v6_sizeofitem then return .reply .fmt 0 s
  else if sizes.sizeofitem ≠ 0 ∧ item_sz * items > req.recv_len - REQ_LEN_HDR then
    return .reply .fmt 0 s
  else handler items item_sz s

end NtpSuite.Request
