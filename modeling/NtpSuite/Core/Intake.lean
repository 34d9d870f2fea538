import NtpSuite.Core.Endpoint

/-!
# Received Packets

What the main loop of `ntpd.c` does with received packets, as far as endpoints
are concerned.

A packet is read on the socket of an endpoint, and its buffer keeps the
address of the endpoint until the packet is processed. In between the main
loop may run the timer: before it takes a buffer, and once more between taking
it and calling its receiver. The timer may scan the addresses of the host, and
so may a request of mode 7 while it is processed. Nothing else happens in
between, and reading is all that can happen at any time.

A step records the endpoints that it uses, and whether each of them is
allocated at that moment. Whatever else a receiver does, it uses the endpoint
of its buffer, and it sends its reply from there or, if that is an endpoint
that has joined a group, from one that it looks for.

## Main definitions

* `RecvPkt`: A buffer with a packet.
* `Reply`: What a receiver does.
* `RxSys`: The endpoints, the full buffers and the one that is being handled.
* `rxStep`: What can happen next.
-/

namespace NtpSuite

/-- A buffer with a packet. -/
structure RecvPkt where
  dstadr : Nat
  recv_srcadr : SockAddr
deriving DecidableEq, Repr

/-- What a receiver does: no reply, a reply of `fast_xmit` with the local address that the kernel
    chooses for the sender, the response to a request of mode 6 or 7, or a `do_if_reload`. -/
inductive Reply where
  | nothing
  | fastXmit (saddr : Option SockAddr)
  | respond
  | ifReload (scan : Option (List IscInterface))
deriving DecidableEq, Repr

/-- The endpoints, the full buffers, the buffer that the main loop has taken,
    and the endpoints that were used. -/
structure RxSys where
  io : IoSys
  full : List RecvPkt := []
  rbuf : Option RecvPkt := none
  uses : List (Nat × Bool) := []

/-- The endpoint is allocated. -/
def IoSys.isAllocated (s : IoSys) (p : Nat) : Bool := p < s.allocated && p ∉ s.freed

/-- An endpoint is used. -/
def RxSys.use (s : RxSys) (p : Nat) : RxSys :=
  { s with uses := s.uses ++ [(p, s.io.isAllocated p)] }

/-- A packet is sent from an endpoint, if there is one. -/
def RxSys.send (s : RxSys) (dest : SockAddr) (ep : Option Nat) : RxSys :=
  (sendpkt s.io dest ep).foldl RxSys.use s

/-- The endpoint from which `fast_xmit` replies. -/
def replyFrom (s : IoSys) (b : RecvPkt) (saddr : Option SockAddr) : Option Nat :=
  if (s.mem b.dstadr).has INT_MCASTOPEN then findinterface s b.recv_srcadr saddr
  else some b.dstadr

/-- `receive`. Packets with a multicast source are ignored. -/
def receiveBuf (c : IoCfg) (s : RxSys) (b : RecvPkt) (r : Reply) : RxSys :=
  let s := s.use b.dstadr
  if b.recv_srcadr.isMcast then s
  else
    match r with
    | .nothing => s
    | .fastXmit saddr => s.send b.recv_srcadr (replyFrom s.io b saddr)
    | .respond => s.send b.recv_srcadr (some b.dstadr)
    | .ifReload scan =>
      RxSys.send { s with io := interfaceUpdate c s.io scan } b.recv_srcadr (some b.dstadr)

/-- What can happen next. The timer comes with a scan if one is due. -/
inductive RxEvent where
  | read (itf : Nat) (recv_srcadr : SockAddr)
  | timer (scan : Option (List IscInterface))
  | getFull
  | receiver (r : Reply)
  | addNicRule (rule : NicRule)
  | multicastAdd (addr : SockAddr) (opens joins : Bool) (joining : List Nat)
deriving DecidableEq, Repr

/-- `read_network_packet`, when there is a packet and a buffer. -/
def readNetworkPacket (s : RxSys) (itf : Nat) (recv_srcadr : SockAddr) : RxSys :=
  if itf ∈ s.io.ep_list ∧ (s.io.mem itf).fd ∧ !(s.io.mem itf).ignore_packets then
    { s with full := s.full ++ [⟨itf, recv_srcadr⟩] }
  else s

/-- One step. -/
def rxStep (c : IoCfg) (s : RxSys) : RxEvent → RxSys
  | .read itf recv_srcadr => readNetworkPacket s itf recv_srcadr
  | .timer scan => { s with io := interfaceUpdate c s.io scan }
  | .getFull =>
    match s.rbuf, s.full with
    | none, b :: rest => { s with full := rest, rbuf := some b }
    | _, _ => s
  | .receiver r =>
    match s.rbuf with
    | none => s
    | some b => { receiveBuf c s b r with rbuf := none }
  | .addNicRule rule => { s with io := ioStep c s.io (.addNicRule rule) }
  | .multicastAdd addr opens joins joining =>
    { s with io := ioStep c s.io (.multicastAdd addr opens joins joining) }

/-- The state after `create_sockets`. -/
def rxStart (c : IoCfg) (rules : List NicRule) (scan : Option (List IscInterface)) : RxSys :=
  { io := updateInterfaces c (ioStart c rules) scan }

end NtpSuite
