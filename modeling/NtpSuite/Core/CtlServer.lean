import NtpSuite.Core.CtlItems

/-!
# The Server of Control Messages

What the functions that answer requests work with. They put data into the response and
send it, or they report an error, by the calls of `Control`. Every packet that one of
these calls sends is recorded as a reply, with the one it goes to: an error goes to the
one who asked, and so does the response, except that `res_async` makes it go to the
traps.

`report_event` sends a message to the traps, and uses the same variables for it. A
request to configure the daemon can lead to events. What `report_event` sends is a
message of its own and no reply.

An assertion ends the process, and nothing happens any more.

## Main definitions

* `CtlSrv`: The daemon, as far as requests change it.
* `CtlSrv.call`: A call whose packets are recorded.
* `ctlsettrap`, `ctlclrtrap`: The traps.
* `CtlSrv.report`: An event.
-/

namespace NtpSuite.Control

def CTL_TRAPTIME : Nat := 60 * 60
def CTL_SYS_MAXEVENTS : Nat := 15
def CTL_PEER_MAXEVENTS : Nat := 15
def PEER_EVENT : BitVec 8 := 0x80

/-- What is put into a response. -/
inductive CtlPut where
  | data (dp : CStr) (bin : Bool)
  | str (tag text : CStr)
  | unqstr (tag text : CStr)
deriving DecidableEq, Repr

def CtlPut.call : CtlPut → CtlCall
  | .data dp bin => .putdata dp bin
  | .str tag text => .putstr tag text
  | .unqstr tag text => .putunqstr tag text

/-- Whom a packet is sent to. -/
inductive Dest where
  | requester
  | trap
deriving DecidableEq, Repr

/-- A packet of the response. -/
structure Reply where
  dest : Dest
  pkt : CStr
deriving DecidableEq, Repr

/-- The fields of a trap that are not needed to send a message. -/
structure TrapInfo where
  tr_addr : SockAddr := {}
  tr_localaddr : Nat := 0
  configured : Bool := false
  nonprio : Bool := false
  tr_settime : Nat := 0
  tr_origtime : Nat := 0
deriving DecidableEq, Repr

/-- The variables of the response, the packets that were sent as the response to the
    request in hand, the buffers for a configuration, the variables an administrator has
    added, the traps, and the system event that was reported last and how many times. -/
structure CtlSrv where
  ctl : CtlSys
  replies : List Reply := []
  rc : RemoteConfig
  ext_sys_var : List CtlVar := []
  traps : List TrapInfo := []
  num_ctl_traps : Int := 0
  ctl_sys_last_event : BitVec 8 := 0
  ctl_sys_num_events : Nat := 0

/-- A call, unless the process was ended. -/
def ctlGo (env : CtlEnv) (s : CtlSys) (c : CtlCall) : CtlSys :=
  if s.stopped then s else ctlCall env s c

namespace CtlSrv

/-- Whom the packets of a call are sent to. -/
def dest (h : CtlSrv) : CtlCall → Dest
  | .error _ => .requester
  | _ => if h.ctl.res_async then .trap else .requester

/-- A call of the function that answers the request. -/
def call (env : CtlEnv) (h : CtlSrv) (c : CtlCall) : CtlSrv :=
  let ctl := ctlGo env h.ctl c
  { h with
    ctl := ctl
    replies := h.replies ++ (ctl.sent.drop h.ctl.sent.length).map fun pkt => ⟨h.dest c, pkt⟩ }

/-- `ctl_error`. -/
def error (env : CtlEnv) (errcode : CtlErr) (h : CtlSrv) : CtlSrv := h.call env (.error errcode)

/-- `ctl_flushpkt`, for the last packet. -/
def flush (env : CtlEnv) (h : CtlSrv) : CtlSrv := h.call env .flushpkt

/-- Data is put into the response. -/
def puts (env : CtlEnv) (ps : List CtlPut) (h : CtlSrv) : CtlSrv :=
  ps.foldl (fun h p => h.call env p.call) h

/-- Data is put into the response, and it is sent. -/
def respond (env : CtlEnv) (ps : List CtlPut) (h : CtlSrv) : CtlSrv := (h.puts env ps).flush env

/-- `rpkt.status` is set. -/
def setStatus (status : BitVec 16) (h : CtlSrv) : CtlSrv :=
  { h with ctl := { h.ctl with rpkt := { h.ctl.rpkt with status := status } } }

/-- An assertion fails. -/
def abort (h : CtlSrv) : CtlSrv := { h with ctl := { h.ctl with stopped := true } }

end CtlSrv

/-! ### Traps -/

/-- The types of traps: configured, and asked for by somebody with priority or without. -/
inductive TrapType where
  | config
  | prio
  | nonprio
deriving DecidableEq, Repr

/-- An entry of `ctl_traps`. -/
abbrev TrapSlot := CtlTrap × TrapInfo

/-- No flags. -/
def TrapSlot.clear (tp : TrapSlot) : TrapSlot :=
  ({ tp.1 with inuse := false }, { tp.2 with configured := false, nonprio := false })

/-- `ctlfindtrap`. -/
def ctlfindtrap (raddr : SockAddr) (linter : Nat) (slots : List TrapSlot) : Option Nat :=
  slots.findIdx? fun tp =>
    tp.1.inuse && raddr.addrPortEq tp.2.tr_addr && linter == tp.2.tr_localaddr

/-- A trap is cleared to make room. The comparison is that of the source. -/
def TrapSlot.expires (current_time : Nat) (tp : TrapSlot) : Bool :=
  tp.1.inuse && !tp.2.configured && decide (tp.2.tr_settime + CTL_TRAPTIME > current_time)

/-- The loop of `ctlsettrap`: the trap to use so far, and the next one. -/
def tptouse (traptype : TrapType) (old : Option (TrapSlot × Nat)) (tp : TrapSlot × Nat) :
    Option (TrapSlot × Nat) :=
  if !tp.1.1.inuse then some tp
  else if tp.1.2.configured then old
  else
    match traptype, old with
    | .config, none => some tp
    | .config, some use =>
      if use.1.2.nonprio && !tp.1.2.nonprio then old
      else if !use.1.2.nonprio && tp.1.2.nonprio then some tp
      else if use.1.2.tr_origtime < tp.1.2.tr_origtime then some tp
      else old
    | .prio, none => if tp.1.2.nonprio then some tp else old
    | .prio, some use =>
      if tp.1.2.nonprio && (use.1.1.inuse && decide (use.1.2.tr_origtime < tp.1.2.tr_origtime)) then
        some tp
      else old
    | .nonprio, _ => old

/-- The traps, and `num_ctl_traps`. -/
structure TrapTable where
  slots : List TrapSlot
  num_ctl_traps : Int

/-- `ctlsettrap`: if the trap is set. -/
def ctlsettrap (raddr : SockAddr) (linter : Nat) (traptype : TrapType) (version : BitVec 8)
    (current_time : Nat) (t : TrapTable) : Bool × TrapTable :=
  match ctlfindtrap raddr linter t.slots with
  | some n =>
    (true, { t with slots := t.slots.modify n fun tp =>
      if tp.2.configured ∧ traptype ≠ .config then tp
      else (tp.1, { tp.2 with
        configured := decide (traptype = .config)
        nonprio := decide (traptype = .nonprio)
        tr_settime := current_time }) })
  | none =>
    let num := t.num_ctl_traps - t.slots.countP (TrapSlot.expires current_time)
    let slots := t.slots.map fun tp => if tp.expires current_time then tp.clear else tp
    match slots.zipIdx.foldl (tptouse traptype) none with
    | none => (false, ⟨slots, num⟩)
    | some (_, n) =>
      let tp : TrapSlot := (⟨true, version, 1⟩,
        { tr_addr := raddr
          tr_localaddr := linter
          configured := decide (traptype = .config)
          nonprio := decide (traptype = .nonprio)
          tr_settime := current_time
          tr_origtime := current_time })
      (true, ⟨slots.set n tp, num + 1⟩)

/-- `ctlclrtrap`: if the trap is cleared. -/
def ctlclrtrap (raddr : SockAddr) (linter : Nat) (traptype : TrapType) (t : TrapTable) :
    Bool × TrapTable :=
  match ctlfindtrap raddr linter t.slots with
  | none => (false, t)
  | some n =>
    if (t.slots.map fun tp => tp.2.configured).getD n false ∧ traptype ≠ .config then (false, t)
    else (true, ⟨t.slots.modify n TrapSlot.clear, t.num_ctl_traps - 1⟩)

namespace CtlSrv

/-- The traps. -/
def trapTable (h : CtlSrv) : TrapTable := ⟨h.ctl.ctl_traps.zip h.traps, h.num_ctl_traps⟩

/-- The traps are changed. -/
def setTraps (t : TrapTable) (h : CtlSrv) : CtlSrv :=
  { h with
    ctl := { h.ctl with ctl_traps := t.slots.map Prod.fst }
    traps := t.slots.map Prod.snd
    num_ctl_traps := t.num_ctl_traps }

end CtlSrv

/-! ### Events -/

/-- An association as `report_event` finds it. -/
structure EventPeer where
  associd : BitVec 16
  last_event : BitVec 8
  num_events : Nat
deriving DecidableEq, Repr

/-- A call of `report_event`: the code of the event, the association, the status word and
    what is put into the message. -/
structure Event where
  err : BitVec 8
  peer : Option EventPeer
  status : BitVec 16
  puts : List CtlPut
deriving DecidableEq, Repr

/-- There were too many events of an association. The counter is reset when the event is
    the same as the last one. -/
def EventPeer.discards (p : EventPeer) (err : BitVec 8) : Bool :=
  decide ((if p.last_event = err &&& ~~~PEER_EVENT then 0 else p.num_events) ≥ CTL_PEER_MAXEVENTS)

namespace CtlSrv

/-- The number of system events of this kind so far. -/
def sysEvents (h : CtlSrv) (err : BitVec 8) : Nat :=
  if h.ctl_sys_last_event ≠ err then 0 else h.ctl_sys_num_events

/-- The event is not reported. -/
def discards (h : CtlSrv) (ev : Event) : Bool :=
  match ev.peer with
  | none => decide (h.sysEvents ev.err ≥ CTL_SYS_MAXEVENTS)
  | some p => p.discards ev.err

/-- The event is counted. -/
def countEvent (h : CtlSrv) (ev : Event) : CtlSrv :=
  match ev.peer with
  | none => { h with
      ctl_sys_last_event := ev.err
      ctl_sys_num_events := h.sysEvents ev.err + 1 }
  | some _ => h

/-- The message for the traps, and a packet that says that it is complete. The assertion is
    that an event of an association has one. -/
def message (env : CtlEnv) (ev : Event) (s : CtlSys) : CtlSys :=
  let associd := if ev.err &&& PEER_EVENT = 0 then 0 else (ev.peer.map (·.associd)).getD 0
  let s := reportEvent associd ev.status s
  if ev.err &&& PEER_EVENT ≠ 0 ∧ ev.peer = none then { s with stopped := true }
  else (ev.puts.map CtlPut.call ++ [CtlCall.flushpkt]).foldl (ctlGo env) s

/-- `report_event`. -/
def report (env : CtlEnv) (ev : Event) (h : CtlSrv) : CtlSrv :=
  if h.ctl.stopped then h
  else if h.discards ev then
    match ev.peer with
    | none => { h with ctl_sys_num_events := h.sysEvents ev.err }
    | some _ => h
  else
    let h := h.countEvent ev
    if h.num_ctl_traps ≤ 0 then h else { h with ctl := message env ev h.ctl }

end CtlSrv

/-- The code of the last event that was reported, and the counter. -/
structure EventCount where
  last_event : BitVec 8 := 0
  num_events : Nat := 0
deriving DecidableEq, Repr

/-- With so many before it the event is counted and reported, or dropped. -/
def EventCount.count (maxevents num : Nat) (err : BitVec 8) (c : EventCount) :
    Bool × EventCount :=
  if num ≥ maxevents then (false, { c with num_events := num }) else (true, ⟨err, num + 1⟩)

/-- `report_event` for the system: if the event is reported. -/
def sysEvent (err : BitVec 8) (c : EventCount) : Bool × EventCount :=
  c.count CTL_SYS_MAXEVENTS (if c.last_event ≠ err then 0 else c.num_events) err

/-- The code that is kept of an event of an association. -/
def errlast (err : BitVec 8) : BitVec 8 := err &&& ~~~PEER_EVENT

/-- `report_event` for an association. The comparison is that of the source. -/
def peerEvent (err : BitVec 8) (c : EventCount) : Bool × EventCount :=
  c.count CTL_PEER_MAXEVENTS (if c.last_event = errlast err then 0 else c.num_events) (errlast err)

end NtpSuite.Control
