import NtpSuite.Core.MruList

/-!
# Requests

The functions that answer the requests, and how `process_control` calls them.

What these functions ask other parts of the daemon for is a parameter of the request:
the restrict flags of the sender, the associations and what there is to be said of them,
the table of the monitor, what becomes of a configuration, and so on. What
`ctl_putsys`, `ctl_putpeer` and `ctl_putclock` put into a response for a code is such a
parameter too.

A configuration has an effect on the traps, it leads to events, and it can change what
the control messages take from elsewhere.

## Main definitions

* `CtlPeer`, `ConfRun`, `CtlDaemon`: The parameters.
* `controlUnspec`, `readStatus` and so on: The functions for the operations.
* `requestStep`: A request.
-/

namespace NtpSuite.Control

open Mon
open Ntpq (cstring)

def RES_NOMODIFY : BitVec 16 := 0x0080
def RES_NOTRAP : BitVec 16 := 0x0100
def RES_LPTRAP : BitVec 16 := 0x0200
def RES_NOMRULIST : BitVec 16 := 0x2000

/-- The pairs of numbers that fit into `a_st`. -/
def STATUS_PAIRS : Nat := CTL_MAX_DATA_LEN / 4

/-- An association: what `ctlpeerstatus` and `ctl_putpeer` say of it and, for a clock, what
    `refclock_control` and `ctl_putclock` say. -/
structure CtlPeer where
  associd : BitVec 16
  status : BitVec 16
  putpeer : Nat → List CtlPut
  refclock : Bool
  clkstatus : BitVec 16
  putclock : Nat → Bool → List CtlPut
  kv_list : List CtlVar

/-- What a configuration does: it sets a trap, or it leads to an event. -/
inductive ConfEffect where
  | trap (addr : SockAddr) (linter : Nat) (version : BitVec 8)
  | event (ev : Event)
deriving DecidableEq, Repr

/-- What becomes of a configuration: the errors that the parser finds, what it does, and
    what the control messages take from elsewhere then. -/
structure ConfRun where
  errors : List YyError
  effects : List ConfEffect
  env : CtlEnv

/-- What becomes of a request to save the configuration: the directory, the name of the file
    after `strftime`, and if it was written. -/
structure SaveRun where
  saveconfigdir : Option CStr
  filename : CStr
  saved : Bool

/-- What a request depends on. `saveRun` is `none` if the daemon was built without
    `SAVECONFIG`, and `hasRefclock` says if it was built with `REFCLOCK`. -/
structure CtlDaemon where
  restrict_mask : BitVec 16
  recv_srcadr : SockAddr
  dstadr : Nat
  current_time : Nat
  ctlsysstatus : BitVec 16
  putsys : Nat → List CtlPut
  findpeerbyassoc : BitVec 16 → Option CtlPeer
  peer_list : List CtlPeer
  sys_peer : Option CtlPeer
  hasRefclock : Bool
  conf : ConfRun
  saveRun : Option SaveRun
  lib : Libc
  getinterface : SockAddr → Option Nat
  validate_nonce : CStr → Bool
  mon : MonSys
  mru : MruCtx
  ifstats : List CtlPut
  addr_restrictions : List CtlPut

namespace CtlDaemon

variable (d : CtlDaemon)

/-- A flag of the sender. -/
def restricts (flag : BitVec 16) : Bool := d.restrict_mask &&& flag != 0

/-- The type of trap the sender may have. -/
def traptype : TrapType := if d.restricts RES_LPTRAP then .nonprio else .prio

/-- The clock for a request: the association, or the system peer, or the first one in the list. -/
def clock (associd : BitVec 16) : Option CtlPeer :=
  let peer := if associd ≠ 0 then d.findpeerbyassoc associd
    else if d.sys_peer.any (·.refclock) then d.sys_peer
    else d.peer_list.find? (·.refclock)
  peer.filter (·.refclock)

end CtlDaemon

section Handlers

variable (env : CtlEnv) (d : CtlDaemon)

/-! ### Variables -/

/-- `control_unspec`. -/
def controlUnspec (h : CtlSrv) : CtlSrv :=
  if h.ctl.res_associd ≠ 0 then
    match d.findpeerbyassoc h.ctl.res_associd with
    | none => h.error env .badassoc
    | some peer => (h.setStatus peer.status).flush env
  else (h.setStatus d.ctlsysstatus).flush env

/-- The association identifiers and status words of all associations. -/
def statusPuts : List CtlPut :=
  (d.peer_list.toChunks STATUS_PAIRS).map fun peers =>
    .data (peers.flatMap fun peer => htons peer.associd ++ htons peer.status) true

/-- The variables that are returned by default. -/
def CtlPeer.defaults (autokey : Bool) (peer : CtlPeer) : List CtlPut :=
  (defPeerVar autokey).flatMap peer.putpeer

/-- `read_status`. -/
def readStatus (autokey : Bool) (h : CtlSrv) : CtlSrv :=
  if h.ctl.res_associd ≠ 0 then
    match d.findpeerbyassoc h.ctl.res_associd with
    | none => h.error env .badassoc
    | some peer => (h.setStatus peer.status).respond env (peer.defaults autokey)
  else (h.setStatus d.ctlsysstatus).respond env (statusPuts d)

/-- The codes that are wanted, in their order. -/
def wantedCodes (maxcode : Nat) (wants : List Nat) : List Nat :=
  (List.range' 1 maxcode).filter (· ∈ wants)

/-- The variables of a list that are wanted. -/
def wantedVars (maxcode : Nat) (kv : List CtlVar) (wants : List Nat) : List CtlPut :=
  (kv.zipIdx.filter fun v => maxcode + 1 + v.2 ∈ wants).map fun v => .data (cstring v.1.text) false

/-- The variables of a list that are returned by default. -/
def defaultVars (kv : List CtlVar) : List CtlPut :=
  (kv.filter fun v => v.flags &&& DEF != 0).map fun v => .data (cstring v.text) false

/-- The variables of an association that are returned. -/
def CtlPeer.wanted (autokey : Bool) (peer : CtlPeer) (wants : List Nat) : List CtlPut :=
  if wants ≠ [] then (wantedCodes (CP_MAXCODE autokey) wants).flatMap peer.putpeer
  else peer.defaults autokey

/-- The system variables that are returned. -/
def CtlDaemon.wanted (autokey : Bool) (ext_sys_var : List CtlVar) (wants : List Nat) :
    List CtlPut :=
  if wants ≠ [] then
    (wantedCodes (CS_MAXCODE autokey) wants).flatMap d.putsys ++
      wantedVars (CS_MAXCODE autokey) ext_sys_var wants
  else (defSysVar autokey).flatMap d.putsys ++ defaultVars ext_sys_var

/-- The variables of a clock that are returned. -/
def CtlPeer.clockWanted (peer : CtlPeer) (wants : List Nat) : List CtlPut :=
  if wants ≠ [] then
    (wantedCodes CC_MAXCODE wants).flatMap (peer.putclock · true) ++
      wantedVars CC_MAXCODE peer.kv_list wants
  else defClockVar.flatMap (peer.putclock · false) ++ defaultVars peer.kv_list

/-- What follows the loop over the items of a request for variables. -/
def answerWanted (puts : List Nat → List CtlPut) (r : Wanted) (h : CtlSrv) : CtlSrv :=
  match r with
  | .finish wants => h.respond env (puts wants)
  | .overlong wants => (h.error env .badfmt).respond env (puts wants)
  | .unknown => h.error env .unknownvar
  | .insist overlong => (if overlong then h.error env .badfmt else h).abort

/-- `read_peervars`. -/
def readPeervars (autokey : Bool) (data : CStr) (h : CtlSrv) : CtlSrv :=
  match d.findpeerbyassoc h.ctl.res_associd with
  | none => h.error env .badassoc
  | some peer =>
    answerWanted env (peer.wanted autokey) (peerItems autokey data) (h.setStatus peer.status)

/-- The status word of the system is set. A sender with a key resets the number of events. -/
def sysReady (h : CtlSrv) : CtlSrv :=
  let h := h.setStatus d.ctlsysstatus
  if h.ctl.res_authokay then { h with ctl_sys_num_events := 0 } else h

/-- `read_sysvars`. -/
def readSysvars (autokey : Bool) (data : CStr) (h : CtlSrv) : CtlSrv :=
  answerWanted env (d.wanted autokey h.ext_sys_var)
    (wantItems (sysVar autokey) (CS_MAXCODE autokey) h.ext_sys_var data) (sysReady d h)

/-- `read_variables`. -/
def readVariables (autokey : Bool) (data : CStr) (h : CtlSrv) : CtlSrv :=
  if h.ctl.res_associd ≠ 0 then readPeervars env d autokey data h
  else readSysvars env d autokey data h

/-- `read_clockstatus`. -/
def readClockstatus (data : CStr) (h : CtlSrv) : CtlSrv :=
  if !d.hasRefclock then h.error env .badassoc
  else
    match d.clock h.ctl.res_associd with
    | none => h.error env .badassoc
    | some peer =>
      answerWanted env peer.clockWanted (wantItems clockVar CC_MAXCODE peer.kv_list data)
        (h.setStatus peer.clkstatus)

/-- `write_variables`. -/
def writeVariables (autokey : Bool) (data : CStr) (h : CtlSrv) : CtlSrv :=
  if h.ctl.res_associd ≠ 0 then h.error env .permission
  else
    let h := h.setStatus d.ctlsysstatus
    let r := writeItems (sysVar autokey) data h.ext_sys_var
    let h := { h with ext_sys_var := r.1.ext_sys_var }
    match r.2 with
    | .finish => h.flush env
    | .overlong => (h.error env .badfmt).flush env
    | .refused errcode => h.error env errcode

/-! ### Configuration -/

/-- What a configuration does. -/
def confEffect (d : CtlDaemon) (h : CtlSrv) (e : ConfEffect) : CtlSrv :=
  match e with
  | .trap addr linter version =>
    if h.ctl.stopped then h
    else h.setTraps (ctlsettrap addr linter .config version d.current_time h.trapTable).2
  | .event ev => h.report d.conf.env ev

/-- The request to configure. The effects come between the parser and the response. -/
def configureReq (data : CStr) (h : CtlSrv) : CtlSrv :=
  let nomodify := d.restricts RES_NOMODIFY
  let c := configure h.ctl.res_associd nomodify data d.conf.errors h.rc
  if h.ctl.res_associd ≠ 0 ∨ nomodify then c.2.foldl (CtlSrv.call env) { h with rc := c.1 }
  else
    c.2.foldl (CtlSrv.call d.conf.env) { d.conf.effects.foldl (confEffect d) h with rc := c.1 }

/-- The text of an answer in a buffer of 128 octets. -/
def replyText (text : CStr) : List CtlPut := [.data (cstring (text.take 127)) false]

/-- `save_config`. -/
def saveConfig (data : CStr) (h : CtlSrv) : CtlSrv :=
  if d.restricts RES_NOMODIFY then
    h.respond env (replyText (octets "saveconfig prohibited by restrict ... nomodify"))
  else
    match d.saveRun with
    | none => h.respond env (replyText
        (octets "saveconfig unavailable, configured with --disable-saveconfig"))
    | some r =>
      if r.saveconfigdir = none then
        h.respond env (replyText (octets "saveconfig prohibited, no saveconfigdir configured"))
      else if data = [] then h
      else if 0x5c ∈ r.filename ∨ 0x2f ∈ r.filename then
        h.respond env (replyText (octets "saveconfig does not allow directory in filename"))
      else if r.saved then
        { h with
          ext_sys_var := setVar (octets "savedconfig=" ++ r.filename) RO h.ext_sys_var }.respond
          env (replyText (octets "Configuration saved to " ++ r.filename))
      else
        h.respond env (replyText (octets "Unable to save configuration to file " ++ r.filename))

/-! ### Lists -/

/-- `read_mru_list`. -/
def readMruList (data : CStr) (h : CtlSrv) : CtlSrv :=
  if d.restricts RES_NOMRULIST then h.error env .permission
  else
    let r := mruItems d.lib d.getinterface data
    if r.2 = .insist then h.abort
    else
      let h := if r.2 = .overlong then h.error env .badfmt else h
      if r.1.parms.pnonce.any d.validate_nonce then (mruReply env d.mru d.mon r.1.parms h).1 else h

/-- `read_ordlist`. -/
def readOrdlist (data : CStr) (h : CtlSrv) : CtlSrv :=
  if data = [] ∨ data = octets "ifstats" then h.respond env d.ifstats
  else if data = octets "addr_restrictions" then h.respond env d.addr_restrictions
  else h.error env .unknownvar

/-- `req_nonce`, with a buffer of 64 octets. -/
def reqNonce (h : CtlSrv) : CtlSrv :=
  h.respond env [.unqstr (octets "nonce") (d.mru.nonce.take 63)]

/-! ### Traps -/

/-- `set_trap`. The code of the error is the same as that for a missing permission. -/
def setTrap (version : BitVec 8) (h : CtlSrv) : CtlSrv :=
  if d.restricts RES_NOTRAP then h.error env .permission
  else
    let r := ctlsettrap d.recv_srcadr d.dstadr d.traptype version d.current_time h.trapTable
    let h := h.setTraps r.2
    (if r.1 then h else h.error env .permission).flush env

/-- `unset_trap`. -/
def unsetTrap (h : CtlSrv) : CtlSrv :=
  let r := ctlclrtrap d.recv_srcadr d.dstadr d.traptype h.trapTable
  let h := h.setTraps r.2
  (if r.1 then h else h.error env .badassoc).flush env

/-! ### The operations -/

variable {autokey : Bool}

/-- The function for an operation is called. -/
def handle (rb : CtlRecv autokey) (h : CtlSrv) : CtlOp → CtlSrv
  | .unspec => controlUnspec env d h
  | .readstat => readStatus env d autokey h
  | .readvar => readVariables env d autokey rb.lines h
  | .writevar => writeVariables env d autokey rb.lines h
  | .readclock => readClockstatus env d rb.lines h
  | .writeclock => h.error env .permission
  | .settrap => setTrap env d rb.version h
  | .configure => configureReq env d rb.lines h
  | .saveconfig => saveConfig env d rb.lines h
  | .readMru => readMruList env d rb.lines h
  | .readOrdlist => readOrdlist env d rb.lines h
  | .reqNonce => reqNonce env d h
  | .unsettrap => unsetTrap env d h

/-- The checks of `process_control`, whose errors go to the one who asked. -/
def received (rb : CtlRecv autokey) (h : CtlSrv) : CtlSrv :=
  let ctl := (processControl env rb h.ctl).1
  { h with
    ctl := ctl
    replies := (ctl.sent.drop h.ctl.sent.length).map fun pkt => ⟨.requester, pkt⟩ }

/-- A request. The replies are those to this request. -/
def requestStep (rb : CtlRecv autokey) (h : CtlSrv) : CtlSrv :=
  if h.ctl.stopped then { h with replies := [] }
  else
    match (processControl env rb h.ctl).2 with
    | none => received env rb h
    | some op => handle env d rb (received env rb h) op

end Handlers

end NtpSuite.Control
