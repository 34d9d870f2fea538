import NtpSuite.Core.Assoc

/-!
# Endpoints

The local addresses of `ntp_io.c`: which of them are used, and the lists they
are kept on.

Endpoints are known by their addresses, which are numbered in the order of
allocation. An endpoint that is deleted goes to `freed`, and what a list says
about it afterwards it says about freed memory. The lists are lists of
numbers; `ep_list` has all endpoints, `mc4_list` and `mc6_list` those from
which multicasts are sent, and `remoteaddr_list` has the addresses under which
endpoints are found.

A scan enumerates the addresses of the host. What the operating system says is
part of the enumeration: the addresses with their flags, and for each whether
a socket can be opened or opened again, and whether it joins groups.

Sockets for broadcasts, the counters, the peers that are bound to an endpoint
and the entries of the restrict list for local addresses do not concern the
lists and are left out. Multicasting is compiled in, and so is IPv6.

## Main definitions

* `Interface`, `IoSys`: An endpoint, and all there is.
* `interfaceAction`: What the rules say about an address.
* `addInterface`, `removeInterface`, `createInterface`: The operations on the
  lists.
* `updateInterfaces`: A scan.
* `ioMulticastAdd`: A group is joined.
* `findinterface`, `sendpkt`: Where endpoints are used.
* `ioStep`: What can happen next.
-/

namespace NtpSuite

def INT_UP : BitVec 32 := 0x001
def INT_PPP : BitVec 32 := 0x002
def INT_LOOPBACK : BitVec 32 := 0x004
def INT_BROADCAST : BitVec 32 := 0x008
def INT_MULTICAST : BitVec 32 := 0x010
def INT_MCASTOPEN : BitVec 32 := 0x040
def INT_WILDCARD : BitVec 32 := 0x080
def INT_MCASTIF : BitVec 32 := 0x100
def INT_PRIVACY : BitVec 32 := 0x200

/-- An endpoint; `fd` says whether it has a socket. -/
structure Interface where
  name : String := ""
  sin : SockAddr := {}
  mask : SockAddr := {}
  flags : BitVec 32 := 0
  ignore_packets : Bool := false
  phase : Bool := false
  fd : Bool := false
deriving DecidableEq, Repr

/-- Some of the flags are set. -/
def Interface.has (e : Interface) (flags : BitVec 32) : Bool := flags &&& e.flags ≠ 0

/-- What is done with an address. -/
inductive NicAction where
  | listen | ignore | drop
deriving DecidableEq, Repr

/-- Which addresses a rule is for. -/
inductive NicMatch where
  | all | ipv4 | ipv6 | wildcard
  | ifname (if_name : String)
  | ifaddr (addr : SockAddr) (prefixlen : Option Nat)
deriving DecidableEq, Repr

/-- A rule. -/
structure NicRule where
  match_type : NicMatch
  action : NicAction
deriving DecidableEq, Repr

/-- Switches of the build and of the command line. -/
structure IoCfg where
  ipv4_works : Bool := true
  ipv6_works : Bool := true
  listen_to_virtual_ips : Bool := true
  disable_dynamic_updates : Bool := false
  include_ipv6_multicast_support : Bool := true
  debug : Bool := false
  os_misses_specific_route_updates : Bool := false
  multicast_nonewsocket : Bool := false
deriving DecidableEq, Repr

/-- All there is. -/
structure IoSys where
  mem : Nat → Interface := fun _ => {}
  allocated : Nat := 0
  freed : List Nat := []
  ep_list : List Nat := []
  mc4_list : List Nat := []
  mc6_list : List Nat := []
  remoteaddr_list : List (SockAddr × Option Nat) := []
  loopback_interface : Option Nat := none
  wildipv4 : Option Nat := none
  wildipv6 : Option Nat := none
  ninterfaces : Int := 0
  sys_interphase : Bool := false
  nic_rule_list : List NicRule := []
  aborted : Bool := false

/-- The endpoint at an address is changed. -/
def IoSys.modify (s : IoSys) (p : Nat) (f : Interface → Interface) : IoSys :=
  { s with mem := Function.update s.mem p (f (s.mem p)) }

/-! ### Addresses -/

/-- The number of bits of an address. -/
def AF.width : AF → Nat
  | .inet => 32
  | .inet6 => 128
  | .unspec => 0

/-- `is_wildcard_addr`. -/
def isWildcardAddr (a : SockAddr) : Bool := a.af ≠ .unspec && a.addr = 0

/-- `addr_eqprefix`. -/
def addrEqprefix (a b : SockAddr) (prefixlen : Nat) : Bool :=
  a.af = b.af && (a.scope = b.scope || b.scope = 0) &&
    a.addr >>> (a.af.width - prefixlen) = b.addr >>> (a.af.width - prefixlen)

/-- `addr_samesubnet`. -/
def addrSamesubnet (a amask b bmask : SockAddr) : Bool :=
  amask.sockEq bmask && a.addr &&& amask.addr = b.addr &&& amask.addr

/-- Link-local or site-local. -/
def isLocalScope (a : SockAddr) : Bool :=
  a.af = .inet6 && (a.addr >>> 118 = 0x3fa || a.addr >>> 118 = 0x3fb)

/-- `IS_IID_UNIV`. -/
def isIidUniv (a : SockAddr) : Bool := a.af = .inet6 && a.addr.testBit 57

/-! ### Rules -/

/-- The rule is for the address. -/
def NicMatch.applies (m : NicMatch) (if_name : Option String) (if_addr : SockAddr)
    (if_flags : BitVec 32) : Bool :=
  match m with
  | .all => INT_LOOPBACK &&& if_flags = 0 && !isWildcardAddr if_addr
  | .ipv4 => if_addr.af = .inet
  | .ipv6 => if_addr.af = .inet6
  | .wildcard => isWildcardAddr if_addr
  | .ifaddr addr (some prefixlen) => addrEqprefix if_addr addr prefixlen
  | .ifaddr addr none => if_addr.sockEq addr
  | .ifname name => if_name.any fun n => n.toLower = name.toLower

/-- `interface_action`. -/
def interfaceAction (c : IoCfg) (rules : List NicRule) (if_name : Option String)
    (if_addr : SockAddr) (if_flags : BitVec 32) : NicAction :=
  match rules.find? fun r => r.match_type.applies if_name if_addr if_flags with
  | some rule => rule.action
  | none =>
    if INT_LOOPBACK &&& if_flags ≠ 0 then .listen
    else if isWildcardAddr if_addr then .drop
    else if !c.listen_to_virtual_ips && if_name.any (·.toList.contains ':') then .ignore
    else if rules = [] then .listen
    else .ignore

/-! ### The lists -/

/-- `new_interface`. -/
def newInterface (s : IoSys) (e : Interface) : IoSys × Nat :=
  ({ s with
    mem := Function.update s.mem s.allocated e
    allocated := s.allocated + 1 }, s.allocated)

/-- `delete_interface`. -/
def deleteInterface (s : IoSys) (p : Nat) : IoSys := { s with freed := p :: s.freed }

/-- `find_addr_in_list`. -/
def findAddrInList (s : IoSys) (addr : SockAddr) : Option Nat :=
  (s.remoteaddr_list.find? fun r => r.1.sockEq addr).bind (·.2)

/-- `find_flagged_addr_in_list`, from some entry on. An entry without an
    endpoint is followed all the same. -/
def findFlaggedAddr (mem : Nat → Interface) (addr : SockAddr) (flags : BitVec 32) :
    List (SockAddr × Option Nat) → Except Unit (Option Nat)
  | [] => .ok none
  | entry :: rest =>
    if entry.1.sockEq addr then
      match entry.2 with
      | none => .error ()
      | some p =>
        if (mem p).flags &&& flags = flags then .ok (some p)
        else findFlaggedAddr mem addr flags rest
    else findFlaggedAddr mem addr flags rest

/-- `getinterface`. -/
def getinterface (s : IoSys) (addr : SockAddr) (flags : BitVec 32) : Option Nat :=
  (findAddrInList s addr).filter fun p => !(s.mem p).has flags

/-- `add_addr_to_list`. Only the debugging build looks for duplicates. -/
def addAddrToList (c : IoCfg) (s : IoSys) (addr : SockAddr) (ep : Option Nat) : IoSys :=
  if c.debug ∧ findAddrInList s addr ≠ none then s
  else { s with remoteaddr_list := (addr, ep) :: s.remoteaddr_list }

/-- `delete_interface_from_list`. The last round looks at the first entry
    without asking whether there is one. -/
def deleteInterfaceFromList (s : IoSys) (p : Nat) : IoSys :=
  let remaining := s.remoteaddr_list.filter (·.2 ≠ some p)
  { s with
    remoteaddr_list := remaining
    aborted := s.aborted || remaining.isEmpty }

/-- The first endpoint is worse for multicasts than the second, on the same network interface. -/
def givesWay (same_subnet : Bool) (e f : Interface) : Bool :=
  let privacy (e : Interface) : Bool := e.sin.af = .inet6 && e.has INT_PRIVACY
  (isLocalScope e.sin && !isLocalScope f.sin) || (same_subnet &&
    ((privacy e && !privacy f) || (!isIidUniv e.sin && isIidUniv f.sin)))

/-- The loop of `add_interface`: the list without the endpoints that give way
    to the new one, and whether the new one gives way itself. -/
def mcastLoop (mem : Nat → Interface) (ep : Interface) : List Nat → List Nat → List Nat × Bool
  | [], mclist => (mclist, false)
  | scan :: rest, mclist =>
    let other := mem scan
    if ep.sin.af ≠ other.sin.af ∨ ep.name ≠ other.name then mcastLoop mem ep rest mclist
    else
      let same_subnet := addrSamesubnet ep.sin ep.mask other.sin other.mask
      if givesWay same_subnet ep other then (mclist, true)
      else if givesWay same_subnet other ep then mcastLoop mem ep rest (mclist.erase scan)
      else mcastLoop mem ep rest mclist

/-- A new endpoint on a list for multicasts. -/
def addMcast (mem : Nat → Interface) (p : Nat) (mclist : List Nat) : List Nat :=
  let r := mcastLoop mem (mem p) mclist mclist
  if r.2 then r.1
  else if isLocalScope (mem p).sin then r.1 ++ [p]
  else p :: r.1

/-- `add_interface`. -/
def addInterface (c : IoCfg) (s : IoSys) (p : Nat) : IoSys :=
  let ep := s.mem p
  let s := { s with ep_list := s.ep_list ++ [p], ninterfaces := s.ninterfaces + 1 }
  if ep.ignore_packets || !ep.has INT_MULTICAST || ep.has INT_LOOPBACK then s
  else if ep.sin.af = .inet then { s with mc4_list := addMcast s.mem p s.mc4_list }
  else if c.include_ipv6_multicast_support then
    { s with mc6_list := addMcast s.mem p s.mc6_list }
  else s

/-- `remove_interface`. -/
def removeInterface (s : IoSys) (p : Nat) : IoSys :=
  let ep := s.mem p
  let s := { s with ep_list := s.ep_list.erase p }
  let s :=
    if !ep.ignore_packets && ep.has INT_MULTICAST then
      if ep.sin.af = .inet then { s with mc4_list := s.mc4_list.erase p }
      else { s with mc6_list := s.mc6_list.erase p }
    else s
  let s := deleteInterfaceFromList s p
  let s := s.modify p fun e => { e with fd := false }
  { s with ninterfaces := s.ninterfaces - 1 }

/-! ### A scan -/

/-- An address of the host, as the operating system reports it. `anycast`, `opens`, `reopens` and
    `joins` are its answers to what is asked about the address later. -/
structure IscInterface where
  name : String
  af : AF := .inet
  address : Nat
  netmask : Nat := 0
  zone : Nat := 0
  up : Bool := true
  broadcast : Bool := false
  loopback : Bool := false
  pointtopoint : Bool := false
  multicast : Bool := true
  privacy : Bool := false
  anycast : Bool := false
  opens : Bool := true
  reopens : Bool := true
  joins : Bool := true
deriving DecidableEq, Repr

/-- `convert_isc_if`, for an endpoint that has just been initialized. -/
def convertIscIf (isc_if : IscInterface) (phase : Bool) : Interface :=
  let flags : BitVec 32 :=
    (if isc_if.af = .inet ∧ isc_if.broadcast then INT_BROADCAST else 0) |||
    (if isc_if.up then INT_UP else 0) |||
    (if isc_if.loopback then INT_LOOPBACK else 0) |||
    (if isc_if.pointtopoint then INT_PPP else 0) |||
    (if isc_if.multicast then INT_MULTICAST else 0) |||
    (if isc_if.privacy then INT_PRIVACY else 0)
  let localhost : Bool :=
    if isc_if.af = .inet then isc_if.address >>> 24 = 127 else isc_if.address = 1
  { name := isc_if.name
    sin := { af := isc_if.af, addr := isc_if.address
             scope := if isc_if.af = .inet6 then isc_if.zone else 0 }
    mask := { af := isc_if.af, addr := isc_if.netmask }
    flags := if localhost then flags else flags &&& ~~~INT_LOOPBACK
    phase := phase }

/-- The prototype of an address that is to be used. -/
def enumerated (c : IoCfg) (rules : List NicRule) (phase : Bool) (isc_if : IscInterface) :
    Option Interface :=
  if isc_if.af = .unspec ∨ (isc_if.af = .inet ∧ !c.ipv4_works) ∨
      (isc_if.af = .inet6 ∧ !c.ipv6_works) then none
  else
    let enumep := convertIscIf isc_if phase
    let action := interfaceAction c rules (some enumep.name) enumep.sin enumep.flags
    if action = .ignore ∨ !enumep.has INT_UP ∨ isWildcardAddr enumep.sin ∨ isc_if.anycast then
      none
    else some { enumep with ignore_packets := action = .drop }

/-- `refresh_interface`. -/
def refreshInterface (c : IoCfg) (reopens : Bool) (e : Interface) : Interface × Bool :=
  if c.os_misses_specific_route_updates ∧ e.fd then ({ e with fd := reopens }, reopens)
  else (e, e.fd)

/-- An endpoint that was found. Two addresses of one scan that disagree about it switch it off. -/
def markPresent (phase : Bool) (enumep e : Interface) : Interface :=
  let e :=
    if e.phase ≠ phase then
      { e with name := enumep.name, ignore_packets := enumep.ignore_packets }
    else { e with name := "*multiple*" }
  let e :=
    if e.ignore_packets ≠ enumep.ignore_packets then { e with ignore_packets := true } else e
  { e with phase := phase }

/-- `socket_multicast_enable`; `joins` is what the system call returns. -/
def socketMulticastEnable (c : IoCfg) (s : IoSys) (p : Nat) (maddr : SockAddr) (joins : Bool) :
    IoSys :=
  if joins ∧ (maddr.af = .inet ∨ c.include_ipv6_multicast_support) then
    s.modify p fun e => { e with flags := e.flags ||| INT_MCASTOPEN }
  else s

/-- The new endpoint joins the groups there are, for builds without sockets of
    their own for groups. -/
def joinGroups (c : IoCfg) (s : IoSys) (p : Nat) (joins : Bool) : IoSys :=
  let ep := s.mem p
  if c.multicast_nonewsocket && ep.has INT_MULTICAST && !ep.has (INT_LOOPBACK ||| INT_WILDCARD) &&
      !ep.ignore_packets then
    (s.remoteaddr_list.filter fun r => r.1.af = ep.sin.af && r.1.isMcast).foldl
      (fun s r => socketMulticastEnable c s p r.1 joins) s
  else s

/-- `create_interface`. -/
def createInterface (c : IoCfg) (s : IoSys) (protot : Interface) (opens joins : Bool) :
    IoSys × Option Nat :=
  let r := newInterface s { protot with fd := opens }
  if opens then
    let ep := r.1.mem r.2
    let s := if r.1.loopback_interface = none ∧ ep.sin.af = .inet ∧ ep.has INT_LOOPBACK then
      { r.1 with loopback_interface := some r.2 } else r.1
    let s := addAddrToList c s ep.sin (some r.2)
    let s := addInterface c s r.2
    (joinGroups c s r.2 joins, some r.2)
  else (deleteInterface r.1 r.2, none)

/-- Phase one of `update_interfaces` for an address. -/
def scanStep (c : IoCfg) (s : IoSys) (isc_if : IscInterface) : IoSys :=
  match enumerated c s.nic_rule_list s.sys_interphase isc_if with
  | none => s
  | some enumep =>
    match getinterface s enumep.sin INT_WILDCARD with
    | none => (createInterface c s enumep isc_if.opens isc_if.joins).1
    | some p =>
      let r := refreshInterface c isc_if.reopens (s.mem p)
      let s := s.modify p fun _ => r.1
      if r.2 then s.modify p (markPresent s.sys_interphase enumep)
      else (createInterface c s enumep isc_if.opens isc_if.joins).1

/-- Phase two of `update_interfaces` for an endpoint. -/
def goneStep (s : IoSys) (p : Nat) : IoSys :=
  if (s.mem p).has (INT_WILDCARD ||| INT_MCASTIF) ∨ (s.mem p).phase = s.sys_interphase then s
  else
    let s := removeInterface s p
    let s := if s.loopback_interface = some p then { s with loopback_interface := none } else s
    deleteInterface s p

/-- `update_interfaces`; without an enumeration nothing is done. -/
def updateInterfaces (c : IoCfg) (s : IoSys) (scan : Option (List IscInterface)) : IoSys :=
  match scan with
  | none => s
  | some iter =>
    let s := { s with sys_interphase := !s.sys_interphase }
    let s := iter.foldl (scanStep c) s
    s.ep_list.foldl goneStep s

/-- `interface_update`. -/
def interfaceUpdate (c : IoCfg) (s : IoSys) (scan : Option (List IscInterface)) : IoSys :=
  if c.disable_dynamic_updates then s else updateInterfaces c s scan

/-! ### Wildcards and groups -/

/-- An endpoint for the wildcard address of a family. The program ends if it cannot be bound. -/
def createWildcard (c : IoCfg) (s : IoSys) (af : AF) (works : Bool) (name : String)
    (flags : BitVec 32) : IoSys × Option Nat :=
  let wildaddr : SockAddr := { af := af, addr := 0 }
  let action := interfaceAction c s.nic_rule_list none wildaddr 0
  if works ∧ action ≠ .ignore then
    let r := newInterface s
      { name := name, sin := wildaddr, mask := { af := af, addr := 2 ^ af.width - 1 }
        flags := flags, ignore_packets := action = .drop, phase := s.sys_interphase, fd := true }
    (addInterface c (addAddrToList c r.1 wildaddr (some r.2)) r.2, some r.2)
  else (s, none)

/-- `create_wildcards`. -/
def createWildcards (c : IoCfg) (s : IoSys) : IoSys :=
  let r := createWildcard c s .inet c.ipv4_works "v4wildcard"
    (INT_BROADCAST ||| INT_UP ||| INT_WILDCARD)
  let s := { r.1 with wildipv4 := r.2 }
  let r := createWildcard c s .inet6 c.ipv6_works "v6wildcard" (INT_UP ||| INT_WILDCARD)
  { r.1 with wildipv6 := r.2 }

/-- The wildcard endpoint for an address. -/
def IoSys.wild (s : IoSys) (addr : SockAddr) : Option Nat :=
  match addr.af with
  | .inet => s.wildipv4
  | .inet6 => s.wildipv6
  | .unspec => none

/-- A new socket for a group, or else the wildcard socket. -/
def joinNewSocket (c : IoCfg) (s : IoSys) (addr : SockAddr) (opens joins : Bool) : IoSys :=
  let r := newInterface s
    { sin := { addr with port := 123 }
      mask := { af := addr.af, addr := 2 ^ addr.af.width - 1 }
      phase := s.sys_interphase, fd := opens }
  if opens then
    let s := r.1.modify r.2 fun e =>
      { e with ignore_packets := false, flags := e.flags ||| INT_MCASTIF, name := "multicast" }
    let s := addInterface c s r.2
    addAddrToList c (socketMulticastEnable c s r.2 addr joins) addr (some r.2)
  else
    let s := deleteInterface r.1 r.2
    match s.wild addr with
    | none => s
    | some p => addAddrToList c (socketMulticastEnable c s p addr joins) addr (some p)

/-- Every socket that can joins the group. -/
def joinEachSocket (c : IoCfg) (s : IoSys) (addr : SockAddr) (joining : List Nat) : IoSys :=
  let eps := s.ep_list.filter fun p => !(s.mem p).ignore_packets && (s.mem p).sin.af = addr.af &&
    (s.mem p).has INT_MULTICAST && !(s.mem p).has (INT_LOOPBACK ||| INT_WILDCARD)
  let one_ep := eps.getLast?.or (if addr.af = .inet then s.wildipv4 else s.wildipv6)
  addAddrToList c
    (eps.foldl (fun s p => socketMulticastEnable c s p addr (p ∈ joining)) s) addr one_ep

/-- `io_multicast_add`. `opens` and `joins` are the answers of the system for a
    new socket, and `joining` has the endpoints whose own sockets join. -/
def ioMulticastAdd (c : IoCfg) (s : IoSys) (addr : SockAddr) (opens joins : Bool)
    (joining : List Nat) : IoSys :=
  if addr.isMcast then
    match findFlaggedAddr s.mem addr INT_MCASTOPEN s.remoteaddr_list with
    | .error _ => { s with aborted := true }
    | .ok (some _) => s
    | .ok none =>
      if c.multicast_nonewsocket then joinEachSocket c s addr joining
      else joinNewSocket c s addr opens joins
  else s

/-! ### Where endpoints are used -/

/-- `sendpkt`: the endpoints from which the packet is sent. -/
def sendpkt (s : IoSys) (dest : SockAddr) (ep : Option Nat) : List Nat :=
  if dest.isMcast then if dest.af = .inet then s.mc4_list else s.mc6_list
  else ep.toList

/-- The octets of an IPv6 address, the highest first. -/
def octets (addr : Nat) : List Nat := (List.range 16).map fun i => addr >>> (8 * (15 - i)) % 256

/-- `calc_addr_distance`. For IPv6 the octets are subtracted one by one, in the
    direction that the first difference gives. -/
def calcAddrDistance (a1 a2 : SockAddr) : List Nat :=
  if a1.af = .inet then [if a2.addr < a1.addr then a1.addr - a2.addr else a2.addr - a1.addr]
  else
    let pairs := (octets a1.addr).zip (octets a2.addr)
    let a1_greater := (pairs.find? fun o => o.1 ≠ o.2).any fun o => o.2 < o.1
    pairs.map fun o => if a1_greater then (o.1 + 256 - o.2) % 256 else (o.2 + 256 - o.1) % 256

/-- `findclosestinterface`. -/
def findclosestinterface (s : IoSys) (addr : SockAddr) (flags : BitVec 32) : Option Nat :=
  s.ep_list.foldl (fun winner p =>
    if (s.mem p).ignore_packets || addr.af ≠ (s.mem p).sin.af || (s.mem p).has flags then winner
    else match winner with
      | none => some p
      | some q =>
        if calcAddrDistance addr (s.mem p).sin < calcAddrDistance addr (s.mem q).sin then some p
        else winner) none

/-- `findlocalinterface`; `saddr` is the local address that the kernel gives a
    socket connected to the address, if it does. -/
def findlocalinterface (s : IoSys) (saddr : Option SockAddr) (flags : BitVec 32) : Option Nat :=
  match saddr with
  | none => none
  | some saddr =>
    let iface := match getinterface s saddr flags with
      | none => findclosestinterface s saddr (flags ||| INT_LOOPBACK)
      | some p =>
        if (s.mem p).ignore_packets then findclosestinterface s saddr (flags ||| INT_LOOPBACK)
        else some p
    iface.filter fun p => !(s.mem p).ignore_packets

/-- `findinterface`. -/
def findinterface (s : IoSys) (addr : SockAddr) (saddr : Option SockAddr) : Option Nat :=
  (findlocalinterface s saddr INT_WILDCARD).or
    (if addr.af = .inet then s.wildipv4 else s.wildipv6)

/-! ### Runs -/

/-- What can happen next. -/
inductive IoEvent where
  | addNicRule (rule : NicRule)
  | updateInterfaces (scan : Option (List IscInterface))
  | multicastAdd (addr : SockAddr) (opens joins : Bool) (joining : List Nat)
deriving DecidableEq, Repr

/-- One step. -/
def ioStep (c : IoCfg) (s : IoSys) : IoEvent → IoSys
  | .addNicRule rule => { s with nic_rule_list := rule :: s.nic_rule_list }
  | .updateInterfaces scan => updateInterfaces c s scan
  | .multicastAdd addr opens joins joining => ioMulticastAdd c s addr opens joins joining

/-- The state after `create_wildcards`, with the rules of the configuration. -/
def ioStart (c : IoCfg) (rules : List NicRule) : IoSys :=
  createWildcards c { nic_rule_list := rules }

end NtpSuite
