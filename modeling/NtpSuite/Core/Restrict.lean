import Mathlib

/-!
# Restrict Lists

The access control lists of `ntp_restrict.c`: one for each address family,
each a list of entries with an address, a mask, match flags and access flags.

The two families run the same code on addresses of different width, 32 bits
in host order and 128 bits in network order, which are compared as sequences
of octets; both comparisons are those of the numbers. So everything is
defined once for a width, and the functions of the source are that definition
for 32 or 128 bits.

Entries are known by their addresses. Those of a family are numbered in the
order of allocation, and the first is the default entry, which is not
allocated. The lists are lists of such numbers. An entry that is freed is
cleared and put on the free list, and what somebody does to it then, it is
done to the cleared entry.

## Main definitions

* `RestrictU`: An entry.
* `ResHeap`: The entries of a family, its list and its free list.
* `freeRes`, `matchLoop`, `matchRestrictEntry`, `hackList`: The operations on
  the list of a family.
* `restrictions`, `hackRestrict`, `restrictSource`: The functions other modules
  call.
* `restrictStep`: What can happen next.
-/

namespace NtpSuite

/-- `INC_RESLIST4` and `INC_RESLIST6` for pointers and longs of 64 bits. -/
def INC_RESLIST4 : Nat := (1024 - 16) / 32
def INC_RESLIST6 : Nat := (1024 - 16) / 56

def RES_IGNORE : BitVec 16 := 0x0001
def RES_LIMITED : BitVec 16 := 0x0020

def RESM_INTERFACE : BitVec 16 := 0x1000
def RESM_NTPONLY : BitVec 16 := 0x2000
def RESM_SOURCE : BitVec 16 := 0x4000

def MON_OFF : BitVec 32 := 0x00
def MON_ON : BitVec 32 := 0x01
def MON_RES : BitVec 32 := 0x02

def NTP_PORT : Nat := 123

/-- The largest `u_long`. -/
def ULONG_MAX : Nat := 2 ^ 64 - 1

/-- An entry of a restrict list. -/
structure RestrictU (w : Nat) where
  count : BitVec 32 := 0
  flags : BitVec 16 := 0
  mflags : BitVec 16 := 0
  expire : Nat := 0
  addr : BitVec w := 0
  mask : BitVec w := 0
deriving DecidableEq, Repr

/-- The entries of a family, its list and its free list. -/
structure ResHeap (w : Nat) where
  mem : Nat → RestrictU w := fun _ => {}
  list : List Nat := [0]
  resfree : List Nat := []
  allocated : Nat := 1

/-- What both families share. -/
structure ResVars where
  restrictcount : Int := 2
  res_calls : Nat := 0
  res_found : Nat := 0
  res_not_found : Nat := 0
  res_limited_refcnt : Nat := 0
  mon_enabled : BitVec 32 := MON_OFF
  restrict_source_enabled : Bool := false
  restrict_source_flags : BitVec 16 := 0
  restrict_source_mflags : BitVec 16 := 0
  aborted : Bool := false
deriving DecidableEq, Repr

/-! ### Monitoring -/

/-- `mon_start`, as far as `mon_enabled` is concerned. -/
def monStart (v : ResVars) (mode : BitVec 32) : ResVars :=
  if mode = MON_OFF then v
  else if v.mon_enabled ≠ MON_OFF then { v with mon_enabled := v.mon_enabled ||| mode }
  else { v with mon_enabled := mode }

/-- `mon_stop`, as far as `mon_enabled` is concerned. -/
def monStop (v : ResVars) (mode : BitVec 32) : ResVars :=
  if v.mon_enabled = MON_OFF then v
  else if v.mon_enabled &&& mode = 0 ∨ mode = MON_OFF then v
  else { v with mon_enabled := v.mon_enabled &&& ~~~mode }

/-- `inc_res_limited`. -/
def incResLimited (v : ResVars) : ResVars :=
  let v := if v.res_limited_refcnt = 0 then monStart v MON_RES else v
  { v with res_limited_refcnt := v.res_limited_refcnt + 1 }

/-- `dec_res_limited`; the counter is unsigned. -/
def decResLimited (v : ResVars) : ResVars :=
  let v := { v with
    res_limited_refcnt :=
      if v.res_limited_refcnt = 0 then ULONG_MAX else v.res_limited_refcnt - 1 }
  if v.res_limited_refcnt = 0 then monStop v MON_RES else v

/-! ### The list of a family -/

section

variable {w : Nat}

/-- The entry at an address is changed. -/
def ResHeap.modify (h : ResHeap w) (res : Nat) (f : RestrictU w → RestrictU w) : ResHeap w :=
  { h with mem := Function.update h.mem res (f (h.mem res)) }

/-- `alloc_res4` and `alloc_res6`: the first of the free list, or the first of
    a new block whose others go to the free list. -/
def allocRes (inc : Nat) (h : ResHeap w) : ResHeap w × Nat :=
  match h.resfree with
  | res :: rest => ({ h with resfree := rest }, res)
  | [] =>
    ({ h with
      resfree := (List.range (inc - 1)).map (h.allocated + 1 + ·)
      allocated := h.allocated + inc }, h.allocated)

/-- `free_res`. The test for the flag is the source's `RES_LIMITED && flags`. -/
def freeRes (h : ResHeap w) (v : ResVars) (res : Nat) : ResHeap w × ResVars :=
  let v := { v with restrictcount := v.restrictcount - 1 }
  let v := if RES_LIMITED ≠ 0 ∧ (h.mem res).flags ≠ 0 then decResLimited v else v
  let v := if res ∈ h.list then v else { v with aborted := true }
  ({ h with
    list := h.list.erase res
    mem := Function.update h.mem res {}
    resfree := res :: h.resfree }, v)

/-- The entry has a time after which it is not valid, and that has come. -/
def RestrictU.expired (res : RestrictU w) (current_time : Nat) : Bool :=
  res.expire ≠ 0 && res.expire ≤ current_time

/-- The entry is for the source. -/
def RestrictU.hits (res : RestrictU w) (addr : BitVec w) (port : Nat) : Bool :=
  res.addr = addr &&& res.mask && (RESM_NTPONLY &&& res.mflags = 0 || port = NTP_PORT)

/-- The loop of `match_restrict4_addr` and `match_restrict6_addr`. An entry that
    has expired is freed, and the test that follows is done all the same. Only
    the second function asserts that an entry is not linked to itself. -/
def matchLoop (insist : Bool) (current_time : Nat) (addr : BitVec w) (port : Nat) :
    List Nat → ResHeap w → ResVars → (ResHeap w × ResVars) × Option Nat
  | [], h, v => ((h, v), none)
  | res :: next, h, v =>
    let v := if insist ∧ next.head? = some res then { v with aborted := true } else v
    let r := if (h.mem res).expired current_time then freeRes h v res else (h, v)
    if (r.1.mem res).hits addr port then (r, some res)
    else matchLoop insist current_time addr port next r.1 r.2

/-- `match_restrict_entry`: the entry with the same address, mask and match flags. -/
def matchRestrictEntry (h : ResHeap w) (pmatch : RestrictU w) : Option Nat :=
  h.list.find? fun p => (h.mem p).mflags = pmatch.mflags && (h.mem p).addr = pmatch.addr &&
    (h.mem p).mask = pmatch.mask

/-- `res_sorts_before4` and `res_sorts_before6`: descending address, then mask, then match flags. -/
def resSortsBefore (r1 r2 : RestrictU w) : Bool :=
  if r2.addr < r1.addr then true
  else if r1.addr < r2.addr then false
  else if r2.mask < r1.mask then true
  else if r1.mask < r2.mask then false
  else r2.mflags < r1.mflags

/-- `LINK_SORT_SLIST`: before the first entry that it sorts before, or at the end. -/
def linkSortSlist (before : Nat → Bool) (pentry : Nat) : List Nat → List Nat
  | [] => [pentry]
  | cur :: rest =>
    if before cur then pentry :: cur :: rest else cur :: linkSortSlist before pentry rest

/-- What is done with the entry of a restriction. -/
inductive RestrictOp where
  | flags | unflag | remove | removeif
deriving DecidableEq, Repr

/-- A new entry. -/
def addRes (inc : Nat) (h : ResHeap w) (v : ResVars) (pmatch : RestrictU w) :
    ResHeap w × ResVars :=
  let a := allocRes inc h
  let mem := Function.update a.1.mem a.2 pmatch
  let v := { v with restrictcount := v.restrictcount + 1 }
  ({ a.1 with
    mem := mem
    list := linkSortSlist (fun cur => resSortsBefore (mem a.2) (mem cur)) a.2 a.1.list },
    if RES_LIMITED &&& pmatch.flags ≠ 0 then incResLimited v else v)

/-- Bits are added to the flags of an entry. -/
def addFlags (h : ResHeap w) (v : ResVars) (res : Nat) (flags : BitVec 16) :
    ResHeap w × ResVars :=
  (h.modify res fun r => { r with flags := r.flags ||| flags },
    if RES_LIMITED &&& flags ≠ 0 ∧ RES_LIMITED &&& (h.mem res).flags = 0 then incResLimited v
    else v)

/-- Bits are removed from the flags of an entry. -/
def removeFlags (h : ResHeap w) (v : ResVars) (res : Nat) (flags : BitVec 16) :
    ResHeap w × ResVars :=
  (h.modify res fun r => { r with flags := r.flags &&& ~~~flags },
    if RES_LIMITED &&& (h.mem res).flags ≠ 0 ∧ RES_LIMITED &&& flags ≠ 0 then decResLimited v
    else v)

/-- The switch of `hack_restrict`. The default entry is the first of the family. -/
def hackList (inc : Nat) (h : ResHeap w) (v : ResVars) (op : RestrictOp)
    (pmatch : RestrictU w) : ResHeap w × ResVars :=
  match op, matchRestrictEntry h pmatch with
  | .flags, none => addRes inc h v pmatch
  | .flags, some res => addFlags h v res pmatch.flags
  | .unflag, none => (h, v)
  | .unflag, some res => removeFlags h v res pmatch.flags
  | .remove, none => (h, v)
  | .remove, some res =>
    if RESM_INTERFACE &&& (h.mem res).mflags = 0 ∧ res ≠ 0 then freeRes h v res else (h, v)
  | .removeif, none => (h, v)
  | .removeif, some res => if res ≠ 0 then freeRes h v res else (h, v)

/-- What `restrictions` does with the entry that was found. -/
def countMatch (r : (ResHeap w × ResVars) × Option Nat) :
    (ResHeap w × ResVars) × BitVec 16 × Option Nat :=
  match r.2 with
  | none => ((r.1.1, { r.1.2 with aborted := true }), 0, none)
  | some res =>
    let h := r.1.1.modify res fun e => { e with count := e.count + 1 }
    let v := if res = 0 then { r.1.2 with res_not_found := r.1.2.res_not_found + 1 }
      else { r.1.2 with res_found := r.1.2.res_found + 1 }
    ((h, v), (h.mem res).flags, some res)

/-- The addition of `restrict_source`: nothing if there is an entry for the
    host, unless it is one that expires and the new one does not. -/
def sourceList (inc : Nat) (insist : Bool) (h : ResHeap w) (v : ResVars) (current_time : Nat)
    (addr : BitVec w) (port expire : Nat) : ResHeap w × ResVars :=
  let r := matchLoop insist current_time addr port h.list h v
  match r.2 with
  | none => (r.1.1, { r.1.2 with aborted := true })
  | some res =>
    let specific : Bool := (r.1.1.mem res).mask = BitVec.allOnes w
    let replace : Bool := expire = 0 && specific && (r.1.1.mem res).expire ≠ 0
    let r := if replace then freeRes r.1.1 r.1.2 res else r.1
    if specific && !replace then r
    else hackList inc r.1 r.2 .flags
      { addr := addr &&& BitVec.allOnes w, mask := BitVec.allOnes w,
        mflags := r.2.restrict_source_mflags, flags := r.2.restrict_source_flags,
        expire := expire }

end

/-! ### Both families -/

/-- The lists. -/
structure RestrictSys where
  v4 : ResHeap 32 := {}
  v6 : ResHeap 128 := {}
  vars : ResVars := {}
  current_time : Nat := 0

/-- The address of a source, with its port. -/
inductive ResAddr where
  | v4 (addr : BitVec 32) (port : Nat)
  | v6 (addr : BitVec 128) (port : Nat)
deriving DecidableEq, Repr

/-- `IS_MCAST`. -/
def ResAddr.isMcast : ResAddr → Bool
  | .v4 addr _ => addr &&& 0xf0000000 = 0xe0000000
  | .v6 addr _ => addr >>> 120 = 0xff

/-- `SOCK_UNSPEC`. -/
def ResAddr.isUnspec : ResAddr → Bool
  | .v4 addr _ => addr = 0
  | .v6 addr _ => addr = 0

/-- `ISREFCLOCKADR`. -/
def ResAddr.isRefclock : ResAddr → Bool
  | .v4 addr _ => addr &&& 0xffff0000 = 0x7f7f0000
  | .v6 _ _ => false

/-- What a lookup returns, and the entry whose count it increments. -/
structure Restricted where
  flags : BitVec 16
  counted : Option Nat
deriving DecidableEq, Repr

/-- `match_restrict4_addr`. -/
def matchRestrict4Addr (s : RestrictSys) (addr : BitVec 32) (port : Nat) :
    (ResHeap 32 × ResVars) × Option Nat :=
  matchLoop false s.current_time addr port s.v4.list s.v4 s.vars

/-- `match_restrict6_addr`. -/
def matchRestrict6Addr (s : RestrictSys) (addr : BitVec 128) (port : Nat) :
    (ResHeap 128 × ResVars) × Option Nat :=
  matchLoop true s.current_time addr port s.v6.list s.v6 s.vars

/-- `restrictions`. Sources with a multicast address are ignored without a lookup. -/
def restrictions (s : RestrictSys) (srcadr : ResAddr) : RestrictSys × Restricted :=
  let s := { s with vars := { s.vars with res_calls := s.vars.res_calls + 1 } }
  if srcadr.isMcast then (s, ⟨RES_IGNORE, none⟩)
  else
    match srcadr with
    | .v4 addr port =>
      let r := countMatch (matchRestrict4Addr s addr port)
      ({ s with v4 := r.1.1, vars := r.1.2 }, ⟨r.2.1, r.2.2⟩)
    | .v6 addr port =>
      let r := countMatch (matchRestrict6Addr s addr port)
      ({ s with v6 := r.1.1, vars := r.1.2 }, ⟨r.2.1, r.2.2⟩)

/-- The address and mask of a restriction, or none for the template of `restrict source`. -/
inductive ResSpec where
  | source
  | v4 (addr mask : BitVec 32)
  | v6 (addr mask : BitVec 128)
deriving DecidableEq, Repr

/-- `hack_restrict`. -/
def hackRestrict (s : RestrictSys) (op : RestrictOp) (spec : ResSpec)
    (mflags flags : BitVec 16) (expire : Nat) : RestrictSys :=
  match spec with
  | .source =>
    if op = .flags then
      { s with vars := { s.vars with
        restrict_source_flags := flags
        restrict_source_mflags := mflags
        restrict_source_enabled := true } }
    else { s with vars := { s.vars with aborted := true } }
  | .v4 addr mask =>
    let r := hackList INC_RESLIST4 s.v4 s.vars op
      { flags := flags, mflags := mflags, expire := expire, addr := addr &&& mask, mask := mask }
    { s with v4 := r.1, vars := r.2 }
  | .v6 addr mask =>
    let r := hackList INC_RESLIST6 s.v6 s.vars op
      { flags := flags, mflags := mflags, expire := expire, addr := addr &&& mask, mask := mask }
    { s with v6 := r.1, vars := r.2 }

/-- The host mask for an address. -/
def ResAddr.host : ResAddr → ResSpec
  | .v4 addr _ => .v4 addr (BitVec.allOnes 32)
  | .v6 addr _ => .v6 addr (BitVec.allOnes 128)

/-- `restrict_source`. -/
def restrictSource (s : RestrictSys) (addr : ResAddr) (farewell : Bool) (expire : Nat) :
    RestrictSys :=
  if !s.vars.restrict_source_enabled || addr.isUnspec || addr.isMcast || addr.isRefclock then s
  else if farewell then hackRestrict s .remove addr.host 0 0 0
  else
    match addr with
    | .v4 a port =>
      let r := sourceList INC_RESLIST4 false s.v4 s.vars s.current_time a port expire
      { s with v4 := r.1, vars := r.2 }
    | .v6 a port =>
      let r := sourceList INC_RESLIST6 true s.v6 s.vars s.current_time a port expire
      { s with v6 := r.1, vars := r.2 }

/-- What can happen next. -/
inductive RestrictEvent where
  | hack (op : RestrictOp) (spec : ResSpec) (mflags flags : BitVec 16) (expire : Nat)
  | source (addr : ResAddr) (farewell : Bool) (expire : Nat)
  | lookup (srcadr : ResAddr)
  | pass (seconds : Nat)
  | monitor (on : Bool)
deriving DecidableEq, Repr

/-- One step. -/
def restrictStep (s : RestrictSys) : RestrictEvent → RestrictSys
  | .hack op spec mflags flags expire => hackRestrict s op spec mflags flags expire
  | .source addr farewell expire => restrictSource s addr farewell expire
  | .lookup srcadr => (restrictions s srcadr).1
  | .pass seconds => { s with current_time := s.current_time + seconds }
  | .monitor on =>
    { s with vars := if on then monStart s.vars MON_ON else monStop s.vars MON_ON }

end NtpSuite
