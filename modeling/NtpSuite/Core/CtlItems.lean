import NtpSuite.Core.NtpqVars
import NtpSuite.Core.Configure
import NtpSuite.Lib.Loop

/-!
# The Items of a Request

The data of a request for variables is a list of items with commas between them. An
item is the name of a variable, or a name and a value. `ctl_getitem` reads the next
item and looks for its name in a list of variables. The functions that answer such a
request call it in a loop.

There are lists of the variables that are built in, and lists of those that an
administrator or a clock driver adds. The code of a variable is its position in the
list, and the list ends where the source has an entry with the flag `EOV`. The null
pointer is the empty list.

The value of an item is copied to a buffer of 128 octets. A longer one is an error that
`ctl_getitem` reports itself, and then it returns the null pointer, as it does at the
end of the data.

## Main definitions

* `CtlVar`: A variable.
* `ctlGetitem`: The next item.
* `setVar`: A variable is set.
* `sysVar`, `peerVar`, `clockVar`: The variables that are built in.
* `peerTurn`, `wantTurn`, `writeTurn`: The loops over the items.
-/

namespace NtpSuite.Control

open Ntpq (isspace isdigit trimEnd cstring COMMA EQUALS)

def CAN_READ : BitVec 16 := 0x01
def CAN_WRITE : BitVec 16 := 0x02
def DEF : BitVec 16 := 0x20
def PADDING : BitVec 16 := 0x40
def RO : BitVec 16 := CAN_READ
def RW : BitVec 16 := CAN_READ ||| CAN_WRITE

/-- The octets of `buf` in `ctl_getitem`. -/
def ITEM_SIZE : Nat := 128

/-- A variable: its flags, and its name or its name and its value. -/
structure CtlVar where
  flags : BitVec 16
  text : CStr
deriving DecidableEq, Repr

/-- The name of a variable. -/
def CtlVar.name (v : CtlVar) : CStr := v.text.takeWhile fun c => c ≠ 0 ∧ c ≠ EQUALS

/-- The item is that of a variable: the name is followed by the end of the item or by a
    value. It is what stands behind the name. -/
def CtlVar.spelled (v : CtlVar) (cp : CStr) : Option CStr :=
  if v.flags &&& PADDING = 0 ∧ cp.head? = some (v.text.headD 0) ∧ v.name.isPrefixOf cp then
    let rest := (cp.drop v.name.length).dropWhile isspace
    if rest = [] ∨ rest.head? = some COMMA ∨ rest.head? = some EQUALS then some rest else none
  else none

/-- The first variable whose item it is, with its position. -/
def lookup (cp : CStr) : List CtlVar → Option (Nat × CtlVar × CStr)
  | [] => none
  | v :: vs =>
    match v.spelled cp with
    | some rest => some (0, v, rest)
    | none => (lookup cp vs).map fun r => (r.1 + 1, r.2)

/-- What `ctl_getitem` returns: the null pointer at the end of the data or after an error, the end
    of the list, or a variable with the value and what is left of the data. -/
inductive Getitem where
  | finish
  | overlong
  | eov
  | var (code : Nat) (v : CtlVar) (data reqpt : CStr)
deriving DecidableEq, Repr

/-- Leading commas and white space are skipped. -/
def skipSeps (reqpt : CStr) : CStr := reqpt.dropWhile fun c => c = COMMA ∨ isspace c

/-- The value behind a name. -/
def itemValue (code : Nat) (v : CtlVar) (rest : CStr) : Getitem :=
  if rest.head? = some EQUALS then
    let cp := (rest.drop 1).dropWhile isspace
    let value := cp.takeWhile (· ≠ COMMA)
    if value.length ≥ ITEM_SIZE then .overlong
    else .var code v (trimEnd value) ((cp.dropWhile (· ≠ COMMA)).drop 1)
  else .var code v [] (rest.drop 1)

/-- `ctl_getitem`. -/
def ctlGetitem (var_list : List CtlVar) (reqpt : CStr) : Getitem :=
  let reqpt := skipSeps reqpt
  if reqpt = [] then .finish
  else
    match lookup reqpt var_list with
    | none => .eov
    | some (code, v, rest) => itemValue code v rest

/-- The text begins with the same name and an equals sign. -/
def sameVar (data text : CStr) : Bool :=
  data.takeWhile (· ≠ EQUALS) == text.takeWhile (· ≠ EQUALS) && text.contains EQUALS

/-- `set_var`, for a text with an equals sign. -/
def setVar (data : CStr) (flags : BitVec 16) : List CtlVar → List CtlVar
  | [] => [⟨flags, data⟩]
  | v :: vs => if sameVar data v.text then ⟨flags, data⟩ :: vs else v :: setVar data flags vs

/-! ### The variables that are built in -/

/-- A list of variables that can be read. The first entry is not used. -/
def readOnly (names : List String) : List CtlVar :=
  ⟨PADDING, []⟩ :: names.map fun s => ⟨RO, octets s⟩

def CS_MAXCODE (autokey : Bool) : Nat := if autokey then 96 else 88
def CP_MAXCODE (autokey : Bool) : Nat := if autokey then 58 else 50
def CC_MAXCODE : Nat := 13

/-- The names of the system variables but the first one. -/
def sysNames : List String :=
  ["stratum", "precision", "rootdelay", "rootdisp", "refid", "reftime", "tc", "peer", "offset",
    "frequency", "sys_jitter", "clk_jitter", "clock", "processor", "system", "version",
    "clk_wander", "sys_var_list", "tai", "leapsec", "expire", "mintc", "mru_enabled", "mru_depth",
    "mru_deepest", "mru_mindepth", "mru_maxage", "mru_maxdepth", "mru_mem", "mru_maxmem",
    "ss_uptime", "ss_reset", "ss_received", "ss_thisver", "ss_oldver", "ss_badformat",
    "ss_badauth", "ss_declined", "ss_restricted", "ss_limited", "ss_kodsent", "ss_processed",
    "peeradr", "peermode", "bcastdelay", "authdelay", "authkeys", "authfreek", "authklookups",
    "authknotfound", "authkuncached", "authkexpired", "authencrypts", "authdecrypts", "authreset",
    "koffset", "kfreq", "kmaxerr", "kesterr", "kstflags", "ktimeconst", "kprecis", "kfreqtol",
    "kppsfreq", "kppsstab", "kppsjitter", "kppscalibdur", "kppscalibs", "kppscaliberrs",
    "kppsjitexc", "kppsstbexc", "iostats_reset", "total_rbuf", "free_rbuf", "used_rbuf",
    "rbuf_lowater", "io_dropped", "io_ignored", "io_received", "io_sent", "io_sendfailed",
    "io_wakeups", "io_goodwakeups", "timerstats_reset", "timer_overruns", "timer_xmts", "fuzz"]

/-- `sys_var`: the leap indicator is the only one that can be written. -/
def sysVar (autokey : Bool) : List CtlVar :=
  ⟨PADDING, []⟩ :: ⟨RW, octets "leap"⟩ ::
    (sysNames ++ if autokey then ["flags", "host", "update", "cert", "signature", "until", "ident",
      "digest"] else []).map fun s => ⟨RO, octets s⟩

/-- `def_sys_var`. -/
def defSysVar (autokey : Bool) : List Nat :=
  [17, 15, 16, 1, 2, 3, 4, 5, 6, 7, 14, 9, 8, 23, 10, 11, 12, 13, 18, 20, 21, 22] ++
    if autokey then [90, 95, 89, 96, 93, 91, 92] else []

/-- `peer_var`. -/
def peerVar (autokey : Bool) : List CtlVar :=
  readOnly (["config", "authenable", "authentic", "srcadr", "srcport", "dstadr", "dstport",
    "leap", "hmode", "stratum", "ppoll", "hpoll", "precision", "rootdelay", "rootdisp", "refid",
    "reftime", "org", "rec", "xleave", "reach", "unreach", "timer", "delay", "offset", "jitter",
    "dispersion", "keyid", "filtdelay", "filtoffset", "pmode", "received", "sent", "filtdisp",
    "flash", "ttl", "peer_var_list", "in", "out", "headway", "bias", "srchost", "timerec",
    "timereach", "badauth", "bogusorg", "oldpkt", "seldisp", "selbroken", "candidate"] ++
    if autokey then ["flags", "host", "valid", "initsequence", "initkey", "timestamp", "signature",
      "ident"] else [])

/-- `def_peer_var`. -/
def defPeerVar (autokey : Bool) : List Nat :=
  [4, 5, 42, 6, 7, 39, 38, 8, 10, 13, 14, 15, 16, 17, 19, 21, 22, 9, 31, 12, 11, 40, 35, 28, 36, 25,
    24, 27, 26, 20, 41, 29, 30, 34] ++ if autokey then [52, 51, 57, 53, 54, 58] else []

/-- `clock_var`. -/
def clockVar : List CtlVar :=
  readOnly ["type", "timecode", "poll", "noreply", "badformat", "baddata", "fudgetime1",
    "fudgetime2", "stratum", "refid", "flags", "device", "clock_var_list"]

/-- `def_clock_var`. -/
def defClockVar : List Nat := [12, 1, 2, 3, 4, 5, 6, 7, 8, 9, 10, 11]

/-! ### The loops over the items -/

/-- How a loop over the items of a request for variables ends: at the end of the data or
    after the error that `ctl_getitem` reports, with the codes that are wanted so far; at a
    name that is not known; or at an assertion, after the error or not. -/
inductive Wanted where
  | finish (wants : List Nat)
  | overlong (wants : List Nat)
  | unknown
  | insist (overlong : Bool)
deriving DecidableEq, Repr

/-- What is left of the data, and the codes that are wanted. -/
structure Wanting where
  reqpt : CStr
  wants : List Nat
deriving DecidableEq, Repr

/-- The loop of `read_peervars`. -/
def peerTurn (autokey : Bool) (s : Wanting) : Wanting ⊕ Wanted :=
  match ctlGetitem (peerVar autokey) s.reqpt with
  | .finish => .inr (.finish s.wants)
  | .overlong => .inr (.overlong s.wants)
  | .eov => .inr .unknown
  | .var code _ _ reqpt => .inl ⟨reqpt, code :: s.wants⟩

/-- The loop of `read_sysvars` and `read_clockstatus`. A name that is not built in, up to the
    code `maxcode`, is looked for in the second list. -/
def wantTurn (var_list : List CtlVar) (maxcode : Nat) (kv : List CtlVar) (s : Wanting) :
    Wanting ⊕ Wanted :=
  match ctlGetitem var_list s.reqpt with
  | .finish => .inr (.finish s.wants)
  | .overlong => .inr (.overlong s.wants)
  | .var code _ _ reqpt => .inl ⟨reqpt, code :: s.wants⟩
  | .eov =>
    match ctlGetitem kv s.reqpt with
    | .finish => .inr (.insist false)
    | .overlong => .inr (.insist true)
    | .eov => .inr .unknown
    | .var code _ _ reqpt => .inl ⟨reqpt, (maxcode + 1 + code) :: s.wants⟩

/-- How the loop of `write_variables` ends: at the end of the data, after the error that
    `ctl_getitem` reports, or with an error. -/
inductive Written where
  | finish
  | overlong
  | refused (errcode : CtlErr)
deriving DecidableEq, Repr

/-- What is left of the data, and the variables that were added. -/
structure Writing where
  reqpt : CStr
  ext_sys_var : List CtlVar
deriving DecidableEq, Repr

/-- The loop of `atoint`. -/
def atointDigits (oflow_digit : Nat) : Nat → CStr → Option Nat
  | u, [] => some u
  | u, c :: cp =>
    if ¬ isdigit c then none
    else if u > 214748364 ∨ u = 214748364 ∧ c.toNat > oflow_digit then none
    else atointDigits oflow_digit (u * 10 + (c.toNat - 0x30)) cp

/-- `atoint`. -/
def atoint (str : CStr) : Option Int :=
  if str.head? = some 0x2d then
    if str.drop 1 = [] then none else (atointDigits 0x38 0 (str.drop 1)).map fun u => -(u : Int)
  else if str = [] then none
  else (atointDigits 0x37 0 str).map fun u => (u : Int)

/-- A variable that is built in is written. There is none for which this works. -/
def writeBuiltin (v : CtlVar) (data : CStr) : CtlErr :=
  if v.flags &&& CAN_WRITE = 0 then .permission
  else if cstring data = [] then .badfmt
  else
    match atoint (cstring data) with
    | none => .badfmt
    | some val => if 0 ≤ val ∧ val ≤ 3 then .unspec else .badvalue

/-- The loop of `write_variables`. -/
def writeTurn (var_list : List CtlVar) (s : Writing) : Writing ⊕ (Writing × Written) :=
  match ctlGetitem var_list s.reqpt with
  | .finish => .inr (s, .finish)
  | .overlong => .inr (s, .overlong)
  | .var _ v data _ => .inr (s, .refused (writeBuiltin v data))
  | .eov =>
    match ctlGetitem s.ext_sys_var s.reqpt with
    | .finish => .inr (s, .finish)
    | .overlong => .inr (s, .overlong)
    | .eov => .inr (s, .refused .unknownvar)
    | .var _ v data reqpt =>
      if v.flags &&& CAN_WRITE = 0 then .inr (s, .refused .permission)
      else .inl ⟨reqpt, setVar (v.name ++ [EQUALS] ++ cstring data) v.flags s.ext_sys_var⟩

/-- The items of a request for variables of a peer. -/
def peerItems (autokey : Bool) (data : CStr) : Wanted :=
  Loop.turns (peerTurn autokey) .unknown (data.length + 1) ⟨data, []⟩

/-- The items of a request for system variables or variables of a clock. -/
def wantItems (var_list : List CtlVar) (maxcode : Nat) (kv : List CtlVar) (data : CStr) : Wanted :=
  Loop.turns (wantTurn var_list maxcode kv) .unknown (data.length + 1) ⟨data, []⟩

/-- The items of a request to write variables. -/
def writeItems (var_list : List CtlVar) (data : CStr) (ext_sys_var : List CtlVar) :
    Writing × Written :=
  Loop.turns (writeTurn var_list) (⟨data, ext_sys_var⟩, .finish) (data.length + 1)
    ⟨data, ext_sys_var⟩

end NtpSuite.Control
