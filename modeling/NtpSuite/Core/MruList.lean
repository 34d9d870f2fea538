import NtpSuite.Core.CtlServer
import NtpSuite.Core.Monitor

/-!
# The Request for the MRU List

`read_mru_list` returns entries of the MRU list, from the oldest to the latest one. The
server keeps no state between the requests for one list. A request tells it the latest
entries the client has, as pairs of an address and a time, and the server goes on
behind the first of these pairs that still is in the list. How much it returns is
limited by the number of packets or by the number of entries.

The parameters are items of the request that are read with `ctl_getitem`. Addresses
are converted by `decodenetnum`, which has an assertion about the length of its argument.

The names of the entries' fields have the number of the entry, and the six fields of an
entry are in a random order. Entries have their time of first and last receipt, the
number of packets, mode and version, and the restrict mask. A variable of a random name
follows the first and the last entry.

The random numbers, the nonce and the functions of the C library that convert texts
are parameters.

## Main definitions

* `decodenetnum`: An address and a port.
* `MruParms`, `mruTurn`, `mruItems`: The parameters of a request.
* `MruVar`: A variable of the response.
* `mruLoop`: The loop over the entries.
* `mruReply`: The response.
-/

namespace NtpSuite.Control

open Mon
open Ntpq (cstring COMMA EQUALS)

def MRU_ROW_LIMIT : Nat := 256
def MRU_FRAGS_LIMIT : Nat := 128
def UINT_MAX : Nat := 2 ^ 32 - 1

/-- The octets of `name` in `decodenetnum`. -/
def NETNUM_SIZE : Nat := 80

/-- The number of pairs a request can have. -/
def MRU_PRIORS : Nat := 16

/-! ### Addresses -/

/-- The functions of the C library that convert texts: `getaddrinfo` for a numeric address,
    and `sscanf` with the formats `%hu`, `%u`, `%d`, `0x%hx` and `0x%08x.%08x`, which
    converts nothing or everything. -/
structure Libc where
  getaddrinfo : CStr → Option SockAddr
  scanHu : CStr → Option (BitVec 16)
  scanU : CStr → Option (BitVec 32)
  scanD : CStr → Option Int
  scanHx : CStr → Option (BitVec 16)
  scanTs : CStr → Option LFp

/-- The host and the port in a text: one colon stands before a port, and brackets stand
    around an address with colons. -/
def splitNetnum (num : CStr) : CStr × Option CStr :=
  if num.head? ≠ some 0x5b then
    let rest := (num.dropWhile (· ≠ 0x3a)).drop 1
    if 0x3a ∉ num ∨ 0x3a ∈ rest then (num, none)
    else (num.takeWhile (· ≠ 0x3a), some rest)
  else
    let rest := (num.drop 1).dropWhile (· ≠ 0x5d)
    ((num.drop 1).takeWhile (· ≠ 0x5d),
      if rest.take 2 = [0x5d, 0x3a] ∧ rest.drop 2 ≠ [] then some (rest.drop 2) else none)

/-- `decodenetnum`, behind its assertion. -/
def decodenetnum (lib : Libc) (num : CStr) : Option SockAddr :=
  let parts := splitNetnum num
  (lib.getaddrinfo parts.1).map fun netnum =>
    { netnum with port := ((parts.2.bind lib.scanHu).map BitVec.toNat).getD 123 }

/-- `SOCK_UNSPEC`. -/
def sockUnspec (addr : SockAddr) : Bool := addr.addr == 0

/-! ### Parameters -/

/-- The parameters of a request. The entries of `last` and `addr` are the pairs. -/
structure MruParms where
  pnonce : Option CStr := none
  frags : BitVec 16 := 0
  limit : BitVec 32 := 0
  mincount : Int := 0
  resall : BitVec 16 := 0
  resany : BitVec 16 := 0
  maxlstint : BitVec 32 := 0
  lcladr : Option Nat := none
  priors : Nat := 0
  last : List LFp := List.replicate MRU_PRIORS 0
  addr : List SockAddr := List.replicate MRU_PRIORS ⟨.unspec, 0, 0, 0⟩
deriving DecidableEq, Repr

/-- The name of a parameter with a number. -/
def numbered (name : String) (i : Nat) : CStr := octets name ++ [0x2e] ++ decimal i

/-- `in_parms`. -/
def inParms : List CtlVar :=
  (["nonce", "frags", "limit", "mincount", "resall", "resany", "maxlstint", "laddr"].map octets ++
    (List.range MRU_PRIORS).flatMap fun i => [numbered "last" i, numbered "addr" i]).map
    fun text => ⟨0, text⟩

/-- The parameters by their position in `in_parms`. -/
inductive MruParm where
  | nonce
  | frags
  | limit
  | mincount
  | resall
  | resany
  | maxlstint
  | laddr
  | last (i : Nat)
  | addr (i : Nat)
deriving DecidableEq, Repr

def MruParm.ofCode : Nat → MruParm
  | 0 => .nonce
  | 1 => .frags
  | 2 => .limit
  | 3 => .mincount
  | 4 => .resall
  | 5 => .resany
  | 6 => .maxlstint
  | 7 => .laddr
  | k + 8 => if k % 2 = 0 then .last (k / 2) else .addr (k / 2)

/-- The parameter is an address, which `decodenetnum` converts. -/
def MruParm.isAddr : MruParm → Bool
  | .laddr | .addr _ => true
  | _ => false

namespace MruParms

/-- The time of a pair. The pair counts if its address is there and it is the next one. -/
def setLast (p : MruParms) (i : Nat) (ts : LFp) : MruParms :=
  { p with
    last := p.last.set i ts
    priors := if !sockUnspec (p.addr.getD i ⟨.unspec, 0, 0, 0⟩) ∧ i = p.priors then p.priors + 1
      else p.priors }

/-- The address of a pair. The pair counts if its time is there, with a fraction that is not
    zero, and it is the next one. -/
def setAddr (p : MruParms) (i : Nat) (addr : SockAddr) : MruParms :=
  let ts := p.last.getD i 0
  { p with
    addr := p.addr.set i addr
    priors := if ts.extractLsb' 32 32 ≠ 0 ∧ ts.extractLsb' 0 32 ≠ 0 ∧ i = p.priors then p.priors + 1
      else p.priors }

/-- A parameter is decoded. `val` is a string, and `getinterface` the endpoint for an address. -/
def set (lib : Libc) (getinterface : SockAddr → Option Nat) (p : MruParms) (parm : MruParm)
    (val : CStr) : MruParms :=
  match parm with
  | .nonce => { p with pnonce := some val }
  | .frags => { p with frags := (lib.scanHu val).getD p.frags }
  | .limit => { p with limit := (lib.scanU val).getD p.limit }
  | .mincount => { p with mincount := max 0 ((lib.scanD val).getD 0) }
  | .resall => { p with resall := (lib.scanHx val).getD p.resall }
  | .resany => { p with resany := (lib.scanHx val).getD p.resany }
  | .maxlstint => { p with maxlstint := (lib.scanU val).getD p.maxlstint }
  | .laddr => (decodenetnum lib val).elim p fun addr => { p with lcladr := getinterface addr }
  | .last i => (lib.scanTs val).elim p (p.setLast i)
  | .addr i => (decodenetnum lib val).elim p (p.setAddr i)

end MruParms

/-- What is left of the data, the parameters so far, and what `decodenetnum` was called with. -/
structure MruParse where
  reqpt : CStr
  parms : MruParms := {}
  decoded : List CStr := []
deriving DecidableEq, Repr

/-- How the loop over the parameters ends: at the end of the data or at a name that is not known;
    after the error that `ctl_getitem` reports; or at the assertion of `decodenetnum`. -/
inductive MruEnd where
  | finish
  | overlong
  | insist
deriving DecidableEq, Repr

/-- The loop over the parameters. -/
def mruTurn (lib : Libc) (getinterface : SockAddr → Option Nat) (s : MruParse) :
    MruParse ⊕ (MruParse × MruEnd) :=
  match ctlGetitem inParms s.reqpt with
  | .finish => .inr (s, .finish)
  | .overlong => .inr (s, .overlong)
  | .eov => .inr (s, .finish)
  | .var code _ data reqpt =>
    let val := cstring data
    let parm := MruParm.ofCode code
    if parm.isAddr then
      let s := { s with decoded := val :: s.decoded }
      if val.length ≥ NETNUM_SIZE then .inr (s, .insist)
      else .inl { s with reqpt := reqpt, parms := s.parms.set lib getinterface parm val }
    else .inl { s with reqpt := reqpt, parms := s.parms.set lib getinterface parm val }

/-- The parameters of a request. -/
def mruItems (lib : Libc) (getinterface : SockAddr → Option Nat) (data : CStr) :
    MruParse × MruEnd :=
  Loop.turns (mruTurn lib getinterface) ({ reqpt := data }, .finish) (data.length + 1)
    { reqpt := data }

/-! ### Variables of the response -/

/-- A variable of the response. -/
inductive MruVar where
  | lastOlder (ts : LFp)
  | addrOlder (addr : SockAddr)
  | nonce (text : CStr)
  | addr (i : Nat) (addr : SockAddr)
  | last (i : Nat) (ts : LFp)
  | first (i : Nat) (ts : LFp)
  | ct (i : Nat) (count : Int)
  | mv (i : Nat) (vn_mode : BitVec 8)
  | rs (i : Nat) (flags : BitVec 16)
  | noise (i : Nat) (tag : CStr) (value : Nat)
  | now (ts : LFp)
  | lastNewest (ts : LFp)
deriving DecidableEq, Repr

/-- A hexadecimal number. -/
def hexadecimal (n : Nat) : CStr :=
  (Nat.toDigits 16 n).map fun c => BitVec.ofNat 8 c.toNat

/-- A hexadecimal number of eight digits. -/
def hex8 (n : Nat) : CStr := List.replicate (8 - (hexadecimal n).length) 0x30 ++ hexadecimal n

/-- A time as it is printed. -/
def timestamp (ts : LFp) : CStr :=
  octets "0x" ++ hex8 (ts.toNat / 2 ^ 32) ++ [0x2e] ++ hex8 (ts.toNat % 2 ^ 32)

/-- A name with a number, in a buffer of 32 octets. -/
def tag (name : String) (i : Nat) : CStr := (numbered name i).take 31

/-- What does not depend on the list: the text for an address, which is in a buffer of 128
    octets, the random numbers for the order of an entry's fields and for a variable, the
    nonce, which is in a buffer of 128 octets, and the time. -/
structure MruCtx where
  sptoa : SockAddr → CStr
  length_sptoa : ∀ addr, (sptoa addr).length < 128
  order : Nat → BitVec 32
  random : Nat → CStr × Nat
  nonce : CStr
  length_nonce : nonce.length < 128
  now : LFp

/-- How a variable is put into the response. -/
def MruVar.put (sptoa : SockAddr → CStr) : MruVar → CtlPut
  | .lastOlder ts => .data (octets "last.older=" ++ timestamp ts) false
  | .addrOlder a => .unqstr (octets "addr.older") (sptoa a)
  | .nonce text => .unqstr (octets "nonce") text
  | .addr i a => .unqstr (tag "addr" i) (sptoa a)
  | .last i ts => .data (tag "last" i ++ [EQUALS] ++ timestamp ts) false
  | .first i ts => .data (tag "first" i ++ [EQUALS] ++ timestamp ts) false
  | .ct i count => .data (tag "ct" i ++ [EQUALS] ++ decimal count) false
  | .mv i vn_mode => .data (tag "mv" i ++ [EQUALS] ++ decimal vn_mode.toNat) false
  | .rs i flags => .data (tag "rs" i ++ [EQUALS] ++ octets "0x" ++ hexadecimal flags.toNat) false
  | .noise i name value => .data (name ++ [0x2e] ++ decimal i ++ [EQUALS] ++ decimal value) false
  | .now ts => .data (octets "now=" ++ timestamp ts) false
  | .lastNewest ts => .data (octets "last.newest=" ++ timestamp ts) false

/-- The response so far: the variables in it, the number of entries, and the last of these. -/
structure MruOut where
  srv : CtlSrv
  vars : List MruVar := []
  count : Nat := 0
  prior_mon : Option MonEntry := none

/-- A variable is put into the response. -/
def MruOut.put (env : CtlEnv) (x : MruCtx) (o : MruOut) (v : MruVar) : MruOut :=
  { o with srv := o.srv.call env (v.put x.sptoa).call, vars := o.vars ++ [v] }

/-- The next field to be sent: `which`, or the next one that was not sent. -/
def nextField (which : Nat) (sent : List Nat) : Nat :=
  (((List.range 6).map fun j => (which + j) % 6).find? (· ∉ sent)).getD 0

/-- The loop of `send_mru_entry`: the order of so many more fields. -/
def fieldOrder : Nat → BitVec 32 → List Nat → List Nat
  | 0, _, sent => sent
  | remaining + 1, noise, sent =>
    fieldOrder remaining (noise >>> 3) (sent ++ [nextField ((noise &&& 7).toNat % 6) sent])

/-- A field of an entry. -/
def mruField (mon : MonEntry) (i : Nat) : Nat → MruVar
  | 0 => .addr i mon.rmtadr
  | 1 => .last i mon.last
  | 2 => .first i mon.first
  | 3 => .ct i mon.count.toInt
  | 4 => .mv i mon.vn_mode
  | _ => .rs i mon.flags

/-- `send_mru_entry`. -/
def sendMruEntry (env : CtlEnv) (x : MruCtx) (mon : MonEntry) (o : MruOut) : MruOut :=
  ((fieldOrder 6 (x.order o.count) []).map (mruField mon o.count)).foldl (MruOut.put env x) o

/-- `send_random_tag_value`. -/
def sendRandomTagValue (env : CtlEnv) (x : MruCtx) (indx : Nat) (o : MruOut) : MruOut :=
  o.put env x (.noise indx (x.random indx).1 (x.random indx).2)

/-- The entry is left out. -/
def MruParms.skips (p : MruParms) (now : LFp) (mon : MonEntry) : Bool :=
  decide (mon.count.toInt < p.mincount)
    || (p.resall != 0 && p.resall != p.resall &&& mon.flags)
    || (p.resany != 0 && p.resany &&& mon.flags == 0)
    || (p.maxlstint != 0 &&
      decide (p.maxlstint < now.extractLsb' 32 32 - mon.last.extractLsb' 32 32))
    || p.lcladr.any (· != mon.lcladr)

/-- The loop over the entries, for so many packets and entries at most. It is the response
    and if all entries were looked at. -/
def mruLoop (env : CtlEnv) (x : MruCtx) (p : MruParms) (frags limit : Nat) :
    List MonEntry → MruOut → MruOut × Bool
  | [], o => (o, true)
  | mon :: mons, o =>
    if o.srv.ctl.res_frags < frags ∧ o.count < limit then
      if p.skips x.now mon then mruLoop env x p frags limit mons o
      else
        let sent := sendMruEntry env x mon o
        let sent := if o.count = 0 then sendRandomTagValue env x 0 sent else sent
        mruLoop env x p frags limit mons { sent with count := o.count + 1, prior_mon := some mon }
    else (o, false)

/-- The entry of the first pair that is unchanged. -/
def mruStart (s : MonSys) (pairs : List (SockAddr × LFp)) : Option Nat :=
  pairs.findSome? fun pair =>
    ((s.mon_hash (monHash s.mon_hash_bits pair.1)).find? fun mon =>
      (s.mem mon).rmtadr.addrPortEq pair.1).filter fun mon => (s.mem mon).last = pair.2

/-- The entries from the oldest to the latest one. -/
def MonSys.oldestFirst (s : MonSys) : List Nat := s.mon_mru_list.reverse

/-- The pairs of a request. -/
def MruParms.pairs (p : MruParms) : List (SockAddr × LFp) := (p.addr.zip p.last).take p.priors

/-- `frags` is out of range, or it is missing and so is `limit` or that is out of range. -/
def MruParms.badValue (p : MruParms) : Bool :=
  decide (p.frags = 0 ∧ ¬ (0 < p.limit.toNat ∧ p.limit.toNat ≤ MRU_ROW_LIMIT)
    ∨ p.frags.toNat > MRU_FRAGS_LIMIT)

/-- The number of entries that may be sent. -/
def MruParms.rows (p : MruParms) : Nat :=
  if p.frags ≠ 0 ∧ p.limit = 0 then UINT_MAX else p.limit.toNat

/-- The number of packets that may be sent. -/
def MruParms.packets (p : MruParms) : Nat :=
  if p.limit ≠ 0 ∧ p.frags = 0 then MRU_FRAGS_LIMIT else p.frags.toNat

/-- The entries behind the starting point. -/
def mruEntries (s : MonSys) (p : MruParms) (start : Option Nat) : List MonEntry :=
  (match start with
    | none => MonSys.oldestFirst s
    | some mon =>
      ((MonSys.oldestFirst s).dropWhile (· ≠ mon)).drop (if p.rows > 1 then 1 else 0)).map s.mem

/-- The starting point is confirmed, and the nonce follows. -/
def mruBegin (env : CtlEnv) (x : MruCtx) (s : MonSys) (start : Option Nat) (o : MruOut) : MruOut :=
  let o := match start with
    | none => o
    | some mon =>
      (o.put env x (.lastOlder (s.mem mon).last)).put env x (.addrOlder (s.mem mon).rmtadr)
  o.put env x (.nonce x.nonce)

/-- The end of the list. -/
def mruFinish (env : CtlEnv) (x : MruCtx) (o : MruOut) : MruOut :=
  let o := if o.count > 1 then sendRandomTagValue env x (o.count - 1) o else o
  let o := o.put env x (.now x.now)
  match o.prior_mon with
  | none => o
  | some mon => o.put env x (.lastNewest mon.last)

/-- The response to a request whose nonce is valid: an error, or variables. -/
def mruReply (env : CtlEnv) (x : MruCtx) (s : MonSys) (p : MruParms) (h : CtlSrv) :
    CtlSrv × Except CtlErr (List MruVar) :=
  if p.badValue then (h.error env .badvalue, .error .badvalue)
  else
    let start := mruStart s p.pairs
    if p.priors ≠ 0 ∧ start = none then (h.error env .unknownvar, .error .unknownvar)
    else
      let o := mruBegin env x s start { srv := h }
      let r := mruLoop env x p p.packets p.rows (mruEntries s p start) o
      let o := if r.2 then mruFinish env x r.1 else r.1
      (o.srv.flush env, .ok o.vars)

end NtpSuite.Control
