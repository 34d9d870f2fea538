import NtpSuite.Theory.NtpqReassembly

/-!
# The Response to a Query

When `doqueryex` returns the data of one response.

The client tells the responses apart by their sequence numbers. When the first request
has timed out without any fragment, the request is sent again with the same number. If
the response to the first one was late, the fragments of both have the number that is
expected, and `getresponse` takes for each offset the one that comes first. So what is
returned may be a mixture. It is not if during each call of `getresponse` all fragments
with the number that is expected are from one response, which is a response to this
query and not so long that its offsets are ambiguous.

## Main definitions

* `Answer`: A response of the server.
* `FromOne`: The condition on what arrives.

## Theorems

* `queryStep_sound`: One packet, timeout or failure.
* `query_answered`: Every run.
* `query_mixes`: A mixture.
-/

namespace NtpSuite.Ntpq

open Control
open Reading
open Storing
open Tiling

/-- What is sent with a request: the association identifier and the data. -/
structure Asked where
  associd : BitVec 16
  qdata : CStr
deriving DecidableEq, Repr

/-- A response of the server: the request, the variables before and after it was accepted,
    and the items. -/
structure Answer (env : CtlEnv) where
  autokey : Bool
  rb : CtlRecv autokey
  s0 : CtlSys
  s : CtlSys
  op : CtlOp
  accepted : processControl env rb s0 = (s, some op)
  items : List Item

namespace Answer

variable {env : CtlEnv} (r : Answer env)

/-- The packets of the response. -/
def packets : List CStr := Control.packets env r.items r.s

/-- The data of each packet. -/
def pieces : List CStr := r.packets.map dataArea

/-- The data of the response. -/
def data : CStr := r.pieces.flatten

/-- The request is a transmission of the query. -/
def To (q : Query) (asked : Asked) : Prop :=
  queryFor r.rb = q ∧ r.rb.hdr.associd = asked.associd ∧
    octetsAt r.rb.mem CTL_HEADER_LEN r.rb.reqCount = asked.qdata

instance (q : Query) (asked : Asked) : Decidable (r.To q asked) :=
  inferInstanceAs (Decidable (_ ∧ _ ∧ _))

/-- The items fit into packets, and offsets into their field. -/
structure Plain : Prop where
  items : ∀ item ∈ r.items, item.dp ≠ [] ∧ item.dp.length ≤ CTL_MAX_DATA_LEN - 3
  total : r.data.length < 2 ^ 16

end Answer

variable {env : CtlEnv}

variable {res : Result} {e : GetEvent × Bool}

theorem Answer.Plain.takes {r : Answer env}
    (hmac : ∀ keyid pkt, (env.authencrypt keyid pkt).1 % 4 = 0) (hr : r.Plain) :
    Takes (queryFor r.rb) r.pieces r.packets := by
  obtain ⟨cs, hseries, hpos, hsolid, hshort, -⟩ := respond_pieces hmac r.accepted hr.items
  have hshort' := short_of_le fun c hc => (hshort c hc).1
  have hcs : r.pieces = cs := map_dataArea hseries hshort'
  have htotal := hr.total
  unfold Answer.data at htotal
  rw [hcs] at htotal ⊢
  exact ⟨⟨htotal, hsolid⟩, hpos, hseries, hshort'⟩

/-- The response that the fragments are from, in the first or in the second call of
    `getresponse`. -/
def source (r1 r2 : Answer env) (d : Querier) : Answer env := if d.done then r2 else r1

/-- The condition on what arrives: a packet that `getresponse` does not toss is an error, or
    it is from the one response of this call, which is a response to this query. -/
def FromOne (opcode : BitVec 8) (asked : Asked) (r1 r2 : Answer env) (d : Querier)
    (e : GetEvent × Bool) : Prop :=
  ∀ dg, e.1 = .datagram dg → ¬ Foreign (d.query opcode) dg →
    ctlIserror (CtlHdr.read dg.mem) = false →
    (source r1 r2 d).To (d.query opcode) asked ∧ (source r1 r2 d).Plain ∧
      ∃ p ∈ (source r1 r2 d).packets, dg.Carries p

/-- What was returned is the data of a response to the query. -/
def Returns (opcode : BitVec 8) (asked : Asked) (d : Querier) (r : Answer env) : Prop :=
  r.To (d.query opcode) asked ∧ octetsAt d.getter.pktdata 0 d.getter.rsize = r.data

/-- What holds all along: the pieces that have come are from the response of this call, and
    what was returned is its data. -/
structure Sound (opcode : BitVec 8) (asked : Asked) (r1 r2 : Answer env) (d : Querier) :
    Prop where
  waits : d.retv = none → d.getter.result = none ∧
    ∃ taken, Held (source r1 r2 d).pieces taken d.getter
  returns : d.retv = some .okay → Returns opcode asked d (source r1 r2 d)

variable {opcode : BitVec 8} {asked : Asked} {r1 r2 : Answer env} {d : Querier}

/-- A request that is sent begins a new call of `getresponse`. -/
theorem request_sound (hnone : d.retv = none) (sent : Bool) :
    Sound opcode asked r1 r2 (d.request sent) := by
  unfold Querier.request
  split_ifs
  · exact ⟨fun _ => ⟨rfl, [], getStart_held _ _⟩, fun h => by rw [hnone] at h; cases h⟩
  · exact ⟨nofun, nofun⟩

/-- An error that `getresponse` returns is returned, or the request is sent again. -/
theorem returned_sound (hnone : d.retv = none) (hres : res ≠ .okay) (sent : Bool) :
    Sound opcode asked r1 r2 (d.returned res sent) := by
  unfold Querier.returned
  by_cases hagain : ¬ d.done = true ∧ (res = .timeout ∨ res = .incomplete)
  · rw [if_pos hagain]
    exact request_sound (d := { d with done := true, sequence := _ }) hnone sent
  · rw [if_neg hagain]
    exact ⟨nofun, fun h => absurd (Option.some.inj h) hres⟩

theorem getStep_error {q : Query} {g : Getter} {dg : Datagram} (hres : g.result = none)
    (hf : ¬ Foreign q dg) (herr : ctlIserror (CtlHdr.read dg.mem) = true) :
    ∃ res, (getStep q g (.datagram dg)).result = some res ∧ res ≠ .okay := by
  unfold Foreign at hf
  simp only [not_or, not_lt, Bool.not_eq_false] at hf
  obtain ⟨hlong, hans, -⟩ := hf
  have hverdict : verdict q g (CtlHdr.read dg.mem) dg.n = .fail (errcode (CtlHdr.read dg.mem)) := by
    unfold verdict
    rw [if_neg (not_lt.mpr hlong), if_neg (not_not.mpr hans), if_pos herr]
  refine ⟨errcode (CtlHdr.read dg.mem), ?_, ?_⟩
  · unfold getStep recvPkt
    simp [hres, hverdict]
  · unfold errcode
    simp only
    split_ifs <;> simp

theorem queryStep_waits (hnone : d.retv = none)
    (hres : (getStep (d.query opcode) d.getter e.1).result = none) :
    queryStep opcode d e = { d with getter := getStep (d.query opcode) d.getter e.1 } := by
  unfold queryStep
  rw [if_neg (by simp [hnone])]
  simp only [hres]

section

variable (hnone : d.retv = none) (hres : (getStep (d.query opcode) d.getter e.1).result = some res)

include hnone hres

theorem queryStep_returns :
    queryStep opcode d e =
      { d with getter := getStep (d.query opcode) d.getter e.1 }.returned res e.2 := by
  unfold queryStep
  rw [if_neg (by simp [hnone])]
  simp only [hres]

theorem queryStep_fails (hne : res ≠ .okay) : Sound opcode asked r1 r2 (queryStep opcode d e) := by
  rw [queryStep_returns hnone hres]
  exact returned_sound (d := { d with getter := getStep (d.query opcode) d.getter e.1 }) hnone hne
    e.2

end

theorem queryStep_arrived (hmac : ∀ keyid pkt, (env.authencrypt keyid pkt).1 % 4 = 0)
    (hs : Sound opcode asked r1 r2 d) (hnone : d.retv = none) {dg : Datagram} (sent : Bool)
    (hto : (source r1 r2 d).To (d.query opcode) asked) (hplain : (source r1 r2 d).Plain)
    {p : CStr} (hp : p ∈ (source r1 r2 d).packets) (hc : dg.Carries p) :
    Sound opcode asked r1 r2 (queryStep opcode d (.datagram dg, sent)) := by
  obtain ⟨hres, taken, hheld⟩ := hs.waits hnone
  have htakes := hplain.takes hmac
  rw [hto.1] at htakes
  obtain ⟨i, hi, rfl⟩ := List.getElem_of_mem hp
  have hlt : i < (source r1 r2 d).pieces.length := htakes.series.1 ▸ hi
  rcases getStep_arrived htakes.narrow htakes.pos hheld hres hlt (htakes.arrived hi hc) with
    ⟨htoomuch, -⟩ | ⟨-, hsame⟩ | ⟨-, hwhole, hmissing⟩
  · exact queryStep_fails hnone htoomuch (by decide)
  · rw [queryStep_waits hnone (by rw [hsame]; exact hres)]
    simp only [hsame]
    exact hs
  · by_cases hall : ∀ k < (source r1 r2 d).pieces.length, k ∈ taken ++ [i]
    · have hw := hwhole hall
      rw [queryStep_returns hnone hw.okay]
      unfold Querier.returned
      rw [if_neg (by simp)]
      refine ⟨nofun, fun _ => ⟨hto, ?_⟩⟩
      rw [hw.size]
      exact hw.stands.octetsAt_eq
    · obtain ⟨hres', hheld'⟩ := hmissing hall
      rw [queryStep_waits hnone hres']
      exact ⟨fun _ => ⟨hres', _, hheld'⟩, fun h => by rw [hnone] at h; cases h⟩

theorem queryStep_sound (hmac : ∀ keyid pkt, (env.authencrypt keyid pkt).1 % 4 = 0)
    (d : Querier) (e : GetEvent × Bool) (hs : Sound opcode asked r1 r2 d)
    (hone : FromOne opcode asked r1 r2 d e) : Sound opcode asked r1 r2 (queryStep opcode d e) := by
  cases hretv : d.retv with
  | some res =>
    unfold queryStep
    rw [if_pos (by simp [hretv])]
    exact hs
  | none =>
    obtain ⟨hres, taken, hheld⟩ := hs.waits hretv
    obtain ⟨ev, sent⟩ := e
    cases ev with
    | datagram dg =>
      by_cases hforeign : Foreign (d.query opcode) dg
      · rw [queryStep_waits hretv (by rw [getStep_foreign hforeign]; exact hres)]
        simp only [getStep_foreign hforeign]
        exact hs
      · cases herr : ctlIserror (CtlHdr.read dg.mem) with
        | true =>
          obtain ⟨res, hfail, hne⟩ := getStep_error hres hforeign herr
          exact queryStep_fails hretv hfail hne
        | false =>
          obtain ⟨hto, hplain, p, hp, hc⟩ := hone dg rfl hforeign herr
          exact queryStep_arrived hmac hs hretv sent hto hplain hp hc
    | timeout =>
      have hfail : (getStep (d.query opcode) d.getter .timeout).result =
          some (if d.getter.frags = [] then .timeout else .incomplete) := by
        simp [getStep, hres]
      exact queryStep_fails hretv hfail (by split_ifs <;> decide)
    | failure =>
      have hfail : (getStep (d.query opcode) d.getter .failure).result = some .failed := by
        simp [getStep, hres]
      exact queryStep_fails hretv hfail (by decide)

/-- For every run in which all fragments of a call of `getresponse` are from one response
    to the query: if zero is returned, the data is that of one of these responses. -/
theorem query_answered (env : CtlEnv)
    (hmac : ∀ keyid pkt, (env.authencrypt keyid pkt).1 % 4 = 0) (opcode : BitVec 8)
    (asked : Asked) (r1 r2 : Answer env) (sequence : BitVec 16) (pktdata : Memory) (sent : Bool)
    (evs : List (GetEvent × Bool)) (hone : Run.Meets (queryStep opcode) (FromOne opcode asked r1 r2)
      (queryStart sequence pktdata sent) evs) :
    let d := Run.exec (queryStep opcode) (queryStart sequence pktdata sent) evs
    d.retv = some .okay → ∃ r : Answer env, (r = r1 ∨ r = r2) ∧ r.To (d.query opcode) asked ∧
      octetsAt d.getter.pktdata 0 d.getter.rsize = r.data := by
  intro d hokay
  have hstart : Sound opcode asked r1 r2 (queryStart sequence pktdata sent) :=
    request_sound rfl sent
  have hsound : Sound opcode asked r1 r2 d :=
    Run.exec_invariant (queryStep_sound hmac) _ evs hstart hone
  refine ⟨source r1 r2 d, ?_, hsound.returns hokay⟩
  unfold source
  split_ifs
  · exact .inr rfl
  · exact .inl rfl

/-- The response to a request to read variables, with two items that do not fit into one packet. -/
def longAnswer (c c' : BitVec 8) : Answer md5Env where
  autokey := false
  rb := plainRequest 2
  s0 := ctlStart (fun _ => 0) []
  s := readvarSys
  op := .readvar
  accepted := Prod.ext rfl (by decide +kernel)
  items := longItems c c'

/-- A packet of a response as it arrives. -/
def arrival (r : Answer md5Env) (i : Nat) : GetEvent × Bool :=
  (.datagram (datagramFor (r.packets.getD i [])), true)

theorem longAnswer_plain : (longAnswer 0x61 0x62).Plain :=
  ⟨by decide +kernel, by decide +kernel⟩

theorem arrival_fromOne {i : Nat} {d : Querier} (hi : i < (longAnswer 0x61 0x62).packets.length)
    (hd : d.query 2 = ⟨2, 1⟩) :
    FromOne 2 ⟨0, []⟩ (longAnswer 0x61 0x62) (longAnswer 0x61 0x62) d
      (arrival (longAnswer 0x61 0x62) i) := by
  intro dg hdg _ _
  have hsource : source (longAnswer 0x61 0x62) (longAnswer 0x61 0x62) d = longAnswer 0x61 0x62 :=
    ite_self _
  rw [hsource, hd]
  refine ⟨by decide, longAnswer_plain, _, List.getElem_mem hi, ?_⟩
  rw [← GetEvent.datagram.inj hdg, List.getD_eq_getElem _ _ hi]
  exact datagramFor_carries _

/-- The packets of the response arrive in the wrong order. -/
def reversedArrivals : List (GetEvent × Bool) :=
  [arrival (longAnswer 0x61 0x62) 1, arrival (longAnswer 0x61 0x62) 0]

/-- There are two packets. The first to arrive leaves the query as it is, and the second
    completes the response. -/
theorem reversed_arrive :
    let d := queryStart 0 (fun _ => 0) true
    (longAnswer 0x61 0x62).packets.length = 2 ∧
      (queryStep 2 d (arrival (longAnswer 0x61 0x62) 1)).query 2 = ⟨2, 1⟩ ∧
      (Run.exec (queryStep 2) d reversedArrivals).retv = some .okay := by
  decide +kernel

theorem reversed_fromOne :
    Run.Meets (queryStep 2) (FromOne 2 ⟨0, []⟩ (longAnswer 0x61 0x62) (longAnswer 0x61 0x62))
      (queryStart 0 (fun _ => 0) true) reversedArrivals := by
  obtain ⟨hlen, hquery, -⟩ := reversed_arrive
  exact ⟨arrival_fromOne (by omega) rfl, arrival_fromOne (by omega) hquery, trivial⟩

/-- The response is returned. -/
theorem query_answered_reversed :
    let d := Run.exec (queryStep 2) (queryStart 0 (fun _ => 0) true) reversedArrivals
    d.retv = some .okay ∧ ∃ r : Answer md5Env,
      (r = longAnswer 0x61 0x62 ∨ r = longAnswer 0x61 0x62) ∧ r.To (d.query 2) ⟨0, []⟩ ∧
      octetsAt d.getter.pktdata 0 d.getter.rsize = r.data :=
  ⟨reversed_arrive.2.2, query_answered md5Env md5Env_padded 2 ⟨0, []⟩ _ _ 0 (fun _ => 0) true _
    reversed_fromOne reversed_arrive.2.2⟩

/-- The request times out and is sent again. Of the responses to both, the first packet of
    the one and the second packet of the other arrive. -/
def mixedArrivals : List (GetEvent × Bool) :=
  [(.timeout, true), arrival (longAnswer 0x61 0x62) 0, arrival (longAnswer 0x63 0x64) 1]

/-- Zero is returned, with an octet of the one response and an octet of the other. -/
theorem query_mixes :
    let r1 := longAnswer 0x61 0x62
    let r2 := longAnswer 0x63 0x64
    let d := Run.exec (queryStep 2) (queryStart 0 (fun _ => 0) true) mixedArrivals
    r1.To ⟨2, 1⟩ ⟨0, []⟩ ∧ r2.To ⟨2, 1⟩ ⟨0, []⟩ ∧ d.retv = some .okay ∧
      octetsAt d.getter.pktdata 0 d.getter.rsize ≠ r1.data ∧
      octetsAt d.getter.pktdata 0 d.getter.rsize ≠ r2.data := by
  refine ⟨by decide +kernel, by decide +kernel, by decide +kernel, ?_, ?_⟩
  · intro h
    have hoctet := congrArg (fun l => l.getD 303 0) h
    revert hoctet
    decide +kernel
  · intro h
    have hoctet := congrArg (fun l => l.getD 0 0) h
    revert hoctet
    decide +kernel

end NtpSuite.Ntpq
