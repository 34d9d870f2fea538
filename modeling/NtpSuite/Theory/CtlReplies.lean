import NtpSuite.Theory.CtlItems
import NtpSuite.Theory.CtlSeries

/-!
# Who Gets the Response

What the calls of a function that answers a request send, and to whom.

A call sends a number of packets. An error is one packet for the one who
asked. `ctl_flushpkt` sends one packet to the one who asked or, when `res_async` is
set, one to every trap in use. All packets have the operation of `res_opcode`, and
those for the one who asked have the sequence number of the request.

`report_event` sets `res_async` and `res_opcode`, and nothing sets them back. Only a
configuration leads to events while a request is answered. The response that follows
goes to the traps then, as if it were a part of the message for them.

## Main definitions

* `opcodeOf`, `sequenceOf`: What a packet says of itself.
* `audience`: How many get a packet.
* `Added`: What a call has sent.
* `Straight`: All replies went to the one who asked.
* `Reports`: A configuration leads to an event that is reported.

## Theorems

* `flush_added`, `error_added`, `put_added`: The calls.
* `replies_straight_iff`: When the response goes to the one who asked.
-/

namespace NtpSuite.Control

open Reading
open Ntpq (Query)
open List

/-- The second octet of a packet: its flags and its operation. -/
def opOctet (p : CStr) : BitVec 8 := p.getD 1 0

def opcodeOf (p : CStr) : BitVec 8 := opOctet p &&& CTL_OP_MASK

def sequenceOf (p : CStr) : BitVec 16 := p.getD 2 0 ++ p.getD 3 0

/-- How many get a packet that `ctl_flushpkt` sends. -/
def audience (s : CtlSys) : Nat := if s.res_async then s.ctl_traps.countP (·.inuse) else 1

/-! ### Packets -/

section Packets

variable {env : CtlEnv} {s : CtlSys}

/-- What a call leaves as it is. -/
structure Steady (s s' : CtlSys) : Prop where
  async : s'.res_async = s.res_async
  opcode : s'.res_opcode = s.res_opcode
  inuse : s'.ctl_traps.map (·.inuse) = s.ctl_traps.map (·.inuse)
  sequence : s.res_async = false → s'.rpkt.sequence = s.rpkt.sequence

theorem Steady.trans {s' s'' : CtlSys} (h : Steady s s') (h' : Steady s' s'') : Steady s s'' :=
  ⟨h'.async.trans h.async, h'.opcode.trans h.opcode, h'.inuse.trans h.inuse,
    fun hs => (h'.sequence (h.async.trans hs)).trans (h.sequence hs)⟩

theorem Steady.audience_eq {s' : CtlSys} (h : Steady s s') : audience s' = audience s := by
  have hcount : ∀ ts : List CtlTrap, ts.countP (·.inuse) = (ts.map (·.inuse)).countP id := by
    intro ts
    rw [countP_map]
    rfl
  unfold audience
  rw [h.async, hcount, hcount, h.inuse]

/-- So many packets were sent, with this octet for the flags and the operation. -/
structure Sends (s s' : CtlSys) (n : Nat) (op : BitVec 8) : Prop where
  sent : ∃ ps, s'.sent = s.sent ++ ps ∧ ps.length = n ∧
    ∀ p ∈ ps, opOctet p = op ∧ (s.res_async = false → sequenceOf p = s.rpkt.sequence)
  steady : Steady s s'
  stopped : s'.stopped = s.stopped

/-- What was done before the packets were sent concerned nobody. -/
theorem Sends.after {s' s'' : CtlSys} {n : Nat} {op : BitVec 8} (h : Sends s' s'' n op)
    (hsteady : Steady s s') (hsent : s'.sent = s.sent) (hstopped : s'.stopped = s.stopped) :
    Sends s s'' n op := by
  obtain ⟨⟨ps, hps, hlen, hall⟩, hsteady', hstopped'⟩ := h
  refine ⟨⟨ps, by rw [hps, hsent], hlen, fun p hp => ⟨(hall p hp).1, fun hs => ?_⟩⟩,
    hsteady.trans hsteady', hstopped'.trans hstopped⟩
  rw [(hall p hp).2 (hsteady.async.trans hs), hsteady.sequence hs]

theorem opOctet_encode (h : CtlHdr) (data : CStr) : opOctet (h.encode ++ data) = h.r_m_e_op := rfl

theorem sequenceOf_encode (h : CtlHdr) (data : CStr) : sequenceOf (h.encode ++ data) = h.sequence :=
  Storing.append_halves h.sequence

theorem sends_one {s' : CtlSys} {data : CStr} (hsteady : Steady s s')
    (hsent : s'.sent = s.sent ++ [s.rpkt.encode ++ data]) (hstopped : s'.stopped = s.stopped) :
    Sends s s' 1 s.rpkt.r_m_e_op := by
  refine ⟨⟨[_], hsent, rfl, ?_⟩, hsteady, hstopped⟩
  intro p hp
  rw [mem_singleton.mp hp]
  exact ⟨opOctet_encode _ _, fun _ => sequenceOf_encode _ _⟩

theorem send_sends (s : CtlSys) (len : Nat) : Sends s (s.send len) 1 s.rpkt.r_m_e_op :=
  sends_one ⟨rfl, rfl, rfl, fun _ => rfl⟩ rfl rfl

theorem sendMac_sends (env : CtlEnv) (s : CtlSys) (off : Nat) :
    Sends s (s.sendMac env off) 1 s.rpkt.r_m_e_op :=
  sends_one ⟨rfl, rfl, rfl, fun _ => rfl⟩ rfl rfl

/-- A packet for every trap in use. The header is changed, but not the operation. -/
theorem sendTrap_foldl (env : CtlEnv) (sendlen : Nat) (ts : List CtlTrap) (s : CtlSys) :
    let s' := ts.foldl (sendTrap env sendlen) s
    (∃ ps, s'.sent = s.sent ++ ps ∧ ps.length = ts.countP (·.inuse) ∧
      ∀ p ∈ ps, opOctet p = s.rpkt.r_m_e_op) ∧
    s'.res_async = s.res_async ∧ s'.res_opcode = s.res_opcode ∧ s'.ctl_traps = s.ctl_traps ∧
      s'.stopped = s.stopped := by
  induction ts generalizing s with
  | nil =>
    exact ⟨⟨[], (append_nil _).symm, rfl, nofun⟩, rfl, rfl, rfl, rfl⟩
  | cons t ts ih =>
    rw [foldl_cons, countP_cons]
    obtain ⟨⟨ps, hsent, hlen, hop⟩, hkeeps⟩ := ih (sendTrap env sendlen s t)
    by_cases ht : t.inuse = true
    · have hturn : sendTrap env sendlen s t = _ := if_pos ht
      rw [hturn] at hsent hop hkeeps ⊢
      refine ⟨⟨_ :: ps, hsent.trans (append_assoc _ _ _), ?_, ?_⟩, hkeeps⟩
      · rw [length_cons, hlen, if_pos ht]
      · exact forall_mem_cons.mpr ⟨opOctet_encode _ _, hop⟩
    · have hturn : sendTrap env sendlen s t = s := if_neg ht
      rw [hturn] at hsent hop hkeeps ⊢
      exact ⟨⟨ps, hsent, by rw [hlen, if_neg ht, add_zero], hop⟩, hkeeps⟩

theorem sendTraps_sends (env : CtlEnv) (more : Bool) (sendlen : Nat) (hasync : s.res_async = true) :
    Sends s (sendTraps env more sendlen s) (s.ctl_traps.countP (·.inuse)) s.rpkt.r_m_e_op := by
  obtain ⟨⟨ps, hsent, hlen, hop⟩, hasync', hopcode, htraps, hstopped⟩ :=
    sendTrap_foldl env sendlen s.ctl_traps s
  have hnot : s.res_async ≠ false := by simp [hasync]
  refine ⟨⟨ps, hsent, hlen, fun p hp => ⟨hop p hp, fun h => absurd h hnot⟩⟩,
    ⟨hasync', hopcode, ?_, fun h => absurd h hnot⟩, hstopped⟩
  change ((s.ctl_traps.foldl (sendTrap env sendlen) s).ctl_traps.map _).map _ = _
  rw [htraps, map_map]
  refine map_congr_left fun t _ => ?_
  simp only [Function.comp]
  split_ifs <;> rfl

theorem sendOut_sends (env : CtlEnv) (more : Bool) (s : CtlSys) :
    Sends s (sendOut env more s) (audience s) s.rpkt.r_m_e_op := by
  unfold sendOut audience
  by_cases hasync : s.res_async = true
  · rw [if_pos hasync, if_pos hasync]
    exact sendTraps_sends env more _ hasync
  · split_ifs
    · exact (sendMac_sends env _ _).after ⟨rfl, rfl, rfl, fun _ => rfl⟩ rfl rfl
    · exact send_sends s _

theorem ctlFlushpkt_sends (env : CtlEnv) (more : Bool) (s : CtlSys) :
    Sends s (ctlFlushpkt env more s) (audience s)
      (CTL_RESPONSE ||| (if more then CTL_MORE else 0) ||| (s.res_opcode &&& CTL_OP_MASK)) := by
  unfold ctlFlushpkt
  -- The packet before it is sent has the same recipients and the same operation.
  obtain ⟨t, ht⟩ : ∃ t, t = trail more s := ⟨_, rfl⟩
  have htrail : Steady s t ∧ t.sent = s.sent ∧ t.stopped = s.stopped := by
    rw [ht]
    unfold trail
    split_ifs
    · exact ⟨⟨rfl, rfl, rfl, fun _ => rfl⟩, rfl, rfl⟩
    · exact ⟨⟨rfl, rfl, rfl, fun _ => rfl⟩, rfl, rfl⟩
  obtain ⟨hsteady, hsent, hstopped⟩ := htrail
  rw [← ht]
  have hsends := (sendOut_sends env more (fillIn more t.datapt
    (t.put (padding (CTL_HEADER_LEN + t.datapt) 4)))).after (s := s)
    (hsteady.trans ⟨rfl, rfl, rfl, fun _ => rfl⟩) hsent hstopped
  rw [← hsteady.opcode, ← hsteady.audience_eq]
  obtain ⟨hsent', hsteady', hstopped'⟩ := hsends
  exact ⟨hsent', ⟨hsteady'.async, hsteady'.opcode, hsteady'.inuse, hsteady'.sequence⟩, hstopped'⟩

theorem ctlError_sends (env : CtlEnv) (errcode : CtlErr) (s : CtlSys) :
    Sends s (ctlError env errcode s) 1
      (CTL_RESPONSE ||| CTL_ERROR ||| (s.res_opcode &&& CTL_OP_MASK)) := by
  unfold ctlError
  simp only
  split_ifs
  · exact (sendMac_sends env _ 0).after ⟨rfl, rfl, rfl, fun _ => rfl⟩ rfl rfl
  · exact (send_sends _ CTL_HEADER_LEN).after ⟨rfl, rfl, rfl, fun _ => rfl⟩ rfl rfl

/-- What `ctl_putdata` sends: nothing, or a packet that more will follow. -/
theorem ctlPutdata_sends (env : CtlEnv) (dp : CStr) (bin : Bool) (s : CtlSys) :
    ∃ n, (audience s = 0 → n = 0) ∧ Sends s (ctlPutdata env dp bin s) n
      (CTL_RESPONSE ||| CTL_MORE ||| (s.res_opcode &&& CTL_OP_MASK)) := by
  have hsep : Steady s (separated dp.length bin s) ∧
      (separated dp.length bin s).sent = s.sent ∧
      (separated dp.length bin s).stopped = s.stopped := by
    unfold separated separate
    split_ifs <;> exact ⟨⟨rfl, rfl, rfl, fun _ => rfl⟩, rfl, rfl⟩
  obtain ⟨hsteady, hsent, hstopped⟩ := hsep
  suffices h : ∃ n, (audience s = 0 → n = 0) ∧ Sends s (made env dp.length bin s) n
      (CTL_RESPONSE ||| CTL_MORE ||| (s.res_opcode &&& CTL_OP_MASK)) by
    obtain ⟨n, hn, h⟩ := h
    exact ⟨n, hn, h.sent, ⟨h.steady.async, h.steady.opcode, h.steady.inuse, h.steady.sequence⟩,
      h.stopped⟩
  unfold made
  generalize (if bin = true then 0 else 3) = overhead
  split_ifs
  · have hflush := (ctlFlushpkt_sends env true (separated dp.length bin s)).after hsteady hsent
      hstopped
    rw [hsteady.opcode, hsteady.audience_eq] at hflush
    exact ⟨audience s, id, hflush⟩
  · refine ⟨0, fun _ => rfl, ⟨[], ?_, rfl, nofun⟩, hsteady, hstopped⟩
    rw [append_nil]
    exact hsent

end Packets

/-! ### Replies -/

section Replies

variable {env : CtlEnv} {h : CtlSrv}

/-- So many packets were sent to somebody. -/
structure Added (h h' : CtlSrv) (d : Dest) (n : Nat) : Prop where
  replies : ∃ rs, h'.replies = h.replies ++ rs ∧ rs.length = n ∧
    ∀ r ∈ rs, r.dest = d ∧ opcodeOf r.pkt = h.ctl.res_opcode &&& CTL_OP_MASK ∧
      (h.ctl.res_async = false → sequenceOf r.pkt = h.ctl.rpkt.sequence)
  steady : Steady h.ctl h'.ctl
  stopped : h'.ctl.stopped = h.ctl.stopped

theorem Added.length_eq {h' : CtlSrv} {d : Dest} {n : Nat} (ha : Added h h' d n) :
    h'.replies.length = h.replies.length + n := by
  obtain ⟨⟨rs, hrs, hlen, -⟩, -, -⟩ := ha
  rw [hrs, length_append, hlen]

theorem Added.dest_eq {h' : CtlSrv} {d : Dest} {n : Nat} (ha : Added h h' d n)
    (hd : ∀ r ∈ h.replies, r.dest = d) : ∀ r ∈ h'.replies, r.dest = d := by
  obtain ⟨⟨rs, hrs, -, hall⟩, -, -⟩ := ha
  rw [hrs]
  intro r hr
  rcases mem_append.mp hr with hr | hr
  · exact hd r hr
  · exact (hall r hr).1

theorem call_of_stopped (c : CtlCall) (hs : h.ctl.stopped = true) : h.call env c = h := by
  unfold CtlSrv.call ctlGo
  rw [if_pos hs]
  simp

theorem added_of_sends {c : CtlCall} {n : Nat} {op : BitVec 8} (hs : h.ctl.stopped = false)
    (hsends : Sends h.ctl (ctlCall env h.ctl c) n op)
    (hop : op &&& CTL_OP_MASK = h.ctl.res_opcode &&& CTL_OP_MASK) :
    Added h (h.call env c) (h.dest c) n := by
  have hgo : ctlGo env h.ctl c = ctlCall env h.ctl c := by
    unfold ctlGo
    rw [hs]
    rfl
  obtain ⟨⟨ps, hps, hlen, hall⟩, hsteady, hstopped⟩ := hsends
  unfold CtlSrv.call
  rw [hgo]
  refine ⟨⟨ps.map fun pkt => ⟨h.dest c, pkt⟩, ?_, ?_, ?_⟩, hsteady, hstopped⟩
  · simp only [hps, drop_left]
  · rw [length_map, hlen]
  · intro r hr
    obtain ⟨p, hp, rfl⟩ := mem_map.mp hr
    refine ⟨rfl, ?_, (hall p hp).2⟩
    unfold opcodeOf
    rw [(hall p hp).1, hop]

theorem errBits (op : BitVec 8) :
    (CTL_RESPONSE ||| CTL_ERROR ||| (op &&& CTL_OP_MASK)) &&& CTL_OP_MASK = op &&& CTL_OP_MASK := by
  revert op
  decide

theorem flush_added (hs : h.ctl.stopped = false) :
    Added h (h.flush env) (if h.ctl.res_async then .trap else .requester) (audience h.ctl) :=
  added_of_sends hs (ctlFlushpkt_sends env false h.ctl) (opBits false _).2.2.2

theorem error_added (errcode : CtlErr) (hs : h.ctl.stopped = false) :
    Added h (h.error env errcode) .requester 1 :=
  added_of_sends hs (ctlError_sends env errcode h.ctl) (errBits _)

/-- What is put into the response: an item, or the assertion fails. -/
theorem ctlCall_put (env : CtlEnv) (p : CtlPut) (s : CtlSys) :
    (∃ dp bin, ctlCall env s p.call = ctlPutdata env dp bin s) ∨
      ctlCall env s p.call = { s with stopped := true } := by
  have htagged : ∀ before behind tag text : CStr,
      (∃ dp bin, putTagged env before behind tag text s = ctlPutdata env dp bin s) ∨
        putTagged env before behind tag text s = { s with stopped := true } := by
    intro before behind tag text
    unfold putTagged
    split_ifs
    · exact .inl ⟨_, _, rfl⟩
    · exact .inr rfl
    · exact .inl ⟨_, _, rfl⟩
  cases p with
  | data dp bin => exact .inl ⟨dp, bin, rfl⟩
  | str tag text | unqstr tag text => exact htagged _ _ tag text

theorem dest_put (p : CtlPut) : h.dest p.call = if h.ctl.res_async then .trap else .requester := by
  cases p <;> rfl

theorem put_added (p : CtlPut) (hs : h.ctl.stopped = false) :
    (∃ n, (audience h.ctl = 0 → n = 0) ∧
      Added h (h.call env p.call) (if h.ctl.res_async then .trap else .requester) n) ∨
      h.call env p.call = h.abort := by
  obtain ⟨dp, bin, hcall⟩ | hcall := ctlCall_put env p h.ctl
  · obtain ⟨n, hn, hsends⟩ := ctlPutdata_sends env dp bin h.ctl
    rw [← hcall] at hsends
    rw [← dest_put p]
    exact .inl ⟨n, hn, added_of_sends hs hsends (opBits true _).2.2.2⟩
  · unfold CtlSrv.call ctlGo CtlSrv.abort
    rw [hs]
    simp [hcall]

end Replies

/-! ### Replies to the one who asked -/

section Straight

variable {env : CtlEnv} {d : CtlDaemon} {q : Query} {h h' : CtlSrv}

/-- The packet is a response to the query, for the one who asked. -/
def Reply.Answers (q : Query) (r : Reply) : Prop :=
  r.dest = .requester ∧ opcodeOf r.pkt = q.opcode ∧ sequenceOf r.pkt = q.sequence

/-- The replies went to the one who asked, and so will the next ones. -/
structure Straight (q : Query) (h : CtlSrv) : Prop where
  sync : h.ctl.res_async = false
  opcode : h.ctl.res_opcode &&& CTL_OP_MASK = q.opcode
  sequence : h.ctl.rpkt.sequence = q.sequence
  replies : ∀ r ∈ h.replies, r.Answers q

variable (hq : Straight q h)

include hq

theorem Straight.added {n : Nat} (ha : Added h h' .requester n) : Straight q h' := by
  obtain ⟨⟨rs, hrs, -, hall⟩, hsteady, -⟩ := ha
  refine ⟨hsteady.async.trans hq.sync, ?_, (hsteady.sequence hq.sync).trans hq.sequence, ?_⟩
  · rw [hsteady.opcode]
    exact hq.opcode
  · intro r hr
    rw [hrs] at hr
    rcases mem_append.mp hr with hr | hr
    · exact hq.replies r hr
    · obtain ⟨hdest, hopcode, hseq⟩ := hall r hr
      exact ⟨hdest, hopcode.trans hq.opcode, (hseq hq.sync).trans hq.sequence⟩

theorem Straight.abort : Straight q h.abort :=
  ⟨hq.sync, hq.opcode, hq.sequence, hq.replies⟩

theorem Straight.setStatus (status : BitVec 16) : Straight q (h.setStatus status) :=
  ⟨hq.sync, hq.opcode, hq.sequence, hq.replies⟩

theorem Straight.setTraps (t : TrapTable) : Straight q (h.setTraps t) :=
  ⟨hq.sync, hq.opcode, hq.sequence, hq.replies⟩

theorem Straight.error (errcode : CtlErr) : Straight q (h.error env errcode) := by
  cases hs : h.ctl.stopped with
  | true =>
    unfold CtlSrv.error
    rwa [call_of_stopped _ hs]
  | false => exact hq.added (error_added errcode hs)

theorem Straight.flush : Straight q (h.flush env) := by
  cases hs : h.ctl.stopped with
  | true =>
    unfold CtlSrv.flush
    rwa [call_of_stopped _ hs]
  | false =>
    have ha := @flush_added env h hs
    rw [hq.sync] at ha
    exact hq.added ha

theorem Straight.put (p : CtlPut) : Straight q (h.call env p.call) := by
  cases hs : h.ctl.stopped with
  | true => rwa [call_of_stopped _ hs]
  | false =>
    obtain ⟨n, -, ha⟩ | habort := @put_added env h p hs
    · rw [hq.sync] at ha
      exact hq.added ha
    · rw [habort]
      exact hq.abort

theorem Straight.puts (ps : List CtlPut) : Straight q (h.puts env ps) := by
  induction ps generalizing h with
  | nil => exact hq
  | cons p ps ih => exact ih (hq.put p)

theorem Straight.respond (ps : List CtlPut) : Straight q (h.respond env ps) :=
  (hq.puts ps).flush

theorem Straight.answerWanted (puts : List Nat → List CtlPut) (r : Wanted) :
    Straight q (answerWanted env puts r h) := by
  cases r with
  | finish wants => exact hq.respond _
  | overlong wants => exact (hq.error _).respond _
  | unknown => exact hq.error _
  | insist overlong =>
    cases overlong with
    | false => exact hq.abort
    | true => exact (hq.error _).abort

omit hq in
theorem Straight.sendMruEntry {o : MruOut} (hq : Straight q o.srv) (x : MruCtx)
    (mon : Mon.MonEntry) : Straight q (sendMruEntry env x mon o).srv := by
  unfold Control.sendMruEntry
  generalize (fieldOrder 6 (x.order o.count) []).map (mruField mon o.count) = vars
  induction vars generalizing o with
  | nil => exact hq
  | cons v vars ih => exact ih (hq.put _)

omit hq in
theorem Straight.mruLoop {o : MruOut} (hq : Straight q o.srv) (x : MruCtx) (p : MruParms)
    (frags limit : Nat) (mons : List Mon.MonEntry) :
    Straight q (mruLoop env x p frags limit mons o).1.srv := by
  induction mons generalizing o with
  | nil => exact hq
  | cons mon mons ih =>
    unfold Control.mruLoop
    split_ifs
    · exact ih hq
    · exact ih ((hq.sendMruEntry x mon).put _)
    · exact ih (hq.sendMruEntry x mon)
    · exact hq

theorem Straight.mruReply (x : MruCtx) (s : Mon.MonSys) (p : MruParms) :
    Straight q (mruReply env x s p h).1 := by
  have hbegin : ∀ start, Straight q (mruBegin env x s start { srv := h }).srv := by
    intro start
    cases start with
    | none => exact hq.put _
    | some mon => exact ((hq.put _).put _).put _
  have hfinish : ∀ o : MruOut, Straight q o.srv → Straight q (mruFinish env x o).srv := by
    intro o ho
    unfold mruFinish
    simp only
    split_ifs <;> split
    · exact (ho.put _).put _
    · exact ((ho.put _).put _).put _
    · exact ho.put _
    · exact (ho.put _).put _
  unfold Control.mruReply
  simp only
  split_ifs
  · exact hq.error _
  · exact hq.error _
  · exact (hfinish _ ((hbegin _).mruLoop x p _ _ _)).flush
  · exact ((hbegin _).mruLoop x p _ _ _).flush

theorem Straight.readMruList (data : CStr) : Straight q (readMruList env d data h) := by
  unfold Control.readMruList
  simp only
  split_ifs
  · exact hq.error _
  · exact hq.abort
  · exact (hq.error _).mruReply _ _ _
  · exact hq.mruReply _ _ _
  · exact hq.error _
  · exact hq

theorem Straight.saveConfig (data : CStr) : Straight q (saveConfig env d data h) := by
  unfold Control.saveConfig
  cases d.saveRun with
  | none =>
    simp only
    split_ifs
    · exact hq.respond _
    · exact hq.respond _
  | some r =>
    have hset : Straight q { h with
        ext_sys_var := setVar (octets "savedconfig=" ++ r.filename) RO h.ext_sys_var } :=
      ⟨hq.sync, hq.opcode, hq.sequence, hq.replies⟩
    simp only
    split_ifs
    · exact hq.respond _
    · exact hq.respond _
    · exact hq
    · exact hq.respond _
    · exact hset.respond _
    · exact hq.respond _

theorem Straight.sysReady (d : CtlDaemon) : Straight q (sysReady d h) := by
  unfold Control.sysReady
  simp only
  split_ifs
  · exact ⟨hq.sync, hq.opcode, hq.sequence, hq.replies⟩
  · exact hq.setStatus _

theorem Straight.readVariables (autokey : Bool) (data : CStr) :
    Straight q (readVariables env d autokey data h) := by
  unfold Control.readVariables readPeervars readSysvars
  split_ifs
  · split
    · exact hq.error _
    · exact (hq.setStatus _).answerWanted _ _
  · exact (hq.sysReady d).answerWanted _ _

theorem Straight.writeVariables (autokey : Bool) (data : CStr) :
    Straight q (writeVariables env d autokey data h) := by
  unfold Control.writeVariables
  simp only
  split_ifs
  · exact hq.error _
  · have hset : ∀ vars, Straight q { h.setStatus d.ctlsysstatus with ext_sys_var := vars } :=
      fun _ => ⟨hq.sync, hq.opcode, hq.sequence, hq.replies⟩
    split
    · exact (hset _).flush
    · exact ((hset _).error _).flush
    · exact (hset _).error _

theorem Straight.handle {autokey : Bool} (rb : CtlRecv autokey) {op : CtlOp}
    (hop : op ≠ .configure) : Straight q (handle env d rb h op) := by
  cases op with
  | configure => exact absurd rfl hop
  | unspec =>
    simp only [Control.handle, controlUnspec]
    split_ifs
    · split
      · exact hq.error _
      · exact (hq.setStatus _).flush
    · exact (hq.setStatus _).flush
  | readstat =>
    simp only [Control.handle, readStatus]
    split_ifs
    · split
      · exact hq.error _
      · exact (hq.setStatus _).respond _
    · exact (hq.setStatus _).respond _
  | readvar => exact hq.readVariables _ _
  | writevar => exact hq.writeVariables _ _
  | readclock =>
    simp only [Control.handle, readClockstatus]
    split_ifs
    · exact hq.error _
    · split
      · exact hq.error _
      · exact (hq.setStatus _).answerWanted _ _
  | writeclock => exact hq.error _
  | settrap =>
    simp only [Control.handle, setTrap]
    split_ifs
    · exact hq.error _
    · exact (hq.setTraps _).flush
    · exact ((hq.setTraps _).error _).flush
  | saveconfig => exact hq.saveConfig _
  | readMru => exact hq.readMruList _
  | readOrdlist =>
    simp only [Control.handle, readOrdlist]
    split_ifs
    · exact hq.respond _
    · exact hq.respond _
    · exact hq.error _
  | reqNonce => exact hq.respond _
  | unsettrap =>
    simp only [Control.handle, unsetTrap]
    split_ifs
    · exact (hq.setTraps _).flush
    · exact ((hq.setTraps _).error _).flush

end Straight

/-! ### Events -/

section Events

variable {env : CtlEnv} {d : CtlDaemon} {h : CtlSrv}

/-- An event is reported to the traps. -/
def ReportsAt (h : CtlSrv) : ConfEffect → Prop
  | .trap .. => False
  | .event ev => h.ctl.stopped = false ∧ h.discards ev = false ∧ 0 < h.num_ctl_traps

/-- A configuration leads to an event that is reported. -/
def Reports (d : CtlDaemon) (h : CtlSrv) : Prop :=
  ∃ before e after, d.conf.effects = before ++ e :: after ∧
    ReportsAt (before.foldl (confEffect d) h) e

theorem ctlCall_async (env : CtlEnv) (s : CtlSys) (c : CtlCall) :
    (ctlCall env s c).res_async = s.res_async := by
  have hput : ∀ p : CtlPut, (ctlCall env s p.call).res_async = s.res_async := by
    intro p
    obtain ⟨dp, bin, hcall⟩ | hcall := ctlCall_put env p s
    · obtain ⟨n, -, hsends⟩ := ctlPutdata_sends env dp bin s
      rw [hcall]
      exact hsends.steady.async
    · rw [hcall]
  cases c with
  | putdata dp bin => exact hput (.data dp bin)
  | putstr tag text => exact hput (.str tag text)
  | putunqstr tag text => exact hput (.unqstr tag text)
  | flushpkt => exact (ctlFlushpkt_sends env false s).steady.async
  | error errcode => exact (ctlError_sends env errcode s).steady.async

/-- What follows the message for the traps goes to the traps too. -/
theorem message_async (env : CtlEnv) (ev : Event) (s : CtlSys) :
    (CtlSrv.message env ev s).res_async = true := by
  have hgo : ∀ (cs : List CtlCall) (s : CtlSys),
      (cs.foldl (ctlGo env) s).res_async = s.res_async := by
    intro cs
    induction cs with
    | nil => exact fun _ => rfl
    | cons c cs ih =>
      intro s
      rw [foldl_cons, ih]
      unfold ctlGo
      split_ifs
      · rfl
      · exact ctlCall_async env s c
  unfold CtlSrv.message
  by_cases hins : ev.err &&& PEER_EVENT ≠ 0 ∧ ev.peer = none
  · rw [if_pos hins]
    rfl
  · rw [if_neg hins, hgo]
    rfl

/-- A report is no reply. It uses the variables of the response if there are traps. -/
theorem report_spec (env : CtlEnv) (ev : Event) (h : CtlSrv) :
    (h.report env ev).replies = h.replies ∧
    (ReportsAt h (.event ev) → (h.report env ev).ctl = CtlSrv.message env ev h.ctl) ∧
    (¬ ReportsAt h (.event ev) → (h.report env ev).ctl = h.ctl) := by
  have hcount : (h.countEvent ev).replies = h.replies ∧ (h.countEvent ev).ctl = h.ctl ∧
      (h.countEvent ev).num_ctl_traps = h.num_ctl_traps := by
    unfold CtlSrv.countEvent
    cases ev.peer <;> exact ⟨rfl, rfl, rfl⟩
  obtain ⟨hreplies, hctl, hnum⟩ := hcount
  unfold CtlSrv.report ReportsAt
  by_cases hs : h.ctl.stopped = true
  · rw [if_pos hs]
    exact ⟨rfl, fun hr => absurd hr.1 (by simp [hs]), fun _ => rfl⟩
  · rw [if_neg hs]
    by_cases hd : h.discards ev = true
    · rw [if_pos hd]
      refine ⟨?_, fun hr => absurd hr.2.1 (by simp [hd]), fun _ => ?_⟩
      · cases ev.peer <;> rfl
      · cases ev.peer <;> rfl
    · rw [if_neg hd]
      simp only [hnum]
      by_cases hle : h.num_ctl_traps ≤ 0
      · rw [if_pos hle]
        exact ⟨hreplies, fun hr => absurd hr.2.2 (not_lt.mpr hle), fun _ => hctl⟩
      · rw [if_neg hle, hctl]
        refine ⟨hreplies, fun _ => rfl, fun hr => absurd ⟨?_, ?_, not_le.mp hle⟩ hr⟩
        · simpa using hs
        · simpa using hd

/-- One effect: an event that is reported makes the response go to the traps, and anything
    else changes the traps only. There are no replies. -/
theorem confEffect_spec (d : CtlDaemon) (h : CtlSrv) (e : ConfEffect) :
    (confEffect d h e).replies = h.replies ∧
    (ReportsAt h e → (confEffect d h e).ctl.res_async = true) ∧
    (¬ ReportsAt h e → ∃ ts, (confEffect d h e).ctl = { h.ctl with ctl_traps := ts }) := by
  cases e with
  | trap addr linter version =>
    refine ⟨?_, fun hr => hr.elim, fun _ => ?_⟩
    · simp only [confEffect]
      split_ifs <;> rfl
    · simp only [confEffect]
      split_ifs
      · exact ⟨_, rfl⟩
      · exact ⟨_, rfl⟩
  | event ev =>
    obtain ⟨hreplies, hreport, hnot⟩ := report_spec d.conf.env ev h
    refine ⟨hreplies, fun hr => ?_, fun hr => ⟨h.ctl.ctl_traps, hnot hr⟩⟩
    simp only [confEffect, hreport hr]
    exact message_async _ _ _

theorem confEffect_async (d : CtlDaemon) (h : CtlSrv) (e : ConfEffect)
    (hasync : h.ctl.res_async = true) : (confEffect d h e).ctl.res_async = true := by
  obtain ⟨-, hreport, hnot⟩ := confEffect_spec d h e
  by_cases hr : ReportsAt h e
  · exact hreport hr
  · obtain ⟨ts, hts⟩ := hnot hr
    rw [hts]
    exact hasync

theorem reports_cons {e : ConfEffect} {es : List ConfEffect} :
    (∃ before e' after, e :: es = before ++ e' :: after ∧
        ReportsAt (before.foldl (confEffect d) h) e') ↔
      ReportsAt h e ∨ ∃ before e' after, es = before ++ e' :: after ∧
        ReportsAt (before.foldl (confEffect d) (confEffect d h e)) e' := by
  constructor
  · rintro ⟨before, e', after, heq, hr⟩
    cases before with
    | nil =>
      cases heq
      exact .inl hr
    | cons b before =>
      obtain ⟨rfl, hes⟩ := List.cons.inj heq
      exact .inr ⟨before, e', after, hes, hr⟩
  · rintro (hr | ⟨before, e', after, heq, hr⟩)
    · exact ⟨[], e, es, rfl, hr⟩
    · exact ⟨e :: before, e', after, by rw [heq, cons_append], hr⟩

theorem effects_spec (d : CtlDaemon) (es : List ConfEffect) (h : CtlSrv) :
    let h' := es.foldl (confEffect d) h
    let reports := ∃ before e after, es = before ++ e :: after ∧
      ReportsAt (before.foldl (confEffect d) h) e
    h'.replies = h.replies ∧ (h.ctl.res_async = true ∨ reports → h'.ctl.res_async = true) ∧
      (¬ reports → ∃ ts, h'.ctl = { h.ctl with ctl_traps := ts }) := by
  induction es generalizing h with
  | nil =>
    refine ⟨rfl, ?_, fun _ => ⟨h.ctl.ctl_traps, rfl⟩⟩
    rintro (hasync | ⟨before, e, after, heq, -⟩)
    · exact hasync
    · exact absurd heq (by simp)
  | cons e es ih =>
    obtain ⟨hreplies, hreport, hnot⟩ := confEffect_spec d h e
    obtain ⟨ihreplies, ihasync, ihnot⟩ := ih (confEffect d h e)
    simp only [foldl_cons, reports_cons]
    refine ⟨ihreplies.trans hreplies, ?_, ?_⟩
    · rintro (hasync | hr | hr)
      · exact ihasync (.inl (confEffect_async d h e hasync))
      · exact ihasync (.inl (hreport hr))
      · exact ihasync (.inr hr)
    · intro hnone
      obtain ⟨hat, hin⟩ := not_or.mp hnone
      obtain ⟨ts, hts⟩ := hnot hat
      obtain ⟨ts', hts'⟩ := ihnot hin
      exact ⟨ts', by rw [hts', hts]⟩

end Events

/-! ### A request -/

section Requests

variable {autokey : Bool} {env : CtlEnv} {d : CtlDaemon} {rb : CtlRecv autokey} {h : CtlSrv}

/-- What a request asks for. -/
def CtlRecv.query (rb : CtlRecv autokey) : Query :=
  ⟨rb.hdr.r_m_e_op &&& CTL_OP_MASK, rb.hdr.sequence⟩

/-- The variables at the beginning of a response. -/
structure Opened (rb : CtlRecv autokey) (s s' : CtlSys) : Prop where
  sync : s'.res_async = false
  opcode : s'.res_opcode = rb.hdr.r_m_e_op
  sequence : s'.rpkt.sequence = rb.hdr.sequence
  associd : s'.res_associd = rb.hdr.associd
  sent : s'.sent = s.sent

theorem setUp_opened (env : CtlEnv) (rb : CtlRecv autokey) (s : CtlSys) :
    Opened rb s (setUp env rb s) :=
  ⟨rfl, rfl, rfl, rfl, rfl⟩

theorem checkAuth_opened (env : CtlEnv) (rb : CtlRecv autokey) (s : CtlSys) :
    Opened rb s (checkAuth env rb (setUp env rb s)) := by
  unfold checkAuth
  split_ifs <;> exact ⟨rfl, rfl, rfl, rfl, rfl⟩

theorem Opened.error {s s' : CtlSys} (ho : Opened rb s s') (env : CtlEnv) (errcode : CtlErr) :
    ∃ ps, (ctlError env errcode s').sent = s.sent ++ ps ∧
      ∀ p ∈ ps, opcodeOf p = rb.query.opcode ∧ sequenceOf p = rb.query.sequence := by
  obtain ⟨⟨ps, hps, -, hall⟩, -, -⟩ := ctlError_sends env errcode s'
  refine ⟨ps, by rw [hps, ho.sent], fun p hp => ?_⟩
  obtain ⟨hop, hseq⟩ := hall p hp
  refine ⟨?_, (hseq ho.sync).trans ho.sequence⟩
  unfold opcodeOf CtlRecv.query
  rw [hop, errBits, ho.opcode]

/-- A request that no function is called for is ignored, or it gets an error. -/
theorem processControl_refuses {s : CtlSys} (hnone : (processControl env rb s).2 = none) :
    ∃ ps, (processControl env rb s).1.sent = s.sent ++ ps ∧
      ∀ p ∈ ps, opcodeOf p = rb.query.opcode ∧ sequenceOf p = rb.query.sequence := by
  unfold processControl at hnone ⊢
  simp only at hnone ⊢
  split_ifs at hnone ⊢
  · exact ⟨[], (append_nil _).symm, nofun⟩
  · exact (setUp_opened env rb s).error env _
  · cases hop : CtlOp.ofCode (checkAuth env rb (setUp env rb s)).res_opcode with
    | none => exact (checkAuth_opened env rb s).error env _
    | some op =>
      rw [hop] at hnone
      simp only at hnone ⊢
      split_ifs at hnone ⊢
      exact (checkAuth_opened env rb s).error env _

theorem received_opened {op : CtlOp} (hcall : (processControl env rb h.ctl).2 = some op) :
    Opened rb h.ctl (received env rb h).ctl ∧ (received env rb h).replies = [] := by
  have hs := (processControl_calls (Prod.ext rfl hcall :
    processControl env rb h.ctl = ((processControl env rb h.ctl).1, some op))).2
  have ho : Opened rb h.ctl (received env rb h).ctl := by
    change Opened rb h.ctl (processControl env rb h.ctl).1
    rw [hs]
    exact checkAuth_opened env rb h.ctl
  refine ⟨ho, ?_⟩
  change ((received env rb h).ctl.sent.drop h.ctl.sent.length).map _ = []
  rw [ho.sent, drop_length]
  rfl

/-- The replies to a request that no function is called for. -/
theorem received_refused (hnone : (processControl env rb h.ctl).2 = none) :
    ∀ r ∈ (received env rb h).replies, r.Answers rb.query := by
  obtain ⟨ps, hsent, hall⟩ := processControl_refuses hnone
  have hreplies : (received env rb h).replies =
      ((processControl env rb h.ctl).1.sent.drop h.ctl.sent.length).map
        fun pkt => ⟨.requester, pkt⟩ := rfl
  rw [hreplies, hsent, drop_left]
  intro r hr
  obtain ⟨p, hp, rfl⟩ := mem_map.mp hr
  exact ⟨rfl, hall p hp⟩

theorem received_straight {op : CtlOp} (hcall : (processControl env rb h.ctl).2 = some op) :
    Straight rb.query (received env rb h) := by
  obtain ⟨ho, hreplies⟩ := received_opened hcall
  refine ⟨ho.sync, ?_, ho.sequence, ?_⟩
  · rw [ho.opcode]
    rfl
  · rw [hreplies]
    exact nofun

theorem requestStep_calls {op : CtlOp} (hs : h.ctl.stopped = false)
    (hcall : (processControl env rb h.ctl).2 = some op) :
    requestStep env d rb h = handle env d rb (received env rb h) op := by
  unfold requestStep
  rw [hs, hcall]
  rfl

/-- The response to a configuration goes to traps: an event was reported, and some trap is in
    use when the response is sent. -/
def Diverted (env : CtlEnv) (d : CtlDaemon) (rb : CtlRecv autokey) (h : CtlSrv) : Prop :=
  h.ctl.stopped = false ∧ (processControl env rb h.ctl).2 = some .configure ∧
    rb.hdr.associd = 0 ∧ d.restricts RES_NOMODIFY = false ∧ Reports d (received env rb h) ∧
    (d.conf.effects.foldl (confEffect d) (received env rb h)).ctl.stopped = false ∧
    ∃ t ∈ (d.conf.effects.foldl (confEffect d) (received env rb h)).ctl.ctl_traps, t.inuse = true

theorem configure_calls (data : CStr) (errors : List YyError) (rc : RemoteConfig) :
    ∃ text, (configure 0 false data errors rc).2 = [.putdata text false, .flushpkt] :=
  ⟨_, rfl⟩

theorem Straight.of_traps {q : Query} {h' : CtlSrv} {ts : List CtlTrap} (hq : Straight q h)
    (hctl : h'.ctl = { h.ctl with ctl_traps := ts }) (hreplies : h'.replies = h.replies) :
    Straight q h' := by
  refine ⟨?_, ?_, ?_, hreplies ▸ hq.replies⟩
  · rw [hctl]
    exact hq.sync
  · rw [hctl]
    exact hq.opcode
  · rw [hctl]
    exact hq.sequence

theorem Straight.call {q : Query} (hq : Straight q h) (c : CtlCall) :
    Straight q (h.call env c) := by
  cases c with
  | putdata dp bin => exact hq.put (.data dp bin)
  | putstr tag text => exact hq.put (.str tag text)
  | putunqstr tag text => exact hq.put (.unqstr tag text)
  | flushpkt => exact hq.flush
  | error errcode => exact hq.error errcode

/-- What follows the effects of a configuration: a text and the end of the response. -/
theorem answer_added (env : CtlEnv) (text : CStr) (hs : h.ctl.stopped = false)
    (hnone : h.replies = []) :
    let h' := [CtlCall.putdata text false, .flushpkt].foldl (CtlSrv.call env) h
    (h'.replies = [] ↔ audience h.ctl = 0) ∧
    ∀ r ∈ h'.replies, r.dest = if h.ctl.res_async then .trap else .requester := by
  obtain ⟨n, hn, hsends⟩ := ctlPutdata_sends env text false h.ctl
  have hput : Added h (h.call env (.putdata text false))
      (if h.ctl.res_async then .trap else .requester) n :=
    added_of_sends hs hsends (opBits true _).2.2.2
  have hflush := @flush_added env (h.call env (.putdata text false)) (hput.stopped.trans hs)
  rw [hput.steady.async, hput.steady.audience_eq] at hflush
  constructor
  · have hlen := hflush.length_eq
    rw [hput.length_eq, hnone, length_nil] at hlen
    rw [← length_eq_zero_iff]
    refine (Eq.congr_left hlen).trans ⟨fun h => ?_, fun h => ?_⟩
    · omega
    · rw [hn h, h]
  · exact hflush.dest_eq (hput.dest_eq (by rw [hnone]; exact nofun))

/-- A request to configure that is carried out: the response follows the effects. -/
theorem requestStep_configure (hs : h.ctl.stopped = false)
    (hcall : (processControl env rb h.ctl).2 = some .configure) (hassoc : rb.hdr.associd = 0)
    (hmod : d.restricts RES_NOMODIFY = false) :
    ∃ text h', h'.ctl = (d.conf.effects.foldl (confEffect d) (received env rb h)).ctl ∧
      h'.replies = [] ∧
      requestStep env d rb h =
        [CtlCall.putdata text false, .flushpkt].foldl (CtlSrv.call d.conf.env) h' := by
  obtain ⟨ho, hnone⟩ := received_opened hcall
  have hassoc' : (received env rb h).ctl.res_associd = 0 := ho.associd.trans hassoc
  obtain ⟨hreplies, -⟩ := effects_spec d d.conf.effects (received env rb h)
  obtain ⟨text, htext⟩ := configure_calls rb.lines d.conf.errors (received env rb h).rc
  refine ⟨text, { d.conf.effects.foldl (confEffect d) (received env rb h) with
    rc := (configure 0 false rb.lines d.conf.errors (received env rb h).rc).1 }, rfl,
    hreplies.trans hnone, ?_⟩
  rw [requestStep_calls hs hcall]
  simp only [handle, configureReq, hassoc', hmod, Bool.false_eq_true, if_false, ne_eq,
    not_true_eq_false, or_self, htext]

theorem diverted_not_straight (hd : Diverted env d rb h) :
    ¬ ∀ r ∈ (requestStep env d rb h).replies, r.Answers rb.query := by
  obtain ⟨hs, hcall, hassoc, hmod, hreports, hs', t, ht, hinuse⟩ := hd
  obtain ⟨-, hasync, -⟩ := effects_spec d d.conf.effects (received env rb h)
  have hasync := hasync (.inr hreports)
  obtain ⟨text, h', hctl, hnone, hstep⟩ := requestStep_configure hs hcall hassoc hmod
  rw [← hctl] at hs' hasync ht
  obtain ⟨hnil, hdest⟩ := answer_added d.conf.env text hs' hnone
  rw [← hstep] at hnil hdest
  -- There is a reply, because some trap is in use, and it went to a trap.
  have hne : (requestStep env d rb h).replies ≠ [] := by
    rw [ne_eq, hnil]
    unfold audience
    rw [if_pos hasync]
    exact (countP_pos_iff.mpr ⟨t, ht, hinuse⟩).ne'
  intro hall
  obtain ⟨r, hr⟩ := exists_mem_of_ne_nil _ hne
  have hreq := (hall r hr).1
  rw [hdest r hr, if_pos hasync] at hreq
  cases hreq

theorem Straight.calls {q : Query} (hq : Straight q h) (cs : List CtlCall) :
    Straight q (cs.foldl (CtlSrv.call env) h) := by
  induction cs generalizing h with
  | nil => exact hq
  | cons c cs ih => exact ih (hq.call c)

/-- Without anybody to send them to, there are no replies. -/
theorem answer_silent (env : CtlEnv) (text : CStr) (hnone : h.replies = [])
    (hno : h.ctl.stopped = true ∨ audience h.ctl = 0) :
    ([CtlCall.putdata text false, .flushpkt].foldl (CtlSrv.call env) h).replies = [] := by
  by_cases hs : h.ctl.stopped = true
  · simp only [foldl_cons, foldl_nil]
    rw [call_of_stopped _ hs, call_of_stopped _ hs]
    exact hnone
  · exact (answer_added env text (by simpa using hs) hnone).1.mpr (hno.resolve_left hs)

theorem configure_straight (hs : h.ctl.stopped = false)
    (hcall : (processControl env rb h.ctl).2 = some .configure) (hnot : ¬ Diverted env d rb h) :
    ∀ r ∈ (requestStep env d rb h).replies, r.Answers rb.query := by
  have hq := received_straight hcall
  obtain ⟨ho, hnone⟩ := received_opened hcall
  by_cases hearly : rb.hdr.associd ≠ 0 ∨ d.restricts RES_NOMODIFY = true
  · rw [requestStep_calls hs hcall]
    change ∀ r ∈ (configureReq env d rb.lines (received env rb h)).replies, _
    unfold configureReq
    rw [if_pos (by rwa [ho.associd])]
    have hset : ∀ rc, Straight rb.query { received env rb h with rc := rc } :=
      fun rc => ⟨hq.sync, hq.opcode, hq.sequence, hq.replies⟩
    exact ((hset _).calls _).replies
  · obtain ⟨hassoc, hmod⟩ := not_or.mp hearly
    obtain ⟨text, h', hctl, hnone', hstep⟩ :=
      requestStep_configure hs hcall (not_not.mp hassoc) (by simpa using hmod)
    rw [hstep]
    by_cases hreports : Reports d (received env rb h)
    · -- An event was reported, so the daemon has stopped or there is no trap in use.
      obtain ⟨-, hasync, -⟩ := effects_spec d d.conf.effects (received env rb h)
      have hasync := hasync (.inr hreports)
      have hno : h'.ctl.stopped = true ∨ audience h'.ctl = 0 := by
        by_contra hboth
        obtain ⟨hs', haud⟩ := not_or.mp hboth
        apply hnot
        rw [hctl] at hs' haud
        unfold audience at haud
        rw [if_pos hasync] at haud
        exact ⟨hs, hcall, not_not.mp hassoc, by simpa using hmod, hreports, by simpa using hs',
          countP_pos_iff.mp (pos_of_ne_zero haud)⟩
      rw [answer_silent d.conf.env text hnone' hno]
      exact nofun
    · obtain ⟨-, -, heffects⟩ := effects_spec d d.conf.effects (received env rb h)
      obtain ⟨ts, hts⟩ := heffects hreports
      exact ((hq.of_traps (hctl.trans hts) (hnone'.trans hnone.symm)).calls _).replies

/-- The packets of a response all go to the one who asked, with the operation and the sequence
    number of the request, if and only if it is no configuration that was diverted by an event. -/
theorem replies_straight_iff (env : CtlEnv) (d : CtlDaemon) (rb : CtlRecv autokey) (h : CtlSrv) :
    (∀ r ∈ (requestStep env d rb h).replies, r.Answers rb.query) ↔ ¬ Diverted env d rb h := by
  constructor
  · intro hall hd
    exact diverted_not_straight hd hall
  · intro hnot
    by_cases hs : h.ctl.stopped = true
    · unfold requestStep
      rw [if_pos hs]
      exact nofun
    · have hs : h.ctl.stopped = false := by simpa using hs
      cases hcall : (processControl env rb h.ctl).2 with
      | none =>
        have hstep : requestStep env d rb h = received env rb h := by
          unfold requestStep
          rw [hs, hcall]
          rfl
        rw [hstep]
        exact received_refused hcall
      | some op =>
        by_cases hop : op = .configure
        · subst hop
          exact configure_straight hs hcall hnot
        · rw [requestStep_calls hs hcall]
          exact ((received_straight hcall).handle rb hop).replies

end Requests

/-- A request to configure an association. -/
def serverRequest : CtlRecv true :=
  configRequest (octets "server 10.0.0.1\n") (by decide +kernel)

/-- The daemon mobilizes the association, which is an event. -/
def mobilizing : CtlDaemon :=
  { quietDaemon with
    conf := ⟨[], [.event ⟨0x81, some ⟨5, 0, 0⟩, 0x8011, [.data (octets "config=1") false]⟩],
      md5Env⟩ }

/-- A daemon with one trap, whose next message has the number 7. -/
def trapSrv : CtlSrv :=
  { ctl := ctlStart (fun _ => 0) [⟨true, 2, 7⟩]
    rc := ⟨⟨fun _ => 0, []⟩, ⟨fun _ => 0, []⟩, 0, 0, 0, []⟩
    traps := [{}]
    num_ctl_traps := 1 }

/-- The request has operation 8 and sequence number 1. The response goes to the trap, as a
    message with operation 7 and number 8. -/
theorem configure_diverted :
    serverRequest.query = ⟨8, 1⟩ ∧ (requestStep md5Env mobilizing serverRequest trapSrv).replies.map
      (fun r => (r.dest, opcodeOf r.pkt, sequenceOf r.pkt)) = [(.trap, 7, 8)] := by
  decide +kernel

end NtpSuite.Control
