import NtpSuite.Theory.RateControl
import NtpSuite.Theory.OnWire
import NtpSuite.Theory.Table
import NtpSuite.Core.Daemon

/-!
# Associations in the Daemon

The rate control and the protection of the on-wire protocol are about the life
of a single association, in which a step is a tick, a packet or a call of one
procedure. Here the daemon is shown to do just that to an association: its turn
in the timer is a tick of its line, and a packet matched to it is a packet of
its on-wire protocol.

The daemon does more in between. The clock filter may run the selection, which
may update the poll exponent of this and of other associations. What that does
to this association is a list of moves, and the moves do not touch the on-wire
variables. A step of the clock is left out, since it clears the association.

## Main definitions

* `OnWireAt`: The on-wire variables of the association at an address.

## Theorems

* `timerTurn_line`: The turn of a unicast association is a tick of its line.
* `receiveMatched_wire`: A matched packet is a packet of the on-wire protocol.
-/

namespace NtpSuite

variable {α : Type} [Field α] (c : Cfg α) (e : Env α) {s : Sys α} {p : Peer α}

/-! ### The on-wire variables -/

/-- The association at the address, if any, has these on-wire variables. -/
def OnWireAt (ptr : Nat) (w : OnWire) (s : Sys α) : Prop :=
  Everywhere (fun r => r.ptr = ptr → r.toOnWire = w) s

theorem onWireAt_setPeer (s : Sys α) (q : Peer α) : OnWireAt q.ptr q.toOnWire (s.setPeer q) := by
  intro r hr hptr
  obtain ⟨r', -, rfl⟩ := List.mem_map.mp hr
  by_cases h : r'.ptr = q.ptr
  · rw [if_pos h]
  · rw [if_neg h] at hptr
    exact absurd hptr h

theorem Moves.onWire {c : Cfg α} {now : Nat} {q : Peer α} (h : Moves c now p q) :
    q.toOnWire = p.toOnWire :=
  h.same (·.toOnWire) fun a _ => by cases a <;> rfl

/-- A change to an association that keeps the variables and the address. -/
theorem OnWireAt.modifyPeer {ptr : Nat} {w : OnWire} (h : OnWireAt ptr w s)
    (at_ : Nat) {f : Peer α → Peer α} (hptr : ∀ r, (f r).ptr = r.ptr)
    (hf : ∀ r : Peer α, r.toOnWire = w → (f r).toOnWire = w) :
    OnWireAt ptr w (s.modifyPeer at_ f) := by
  refine Everywhere.modifyPeer h at_ (fun r hr hat => ?_)
  rw [hptr r] at hat
  exact hf r (hr hat)

/-! ### The daemon -/

theorem peer?_setPeer_of {q : Peer α} {ptr : Nat} (hp : s.peer? ptr = some p) (hq : q.ptr = ptr) :
    (s.setPeer q).peer? ptr = some q := by
  obtain ⟨hmem, hat⟩ := mem_of_peer? hp
  rw [← hq]
  exact peer?_setPeer ⟨p, hmem, hat.trans hq.symm⟩

theorem transmitXmit_ptr (now hpoll : Nat) (p : Peer α) :
    (transmitXmit c e now hpoll p).1.ptr = p.ptr := by
  obtain ⟨b, -, hxmit⟩ := xmitUnlessListening_sched c e (countRetry p)
  exact (congrArg Sched.ptr hxmit).trans (congrArg Sched.ptr (countRetry_sched p))

variable [LinearOrder α]

theorem transmitSend_ptr {now sys_poll : Nat} {excess : Peer α → Bool} {p0 : Peer α}
    {r : Peer α × Option LFp}
    (h : transmitSend c e now sys_poll excess p0 p = some r) : r.1.ptr = p.ptr := by
  have hpoll : (transmitPoll c e now sys_poll p0 p).1.ptr = p.ptr :=
    congrArg Sched.ptr (transmitPoll_sched c e now sys_poll p0 p)
  simp only [transmitSend] at h
  split_ifs at h
  · exact Option.some.inj h ▸ (transmitXmit_ptr c e now _ _).trans hpoll
  · exact Option.some.inj h ▸ (transmitXmit_ptr c e now _ _).trans hpoll
  · exact Option.some.inj h ▸ transmitXmit_ptr c e now _ _

theorem processPacket_ptr (now : Nat) (pkt : Pkt) (p : Peer α) :
    (processPacket c e now pkt p).1.ptr = p.ptr := by
  obtain ⟨b, n, harm⟩ := armBurst_sched now (captureHeader pkt p)
  have hheader : (packetHeader c e now pkt p).ptr = p.ptr := congrArg Sched.ptr harm
  exact (congrArg Sched.ptr (processPacket_sched c e now pkt p)).trans hheader

section

variable (hstep : ∀ x, (e.local_clock x).rval ≠ 2)

include hstep

/-- The clock filter, if the discipline does not step the clock, takes an
    association to where a list of moves takes it. -/
theorem clockFilter_line (x : Sample α) (hp : s.peer? p.ptr = some p) :
    (∃ mid : List (Inner α), (clockFilter c e s x p).peer? p.ptr
        = some (mid.foldl (innerMove c s.current_time) p))
      ∧ (clockFilter c e s x p).current_time = s.current_time
      ∧ ownCalls (clockFilter c e s x p) = ownCalls s := by
  obtain ⟨q, hpq, hacts⟩ := clockFilter_acts c e s x p
  refine ⟨?_, hacts.current_time, hacts.quiet⟩
  -- Without a step of the clock nothing is cleared.
  have hmoves : Acts (Moves c s.current_time) (s.setPeer q) (clockFilter c e s x p) := by
    refine hacts.mono (fun r r' hr => ?_)
    rcases hr with hr | ⟨⟨y, hy⟩, -⟩
    · exact hr
    · exact absurd hy (hstep y)
  have hset : (s.setPeer q).peer? p.ptr = some q := peer?_setPeer_of hp hpq.ptr
  obtain ⟨r, hr, hqr⟩ := hmoves.peer? (fun _ _ h => h.ptr) hset
  obtain ⟨mid, rfl⟩ := hpq.trans hqr
  exact ⟨mid, hr⟩

theorem transmitUnicast_line (hp : s.peer? p.ptr = some p) :
    ∃ sys_poll excess mid,
      let r := transmitSend c e s.current_time sys_poll excess p (reachLine c s.current_time mid p)
      (transmitUnicast c e s p).peer? p.ptr = r.map Prod.fst
        ∧ ownCalls (transmitUnicast c e s p)
          = (r.bind Prod.snd).toList.map (Call.sendpkt p.ptr) ++ ownCalls s := by
  have hptr : (transmitReach s.current_time p).ptr = p.ptr :=
    congrArg Sched.ptr (transmitReach_sched s.current_time p)
  simp only [transmitUnicast, reachLine]
  generalize transmitReach s.current_time p = q at hptr
  -- First the shifted register is written back.
  have hset : (s.setPeer q).peer? p.ptr = some q := peer?_setPeer_of hp hptr
  have hburst : (burstDone c (s.setPeer q) p q).peer? p.ptr = some q
      ∧ (burstDone c (s.setPeer q) p q).current_time = s.current_time
      ∧ ownCalls (burstDone c (s.setPeer q) p q) = ownCalls s := by
    rw [burstDone]
    split
    · exact ⟨hset, rfl, rfl⟩
    · exact ⟨hset, rfl, rfl⟩
  generalize burstDone c (s.setPeer q) p q = t at hburst
  obtain ⟨htq, htime, hcalls⟩ := hburst
  -- Then the clock filter may run.
  obtain ⟨mid, u, r, hu, hr, hur, hutime, hucalls⟩ : ∃ (mid : List (Inner α)) (u : Sys α) (r : _),
      (if p.burst = 0 ∧ q.reach = 0 then clockFilter c e t ⟨0, 0, MAXDISPERSE⟩ q else t) = u
        ∧ (if p.burst = 0 ∧ q.reach = 0 then mid.foldl (innerMove c s.current_time) q else q) = r
        ∧ u.peer? p.ptr = some r ∧ u.current_time = s.current_time ∧ ownCalls u = ownCalls s := by
    by_cases hrun : p.burst = 0 ∧ q.reach = 0
    · rw [← hptr] at htq
      obtain ⟨⟨mid, hmid⟩, htime', hcalls'⟩ :=
        clockFilter_line c e hstep ⟨0, 0, MAXDISPERSE⟩ htq
      rw [htime, hptr] at hmid
      simp only [if_pos hrun]
      exact ⟨mid, _, _, rfl, rfl, hmid, htime'.trans htime, hcalls'.trans hcalls⟩
    · simp only [if_neg hrun]
      exact ⟨[], t, q, rfl, rfl, htq, htime, hcalls⟩
  rw [hu]
  have hload : u.reload q = r := by rw [Sys.reload, hptr, hur, Option.getD_some]
  refine ⟨u.sys_poll, isExcess c u, mid, ?_⟩
  rw [hload, hutime, hr]
  have hrptr := (mem_of_peer? hur).2
  -- Last the packet goes out, unless the association is given up.
  rcases hsend : transmitSend c e s.current_time u.sys_poll (isExcess c u) p r
    with _ | ⟨r', _ | xmt⟩
  · refine ⟨?_, hucalls⟩
    rw [hptr]
    exact peer?_unpeer u p.ptr
  · exact ⟨peer?_setPeer_of hur ((transmitSend_ptr c e hsend).trans hrptr), hucalls⟩
  · have hsent : r'.ptr = p.ptr := (transmitSend_ptr c e hsend).trans hrptr
    refine ⟨peer?_setPeer_of hur hsent, ?_⟩
    simp only [hsent]
    exact congrArg (List.cons _) hucalls

/-- In the timer, the turn of a unicast association is a tick of its line. If the tick
    demobilizes it, it is gone from the table, and if it sends, the packet is the only call. -/
theorem timerTurn_line {n : Nat} (hp : s.peer? p.ptr = some p) (hnow : s.current_time = n + 1)
    (hcast : p.cast_flags = { ucast := true }) (hclock : p.flags.refclock = false) :
    ∃ sys_poll excess mid,
      let l := tickLine c { now := n, peer := p } e sys_poll excess mid
      (timerTurn c e s p.ptr).peer? p.ptr = (if l.gone then none else some l.peer)
        ∧ (ownCalls (timerTurn c e s p.ptr)).length = (ownCalls s).length + l.sent.length := by
  have hptr : ∀ q : Peer α, (timerPeer q).ptr = q.ptr :=
    fun q => congrArg Sched.ptr (timerPeer_sched q)
  have hflags : (timerPeer p).cast_flags = p.cast_flags
      ∧ (timerPeer p).flags = p.flags := by
    rw [timerPeer]
    split
    · exact ⟨rfl, rfl⟩
    · exact ⟨rfl, rfl⟩
  have hturn : (s.modifyPeer p.ptr timerPeer).peer? p.ptr = some (timerPeer p) :=
    peer?_modifyPeer hptr hp
  have hq := hptr p
  simp only [timerTurn, hturn, tickLine]
  rw [← hq] at hturn ⊢
  generalize timerPeer p = q at hturn hq hflags
  have hnow' : (s.modifyPeer q.ptr timerPeer).current_time = n + 1 := hnow
  by_cases hdue : q.nextdate ≤ n + 1
  · -- Due: a unicast association that is no clock comes to `transmitUnicast`.
    obtain ⟨sys_poll, excess, mid, hpeer, hcalls⟩ := transmitUnicast_line c e hstep hturn
    rw [hnow'] at hpeer hcalls
    refine ⟨sys_poll, excess, mid, ?_⟩
    have htransmit : transmit c e (s.modifyPeer q.ptr timerPeer) q
        = transmitUnicast c e (s.modifyPeer q.ptr timerPeer) q := by
      rw [transmit, hflags.1, hcast]
      rfl
    rw [hnow', if_pos hdue, hflags.2, hclock, Bool.and_false, if_neg (by decide), htransmit,
      hpeer, hcalls]
    simp only [if_pos hdue]
    rcases transmitSend c e (n + 1) sys_poll excess q (reachLine c (n + 1) mid q)
      with _ | ⟨r, _ | xmt⟩
    · exact ⟨rfl, rfl⟩
    · exact ⟨rfl, rfl⟩
    · exact ⟨rfl, rfl⟩
  · -- Not due: nothing but the counter changes.
    refine ⟨0, fun _ => false, [], ?_⟩
    rw [hnow']
    simp only [if_neg hdue]
    exact ⟨hturn, rfl⟩

/-- `process_packet` leaves the variables as it does before the clock filter. -/
theorem processPacketSys_wire (s : Sys α) (pkt : Pkt) (p : Peer α) :
    OnWireAt p.ptr (processPacket c e s.current_time pkt p).1.toOnWire
      (processPacketSys c e s pkt p) := by
  have hptr := processPacket_ptr c e s.current_time pkt p
  have htime : (countProcessed s).current_time = s.current_time := rfl
  simp only [processPacketSys, htime]
  generalize processPacket c e s.current_time pkt p = m at hptr
  obtain ⟨q, _ | x⟩ := m
  · rw [← hptr]
    exact onWireAt_setPeer (countProcessed s) q
  · -- The selection moves the association, and the volley may end.
    have hfilter : OnWireAt p.ptr q.toOnWire
        (clockFilter c e ((countProcessed s).setPeer q) x q) := by
      obtain ⟨r, hqr, hacts⟩ := clockFilter_acts c e ((countProcessed s).setPeer q) x q
      have hset : OnWireAt p.ptr q.toOnWire (((countProcessed s).setPeer q).setPeer r) := by
        rw [← hqr.onWire, ← hptr, ← hqr.ptr]
        exact onWireAt_setPeer _ r
      refine Everywhere.acts hset (fun r r' hr hmove hat => ?_) hacts
      rcases hmove with hmove | ⟨⟨y, hy⟩, -⟩
      · rw [hmove.onWire]
        exact hr (hmove.ptr.symm.trans hat)
      · exact absurd hy (hstep y)
    refine hfilter.modifyPeer q.ptr (fun r => ?_) (fun r hr => ?_)
    · exact congrArg Sched.ptr (finishVolley_sched c e _ r)
    · rw [← hr]
      simp only [finishVolley]
      split_ifs <;> rfl

/-- In basic mode and without a step of the clock, a packet matched to an association
    does to its on-wire variables what the on-wire protocol does. -/
theorem receiveMatched_wire (rx : Rx) {r : Peer α} (hkind : wrongKeyKind c rx p = false)
    (hr : (receiveMatched c e s rx p).peer? p.ptr = some r) :
    let q := afterPacket c e (if nakReply rx p then s.log (.fastXmit .active 0) else s) rx p
    q.flip = 0 → r.toOnWire = q.toOnWire := by
  rw [receiveMatched, hkind, if_neg (by decide)] at hr
  generalize (if nakReply rx p then s.log (.fastXmit .active 0) else s) = t at hr ⊢
  intro q hflip
  obtain ⟨hmem, hat⟩ := mem_of_peer? hr
  have hptr := (receivePeer_frame c e t rx p).1
  unfold q afterPacket at *
  rcases hv : receivePeer c e t rx p with q | q | q
  · rw [hv] at hptr
    simp only [hv] at hmem
    exact onWireAt_setPeer t q r hmem (hat.trans hptr.symm)
  · -- The association is gone.
    rw [hv] at hptr
    have hptr : q.ptr = p.ptr := hptr
    simp only [hv, hptr, peer?_unpeer] at hr
    exact absurd hr (by simp)
  · rw [hv] at hptr
    simp only [hv] at hmem hflip
    -- In basic mode the end of `receive` leaves the variables alone.
    have hwire := processPacketSys_wire c e hstep (t.setPeer q) rx.pkt q
    refine hwire.modifyPeer q.ptr (f := interleave t.current_time rx) (fun r => ?_)
      (fun r hr => ?_) r hmem (hat.trans hptr.symm)
    · rw [interleave]
      split
      · rfl
      · rfl
    · have hbasic : r.flip = 0 := (congrArg OnWire.flip hr).trans hflip
      rw [interleave, if_neg (not_not.mpr hbasic)]
      exact hr

end

/-- A client that waits for a reply. -/
def clientSys : Sys ℚ where
  peer_list := [{ idleClient with cast_flags := { ucast := true }, aorg := 0x100 }]
  current_time := 1

theorem idleEnv_slews (x : Peer ℚ) : (idleEnv.local_clock x).rval ≠ 2 := by simp [idleEnv]

theorem timerTurn_line_client :
    ∃ l : Line ℚ, (timerTurn defaultCfg idleEnv clientSys 0).peer? 0 =
      if l.gone then none else some l.peer := by
  obtain ⟨_, _, _, h, -⟩ := timerTurn_line defaultCfg idleEnv idleEnv_slews (s := clientSys)
    (p := clientSys.deref 0) rfl rfl rfl rfl
  exact ⟨_, h⟩

theorem receiveMatched_wire_reply :
    let p := clientSys.deref 0
    let s := receiveMatched defaultCfg idleEnv clientSys genuineReply p
    ∃ r, s.peer? 0 = some r ∧
      r.toOnWire = (afterPacket defaultCfg idleEnv clientSys genuineReply p).toOnWire := by
  intro p s
  have hr : some ((s.peer? 0).get (by decide +kernel)) = s.peer? 0 := Option.some_get _
  exact ⟨_, hr.symm, receiveMatched_wire defaultCfg idleEnv idleEnv_slews genuineReply (p := p)
    (by decide) hr.symm (by decide +kernel)⟩

end NtpSuite
