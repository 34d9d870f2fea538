import NtpSuite.Theory.PollRange
import NtpSuite.Core.Daemon

/-!
# The Poll Interval Invariant

The range of the poll exponents of every association, over every run of the
daemon: configuration, packets, ticks, and the calls of `peer_clear` and
`poll_update` from elsewhere.

The configuration keeps its end of the bargain with `newpeer`, and a request
on behalf of a solicitor repeats the range of the solicitor. The first packet
of a broadcast server or of a symmetric active peer hands its poll byte over
unchecked. `EventOk` says that an event does no harm, in terms of the event and
the state it finds. Over every run of such events the invariant holds.

## Main definitions

* `asksManycast`, `asksNewbcl`, `asksNewpass`: The packets that ask for an
  association.
* `SwitchOk`, `PacketOk`: What `receive` expects of a packet.
* `EventOk`: The condition on an event.

## Theorems

* `receive_inRange`, `timer_inRange`: The events that can change something.
* `step_inRange`: Every event that meets the condition keeps the range.
* `poll_range_invariant`: And so does every run of such events.
-/

namespace NtpSuite

open Option Bool

section Switch

variable {α : Type} [Field α] [LinearOrder α]

/-- A packet from a solicited server gets as far as asking for an association. -/
def asksManycast (c : Cfg α) (rx : Rx) (p2 : Peer α) : Bool :=
  !(c.autokey && groupTest c rx.groupname none)
    && authOk ((!p2.cast_flags.pool && c.sys_authenticate) || rx.restrict_mask.nopeer
      || rx.restrict_mask.donttrust) rx.is_authentic
    && !noHelp c rx

/-- So does one from a broadcast server. -/
def asksNewbcl (c : Cfg α) (rx : Rx) : Bool :=
  !(c.autokey && groupTest c rx.groupname c.sys_ident) && c.sys_bclient
    && authOk (needsAuth c rx) rx.is_authentic && !noHelp c rx

/-- And one from a symmetric active peer. -/
def asksNewpass (c : Cfg α) (rx : Rx) : Bool :=
  !(c.autokey && groupTest c rx.groupname c.sys_ident)
    && (authOk (needsAuth c rx) rx.is_authentic
      || !authOk rx.restrict_mask.donttrust rx.is_authentic)
    && !outOfRange c rx

/-- What the packet asks for keeps to the range. A request on behalf of a
    solicitor has the poll range of the solicitor. -/
def SwitchOk (c : Cfg α) (e : Env α) (s : Sys α) (rb : RecvBuf) (rx : Rx) (retcode : AM)
    (peer : Option (Peer α)) : Prop :=
  match retcode with
  | .manycast => ∀ p2, findmanycastpeer s rb = some p2 → asksManycast c rx p2 = true
      → refusePeer c e s (manycastRequest c rb rx p2) = false
      → DriverOk c e (manycastRequest c rb rx p2)
  | .newbcl => asksNewbcl c rx = true
      → RequestOk c e s (newbclRequest c rb rx (decide (c.sys_bdelay = 0)))
  | .newpass => asksNewpass c rx = true → RequestOk c e s (newpassRequest c rb rx)
  | .procpkt => ∀ p, peer = some p → KissOk c rx p
  | _ => True

/-- A state with every association in range, and an association in range to go on with, if any. -/
def Continues (r : Sys α × Option (Peer α)) : Prop :=
  Everywhere InRange r.1 ∧ ∀ p, r.2 = some p → InRange p

omit [LinearOrder α] in
theorem Continues.stop {s t : Sys α} (hs : Everywhere InRange s)
    (hl : t.peer_list = s.peer_list) : Continues (t, none) :=
  ⟨hs.of_list hl, fun _ hp => absurd hp (by simp)⟩

variable (c : Cfg α) (e : Env α) {s : Sys α} (rb : RecvBuf) (rx : Rx)

section

variable (hs : Everywhere InRange s)

include hs

theorem caseManycast_inRange (hok : SwitchOk c e s rb rx .manycast none) :
    Everywhere InRange (caseManycast c e s rb rx) := by
  refine iteInduction (fun _ => hs.of_list rfl) fun hgroup => ?_
  rcases hfind : findmanycastpeer s rb with _ | p2
  · exact hs.of_list rfl
  refine iteInduction (fun _ => hs.of_list rfl) fun hauth => ?_
  refine iteInduction (fun _ => hs.of_list rfl) fun hhelp => ?_
  -- All tests passed, so the condition on the request applies.
  have hasks : asksManycast c rx p2 = true := by
    rw [asksManycast, eq_false_iff.mpr hhelp, eq_false_iff.mpr
      (fun h => hgroup (and_eq_true_iff.mp h))]
    simpa using hauth
  -- The range of the solicitor is handed on to the server.
  have hp2 : InRange p2 := hs p2 (List.mem_of_find?_eq_some hfind)
  have hnew := newpeer_inRange c e (manycastRequest c rb rx p2) hs (fun hrefuse =>
    ⟨⟨.inr hp2.1, hp2.2.2.2⟩, hok p2 hfind hasks hrefuse⟩)
  rcases hrun : newpeer c e s (manycastRequest c rb rx p2) with ⟨t, _ | p⟩
  · rw [hrun] at hnew
    exact hnew.1.of_list rfl
  · rw [hrun] at hnew
    simp only
    split
    · exact hnew.1.modifyPeer _ (fun p hp => hp)
    · exact hnew.1

theorem caseNewbcl_inRange (hok : SwitchOk c e s rb rx .newbcl none) :
    Continues (caseNewbcl c e s rb rx) := by
  refine iteInduction (fun _ => .stop hs rfl) fun hgroup => ?_
  refine iteInduction (fun _ => .stop hs rfl) fun hbclient => ?_
  refine iteInduction (fun _ => .stop hs rfl) fun hauth => ?_
  refine iteInduction (fun _ => .stop hs rfl) fun hhelp => ?_
  -- All tests passed, so the condition on the request applies.
  have hasks : asksNewbcl c rx = true := by
    rw [asksNewbcl, eq_false_iff.mpr hhelp, eq_false_iff.mpr
      (fun h => hgroup (and_eq_true_iff.mp h))]
    simp only [not_eq_true', not_eq_false] at hbclient hauth
    rw [hbclient, hauth]
    rfl
  -- With a known delay there is no volley; the request differs only in that.
  have hnew := newpeer_inRange c e _ hs (hok hasks)
  split
  · exact Continues.stop hs rfl
  by_cases hdelay : c.sys_bdelay ≠ 0
  · rw [if_pos hdelay]
    split
    · exact Continues.stop hs rfl
    · rw [decide_eq_false hdelay] at hnew
      rcases hrun : newpeer c e s (newbclRequest c rb rx false) with ⟨t, _ | p⟩
      · rw [hrun] at hnew
        exact Continues.stop hnew.1 rfl
      · rw [hrun] at hnew
        have hp : InRange p := hnew.2 p rfl
        exact ⟨hnew.1.setPeer hp, fun q hq => some.inj hq ▸ hp⟩
  · rw [if_neg hdelay]
    rw [decide_eq_true (not_not.mp hdelay)] at hnew
    rcases hrun : newpeer c e s (newbclRequest c rb rx true) with ⟨t, _ | p⟩
    · rw [hrun] at hnew
      exact Continues.stop hnew.1 rfl
    · rw [hrun] at hnew
      have hp : InRange p := hnew.2 p rfl
      simp only
      split
      · exact ⟨hnew.1.setPeer hp, fun q hq => absurd hq (by simp)⟩
      · exact Continues.stop hnew.1 rfl

theorem mobilizePassive_inRange
    (hok : outOfRange c rx = false → RequestOk c e s (newpassRequest c rb rx)) :
    Continues (mobilizePassive c e s rb rx) := by
  refine iteInduction (fun _ => .stop hs rfl) fun hrange => ?_
  have hnew := newpeer_inRange c e _ hs (hok (eq_false_iff.mpr hrange))
  rcases hrun : newpeer c e s (newpassRequest c rb rx) with ⟨t, _ | p⟩
  · rw [hrun] at hnew
    exact Continues.stop hnew.1 rfl
  · rw [hrun] at hnew
    exact hnew

theorem caseNewpass_inRange (hok : SwitchOk c e s rb rx .newpass none) :
    Continues (caseNewpass c e s rb rx) := by
  refine iteInduction (fun _ => .stop hs rfl) fun hgroup => ?_
  have hsame : (c.autokey && groupTest c rx.groupname c.sys_ident) = false :=
    eq_false_iff.mpr (fun h => hgroup (and_eq_true_iff.mp h))
  -- Both the authenticated packet and the one that fails outright ask.
  have hreq : (authOk (needsAuth c rx) rx.is_authentic
      || !authOk rx.restrict_mask.donttrust rx.is_authentic) = true
      → outOfRange c rx = false → RequestOk c e s (newpassRequest c rb rx) := by
    intro hauth hrange
    exact hok (by rw [asksNewpass, hsame, hauth, hrange]; rfl)
  by_cases hauth : authOk (needsAuth c rx) rx.is_authentic = true
  · rw [hauth]
    exact mobilizePassive_inRange c e rb rx hs (hreq (by rw [hauth]; rfl))
  rw [Bool.not_eq_true] at hauth
  rw [hauth, Bool.not_false, if_pos rfl]
  refine iteInduction (fun _ => .stop hs rfl) fun hreply => ?_
  have hask := hreq (by rw [hauth, eq_false_iff.mpr hreply]; rfl)
  split
  · have hs' : Everywhere InRange (restricted (s.log (.fastXmit .active 0))) := hs.of_list rfl
    exact mobilizePassive_inRange c e rb rx hs' hask
  · exact mobilizePassive_inRange c e rb rx hs hask

end

/-- The switch keeps the range of every association, and goes on with one in range. -/
theorem dispatch_inRange (retcode : AM) (peer : Option (Peer α)) (hs : Everywhere InRange s)
    (hpeer : ∀ p, peer = some p → InRange p) (hok : SwitchOk c e s rb rx retcode peer) :
    Continues (dispatch c e s rb rx retcode peer) := by
  cases retcode with
  | fxmit =>
    refine Continues.stop hs ?_
    repeat' (apply iteInduction (motive := fun t : Sys α => t.peer_list = s.peer_list) <;> intro _)
    all_goals rfl
  | manycast =>
    exact ⟨caseManycast_inRange c e rb rx hs hok, fun p hp => absurd hp (by simp [dispatch])⟩
  | newbcl => exact caseNewbcl_inRange c e rb rx hs hok
  | newpass => exact caseNewpass_inRange c e rb rx hs hok
  | procpkt =>
    rcases peer with _ | p
    · exact Continues.stop hs rfl
    · refine iteInduction (fun _ => Continues.stop hs rfl) fun hgroup => ?_
      exact ⟨hs, hpeer⟩
  | _ => exact Continues.stop hs rfl

/-- A server packet goes on only with an association that was found. -/
theorem dispatch_server {c : Cfg α} {e : Env α} {t : Sys α} {rb : RecvBuf} {rx : Rx}
    {retcode : AM} {peer : Option (Peer α)} {p : Peer α}
    (hcode : retcode = .err ∨ retcode = .procpkt ∨ retcode = matchNoPeer .server)
    (h : dispatch c e s rb rx retcode peer = (t, some p)) : retcode = .procpkt ∧ peer = some p := by
  rcases hcode with rfl | rfl | rfl
  · exact absurd (congrArg Prod.snd h) (by simp [dispatch])
  · refine ⟨rfl, ?_⟩
    rcases peer with _ | q
    · exact absurd (congrArg Prod.snd h) (by simp [dispatch])
    · rw [dispatch] at h
      by_cases hgroup : c.autokey ∧ groupTest c rx.groupname q.ident
      · rw [if_pos hgroup] at h
        exact absurd (congrArg Prod.snd h) (by simp)
      · rw [if_neg hgroup] at h
        exact congrArg Prod.snd h
  · exact absurd (congrArg Prod.snd h) (by simp [matchNoPeer, dispatch])

/-- The packet keeps to the range. -/
def PacketOk (c : Cfg α) (e : Env α) (s : Sys α) (rb : RecvBuf) : Prop :=
  match receiveFront c e s rb with
  | .error _ => True
  | .ok (t, rx, retcode, peer) => SwitchOk c e t rb rx retcode peer

omit [LinearOrder α] in
theorem Fronted.inRange {t : Sys α} (h : Fronted s t) (hs : Everywhere InRange s) :
    Everywhere InRange t := by
  rcases h with h | ⟨p, hp, q, ⟨d, rfl⟩, h⟩
  · exact hs.of_list h.peer_list_eq
  · have hq : InRange { p with dstadr := d } := hs p hp
    exact (hs.setPeer hq).of_list h.peer_list_eq

theorem receive_inRange (hs : Everywhere InRange s) (hok : PacketOk c e s rb) :
    Everywhere InRange (receive c e s rb) := by
  rcases receiveFront_spec c e s rb with ⟨t, herr, hfront⟩ | ⟨t, rx, hacts, hfront⟩
  · simp only [receive, herr]
    exact hfront.inRange hs
  have ht : Everywhere InRange (findpeer t rb rx.hismode).1 :=
    (findpeer_fronted hacts rb rx.hismode).inRange hs
  -- The association found is one of the table, moved at most.
  have hpeer : ∀ p, (findpeer t rb rx.hismode).2.2 = some p → InRange p := by
    intro q hq
    rcases findpeer_spec t rb rx.hismode with ⟨-, hnone⟩ | ⟨p, hp, hsome, -⟩
    · exact absurd (hnone.symm.trans hq) (by simp)
    · obtain rfl := some.inj (hsome.symm.trans hq)
      obtain ⟨d, hd⟩ := setPeerdstadr_rebound p (some rb.dstadr)
      rw [hacts.peer_list_eq] at hp
      rw [hd]
      exact hs p hp
  have hcode := findpeer_code t rb rx.hismode
  simp only [PacketOk, hfront] at hok
  simp only [receive, hfront]
  generalize findpeer t rb rx.hismode = m at ht hpeer hcode hok
  have hdisp := dispatch_inRange c e rb rx m.2.1 m.2.2 ht hpeer hok
  rcases hrun : dispatch c e m.1 rb rx m.2.1 m.2.2 with ⟨u, _ | p⟩
  · rw [hrun] at hdisp
    exact hdisp.1
  · rw [hrun] at hdisp
    refine receiveMatched_inRange c e rx hdisp.1 (hdisp.2 p rfl) ?_
    -- A rate kiss is a server packet, and the association is not a new one.
    intro hkiss
    rw [kissBranch_server hkiss] at hcode
    obtain ⟨hproc, hp⟩ := dispatch_server hcode hrun
    rw [hproc] at hok
    exact hok p hp hkiss

end Switch

section Timer

variable {α : Type} [Field α] [LinearOrder α]

variable (c : Cfg α) (e : Env α) {s : Sys α} {p : Peer α}

omit [LinearOrder α] in
theorem xmitPeer_inRange {g : Peer α → Peer α} (hs : Everywhere InRange s) (hp : InRange p)
    (hg : ∀ q, InRange q → InRange (g q)) : Everywhere InRange (xmitPeer c e s p g) := by
  have hset := hs.setPeer (hg _ (peerXmit_inRange c e hp))
  simp only [xmitPeer]
  split
  · exact hset.of_list rfl
  · exact hset

omit [LinearOrder α] in
theorem transmitXmit_inRange (now hpoll : Nat) (hp : InRange p) :
    InRange (transmitXmit c e now hpoll p).1 := by
  have hretry : InRange (countRetry p) := hp.of_sched_eq (countRetry_sched p)
  apply pollUpdate_inRange
  rw [xmitUnlessListening]
  split
  · exact hretry
  · exact peerXmit_inRange c e hretry

theorem transmitSend_inRange {c : Cfg α} {e : Env α} {now sys_poll : Nat}
    {excess : Peer α → Bool} {p0 : Peer α} {r : Peer α × Option LFp} (hp : InRange p)
    (h : transmitSend c e now sys_poll excess p0 p = some r) : InRange r.1 := by
  have hpoll : InRange (transmitPoll c e now sys_poll p0 p).1 :=
    hp.of_sched_eq (transmitPoll_sched c e now sys_poll p0 p)
  simp only [transmitSend] at h
  split_ifs at h
  · exact some.inj h ▸ transmitXmit_inRange c e now _ hpoll
  · exact some.inj h ▸ transmitXmit_inRange c e now _ hpoll
  · exact some.inj h ▸ transmitXmit_inRange c e now _ hp

section

variable (hs : Everywhere InRange s) (hp : InRange p)

include hs hp

theorem transmitUnicast_inRange : Everywhere InRange (transmitUnicast c e s p) := by
  have hreach : InRange (transmitReach s.current_time p) := by
    rw [transmitReach]
    split
    · exact hp
    · exact hp
  simp only [transmitUnicast]
  -- The register is shifted, the burst may end, and the filter may run.
  generalize transmitReach s.current_time p = q at hreach
  have hburst : Everywhere InRange (burstDone c (s.setPeer q) p q) := by
    rw [burstDone]
    split
    · exact (hs.setPeer hreach).of_list rfl
    · exact hs.setPeer hreach
  generalize burstDone c (s.setPeer q) p q = t at hburst
  have hfilter : Everywhere InRange
      (if p.burst = 0 ∧ q.reach = 0 then clockFilter c e t ⟨0, 0, MAXDISPERSE⟩ q else t) := by
    split
    · exact clockFilter_inRange c e _ hburst hreach
    · exact hburst
  generalize (if p.burst = 0 ∧ q.reach = 0 then clockFilter c e t ⟨0, 0, MAXDISPERSE⟩ q else t) = u
    at hfilter
  have hload : InRange (u.reload q) := hfilter.reload hreach
  rcases hsend : transmitSend c e u.current_time u.sys_poll (isExcess c u) p (u.reload q)
    with _ | ⟨r, _ | xmt⟩
  · exact hfilter.unpeer q.ptr
  · exact hfilter.setPeer (transmitSend_inRange hload hsend)
  · exact (hfilter.setPeer (transmitSend_inRange hload hsend)).of_list rfl

theorem transmit_inRange : Everywhere InRange (transmit c e s p) := by
  -- Whatever the mode, `poll_update` comes last.
  have hpoll : ∀ q : Peer α, InRange q →
      InRange (pollUpdate c s.current_time (e.ntp_random 0) q p.hpoll) :=
    fun q hq => pollUpdate_inRange c _ _ _ hq
  rw [transmit]
  split
  · simp only [transmitBroadcast]
    split
    · exact xmitPeer_inRange c e hs hp hpoll
    · exact hs.setPeer (hpoll _ hp)
  split
  · simp only [transmitManycast]
    split
    · exact xmitPeer_inRange c e hs hp (fun q hq => hpoll _ hq)
    split
    · exact xmitPeer_inRange c e hs hp (fun q hq => hpoll _ hq)
    · exact hs.setPeer (hpoll _ hp)
  split
  · simp only [transmitPool, poolXmit]
    apply hs.setPeer
    apply hpoll
    split
    · split
      · exact hp
      · exact hp
    · exact hp
  · exact transmitUnicast_inRange c e hs hp

theorem refclockTransmit_inRange : Everywhere InRange (refclockTransmit c e s p) := by
  have hreach : ∀ now oreach (q : Peer α), InRange q → InRange (refclockReach now oreach q) := by
    intro now oreach q hq
    repeat' (apply iteInduction <;> intro _)
    all_goals exact hq
  simp only [refclockTransmit]
  split
  · apply Everywhere.modifyPeer
    · split
      · exact clockFilter_inRange c e _ (hs.setPeer hp) hp
      · exact hs.setPeer hp
    · exact fun q hq => pollUpdate_inRange c _ _ _ (hreach _ _ q hq)
  · exact hs.setPeer (pollUpdate_inRange c _ _ _ hp)

end

theorem timerTurn_inRange (ptr : Nat) (hs : Everywhere InRange s) :
    Everywhere InRange (timerTurn c e s ptr) := by
  have hturn : Everywhere InRange (s.modifyPeer ptr timerPeer) := by
    apply hs.modifyPeer
    intro p hp
    rw [timerPeer]
    split
    · exact hp
    · exact hp
  simp only [timerTurn]
  generalize s.modifyPeer ptr timerPeer = t at hturn
  rcases hfind : t.peer? ptr with _ | p
  · exact hturn
  · have hp : InRange p := hturn.peer? hfind
    simp only
    split
    · split
      · exact refclockTransmit_inRange c e hturn hp
      · exact transmit_inRange c e hturn hp
    · exact hturn

theorem timer_inRange (hs : Everywhere InRange s) : Everywhere InRange (timer c e s) := by
  have hstart : Everywhere InRange { s with current_time := s.current_time + 1 } := hs.of_list rfl
  have hs' := List.foldlRecOn (s.peer_list.map Peer.ptr) (timerTurn c e) hstart
    (fun t ht ptr _ => timerTurn_inRange c e ptr ht)
  simp only [timer, orphanMode]
  split
  · exact hs'.of_list rfl
  · exact hs'

end Timer

section Daemon

variable {α : Type} [Field α] [LinearOrder α]

/-- The condition on an event, given the state it finds: what it asks for
    keeps to the poll range. -/
def EventOk (c : Cfg α) (s : Sys α) (x : Env α × Event) : Prop :=
  match x.2 with
  | .config a r => DriverOk c x.1 { a with minpoll := r.minpoll, maxpoll := r.maxpoll }
  | .packet rb => PacketOk c x.1 s rb
  | _ => True

theorem step_inRange (c : Cfg α) (s : Sys α) (x : Env α × Event) (hs : Everywhere InRange s)
    (hok : EventOk c s x) : Everywhere InRange (step c s x) := by
  refine iteInduction (fun _ => hs) fun hexit => ?_
  obtain ⟨e, a⟩ := x
  cases a with
  | config a r =>
    have hpolls : PollsOk { a with minpoll := r.minpoll, maxpoll := r.maxpoll } :=
      ⟨r.minpoll_ok.imp id And.left, r.maxpoll_ok⟩
    exact peerConfig_inRange c e _ hs hpolls hok
  | packet rb => exact receive_inRange c e rb hs hok
  | tick => exact timer_inRange c e hs
  | clear ptr ident =>
    exact hs.modifyPeer ptr (fun p hp => (peerClear_cleared c e _ _ _ _ _ p).inRange hp)
  | poll ptr mpoll => exact hs.modifyPeer ptr (fun p hp => pollUpdate_inRange c _ _ _ hp)

/-- A power of two with an exponent in the range fits an `int`. -/
theorem shl1_lt {n : Nat} (h : n ≤ NTP_MAXPOLL) : shl1 n < 2 ^ 31 := by
  have hle : (2 : Int) ^ n ≤ 2 ^ NTP_MAXPOLL := pow_le_pow_right₀ (by decide) h
  exact lt_of_le_of_lt hle (by decide)

/-- The poll interval invariant. Along every run whose events keep to the
    range, the poll exponents of every association are in order and within
    the limits of the protocol, and the shifts by them fit an `int`. -/
theorem poll_range_invariant (c : Cfg α) (s : Sys α) (xs : List (Env α × Event))
    (hs : Everywhere InRange s) (hrun : Run.Meets (step c) (EventOk c) s xs) :
    ∀ p ∈ (Run.exec (step c) s xs).peer_list,
      (NTP_MINPOLL ≤ p.minpoll ∧ p.minpoll ≤ p.hpoll ∧ p.hpoll ≤ p.maxpoll
        ∧ p.maxpoll ≤ NTP_MAXPOLL)
      ∧ shl1 p.minpoll < 2 ^ 31 ∧ shl1 p.hpoll < 2 ^ 31
      ∧ shl1 (p.hpoll - p.minpoll) < 2 ^ 31 := by
  intro p hp
  have hrange : InRange p := Run.exec_invariant (step_inRange c) s xs hs hrun p hp
  obtain ⟨hmin, hlow, hhigh, hmax⟩ := hrange
  have hhpoll : p.hpoll ≤ NTP_MAXPOLL := hhigh.trans hmax
  exact ⟨⟨hmin, hlow, hhigh, hmax⟩, shl1_lt (hlow.trans hhpoll), shl1_lt hhpoll,
    shl1_lt ((Nat.sub_le _ _).trans hhpoll)⟩

end Daemon

/-- A server as the configuration names it, with the default poll range. -/
def configServer : Event :=
  .config
    { srcadr := { addr := 0xcb007101 }, dstadr := some idleEndpt, hmode := .client, version := 4
      minpoll := 0, maxpoll := 0, flags := {}, cast_flags := {}, key := 0, ident := none }
    ⟨0, 0, .inl rfl, Nat.zero_le _⟩

/-- A rate kiss in the name of that server, with a poll exponent of the sender's choice. -/
def rateKiss (ppoll : BitVec 8) : RecvBuf :=
  { recv_srcadr := { addr := 0xcb007101 }, dstadr := idleEndpt, recv_length := 48
    recv_pkt := { li_vn_mode := 0xe4, ppoll := ppoll, refid := KISS_RATE, xmt := 0x910 }
    exten := [] }

/-- The server is configured, and the kiss comes in. -/
def kissedRun (ppoll : BitVec 8) : List (Env ℚ × Event) :=
  [(idleEnv, configServer), (idleEnv, .packet (rateKiss ppoll))]

/-- A kiss with the largest exponent of the association does no harm. -/
theorem poll_range_invariant_kissed :
    (Run.exec (step defaultCfg) {} (kissedRun 10)).peer_list.map
        (fun p => (p.minpoll, p.hpoll, p.maxpoll)) = [(10, 10, 10)]
      ∧ ∀ p ∈ (Run.exec (step defaultCfg) {} (kissedRun 10)).peer_list,
        (NTP_MINPOLL ≤ p.minpoll ∧ p.minpoll ≤ p.hpoll ∧ p.hpoll ≤ p.maxpoll
          ∧ p.maxpoll ≤ NTP_MAXPOLL)
        ∧ shl1 p.minpoll < 2 ^ 31 ∧ shl1 p.hpoll < 2 ^ 31
        ∧ shl1 (p.hpoll - p.minpoll) < 2 ^ 31 := by
  refine ⟨by decide, ?_⟩
  refine poll_range_invariant defaultCfg {} (kissedRun 10) (fun p hp => absurd hp (by simp))
    ⟨nofun, ?_, trivial⟩
  have hfront : (receiveFront defaultCfg idleEnv (step defaultCfg {} (idleEnv, configServer))
      (rateKiss 10)).toOption.map
        (fun r => (r.2.2.1, r.2.1.pkt.ppoll, r.2.2.2.map (fun p => p.maxpoll)))
      = some (AM.procpkt, 10, some 10) := by decide
  change PacketOk defaultCfg idleEnv (step defaultCfg {} (idleEnv, configServer)) (rateKiss 10)
  rw [PacketOk]
  generalize receiveFront defaultCfg idleEnv (step defaultCfg {} (idleEnv, configServer))
    (rateKiss 10) = r at hfront
  rcases r with t | ⟨t, rx, retcode, peer⟩
  · trivial
  · simp only [Except.toOption, map_some, some.injEq, Prod.mk.injEq] at hfront
    obtain ⟨rfl, hppoll, hmax⟩ := hfront
    rintro p rfl - - -
    have hmax : p.maxpoll = 10 := some.inj hmax
    rw [hppoll, hmax]
    decide

/-- A kiss with a larger one puts `minpoll` above `maxpoll`, and the shift by
    it out of the range of an `int`. -/
theorem rateKiss_breaks_range :
    ¬ (∀ p ∈ (Run.exec (step defaultCfg) {} (kissedRun 40)).peer_list,
        (NTP_MINPOLL ≤ p.minpoll ∧ p.minpoll ≤ p.hpoll ∧ p.hpoll ≤ p.maxpoll
          ∧ p.maxpoll ≤ NTP_MAXPOLL)
        ∧ shl1 p.minpoll < 2 ^ 31 ∧ shl1 p.hpoll < 2 ^ 31
        ∧ shl1 (p.hpoll - p.minpoll) < 2 ^ 31)
      ∧ (Run.exec (step defaultCfg) {} (kissedRun 40)).peer_list.map
        (fun p => (p.minpoll, p.hpoll, p.maxpoll)) = [(40, 40, 10)] := by
  exact ⟨by decide, by decide⟩

end NtpSuite
