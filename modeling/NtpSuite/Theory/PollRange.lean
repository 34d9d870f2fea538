import NtpSuite.Theory.Front
import NtpSuite.Theory.Table
import NtpSuite.Theory.OnWire

/-!
# The Poll Range

What the procedures do to the range of the poll exponents of an association.
`poll_update` keeps `hpoll` between `minpoll` and `maxpoll`, and `peer_clear`
sets it to `minpoll`, so the range is a matter of what writes the two limits.

There are three such places. `newpeer` clamps each limit on one side and
leaves the other side to its caller. The response to a rate kiss takes
`minpoll` from the packet and does not look at `maxpoll`. And two clock drivers
set both limits after `hpoll` has been set. `RequestOk` and `KissOk` say what
these places need for the range to be kept.

## Main definitions

* `InRange`: The range, for an association.
* `KissOk`: What the response to a rate kiss expects of the packet.
* `PollsOk`, `DriverOk`, `RequestOk`: What `newpeer` expects of a request.

## Theorems

* `clockFilter_inRange`: The clock filter and the selection keep the range.
* `receiveMatched_inRange`: So does the peer process, for a packet that may.
* `newpeer_inRange`: A new association is in range.
-/

namespace NtpSuite

section Association

variable {α : Type} [Field α]

/-- The poll exponents of the association are in order and within the limits of the protocol. -/
def InRange (p : Peer α) : Prop :=
  NTP_MINPOLL ≤ p.minpoll ∧ p.minpoll ≤ p.hpoll ∧ p.hpoll ≤ p.maxpoll ∧ p.maxpoll ≤ NTP_MAXPOLL

variable {p q : Peer α} (c : Cfg α) (e : Env α)

/-- The range depends on three variables of the schedule. -/
theorem InRange.of_sched (hp : InRange p) (hmin : (sched q).minpoll = p.minpoll)
    (hmax : (sched q).maxpoll = p.maxpoll) (hhpoll : (sched q).hpoll = p.hpoll) : InRange q := by
  have hmin : q.minpoll = p.minpoll := hmin
  have hmax : q.maxpoll = p.maxpoll := hmax
  have hhpoll : q.hpoll = p.hpoll := hhpoll
  rw [InRange, hmin, hmax, hhpoll]
  exact hp

theorem InRange.of_sched_eq (hp : InRange p) (h : sched q = sched p) : InRange q :=
  hp.of_sched (congrArg Sched.minpoll h) (congrArg Sched.maxpoll h) (congrArg Sched.hpoll h)

theorem InRange.of_polls (hp : InRange p) (h : q.toPollVars = p.toPollVars) : InRange q :=
  hp.of_sched (congrArg PollVars.minpoll h) (congrArg PollVars.maxpoll h)
    (congrArg PollVars.hpoll h)

/-- `poll_update` brings the poll exponent between the limits, wherever it was. -/
theorem pollUpdate_of_limits (now rnd : Nat) (p : Peer α) (mpoll : Nat)
    (hmin : NTP_MINPOLL ≤ p.minpoll) (hle : p.minpoll ≤ p.maxpoll)
    (hmax : p.maxpoll ≤ NTP_MAXPOLL) : InRange (pollUpdate c now rnd p mpoll) := by
  have hclamp : p.minpoll ≤ clampPoll p mpoll ∧ clampPoll p mpoll ≤ p.maxpoll := by
    rw [clampPoll]
    omega
  exact ⟨hmin, hclamp.1, hclamp.2, hmax⟩

theorem pollUpdate_inRange (now rnd : Nat) (mpoll : Nat) (hp : InRange p) :
    InRange (pollUpdate c now rnd p mpoll) := by
  obtain ⟨hmin, hlow, hhigh, hmax⟩ := hp
  exact pollUpdate_of_limits c now rnd p mpoll hmin (hlow.trans hhigh) hmax

theorem peerXmit_inRange (hp : InRange p) : InRange (peerXmit c e p).1 := by
  obtain ⟨b, -, hsched⟩ := peerXmit_sched c e p
  exact hp.of_sched (congrArg Sched.minpoll hsched) (congrArg Sched.maxpoll hsched)
    (congrArg Sched.hpoll hsched)

/-- A chain of moves of the filter or the selection keeps the range. -/
theorem Moves.inRange {c : Cfg α} {now : Nat} (h : Moves c now p q) (hp : InRange p) :
    InRange q := by
  obtain ⟨mid, rfl⟩ := h
  induction mid generalizing p with
  | nil => exact hp
  | cons a mid ih =>
    apply ih
    cases a with
    | poll rnd mpoll => exact pollUpdate_inRange c now rnd mpoll hp
    | marks q => exact hp

theorem Cleared.inRange (h : Cleared p q) (hp : InRange p) : InRange q := by
  obtain ⟨hmin, hlow, hhigh, hmax⟩ := hp
  rw [InRange, h.minpoll, h.maxpoll, h.hpoll]
  exact ⟨hmin, le_refl _, hlow.trans hhigh, hmax⟩

theorem Aside.inRange (h : Aside p q) (hp : InRange p) : InRange q := by
  have hmin : q.minpoll = p.minpoll := by rw [h.polls]
  have hmax : q.maxpoll = p.maxpoll := by rw [h.polls]
  have hhpoll : q.hpoll = p.hpoll := by rw [h.polls]
  exact hp.of_sched hmin hmax hhpoll

/-- A rate kiss keeps the range if its poll exponent is within that of the association. -/
theorem kissRate_inRange (now : Nat) (rx : Rx) (hp : InRange p)
    (hkiss : rx.pkt.ppoll.toNat ≤ p.maxpoll) : InRange (kissRate c e now rx (setPpoll rx p)) := by
  obtain ⟨hmin, hlow, hhigh, hmax⟩ := hp
  -- `minpoll` and `hpoll` meet at the exponent of the packet.
  have hvars := kissRate_vars c e now rx p
  have hmin' : (kissRate c e now rx (setPpoll rx p)).minpoll = max p.minpoll rx.pkt.ppoll.toNat :=
    congrArg (fun v => v.1) hvars
  have hhpoll' : (kissRate c e now rx (setPpoll rx p)).hpoll = max p.minpoll rx.pkt.ppoll.toNat :=
    congrArg (fun v => v.2.2.2.2) hvars
  have hmax' : (kissRate c e now rx (setPpoll rx p)).maxpoll = p.maxpoll := rfl
  rw [InRange]
  omega

variable [LinearOrder α]

theorem Stepped.inRange {c : Cfg α} {e : Env α} {s : Sys α} (h : Stepped c e s p q)
    (hp : InRange p) : InRange q := by
  rcases h with h | ⟨-, r, hr, rfl⟩
  · exact h.inRange hp
  · exact (peerClear_cleared c e _ _ _ _ _ r).inRange (hr.inRange hp)

theorem clockFilter_inRange {s : Sys α} (x : Sample α) (hs : Everywhere InRange s)
    (hp : InRange p) : Everywhere InRange (clockFilter c e s x p) := by
  obtain ⟨q, hq, hacts⟩ := clockFilter_acts c e s x p
  exact (hs.setPeer (hq.inRange hp)).acts (fun _ _ hp h => h.inRange hp) hacts

theorem processPacket_inRange (now : Nat) (pkt : Pkt) (hp : InRange p) :
    InRange (processPacket c e now pkt p).1 := by
  obtain ⟨b, n, hsched⟩ := armBurst_sched now (captureHeader pkt p)
  have harm : InRange (armBurst now (captureHeader pkt p)) :=
    hp.of_sched (congrArg Sched.minpoll hsched) (congrArg Sched.maxpoll hsched)
      (congrArg Sched.hpoll hsched)
  have hpoll := pollUpdate_inRange c now (e.ntp_random 1) (armBurst now (captureHeader pkt p)).hpoll
    harm
  exact hpoll.of_sched_eq ((processPacket_sched c e now pkt p).trans
    (packetHeader_sched c e now pkt p))

end Association

section Receive

variable {α : Type} [Field α] [LinearOrder α]

/-- If the packet is answered as a rate kiss, it does not raise `minpoll` above `maxpoll`. -/
def KissOk (c : Cfg α) (rx : Rx) (p : Peer α) : Prop :=
  kissBranch rx = true → wrongKeyKind c rx p = false → ¬ Duplicate rx p →
    rx.pkt.ppoll.toNat ≤ p.maxpoll

variable {p : Peer α}

theorem receivePeer_inRange (c : Cfg α) (e : Env α) (s : Sys α) (rx : Rx) (hp : InRange p)
    (hkiss : kissBranch rx = true → ¬ Duplicate rx p → rx.pkt.ppoll.toNat ≤ p.maxpoll) :
    InRange (receivePeer c e s rx p).peer := by
  rcases timestampTests_ends rx p with ⟨q, hq, htested⟩ | ⟨q, hq, htested, hdup⟩
  · rw [receivePeer, hq]
    exact hp.of_polls htested.polls
  · have hstate : InRange (updateState rx q) := hp.of_polls htested.polls
    rw [receivePeer, hq]
    rcases receiveVerdict_cases c e s rx (updateState rx q)
      with ⟨hbranch, hdone⟩ | ⟨-, haside | ⟨-, hclear⟩⟩
    · simp only [hdone]
      apply kissRate_inRange c e s.current_time rx hstate
      -- The tests have not moved `maxpoll`.
      have hmax : (updateState rx q).maxpoll = p.maxpoll := congrArg PollVars.maxpoll htested.polls
      rw [hmax]
      exact hkiss hbranch hdup
    · exact haside.inRange hstate
    · exact hclear.inRange hstate

theorem processPacketSys_inRange (c : Cfg α) (e : Env α) {s : Sys α} (pkt : Pkt)
    (hs : Everywhere InRange s) (hp : InRange p) :
    Everywhere InRange (processPacketSys c e s pkt p) := by
  have hs' : Everywhere InRange (countProcessed s) := hs.of_list rfl
  have hq := processPacket_inRange c e (countProcessed s).current_time pkt hp
  simp only [processPacketSys]
  split
  · rename_i q h
    rw [h] at hq
    exact hs'.setPeer hq
  · rename_i q x h
    rw [h] at hq
    refine (clockFilter_inRange c e x (hs'.setPeer hq) hq).modifyPeer _ ?_
    intro r hr
    exact hr.of_sched_eq (finishVolley_sched c e _ r)

omit [LinearOrder α] in
theorem interleave_inRange (now : Nat) (rx : Rx) (hp : InRange p) :
    InRange (interleave now rx p) := by
  rw [interleave]
  split
  · exact hp
  · exact hp

theorem receiveMatched_inRange (c : Cfg α) (e : Env α) {s : Sys α} (rx : Rx)
    (hs : Everywhere InRange s) (hp : InRange p) (hkiss : KissOk c rx p) :
    Everywhere InRange (receiveMatched c e s rx p) := by
  refine iteInduction (fun _ => hs.of_list rfl) fun hkind => ?_
  -- The reply to a bad digest touches no association.
  have hnak : Everywhere InRange (if nakReply rx p then s.log (.fastXmit .active 0) else s) := by
    split
    · exact hs.of_list rfl
    · exact hs
  generalize (if nakReply rx p then s.log (.fastXmit .active 0) else s) = t at hnak
  have hpeer := receivePeer_inRange c e t rx hp
    (fun hbranch hdup => hkiss hbranch (Bool.eq_false_iff.mpr hkind) hdup)
  simp only
  rcases hv : receivePeer c e t rx p with q | q | q
  · rw [hv] at hpeer
    exact hnak.setPeer hpeer
  · rw [hv] at hpeer
    exact (hnak.setPeer hpeer).unpeer q.ptr
  · rw [hv] at hpeer
    refine (processPacketSys_inRange c e rx.pkt (hnak.setPeer hpeer) hpeer).modifyPeer _ ?_
    intro r hr
    exact interleave_inRange _ rx hr

end Receive

section Mobilize

variable {α : Type} [Field α] [LinearOrder α]

/-- The sides of the poll range that `newpeer` leaves to its caller. -/
def PollsOk (a : NewPeer) : Prop :=
  (a.minpoll = 0 ∨ NTP_MINPOLL ≤ a.minpoll) ∧ a.maxpoll ≤ NTP_MAXPOLL

/-- The poll exponent a new association starts with. -/
def startPoll (a : NewPeer) : Nat := min (initMinpoll a.minpoll) (initMaxpoll a.maxpoll)

/-- If the request is for a clock whose driver sets the poll range, the
    association starts in the range of the driver. -/
def DriverOk (c : Cfg α) (e : Env α) (a : NewPeer) : Prop :=
  a.srcadr.isRefclockAdr = true → c.refclock = true
    → (e.clock_start a.srcadr.refclockType).isSome = true
    → (a.srcadr.refclockType = REFCLK_ONCORE → startPoll a = 4)
      ∧ (a.srcadr.refclockType = REFCLK_PALISADE → startPoll a = 4 ∨ startPoll a = 5)

theorem initPeer_polls (c : Cfg α) (e : Env α) (s : Sys α) (a : NewPeer) (ptr : Nat) :
    (initPeer c e s a ptr).minpoll = startPoll a ∧ (initPeer c e s a ptr).hpoll = startPoll a
      ∧ (initPeer c e s a ptr).maxpoll = initMaxpoll a.maxpoll
      ∧ (initPeer c e s a ptr).srcadr = a.srcadr := by
  simp only [initPeer]
  obtain ⟨d, hd⟩ := setPeerdstadr_rebound
    { ptr := ptr
      associd := s.current_association_ID
      srcadr := a.srcadr
      hostname := a.hostname
      hmode := a.hmode
      version := a.version
      flags := a.flags
      cast_flags := a.cast_flags
      minpoll := min (initMinpoll a.minpoll) (initMaxpoll a.maxpoll)
      maxpoll := initMaxpoll a.maxpoll : Peer α } (e.select_peerinterface a.srcadr a.dstadr)
  rw [hd]
  exact ⟨rfl, rfl, rfl, rfl⟩

/-- The range of a new association, given that the request keeps to it. -/
theorem startPoll_range {a : NewPeer} (h : PollsOk a) :
    NTP_MINPOLL ≤ startPoll a ∧ startPoll a ≤ initMaxpoll a.maxpoll
      ∧ initMaxpoll a.maxpoll ≤ NTP_MAXPOLL := by
  obtain ⟨hmin, hmax⟩ := h
  have hlow : NTP_MINPOLL ≤ initMinpoll a.minpoll := by
    rw [initMinpoll]
    split
    · decide
    · rcases hmin with h | h
      · contradiction
      · exact le_min h (by decide)
  have hmid : NTP_MINPOLL ≤ initMaxpoll a.maxpoll ∧ initMaxpoll a.maxpoll ≤ NTP_MAXPOLL := by
    rw [initMaxpoll]
    split
    · decide
    · exact ⟨le_max_right _ _, max_le hmax (by decide)⟩
  exact ⟨le_min hlow hmid.1, min_le_right _ _, hmid.2⟩

omit [LinearOrder α] in
/-- A driver leaves the new association in range, if it starts in the range the driver sets. -/
theorem driverPoll_inRange (clktype : Nat) {p : Peer α} (hp : InRange p)
    (honcore : clktype = REFCLK_ONCORE → p.hpoll = 4)
    (hpalisade : clktype = REFCLK_PALISADE → p.hpoll = 4 ∨ p.hpoll = 5) :
    InRange (driverPoll clktype p) := by
  rw [driverPoll]
  by_cases ho : clktype = REFCLK_ONCORE
  · rw [if_pos ho]
    have h4 : p.hpoll = 4 := honcore ho
    simp only [InRange, h4]
    decide
  rw [if_neg ho]
  by_cases ht : clktype = REFCLK_PALISADE
  · rw [if_pos ht]
    simp only [InRange]
    rcases hpalisade ht with h | h
    · rw [h]
      decide
    · rw [h]
      decide
  · rw [if_neg ht]
    exact hp

omit [LinearOrder α] in
theorem refclockNewpeer_inRange {c : Cfg α} {e : Env α} {a : NewPeer} {p q : Peer α}
    (hp : InRange p) (hhpoll : p.hpoll = startPoll a) (hadr : p.srcadr = a.srcadr)
    (hclock : a.srcadr.isRefclockAdr = true) (hconf : c.refclock = true)
    (hdriver : DriverOk c e a) (h : refclockNewpeer e p = some q) : InRange q := by
  simp only [refclockNewpeer, hadr] at h
  rcases hrun : e.clock_start a.srcadr.refclockType with _ | hd
  · rw [hrun] at h
    exact absurd h (by simp)
  rw [hrun] at h
  obtain ⟨honcore, hpalisade⟩ := hdriver hclock hconf (by rw [hrun]; rfl)
  obtain rfl := Option.some.inj h
  rw [← hhpoll] at honcore hpalisade
  exact driverPoll_inRange _ hp honcore hpalisade

omit [LinearOrder α] in
theorem startPeer_inRange {c : Cfg α} {e : Env α} {a : NewPeer} {p q : Peer α} (hp : InRange p)
    (hmin : p.minpoll = startPoll a) (hhpoll : p.hpoll = startPoll a)
    (hadr : p.srcadr = a.srcadr) (hdriver : DriverOk c e a) (h : startPeer c e a p = some q) :
    InRange q := by
  rw [startPeer] at h
  by_cases hclock : a.srcadr.isRefclockAdr = true
  · rw [if_pos hclock] at h
    by_cases hconf : c.refclock = true
    · rw [if_pos hconf] at h
      by_cases hmax : a.maxpoll = 0
      · -- A clock that is given no maximum polls at its minimum.
        rw [if_pos hmax] at h
        have hlevel : InRange { p with maxpoll := p.minpoll } := by
          obtain ⟨hlow, hle, hhigh, hcap⟩ := hp
          refine ⟨hlow, hle, ?_, (hle.trans hhigh).trans hcap⟩
          exact (hhpoll.trans hmin.symm).le
        exact refclockNewpeer_inRange hlevel hhpoll hadr hclock hconf hdriver h
      · rw [if_neg hmax] at h
        exact refclockNewpeer_inRange hp hhpoll hadr hclock hconf hdriver h
    · rw [if_neg hconf] at h
      exact absurd h (by simp)
  · rw [if_neg hclock] at h
    obtain rfl := Option.some.inj h
    exact hp

/-- The request, if it is granted, keeps to the range. -/
def RequestOk (c : Cfg α) (e : Env α) (s : Sys α) (a : NewPeer) : Prop :=
  refusePeer c e s a = false → PollsOk a ∧ DriverOk c e a

theorem newpeer_inRange (c : Cfg α) (e : Env α) {s : Sys α} (a : NewPeer)
    (hs : Everywhere InRange s) (ha : RequestOk c e s a) :
    Everywhere InRange (newpeer c e s a).1 ∧ ∀ p, (newpeer c e s a).2 = some p → InRange p := by
  simp only [newpeer]
  by_cases hrefuse : refusePeer c e (s.log (.newpeer a)) a = true
  · rw [if_pos hrefuse]
    exact ⟨hs.of_list rfl, fun p hp => absurd hp (by simp)⟩
  rw [if_neg hrefuse]
  obtain ⟨hpolls, hdriver⟩ := ha (Bool.eq_false_iff.mpr hrefuse)
  -- The structure comes from the free list, not from the table.
  have htake : (s.log (.newpeer a)).takePeer.2.peer_list = s.peer_list := by
    rw [Sys.takePeer]
    split
    · rfl
    · rfl
  obtain ⟨hmin, hhpoll, hmax, hadr⟩ :=
    initPeer_polls c e (s.log (.newpeer a)) a (s.log (.newpeer a)).takePeer.1
  have hinit : InRange (initPeer c e (s.log (.newpeer a)) a (s.log (.newpeer a)).takePeer.1) := by
    obtain ⟨hlow, hle, hhigh⟩ := startPoll_range hpolls
    rw [InRange, hmin, hhpoll, hmax]
    exact ⟨hlow, le_refl _, hle, hhigh⟩
  generalize initPeer c e (s.log (.newpeer a)) a (s.log (.newpeer a)).takePeer.1 = p
    at hmin hhpoll hmax hadr hinit
  -- A driver may fail; then the table is as it was.
  rcases hstart : startPeer c e a p with _ | q
  · exact ⟨hs.of_list htake, fun r hr => absurd hr (by simp)⟩
  · have hq := startPeer_inRange hinit hmin hhpoll hadr hdriver hstart
    refine ⟨?_, fun r hr => Option.some.inj hr ▸ hq⟩
    intro r hr
    rcases List.mem_cons.mp hr with rfl | hr
    · exact hq
    · rw [htake] at hr
      exact hs r hr

theorem peerConfig_inRange (c : Cfg α) (e : Env α) {s : Sys α} (a : NewPeer)
    (hs : Everywhere InRange s) (hpolls : PollsOk a) (hdriver : DriverOk c e a) :
    Everywhere InRange (peerConfig c e s a).1 := by
  refine (newpeer_inRange c e _ hs ?_).1
  exact fun _ => ⟨hpolls, hdriver⟩

end Mobilize

end NtpSuite
