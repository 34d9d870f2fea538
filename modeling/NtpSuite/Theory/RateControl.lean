import NtpSuite.Theory.Touch
import NtpSuite.Lib.Run
import NtpSuite.Core.Defaults

/-!
# Outbound Rate Control

How often an association sends. The counter `throttle` is a leaky bucket: a
packet sent adds `2 ^ minpoll - 2` to it and every tick of the timer takes
one off. `poll_update` puts the next date so far ahead that by then the
counter has come down to seven times `2 ^ minpoll`, whatever the poll
exponent, the reachability or the burst counter say.

A `Line` is one association on the time line, with the times at which it
sent. Between ticks anything may happen to it that is not a kiss-o'-death
and not a clearing: packets are processed, other parts of the daemon call
`poll_update`, and the poll exponents, the reachability register, the retry
counter and the burst counter take any value. The clock filter and the
selection may run in the middle of `transmit` and of `process_packet`, and
`clockFilter_acts` says that what they do to an association is a chain of
`Inner` moves.

The invariant ties the counter to the schedule: as long as the next date is
`d` ticks ahead, the counter exceeds its threshold by at most `d`. A tick
takes one off both, so when the date is reached the counter is down to the
threshold, and one more packet does not take it past the bound.

## Main definitions

* `Line`, `Act`, `lineStep`: An association in time, and what happens to it.
* `RateInv`: The invariant.
* `StepOk`: A step keeps the invariant and pays for what it sends.

## Theorems

* `tickLine_stepOk`: A tick is such a step.
* `lineStep_stepOk`: So is every other one.
* `transmit_rate_bounded`: The three bounds, for every run.
-/

namespace NtpSuite

open Option

variable {α : Type} [Field α] [LinearOrder α]

/-- An association in time. `sent` has the times of the packets sent, the
    last one first, and `gone` tells that it was demobilized. -/
structure Line (α : Type) [Zero α] where
  now : Nat
  peer : Peer α
  sent : List Nat := []
  gone : Bool := false

/-- What can happen to an association. -/
inductive Act (α : Type) [Zero α] where
  | tick (e : Env α) (sys_poll : Nat) (excess : Peer α → Bool) (mid : List (Inner α))
  | packet (e : Env α) (pkt : Pkt) (mid : List (Inner α))
  | poll (rnd mpoll : Nat)
  | set (hpoll ppoll : Nat) (reach : BitVec 8) (retry burst : Int)

/-- The act is a tick of the timer. -/
def Act.isTick : Act α → Bool
  | .tick .. => true
  | _ => false

/-- The association after the first half of `transmit`. The clock filter runs
    only if it is not in a burst. -/
def reachLine (c : Cfg α) (now : Nat) (mid : List (Inner α)) (p : Peer α) : Peer α :=
  if p.burst = 0 ∧ (transmitReach now p).reach = 0 then
    mid.foldl (innerMove c now) (transmitReach now p)
  else transmitReach now p

/-- A tick: the timer, and `transmit` if the association is due. -/
def tickLine (c : Cfg α) (l : Line α) (e : Env α) (sys_poll : Nat) (excess : Peer α → Bool)
    (mid : List (Inner α)) : Line α :=
  let now := l.now + 1
  let p := timerPeer l.peer
  if p.nextdate ≤ now then
    match transmitSend c e now sys_poll excess p (reachLine c now mid p) with
    | none => { l with now := now, gone := true }
    | some (r, none) => { l with now := now, peer := r }
    | some (r, some _) => { l with now := now, peer := r, sent := now :: l.sent }
  else { l with now := now, peer := p }

/-- A packet: `process_packet`, with the clock filter at its end. -/
def packetLine (c : Cfg α) (l : Line α) (e : Env α) (pkt : Pkt) (mid : List (Inner α)) : Line α :=
  match processPacket c e l.now pkt l.peer with
  | (p, none) => { l with peer := p }
  | (p, some _) => { l with peer := finishVolley c e l.now (mid.foldl (innerMove c l.now) p) }

/-- One step of an association. When it is gone only time goes on. -/
def lineStep (c : Cfg α) (l : Line α) (a : Act α) : Line α :=
  match a with
  | .tick e sys_poll excess mid =>
    if l.gone then { l with now := l.now + 1 } else tickLine c l e sys_poll excess mid
  | .packet e pkt mid => if l.gone then l else packetLine c l e pkt mid
  | .poll rnd mpoll =>
    if l.gone then l else { l with peer := pollUpdate c l.now rnd l.peer mpoll }
  | .set hpoll ppoll reach retry burst =>
    if l.gone then l
    else { l with peer := { l.peer with
        hpoll := hpoll, ppoll := ppoll, reach := reach, retry := retry, burst := burst } }

/-- The association is not a clock, waits for no Autokey response, and its
    minimum poll exponent is `m`. -/
structure Plain (m : Nat) (x : Sched) : Prop where
  minpoll : x.minpoll = m
  refclock : x.refclock = false
  cmmd : x.cmmd = false

/-- The next date is a headway of `pkt` away and late enough for the rate control. -/
def Headway (pkt : Int) (now : Nat) (x : Sched) : Prop :=
  (now : Int) + pkt ≤ x.nextdate
    ∧ (now : Int) + (x.throttle - 7 * shl1 x.minpoll) ≤ x.nextdate

/-- From schedule `x` to schedule `y` at one time: nothing is charged, and the
    next date is kept or respects the rate control. -/
structure Moved (pkt : Int) (m now : Nat) (x y : Sched) : Prop where
  plain : Plain m y
  throttle : y.throttle = x.throttle
  nextdate : y.nextdate = x.nextdate ∨ Headway pkt now y

theorem Moved.refl {pkt : Int} {m now : Nat} {x : Sched} (h : Plain m x) : Moved pkt m now x x :=
  ⟨h, rfl, .inl rfl⟩

theorem Moved.trans {pkt : Int} {m now : Nat} {x y z : Sched} (hxy : Moved pkt m now x y)
    (hyz : Moved pkt m now y z) : Moved pkt m now x z := by
  refine ⟨hyz.plain, hyz.throttle.trans hxy.throttle, ?_⟩
  rcases hyz.nextdate with hz | hz
  · rcases hxy.nextdate with hy | hy
    · exact .inl (hz.trans hy)
    · right
      rw [Headway, hz, hyz.throttle, hyz.plain.minpoll, ← hxy.plain.minpoll]
      exact hy
  · exact .inr hz

section Moving

omit [LinearOrder α]

variable (c : Cfg α)

/-- `poll_update` on the schedule. The date is kept only in a burst and only
    while it is in the future. -/
theorem pollUpdate_moved (m now rnd : Nat) (p : Peer α) (mpoll : Nat) (hpkt : 0 ≤ c.ntp_minpkt)
    (h : Plain m (sched p)) :
    Moved c.ntp_minpkt m now (sched p) (sched (pollUpdate c now rnd p mpoll))
      ∧ ((0 < p.burst ∧ now < p.nextdate)
        ∨ Headway c.ntp_minpkt now (sched (pollUpdate c now rnd p mpoll))) := by
  rw [pollUpdate_sched]
  rcases pollDate_spec c now rnd { p with hpoll := clampPoll p mpoll } hpkt h.refclock h.cmmd with
    ⟨hb, hn, hkeep⟩ | hle
  · exact ⟨⟨⟨h.minpoll, h.refclock, h.cmmd⟩, rfl, .inl hkeep⟩, .inl ⟨hb, hn⟩⟩
  · -- Otherwise the date is at or after the earliest one.
    have hge := earliest_ge c now { p with hpoll := clampPoll p mpoll }
    have hdate := Int.ofNat_le.mpr hle
    refine ⟨⟨⟨h.minpoll, h.refclock, h.cmmd⟩, rfl, .inr ⟨?_, ?_⟩⟩, .inr ⟨?_, ?_⟩⟩
    · exact hge.1.trans hdate
    · exact hge.2.trans hdate
    · exact hge.1.trans hdate
    · exact hge.2.trans hdate

/-- The moves of the clock filter keep the burst counter. -/
theorem innerMoves_moved (m now : Nat) (mid : List (Inner α)) (p : Peer α) (hpkt : 0 ≤ c.ntp_minpkt)
    (h : Plain m (sched p)) :
    Moved c.ntp_minpkt m now (sched p) (sched (mid.foldl (innerMove c now) p))
      ∧ (mid.foldl (innerMove c now) p).burst = p.burst := by
  induction mid generalizing p with
  | nil => exact ⟨Moved.refl h, rfl⟩
  | cons a mid ih =>
    have hone : Moved c.ntp_minpkt m now (sched p) (sched (innerMove c now p a))
        ∧ (innerMove c now p a).burst = p.burst := by
      cases a with
      | poll rnd mpoll => exact ⟨(pollUpdate_moved c m now rnd p mpoll hpkt h).1, rfl⟩
      | marks q => exact ⟨⟨⟨h.minpoll, h.refclock, h.cmmd⟩, rfl, .inl rfl⟩, rfl⟩
    obtain ⟨hrest, hb⟩ := ih (innerMove c now p a) hone.1.plain
    exact ⟨hone.1.trans hrest, hb.trans hone.2⟩

/-- The association when `transmit` comes to send: plain, not charged, and
    not in a burst with a date in the future. -/
theorem reachLine_due (m now : Nat) (mid : List (Inner α)) (p : Peer α) (hpkt : 0 ≤ c.ntp_minpkt)
    (h : Plain m (sched p)) (hdue : p.nextdate ≤ now) :
    Plain m (sched (reachLine c now mid p)) ∧ (reachLine c now mid p).throttle = p.throttle
      ∧ ¬ (0 < (reachLine c now mid p).burst ∧ now < (reachLine c now mid p).nextdate) := by
  have hr := transmitReach_sched now p
  rw [reachLine]
  generalize transmitReach now p = r at hr
  have hplain : Plain m (sched r) := by
    rw [hr]
    exact ⟨h.minpoll, h.refclock, h.cmmd⟩
  have hthr : r.throttle = p.throttle := congrArg Sched.throttle hr
  have hburst : r.burst = if p.burst = 0 then p.burst else p.burst - 1 := congrArg Sched.burst hr
  have hnext : r.nextdate = p.nextdate := congrArg Sched.nextdate hr
  -- In a burst the clock filter does not run, and the date is the one reached.
  by_cases hcond : p.burst = 0 ∧ r.reach = 0
  · rw [if_pos hcond]
    obtain ⟨hmv, hb⟩ := innerMoves_moved c m now mid r hpkt hplain
    refine ⟨hmv.plain, hmv.throttle.trans hthr, ?_⟩
    omega
  · rw [if_neg hcond]
    refine ⟨hplain, hthr, ?_⟩
    omega

/-- The end of `transmit` on the schedule. If the association is not in a
    burst with a date in the future, the new date has its headway. -/
theorem transmitXmit_charged (e : Env α) (m now hpoll : Nat) (p : Peer α) (hpkt : 0 ≤ c.ntp_minpkt)
    (h : Plain m (sched p)) (hdue : ¬ (0 < p.burst ∧ now < p.nextdate)) :
    Plain m (sched (transmitXmit c e now hpoll p).1)
      ∧ (transmitXmit c e now hpoll p).1.throttle
        = p.throttle + (if (transmitXmit c e now hpoll p).2.isSome then shl1 m - 2 else 0)
      ∧ Headway c.ntp_minpkt now (sched (transmitXmit c e now hpoll p).1) := by
  have hq := countRetry_sched p
  rw [transmitXmit]
  generalize countRetry p = q at hq
  have hthr : q.throttle = p.throttle := congrArg Sched.throttle hq
  have hmin : q.minpoll = m := (congrArg Sched.minpoll hq).trans h.minpoll
  have hcmmd : q.cmmd = false := (congrArg Sched.cmmd hq).trans h.cmmd
  obtain ⟨b, hb, hr⟩ := xmitUnlessListening_sched c e q
  rw [hq, hthr, hmin, hb hcmmd] at hr
  generalize xmitUnlessListening c e q = r at hr
  have hplain : Plain m (sched r.1) := by
    rw [hr]
    exact ⟨h.minpoll, h.refclock, rfl⟩
  obtain ⟨hmv, hor⟩ := pollUpdate_moved c m now (e.ntp_random 0) r.1 hpoll hpkt hplain
  refine ⟨hmv.plain, hmv.throttle.trans (congrArg Sched.throttle hr), ?_⟩
  -- The date could only be kept in a burst not yet due.
  rcases hor with ⟨hburst, hn⟩ | hhead
  · have hb' : r.1.burst = p.burst := congrArg Sched.burst hr
    have hn' : r.1.nextdate = p.nextdate := congrArg Sched.nextdate hr
    rw [hb'] at hburst
    rw [hn'] at hn
    exact absurd ⟨hburst, hn⟩ hdue
  · exact hhead

end Moving

variable (c : Cfg α) (e : Env α)

/-- `process_packet` on the schedule. Whatever arming the burst does to the
    date, the call of `poll_update` that follows puts it right. -/
theorem processPacket_moved (m now : Nat) (pkt : Pkt) (p : Peer α) (hpkt : 0 ≤ c.ntp_minpkt)
    (h : Plain m (sched p)) :
    Moved c.ntp_minpkt m now (sched p) (sched (processPacket c e now pkt p).1) := by
  rw [processPacket_sched, packetHeader_sched]
  obtain ⟨b, n, harm⟩ := armBurst_sched now (captureHeader pkt p)
  have hfuture := armBurst_of_future now (captureHeader pkt p)
  generalize armBurst now (captureHeader pkt p) = q at harm hfuture
  have hplain : Plain m (sched q) := by
    rw [harm]
    exact ⟨h.minpoll, h.refclock, h.cmmd⟩
  have hthr : q.throttle = p.throttle := congrArg Sched.throttle harm
  obtain ⟨hmv, hor⟩ := pollUpdate_moved c m now (e.ntp_random 1) q q.hpoll hpkt hplain
  refine ⟨hmv.plain, hmv.throttle.trans hthr, ?_⟩
  -- A date in the future is kept; then arming the burst has not moved it.
  rcases hor with ⟨hb, hn⟩ | hhead
  · rcases hmv.nextdate with hkeep | hhead
    · have hq : q.nextdate = p.nextdate := by
        rw [hfuture hb hn]
        rfl
      exact .inl (hkeep.trans hq)
    · exact .inr hhead
  · exact .inr hhead

theorem transmitSend_charged (m now sys_poll : Nat) (excess : Peer α → Bool) (p0 p : Peer α)
    (r : Peer α × Option LFp) (hpkt : 0 ≤ c.ntp_minpkt) (h : Plain m (sched p))
    (hdue : ¬ (0 < p.burst ∧ now < p.nextdate))
    (hr : transmitSend c e now sys_poll excess p0 p = some r) :
    Plain m (sched r.1)
      ∧ r.1.throttle = p.throttle + (if r.2.isSome then shl1 m - 2 else 0)
      ∧ Headway c.ntp_minpkt now (sched r.1) := by
  have hq := transmitPoll_sched c e now sys_poll p0 p
  simp only [transmitSend] at hr
  generalize transmitPoll c e now sys_poll p0 p = t at hq hr
  have hplain : Plain m (sched t.1) := hq ▸ h
  have hthr : t.1.throttle = p.throttle := congrArg Sched.throttle hq
  have hdue' : ¬ (0 < t.1.burst ∧ now < t.1.nextdate) := by
    have hb : t.1.burst = p.burst := congrArg Sched.burst hq
    have hn : t.1.nextdate = p.nextdate := congrArg Sched.nextdate hq
    rw [hb, hn]
    exact hdue
  -- Every branch that sends ends in the same call.
  have hxmit : ∀ hpoll, r = transmitXmit c e now hpoll t.1 →
      Plain m (sched r.1)
        ∧ r.1.throttle = p.throttle + (if r.2.isSome then shl1 m - 2 else 0)
        ∧ Headway c.ntp_minpkt now (sched r.1) := by
    rintro hpoll rfl
    rw [← hthr]
    exact transmitXmit_charged c e m now hpoll t.1 hpkt hplain hdue'
  split_ifs at hr
  · exact hxmit _ (some.inj hr).symm
  · exact hxmit _ (some.inj hr).symm
  · have hr' := (some.inj hr).symm
    subst hr'
    exact transmitXmit_charged c e m now p0.hpoll p hpkt h hdue

/-- The rate control invariant. As long as the association lives, either the counter is within its
    threshold or the next date is far enough away for it to come down to the threshold, and the last
    packet is at least the minimum headway before the next date. -/
structure RateInv (c : Cfg α) (m : Nat) (l : Line α) : Prop where
  plain : Plain m (sched l.peer)
  nonneg : 0 ≤ l.peer.throttle
  bound : l.peer.throttle ≤ 8 * shl1 m
  lead : l.gone = false → l.peer.throttle ≤ 7 * shl1 m
    ∨ (l.now : Int) + (l.peer.throttle - 7 * shl1 m) ≤ l.peer.nextdate
  gap : l.gone = false → ∀ t ∈ l.sent.head?, t ≤ l.now ∧ (t : Int) + c.ntp_minpkt ≤ l.peer.nextdate
  spaced : l.sent.IsChain (fun a b : Nat => (b : Int) + c.ntp_minpkt ≤ a)

/-- A step keeps the invariant, and what it sends is paid for by the counter:
    each packet costs `2 ^ m - 2`, and a tick brings in one. -/
structure StepOk (c : Cfg α) (m : Nat) (l l' : Line α) (ticks : Int) : Prop where
  inv : RateInv c m l'
  charge : ((l'.sent.length : Int) - l.sent.length) * (shl1 m - 2) - ticks
    ≤ l'.peer.throttle - l.peer.throttle

section Steps

omit [LinearOrder α]

/-- A move of the schedule at one time keeps the invariant and sends nothing. -/
theorem RateInv.moved {c : Cfg α} {m : Nat} {l : Line α} (h : RateInv c m l)
    (hg : l.gone = false) {q : Peer α} (hmv : Moved c.ntp_minpkt m l.now (sched l.peer) (sched q)) :
    StepOk c m l { l with peer := q } 0 := by
  have hthr : q.throttle = l.peer.throttle := hmv.throttle
  have hmin : q.minpoll = m := hmv.plain.minpoll
  refine ⟨⟨hmv.plain, ?_, ?_, ?_, ?_, h.spaced⟩, ?_⟩
  · rw [hthr]
    exact h.nonneg
  · rw [hthr]
    exact h.bound
  · intro _
    rcases hmv.nextdate with hkeep | hhead
    · have hn : q.nextdate = l.peer.nextdate := hkeep
      rw [hthr, hn]
      exact h.lead hg
    · have hlate : (l.now : Int) + (q.throttle - 7 * shl1 q.minpoll) ≤ q.nextdate := hhead.2
      rw [hmin] at hlate
      exact .inr hlate
  · intro _ t ht
    obtain ⟨htnow, htn⟩ := h.gap hg t ht
    refine ⟨htnow, ?_⟩
    rcases hmv.nextdate with hkeep | hhead
    · have hn : q.nextdate = l.peer.nextdate := hkeep
      rw [hn]
      exact htn
    · have hlate : (l.now : Int) + c.ntp_minpkt ≤ q.nextdate := hhead.1
      simp only
      omega
  · simp only [hthr]
    omega

theorem timerPeer_throttle (p : Peer α) (h : 0 ≤ p.throttle) :
    0 ≤ (timerPeer p).throttle ∧ p.throttle - 1 ≤ (timerPeer p).throttle
      ∧ ((timerPeer p).throttle = 0 ∨ (timerPeer p).throttle = p.throttle - 1) := by
  have hthr : (timerPeer p).throttle = if p.throttle > 0 then p.throttle - 1 else p.throttle :=
    congrArg Sched.throttle (timerPeer_sched p)
  rw [hthr]
  split <;> omega

/-- The line when an association that was due has been rescheduled, with or without a packet. The
    counter was down to its threshold, so one more packet stays within the bound. -/
theorem RateInv.resched {c : Cfg α} {m : Nat} {l : Line α} (h : RateInv c m l)
    (hg : l.gone = false) (hm : 3 ≤ m) {r : Peer α} {n : Bool} {u : Int}
    (hdue : (l.peer.nextdate : Int) ≤ l.now + 1) (hu : 0 ≤ u ∧ l.peer.throttle - 1 ≤ u)
    (hle : u ≤ 7 * shl1 m) (hplain : Plain m (sched r))
    (hthr : r.throttle = u + (if n then shl1 m - 2 else 0))
    (hhead : Headway c.ntp_minpkt (l.now + 1) (sched r)) :
    StepOk c m l { l with
      now := l.now + 1, peer := r, sent := if n then (l.now + 1) :: l.sent else l.sent } 1 := by
  -- A packet costs less than one unit of the threshold.
  have hK : (8 : Int) ≤ shl1 m := by
    have hpow : (2 : Int) ^ 3 ≤ 2 ^ m := pow_le_pow_right₀ (by norm_num) hm
    simpa [shl1] using hpow
  have hlate : ((l.now + 1 : Nat) : Int) + (r.throttle - 7 * shl1 r.minpoll) ≤ r.nextdate := hhead.2
  have hgap : ((l.now + 1 : Nat) : Int) + c.ntp_minpkt ≤ r.nextdate := hhead.1
  have hmin : r.minpoll = m := hplain.minpoll
  rw [hmin] at hlate
  cases n with
  | false =>
    simp only [Bool.false_eq_true, if_false, add_zero] at hthr ⊢
    refine ⟨⟨hplain, ?_, ?_, fun _ => .inr hlate, ?_, h.spaced⟩, ?_⟩
    · simp only
      omega
    · simp only
      omega
    · intro _ t ht
      have htl := (h.gap hg t ht).1
      simp only
      omega
    · simp only
      omega
  | true =>
    simp only [if_true] at hthr ⊢
    refine ⟨⟨hplain, ?_, ?_, fun _ => .inr hlate, ?_, ?_⟩, ?_⟩
    · simp only
      omega
    · simp only
      omega
    · intro _ t ht
      simp only [List.head?_cons, mem_def, some.injEq] at ht
      subst ht
      exact ⟨le_refl _, hgap⟩
    · -- The last packet is a headway before the date that has been reached.
      have hspaced := h.spaced
      have hlast := h.gap hg
      rcases hsent : l.sent with _ | ⟨t, ts⟩
      · simp
      · rw [hsent] at hspaced hlast
        refine List.IsChain.cons_cons ?_ hspaced
        have htl := (hlast t (by simp)).2
        omega
    · simp only [List.length_cons]
      omega

end Steps

theorem tickLine_stepOk (m : Nat) (l : Line α) (e : Env α) (sys_poll : Nat) (excess : Peer α → Bool)
    (mid : List (Inner α)) (hpkt : 0 ≤ c.ntp_minpkt) (hm : 3 ≤ m) (h : RateInv c m l)
    (hg : l.gone = false) : StepOk c m l (tickLine c l e sys_poll excess mid) 1 := by
  have ht := timerPeer_sched l.peer
  obtain ⟨hnn, hdec, hor⟩ := timerPeer_throttle l.peer h.nonneg
  rw [tickLine]
  generalize timerPeer l.peer = p at ht hnn hdec hor
  have hplain : Plain m (sched p) := by
    rw [ht]
    exact ⟨h.plain.minpoll, h.plain.refclock, h.plain.cmmd⟩
  have hnext : p.nextdate = l.peer.nextdate := congrArg Sched.nextdate ht
  have hlead := h.lead hg
  have hbound := h.bound
  have h0 := h.nonneg
  by_cases hdue : p.nextdate ≤ l.now + 1
  · simp only [hdue, if_true]
    have hdue' : (l.peer.nextdate : Int) ≤ l.now + 1 := by omega
    -- The date is reached, so the counter is down to its threshold.
    have hle : p.throttle ≤ 7 * shl1 m := by omega
    obtain ⟨hqp, hqt, hqd⟩ := reachLine_due c m (l.now + 1) mid p hpkt hplain hdue
    have hsend := fun r hr => transmitSend_charged c e m (l.now + 1) sys_poll excess p
      (reachLine c (l.now + 1) mid p) r hpkt hqp hqd hr
    rw [hqt] at hsend
    rcases hs : transmitSend c e (l.now + 1) sys_poll excess p
      (reachLine c (l.now + 1) mid p) with _ | ⟨r, _ | x⟩
    · -- Demobilized: the line stands still from now on.
      refine ⟨{ h with lead := by simp, gap := by simp }, ?_⟩
      simp
    · obtain ⟨hrp, hrt, hrh⟩ := hsend _ hs
      exact h.resched hg hm (n := false) hdue' ⟨hnn, hdec⟩ hle hrp hrt hrh
    · obtain ⟨hrp, hrt, hrh⟩ := hsend _ hs
      exact h.resched hg hm (n := true) hdue' ⟨hnn, hdec⟩ hle hrp hrt hrh
  · simp only [hdue, if_false]
    -- Not due: the counter comes down with the time left.
    refine ⟨⟨hplain, hnn, ?_, ?_, ?_, h.spaced⟩, ?_⟩
    · simp only
      omega
    · simp only
      omega
    · intro _ t htm
      have htl := h.gap hg t htm
      simp only
      omega
    · simp only
      omega

theorem packetLine_stepOk (m : Nat) (l : Line α) (e : Env α) (pkt : Pkt) (mid : List (Inner α))
    (hpkt : 0 ≤ c.ntp_minpkt) (h : RateInv c m l) (hg : l.gone = false) :
    StepOk c m l (packetLine c l e pkt mid) 0 := by
  have hmv := processPacket_moved c e m l.now pkt l.peer hpkt h.plain
  unfold packetLine
  rcases hp : processPacket c e l.now pkt l.peer with ⟨p, _ | x⟩
  · rw [hp] at hmv
    exact h.moved hg hmv
  · rw [hp] at hmv
    have hmid := (innerMoves_moved c m l.now mid p hpkt hmv.plain).1
    refine h.moved hg ?_
    rw [finishVolley_sched]
    exact hmv.trans hmid

theorem lineStep_stepOk (m : Nat) (l : Line α) (a : Act α) (hpkt : 0 ≤ c.ntp_minpkt) (hm : 3 ≤ m)
    (h : RateInv c m l) : StepOk c m l (lineStep c l a) (if a.isTick then 1 else 0) := by
  have hstay : StepOk c m l l 0 := ⟨h, by simp⟩
  by_cases hgone : l.gone = true
  · -- A line that is gone does not change.
    cases a with
    | tick e sys_poll excess mid =>
      rw [lineStep, if_pos hgone]
      refine ⟨{ h with lead := by simp [hgone], gap := by simp [hgone] }, ?_⟩
      simp [Act.isTick]
    | packet e pkt mid | poll rnd mpoll | set hpoll ppoll reach retry burst =>
      rw [lineStep, if_pos hgone]
      exact hstay
  · have hg : l.gone = false := by simpa using hgone
    cases a with
    | tick e sys_poll excess mid =>
      rw [lineStep, if_neg hgone]
      exact tickLine_stepOk c m l e sys_poll excess mid hpkt hm h hg
    | packet e pkt mid =>
      rw [lineStep, if_neg hgone]
      exact packetLine_stepOk c m l e pkt mid hpkt h hg
    | poll rnd mpoll =>
      rw [lineStep, if_neg hgone]
      exact h.moved hg (pollUpdate_moved c m l.now rnd l.peer mpoll hpkt h.plain).1
    | set hpoll ppoll reach retry burst =>
      rw [lineStep, if_neg hgone]
      exact h.moved hg ⟨⟨h.plain.minpoll, h.plain.refclock, h.plain.cmmd⟩, rfl, .inl rfl⟩

/-- The cost of a step: what its packets add to the counter, less what a tick may take off it. -/
def lineCost (c : Cfg α) (m : Nat) (l : Line α) (a : Act α) : Int :=
  (((lineStep c l a).sent.length : Int) - l.sent.length) * (shl1 m - 2)
    - (if a.isTick then 1 else 0)

theorem total_lineCost (m : Nat) (l : Line α) (ys : List (Act α)) :
    Run.total (lineStep c) (lineCost c m) l ys
      = (((Run.exec (lineStep c) l ys).sent.length : Int) - l.sent.length) * (shl1 m - 2)
        - ys.countP Act.isTick := by
  induction ys generalizing l with
  | nil => simp [Run.total]
  | cons a ys ih =>
    rw [Run.total, ih, Run.exec_cons, lineCost, List.countP_cons]
    push_cast
    ring

/-- A unicast client association under rate control: it is not a clock, uses
    no Autokey, is in basic mode, and its counter is zero. -/
structure RateControlled (c : Cfg α) (m : Nat) (p : Peer α) : Prop where
  hmode : p.hmode = .client
  ucast : p.cast_flags = { ucast := true }
  refclock : p.flags.refclock = false
  skey : p.flags.skey = false
  cmmd : p.cmmd = false
  flip : p.flip = 0
  minpoll : p.minpoll = m
  minpoll_ge : 3 ≤ m
  minpoll_le : m ≤ 17
  throttle : p.throttle = 0
  minpkt : 1 ≤ c.ntp_minpkt

omit [LinearOrder α] in
theorem RateControlled.start {c : Cfg α} {m : Nat} {p : Peer α} (h : RateControlled c m p)
    (now : Nat) : RateInv c m ({ now := now, peer := p } : Line α) := by
  have hK : (0 : Int) ≤ shl1 m := by
    rw [shl1]
    positivity
  refine ⟨⟨h.minpoll, h.refclock, h.cmmd⟩, h.throttle.ge, ?_, ?_, by simp, by simp⟩
  · rw [h.throttle]
    omega
  · intro _
    left
    rw [h.throttle]
    omega

/-- Outbound rate control. After any run `xs` the packets sent are the minimum
    headway apart and the counter is within its bound, and any run `ys` that
    follows sends no more packets than its ticks and a full counter pay for. -/
theorem transmit_rate_bounded (c : Cfg α) (m now : Nat) (p : Peer α) (h : RateControlled c m p)
    (xs ys : List (Act α)) :
    (Run.exec (lineStep c) { now := now, peer := p } xs).sent.IsChain
        (fun later earlier : Nat => (earlier : Int) + c.ntp_minpkt ≤ later)
      ∧ (Run.exec (lineStep c) { now := now, peer := p } xs).peer.throttle ≤ 8 * 2 ^ m
      ∧ (((Run.exec (lineStep c) { now := now, peer := p } (xs ++ ys)).sent.length : Int)
          - (Run.exec (lineStep c) { now := now, peer := p } xs).sent.length) * (2 ^ m - 2)
        ≤ ys.countP Act.isTick + 8 * 2 ^ m := by
  have hpkt : 0 ≤ c.ntp_minpkt := by
    have := h.minpkt
    omega
  have hstep : ∀ l a, RateInv c m l → RateInv c m (lineStep c l a) :=
    fun l a hl => (lineStep_stepOk c m l a hpkt h.minpoll_ge hl).inv
  have hcost : ∀ l a, RateInv c m l →
      lineCost c m l a ≤ (lineStep c l a).peer.throttle - l.peer.throttle :=
    fun l a hl => (lineStep_stepOk c m l a hpkt h.minpoll_ge hl).charge
  have hrun : ∀ zs, RateInv c m (Run.exec (lineStep c) { now := now, peer := p } zs) :=
    fun zs => Run.exec_invariant (fun l a hl _ => hstep l a hl) _ zs (h.start now)
      (Run.meets_true _ _ _)
  have hxs := hrun xs
  have hend := hrun (xs ++ ys)
  rw [Run.exec_append] at hend ⊢
  generalize Run.exec (lineStep c) { now := now, peer := p } xs = l at hxs hend
  have htotal := Run.total_le (fun l : Line α => l.peer.throttle) hstep hcost l ys hxs
  rw [total_lineCost] at htotal
  refine ⟨hxs.spaced, hxs.bound, ?_⟩
  -- What was sent is at most the ticks and the rise of the counter.
  have h0 := hxs.nonneg
  have h8 := hend.bound
  simp only [shl1] at htotal h8
  omega

/-- An association with default poll exponents that is due at once. -/
def freshClient : Peer ℚ :=
  { minpoll := 6
    maxpoll := 10
    hpoll := 6
    hmode := .client
    cast_flags := { ucast := true }
    dstadr := some idleEndpt }

/-- The bounds for a fresh association of a daemon without options, over two
    ticks and then three. The first of them sends. -/
theorem transmit_rate_bounded_fresh :
    RateControlled defaultCfg 6 freshClient
      ∧ (Run.exec (lineStep defaultCfg) { now := 0, peer := freshClient }
          (List.replicate 2 (.tick idleEnv 6 (fun _ => false) []))).sent = [1]
      ∧ (((Run.exec (lineStep defaultCfg) { now := 0, peer := freshClient }
            (List.replicate 2 (.tick idleEnv 6 (fun _ => false) [])
              ++ List.replicate 3 (.tick idleEnv 6 (fun _ => false) []))).sent.length : Int)
          - (Run.exec (lineStep defaultCfg) { now := 0, peer := freshClient }
            (List.replicate 2 (.tick idleEnv 6 (fun _ => false) []))).sent.length) * (2 ^ 6 - 2)
        ≤ (List.replicate 3 (Act.tick idleEnv 6 (fun _ => false) [])).countP Act.isTick
          + 8 * 2 ^ 6 := by
  have hfresh : RateControlled defaultCfg 6 freshClient :=
    ⟨rfl, rfl, rfl, rfl, rfl, rfl, rfl, by decide, by decide, rfl, by decide⟩
  exact ⟨hfresh, by decide,
    (transmit_rate_bounded defaultCfg 6 0 freshClient hfresh _ _).2.2⟩

end NtpSuite
