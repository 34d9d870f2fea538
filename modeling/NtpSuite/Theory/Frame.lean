import NtpSuite.Core.Packet

/-!
# What the Procedures Leave Alone

The procedures of the poll and peer processes write a few variables of an
association and keep the rest. `Sched` collects the variables that decide
when an association sends and how its poll exponent moves, and the theorems
here say what each procedure does to them. Callers cite these and never
unfold the procedure.

## Main definitions

* `Sched`, `sched`: The schedule of an association.

## Theorems

* `earliest_ge`: The earliest date respects the headway and the rate control.
* `pollDate_spec`: The next date is kept or is not too early.
* `peerXmit_sched`: Sending charges the rate control counter.
* `processPacket_sched`: Past the header, `process_packet` keeps the schedule.
-/

namespace NtpSuite

/-- The variables the schedule of an association depends on, and where it is. -/
structure Sched where
  ptr : Nat
  minpoll : Nat
  maxpoll : Nat
  hpoll : Nat
  throttle : Int
  nextdate : Nat
  burst : Int
  refclock : Bool
  cmmd : Bool

section

variable {α : Type} [Field α]

/-- The schedule of an association. -/
def sched (p : Peer α) : Sched :=
  { ptr := p.ptr
    minpoll := p.minpoll
    maxpoll := p.maxpoll
    hpoll := p.hpoll
    throttle := p.throttle
    nextdate := p.nextdate
    burst := p.burst
    refclock := p.flags.refclock
    cmmd := p.cmmd }

variable (c : Cfg α) (now : Nat) (p : Peer α) (e : Env α)

/-- The earliest date is at least the minimum headway from now, and far
    enough away for the rate control counter to decay to its threshold. -/
theorem earliest_ge :
    (now : Int) + c.ntp_minpkt ≤ earliest c now p
      ∧ (now : Int) + (p.throttle - 7 * shl1 p.minpoll) ≤ earliest c now p := by
  have hshift : ((NTP_SHIFT : Int) - 1) = 7 := rfl
  rw [earliest, hshift]
  · omega

/-- The next date of an association that is not a clock and has no Autokey
    response waiting is either kept, in a burst and only while it is in the
    future, or put no earlier than the rate control allows. -/
theorem pollDate_spec (now rnd : Nat) (p : Peer α) (hpkt : 0 ≤ c.ntp_minpkt)
    (hclk : p.flags.refclock = false) (hcmmd : p.cmmd = false) :
    (0 < p.burst ∧ now < p.nextdate ∧ pollDate c now rnd p = p.nextdate)
      ∨ earliest c now p ≤ pollDate c now rnd p := by
  simp only [pollDate, hclk, hcmmd, Bool.and_false, Bool.false_eq_true, if_false]
  by_cases hb : p.burst > 0
  · rw [if_pos hb]
    by_cases hn : p.nextdate > now
    · rw [if_pos hn]
      exact .inl ⟨hb, hn, rfl⟩
    · rw [if_neg hn]
      exact .inr (le_refl _)
  · rw [if_neg hb]
    right
    have hmax := le_max_right (nextPoll c rnd p) (earliest c now p)
    split
    · -- The headway is added on top of a date that is late enough already.
      omega
    · exact hmax

/-- `poll_update` writes the poll exponent and the next date. -/
theorem pollUpdate_sched (now rnd : Nat) (p : Peer α) (mpoll : Nat) :
    sched (pollUpdate c now rnd p mpoll) = { sched p with
      hpoll := clampPoll p mpoll
      nextdate := pollDate c now rnd { p with hpoll := clampPoll p mpoll } } := by
  simp only [sched, pollUpdate, keyExpire]
  split <;> rfl

theorem stampOrg_sched (p : Peer α) : sched (stampOrg e p) = sched p := by
  rw [stampOrg]
  split <;> rfl

theorem nextKey_sched (p : Peer α) :
    ∃ b, (p.cmmd = false → b = false) ∧ sched (nextKey c e p) = { sched p with cmmd := b } := by
  rw [nextKey]
  split
  · exact ⟨false, fun _ => rfl, rfl⟩
  · exact ⟨p.cmmd, id, rfl⟩

theorem afterSend_sched (p : Peer α) :
    sched (afterSend e p) = { sched p with throttle := p.throttle + (shl1 p.minpoll - 2) } := by
  simp only [afterSend]
  split_ifs <;> rfl

/-- What sending does to the schedule: the counter is charged if and only if a packet left. -/
theorem peerXmit_sched (p : Peer α) :
    ∃ b, (p.cmmd = false → b = false) ∧ sched (peerXmit c e p).1 = { sched p with
      throttle := p.throttle + (if (peerXmit c e p).2.isSome then shl1 p.minpoll - 2 else 0)
      cmmd := b } := by
  by_cases h1 : p.dstadr = none
  · refine ⟨p.cmmd, id, ?_⟩
    rw [peerXmit, if_pos h1]
    simp [sched]
  · obtain ⟨b, hb, hkey⟩ := nextKey_sched c e p
    have hstamp := (stampOrg_sched e (nextKey c e p)).trans hkey
    refine ⟨b, hb, ?_⟩
    by_cases h2 : (needsMac c p && e.authencrypt (nextKey c e p).keyid == 0) = true
    · have hdrop : sched (dropPacket e (nextKey c e p)) = { sched p with cmmd := b } := hstamp
      rw [peerXmit, if_neg h1, if_pos h2, hdrop]
      simp [sched]
    · rw [peerXmit, if_neg h1, if_neg h2, afterSend_sched, hstamp]
      have hthr := congrArg Sched.throttle hstamp
      have hmin := congrArg Sched.minpoll hstamp
      simp only [sched] at hthr hmin
      simp [hthr, hmin, sched]

theorem xmitUnlessListening_sched (p : Peer α) :
    ∃ b, (p.cmmd = false → b = false) ∧ sched (xmitUnlessListening c e p).1 = { sched p with
      throttle := p.throttle
        + (if (xmitUnlessListening c e p).2.isSome then shl1 p.minpoll - 2 else 0)
      cmmd := b } := by
  by_cases hmode : p.hmode = .bclient
  · rw [xmitUnlessListening, if_pos hmode]
    simp [sched]
  · rw [xmitUnlessListening, if_neg hmode]
    exact peerXmit_sched c e p

theorem countRetry_sched : sched (countRetry p) = sched p := by
  rw [countRetry]
  split <;> rfl

theorem timerPeer_sched :
    sched (timerPeer p) = { sched p with
      throttle := if p.throttle > 0 then p.throttle - 1 else p.throttle } := by
  rw [timerPeer]
  split <;> rfl

theorem transmitReach_sched :
    sched (transmitReach now p) = { sched p with
      burst := if p.burst = 0 then p.burst else p.burst - 1 } := by
  rw [transmitReach]
  split <;> rfl

/-- Arming a burst writes the burst counter and the next date. -/
theorem armBurst_sched :
    ∃ b n, sched (armBurst now p) = { sched p with burst := b, nextdate := n } := by
  rw [armBurst]
  split
  · exact ⟨_, _, rfl⟩
  · exact ⟨p.burst, p.nextdate, rfl⟩

/-- Arming a burst brings the date forward to now. A date still in the future
    afterwards is the old one. -/
theorem armBurst_of_future (hb : 0 < (armBurst now p).burst)
    (hn : now < (armBurst now p).nextdate) : armBurst now p = p := by
  by_cases hr : p.retry > 0
  · exfalso
    rw [armBurst, if_pos hr] at hb hn
    have hlen : burstLength p > 0 := hb
    simp only [hlen, if_true] at hn
    exact lt_irrefl _ hn
  · exact if_neg hr

theorem markReachable_sched : sched (markReachable now p) = sched p := by
  rw [markReachable]
  split <;> rfl

end

section

variable {α : Type} [Field α] [LinearOrder α]

variable (c : Cfg α) (e : Env α)

/-- The header part of `process_packet` reschedules an association with the
    burst armed; the flashers do not matter to the schedule. -/
theorem packetHeader_sched (now : Nat) (pkt : Pkt) (p : Peer α) :
    sched (packetHeader c e now pkt p) = sched (pollUpdate c now (e.ntp_random 1)
      (armBurst now (captureHeader pkt p)) (armBurst now (captureHeader pkt p)).hpoll) := rfl

theorem packetSample_sched (pkt : Pkt) (p : Peer α) : sched (packetSample pkt p).1 = sched p := by
  simp only [packetSample]
  split_ifs <;> rfl

theorem processPacket_sched (now : Nat) (pkt : Pkt) (p : Peer α) :
    sched (processPacket c e now pkt p).1 = sched (packetHeader c e now pkt p) := by
  rw [processPacket]
  generalize packetHeader c e now pkt p = q
  by_cases hflash : q.flash.pktTest
  · rw [if_pos hflash]
    rfl
  · rw [if_neg hflash]
    have hsample := (packetSample_sched pkt (markReachable now q)).trans (markReachable_sched now q)
    rcases hs : packetSample pkt (markReachable now q) with ⟨r, _ | ⟨off, del⟩⟩
    · rw [hs] at hsample
      exact hsample
    · rw [hs] at hsample
      exact hsample

theorem finishVolley_sched (now : Nat) (p : Peer α) : sched (finishVolley c e now p) = sched p := by
  simp only [finishVolley]
  split_ifs <;> rfl

/-- The reachability part of `transmit` does not touch the schedule. -/
theorem transmitPoll_sched (now sys_poll : Nat) (p0 p : Peer α) :
    sched (transmitPoll c e now sys_poll p0 p).1 = sched p := by
  simp only [transmitPoll]
  split_ifs <;> rfl

end

end NtpSuite
