import NtpSuite.Core.Packet

/-!
# How a Packet Ends

The stages of `receive` for a matched association, inverted. The timestamp
tests have four ends. The stages after them change variables that neither the
on-wire protocol nor the poll process looks at, and then either leave it at
that, or clear the association, or answer a rate kiss. Whoever wants to know
what a packet does to an association starts from these two lemmas and does
not open the stages again.

## Main definitions

* `Duplicate`, `StartsXb`: The two kinds of packets the tests end.
* `Aside`: Equal on-wire and poll variables, `ppoll` apart.
* `Cleared`: The association was cleared.
* `kissBranch`: The packet is answered as a rate kiss.

## Theorems

* `timestampTests_cases`: The ends of the timestamp tests.
* `timestampTests_ends`: What they leave alone.
* `receiveVerdict_cases`: The ends of the stages after them.
* `receivePeer_frame`: What all stages leave alone.
-/

namespace NtpSuite

section Tests

variable {α : Type} [Field α]

/-- The packet repeats the transmit timestamp of the last one. -/
def Duplicate (rx : Rx) (p : Peer α) : Prop := rx.pkt.xmt ≠ 0 ∧ p.xmt = rx.pkt.xmt

/-- The packet is the first of an interleaved broadcast. -/
def StartsXb (rx : Rx) (p : Peer α) : Prop :=
  rx.hismode = .broadcast ∧ rx.pkt.org ≠ 0 ∧ p.flags.xb = false

/-- How the timestamp tests end: a duplicate and the start of an interleaved
    broadcast end the packet. -/
theorem timestampTests_cases (rx : Rx) (p : Peer α) :
    (Duplicate rx p ∧ timestampTests rx p
        = .done { countPacket p with
          oldpkt := p.oldpkt + 1, flash := { (countPacket p).flash with test1 := true } })
      ∨ (¬ Duplicate rx p ∧ StartsXb rx p ∧ rx.pkt.xmt ≠ 0 ∧ timestampTests rx p
        = .done (reportEvent PEVNT_XLEAVE { countPacket p with
          flags := { (countPacket p).flags with xb := true }
          aorg := rx.pkt.xmt
          borg := rx.recv_time }))
      ∨ (rx.pkt.xmt = 0 ∧ timestampTests rx p
        = .process { countPacket p with flash := { (countPacket p).flash with test3 := true } })
      ∨ (¬ Duplicate rx p ∧ ¬ StartsXb rx p ∧ rx.pkt.xmt ≠ 0
        ∧ timestampTests rx p = .process (if rx.hismode = .broadcast then countPacket p
            else if p.flip = 0 then basicTest rx (countPacket p)
            else interleavedTest rx (countPacket p))) := by
  rw [timestampTests]
  by_cases hxmt : rx.pkt.xmt = 0
  · -- Without a transmit timestamp the packet goes on at once.
    rw [if_pos hxmt]
    exact .inr (.inr (.inl ⟨hxmt, rfl⟩))
  rw [if_neg hxmt]
  by_cases hdup : (countPacket p).xmt = rx.pkt.xmt
  · rw [if_pos hdup]
    exact .inl ⟨⟨hxmt, hdup⟩, rfl⟩
  rw [if_neg hdup]
  -- From here on the timestamp is new.
  have hnew : ¬ Duplicate rx p := fun h => hdup h.2
  by_cases hbcst : rx.hismode = .broadcast
  · rw [if_pos hbcst]
    by_cases hxb : rx.pkt.org ≠ 0 ∧ !(countPacket p).flags.xb
    · rw [if_pos hxb]
      have hfirst : p.flags.xb = false := Bool.not_eq_true' _ ▸ hxb.2
      exact .inr (.inl ⟨hnew, ⟨hbcst, hxb.1, hfirst⟩, hxmt, rfl⟩)
    · rw [if_neg hxb]
      refine .inr (.inr (.inr ⟨hnew, ?_, hxmt, by rw [if_pos hbcst]⟩))
      rintro ⟨-, horg, hfirst⟩
      exact hxb ⟨horg, Bool.not_eq_true' _ ▸ hfirst⟩
  · rw [if_neg hbcst]
    refine .inr (.inr (.inr ⟨hnew, fun h => hbcst h.1, hxmt, ?_⟩))
    -- The other modes differ only in the test they run.
    have hflip : (countPacket p).flip = p.flip := rfl
    rw [hflip]
    split
    · rfl
    · rfl

/-- The tests leave everything but the on-wire variables, flags, flashers and counters alone. -/
structure Tested (p q : Peer α) : Prop where
  polls : q.toPollVars = p.toPollVars
  crypto : q.toCrypto = p.toCrypto
  dstadr : q.dstadr = p.dstadr
  ptr : q.ptr = p.ptr

theorem basicTest_tested (rx : Rx) (p : Peer α) : Tested p (basicTest rx p) := by
  rw [basicTest]
  split
  · simp only
    split
    · exact ⟨rfl, rfl, rfl, rfl⟩
    · exact ⟨rfl, rfl, rfl, rfl⟩
  · exact ⟨rfl, rfl, rfl, rfl⟩

theorem interleavedTest_tested (rx : Rx) (p : Peer α) : Tested p (interleavedTest rx p) := by
  rw [interleavedTest]
  split
  · exact ⟨rfl, rfl, rfl, rfl⟩
  · split
    · exact ⟨rfl, rfl, rfl, rfl⟩
    · exact ⟨rfl, rfl, rfl, rfl⟩

theorem timestampTests_ends (rx : Rx) (p : Peer α) :
    (∃ q, timestampTests rx p = .done q ∧ Tested p q)
      ∨ ∃ q, timestampTests rx p = .process q ∧ Tested p q ∧ ¬ Duplicate rx p := by
  rcases timestampTests_cases rx p with ⟨-, hd⟩ | ⟨-, -, -, hd⟩ | ⟨hxmt, hp⟩ | ⟨hdup, -, -, hp⟩
  · exact .inl ⟨_, hd, rfl, rfl, rfl, rfl⟩
  · exact .inl ⟨_, hd, rfl, rfl, rfl, rfl⟩
  · exact .inr ⟨_, hp, ⟨rfl, rfl, rfl, rfl⟩, fun h => h.1 hxmt⟩
  · refine .inr ⟨_, hp, ?_, hdup⟩
    -- Three modes, and none of their tests touches the rest.
    split
    · exact ⟨rfl, rfl, rfl, rfl⟩
    · split
      · have h := basicTest_tested rx (countPacket p)
        exact ⟨h.polls, h.crypto, h.dstadr, h.ptr⟩
      · have h := interleavedTest_tested rx (countPacket p)
        exact ⟨h.polls, h.crypto, h.dstadr, h.ptr⟩

theorem timestampTests_process {rx : Rx} {p q : Peer α} (h : timestampTests rx p = .process q) :
    Tested p q ∧ ¬ Duplicate rx p := by
  rcases timestampTests_ends rx p with ⟨r, hr, -⟩ | ⟨r, hr, htested⟩
  · exact absurd (hr.symm.trans h) (by simp)
  · obtain rfl := Verdict.process.inj (hr.symm.trans h)
    exact htested

end Tests

section Stages

variable {α : Type} [Field α] [LinearOrder α]

/-- The association at the end of a stage. -/
def Verdict.peer : Verdict α → Peer α
  | .done p => p
  | .gone p => p
  | .process p => p

/-- The stage left the on-wire variables and the poll variables, apart from
    `ppoll`, as they were. -/
structure Aside (p q : Peer α) : Prop where
  onWire : q.toOnWire = p.toOnWire
  polls : q.toPollVars = { p.toPollVars with ppoll := q.ppoll }
  ptr : q.ptr = p.ptr
  dstadr : q.dstadr = p.dstadr

omit [LinearOrder α] in
theorem Aside.trans {p q r : Peer α} (hpq : Aside p q) (hqr : Aside q r) : Aside p r := by
  refine ⟨hqr.onWire.trans hpq.onWire, ?_, hqr.ptr.trans hpq.ptr, hqr.dstadr.trans hpq.dstadr⟩
  rw [hqr.polls, hpq.polls]

/-- The association was cleared. -/
structure Cleared (p q : Peer α) : Prop where
  aorg : q.aorg = 0
  minpoll : q.minpoll = p.minpoll
  maxpoll : q.maxpoll = p.maxpoll
  hpoll : q.hpoll = p.minpoll
  ptr : q.ptr = p.ptr
  dstadr : q.dstadr = p.dstadr

theorem peerClear_cleared (c : Cfg α) (e : Env α) (now rnd : Nat) (initializing : Bool)
    (peer_associations : Int) (ident : BitVec 32) (p : Peer α) :
    Cleared p (peerClear c e now rnd initializing peer_associations ident p) :=
  ⟨rfl, rfl, rfl, rfl, rfl, rfl⟩

omit [LinearOrder α] in
theorem Aside.cleared {p q r : Peer α} (hpq : Aside p q) (hqr : Cleared q r) : Cleared p r := by
  have hmin : q.minpoll = p.minpoll := by rw [hpq.polls]
  have hmax : q.maxpoll = p.maxpoll := by rw [hpq.polls]
  exact ⟨hqr.aorg, hqr.minpoll.trans hmin, hqr.maxpoll.trans hmax, hqr.hpoll.trans hmin,
    hqr.ptr.trans hpq.ptr, hqr.dstadr.trans hpq.dstadr⟩

/-- The packet is answered as a rate kiss. -/
def kissBranch (rx : Rx) : Bool :=
  isKissRate rx && rx.is_authentic != .crypto && !badDigest rx

theorem kissBranch_server {rx : Rx} (h : kissBranch rx = true) : rx.hismode = .server := by
  simp only [kissBranch, isKissRate, Bool.and_eq_true, beq_iff_eq] at h
  exact h.1.1.1.1.1

/-- A stage ends with other variables changed, and then the association cleared if at all. -/
def Ended (p : Peer α) (v : Verdict α) : Prop :=
  Aside p v.peer ∨ ((∀ q, v ≠ .process q) ∧ Cleared p v.peer)

theorem badAuth_ended (c : Cfg α) (e : Env α) (s : Sys α) (p : Peer α) :
    Ended p (badAuth c e s p) := by
  simp only [badAuth]
  split
  · exact .inl ⟨rfl, rfl, rfl, rfl⟩
  · split
    · exact .inr ⟨fun q => by simp, ⟨rfl, rfl, rfl, rfl, rfl, rfl⟩⟩
    · exact .inl ⟨rfl, rfl, rfl, rfl⟩

omit [LinearOrder α] in
theorem reportEvent_aside (err : Nat) (p : Peer α) : Aside p (reportEvent err p) :=
  ⟨rfl, rfl, rfl, rfl⟩

omit [LinearOrder α] in
theorem autokeySequence_aside (e : Env α) (rx : Rx) (ap : Autokey) (p : Peer α) :
    Aside p (autokeySequence e rx ap p) := by
  rw [autokeySequence]
  split
  · exact ⟨rfl, rfl, rfl, rfl⟩
  · exact ⟨rfl, rfl, rfl, rfl⟩

omit [LinearOrder α] in
theorem autokeyCheck_aside (e : Env α) (rx : Rx) (ap : Option Autokey) (p : Peer α) :
    Aside p (autokeyCheck e rx ap p) := by
  unfold autokeyCheck
  split
  · split
    · exact ⟨rfl, rfl, rfl, rfl⟩
    · exact ⟨rfl, rfl, rfl, rfl⟩
  · split
    · exact ⟨rfl, rfl, rfl, rfl⟩
    · split
      · exact autokeySequence_aside e rx _ p
      · exact ⟨rfl, rfl, rfl, rfl⟩

section

variable (c : Cfg α) (e : Env α) (s : Sys α) (rx : Rx) (p : Peer α)

include c e s rx p

theorem autokeyDance_ended : Ended p (autokeyDance c e s rx p) := by
  -- Up to the check of the key only Autokey variables change.
  have hrecv : Aside p (cryptoRecv e (autokeyEnter p)) := ⟨rfl, rfl, rfl, rfl⟩
  have hstart : Aside p { cryptoRecv e (autokeyEnter p) with unreach := 0 } := ⟨rfl, rfl, rfl, rfl⟩
  have hcheck := hstart.trans (autokeyCheck_aside e rx p.recval _)
  have hproven : Aside p (autokeyProven (autokeyCheck e rx p.recval
      { cryptoRecv e (autokeyEnter p) with unreach := 0 })) := hcheck.trans ⟨rfl, rfl, rfl, rfl⟩
  simp only [autokeyDance]
  split
  · exact .inl ⟨rfl, rfl, rfl, rfl⟩
  · split
    · split
      · split
        · exact .inr ⟨fun q => by simp, ⟨rfl, rfl, rfl, rfl, rfl, rfl⟩⟩
        · exact .inr ⟨fun q => by simp, ⟨rfl, rfl, rfl, rfl, rfl, rfl⟩⟩
      · exact .inl hrecv
    · split
      · have hreported := hproven.trans (reportEvent_aside PEVNT_RESTART _)
        have hclear := hreported.cleared (peerClear_cleared c e s.current_time (e.ntp_random 0)
          s.initializing s.peer_associations 0x54494d45 _)
        exact .inr ⟨fun q => by simp, hclear⟩
      · exact .inl hproven

/-- The ends of the stages after the timestamp tests: the response to a rate
    kiss, or one that leaves the poll variables alone or clears them. -/
theorem receiveVerdict_cases :
    (kissBranch rx = true ∧ receiveVerdict c e s rx p
        = .done (kissRate c e s.current_time rx (setPpoll rx p)))
      ∨ (kissBranch rx = false ∧ Ended p (receiveVerdict c e s rx p)) := by
  simp only [receiveVerdict]
  by_cases hnak : rx.is_authentic = .crypto
  · rw [if_pos hnak]
    exact .inr ⟨by simp [kissBranch, hnak], badAuth_ended c e s p⟩
  rw [if_neg hnak]
  by_cases hbad : badDigest rx
  · rw [if_pos hbad]
    exact .inr ⟨by simp [kissBranch, hbad], badAuth_ended c e s p⟩
  rw [if_neg hbad]
  by_cases hkiss : isKissRate rx
  · rw [if_pos hkiss]
    exact .inl ⟨by simp [kissBranch, hkiss, hnak, hbad], rfl⟩
  · rw [if_neg hkiss]
    refine .inr ⟨by simp [kissBranch, hkiss], ?_⟩
    -- The authentic packet: `ppoll` and two marks, then Autokey.
    have haside : Aside p { setPpoll rx p with
        timereceived := s.current_time
        flags := { (setPpoll rx p).flags with authentic := rx.is_authentic == .ok } } :=
      ⟨rfl, rfl, rfl, rfl⟩
    rcases autokeyDance_ended c e s rx { setPpoll rx p with
        timereceived := s.current_time
        flags := { (setPpoll rx p).flags with authentic := rx.is_authentic == .ok } }
      with h | ⟨hend, hclear⟩
    · exact .inl (haside.trans h)
    · exact .inr ⟨hend, haside.cleared hclear⟩

/-- No stage gives an association another address or moves it to another interface. -/
theorem receivePeer_frame :
    (receivePeer c e s rx p).peer.ptr = p.ptr
      ∧ (receivePeer c e s rx p).peer.dstadr = p.dstadr := by
  rcases timestampTests_ends rx p with ⟨q, hq, htested⟩ | ⟨q, hq, htested, -⟩
  · rw [receivePeer, hq]
    exact ⟨htested.ptr, htested.dstadr⟩
  · rw [receivePeer, hq, ← htested.ptr, ← htested.dstadr]
    rcases receiveVerdict_cases c e s rx (updateState rx q) with ⟨-, hkiss⟩ | ⟨-, hend | ⟨-, hend⟩⟩
    · simp only [hkiss]
      exact ⟨rfl, rfl⟩
    · exact ⟨hend.ptr, hend.dstadr⟩
    · exact ⟨hend.ptr, hend.dstadr⟩

end

end Stages

end NtpSuite
