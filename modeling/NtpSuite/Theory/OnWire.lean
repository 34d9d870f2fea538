import NtpSuite.Theory.Verdict
import NtpSuite.Core.Defaults
import NtpSuite.Lib.Run

/-!
# The On-Wire Protocol

What the timestamp tests of `receive` protect. The transmit timestamp of a
request comes back as the origin timestamp of the reply, so a packet that does
not return it is bogus, and the timestamp stored for the comparison is cleared
once it has been matched, so that a second reply is bogus too.

Cleared means zero, and the comparison does not treat zero as special. While
no request is outstanding a packet whose origin timestamp is zero passes. Nor
is the stored timestamp taken back when the request could not be encrypted and
was dropped. With these two set aside the protection holds over every run: a
packet that passes answers the last request, and no other packet has.

The tests only light flashers, which the packet procedure looks at later. The
response to a rate kiss comes before that, and does not look at them.

## Main definitions

* `passesTests`: None of the first three tests is lit.
* `OriginOk`: The condition on the packet and the association for that.
* `Wire`, `wireStep`: An association with the last request it sent and the
  number of packets that passed since.
* `kissBranch`: The packet gets to the response to a rate kiss.

## Theorems

* `timestampTests_clean`: The tests light nothing exactly if `OriginOk`.
* `reply_matches_request`: The protection, over every run.
* `kiss_from_server_iff`: When a rate kiss changes the poll variables only
  after the tests have passed.
-/

namespace NtpSuite

variable {α : Type} [Field α]

/-- The timestamps of the packet are in order. -/
def OriginOk (rx : Rx) (p : Peer α) : Prop :=
  (rx.pkt.xmt ≠ 0 ∧ p.flags.xbogus = false)
    ∧ (rx.hismode = .broadcast
      ∨ (p.flip = 0 ∧ rx.pkt.org = p.aorg)
      ∨ (p.flip ≠ 0 ∧ rx.pkt.org ≠ 0 ∧ rx.pkt.rec_ ≠ 0 ∧ p.dst ≠ 0 ∧ rx.pkt.org = p.dst))

/-- The packet leaves the tests with none of the first three lit. -/
def passesTests (rx : Rx) (p : Peer α) : Bool :=
  match timestampTests rx p with
  | .process q => !(q.flash.test1 || q.flash.test2 || q.flash.test3)
  | _ => false

/-- The flashers of the second and third tests are out. -/
def originClean (p : Peer α) : Prop := p.flash.test2 = false ∧ p.flash.test3 = false

variable {p q : Peer α} {rx : Rx}

/-- The tests of basic mode light nothing if the origin timestamp is the one stored. -/
theorem basicTest_clean (rx : Rx) (p : Peer α) :
    originClean (basicTest rx p) ↔ rx.pkt.org = p.aorg ∧ originClean p := by
  rw [basicTest]
  by_cases horg : rx.pkt.org = p.aorg
  · rw [if_neg (not_not.mpr horg)]
    exact ⟨fun h => ⟨horg, h⟩, fun h => h.2⟩
  · rw [if_pos horg]
    simp only
    split
    · exact ⟨fun h => absurd h.1 (by simp [reportEvent]), fun h => absurd h.1 horg⟩
    · exact ⟨fun h => absurd h.1 (by simp), fun h => absurd h.1 horg⟩

theorem basicTest_aorg (rx : Rx) (p : Peer α) :
    (basicTest rx p).aorg = if rx.pkt.org = p.aorg then 0 else p.aorg := by
  rw [basicTest]
  by_cases horg : rx.pkt.org = p.aorg
  · rw [if_neg (not_not.mpr horg), if_pos horg]
  · rw [if_pos horg]
    simp only
    split
    · rfl
    · rfl

theorem interleavedTest_clean (rx : Rx) (p : Peer α) :
    originClean (interleavedTest rx p)
      ↔ (rx.pkt.org ≠ 0 ∧ rx.pkt.rec_ ≠ 0 ∧ p.dst ≠ 0 ∧ rx.pkt.org = p.dst) ∧ originClean p := by
  rw [interleavedTest]
  by_cases hzero : rx.pkt.org = 0 ∨ rx.pkt.rec_ = 0 ∨ p.dst = 0
  · rw [if_pos hzero]
    refine ⟨fun h => absurd h.2 (by simp), ?_⟩
    rintro ⟨⟨horg, hrec, hdst, -⟩, -⟩
    -- A zero timestamp lights the third test, and is no cross-match either.
    rcases hzero with h | h | h
    · exact absurd h horg
    · exact absurd h hrec
    · exact absurd h hdst
  · rw [if_neg hzero]
    push Not at hzero
    obtain ⟨horg, hrec, hdst⟩ := hzero
    by_cases hcross : rx.pkt.org = p.dst
    · rw [if_neg (fun h => h.2 hcross)]
      exact ⟨fun h => ⟨⟨horg, hrec, hdst, hcross⟩, h⟩, fun h => h.2⟩
    · rw [if_pos ⟨hdst, hcross⟩]
      exact ⟨fun h => absurd h.1 (by simp), fun h => absurd h.1.2.2.2 hcross⟩

/-- For a packet that goes on past the tests, the flashers of the second and
    third are out exactly if the timestamps are in order. -/
theorem timestampTests_clean (h : timestampTests rx p = .process q) :
    originClean q ↔ OriginOk rx p := by
  rcases timestampTests_cases rx p with ⟨-, hd⟩ | ⟨-, -, -, hd⟩ | ⟨hxmt, hp⟩ | ⟨-, -, hxmt, hp⟩
  · exact absurd (hd.symm.trans h) (by simp)
  · exact absurd (hd.symm.trans h) (by simp)
  · obtain rfl := Verdict.process.inj (hp.symm.trans h)
    exact ⟨fun hc => absurd hc.2 (by simp), fun ho => absurd hxmt ho.1.1⟩
  · obtain rfl := Verdict.process.inj (hp.symm.trans h)
    -- The flashers of the last packet are out, unless it was bogus.
    have hcount : originClean (countPacket p) ↔ p.flags.xbogus = false :=
      ⟨fun hc => hc.2, fun hx => ⟨rfl, hx⟩⟩
    by_cases hbcst : rx.hismode = .broadcast
    · rw [if_pos hbcst, hcount]
      exact ⟨fun hx => ⟨⟨hxmt, hx⟩, .inl hbcst⟩, fun ho => ho.1.2⟩
    · rw [if_neg hbcst]
      by_cases hflip : p.flip = 0
      · rw [if_pos hflip, basicTest_clean, hcount]
        refine ⟨fun hc => ⟨⟨hxmt, hc.2⟩, .inr (.inl ⟨hflip, hc.1⟩)⟩, ?_⟩
        rintro ⟨⟨-, hx⟩, h | ⟨-, horg⟩ | ⟨h, -⟩⟩
        · exact absurd h hbcst
        · exact ⟨horg, hx⟩
        · exact absurd hflip h
      · rw [if_neg hflip, interleavedTest_clean, hcount]
        refine ⟨fun hc => ⟨⟨hxmt, hc.2⟩, .inr (.inr ⟨hflip, hc.1⟩)⟩, ?_⟩
        rintro ⟨⟨-, hx⟩, h | ⟨h, -⟩ | ⟨-, horg⟩⟩
        · exact absurd h hbcst
        · exact absurd h hflip
        · exact ⟨horg, hx⟩

theorem passesTests_spec (h : passesTests rx p = true) : OriginOk rx p := by
  rw [passesTests] at h
  rcases htests : timestampTests rx p with q | q | q
  · rw [htests] at h
    exact absurd h (by simp)
  · rw [htests] at h
    exact absurd h (by simp)
  · simp only [htests, Bool.not_eq_true', Bool.or_eq_false_iff] at h
    exact (timestampTests_clean htests).mp ⟨h.1.2, h.2⟩

section Loopback

variable [LinearOrder α]

/-- An association with the transmit timestamp of the last request it sent,
    and the number of packets that have passed the tests since. -/
structure Wire (α : Type) [Zero α] where
  peer : Peer α
  request : Option LFp := none
  replies : Nat := 0

/-- What happens to the association: a call of `peer_xmit`, a packet matched to
    it, or a call of `peer_clear`. -/
inductive WireAct (α : Type) [Zero α] where
  | xmit (e : Env α)
  | packet (e : Env α) (s : Sys α) (rx : Rx)
  | clear (e : Env α) (now rnd : Nat) (initializing : Bool) (peer_associations : Int)
      (ident : BitVec 32)

/-- The association after a packet, up to the clock filter. -/
def afterPacket (c : Cfg α) (e : Env α) (s : Sys α) (rx : Rx) (p : Peer α) : Peer α :=
  match receivePeer c e s rx p with
  | .process q => (processPacket c e s.current_time rx.pkt q).1
  | v => v.peer

def wireStep (c : Cfg α) (w : Wire α) : WireAct α → Wire α
  | .xmit e =>
    match peerXmit c e w.peer with
    | (q, none) => { w with peer := q }
    | (q, some xmt) => { peer := q, request := some xmt, replies := 0 }
  | .packet e s rx =>
    { w with
      peer := afterPacket c e s rx w.peer
      replies := if passesTests rx w.peer then w.replies + 1 else w.replies }
  | .clear e now rnd initializing peer_associations ident =>
    { w with peer := peerClear c e now rnd initializing peer_associations ident w.peer }

/-- The association is in basic mode and the packet is not a broadcast. -/
def InBasicMode (w : Wire α) : WireAct α → Prop
  | .packet _ _ rx => w.peer.flip = 0 ∧ rx.hismode ≠ .broadcast ∧ rx.pkt.mode ≠ .broadcast
  | _ => w.peer.flip = 0

/-- The step does not take one of the two ways around the protection: a packet with a zero origin
    timestamp while no request is outstanding, and a request that is dropped for want of a key. -/
def WireSound (c : Cfg α) (w : Wire α) : WireAct α → Prop
  | .xmit e => w.peer.dstadr = none
    ∨ (needsMac c w.peer && e.authencrypt (nextKey c e w.peer).keyid == 0) = false
  | .packet _ _ rx => w.peer.aorg = 0 → rx.pkt.org ≠ 0
  | .clear .. => True

variable (c : Cfg α) (e : Env α)

omit [LinearOrder α] in
/-- In basic mode a call of `peer_xmit` that does not drop its packet stores
    the timestamp it sends. -/
theorem peerXmit_basic (p : Peer α) (hflip : p.flip = 0) (hsound : p.dstadr = none
      ∨ (needsMac c p && e.authencrypt (nextKey c e p).keyid == 0) = false) :
    peerXmit c e p = (p, none)
      ∨ ∃ q xmt, peerXmit c e p = (q, some xmt) ∧ q.aorg = xmt := by
  rw [peerXmit]
  by_cases hdst : p.dstadr = none
  · exact .inl (if_pos hdst)
  · have hsend := hsound.resolve_left hdst
    rw [if_neg hdst, hsend, if_neg (by decide)]
    refine .inr ⟨_, _, rfl, ?_⟩
    -- The key changes nothing, so the stored timestamp is the one sent.
    have hkey : (nextKey c e p).flip = 0 := by
      rw [nextKey]
      split
      · exact hflip
      · exact hflip
    have hstamp : (stampOrg e (nextKey c e p)).flip = 0
        ∧ (stampOrg e (nextKey c e p)).aorg = e.xmt_tx := by
      rw [stampOrg, if_pos hkey]
      exact ⟨hkey, rfl⟩
    have hsent : (afterSend e (stampOrg e (nextKey c e p))).aorg = e.xmt_tx := by
      simp only [afterSend]
      rw [if_pos hstamp.1]
      exact hstamp.2
    rw [hsent, xpktXmt, if_pos hflip]

/-- The packet procedure leaves the stored timestamp alone, unless the packet is a broadcast. -/
theorem processPacket_aorg (now : Nat) (pkt : Pkt) (p : Peer α) (hmode : pkt.mode ≠ .broadcast) :
    (processPacket c e now pkt p).1.aorg = p.aorg := by
  -- The header part and the reachability touch other variables.
  have hheader : (packetHeader c e now pkt p).aorg = p.aorg
      ∧ (packetHeader c e now pkt p).pmode = pkt.mode := by
    have harm : ∀ q : Peer α, (armBurst now q).aorg = q.aorg
        ∧ (armBurst now q).pmode = q.pmode := by
      intro q
      rw [armBurst]
      split
      · exact ⟨rfl, rfl⟩
      · exact ⟨rfl, rfl⟩
    exact harm (captureHeader pkt p)
  have hreach : ∀ q : Peer α, (markReachable now q).aorg = q.aorg
      ∧ (markReachable now q).pmode = q.pmode := by
    intro q
    simp only [markReachable]
    split
    · exact ⟨rfl, rfl⟩
    · exact ⟨rfl, rfl⟩
  -- Of the three schemes only that for broadcasts stores timestamps.
  have hsample : ∀ q : Peer α, q.pmode ≠ .broadcast → (packetSample pkt q).1.aorg = q.aorg := by
    intro q hq
    simp only [packetSample, if_neg hq]
    split_ifs <;> rfl
  have hend := hsample (markReachable now (packetHeader c e now pkt p))
    (by rw [(hreach _).2, hheader.2]; exact hmode)
  rw [(hreach _).1, hheader.1] at hend
  simp only [processPacket]
  split
  · exact hheader.1
  · split
    · rename_i q hq
      rw [hq] at hend
      exact hend
    · rename_i q _ _ hq
      rw [hq] at hend
      exact hend

/-- The stages after the tests keep the stored timestamp or clear it. -/
theorem afterTests_aorg (s : Sys α) (rx : Rx) (h : timestampTests rx p = .process q)
    (hmode : rx.pkt.mode ≠ .broadcast) :
    (afterPacket c e s rx p).aorg = q.aorg ∨ (afterPacket c e s rx p).aorg = 0 := by
  have hrecv : receivePeer c e s rx p = receiveVerdict c e s rx (updateState rx q) := by
    rw [receivePeer, h]
  rw [afterPacket, hrecv]
  rcases receiveVerdict_cases c e s rx (updateState rx q) with ⟨-, hkiss⟩ | ⟨-, hend⟩
  · rw [hkiss]
    exact .inl rfl
  · generalize receiveVerdict c e s rx (updateState rx q) = v at hend
    -- Either the stage left the variables alone, or it cleared them.
    rcases hend with haside | ⟨hno, hclear⟩
    · have haorg : v.peer.aorg = (updateState rx q).aorg := congrArg OnWire.aorg haside.onWire
      cases v with
      | done r | gone r => exact .inl haorg
      | process r =>
        exact .inl ((processPacket_aorg c e s.current_time rx.pkt r hmode).trans haorg)
    · cases v with
      | done r | gone r => exact .inr hclear.aorg
      | process r => exact absurd rfl (hno r)

/-- A packet that passes the tests uses the stored timestamp up; another one
    leaves it, or the association is cleared. -/
theorem afterPacket_aorg (s : Sys α) (rx : Rx) (p : Peer α) (hflip : p.flip = 0)
    (hbcst : rx.hismode ≠ .broadcast) (hmode : rx.pkt.mode ≠ .broadcast) :
    (afterPacket c e s rx p).aorg = 0
      ∨ ((afterPacket c e s rx p).aorg = p.aorg ∧ passesTests rx p = false) := by
  rcases timestampTests_cases rx p with ⟨-, hd⟩ | ⟨-, hxb, -⟩ | ⟨hxmt, hp⟩ | ⟨-, -, hxmt, hp⟩
  · -- A duplicate changes no timestamp.
    right
    constructor
    · rw [afterPacket, receivePeer, hd]
      rfl
    · rw [passesTests, hd]
  · exact absurd hxb.1 hbcst
  · -- No transmit timestamp: the third test is lit.
    rcases afterTests_aorg c e s rx hp hmode with h | h
    · refine .inr ⟨h, ?_⟩
      rw [passesTests, hp]
      simp
    · exact .inl h
  · rw [if_neg hbcst, if_pos hflip] at hp
    -- Basic mode: a match uses the timestamp up.
    have haorg := basicTest_aorg rx (countPacket p)
    rcases afterTests_aorg c e s rx hp hmode with h | h
    · by_cases horg : rx.pkt.org = p.aorg
      · exact .inl ((h.trans haorg).trans (if_pos horg))
      · right
        constructor
        · exact (h.trans haorg).trans (if_neg horg)
        · by_contra hpass
          rcases (passesTests_spec (Bool.not_eq_false _ ▸ hpass)).2 with hb | ⟨-, ho⟩ | ⟨hf, -⟩
          · exact hbcst hb
          · exact horg ho
          · exact hf hflip
    · exact .inl h

/-- A stored timestamp is that of the last request, and no packet has passed
    since the request; at most one has if the timestamp is gone. -/
def WireInv (w : Wire α) : Prop :=
  w.replies ≤ 1 ∧ (w.peer.aorg ≠ 0 → w.request = some w.peer.aorg ∧ w.replies = 0)

omit [LinearOrder α] in
/-- A packet that passes answers the outstanding request. -/
theorem WireInv.passes {w : Wire α} (hw : WireInv w) (hflip : w.peer.flip = 0)
    (hbcst : rx.hismode ≠ .broadcast) (hsound : w.peer.aorg = 0 → rx.pkt.org ≠ 0)
    (hpass : passesTests rx w.peer = true) : w.request = some rx.pkt.org ∧ w.replies = 0 := by
  rcases (passesTests_spec hpass).2 with hb | ⟨-, horg⟩ | ⟨hf, -⟩
  · exact absurd hb hbcst
  · have hne : w.peer.aorg ≠ 0 := fun h => hsound h (horg.trans h)
    rw [horg]
    exact hw.2 hne
  · exact absurd hflip hf

theorem wireStep_inv (w : Wire α) (a : WireAct α) (hw : WireInv w)
    (ha : InBasicMode w a ∧ WireSound c w a) : WireInv (wireStep c w a) := by
  cases a with
  | xmit e =>
    rw [wireStep]
    rcases peerXmit_basic c e w.peer ha.1 ha.2 with hnone | ⟨q, xmt, hsend, haorg⟩
    · rw [hnone]
      exact hw
    · rw [hsend]
      refine ⟨Nat.zero_le _, fun _ => ⟨?_, rfl⟩⟩
      rw [haorg]
  | packet e s rx =>
    obtain ⟨⟨hflip, hbcst, hmode⟩, hsound⟩ := ha
    rw [wireStep]
    -- If this packet passes, none has before.
    have hreplies : passesTests rx w.peer = true → w.replies = 0 := fun hpass =>
      (hw.passes hflip hbcst hsound hpass).2
    have hle : (if passesTests rx w.peer then w.replies + 1 else w.replies) ≤ 1 := by
      split
      · rename_i hpass
        rw [hreplies hpass]
      · exact hw.1
    refine ⟨hle, ?_⟩
    -- The timestamp is gone, or the packet did not pass.
    rcases afterPacket_aorg c e s rx w.peer hflip hbcst hmode with hzero | ⟨hsame, hfail⟩
    · intro hne
      exact absurd hzero hne
    · intro hne
      have hold := hw.2 (hsame ▸ hne)
      refine ⟨?_, ?_⟩
      · rw [hsame]
        exact hold.1
      · rw [hfail]
        exact hold.2
  | clear e now rnd initializing peer_associations ident =>
    exact ⟨hw.1, fun hne => absurd rfl hne⟩

/-- The protection of the on-wire protocol. In every state that a run in basic mode reaches without
    taking one of the two ways around, at most one packet has passed the tests since the last
    request, and the next one that passes returns the transmit timestamp of that request and is the
    first to do so. -/
theorem reply_matches_request (c : Cfg α) (p : Peer α) (haorg : p.aorg = 0)
    (acts : List (WireAct α))
    (hrun : Run.Meets (wireStep c) (fun w a => InBasicMode w a ∧ WireSound c w a)
      { peer := p } acts) :
    (Run.exec (wireStep c) { peer := p } acts).replies ≤ 1
      ∧ ∀ e s rx,
        InBasicMode (Run.exec (wireStep c) { peer := p } acts) (.packet e s rx) →
        WireSound c (Run.exec (wireStep c) { peer := p } acts) (.packet e s rx) →
        passesTests rx (Run.exec (wireStep c) { peer := p } acts).peer = true →
        (Run.exec (wireStep c) { peer := p } acts).request = some rx.pkt.org
          ∧ (Run.exec (wireStep c) { peer := p } acts).replies = 0 := by
  -- At the start nothing is outstanding.
  have hinv : WireInv (Run.exec (wireStep c) { peer := p } acts) := by
    refine Run.exec_invariant (wireStep_inv c) _ acts ⟨Nat.zero_le _, ?_⟩ hrun
    intro hne
    exact absurd haorg hne
  refine ⟨hinv.1, ?_⟩
  intro e s rx hbasic hsound hpass
  exact hinv.passes hbasic.1 hbasic.2.1 hsound hpass

end Loopback

/-- A client association with nothing outstanding. -/
def idleClient : Peer ℚ :=
  { hmode := .client, dstadr := some idleEndpt, minpoll := 6, maxpoll := 10, hpoll := 6 }

/-- The time of day at the first request. -/
def requestEnv : Env ℚ := { idleEnv with xmt_tx := 0x100 }

/-- The reply of the server. -/
def genuineReply : Rx where
  hismode := .server
  hisversion := 4
  hisleap := .nowarning
  hisstratum := 2
  pkt := { li_vn_mode := 0x24, stratum := 2, org := 0x100, rec_ := 0x110, xmt := 0x120 }
  recv_time := 0x130
  restrict_mask := {}
  has_mac := false
  is_authentic := .none
  skeyid := 0
  opcode := 0
  groupname := none
  tkeyid := 0
  pkeyid := 0

/-- The reply to the first request of a fresh association. -/
theorem reply_matches_request_first :
    (Run.exec (wireStep defaultCfg) { peer := idleClient } [.xmit requestEnv]).request
      = some genuineReply.pkt.org := by
  have hrun : Run.Meets (wireStep defaultCfg)
      (fun w a => InBasicMode w a ∧ WireSound defaultCfg w a) { peer := idleClient }
      [.xmit requestEnv] := ⟨⟨rfl, .inr (by decide)⟩, trivial⟩
  exact ((reply_matches_request defaultCfg idleClient rfl _ hrun).2 idleEnv {} genuineReply
    ⟨by decide, by decide, by decide⟩ (fun _ => by decide) (by decide)).1

/-- What anyone can send who knows no timestamp of the association. -/
def zeroOrigin : Rx :=
  { genuineReply with
    pkt := { li_vn_mode := 0x24, stratum := 1, rec_ := 0x900, xmt := 0x910 }
    recv_time := 0x140 }

/-- After a request and its reply, a second packet passes, and its origin
    timestamp is not that of the request. -/
theorem zeroOrigin_passes :
    Run.Meets (wireStep defaultCfg) InBasicMode { peer := idleClient }
        [.xmit requestEnv, .packet idleEnv {} genuineReply, .packet idleEnv {} zeroOrigin]
      ∧ ¬ (passesTests zeroOrigin (Run.exec (wireStep defaultCfg) { peer := idleClient }
            [.xmit requestEnv, .packet idleEnv {} genuineReply]).peer = true →
          (Run.exec (wireStep defaultCfg) { peer := idleClient }
            [.xmit requestEnv, .packet idleEnv {} genuineReply]).request
              = some zeroOrigin.pkt.org)
      ∧ (Run.exec (wireStep defaultCfg) { peer := idleClient }
          [.xmit requestEnv, .packet idleEnv {} genuineReply,
            .packet idleEnv {} zeroOrigin]).replies = 2 := by
  refine ⟨⟨rfl, ⟨by decide +kernel, by decide, by decide⟩,
    ⟨by decide +kernel, by decide, by decide⟩, trivial⟩, ?_, by decide +kernel⟩
  intro hmatch
  exact absurd (hmatch (by decide +kernel)) (by decide +kernel)

section Kiss

/-- The variables a rate kiss sets. -/
def kissVars (p : Peer α) : Nat × Int × Int × Int × Nat :=
  (p.minpoll, p.burst, p.retry, p.throttle, p.hpoll)

/-- A rate kiss would set the variables to what they are. -/
def KissedBefore (rx : Rx) (p : Peer α) : Prop :=
  rx.pkt.ppoll.toNat ≤ p.minpoll ∧ p.burst = 0 ∧ p.retry = 0
    ∧ p.throttle = ((NTP_SHIFT : Int) + 1) * shl1 p.minpoll ∧ p.hpoll = p.minpoll

theorem kissRate_vars (c : Cfg α) (e : Env α) (now : Nat) (rx : Rx) (p : Peer α) :
    kissVars (kissRate c e now rx (setPpoll rx p))
      = (max p.minpoll rx.pkt.ppoll.toNat, 0, 0,
        ((NTP_SHIFT : Int) + 1) * shl1 (max p.minpoll rx.pkt.ppoll.toNat),
        max p.minpoll rx.pkt.ppoll.toNat) := by
  -- Since `ppoll` was just raised to `minpoll`, the kiss takes the maximum.
  have hmin : kissMinpoll rx (setPpoll rx p) = max p.minpoll rx.pkt.ppoll.toNat := by
    rw [kissMinpoll]
    by_cases hgt : rx.pkt.ppoll.toNat > (setPpoll rx p).minpoll
    · rw [if_pos hgt]
      rfl
    · rw [if_neg hgt]
      exact (Nat.max_eq_left (not_lt.mp hgt)).symm
  have hvars : kissVars (kissRate c e now rx (setPpoll rx p))
      = (kissMinpoll rx (setPpoll rx p), 0, 0,
        ((NTP_SHIFT : Int) + 1) * shl1 (kissMinpoll rx (setPpoll rx p)),
        max (min p.maxpoll rx.pkt.ppoll.toNat) (kissMinpoll rx (setPpoll rx p))) := rfl
  -- The poll exponent is clamped to a range whose ends have met.
  have hmax : max (min p.maxpoll rx.pkt.ppoll.toNat) (max p.minpoll rx.pkt.ppoll.toNat)
      = max p.minpoll rx.pkt.ppoll.toNat := by
    omega
  rw [hvars, hmin, hmax]

/-- The variables are as the kiss would leave them exactly if it was answered before. -/
theorem kissRate_vars_eq_iff (c : Cfg α) (e : Env α) (now : Nat) (rx : Rx)
    (hpolls : q.toPollVars = p.toPollVars) :
    kissVars (kissRate c e now rx (setPpoll rx q)) = kissVars p ↔ KissedBefore rx p := by
  have hmin : q.minpoll = p.minpoll := congrArg PollVars.minpoll hpolls
  rw [kissRate_vars, hmin, kissVars]
  simp only [Prod.mk.injEq]
  constructor
  · rintro ⟨hm, hb, hr, ht, hh⟩
    rw [hm] at ht hh
    exact ⟨by omega, hb.symm, hr.symm, ht.symm, hh.symm⟩
  · rintro ⟨hle, hb, hr, ht, hh⟩
    rw [Nat.max_eq_left hle]
    exact ⟨rfl, hb.symm, hr.symm, ht.symm, hh.symm⟩

/-- A packet answered as a rate kiss is not a broadcast, so only a duplicate
    is stopped by the tests. -/
theorem kissBranch_process (hkiss : kissBranch rx = true) :
    Duplicate rx p ∨ ∃ q, timestampTests rx p = .process q := by
  have hserver := kissBranch_server hkiss
  rcases timestampTests_cases rx p with ⟨hdup, -⟩ | ⟨-, hxb, -⟩ | ⟨-, hp⟩ | ⟨-, -, -, hp⟩
  · exact .inl hdup
  · exact absurd (hserver.symm.trans hxb.1) (by decide)
  · exact .inr ⟨_, hp⟩
  · exact .inr ⟨_, hp⟩

variable [LinearOrder α]

/-- The response to a rate kiss changes the poll variables only if the second and third tests were
    passed, exactly when the packet does not get to it, is a duplicate, has its timestamps in order,
    or finds the variables as it would set them. -/
theorem kiss_from_server_iff (c : Cfg α) (e : Env α) (s : Sys α) (rx : Rx) (p : Peer α) :
    (∀ q r, wrongKeyKind c rx p = false → kissBranch rx = true →
        timestampTests rx p = .process q → receivePeer c e s rx p = .done r →
        kissVars r ≠ kissVars p → originClean q)
      ↔ wrongKeyKind c rx p = true ∨ kissBranch rx = false ∨ Duplicate rx p ∨ OriginOk rx p
        ∨ KissedBefore rx p := by
  -- A packet that gets to the kiss is answered, whatever the tests said.
  have hrecv : ∀ q, kissBranch rx = true → timestampTests rx p = .process q →
      receivePeer c e s rx p
        = .done (kissRate c e s.current_time rx (setPpoll rx (updateState rx q))) := by
    intro q hkiss hq
    rw [receivePeer, hq]
    rcases receiveVerdict_cases c e s rx (updateState rx q) with ⟨-, hdone⟩ | ⟨hno, -⟩
    · exact hdone
    · exact absurd (hno.symm.trans hkiss) (by decide)
  -- The answer is visible unless it was given before.
  have hsame : ∀ q, timestampTests rx p = .process q →
      (kissVars (kissRate c e s.current_time rx (setPpoll rx (updateState rx q))) = kissVars p
        ↔ KissedBefore rx p) := by
    intro q hq
    have hpolls := (timestampTests_process hq).1.polls
    exact kissRate_vars_eq_iff c e s.current_time rx hpolls
  constructor
  · intro hguard
    by_contra hcond
    push Not at hcond
    obtain ⟨hkind, hkiss, hdup, horigin, hbefore⟩ := hcond
    have hkind := Bool.eq_false_iff.mpr hkind
    have hkiss : kissBranch rx = true := by simpa using hkiss
    obtain ⟨q, hq⟩ := (kissBranch_process hkiss).resolve_left hdup
    exact horigin ((timestampTests_clean hq).mp (hguard q _ hkind hkiss hq (hrecv q hkiss hq)
      (fun heq => hbefore ((hsame q hq).mp heq))))
  · intro hcond q r hkind hkiss hq hr hchange
    rw [hrecv q hkiss hq] at hr
    obtain rfl := Verdict.done.inj hr
    rcases hcond with h | h | h | h | h
    · exact absurd (hkind.symm.trans h) (by decide)
    · exact absurd (hkiss.symm.trans h) (by decide)
    · exact absurd h (timestampTests_process hq).2
    · exact (timestampTests_clean hq).mpr h
    · exact absurd ((hsame q hq).mpr h) hchange

end Kiss

/-- A rate kiss from someone who has seen none of our requests. -/
def blindKiss : Rx :=
  { genuineReply with
    hisleap := .notinsync
    hisstratum := 16
    pkt := { li_vn_mode := 0xe4, ppoll := 17, refid := KISS_RATE, org := 0x999, xmt := 0x910 } }

/-- The client with a request outstanding. -/
def askingClient : Peer ℚ := { idleClient with aorg := 0x100 }

/-- The kiss fails the second test and still stops the polling. -/
theorem blindKiss_slows_polling :
    ¬ (∀ q r, wrongKeyKind defaultCfg blindKiss askingClient = false → kissBranch blindKiss = true →
        timestampTests blindKiss askingClient = .process q →
        receivePeer defaultCfg idleEnv {} blindKiss askingClient = .done r →
        kissVars r ≠ kissVars askingClient → originClean q)
      ∧ kissVars (receivePeer defaultCfg idleEnv {} blindKiss askingClient).peer
        = (17, 0, 0, 9 * 2 ^ 17, 17) := by
  refine ⟨?_, by decide⟩
  intro hguard
  have hclean := hguard _ _ (by decide) (by decide) rfl rfl (by decide)
  exact absurd hclean.1 (by decide)

end NtpSuite
