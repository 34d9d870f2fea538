import NtpSuite.Theory.Front
import NtpSuite.Theory.Table
import NtpSuite.Theory.Verdict
import NtpSuite.Core.Defaults

/-!
# Packets That Are Dropped

What is left of a packet that `receive` or `process_packet` drops. The source
notes the failures of a packet as flashers and acts on them late. By the time
it does, the packet has been written to the association.

A packet that fails authentication has gone through the timestamp tests and
the update of the state variables. Its transmit timestamp is now the one that
duplicates are compared with, its arrival is the last one, and after that the
association may be demobilized or cleared. Only a packet that is stopped
before the tests, or a replay of the last one, leaves no trace.

A packet that fails one of the packet tests has had its header captured in
the variables the selection reads, and has run the burst and the poll update.

## Main definitions

* `Undisturbed`: Only counters and flashers have changed.
* `Tolerated`: The condition for that, for a packet that is not authentic.
* `selectionVars`: What the selection and the schedule see.
* `packetDiscarded`: The packet fails one of the packet tests.

## Theorems

* `unauthentic_undisturbed_iff`: When a packet that fails authentication
  leaves its association alone.
* `discarded_same_iff`: When a packet that fails a packet test does.
-/

namespace NtpSuite

open Option

section Unauthentic

variable {α : Type} [Field α]

/-- Nothing but counters and flashers has changed. -/
def Undisturbed (p r : Peer α) : Prop :=
  { r with toCounters := p.toCounters, flash := p.flash } = p

/-- The packet changes nothing before it is found not to be authentic: it repeats the last one, or
    it has no transmit timestamp and finds the state variables as it would set them in an
    association that is not dropped or cleared. -/
def Harmless (c : Cfg α) (rx : Rx) (p : Peer α) : Prop :=
  p.flags.xbogus = false
    ∧ (Duplicate rx p
      ∨ (rx.pkt.xmt = 0 ∧ p.xmt = 0 ∧ p.flags.preempt = false
        ∧ (c.autokey && p.crypto != 0) = false
        ∧ (p.flip ≠ 0 ∨ (p.dst = rx.recv_time ∧ (rx.hismode = .broadcast ∨ p.rec_ = 0)))))

/-- The packet is stopped before the tests, or is harmless. -/
def Tolerated (c : Cfg α) (rx : Rx) (p : Peer α) : Prop :=
  (c.autokey && groupTest c rx.groupname p.ident) = true ∨ wrongKeyKind c rx p = true
    ∨ Harmless c rx p

variable {p r : Peer α} (c : Cfg α) (e : Env α) (s : Sys α) {rx : Rx}

theorem Undisturbed.flags (h : Undisturbed p r) : r.flags = p.flags := by
  have heq := congrArg Peer.flags h
  exact heq

theorem Undisturbed.onWire (h : Undisturbed p r) : r.toOnWire = p.toOnWire := by
  have heq := congrArg Peer.toOnWire h
  exact heq

theorem Undisturbed.crypto (h : Undisturbed p r) : r.crypto = p.crypto := by
  have heq := congrArg (fun q => q.crypto) h
  exact heq

theorem Undisturbed.dstadr (h : Undisturbed p r) : r.dstadr = p.dstadr := by
  have heq := congrArg Peer.dstadr h
  exact heq

theorem Undisturbed.of_parts (honWire : r.toOnWire = p.toOnWire) (hflags : r.flags = p.flags)
    (hrest : { r with
      toCounters := p.toCounters
      flash := p.flash
      toOnWire := p.toOnWire
      flags := p.flags } = p) :
    Undisturbed p r := by
  rw [Undisturbed, honWire, hflags]
  exact hrest

/-- The counting of a packet disturbs only a flag that is set. -/
theorem countPacket_flags_eq_iff (p : Peer α) :
    (countPacket p).flags = p.flags ↔ p.flags.xbogus = false := by
  constructor
  · intro h
    exact (congrArg PeerFlags.xbogus h).symm
  · intro h
    have heta : p.flags = { p.flags with xbogus := p.flags.xbogus } := rfl
    rw [heta, h]
    rfl

/-- A packet without a transmit timestamp leaves the state variables alone if
    they are as it would set them. -/
theorem updateState_onWire_eq_iff (rx : Rx) (p : Peer α) (hxmt : rx.pkt.xmt = 0) :
    (updateState rx p).toOnWire = p.toOnWire
      ↔ p.xmt = 0
        ∧ (p.flip ≠ 0 ∨ (p.dst = rx.recv_time ∧ (rx.hismode = .broadcast ∨ p.rec_ = 0))) := by
  -- Three variables are written, the rest of the state is not.
  have hparts : (updateState rx p).toOnWire = p.toOnWire
      ↔ (if p.flip = 0 ∧ rx.hismode ≠ .broadcast then rx.pkt.xmt else p.rec_) = p.rec_
        ∧ rx.pkt.xmt = p.xmt ∧ (if p.flip = 0 then rx.recv_time else p.dst) = p.dst := by
    constructor
    · intro h
      exact ⟨congrArg OnWire.rec_ h, congrArg OnWire.xmt h, congrArg OnWire.dst h⟩
    · rintro ⟨hrec, hx, hdst⟩
      rw [updateState, hrec, hx, hdst]
  rw [hparts, hxmt]
  by_cases hflip : p.flip = 0
  · by_cases hbcst : rx.hismode = .broadcast
    · simp only [hflip, hbcst, ne_eq, not_true_eq_false, and_false, if_false, if_true, true_and,
        false_or, true_or, and_true]
      exact ⟨fun h => ⟨h.1.symm, h.2.symm⟩, fun h => ⟨h.1.symm, h.2.symm⟩⟩
    · simp only [hflip, hbcst, ne_eq, not_true_eq_false, not_false_eq_true, and_self, if_true,
        false_or]
      exact ⟨fun h => ⟨h.2.1.symm, h.2.2.symm, h.1.symm⟩,
        fun h => ⟨h.2.2.symm, h.1.symm, h.2.1.symm⟩⟩
  · simp only [hflip, ne_eq, false_and, if_false, true_and, not_false_eq_true, true_or, and_true]
    exact ⟨fun h => h.symm, fun h => h.symm⟩

variable [LinearOrder α]

/-- A packet with a failed digest or a crypto-NAK gets no further than the
    authentication verdict. -/
theorem receiveVerdict_unauthentic (hy : rx.is_authentic = .error ∨ rx.is_authentic = .crypto)
    (p : Peer α) : receiveVerdict c e s rx p = badAuth c e s p := by
  rw [receiveVerdict]
  rcases hy with hy | hy
  · have hbad : badDigest rx = true := by
      rw [badDigest, hy]
      cases (rx.has_mac || rx.restrict_mask.donttrust) <;> rfl
    rw [if_neg (by rw [hy]; decide), if_pos hbad]
  · rw [if_pos hy]

/-- What the verdict on such a packet leaves of the association. -/
def leftBy : Verdict α → Option (Peer α)
  | .gone _ => none
  | v => some v.peer

/-- The verdict demobilizes the association, clears it and with it an Autokey
    exchange that has begun, or leaves it. -/
theorem badAuth_cases (p : Peer α) :
    (p.flags.preempt = true ∧ leftBy (badAuth c e s p) = none)
      ∨ ((c.autokey && p.crypto != 0) = true
        ∧ ∃ r, leftBy (badAuth c e s p) = some r ∧ r.crypto ≠ p.crypto)
      ∨ (p.flags.preempt = false ∧ (c.autokey && p.crypto != 0) = false
        ∧ leftBy (badAuth c e s p) = some (authFailed p)) := by
  rw [badAuth]
  by_cases hpre : p.flags.preempt = true
  · rw [if_pos hpre]
    exact .inl ⟨hpre, rfl⟩
  rw [if_neg hpre]
  by_cases hcrypto : (c.autokey && p.crypto != 0) = true
  · rw [if_pos hcrypto]
    refine .inr (.inl ⟨hcrypto, _, rfl, ?_⟩)
    obtain ⟨hauto, hne⟩ := Bool.and_eq_true_iff.mp hcrypto
    have hzero : ∀ q : Peer α, (clearToZero c q).crypto = 0 := by
      simp [clearToZero, hauto]
    intro heq
    exact bne_iff_ne.mp hne (heq.symm.trans (hzero (authFailed p)))
  · rw [if_neg hcrypto]
    exact .inr (.inr ⟨Bool.eq_false_iff.mpr hpre, Bool.eq_false_iff.mpr hcrypto, rfl⟩)

/-- A packet without a transmit timestamp that is found not to be authentic
    leaves the association alone exactly if it is harmless. -/
theorem badAuth_unstamped_iff (rx : Rx) (p : Peer α) (hxmt : rx.pkt.xmt = 0) :
    (∃ r, leftBy (badAuth c e s (updateState rx { countPacket p with
        flash := { (countPacket p).flash with test3 := true } })) = some r ∧ Undisturbed p r)
      ↔ Harmless c rx p := by
  have hnodup : ¬ Duplicate rx p := fun h => h.1 hxmt
  rcases badAuth_cases c e s (updateState rx { countPacket p with
      flash := { (countPacket p).flash with test3 := true } })
    with ⟨hpre, hgone⟩ | ⟨hcrypto, r, hr, hclear⟩ | ⟨hpre, hcrypto, hdone⟩
  · -- The association is demobilized.
    rw [hgone]
    refine ⟨fun ⟨r, hr, _⟩ => absurd hr (by simp), ?_⟩
    rintro ⟨-, h | ⟨-, -, h, -⟩⟩
    · exact absurd h hnodup
    · exact absurd (hpre.symm.trans h) (by decide)
  · -- It is cleared, and the Autokey exchange is lost.
    rw [hr]
    constructor
    · rintro ⟨r', hr', hsame⟩
      obtain rfl := some.inj hr'
      exact absurd hsame.crypto hclear
    · rintro ⟨-, h | ⟨-, -, -, h, -⟩⟩
      · exact absurd h hnodup
      · exact absurd (hcrypto.symm.trans h) (by decide)
  · -- It stays, with the state variables of the packet.
    rw [hdone]
    have hwire := updateState_onWire_eq_iff rx p hxmt
    constructor
    · rintro ⟨r, hr, hsame⟩
      obtain rfl := some.inj hr
      obtain ⟨hx, hstate⟩ := hwire.mp hsame.onWire
      refine ⟨(countPacket_flags_eq_iff p).mp hsame.flags, .inr ?_⟩
      exact ⟨hxmt, hx, hpre, hcrypto, hstate⟩
    · rintro ⟨hbogus, h | ⟨-, hx, -, -, hstate⟩⟩
      · exact absurd h hnodup
      · exact ⟨_, rfl, .of_parts (hwire.mpr ⟨hx, hstate⟩)
          ((countPacket_flags_eq_iff p).mpr hbogus) rfl⟩

/-- A packet with a new transmit timestamp never leaves the association alone:
    its timestamp has replaced the last one. -/
theorem badAuth_stamped {q : Peer α} (hxmt : rx.pkt.xmt ≠ 0) (hdup : ¬ Duplicate rx p)
    (hq : q.crypto = p.crypto) (hr : leftBy (badAuth c e s (updateState rx q)) = some r) :
    ¬ Undisturbed p r := by
  intro hsame
  rcases badAuth_cases c e s (updateState rx q)
    with ⟨-, hgone⟩ | ⟨-, r', hr', hclear⟩ | ⟨-, -, hdone⟩
  · exact absurd (hgone.symm.trans hr) (by simp)
  · obtain rfl := some.inj (hr'.symm.trans hr)
    exact absurd (hsame.crypto.trans hq.symm) hclear
  · obtain rfl := some.inj (hdone.symm.trans hr)
    have hx : rx.pkt.xmt = p.xmt := congrArg OnWire.xmt hsame.onWire
    exact absurd ⟨hxmt, hx.symm⟩ hdup

section

variable (hy : rx.is_authentic = .error ∨ rx.is_authentic = .crypto)

include hy

/-- The packet leaves the association alone, as far as the peer process is
    concerned, exactly if it is harmless. -/
theorem receivePeer_undisturbed_iff (p : Peer α) :
    (∃ r, leftBy (receivePeer c e s rx p) = some r ∧ Undisturbed p r) ↔ Harmless c rx p := by
  have hbad : ∀ q, timestampTests rx p = .process q →
      receivePeer c e s rx p = badAuth c e s (updateState rx q) := by
    intro q hq
    rw [receivePeer, hq]
    exact receiveVerdict_unauthentic c e s hy _
  rcases timestampTests_cases rx p
    with ⟨hdup, hd⟩ | ⟨hdup, hxb, hxmt, hd⟩ | ⟨hxmt, hp⟩ | ⟨hdup, hxb, hxmt, hp⟩
  · -- A replay: only the flag of a bogus packet can be lost.
    rw [receivePeer, hd]
    constructor
    · rintro ⟨r, hr, hsame⟩
      obtain rfl := some.inj hr
      exact ⟨(countPacket_flags_eq_iff p).mp hsame.flags, .inl hdup⟩
    · rintro ⟨hx, -⟩
      exact ⟨_, rfl, .of_parts rfl ((countPacket_flags_eq_iff p).mpr hx) rfl⟩
  · -- The start of interleaved broadcast mode is marked in the flags.
    rw [receivePeer, hd]
    constructor
    · rintro ⟨r, hr, hsame⟩
      obtain rfl := some.inj hr
      have hflag : true = p.flags.xb := congrArg PeerFlags.xb hsame.flags
      exact absurd (hflag.trans hxb.2.2) (by decide)
    · rintro ⟨-, h | ⟨h, -⟩⟩
      · exact absurd h hdup
      · exact absurd h hxmt
  · rw [hbad _ hp]
    exact badAuth_unstamped_iff c e s rx p hxmt
  · have hcrypto := congrArg Crypto.crypto (timestampTests_process hp).1.crypto
    rw [hbad _ hp]
    constructor
    · rintro ⟨r, hr, hsame⟩
      exact absurd hsame (badAuth_stamped c e s hxmt hdup hcrypto hr)
    · rintro ⟨-, h | ⟨h, -⟩⟩
      · exact absurd h hdup
      · exact absurd h hxmt

theorem receivePeer_not_process (p q : Peer α) : receivePeer c e s rx p ≠ .process q := by
  rw [receivePeer]
  rcases timestampTests rx p with r | r | r
  · simp
  · simp
  · simp only [receiveVerdict_unauthentic c e s hy, badAuth]
    split_ifs <;> simp

theorem receiveMatched_peer? (hp : s.peer? p.ptr = some p)
    (hkind : wrongKeyKind c rx p = false) :
    ∃ t, (receiveMatched c e s rx p).peer? p.ptr = leftBy (receivePeer c e t rx p) := by
  obtain ⟨t, ht⟩ : ∃ t, t = if nakReply rx p then s.log (.fastXmit .active 0) else s := ⟨_, rfl⟩
  have hlist : t.peer_list = s.peer_list := by
    rw [ht]
    split
    · rfl
    · rfl
  have hmem : ∃ q ∈ t.peer_list, q.ptr = p.ptr := ⟨p, hlist ▸ (mem_of_peer? hp).1, rfl⟩
  refine ⟨t, ?_⟩
  -- The verdict is either written back or ends in the free list.
  simp only [receiveMatched, hkind, ← ht]
  have hptr := (receivePeer_frame c e t rx p).1
  rcases hv : receivePeer c e t rx p with r | r | r
  · rw [hv] at hptr
    have hptr : r.ptr = p.ptr := hptr
    have hfound := peer?_setPeer (s := t) (q := r) (by rw [hptr]; exact hmem)
    rw [hptr] at hfound
    exact hfound
  · rw [hv] at hptr
    have hptr : r.ptr = p.ptr := hptr
    have hgone := peer?_unpeer (t.setPeer r) r.ptr
    rw [hptr] at hgone
    simp only [hptr]
    exact hgone
  · exact absurd hv (receivePeer_not_process c e t hy p r)

theorem receiveMatched_undisturbed_iff (hp : s.peer? p.ptr = some p) :
    (∃ r, (receiveMatched c e s rx p).peer? p.ptr = some r ∧ Undisturbed p r)
      ↔ wrongKeyKind c rx p = true ∨ Harmless c rx p := by
  by_cases hkind : wrongKeyKind c rx p = true
  · have hsame : (receiveMatched c e s rx p).peer? p.ptr = some p := by
      rw [receiveMatched, if_pos hkind]
      exact hp
    exact ⟨fun _ => .inl hkind, fun _ => ⟨p, hsame, rfl⟩⟩
  · obtain ⟨t, ht⟩ := receiveMatched_peer? c e s hy hp (Bool.eq_false_iff.mpr hkind)
    rw [ht, receivePeer_undisturbed_iff c e t hy p]
    exact ⟨.inr, fun h => h.resolve_left hkind⟩

theorem receiveMatched_dstadr (hp : s.peer? p.ptr = some p)
    (hr : (receiveMatched c e s rx p).peer? p.ptr = some r) : r.dstadr = p.dstadr := by
  by_cases hkind : wrongKeyKind c rx p = true
  · rw [receiveMatched, if_pos hkind] at hr
    obtain rfl := some.inj (hp.symm.trans hr)
    rfl
  · obtain ⟨t, ht⟩ := receiveMatched_peer? c e s hy hp (Bool.eq_false_iff.mpr hkind)
    rw [ht] at hr
    have hdst := (receivePeer_frame c e t rx p).2
    rcases hv : receivePeer c e t rx p with q | q | q
    · rw [hv] at hr hdst
      obtain rfl := some.inj hr
      exact hdst
    · rw [hv] at hr
      exact absurd hr (by simp [leftBy])
    · exact absurd hv (receivePeer_not_process c e t hy p q)

end

omit [LinearOrder α] in
theorem Rebound.eq {q : Peer α} (h : Rebound p q) (hdst : q.dstadr = p.dstadr) : q = p := by
  obtain ⟨d, rfl⟩ := h
  have hd : d = p.dstadr := hdst
  rw [hd]

omit [LinearOrder α] in
/-- The association a packet is matched to is found in the table the switch sees. -/
theorem receiveFront_found {c : Cfg α} {e : Env α} {s t : Sys α} {rb : RecvBuf} {retcode : AM}
    {q : Peer α} (h : receiveFront c e s rb = .ok (t, rx, retcode, some q)) :
    t.peer? q.ptr = some q := by
  rcases receiveFront_spec c e s rb with ⟨u, herr, -⟩ | ⟨u, rx', -, hok⟩
  · exact absurd (herr.symm.trans h) (by simp)
  obtain ⟨ht, -, -, hpeer⟩ : (findpeer u rb rx'.hismode).1 = t ∧ rx' = rx
      ∧ (findpeer u rb rx'.hismode).2.1 = retcode
      ∧ (findpeer u rb rx'.hismode).2.2 = some q := by
    have heq := Except.ok.inj (hok.symm.trans h)
    simpa only [Prod.mk.injEq] using heq
  rcases findpeer_spec u rb rx'.hismode with ⟨-, hnone⟩ | ⟨p, hp, hsome, hset⟩
  · exact absurd (hnone.symm.trans hpeer) (by simp)
  · have hq := some.inj (hsome.symm.trans hpeer)
    rw [hq] at hset
    rw [← ht, hset]
    exact peer?_setPeer ⟨p, hp, by rw [← hq, (setPeerdstadr_rebound p _).ptr]⟩

/-- A packet with a failed digest, or a crypto-NAK, leaves the association it
    is matched to alone exactly if the association is at the interface the
    packet came in by and the packet is tolerated. -/
theorem unauthentic_undisturbed_iff (c : Cfg α) (e : Env α) (s t : Sys α) (rb : RecvBuf) (rx : Rx)
    (p : Peer α) (hfront : receiveFront c e s rb
      = .ok (t, rx, .procpkt, some (setPeerdstadr p (some rb.dstadr))))
    (hy : rx.is_authentic = .error ∨ rx.is_authentic = .crypto) :
    (∃ r, (receive c e s rb).peer? p.ptr = some r ∧ Undisturbed p r)
      ↔ setPeerdstadr p (some rb.dstadr) = p ∧ Tolerated c rx p := by
  have hbound := setPeerdstadr_rebound p (some rb.dstadr)
  generalize setPeerdstadr p (some rb.dstadr) = q at hfront hbound
  have hptr := hbound.ptr
  have hq : t.peer? q.ptr = some q := receiveFront_found hfront
  have hident : q.ident = p.ident := by
    obtain ⟨d, rfl⟩ := hbound
    rfl
  simp only [receive, hfront, dispatch]
  rw [← hptr]
  by_cases hgroup : c.autokey ∧ groupTest c rx.groupname q.ident
  · -- A packet of another group ends in the switch.
    rw [if_pos hgroup]
    have hsame : (declined t).peer? q.ptr = some q := hq
    rw [hsame]
    constructor
    · rintro ⟨r, hr, hund⟩
      obtain rfl := some.inj hr
      refine ⟨hbound.eq hund.dstadr, .inl ?_⟩
      rw [← hident, hgroup.1, hgroup.2]
      rfl
    · rintro ⟨rfl, -⟩
      exact ⟨q, rfl, rfl⟩
  · rw [if_neg hgroup]
    have hnot : ¬ (c.autokey && groupTest c rx.groupname p.ident) = true := by
      rw [← hident, Bool.and_eq_true]
      exact hgroup
    constructor
    · -- The packet does not move the association back, so it was not moved.
      rintro ⟨r, hr, hund⟩
      obtain rfl : q = p := hbound.eq
        ((receiveMatched_dstadr c e t hy hq hr).symm.trans hund.dstadr)
      exact ⟨rfl, .inr ((receiveMatched_undisturbed_iff c e t hy hq).mp ⟨r, hr, hund⟩)⟩
    · rintro ⟨rfl, htol⟩
      exact (receiveMatched_undisturbed_iff c e t hy hq).mpr (htol.resolve_left hnot)

end Unauthentic

/-- A client association with a symmetric key and a request outstanding. -/
def keyedClient : Peer ℚ :=
  { ptr := 1, srcadr := { addr := 0xcb007101 }, dstadr := some idleEndpt, hmode := .client
    keyid := 1, minpoll := 6, maxpoll := 10, hpoll := 6, aorg := 0x100, xmt := 0x50 }

/-- A server packet with a transmit timestamp and a digest that no key verifies. -/
def badDigestFrom (xmt : LFp) : RecvBuf :=
  { recv_srcadr := { addr := 0xcb007101 }, dstadr := idleEndpt, recv_length := 68
    recv_time := 0x130
    recv_pkt := { li_vn_mode := 0x24, stratum := 2, ppoll := 6, org := 0x999, xmt := xmt }
    exten := [1, 0xdead, 0xbeef, 0, 0] }

/-- A replay of the last packet is tolerated. -/
theorem unauthentic_undisturbed_replay :
    ∃ r, (receive defaultCfg idleEnv { peer_list := [keyedClient] } (badDigestFrom 0x50)).peer? 1
      = some r ∧ Undisturbed keyedClient r := by
  refine (unauthentic_undisturbed_iff defaultCfg idleEnv { peer_list := [keyedClient] } _
    (badDigestFrom 0x50) _ keyedClient rfl (.inl rfl)).mpr ⟨rfl, .inr (.inr ⟨rfl, .inl ?_⟩)⟩
  exact ⟨by decide, by decide⟩

/-- Any other packet replaces the state variables of the association. -/
theorem badDigest_disturbs :
    (∃ t rx, receiveFront defaultCfg idleEnv { peer_list := [keyedClient] } (badDigestFrom 0x120)
        = .ok (t, rx, .procpkt, some keyedClient) ∧ rx.is_authentic = .error)
      ∧ ¬ (∃ r, (receive defaultCfg idleEnv { peer_list := [keyedClient] }
          (badDigestFrom 0x120)).peer? 1 = some r ∧ Undisturbed keyedClient r)
      ∧ ((receive defaultCfg idleEnv { peer_list := [keyedClient] }
          (badDigestFrom 0x120)).peer? 1).map (fun r => (r.xmt, r.rec_, r.dst))
        = some (0x120, 0x120, 0x130) := by
  have hafter : ((receive defaultCfg idleEnv { peer_list := [keyedClient] }
      (badDigestFrom 0x120)).peer? 1).map (fun r => (r.xmt, r.rec_, r.dst))
        = some (0x120, 0x120, 0x130) := by decide
  refine ⟨⟨_, _, rfl, rfl⟩, ?_, hafter⟩
  rintro ⟨r, hr, hsame⟩
  rw [hr] at hafter
  have hxmt : r.xmt = 0x120 := congrArg Prod.fst (some.inj hafter)
  have hold : r.xmt = 0x50 := congrArg OnWire.xmt hsame.onWire
  exact absurd (hxmt.symm.trans hold) (by decide)

section Discarded

variable {α : Type} [Field α] [LinearOrder α]

/-- What the selection and the poll process read. -/
structure SelectionVars (α : Type) where
  leap : Leap
  stratum : Nat
  refid : BitVec 32
  reftime : LFp
  rootdelay : α
  rootdisp : α
  precision : Int
  burst : Int
  nextdate : Nat

def selectionVars (p : Peer α) : SelectionVars α :=
  { leap := p.leap, stratum := p.stratum, refid := p.refid, reftime := p.reftime
    rootdelay := p.rootdelay, rootdisp := p.rootdisp, precision := p.precision
    burst := p.burst, nextdate := p.nextdate }

/-- The packet fails one of the packet tests: one lit before, or that of the
    stratum or that of the root distance. -/
def packetDiscarded (c : Cfg α) (pkt : Pkt) (p : Peer α) : Bool :=
  p.flash.pktTest || badSync c pkt || badHeader α pkt

/-- The header of the packet is that of the last one. -/
def sameHeader (pkt : Pkt) (p : Peer α) : Prop :=
  pkt.leap = p.leap ∧ min pkt.toStratum STRATUM_UNSPEC = p.stratum ∧ pkt.refid = p.refid
    ∧ pkt.reftime = p.reftime ∧ fpToD pkt.rootdelay = p.rootdelay
    ∧ fpToD pkt.rootdisp = p.rootdisp ∧ pkt.precision = p.precision

/-- No burst is armed by the packet, or it is one in progress already. -/
def sameBurst (p : Peer α) : Prop := p.retry ≤ 0 ∨ burstLength p = p.burst

/-- The date `poll_update` gives to the association as it is, once a burst
    that is waiting for a packet has begun. -/
def polledDate (c : Cfg α) (e : Env α) (now : Nat) (p : Peer α) : Nat :=
  (pollUpdate c now (e.ntp_random 1) (armBurst now p) p.hpoll).nextdate

/-- The flashers after the header is captured are those of the discarding tests. -/
theorem packetHeader_pktTest (c : Cfg α) (e : Env α) (now : Nat) (pkt : Pkt) (p : Peer α) :
    (packetHeader c e now pkt p).flash.pktTest = packetDiscarded c pkt p := by
  have harm : (armBurst now (captureHeader pkt p)).flash = p.flash := by
    rw [armBurst]
    split
    · rfl
    · rfl
  have hflash : (packetHeader c e now pkt p).flash
      = { (armBurst now (captureHeader pkt p)).flash with
        test6 := (armBurst now (captureHeader pkt p)).flash.test6 || badSync c pkt
        test7 := (armBurst now (captureHeader pkt p)).flash.test7 || badHeader α pkt } := rfl
  rw [packetDiscarded, Flash.pktTest, Flash.pktTest]
  grind

/-- What the header part leaves for the selection and the poll process. -/
theorem packetHeader_vars (c : Cfg α) (e : Env α) (now : Nat) (pkt : Pkt) (p : Peer α) :
    selectionVars (packetHeader c e now pkt p)
      = { leap := pkt.leap, stratum := min pkt.toStratum STRATUM_UNSPEC, refid := pkt.refid
          reftime := pkt.reftime, rootdelay := fpToD pkt.rootdelay
          rootdisp := fpToD pkt.rootdisp, precision := pkt.precision
          burst := if p.retry > 0 then burstLength p else p.burst
          nextdate := polledDate c e now p } := by
  rw [packetHeader, polledDate]
  by_cases hretry : p.retry > 0
  · have hcap : (captureHeader pkt p).retry > 0 := hretry
    simp only [armBurst]
    rw [if_pos hretry, if_pos hretry, if_pos hcap]
    rfl
  · have hcap : ¬ (captureHeader pkt p).retry > 0 := hretry
    simp only [armBurst]
    rw [if_neg hretry, if_neg hretry, if_neg hcap]
    rfl

omit [LinearOrder α] in
theorem sameBurst_iff (p : Peer α) :
    (if p.retry > 0 then burstLength p else p.burst) = p.burst ↔ sameBurst p := by
  rw [sameBurst]
  by_cases hretry : p.retry > 0
  · rw [if_pos hretry]
    exact ⟨.inr, fun h => h.resolve_left (not_le.mpr hretry)⟩
  · rw [if_neg hretry]
    exact ⟨fun _ => .inl (not_lt.mp hretry), fun _ => rfl⟩

/-- A packet that fails a packet test leaves what the selection and the poll
    process read as it was exactly if its header is the one captured last, it
    arms no burst, and the poll update finds the date it would set. -/
theorem discarded_same_iff (c : Cfg α) (e : Env α) (now : Nat) (pkt : Pkt) (p : Peer α) :
    (packetDiscarded c pkt p = true →
        selectionVars (processPacket c e now pkt p).1 = selectionVars p)
      ↔ packetDiscarded c pkt p = false
        ∨ (sameHeader pkt p ∧ sameBurst p ∧ polledDate c e now p = p.nextdate) := by
  by_cases hdisc : packetDiscarded c pkt p = true
  · -- A discarded packet gets as far as the header part.
    have hvars : selectionVars (processPacket c e now pkt p).1
        = selectionVars (packetHeader c e now pkt p) := by
      simp only [processPacket, packetHeader_pktTest]
      rw [if_pos hdisc]
      rfl
    rw [hvars, packetHeader_vars]
    simp only [hdisc, forall_const, Bool.true_eq_false, false_or]
    rw [← sameBurst_iff, SelectionVars.mk.injEq, sameHeader]
    tauto
  · exact ⟨fun _ => .inl (Bool.eq_false_iff.mpr hdisc), fun _ h => absurd h hdisc⟩

end Discarded

/-- A server in good standing, when a packet with a bogus origin timestamp has just been found. -/
def goodServer : Peer ℚ :=
  { leap := .nowarning, stratum := 2, refid := 0xcb007103, reach := 1, hpoll := 6, minpoll := 6
    maxpoll := 10, nextdate := 164, outdate := 100, flash := { test2 := true } }

/-- The forged header takes the server out of the selection. -/
theorem forgedHeader_captured :
    packetDiscarded defaultCfg { li_vn_mode := 0xe4, org := 0x999, xmt := 0x910 } goodServer = true
      ∧ ¬ (packetDiscarded defaultCfg { li_vn_mode := 0xe4, org := 0x999, xmt := 0x910 } goodServer
          = true →
        selectionVars (processPacket defaultCfg idleEnv 120
          { li_vn_mode := 0xe4, org := 0x999, xmt := 0x910 } goodServer).1
        = selectionVars goodServer)
      ∧ peerUnfit defaultCfg idleEnv 120 goodServer = false
      ∧ peerUnfit defaultCfg idleEnv 120 (processPacket defaultCfg idleEnv 120
          { li_vn_mode := 0xe4, org := 0x999, xmt := 0x910 } goodServer).1 = true := by
  have hdisc : packetDiscarded defaultCfg { li_vn_mode := 0xe4, org := 0x999, xmt := 0x910 }
      goodServer = true := by decide +kernel
  refine ⟨hdisc, ?_, by decide +kernel, by decide +kernel⟩
  intro hsame
  exact absurd (congrArg SelectionVars.leap (hsame hdisc)) (by decide +kernel)

end NtpSuite
