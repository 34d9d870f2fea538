import NtpSuite.Theory.Front
import NtpSuite.Core.Defaults

/-!
# Mobilizing Associations

When `receive` asks for an ephemeral association. There are three cases of
the switch that do, and each has its own test of the macro `AUTH` for the
restrictions on the sender. In two of them the packet is dropped when the
test fails.

The third is the first packet of a symmetric active peer. When its test fails
the source sends a reply: a plain one if the packet would have been good
enough without an association, and a crypto-NAK if the digest was wrong. It
returns after the first and goes on after the second, past the comment that
the message is correctly authenticated and allowed.

## Main definitions

* `mobilizeAuth`: Whether authentication is required in a case.
* `authorized`: The packet is one that may mobilize, and passes the test.
* `failsOpen`: The packet takes the branch that does not return.

## Theorems

* `caseNewpass_calls`: When the third case asks for an association.
* `mobilizes_authorized_iff`: Only authorized packets mobilize, unless the
  third case fails open.
-/

namespace NtpSuite

open Bool

variable {α : Type} [Field α] [LinearOrder α]

/-- Authentication is required to mobilize. A pool solicitation does not require it for itself. -/
def mobilizeAuth (c : Cfg α) (s : Sys α) (rb : RecvBuf) (rx : Rx) (retcode : AM) : Bool :=
  match retcode, findmanycastpeer s rb with
  | .manycast, some p2 =>
    (!p2.cast_flags.pool && c.sys_authenticate) || rx.restrict_mask.nopeer
      || rx.restrict_mask.donttrust
  | _, _ => needsAuth c rx

/-- The case is one of those that mobilize. -/
def AM.mobilizes : AM → Bool
  | .manycast => true
  | .newbcl => true
  | .newpass => true
  | _ => false

/-- The packet gets to one of the three cases and passes the test of `AUTH` there. -/
def authorized (c : Cfg α) (e : Env α) (s : Sys α) (rb : RecvBuf) : Bool :=
  match receiveFront c e s rb with
  | .error _ => false
  | .ok (t, rx, retcode, _) =>
    retcode.mobilizes && authOk (mobilizeAuth c t rb rx retcode) rx.is_authentic

/-- The packet would start a symmetric passive association, is from the same
    group and in range, and fails `AUTH` even for a reply. -/
def unauthenticPass (c : Cfg α) (rx : Rx) (retcode : AM) : Bool :=
  retcode == .newpass && !(c.autokey && groupTest c rx.groupname c.sys_ident)
    && !authOk rx.restrict_mask.donttrust rx.is_authentic && !outOfRange c rx

/-- Such a packet gets to the switch. -/
def failsOpen (c : Cfg α) (e : Env α) (s : Sys α) (rb : RecvBuf) : Bool :=
  match receiveFront c e s rb with
  | .error _ => false
  | .ok (_, rx, retcode, _) => unauthenticPass c rx retcode

theorem authOk_mono {x y : Bool} {a : Auth} (hxy : y = true → x = true)
    (h : authOk x a = true) : authOk y a = true := by
  cases x <;> cases y <;> cases a <;> simp_all [authOk]

variable (c : Cfg α) (rx : Rx) (s : Sys α) (rb : RecvBuf) (e : Env α)

omit [Field α] [LinearOrder α] in
theorem needsAuth_of_donttrust (h : rx.restrict_mask.donttrust = true) : needsAuth c rx = true := by
  rw [needsAuth, h, Bool.or_true]

omit [LinearOrder α] in
theorem caseFxmit_calls (rx : Rx) : mobilizations (caseFxmit c s rb rx) = mobilizations s := by
  simp only [caseFxmit]
  repeat' (apply iteInduction (motive := fun t => mobilizations t = mobilizations s) <;> intro _)
  all_goals rfl

theorem caseManycast_calls (s : Sys α) (rb : RecvBuf) (rx : Rx)
    (h : mobilizations s < mobilizations (caseManycast c e s rb rx)) :
    authOk (mobilizeAuth c s rb rx .manycast) rx.is_authentic = true := by
  rw [caseManycast] at h
  by_cases hgroup : c.autokey ∧ groupTest c rx.groupname none
  · rw [if_pos hgroup] at h
    exact absurd h (lt_irrefl _)
  rw [if_neg hgroup] at h
  rcases hfind : findmanycastpeer s rb with _ | p2
  · rw [hfind] at h
    exact absurd h (lt_irrefl _)
  simp only [hfind] at h
  simp only [mobilizeAuth, hfind]
  by_contra hauth
  rw [Bool.not_eq_true] at hauth
  rw [hauth] at h
  exact absurd h (lt_irrefl _)

theorem caseNewbcl_calls (s : Sys α) (rb : RecvBuf) (rx : Rx)
    (h : mobilizations s < mobilizations (caseNewbcl c e s rb rx).1) :
    authOk (needsAuth c rx) rx.is_authentic = true := by
  rw [caseNewbcl] at h
  by_cases hgroup : c.autokey ∧ groupTest c rx.groupname c.sys_ident
  · rw [if_pos hgroup] at h
    exact absurd h (lt_irrefl _)
  rw [if_neg hgroup] at h
  by_cases hbclient : (!c.sys_bclient) = true
  · rw [if_pos hbclient] at h
    exact absurd h (lt_irrefl _)
  rw [if_neg hbclient] at h
  by_contra hauth
  rw [Bool.not_eq_true] at hauth
  rw [hauth] at h
  exact absurd h (lt_irrefl _)

theorem mobilizePassive_calls (s : Sys α) (rb : RecvBuf) (rx : Rx) :
    mobilizations s < mobilizations (mobilizePassive c e s rb rx).1 ↔ outOfRange c rx = false := by
  rw [mobilizePassive]
  by_cases hrange : outOfRange c rx
  · rw [hrange]
    exact ⟨fun h => absurd h (lt_irrefl _), nofun⟩
  · rw [if_neg hrange]
    have hcalls := newpeer_calls c e s (newpassRequest c rb rx)
    refine ⟨fun _ => eq_false_iff.mpr hrange, fun _ => ?_⟩
    split
    · rename_i t hnew
      rw [hnew] at hcalls
      exact Nat.lt_of_lt_of_eq (Nat.lt_succ_self _) hcalls.symm
    · rename_i t p hnew
      rw [hnew] at hcalls
      exact Nat.lt_of_lt_of_eq (Nat.lt_succ_self _) hcalls.symm

/-- The third case asks for an association when the packet passes the test,
    and also when it fails the weaker test for a reply. -/
theorem caseNewpass_calls (s : Sys α) (rb : RecvBuf) (rx : Rx) :
    mobilizations s < mobilizations (caseNewpass c e s rb rx).1
      ↔ (c.autokey && groupTest c rx.groupname c.sys_ident) = false
        ∧ (authOk (needsAuth c rx) rx.is_authentic = true
          ∨ authOk rx.restrict_mask.donttrust rx.is_authentic = false)
        ∧ outOfRange c rx = false := by
  rw [caseNewpass]
  by_cases hgroup : c.autokey ∧ groupTest c rx.groupname c.sys_ident
  · rw [hgroup.1, hgroup.2]
    exact ⟨fun h => absurd h (lt_irrefl _), fun h => absurd h.1 (by decide)⟩
  have hsame : (c.autokey && groupTest c rx.groupname c.sys_ident) = false :=
    eq_false_iff.mpr (fun h => hgroup (and_eq_true_iff.mp h))
  rw [if_neg hgroup]
  by_cases hauth : authOk (needsAuth c rx) rx.is_authentic
  · -- Authenticated: the case goes on to the range of the stratum.
    rw [hauth, if_neg (by decide), mobilizePassive_calls]
    exact ⟨fun h => ⟨hsame, .inl rfl, h⟩, fun h => h.2.2⟩
  rw [Bool.not_eq_true] at hauth
  rw [hauth, Bool.not_false, if_pos rfl]
  by_cases hreply : authOk rx.restrict_mask.donttrust rx.is_authentic
  · -- Good enough for a reply: it is sent, and the packet done with.
    rw [hreply]
    refine ⟨fun h => absurd h (lt_irrefl _), fun h => ?_⟩
    rcases h.2.1 with h | h
    · exact absurd h (by decide)
    · exact absurd h (by decide)
  · rw [if_neg hreply]
    have hlost : authOk rx.restrict_mask.donttrust rx.is_authentic = false :=
      eq_false_iff.mpr hreply
    -- Not even good enough for a reply. The source does not return here.
    by_cases hdigest : rx.is_authentic = .error
    · rw [if_pos hdigest]
      have hcalls := mobilizePassive_calls c e (restricted (s.log (.fastXmit .active 0))) rb rx
      exact ⟨fun h => ⟨hsame, .inr hlost, hcalls.mp h⟩, fun h => hcalls.mpr h.2.2⟩
    · rw [if_neg hdigest, mobilizePassive_calls]
      exact ⟨fun h => ⟨hsame, .inr hlost, h⟩, fun h => h.2.2⟩

/-- The switch asks for an association only for authorized packets and for those that fail open. -/
theorem dispatch_calls (s : Sys α) (rb : RecvBuf) (rx : Rx) (retcode : AM) (peer : Option (Peer α))
    (h : mobilizations s < mobilizations (dispatch c e s rb rx retcode peer).1) :
    retcode.mobilizes = true
      ∧ (authOk (mobilizeAuth c s rb rx retcode) rx.is_authentic = true
        ∨ unauthenticPass c rx retcode = true) := by
  cases retcode with
  | fxmit => exact absurd h (by rw [dispatch, caseFxmit_calls]; exact lt_irrefl _)
  | manycast => exact ⟨rfl, .inl (caseManycast_calls c e s rb rx h)⟩
  | newbcl => exact ⟨rfl, .inl (caseNewbcl_calls c e s rb rx h)⟩
  | newpass =>
    obtain ⟨hgroup, hauth | hreply, hrange⟩ := (caseNewpass_calls c e s rb rx).mp h
    · exact ⟨rfl, .inl hauth⟩
    · exact ⟨rfl, .inr (by rw [unauthenticPass, hgroup, hreply, hrange]; rfl)⟩
  | procpkt =>
    -- An association that was found asks for no other.
    rcases peer with _ | p
    · exact absurd h (lt_irrefl _)
    · rw [dispatch] at h
      by_cases hgroup : c.autokey ∧ groupTest c rx.groupname p.ident
      · rw [if_pos hgroup] at h
        exact absurd h (lt_irrefl _)
      · rw [if_neg hgroup] at h
        exact absurd h (lt_irrefl _)
  | _ => exact absurd h (lt_irrefl _)

theorem receive_calls {c : Cfg α} {e : Env α} {s t : Sys α} {rb : RecvBuf} {rx : Rx}
    {retcode : AM} {peer : Option (Peer α)}
    (h : receiveFront c e s rb = .ok (t, rx, retcode, peer)) :
    mobilizations (receive c e s rb) = mobilizations (dispatch c e t rb rx retcode peer).1 := by
  simp only [receive, h]
  rcases dispatch c e t rb rx retcode peer with ⟨u, _ | p⟩
  · rfl
  · exact receiveMatched_quiet c e u rx p

omit [Field α] [LinearOrder α] in
theorem authOk_needsAuth_of_donttrust {c : Cfg α} {rx : Rx}
    (h : authOk rx.restrict_mask.donttrust rx.is_authentic = false) :
    authOk (needsAuth c rx) rx.is_authentic = false := by
  by_contra hauth
  rw [not_eq_false] at hauth
  rw [authOk_mono (needsAuth_of_donttrust c rx) hauth] at h
  exact absurd h (by decide)

/-- `receive` asks for an association only for a packet that passes the test of `AUTH` in its case,
    if and only if the packet does not take the branch of the third case that fails open. -/
theorem mobilizes_authorized_iff (c : Cfg α) (e : Env α) (s : Sys α) (rb : RecvBuf) :
    (mobilizations s < mobilizations (receive c e s rb) → authorized c e s rb = true)
      ↔ failsOpen c e s rb = false := by
  rcases receiveFront_spec c e s rb with ⟨t, herr, hfront⟩ | ⟨t, rx, hacts, hok⟩
  · -- An early return asks for nothing.
    have hquiet : mobilizations (receive c e s rb) = mobilizations s := by
      simp only [receive, herr]
      exact hfront.newpeers
    simp only [authorized, failsOpen, herr, hquiet]
    simp
  · have hcalls := receive_calls hok
    have hquiet : mobilizations (findpeer t rb rx.hismode).1 = mobilizations s :=
      (findpeer_fronted hacts rb rx.hismode).newpeers
    simp only [authorized, failsOpen, hok, hcalls]
    generalize findpeer t rb rx.hismode = m at hquiet
    rw [← hquiet]
    constructor
    · -- The branch asks for an association, so the packet would be authorized.
      intro hall
      by_contra hopen
      simp only [unauthenticPass, not_eq_false, and_eq_true, not_eq_true', beq_iff_eq] at hopen
      obtain ⟨⟨⟨hcode, hgroup⟩, hreply⟩, hrange⟩ := hopen
      rw [hcode] at hall
      have hauth := hall ((caseNewpass_calls c e m.1 rb rx).mpr ⟨hgroup, .inr hreply, hrange⟩)
      rw [and_eq_true] at hauth
      have hneeds : authOk (needsAuth c rx) rx.is_authentic = true := hauth.2
      rw [authOk_needsAuth_of_donttrust hreply] at hneeds
      exact absurd hneeds (by decide)
    · intro hclosed hlt
      obtain ⟨hmob, hauth | hopen⟩ := dispatch_calls c e _ rb rx _ _ hlt
      · rw [hmob, hauth]
        rfl
      · rw [hopen] at hclosed
        exact absurd hclosed (by decide)

/-- A symmetric active packet with a digest that no key verifies. -/
def forgedActive : RecvBuf :=
  { recv_srcadr := { addr := 0xcb007101 }, dstadr := idleEndpt, recv_length := 68
    recv_pkt := { li_vn_mode := 0x21, stratum := 2, ppoll := 6, xmt := 1 }
    exten := [1, 0xdead, 0xbeef, 0, 0] }

/-- With authentication required and no association yet, the forged packet gets one. -/
theorem forgedActive_mobilizes :
    ¬ (mobilizations ({} : Sys ℚ) < mobilizations (receive defaultCfg idleEnv {} forgedActive) →
        authorized defaultCfg idleEnv {} forgedActive = true)
      ∧ (receive defaultCfg idleEnv {} forgedActive).peer_list.map Peer.hmode = [.passive] := by
  refine ⟨?_, by decide⟩
  intro hall
  exact absurd (hall (by decide)) (by decide)

end NtpSuite
