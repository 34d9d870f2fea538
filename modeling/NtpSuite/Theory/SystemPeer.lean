import NtpSuite.Core.Select
import NtpSuite.Core.Defaults

/-!
# The System Peer

Which association the selection winds the clock with. The candidates have
passed the fitness tests, the cull and the cluster rounds only take some of
them away, and the last resorts have passed the same tests, so whatever is
picked from the survivors is fit and has been through the selection. The PPS
source comes from the candidates that pass the cull.

The clockhop rule is different. It stays with the previous system peer if its
offset is close to the one of the survivor selected, and takes it through a
pointer from the last round. Nothing in this round vouches for it: it may be
unfit, or have been culled. The claim that the system peer passed selection
fails exactly there.

## Main definitions

* `Passed`: The association is fit and was selected in this round.
* `Keeps`: The clockhop rule prefers the previous system peer.
* `StaleHop`: It does, and this round did not select that association.

## Theorems

* `survivors_passed`: Every survivor passed.
* `updatePeer_passed_iff`: The clock is wound with an association that passed
  unless there is a stale hop.
-/

namespace NtpSuite

open List Option

variable {α : Type} [Field α] [LinearOrder α]

/-- The association was picked by this round of the selection: it is a survivor of the cull and the
    cluster rounds, the PPS source, or the last resort when the cull left nobody. -/
def Selected (c : Cfg α) (e : Env α) (s : Sys α) (p : Peer α) : Prop :=
  (truechimers c (candidates c e s) ≠ [] ∧ ∃ q ∈ survivors c e s, q.peer = p)
    ∨ typepps c (candidates c e s) = some p
    ∨ (truechimers c (candidates c e s) = [] ∧ fallback c e s = some p)

/-- The association is fit and was picked. -/
def Passed (c : Cfg α) (e : Env α) (s : Sys α) (p : Peer α) : Prop :=
  peerUnfit c e s.current_time p = false ∧ Selected c e s p

variable {c : Cfg α} {e : Env α} {p : Peer α} {s : Sys α} {q : PeerSelect α}

/-- An association with any other rank than that of a reject is fit. -/
theorem fit_of_classify {now : Nat} (h : classify c e now p ≠ .reject) :
    peerUnfit c e now p = false := by
  by_contra hunfit
  apply h
  rw [classify, if_pos (Bool.not_eq_false _ ▸ hunfit)]

theorem candidates_fit (h : q ∈ candidates c e s) :
    peerUnfit c e s.current_time q.peer = false := by
  obtain ⟨p, hp, rfl⟩ := mem_map.mp h
  have hsane := of_decide_eq_true (mem_filter.mp hp).2
  exact fit_of_classify (by rw [hsane]; decide)

/-- What a fold ends with, if every step keeps the choice made or takes the element at hand. -/
theorem foldl_choice {σ τ : Type} (get : σ → Option τ) {f : σ → τ → σ} {xs : List τ} {a : σ}
    {y : τ} (h : get (xs.foldl f a) = some y)
    (hf : ∀ a x, get (f a x) = get a ∨ get (f a x) = some x) : get a = some y ∨ y ∈ xs := by
  induction xs generalizing a with
  | nil => exact .inl h
  | cons x xs ih =>
    rcases ih h with ha | hy
    · rcases hf a x with hx | hx
      · exact .inl (hx.symm.trans ha)
      · obtain rfl : x = y := some.inj (hx.symm.trans ha)
        exact .inr mem_cons_self
    · exact .inr (mem_cons_of_mem _ hy)

theorem typeorphan_fit (h : typeorphan c e s = some p) :
    peerUnfit c e s.current_time p = false := by
  rcases foldl_choice id h (fun _ _ => (ite_eq_or_eq _ _ _).symm) with hnone | hp
  · exact absurd hnone (by simp)
  · have horphan := of_decide_eq_true (mem_filter.mp hp).2
    exact fit_of_classify (by rw [horphan]; decide)

theorem typedriver_fit {r : Rank} (hr : r ≠ .reject) (h : typedriver c e s r = some p) :
    peerUnfit c e s.current_time p = false := by
  by_cases hwait : s.current_time > s.orphwait
  · rw [typedriver, if_pos hwait] at h
    have hrank : classify c e s.current_time p = r := by
      simpa using List.find?_some h
    exact fit_of_classify (hrank ▸ hr)
  · rw [typedriver, if_neg hwait] at h
    exact absurd h (by simp)

theorem fallback_fit (h : fallback c e s = some p) : peerUnfit c e s.current_time p = false := by
  rw [fallback] at h
  rcases hacts : typedriver c e s .acts with _ | q
  · rcases hlocal : typedriver c e s .localclock with _ | q
    · rw [hacts, hlocal] at h
      exact typeorphan_fit h
    · rw [hacts, hlocal] at h
      obtain rfl : q = p := some.inj h
      exact typedriver_fit (by decide) hlocal
  · rw [hacts] at h
    obtain rfl : q = p := some.inj h
    exact typedriver_fit (by decide) hacts

theorem typepps_passed (h : typepps c (candidates c e s) = some p) : Passed c e s p := by
  refine ⟨?_, .inr (.inl h)⟩
  obtain ⟨q, hq, rfl⟩ := map_eq_some_iff.mp h
  exact candidates_fit (mem_of_find?_eq_some hq)

theorem clusterLoop_mem (c : Cfg α) (fuel : Nat) (ps : List (PeerSelect α)) (excess : List Nat)
    (q : PeerSelect α) (h : q ∈ (clusterLoop c fuel ps excess).1) : ∃ r ∈ ps, r.peer = q.peer := by
  -- The jitter of a round is written to the entry, not to its association.
  have hjit : ∀ qs : List (PeerSelect α), ∀ q ∈ withSeljit c qs, ∃ r ∈ qs, r.peer = q.peer := by
    intro qs q hq
    obtain ⟨r, hr, rfl⟩ := mem_map.mp hq
    exact ⟨r, hr, rfl⟩
  induction fuel generalizing ps excess with
  | zero => exact ⟨q, h, rfl⟩
  | succ fuel ih =>
    rw [clusterLoop] at h
    split at h
    · exact hjit ps q h
    · split at h
      · exact hjit ps q h
      · obtain ⟨r, hr, hrq⟩ := ih _ _ h
        obtain ⟨r', hr', hrr⟩ := hjit ps r (mem_of_mem_eraseIdx hr)
        exact ⟨r', hr', hrr.trans hrq⟩

theorem survivors_passed (h : q ∈ survivors c e s) : Passed c e s q.peer := by
  obtain ⟨r, hr, hrq⟩ := clusterLoop_mem c _ _ _ q h
  rw [nominees] at hr
  rcases htrue : truechimers c (candidates c e s) with _ | ⟨t, ts⟩
  · rw [htrue] at hr
    obtain ⟨p, hp, rfl⟩ := mem_map.mp hr
    have hp : fallback c e s = some p := mem_toList.mp hp
    obtain rfl : p = q.peer := hrq
    exact ⟨fallback_fit hp, .inr (.inr ⟨htrue, hp⟩)⟩
  · rw [htrue] at hr
    have hr : r ∈ truechimers c (candidates c e s) := by
      rw [htrue]
      exact hr
    have hcand : r ∈ candidates c e s := (mem_filter.mp hr).1
    refine ⟨hrq ▸ candidates_fit hcand, .inl ⟨?_, q, h, rfl⟩⟩
    rw [htrue]
    exact cons_ne_nil t ts

/-- When the last resort is in use, it is the only survivor. -/
theorem survivors_eq_fallback (htrue : truechimers c (candidates c e s) = [])
    (hp : fallback c e s = some p) (h : q ∈ survivors c e s) : q.peer = p := by
  obtain ⟨r, hr, hrq⟩ := clusterLoop_mem c _ _ _ q h
  rw [nominees, htrue] at hr
  obtain ⟨p', hp', rfl⟩ := mem_map.mp hr
  have hp' : fallback c e s = some p' := mem_toList.mp hp'
  exact hrq.symm.trans (some.inj (hp'.symm.trans hp))

theorem speer_mem {ps : List (PeerSelect α)} (h : speer c ps = some q) : q ∈ ps := by
  rcases foldl_choice Prod.snd h (by intro acc r; dsimp only; split <;> simp) with hhead | hq
  · exact mem_of_mem_head? hhead
  · exact hq

omit [LinearOrder α] in
theorem sysPrefer_mem {ps : List (PeerSelect α)} (h : sysPrefer ps = some p) :
    ∃ q ∈ ps, q.peer = p := by
  obtain ⟨q, hq, rfl⟩ := map_eq_some_iff.mp h
  exact ⟨q, mem_reverse.mp (mem_of_find?_eq_some hq), rfl⟩

/-- The clockhop rule prefers `o` to the survivor `p`. -/
def Keeps (c : Cfg α) (sys_clockhop : α) (o p : Peer α) : Prop :=
  o.ptr ≠ p.ptr ∧ |p.offset - o.offset| < c.sys_mindisp
    ∧ |p.offset - o.offset| < hopThreshold c sys_clockhop

theorem clockhop_of_keeps {sys_clockhop : α} {o p : Peer α} (h : Keeps c sys_clockhop o p) :
    (clockhop c sys_clockhop (some o) p).1 = o := by
  obtain ⟨hne, hdisp, hhop⟩ := h
  simp only [clockhop]
  rw [if_neg hne, if_pos hdisp, if_pos hhop]

theorem clockhop_cases (c : Cfg α) (sys_clockhop : α) (osys : Option (Peer α)) (p : Peer α) :
    (clockhop c sys_clockhop osys p).1 = p
      ∨ ∃ o, osys = some o ∧ Keeps c sys_clockhop o p
        ∧ (clockhop c sys_clockhop osys p).1 = o := by
  rcases osys with _ | o
  · exact .inl rfl
  · by_cases hkeep : Keeps c sys_clockhop o p
    · exact .inr ⟨o, rfl, hkeep, clockhop_of_keeps hkeep⟩
    · -- One of the three tests fails.
      left
      simp only [clockhop]
      by_cases hne : o.ptr = p.ptr
      · rw [if_pos hne]
      · rw [if_neg hne]
        by_cases hdisp : |p.offset - o.offset| < c.sys_mindisp
        · rw [if_pos hdisp, if_neg (fun hhop => hkeep ⟨hne, hdisp, hhop⟩)]
        · rw [if_neg hdisp]

/-- The PPS source, if there is one, does not take over. -/
def PpsStandsBack (c : Cfg α) (e : Env α) (s : Sys α) : Prop :=
  ∀ q, typepps c (candidates c e s) = some q → ppsRule c e s (mitigate c e s) q = false

/-- The clockhop rule keeps the previous system peer `o`, its data is new, and
    it is neither a survivor of this round nor its PPS source. -/
def StaleHop (c : Cfg α) (e : Env α) (s : Sys α) : Prop :=
  ∃ o sp, osysPeer s = some o ∧ speer c (survivors c e s) = some sp
    ∧ (survivors c e s).length ≥ c.sys_minsane ∧ sysPrefer (survivors c e s) = none
    ∧ Keeps c s.sys_clockhop o sp.peer ∧ PpsStandsBack c e s ∧ s.sys_epoch < o.epoch
    ∧ (∀ q ∈ survivors c e s, q.peer ≠ o) ∧ typepps c (candidates c e s) ≠ some o

/-- What `clock_update` is called with comes from the PPS rule or from the rules before it. -/
theorem updatePeer_cases (h : updatePeer c e s = some p) :
    s.sys_epoch < p.epoch ∧ (typepps c (candidates c e s) = some p
      ∨ ((mitigate c e s).typesystem = some p ∧ PpsStandsBack c e s)) := by
  rw [updatePeer] at h
  rcases hch : (choose c e s).typesystem with _ | q
  · rw [hch] at h
    exact absurd h (by simp)
  · simp only [hch] at h
    by_cases hold : q.epoch ≤ s.sys_epoch
    · rw [if_pos hold] at h
      exact absurd h (by simp)
    · rw [if_neg hold] at h
      obtain rfl : q = p := some.inj h
      -- The data is new; it remains to see which rule chose the peer.
      refine ⟨not_le.mp hold, ?_⟩
      rw [choose] at hch
      rcases hpps : typepps c (candidates c e s) with _ | r
      · rw [hpps] at hch
        exact .inr ⟨hch, fun _ hr => absurd (hpps.symm.trans hr) (by simp)⟩
      · simp only [hpps] at hch
        by_cases hrule : ppsRule c e s (mitigate c e s) r
        · rw [if_pos hrule] at hch
          exact .inl (by rw [← some.inj hch])
        · rw [if_neg hrule] at hch
          refine .inr ⟨hch, ?_⟩
          intro t ht
          obtain rfl : r = t := some.inj (hpps.symm.trans ht)
          exact Bool.eq_false_iff.mpr hrule

/-- Without the PPS rule the choice is the prefer peer, the best survivor or
    the previous system peer. -/
theorem mitigate_cases (h : (mitigate c e s).typesystem = some p) :
    (∃ q ∈ survivors c e s, q.peer = p)
      ∨ ∃ sp, osysPeer s = some p ∧ speer c (survivors c e s) = some sp
        ∧ (survivors c e s).length ≥ c.sys_minsane ∧ sysPrefer (survivors c e s) = none
        ∧ Keeps c s.sys_clockhop p sp.peer := by
  rw [mitigate] at h
  rcases hsp : speer c (survivors c e s) with _ | sp
  · simp only [hsp] at h
    exact absurd h (by simp)
  · simp only [hsp] at h
    by_cases hsane : ((survivors c e s).length : Int) ≥ c.sys_minsane
    · rw [if_pos hsane] at h
      rcases hpref : sysPrefer (survivors c e s) with _ | r
      · simp only [hpref] at h
        have h := some.inj h
        rcases clockhop_cases c s.sys_clockhop (osysPeer s) sp.peer with hsame | ⟨o, ho, hkeep, heq⟩
        · exact .inl ⟨sp, speer_mem hsp, hsame.symm.trans h⟩
        · obtain rfl : o = p := heq.symm.trans h
          exact .inr ⟨sp, ho, rfl, hsane, rfl, hkeep⟩
      · simp only [hpref] at h
        obtain rfl : r = p := some.inj h
        exact .inl (sysPrefer_mem hpref)
    · rw [if_neg hsane] at h
      exact absurd h (by simp)

/-- In a stale hop the clock is wound with the previous system peer. -/
theorem updatePeer_of_keeps {o : Peer α} {sp : PeerSelect α} (ho : osysPeer s = some o)
    (hsp : speer c (survivors c e s) = some sp) (hsane : (survivors c e s).length ≥ c.sys_minsane)
    (hpref : sysPrefer (survivors c e s) = none) (hkeep : Keeps c s.sys_clockhop o sp.peer)
    (hpps : PpsStandsBack c e s) (hnew : s.sys_epoch < o.epoch) : updatePeer c e s = some o := by
  -- With no prefer peer the clockhop rule decides.
  have hmit : (mitigate c e s).typesystem = some o := by
    rw [mitigate]
    simp only [hsp, hpref, ho]
    rw [if_pos hsane, clockhop_of_keeps hkeep]
  have hchoose : (choose c e s).typesystem = some o := by
    rw [choose]
    rcases htype : typepps c (candidates c e s) with _ | q
    · exact hmit
    · simp only [hpps q htype]
      exact hmit
  rw [updatePeer, hchoose]
  exact if_neg (not_le.mpr hnew)

/-- The association that `clock_select` winds the clock with is fit and was selected in this round,
    unless the clockhop rule keeps a previous system peer that was not. -/
theorem updatePeer_passed_iff (c : Cfg α) (e : Env α) (s : Sys α) :
    (∀ p, updatePeer c e s = some p → Passed c e s p) ↔ ¬ StaleHop c e s := by
  constructor
  · rintro hall ⟨o, sp, ho, hsp, hsane, hpref, hkeep, hpps, hnew, hsurv, hnotpps⟩
    have hupdate := updatePeer_of_keeps ho hsp hsane hpref hkeep hpps hnew
    rcases (hall o hupdate).2 with ⟨-, q, hq, hqo⟩ | htype | ⟨htrue, hfall⟩
    · exact hsurv q hq hqo
    · exact hnotpps htype
    · exact hsurv sp (speer_mem hsp) (survivors_eq_fallback htrue hfall (speer_mem hsp))
  · intro hno p hp
    obtain ⟨hnew, htype | ⟨hmit, hpps⟩⟩ := updatePeer_cases hp
    · exact typepps_passed htype
    · rcases mitigate_cases hmit with ⟨q, hq, rfl⟩ | ⟨sp, ho, hsp, hsane, hpref, hkeep⟩
      · exact survivors_passed hq
      · -- The previous system peer: it passed if this round selected it.
        by_cases hsurv : ∃ q ∈ survivors c e s, q.peer = p
        · obtain ⟨q, hq, rfl⟩ := hsurv
          exact survivors_passed hq
        · by_cases htype : typepps c (candidates c e s) = some p
          · exact typepps_passed htype
          · exact absurd ⟨p, sp, ho, hsp, hsane, hpref, hkeep, hpps, hnew,
              fun q hq hqp => hsurv ⟨q, hq, hqp⟩, htype⟩ hno

/-- A server that has begun to synchronize to this host. -/
def loopedServer : Peer ℚ :=
  { ptr := 1, srcadr := { addr := 0xcb007101 }, dstadr := some idleEndpt
    stratum := 3, refid := 0xc0000201, reach := 1, hpoll := 6
    offset := 1 / 10000, jitter := 1 / 10000, disp := 1 / 1000, epoch := 200, update := 200 }

/-- A server synchronized to another source. -/
def soundServer : Peer ℚ :=
  { ptr := 2, srcadr := { addr := 0xcb007102 }, dstadr := some idleEndpt
    stratum := 2, refid := 0xcb007103, reach := 1, hpoll := 6
    offset := 3 / 10000, jitter := 1 / 10000, disp := 1 / 1000, epoch := 190, update := 190 }

/-- The first of them is the system peer, and its sample has just come in. -/
def loopedSys : Sys ℚ :=
  { current_time := 200, peer_list := [soundServer, loopedServer], sys_peer := some 1
    sys_epoch := 136 }

/-- The synchronization loop is found, the other server survives, and the
    clock is wound with the first. -/
theorem loopedServer_kept :
    ¬ (∀ p, updatePeer defaultCfg idleEnv loopedSys = some p →
        Passed defaultCfg idleEnv loopedSys p)
      ∧ updatePeer defaultCfg idleEnv loopedSys = some loopedServer
      ∧ peerUnfit defaultCfg idleEnv loopedSys.current_time loopedServer = true
      ∧ (survivors defaultCfg idleEnv loopedSys).map PeerSelect.peer = [soundServer] := by
  have hupdate : updatePeer defaultCfg idleEnv loopedSys = some loopedServer := by
    decide +kernel
  have hunfit : peerUnfit defaultCfg idleEnv loopedSys.current_time loopedServer = true := by
    decide +kernel
  refine ⟨?_, hupdate, hunfit, by decide +kernel⟩
  intro hall
  exact absurd (hall loopedServer hupdate).1 (by rw [hunfit]; decide)

/-! ### The cluster rounds -/

/-- What is left of a list, in its order: enough, and all who are immune. -/
structure Clustered (c : Cfg α) (xs left : List (Peer α)) : Prop where
  order : left <+ xs
  immune : ∀ p ∈ xs, p.flags.truechimer || p.flags.prefer → p ∈ left
  enough : min (xs.length : Int) (max 1 c.sys_minclock) ≤ left.length

omit [LinearOrder α] in
theorem Clustered.refl (xs : List (Peer α)) : Clustered c xs xs :=
  ⟨Sublist.refl _, fun _ hp _ => hp, min_le_left _ _⟩

omit [LinearOrder α] in
theorem Clustered.round {xs left : List (Peer α)} {k : Nat} (hk : k < xs.length)
    (hmany : max 1 c.sys_minclock < xs.length)
    (hout : ¬(xs[k].flags.truechimer || xs[k].flags.prefer))
    (h : Clustered c (xs.eraseIdx k) left) : Clustered c xs left := by
  refine ⟨h.order.trans (eraseIdx_sublist xs k), fun p hp him => h.immune p ?_ him, ?_⟩
  · rcases mem_cons.mp ((getElem_cons_eraseIdx_perm hk).mem_iff.mpr hp) with rfl | hin
    · exact absurd him hout
    · exact hin
  · have henough := h.enough
    rw [length_eraseIdx_of_lt hk] at henough
    omega

theorem clusterLoop_clustered (n : Nat) {fuel : Nat} {ps : List (PeerSelect α)} (excess : List Nat)
    (hfuel : ps.length < fuel) :
    Clustered c (ps.map (·.peer)) ((clusterLoop c fuel ps excess).1.map (·.peer)) ∧
      clusterLoop c (fuel + n) ps excess = clusterLoop c fuel ps excess := by
  induction fuel generalizing ps excess with
  | zero => exact absurd hfuel (Nat.not_lt_zero _)
  | succ fuel ih =>
    have hlen : (withSeljit c ps).length = ps.length := length_map _
    have hpeers : ps.map (·.peer) = (withSeljit c ps).map (·.peer) := by simp [withSeljit]
    rw [Nat.succ_add, clusterLoop, clusterLoop, hpeers]
    split
    · exact ⟨.refl _, rfl⟩
    · rename_i q hq
      split
      · exact ⟨.refl _, rfl⟩
      · rename_i hstop
        obtain ⟨hk, rfl⟩ := List.getElem?_eq_some_iff.mp hq
        simp only [not_or] at hstop
        obtain ⟨hmany, -, hout⟩ := hstop
        refine (ih _ ?_).imp_left fun hrest => ?_
        · rw [length_eraseIdx_of_lt hk]
          omega
        · rw [← eraseIdx_map] at hrest
          exact hrest.round (by simpa using hk) (by simpa using hmany) (by simpa using hout)

/-- The cluster algorithm keeps the immune, and more turns change nothing. -/
theorem cluster_clustered (c : Cfg α) (ps : List (PeerSelect α)) (n : Nat) :
    Clustered c (ps.map (·.peer)) ((cluster c ps).1.map (·.peer)) ∧
      clusterLoop c (ps.length + 1 + n) ps [] = cluster c ps :=
  clusterLoop_clustered n [] (Nat.lt_succ_self _)

end NtpSuite
