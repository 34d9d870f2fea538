import NtpSuite.Theory.Frame
import NtpSuite.Core.Filter

/-!
# The Reach of the Selection

The clock filter is called for one association and runs the selection over
all of them, and the selection may go on to the clock update, which calls
`poll_update` and, after a step of the clock, clears every association. The
whole of it is a chain of a few kinds of moves on each association.

`Moves` is that chain without a clearing: calls of `poll_update`, and changes
of variables outside the poll process. What the clock filter does to the
associations is then said once, in `clockFilter_acts`, and whoever wants an
invariant of associations to survive it checks two moves.

## Main definitions

* `Inner`, `innerMove`: A move and its effect.
* `Moves`: A chain of moves.
* `Stepped`: A chain of moves that may end in a clearing.
* `mobilizations`: The number of associations asked for so far.
* `Acts`: A relation between associations, lifted to the daemon.

## Theorems

* `clockSelect_acts`: What the selection does to every association.
* `clockFilter_acts`: What the clock filter does to every association.
-/

namespace NtpSuite

/-- A move of the clock filter or the selection on an association: a call of
    `poll_update`, or a change of variables outside the poll process. -/
inductive Inner (α : Type) [Zero α] where
  | poll (rnd mpoll : Nat)
  | marks (q : Peer α)

section

variable {α : Type} [Field α]

/-- The effect of such a move. -/
def innerMove (c : Cfg α) (now : Nat) (p : Peer α) : Inner α → Peer α
  | .poll rnd mpoll => pollUpdate c now rnd p mpoll
  | .marks q =>
    { p with
      toReach := q.toReach
      toHeader := q.toHeader
      toFilter := q.toFilter
      toCounters := q.toCounters
      status := q.status
      new_status := q.new_status
      flash := q.flash }

/-- A chain of moves takes one association to another. -/
def Moves (c : Cfg α) (now : Nat) (p q : Peer α) : Prop :=
  ∃ mid : List (Inner α), q = mid.foldl (innerMove c now) p

theorem Moves.refl (c : Cfg α) (now : Nat) (p : Peer α) : Moves c now p p := ⟨[], rfl⟩

theorem Moves.trans {c : Cfg α} {now : Nat} {p q r : Peer α} (hpq : Moves c now p q)
    (hqr : Moves c now q r) : Moves c now p r := by
  obtain ⟨xs, rfl⟩ := hpq
  obtain ⟨ys, rfl⟩ := hqr
  exact ⟨xs ++ ys, List.foldl_append.symm⟩

theorem Moves.poll (c : Cfg α) (now rnd : Nat) (p : Peer α) (mpoll : Nat) :
    Moves c now p (pollUpdate c now rnd p mpoll) := ⟨[.poll rnd mpoll], rfl⟩

theorem Moves.marks (c : Cfg α) (now : Nat) (p q : Peer α) :
    Moves c now p (innerMove c now p (.marks q)) := ⟨[.marks q], rfl⟩

variable {c : Cfg α} {now : Nat} {p q : Peer α}

/-- A chain of moves leaves alone what every move does. -/
theorem Moves.same {β : Type} (f : Peer α → β) (hf : ∀ a p, f (innerMove c now p a) = f p)
    (h : Moves c now p q) : f q = f p := by
  obtain ⟨mid, rfl⟩ := h
  induction mid generalizing p with
  | nil => rfl
  | cons a mid ih => exact ih.trans (hf a p)

theorem Moves.ptr (h : Moves c now p q) : q.ptr = p.ptr :=
  h.same (·.ptr) fun a _ => by cases a <;> rfl

/-- The call is one of `newpeer`. -/
def Call.isNewpeer : Call → Bool
  | .newpeer _ => true
  | _ => false

/-- The number of calls of `newpeer` so far. -/
def mobilizations (s : Sys α) : Nat := s.trace.countP Call.isNewpeer

/-- The call is one that an association makes or that makes one, and not a reply to a packet. -/
def Call.isOwn : Call → Bool
  | .newpeer _ => true
  | .sendpkt .. => true
  | _ => false

/-- The calls so far that are not replies. -/
def ownCalls (s : Sys α) : List Call := s.trace.filter Call.isOwn

theorem mobilizations_eq (s : Sys α) : mobilizations s = (ownCalls s).countP Call.isNewpeer := by
  rw [ownCalls, List.countP_filter]
  apply List.countP_congr
  intro x _
  cases x with
  | newpeer a => simp [Call.isOwn]
  | _ => simp [Call.isNewpeer]

end

section

variable {α : Type} [Field α] [LinearOrder α]

/-- The associations of `t` are those of `s`, each taken to where the relation
    allows, none was asked for, none has sent anything, and the variables that
    are not about synchronization are kept. -/
structure Acts (R : Peer α → Peer α → Prop) (s t : Sys α) : Prop where
  peers : ∃ f : Peer α → Peer α, t.peer_list = s.peer_list.map f ∧ ∀ p, R p (f p)
  current_time : t.current_time = s.current_time
  initializing : t.initializing = s.initializing
  peer_associations : t.peer_associations = s.peer_associations
  quiet : ownCalls t = ownCalls s

/-- A chain of moves that may end in a clearing, if the clock discipline ever steps the clock. -/
def Stepped (c : Cfg α) (e : Env α) (s : Sys α) (p q : Peer α) : Prop :=
  Moves c s.current_time p q
    ∨ ((∃ x, (e.local_clock x).rval = 2) ∧ ∃ r, Moves c s.current_time p r
      ∧ q = peerClear c e s.current_time (e.ntp_random 3) s.initializing s.peer_associations
        0x53544550 r)

section

omit [LinearOrder α]

theorem Acts.trans {R S T : Peer α → Peer α → Prop} (hRS : ∀ p q r, R p q → S q r → T p r)
    {s t u : Sys α} (hst : Acts R s t) (htu : Acts S t u) : Acts T s u := by
  obtain ⟨f, hf, hfR⟩ := hst.peers
  obtain ⟨g, hg, hgS⟩ := htu.peers
  refine ⟨⟨g ∘ f, by rw [hg, hf, List.map_map], ?_⟩, htu.current_time.trans hst.current_time,
    htu.initializing.trans hst.initializing,
    htu.peer_associations.trans hst.peer_associations, htu.quiet.trans hst.quiet⟩
  intro p
  exact hRS p (f p) (g (f p)) (hfR p) (hgS (f p))

variable {R : Peer α → Peer α → Prop}

theorem Acts.newpeers {s t : Sys α} (h : Acts R s t) : mobilizations t = mobilizations s := by
  rw [mobilizations_eq, mobilizations_eq, h.quiet]

theorem Acts.mono {R S : Peer α → Peer α → Prop} (hRS : ∀ p q, R p q → S p q) {s t : Sys α}
    (h : Acts R s t) : Acts S s t := by
  obtain ⟨f, hf, hfR⟩ := h.peers
  exact { h with peers := ⟨f, hf, fun p => hRS p (f p) (hfR p)⟩ }

theorem Acts.modify (hR : ∀ p, R p p) (s : Sys α) (ptr : Nat) (f : Peer α → Peer α)
    (hf : ∀ p, R p (f p)) : Acts R s (s.modifyPeer ptr f) := by
  refine ⟨⟨fun p => if p.ptr = ptr then f p else p, rfl, ?_⟩, rfl, rfl, rfl, rfl⟩
  intro p
  by_cases h : p.ptr = ptr
  · simp only [h, if_true]
    exact hf p
  · simp only [h, if_false]
    exact hR p

theorem pollSystem_acts (c : Cfg α) (e : Env α) (s : Sys α) (ptr : Nat) :
    Acts (Moves c s.current_time) s (pollSystem c e s ptr) :=
  Acts.modify (Moves.refl c s.current_time) s ptr _ (fun p => Moves.poll c s.current_time _ p _)

/-- A change of variables that are not about associations. -/
theorem Acts.vars (hR : ∀ p, R p p) {s t : Sys α} (hl : t.peer_list = s.peer_list)
    (ht : t.current_time = s.current_time) (hi : t.initializing = s.initializing)
    (ha : t.peer_associations = s.peer_associations) (hm : ownCalls t = ownCalls s) : Acts R s t :=
  ⟨⟨id, by simp [hl], hR⟩, ht, hi, ha, hm⟩

theorem Acts.moves {c : Cfg α} {s t u : Sys α} (hst : Acts (Moves c s.current_time) s t)
    (htu : Acts (Moves c t.current_time) t u) : Acts (Moves c s.current_time) s u := by
  rw [hst.current_time] at htu
  exact Acts.trans (fun p q r hpq hqr => hpq.trans hqr) hst htu

theorem discipline_acts (c : Cfg α) (e : Env α) (r : LocalClock) (s : Sys α) (ptr : Nat) :
    Acts (Moves c s.current_time) s (discipline c e r s ptr) := by
  have hvars : Acts (Moves c s.current_time) s { s with sys_poll := r.sys_poll } :=
    Acts.vars (Moves.refl c s.current_time) rfl rfl rfl rfl rfl
  rw [discipline]
  split
  · exact hvars.moves (pollSystem_acts c e { s with sys_poll := r.sys_poll } ptr)
  · exact hvars

end

theorem Acts.stepped {c : Cfg α} {e : Env α} {s t u : Sys α}
    (hst : Acts (Moves c s.current_time) s t) (htu : Acts (Stepped c e t) t u) :
    Acts (Stepped c e s) s u := by
  refine Acts.trans ?_ hst htu
  rintro p q r hpq (hqr | ⟨hx, v, hqv, hr⟩)
  · rw [hst.current_time] at hqr
    exact .inl (hpq.trans hqr)
  · rw [hst.current_time] at hqv
    rw [hst.current_time, hst.initializing, hst.peer_associations] at hr
    exact .inr ⟨hx, v, hpq.trans hqv, hr⟩

variable (c : Cfg α) (e : Env α) (s : Sys α)

/-- The outcome of the clock discipline clears associations only if the clock was stepped. -/
theorem clockOutcome_acts (x : Peer α) (s : Sys α) :
    Acts (Stepped c e s) s (clockOutcome c e (e.local_clock x).rval s) := by
  have hrefl : ∀ p, Stepped c e s p p := fun p => .inl (Moves.refl c s.current_time p)
  by_cases hexit : (e.local_clock x).rval = -1
  · rw [clockOutcome, if_pos hexit]
    exact Acts.vars hrefl rfl rfl rfl rfl rfl
  by_cases hstep : (e.local_clock x).rval = 2
  · rw [clockOutcome, if_neg hexit, if_pos hstep]
    refine ⟨⟨fun p => if p.cast_flags.txonly then p else peerClear c e s.current_time
      (e.ntp_random 3) s.initializing s.peer_associations 0x53544550 p, rfl, ?_⟩,
      rfl, rfl, rfl, rfl⟩
    -- Only associations that poll are cleared.
    intro p
    by_cases h : p.cast_flags.txonly = true
    · simp only [h, if_true]
      exact hrefl p
    · simp only [h]
      exact .inr ⟨⟨x, hstep⟩, p, Moves.refl c s.current_time p, rfl⟩
  rw [clockOutcome, if_neg hexit, if_neg hstep]
  split
  · exact Acts.vars hrefl rfl rfl rfl rfl rfl
  · exact Acts.vars hrefl rfl rfl rfl rfl rfl

/-- The clock update: `poll_update` on the system peer, and a clearing of all
    associations if the clock was stepped. -/
theorem clockUpdate_acts (ptr : Nat) : Acts (Stepped c e s) s (clockUpdate c e s ptr) := by
  have hvars : Acts (Moves c s.current_time) s (systemVars c e s (s.deref ptr)) :=
    Acts.vars (Moves.refl c s.current_time) rfl rfl rfl rfl rfl
  have hpoll := hvars.moves (pollSystem_acts c e (systemVars c e s (s.deref ptr)) ptr)
  -- Three calls that may move the system peer, then the outcome.
  exact (hpoll.moves (discipline_acts c e _ _ ptr)).stepped (clockOutcome_acts c e _ _)

theorem selectVars_acts : Acts (Moves c s.current_time) s (selectVars c e s) :=
  ⟨⟨markPeer c e s, rfl, fun p => Moves.marks c s.current_time p (markPeer c e s p)⟩,
    rfl, rfl, rfl, rfl⟩

omit [LinearOrder α] in
theorem settleStatus_acts : Acts (Moves c s.current_time) s (settleStatus s) :=
  ⟨⟨fun p => { p with status := p.new_status }, rfl,
    fun p => Moves.marks c s.current_time p { p with status := p.new_status }⟩, rfl, rfl, rfl, rfl⟩

omit [LinearOrder α] in
theorem reportNewpeer_acts (ptr : Nat) : Acts (Moves c s.current_time) s (reportNewpeer s ptr) := by
  rw [reportNewpeer]
  split
  · exact Acts.vars (Moves.refl c s.current_time) rfl rfl rfl rfl rfl
  · exact Acts.modify (Moves.refl c s.current_time) s ptr _
      (fun p => Moves.marks c s.current_time p (reportEvent PEVNT_NEWPEER p))

theorem clockSelect_acts : Acts (Stepped c e s) s (clockSelect c e s) := by
  have hsel := selectVars_acts c e s
  have hset := hsel.moves (settleStatus_acts c (selectVars c e s))
  rw [clockSelect]
  -- No system peer, no new data, or a clock update.
  split
  · have hnone : Acts (Moves c s.current_time) s (noSystemPeer c (selectVars c e s)) :=
      hset.moves (Acts.vars (Moves.refl c _) rfl rfl rfl rfl rfl)
    exact hnone.mono (fun p q h => .inl h)
  · split
    · exact hsel.mono (fun p q h => .inl h)
    · rename_i p _
      exact (hset.moves (reportNewpeer_acts c _ p.ptr)).stepped (clockUpdate_acts c e _ p.ptr)

/-- The end of the filter writes the epoch or the event counters. -/
theorem useStage_moves (now : Nat) (s : Sys α) (k : Fin NTP_SHIFT) (etemp : α) (p : Peer α) :
    Moves c now p (useStage c s k etemp p).1 := by
  rw [useStage]
  split_ifs
  · exact Moves.marks c now p (reportEvent PEVNT_POPCORN p)
  · exact Moves.refl c now p
  · exact Moves.marks c now p { p with epoch := p.filter_epoch[k] }

theorem filterStages_moves (now : Nat) (s : Sys α) (v : Vector (α × Fin NTP_SHIFT) NTP_SHIFT)
    (p : Peer α) : Moves c now p (filterStages c s v p).1 := by
  have hstats : Moves c now p (registerStats v (countStages c v) p) :=
    Moves.marks c now p (registerStats v (countStages c v) p)
  have hadopt : ∀ k m q, Moves c now q (adoptStage c k m q) :=
    fun k m q => Moves.marks c now q (adoptStage c k m q)
  simp only [filterStages]
  split
  · exact hstats
  · exact (hstats.trans (hadopt _ _ _)).trans (useStage_moves c now s _ _ _)

/-- The filter on its own association writes the filter and the counters. -/
theorem filterSample_moves (now : Nat) (s : Sys α) (x : Sample α) (p : Peer α) :
    Moves c now p (filterSample c s x p).1 := by
  have hage : Moves c now p
      (ageStages c s.current_time s.allan_xpt (shiftIn s.current_time x p)).1 :=
    Moves.marks c now p (ageStages c s.current_time s.allan_xpt (shiftIn s.current_time x p)).1
  exact hage.trans (filterStages_moves c now s _ _)

/-- The clock filter: its association is replaced by the filtered one, and
    then the selection may run. -/
theorem clockFilter_acts (x : Sample α) (p : Peer α) :
    ∃ q, Moves c s.current_time p q
      ∧ Acts (Stepped c e s) (s.setPeer q) (clockFilter c e s x p) := by
  refine ⟨(filterSample c s x p).1, filterSample_moves c s.current_time s x p, ?_⟩
  simp only [clockFilter]
  split
  · exact clockSelect_acts c e (s.setPeer (filterSample c s x p).1)
  · exact Acts.vars (t := s.setPeer _) (fun p => .inl (Moves.refl c s.current_time p))
      rfl rfl rfl rfl rfl

end

end NtpSuite
