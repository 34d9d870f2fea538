import NtpSuite.Theory.Touch
import NtpSuite.Core.Receive

/-!
# The Front of the Receive Procedure

What the stages of `receive` before the switch do to the daemon, and what the
peer process does to it after the switch. Neither asks for an association.
Before the switch the only change to an association is that `findpeer` moves
it to the interface the packet came in by.

The stages return early in many places, each time with some counter bumped or
some reply sent. All of this is one relation, `Acts` for equal associations,
so each stage has one lemma and `receiveFront_spec` chains them.

## Main definitions

* `Rebound`: An association moved to another interface.
* `Fronted`: What the stages before the switch may do to the daemon.

## Theorems

* `receiveFront_spec`: The stages before the switch.
* `processPacketSys_quiet`, `receiveMatched_quiet`: The stages after it ask
  for no association.
* `newpeer_calls`: A call of `newpeer` is recorded once.
-/

namespace NtpSuite

variable {α : Type} [Field α] [LinearOrder α]

section

omit [LinearOrder α]

/-- The association may have moved to another interface. -/
def Rebound (p q : Peer α) : Prop := ∃ d, q = { p with dstadr := d }

theorem Rebound.refl (p : Peer α) : Rebound p p := ⟨p.dstadr, rfl⟩

theorem Rebound.ptr {p q : Peer α} (h : Rebound p q) : q.ptr = p.ptr := by
  obtain ⟨d, rfl⟩ := h
  rfl

theorem setPeerdstadr_rebound (p : Peer α) (d : Option Endpt) : Rebound p (setPeerdstadr p d) := by
  simp only [setPeerdstadr]
  split
  · exact Rebound.refl p
  · split
    · split
      · exact Rebound.refl p
      · exact ⟨_, rfl⟩
    · exact ⟨_, rfl⟩

theorem Acts.counters {s t : Sys α} (hl : t.peer_list = s.peer_list)
    (ht : t.current_time = s.current_time) (hi : t.initializing = s.initializing)
    (ha : t.peer_associations = s.peer_associations) (hm : ownCalls t = ownCalls s) : Acts Eq s t :=
  Acts.vars (fun _ => rfl) hl ht hi ha hm

/-- How a stage ends: early, with no change to the associations, or with a result as asked for. -/
def Ends {β : Type} (s : Sys α) (good : β → Prop) : Except (Sys α) β → Prop
  | .error t => Acts Eq s t
  | .ok r => good r

theorem admitPacket_ends (c : Cfg α) (e : Env α) (s : Sys α) (rb : RecvBuf) :
    Ends s (fun r => Acts Eq s r.1) (admitPacket c e s rb) := by
  repeat' (apply iteInduction <;> intro _)
  all_goals exact Acts.counters rfl rfl rfl rfl rfl

variable (e : Env α) (s : Sys α) (rb : RecvBuf) (mode : PktMode)

theorem limit_ends (f : Frame) : Ends s (fun _ => True) (limit e s rb mode f) := by
  repeat' (apply iteInduction <;> intro _)
  all_goals first | exact Acts.counters rfl rfl rfl rfl rfl | exact trivial

theorem authenticate_ends (c : Cfg α) (e : Env α) (s : Sys α) (rb : RecvBuf) (mode : PktMode)
    (mask : ResFlags) (f : Frame) (retcode : AM) :
    Ends s (fun _ => True) (authenticate c e s rb mode mask f retcode) := by
  repeat' (apply iteInduction <;> intro _)
  all_goals first | exact Acts.counters rfl rfl rfl rfl rfl | exact trivial

theorem frameErr_acts (err : FrameErr) : Acts Eq s (frameErr s err) := by
  cases err with
  | badlength | declined => exact Acts.counters rfl rfl rfl rfl rfl

theorem findpeerLoop_mem {s : Sys α} {rb : RecvBuf} {mode : PktMode} {ps : List (Peer α)}
    {p : Peer α} (h : (findpeerLoop s rb mode ps).2 = some p) : p ∈ ps := by
  induction ps with
  | nil => exact absurd h (by simp [findpeerLoop])
  | cons q ps ih =>
    simp only [findpeerLoop] at h
    split_ifs at h
    · obtain rfl := Option.some.inj h
      exact List.mem_cons_self
    · exact List.mem_cons_of_mem _ (ih h)
    · exact List.mem_cons_of_mem _ (ih h)

theorem matchAssoc_code (hmode : HMode) (mode : PktMode) :
    matchAssoc hmode mode = .err ∨ matchAssoc hmode mode = .procpkt
      ∨ matchAssoc hmode mode = .nomatch := by
  cases hmode <;> cases mode <;> decide

/-- The search ends with a match code of an association it found, or with
    that for no association. -/
theorem findpeerLoop_code (ps : List (Peer α)) :
    (findpeerLoop s rb mode ps).1 = .err ∨ (findpeerLoop s rb mode ps).1 = .procpkt
      ∨ (findpeerLoop s rb mode ps).1 = matchNoPeer mode := by
  have hcode : ∀ p, matchCode s rb mode p = .err ∨ matchCode s rb mode p = .procpkt
      ∨ matchCode s rb mode p = .nomatch := by
    intro p
    simp only [matchCode]
    split
    · exact .inl rfl
    · exact matchAssoc_code p.hmode mode
  induction ps with
  | nil => exact .inr (.inr rfl)
  | cons p ps ih =>
    simp only [findpeerLoop]
    split
    · split
      · exact .inl rfl
      · split
        · rcases hcode p with h | h | h
          · exact .inl h
          · exact .inr (.inl h)
          · contradiction
        · exact ih
    · exact ih

theorem findpeer_code :
    (findpeer s rb mode).2.1 = .err ∨ (findpeer s rb mode).2.1 = .procpkt
      ∨ (findpeer s rb mode).2.1 = matchNoPeer mode := by
  have hloop := findpeerLoop_code s rb mode s.peer_list
  rw [findpeer]
  rcases hfind : findpeerLoop s rb mode s.peer_list with ⟨action, _ | p⟩
  · rw [hfind] at hloop
    exact hloop
  · rw [hfind] at hloop
    exact hloop

/-- `t` is `s` with some counters changed and some replies sent, and with at
    most one association moved to another interface. -/
def Fronted (s t : Sys α) : Prop :=
  Acts Eq s t ∨ ∃ p ∈ s.peer_list, ∃ q, Rebound p q ∧ Acts Eq (s.setPeer q) t

theorem Acts.eq_trans {s t u : Sys α} (hst : Acts Eq s t) (htu : Acts Eq t u) : Acts Eq s u :=
  Acts.trans (fun _ _ _ hpq hqr => hpq.trans hqr) hst htu

theorem Acts.peer_list_eq {s t : Sys α} (h : Acts Eq s t) : t.peer_list = s.peer_list := by
  obtain ⟨f, hf, hid⟩ := h.peers
  obtain rfl : f = id := funext (fun p => (hid p).symm)
  rw [hf, List.map_id]

theorem Fronted.trans {s t u : Sys α} (hst : Fronted s t) (htu : Acts Eq t u) : Fronted s u := by
  rcases hst with hst | ⟨p, hp, q, hpq, hst⟩
  · exact .inl (hst.eq_trans htu)
  · exact .inr ⟨p, hp, q, hpq, hst.eq_trans htu⟩

theorem Fronted.newpeers {s t : Sys α} (h : Fronted s t) : mobilizations t = mobilizations s := by
  rcases h with h | ⟨p, hp, q, hpq, h⟩
  · exact h.newpeers
  · exact h.newpeers

/-- The search may move the association it finds, and it hands this very association on. -/
theorem findpeer_spec :
    (findpeer s rb mode).1 = s ∧ (findpeer s rb mode).2.2 = none
      ∨ ∃ p ∈ s.peer_list, (findpeer s rb mode).2.2 = some (setPeerdstadr p (some rb.dstadr))
        ∧ (findpeer s rb mode).1 = s.setPeer (setPeerdstadr p (some rb.dstadr)) := by
  rw [findpeer]
  rcases hfind : findpeerLoop s rb mode s.peer_list with ⟨action, _ | p⟩
  · exact .inl ⟨rfl, rfl⟩
  · exact .inr ⟨p, findpeerLoop_mem (congrArg Prod.snd hfind), rfl, rfl⟩

/-- Before the search nothing happens to the associations, so the search goes
    over those of the start. -/
theorem findpeer_fronted {s t : Sys α} (h : Acts Eq s t) (rb : RecvBuf) (mode : PktMode) :
    Fronted s (findpeer t rb mode).1 := by
  rcases findpeer_spec t rb mode with ⟨heq, -⟩ | ⟨p, hp, -, heq⟩
  · rw [heq]
    exact .inl h
  · rw [heq]
    rw [h.peer_list_eq] at hp
    refine .inr ⟨p, hp, _, setPeerdstadr_rebound p (some rb.dstadr), ?_⟩
    -- The counters changed before and the move commute.
    refine Acts.counters ?_ h.current_time h.initializing h.peer_associations h.quiet
    rw [Sys.setPeer, Sys.setPeer, h.peer_list_eq]

/-- How the stages before the switch end: early, or with a packet whose
    association, if it has one, was found by the search. -/
theorem receiveFront_spec (c : Cfg α) (e : Env α) (s : Sys α) (rb : RecvBuf) :
    (∃ t, receiveFront c e s rb = .error t ∧ Fronted s t)
      ∨ ∃ t rx, Acts Eq s t
        ∧ receiveFront c e s rb = .ok ((findpeer t rb rx.hismode).1, rx,
          (findpeer t rb rx.hismode).2.1, (findpeer t rb rx.hismode).2.2) := by
  simp only [receiveFront]
  have hs := admitPacket_ends c e s rb
  -- Each stage ends the packet or hands it to the next.
  rcases hadm : admitPacket c e s rb with t | ⟨t, mode⟩
  · rw [hadm] at hs
    exact .inl ⟨t, rfl, .inl hs⟩
  rw [hadm] at hs
  rcases hframe : parseFrame c rb with err | f
  · exact .inl ⟨_, rfl, .inl (hs.eq_trans (frameErr_acts t err))⟩
  have hl := limit_ends e t rb mode f
  rcases hlimit : limit e t rb mode f with u | mask
  · rw [hlimit] at hl
    exact .inl ⟨u, by simp only [hlimit], .inl (hs.eq_trans hl)⟩
  -- Authentication comes after the search, so the association has moved.
  have ha := authenticate_ends c e (findpeer t rb mode).1 rb mode mask f (findpeer t rb mode).2.1
  rcases hauth : authenticate c e (findpeer t rb mode).1 rb mode mask f (findpeer t rb mode).2.1
    with u | y
  · rw [hauth] at ha
    exact .inl ⟨u, by simp only [hlimit, hauth], (findpeer_fronted hs rb mode).trans ha⟩
  · refine .inr ⟨t, mkRx c e rb mode mask f (findpeer t rb mode).2.2 y, hs, ?_⟩
    simp only [hlimit, hauth]
    rfl

end

theorem newpeer_calls (c : Cfg α) (e : Env α) (s : Sys α) (a : NewPeer) :
    mobilizations (newpeer c e s a).1 = mobilizations s + 1 := by
  have hlog : mobilizations (s.log (.newpeer a)) = mobilizations s + 1 := by
    rw [mobilizations, Sys.log, List.countP_cons]
    rfl
  -- Taking a structure from the free list is not a call.
  have htake : ∀ t : Sys α, t.takePeer.2.trace = t.trace := by
    intro t
    rw [Sys.takePeer]
    split
    · rfl
    · rfl
  simp only [newpeer]
  split
  · exact hlog
  · split
    · exact (congrArg (List.countP Call.isNewpeer) (htake _)).trans hlog
    · exact (congrArg (List.countP Call.isNewpeer) (htake _)).trans hlog

theorem processPacketSys_quiet (c : Cfg α) (e : Env α) (s : Sys α) (pkt : Pkt) (p : Peer α) :
    mobilizations (processPacketSys c e s pkt p) = mobilizations s := by
  simp only [processPacketSys]
  split
  · rfl
  · rename_i q x _
    obtain ⟨r, -, hacts⟩ := clockFilter_acts c e ((countProcessed s).setPeer q) x q
    exact hacts.newpeers

theorem receiveMatched_quiet (c : Cfg α) (e : Env α) (s : Sys α) (rx : Rx) (p : Peer α) :
    mobilizations (receiveMatched c e s rx p) = mobilizations s := by
  have hnak : mobilizations (if nakReply rx p then s.log (.fastXmit .active 0) else s)
      = mobilizations s := by
    split
    · rfl
    · rfl
  simp only [receiveMatched]
  split
  · rfl
  · split
    · exact hnak
    · exact hnak
    · exact (processPacketSys_quiet c e _ rx.pkt _).trans hnak

end NtpSuite
