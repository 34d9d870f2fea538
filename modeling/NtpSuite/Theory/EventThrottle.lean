import NtpSuite.Core.CtlServer
import NtpSuite.Lib.Run

/-!
# Which Events Are Reported

`report_event` drops an event that repeats the last one too often. For the system the
counter starts again when the code changes, so the first fifteen of a series are reported
and every new code is. For an association the comparison is the other way round: the
counter starts again when the code is repeated. A series is reported to its end, and a
new code is dropped after fifteen events with no repetition.

The events so far are kept beside the counter, the last one first.

## Main definitions

* `series`, `changes`: How often the code came last, and how long it kept changing.
* `Throttled`: The first events of a series are reported, and no others.
* `Varied`: A series is short, and so is a time without a repetition.

## Theorems

* `report_sysEvent`, `discards_peerEvent`: The counters are those of the server.
* `event_throttling`: What is reported of the system and of an association.
-/

namespace NtpSuite.Control

/-! ### The counters of the server -/

namespace CtlSrv

/-- The counter of system events. -/
def sysCount (h : CtlSrv) : EventCount := ⟨h.ctl_sys_last_event, h.ctl_sys_num_events⟩

theorem report_sysEvent (env : CtlEnv) {h : CtlSrv} {ev : Event} (hgo : h.ctl.stopped = false)
    (hsys : ev.peer = none) :
    h.discards ev = !(sysEvent ev.err h.sysCount).1 ∧
      (h.report env ev).sysCount = (sysEvent ev.err h.sysCount).2 := by
  have hevent : sysEvent ev.err h.sysCount =
      h.sysCount.count CTL_SYS_MAXEVENTS (h.sysEvents ev.err) ev.err := rfl
  have hdisc : h.discards ev = decide (h.sysEvents ev.err ≥ CTL_SYS_MAXEVENTS) := by
    unfold discards
    rw [hsys]
  unfold report EventCount.count at *
  rw [hevent, hdisc, hgo]
  by_cases hmax : h.sysEvents ev.err ≥ CTL_SYS_MAXEVENTS
  · simp [hmax, hsys, sysCount]
  · simp only [hmax, hsys, sysCount, countEvent]
    split_ifs <;> simp_all

end CtlSrv

theorem discards_peerEvent (p : EventPeer) (err : BitVec 8) :
    p.discards err = !(peerEvent err ⟨p.last_event, p.num_events⟩).1 := by
  unfold EventPeer.discards peerEvent EventCount.count errlast
  split_ifs <;> simp_all

/-! ### Series -/

section Series

variable (event : BitVec 8 → EventCount → Bool × EventCount) (code : BitVec 8 → BitVec 8)

/-- A call: the counter, and the codes so far. -/
def eventStep (s : EventCount × List (BitVec 8)) (err : BitVec 8) :
    EventCount × List (BitVec 8) :=
  ((event err s.1).2, code err :: s.2)

/-- How often the code came last, without another one in between. -/
def series (c : BitVec 8) (past : List (BitVec 8)) : Nat := (past.takeWhile (· = c)).length

/-- The number of codes since the last one that was repeated. -/
def changes : List (BitVec 8) → Nat
  | [] => 0
  | [_] => 1
  | c :: d :: past => if c = d then 1 else changes (d :: past) + 1

/-- The first events of a series are reported, and no others. -/
def Throttled (maxevents : Nat) (s : EventCount × List (BitVec 8)) (err : BitVec 8) : Prop :=
  (event err s.1).1 = decide (series (code err) s.2 < maxevents)

/-- A repeated code has not come too often, and for a new one there was a repetition not
    long ago. -/
def Varied (maxevents : Nat) (s : EventCount × List (BitVec 8)) (err : BitVec 8) : Prop :=
  if s.2.head? = some (code err) then series (code err) s.2 < maxevents
  else changes s.2 < maxevents

end Series

variable {c : BitVec 8} {past : List (BitVec 8)}

theorem series_cons (c : BitVec 8) (past : List (BitVec 8)) :
    series c (c :: past) = series c past + 1 := by
  simp [series]

theorem series_eq_zero (h : past.head? ≠ some c) : series c past = 0 := by
  cases past with
  | nil => rfl
  | cons d past =>
    have hne : d ≠ c := fun heq => h (congrArg some heq)
    simp [series, hne]

theorem changes_cons (h : past.head? ≠ some c) : changes (c :: past) = changes past + 1 := by
  cases past with
  | nil => rfl
  | cons d past =>
    have hne : c ≠ d := fun heq => h (congrArg some heq.symm)
    exact if_neg hne

/-- The counter of the system has the last code and counts its series. -/
structure SysKept (s : EventCount × List (BitVec 8)) : Prop where
  last : ∀ c, s.2.head? = some c → s.1.last_event = c
  num : s.1.num_events = min (series s.1.last_event s.2) CTL_SYS_MAXEVENTS

variable (s : EventCount × List (BitVec 8)) (err : BitVec 8)

theorem sysEvent_throttled (h : SysKept s) :
    Throttled sysEvent id CTL_SYS_MAXEVENTS s err ∧ SysKept (eventStep sysEvent id s err) := by
  obtain ⟨hlast, hnum⟩ := h
  unfold Throttled eventStep sysEvent EventCount.count
  by_cases hsame : s.1.last_event = err
  · subst hsame
    simp only [ne_eq, not_true_eq_false, if_false, id]
    split_ifs with hmax
    · refine ⟨by rw [decide_eq_false]; omega, fun c heq => Option.some.inj heq, ?_⟩
      simp only [series_cons]
      omega
    · refine ⟨by rw [decide_eq_true]; omega, fun c heq => Option.some.inj heq, ?_⟩
      simp only [series_cons]
      omega
  · have hzero : series err s.2 = 0 := series_eq_zero fun heq => hsame (hlast err heq)
    rw [if_pos hsame, if_neg (by decide)]
    refine ⟨by rw [id, hzero]; rfl, fun c heq => Option.some.inj heq, ?_⟩
    simp only [id, series_cons, hzero]
    rfl

/-- The counter of an association has the last code and counts the changes. -/
structure PeerKept (s : EventCount × List (BitVec 8)) : Prop where
  last : ∀ c, s.2.head? = some c → s.1.last_event = c
  num : s.1.num_events = changes s.2

theorem peerEvent_same {s : EventCount × List (BitVec 8)} {err : BitVec 8} (h : PeerKept s)
    (hhead : s.2.head? = some (errlast err)) : peerEvent err s.1 = (true, ⟨errlast err, 1⟩) := by
  unfold peerEvent
  rw [if_pos (h.last _ hhead)]
  rfl

theorem peerEvent_new {s : EventCount × List (BitVec 8)} {err : BitVec 8} (h : PeerKept s)
    (hhead : s.2.head? ≠ some (errlast err)) :
    peerEvent err s.1 = s.1.count CTL_PEER_MAXEVENTS (changes s.2) (errlast err) := by
  unfold peerEvent
  split_ifs with hlast
  · cases hpast : s.2 with
    | nil => rfl
    | cons d past =>
      rw [hpast] at hhead
      exact absurd (congrArg some ((h.last d (by rw [hpast]; rfl)).symm.trans hlast)) hhead
  · rw [h.num]

theorem peerEvent_throttled (h : PeerKept s) :
    Throttled peerEvent errlast CTL_PEER_MAXEVENTS s err ↔
      Varied errlast CTL_PEER_MAXEVENTS s err := by
  unfold Throttled Varied
  split_ifs with hhead
  · rw [peerEvent_same h hhead]
    simp
  · rw [peerEvent_new h hhead, series_eq_zero hhead]
    unfold EventCount.count
    split_ifs with hmax
    · exact iff_of_false Bool.false_ne_true (not_lt.mpr hmax)
    · exact iff_of_true rfl (not_le.mp hmax)

theorem PeerKept.step (h : PeerKept s) (hvaried : Varied errlast CTL_PEER_MAXEVENTS s err) :
    PeerKept (eventStep peerEvent errlast s err) := by
  unfold Varied at hvaried
  unfold eventStep
  split_ifs at hvaried with hhead
  · rw [peerEvent_same h hhead]
    refine ⟨fun c heq => Option.some.inj heq, ?_⟩
    obtain ⟨past, hpast⟩ := List.head?_eq_some_iff.mp hhead
    rw [hpast]
    exact (if_pos rfl).symm
  · rw [peerEvent_new h hhead, EventCount.count, if_neg (not_le.mpr hvaried)]
    exact ⟨fun c heq => Option.some.inj heq, (changes_cons hhead).symm⟩

/-- Of every series of system events the first fifteen are reported, and no others. For
    an association this is so if and only if no series is longer and no more than fifteen
    events come without a repetition. -/
theorem event_throttling (errs : List (BitVec 8)) :
    Run.Meets (eventStep sysEvent id) (Throttled sysEvent id CTL_SYS_MAXEVENTS) ({}, []) errs ∧
    (Run.Meets (eventStep peerEvent errlast) (Throttled peerEvent errlast CTL_PEER_MAXEVENTS)
        ({}, []) errs ↔
      Run.Meets (eventStep peerEvent errlast) (Varied errlast CTL_PEER_MAXEVENTS)
        ({}, []) errs) := by
  constructor
  · have hstart : SysKept ({}, []) := ⟨nofun, rfl⟩
    refine (Run.meets_congr _ ?_ ?_ errs hstart).mpr (Run.meets_true _ _ errs)
    · exact fun s err h => iff_true_intro (sysEvent_throttled s err h).1
    · exact fun s err h _ => (sysEvent_throttled s err h).2
  · have hstart : PeerKept ({}, []) := ⟨nofun, rfl⟩
    exact Run.meets_congr _ peerEvent_throttled PeerKept.step errs hstart

/-- Sixteen new codes, of which the last is dropped, and sixteen of the same kind, of which
    all are reported. -/
theorem peer_events_reversed :
    (peerEvent 0x82 (Run.exec (eventStep peerEvent errlast) ({}, [])
      (0x81 :: (List.replicate 7 [0x82, 0x81]).flatten)).1).1 = false ∧
    (peerEvent 0x81 (Run.exec (eventStep peerEvent errlast) ({}, [])
      (List.replicate 15 0x81)).1).1 = true := by
  decide

end NtpSuite.Control
