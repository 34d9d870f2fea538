import NtpSuite.Core.Select

/-!
# The Clock Filter

`clock_filter`: a sample is shifted into the eight-stage register of its
association, the stages are sorted by distance, and the best of them gives
the statistics the selection works with.

The filter proper touches one association and says whether the selection is
to run. `clockFilter` runs it.

## Main definitions

* `shiftIn`: Put a sample in the register.
* `ageStages`: Age the other stages and compute their distances.
* `sortStages`: The exchange sort of the stages.
* `filterSample`: The filter on one association.
* `clockFilter`: The filter in the daemon.
-/

namespace NtpSuite

variable {α : Type} [Field α] [LinearOrder α]

def PEVNT_POPCORN : Nat := 13

/-- Shift a sample into the register in place of the oldest one. -/
def shiftIn (now : Nat) (x : Sample α) (p : Peer α) : Peer α :=
  let j := p.filter_nextpt
  { p with
    filter_offset := p.filter_offset.set j x.offset
    filter_delay := p.filter_delay.set j x.delay
    filter_disp := p.filter_disp.set j x.disp
    filter_epoch := p.filter_epoch.set j now
    filter_nextpt := j + 1 }

/-- The stage with rank `i` by age, the newest first. -/
def stageAt (p : Peer α) (i : Fin NTP_SHIFT) : Fin NTP_SHIFT :=
  p.filter_nextpt + (7 - i)

/-- Increase the dispersion of every stage but the newest, to a limit. -/
def ageDisp (dtemp : α) (p : Peer α) : Peer α :=
  { p with
    filter_disp := Vector.ofFn (fun j =>
      -- The newest stage is the one before the next free place.
      let v := if j + 1 = p.filter_nextpt then p.filter_disp[j] else p.filter_disp[j] + dtemp
      if v ≥ MAXDISPERSE then MAXDISPERSE else v) }

/-- The distance of a stage: the delay, with the dispersion added once the
    sample is older than the Allan intercept. -/
def stageDistance (allan_xpt : Int) (p : Peer α) (j : Fin NTP_SHIFT) : α :=
  if p.filter_disp[j] ≥ MAXDISPERSE then MAXDISPERSE
  else if p.update - p.filter_epoch[j] > 2 ^ allan_xpt.toNat then
    p.filter_delay[j] + p.filter_disp[j]
  else p.filter_delay[j]

/-- Age the register and list its stages by age with their distances. -/
def ageStages (c : Cfg α) (now : Nat) (allan_xpt : Int) (p : Peer α) :
    Peer α × Vector (α × Fin NTP_SHIFT) NTP_SHIFT :=
  let dtemp := c.clock_phi * ((now - p.update : Nat) : α)
  let p := ageDisp dtemp { p with update := now }
  (p, Vector.ofFn (fun i => (stageDistance allan_xpt p (stageAt p i), stageAt p i)))

/-- The exchange sort of the stages by distance. -/
def sortStages (v : Vector (α × Fin NTP_SHIFT) NTP_SHIFT) :
    Vector (α × Fin NTP_SHIFT) NTP_SHIFT :=
  (List.finRange NTP_SHIFT).foldl (fun v i =>
    ((List.finRange NTP_SHIFT).filter (fun j => j < i)).foldl (fun v (j : Fin NTP_SHIFT) =>
      if v[j].1 > v[i].1 then v.swap j i else v) v) v

/-- The number of acceptable samples. -/
def countStages (c : Cfg α) (v : Vector (α × Fin NTP_SHIFT) NTP_SHIFT) : Nat :=
  v.toList.foldl (fun m x =>
    -- Below the maximum two samples are accepted however far away they are.
    if x.1 ≥ MAXDISPERSE ∨ (m ≥ 2 ∧ x.1 ≥ c.sys_maxdist) then m else m + 1) 0

/-- The dispersion: the dispersions of the stages weighted exponentially. -/
def filterDisp (p : Peer α) (v : Vector (α × Fin NTP_SHIFT) NTP_SHIFT) : α :=
  v.toList.foldr (fun x disp => (disp + p.filter_disp[x.2]) / 2) 0

/-- The sum of the squared offset differences of the first `m` stages from the best one. -/
def filterJitter (p : Peer α) (v : Vector (α × Fin NTP_SHIFT) NTP_SHIFT) (m : Nat) : α :=
  ((v.toList.take m).map (fun x =>
    (p.filter_offset[x.2] - p.filter_offset[v[0].2]) ^ 2)).sum

/-- The sample is a popcorn spike. -/
def isPopcorn (c : Cfg α) (p : Peer α) (k : Fin NTP_SHIFT) (etemp : α) : Bool :=
  decide (p.disp < c.sys_maxdist) && decide (p.filter_disp[k] < c.sys_maxdist)
    && decide (etemp > 3 * p.jitter) && decide (p.epoch ≤ p.filter_epoch[k])
    && decide (p.filter_epoch[k] - p.epoch < 2 * 2 ^ p.hpoll)

/-- The dispersion and jitter of the register, from its stages in order. -/
def registerStats (v : Vector (α × Fin NTP_SHIFT) NTP_SHIFT) (m : Nat) (p : Peer α) : Peer α :=
  { p with
    filter_order := v.map (fun x => x.2.val)
    disp := filterDisp p v
    jitter := filterJitter p v m }

/-- Take over the offset and delay of the best stage. The jitter must not be
    less than the precision. -/
def adoptStage (c : Cfg α) (k : Fin NTP_SHIFT) (m : Nat) (p : Peer α) : Peer α :=
  { p with
    offset := p.filter_offset[k]
    delay := p.filter_delay[k]
    jitter := max (c.sqrt (if m > 1 then p.jitter / ((m - 1 : Nat) : α) else p.jitter))
      (logToD c.sys_precision) }

/-- What becomes of the best stage: a popcorn spike is ignored, a sample used before is not used
    again, and a new one tickles the selection unless a burst is going on. -/
def useStage (c : Cfg α) (s : Sys α) (k : Fin NTP_SHIFT) (etemp : α) (p : Peer α) :
    Peer α × Bool :=
  if isPopcorn c p k etemp then (reportEvent PEVNT_POPCORN p, false)
  else if p.filter_epoch[k] ≤ p.epoch then (p, false)
  else ({ p with epoch := p.filter_epoch[k] }, p.burst == 0 || s.sys_leap == .notinsync)

/-- The filter once the stages are in order. With no acceptable sample left
    only the dispersion is updated. -/
def filterStages (c : Cfg α) (s : Sys α) (v : Vector (α × Fin NTP_SHIFT) NTP_SHIFT)
    (p : Peer α) : Peer α × Bool :=
  let m := countStages c v
  let k := v[0].2
  let q := registerStats v m p
  if m = 0 then (q, true)
  else useStage c s k |q.offset - q.filter_offset[k]| (adoptStage c k m q)

/-- `clock_filter` on its association. The result tells whether the selection is to run. The stages
    are sorted once the clock has stabilized. -/
def filterSample (c : Cfg α) (s : Sys α) (x : Sample α) (p : Peer α) : Peer α × Bool :=
  let r := ageStages c s.current_time s.allan_xpt (shiftIn s.current_time x p)
  filterStages c s (if s.freq_cnt = 0 then sortStages r.2 else r.2) r.1

/-- `clock_filter`. -/
def clockFilter (c : Cfg α) (e : Env α) (s : Sys α) (x : Sample α) (p : Peer α) : Sys α :=
  let r := filterSample c s x p
  let s := s.setPeer r.1
  if r.2 then clockSelect c e s else s

end NtpSuite
