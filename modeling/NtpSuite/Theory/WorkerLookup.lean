import NtpSuite.Theory.WorkerDesk
import NtpSuite.Lib.Fair

/-!
# Every Lookup Completes Once

What becomes of the requests that were accepted.

First the accounts. A `Ticket` is what the requester sees of its request: the
kind, the function to be called back and its context, and the number under
which it was accepted. A request is in one place at a time, waiting in a slot
or with the worker or among its answers, and no step of the desk loses or
doubles one. `Settled` says so with multisets over all slots.

Then the progress. `Load.distance` counts the turns until the answer to a
ticket is collected, and `Load.turn` says whose turn it is. A step of the desk
brings the ticket nearer to its end, or else was not that turn. By the rule of
ranks a fair schedule ends every ticket.

## Main definitions

* `Ticket`: A request as its requester sees it.
* `Settled`: Every accepted ticket is in one place.
* `Load.distance`, `Load.turn`: How far a ticket is from its end, and who has
  to do something about it.
* `FairSchedule`: The threads get their turns.

## Theorems

* `settled_step`: No step loses or doubles a ticket.
* `progress_step`: A step brings a ticket nearer, or was not its turn.
* `lookup_completes`: A fair schedule ends every ticket.
* `queued_lookups_complete`: Every queued lookup completes exactly once.
-/

namespace NtpSuite

open List Load
open Multiset (card_add coe_card mem_add nodup_of_le)

/-! ### The accounts -/

/-- A request as its requester sees it. -/
structure Ticket where
  serial : Nat
  rtype : WorkReq
  done_func : Nat
  context : Nat
deriving DecidableEq, Repr

/-- The ticket behind a header, of a request or of its answer. -/
def PipeHeader.ticket (hdr : PipeHeader) : Ticket where
  serial := hdr.serial
  rtype := hdr.rtype
  done_func := hdr.done_func
  context := hdr.context

variable {d' : Desk} {j slots : Nat} {l' m : Load} {g g' p p' : Multiset Ticket} {s : WorkerSys}

@[simp] theorem ticket_answer (req : PipeHeader) (respsize : Nat) :
    (answer req respsize).ticket = req.ticket := rfl

/-- The tickets of a list of headers. -/
def tickets (hdrs : List PipeHeader) : Multiset Ticket :=
  Multiset.ofList (hdrs.map PipeHeader.ticket)

@[simp] theorem tickets_nil : tickets [] = 0 := rfl

variable (hdr : PipeHeader) (hdrs : List PipeHeader)

@[simp] theorem tickets_cons :
    tickets (hdr :: hdrs) = {hdr.ticket} + tickets hdrs := rfl

@[simp] theorem tickets_append (hdrs' : List PipeHeader) :
    tickets (hdrs ++ hdrs') = tickets hdrs + tickets hdrs' := by
  unfold tickets
  rw [map_append]
  rfl

theorem card_tickets : (tickets hdrs).card = hdrs.length := by
  unfold tickets
  rw [coe_card, length_map]

variable {k : Ticket} (part : Load → List PipeHeader) {loads : List (Option Load)} {i : Nat}
  {d : Desk} (perQuery : Bool) {l : Load} {e : WorkerEvent}

theorem mem_tickets {hdrs : List PipeHeader} :
    k ∈ tickets hdrs ↔ k ∈ hdrs.map PipeHeader.ticket := Iff.rfl

theorem mem_tickets_append {hdrs hdrs' : List PipeHeader} :
    k ∈ tickets (hdrs ++ hdrs') ↔ k ∈ tickets hdrs ∨ k ∈ tickets hdrs' := by
  rw [tickets_append, mem_add]

/-- What the worker has taken and not yet delivered. -/
def Load.held (l : Load) : List PipeHeader := l.busy.toList ++ l.answers

/-- The tickets of one part of all loads. -/
def gather (part : Load → List PipeHeader) (loads : List (Option Load)) : Multiset Ticket :=
  (loads.map fun o => tickets (part (o.getD {}))).sum

theorem gather_set {o : Option Load} (l : Load) (h : loads[i]? = some o) :
    gather part (loads.set i (some l)) + tickets (part (o.getD {})) =
      gather part loads + tickets (part l) := by
  unfold gather
  induction loads generalizing i with
  | nil => cases h
  | cons x xs ih =>
    cases i with
    | zero =>
      cases h
      simp only [set_cons_zero, map_cons, sum_cons, Option.getD_some]
      ac_rfl
    | succ i =>
      have hi := ih h
      simp only [set_cons_succ, map_cons, sum_cons, add_assoc, hi]

theorem gather_append_none (hpart : part {} = []) (loads : List (Option Load)) (n : Nat) :
    gather part (loads ++ List.replicate n none) = gather part loads := by
  unfold gather
  simp [hpart]

theorem gather_exits (hpart : ∀ l exits, part { l with exits := exits } = part l)
    (loads : List (Option Load)) :
    gather part (loads.map (·.map fun l => { l with exits := l.exits + 1 })) =
      gather part loads := by
  unfold gather
  rw [map_map]
  congr 1
  apply map_congr_left
  intro o _
  cases o with
  | none => rfl
  | some l =>
    simp only [Function.comp_apply, Option.map_some, Option.getD_some]
    rw [hpart]

theorem exists_of_mem_gather {part : Load → List PipeHeader} (h : k ∈ gather part loads) :
    ∃ (i : Nat) (o : Option Load), loads[i]? = some o ∧ k ∈ tickets (part (o.getD {})) := by
  unfold gather at h
  induction loads with
  | nil => simp at h
  | cons x xs ih =>
    rw [map_cons, sum_cons, mem_add] at h
    rcases h with hx | hxs
    · exact ⟨0, x, rfl, hx⟩
    · obtain ⟨i, o, ho, hk⟩ := ih hxs
      exact ⟨i + 1, o, ho, hk⟩

theorem Desk.load_of_mem_gather {part : Load → List PipeHeader} (hpart : part {} = [])
    (h : k ∈ gather part d.loads) : ∃ i l, d.load i = some l ∧ k ∈ tickets (part l) := by
  obtain ⟨i, o, ho, hk⟩ := exists_of_mem_gather h
  cases o with
  | none =>
    rw [Option.getD_none, hpart] at hk
    cases hk
  | some l =>
    refine ⟨i, l, ?_, hk⟩
    unfold Desk.load
    rw [ho]
    rfl

/-- Every accepted ticket is in one place: it waits, or it was taken; and then
    it is with its worker, or it was completed. -/
structure Settled (d : Desk) : Prop where
  taken : tickets d.accepted = tickets d.taken + gather Load.works d.loads
  completed : tickets d.taken = tickets d.completed + gather Load.held d.loads
  pending : d.pending =
    (gather Load.works d.loads).card + (gather Load.held d.loads).card
  serials : d.accepted.map PipeHeader.serial = List.range d.accepted.length

theorem Settled.start :
    Settled (deskOf { worker_per_query := perQuery }) where
  taken := rfl
  completed := rfl
  pending := rfl
  serials := rfl

theorem Desk.getElem?_of_load (h : d.load i = some l) : d.loads[i]? = some (some l) :=
  Option.join_eq_some_iff.mp h

theorem gather_load (l' : Load) (h : d.load i = some l) :
    gather part (d.loads.set i (some l')) + tickets (part l) =
      gather part d.loads + tickets (part l') :=
  gather_set part l' (Desk.getElem?_of_load h)

/-- A slot made for a request is as good as an empty one. -/
theorem Desk.getElem?_append_none (d : Desk) (hi : i < d.loads.length + slots) :
    ∃ o, (d.loads ++ List.replicate slots none)[i]? = some o ∧
      o.getD {} = (d.load i).getD {} := by
  have hlen : i < (d.loads ++ List.replicate slots none).length := by
    rw [length_append, length_replicate]
    exact hi
  refine ⟨_, List.getElem?_eq_getElem hlen, ?_⟩
  unfold Desk.load
  rw [← join_getElem?_append d.loads slots i, List.getElem?_eq_getElem hlen]
  rfl

theorem gather_queue (hpart : part {} = []) (d : Desk) (l' : Load)
    (hi : i < d.loads.length + slots) (hl : (d.load i).getD {} = l) :
    gather part ((d.loads ++ List.replicate slots none).set i (some l')) + tickets (part l) =
      gather part d.loads + tickets (part l') := by
  obtain ⟨o, ho, hload⟩ := d.getElem?_append_none hi
  have hset := gather_set part l' ho
  rw [gather_append_none part hpart, hload, hl] at hset
  exact hset

theorem gained {x : Multiset Ticket} (h : g' + p = g + p') (hp : p' = p + x) : g' = g + x := by
  apply add_right_cancel (b := p)
  rw [h, hp]
  ac_rfl

theorem lost {x : Multiset Ticket} (h : g' + p = g + p') (hp : p = p' + x) : g = g' + x := by
  apply add_right_cancel (b := p')
  rw [← h, hp]
  ac_rfl

theorem unmoved (h : g' + p = g + p') (hp : p' = p) : g' = g := by
  rw [hp] at h
  exact add_right_cancel h

theorem Settled.collect (h : Settled d) (hl : d.load i = some l)
    (hworks : tickets l'.works = tickets l.works)
    (hheld : tickets l.held = tickets l'.held + tickets l.answers) :
    Settled { d with
      loads := d.loads.set i (some l')
      completed := d.completed ++ l.answers
      pending := d.pending - l.answers.length } := by
  obtain ⟨htaken, hcompleted, hpending, hserials⟩ := h
  have hw := unmoved (gather_load Load.works l' hl) hworks
  have hh := lost (gather_load Load.held l' hl) hheld
  refine ⟨?_, ?_, ?_, hserials⟩
  · rw [hw]
    exact htaken
  · rw [tickets_append, hcompleted, hh]
    ac_rfl
  · have hcard := congrArg Multiset.card hh
    rw [card_add, card_tickets] at hcard
    rw [hw, hpending, hcard]
    push_cast
    ring

theorem Settled.same (h : Settled d) (hw : gather Load.works loads = gather Load.works d.loads)
    (hh : gather Load.held loads = gather Load.held d.loads) :
    Settled { d with loads := loads } where
  taken := by rw [hw]; exact h.taken
  completed := by rw [hh]; exact h.completed
  pending := by rw [hw, hh]; exact h.pending
  serials := h.serials

/-- A worker that does not run has nothing to do. -/
def Desk.Calm (d : Desk) : Prop :=
  ∀ i l, d.load i = some l → l.phase ≠ .running → l.works = [] ∧ l.busy = none

theorem settled_step (h : Settled d) (hcalm : d.Calm) (hstep : DeskStep d e d') :
    Settled d' := by
  cases hstep with
  | idle => exact h
  | queue rtype reqsize done_func context i slots l hdr hi hl hexits hphase hserial =>
    have hw := gained (gather_queue Load.works rfl d (l.addWork hdr) hi hl)
      (tickets_append l.works [hdr])
    have hh := unmoved (gather_queue Load.held rfl d (l.addWork hdr) hi hl) rfl
    refine ⟨?_, ?_, ?_, ?_⟩
    · rw [hw, tickets_append, h.taken]
      ac_rfl
    · rw [hh]
      exact h.completed
    · have hcard := congrArg Multiset.card hw
      rw [card_add, card_tickets] at hcard
      rw [hh, hcard, h.pending]
      push_cast
      simp only [length_singleton, Nat.cast_one]
      ring
    · simp only [map_append, map_cons, map_nil, length_append, length_singleton]
      rw [range_succ, h.serials, hserial]
  | receiveWork i l hdr works hl hp hb hw =>
    have hworks : gather Load.works d.loads = _ + tickets [hdr] :=
      lost (gather_load Load.works { l with works := works, busy := some hdr } hl) (by
        rw [hw, add_comm]
        rfl)
    have hheld : gather Load.held _ = gather Load.held d.loads + tickets [hdr] :=
      gained (gather_load Load.held { l with works := works, busy := some hdr } hl) (by
        unfold Load.held
        rw [hb, Option.toList_none, Option.toList_some, nil_append, tickets_append, add_comm])
    refine ⟨?_, ?_, ?_, h.serials⟩
    · rw [tickets_append, h.taken, hworks]
      ac_rfl
    · rw [tickets_append, h.completed, hheld]
      ac_rfl
    · have hcard := congrArg Multiset.card hworks
      have hcard' := congrArg Multiset.card hheld
      rw [card_add] at hcard hcard'
      rw [hcard', h.pending, hcard]
      push_cast
      ring
  | receiveExit i l exits hl hp hb hw he =>
    exact h.same
      (unmoved (gather_load Load.works { l with exits := exits, phase := .leaving } hl) rfl)
      (unmoved (gather_load Load.held { l with exits := exits, phase := .leaving } hl) rfl)
  | respond i respsize l req hl hp hb =>
    refine h.same (unmoved (gather_load Load.works _ hl) rfl)
      (unmoved (gather_load Load.held _ hl) ?_)
    unfold Load.held
    rw [hb, Option.toList_none, nil_append, tickets_append,
      add_comm]
    rfl
  | collect i l exits hl hp =>
    refine h.collect hl rfl ?_
    unfold Load.held
    rw [tickets_append, append_nil]
  | collectGone i l exits hl hp =>
    -- A worker that leaves has nothing that the cleanup could lose.
    obtain ⟨hworks, hbusy⟩ := hcalm i l hl (by rw [hp]; decide)
    refine h.collect hl (by rw [hworks]) ?_
    unfold Load.held
    rw [hbusy]
    rfl
  | dismiss =>
    exact h.same (gather_exits Load.works (fun _ _ => rfl) d.loads)
      (gather_exits Load.held (fun _ _ => rfl) d.loads)

/-! ### The progress of a ticket -/

/-- The kinds of turns. -/
inductive Turn where
  | receive | respond | process
deriving DecidableEq, Repr

/-- The event is such a turn for a slot. -/
def Turn.Does (t : Turn) (i : Nat) (e : WorkerEvent) : Prop :=
  match t with
  | .receive => e = .receive i
  | .respond => ∃ respsize, e = .respond i respsize
  | .process => e = .process i

theorem Turn.Does.inv {t : Turn} (h : t.Does i e) :
    (t = .receive ∧ e = .receive i) ∨ (t = .respond ∧ ∃ respsize, e = .respond i respsize) ∨
      (t = .process ∧ e = .process i) := by
  cases t with
  | receive => exact .inl ⟨rfl, h⟩
  | respond => exact .inr (.inl ⟨rfl, h⟩)
  | process => exact .inr (.inr ⟨rfl, h⟩)

/-- The ticket is somewhere in the load. -/
def Load.Has (l : Load) (k : Ticket) : Prop := k ∈ tickets l.works ∨ k ∈ tickets l.held

/-- The turns it takes until the answer to the ticket is collected. A request that waits has to see
    two turns for each one before it, and one more if the worker is busy. -/
def Load.distance (k : Ticket) (l : Load) : Nat :=
  if k ∈ l.answers.map PipeHeader.ticket then 1
  else if l.busy.map PipeHeader.ticket = some k then 2
  else 2 * (l.works.map PipeHeader.ticket).idxOf k + 3 + l.busy.toList.length

/-- Whose turn it is. -/
def Load.turn (k : Ticket) (l : Load) : Turn :=
  if k ∈ l.answers.map PipeHeader.ticket then .process
  else if l.busy.isSome then .respond
  else .receive

/-- The distance and the turn depend on three parts of the load. -/
theorem Load.distance_congr (hw : l'.works = l.works) (hb : l'.busy = l.busy)
    (ha : l'.answers = l.answers) :
    l'.distance k = l.distance k ∧ l'.turn k = l.turn k ∧ (l.Has k → l'.Has k) := by
  unfold Load.distance Load.turn Load.Has Load.held
  rw [hw, hb, ha]
  exact ⟨rfl, rfl, id⟩

/-- What a step does for a ticket: it is completed, or it is nearer to its end,
    or the step was not its turn. -/
def Progress (k : Ticket) (i : Nat) (l : Load) (e : WorkerEvent) (d' : Desk) : Prop :=
  k ∈ tickets d'.completed ∨ ∃ l', d'.load i = some l' ∧ l'.Has k ∧
    (l'.distance k < l.distance k ∨
      l'.distance k = l.distance k ∧ l'.turn k = l.turn k ∧ ¬(l.turn k).Does i e)

/-- The ticket stays as far away, and it was not its turn. -/
theorem Progress.stays (hload : d'.load i = some l') (hk : l.Has k)
    (hw : l'.works = l.works) (hb : l'.busy = l.busy) (ha : l'.answers = l.answers)
    (hnot : ¬(l.turn k).Does i e) : Progress k i l e d' := by
  obtain ⟨hdist, hturn, hhas⟩ := distance_congr (k := k) hw hb ha
  exact .inr ⟨l', hload, hhas hk, .inr ⟨hdist, hturn, hnot⟩⟩

theorem Load.turn_of_mem (h : k ∈ tickets l.answers) :
    l.turn k = .process := if_pos h

theorem Load.turn_of_not_mem (h : k ∉ tickets l.answers) :
    l.turn k = if l.busy.isSome then .respond else .receive := if_neg h

theorem Load.Has.mem_works (h : l.Has k) (ha : k ∉ tickets l.answers) (hb : l.busy = none) :
    k ∈ tickets l.works := by
  rcases h with hw | hh
  · exact hw
  · unfold Load.held at hh
    rw [hb] at hh
    exact absurd hh ha

theorem Load.Has.mem_answers (h : l.Has k) (hw : l.works = []) (hb : l.busy = none) :
    k ∈ tickets l.answers := by
  by_contra ha
  have hmem := h.mem_works ha hb
  rw [hw] at hmem
  cases hmem

theorem Load.distance_of_mem (h : k ∈ tickets l.answers) :
    l.distance k = 1 := if_pos h

theorem Load.has_iff :
    l.Has k ↔ k ∈ tickets l.works ∨ k ∈ tickets l.busy.toList ∨ k ∈ tickets l.answers := by
  unfold Load.Has Load.held
  rw [mem_tickets_append]

/-- A ticket that has its answer keeps it until the answer is collected. -/
theorem Progress.answered (hload : d'.load i = some l') (ha : k ∈ tickets l.answers)
    (ha' : k ∈ tickets l'.answers) (he : e ≠ .process i) : Progress k i l e d' := by
  refine .inr ⟨l', hload, has_iff.mpr (.inr (.inr ha')), .inr ⟨?_, ?_, ?_⟩⟩
  · rw [distance_of_mem ha, distance_of_mem ha']
  · rw [turn_of_mem ha, turn_of_mem ha']
  · rw [turn_of_mem ha]
    exact he

theorem Load.Has.receive (h : l.Has k) (hb : l.busy = none) {hdr : PipeHeader}
    {works : List PipeHeader} (hw : l.works = hdr :: works) :
    Load.Has { l with works := works, busy := some hdr } k := by
  rw [has_iff, hw, hb, tickets_cons, mem_add] at h
  rw [has_iff]
  rcases h with (hfirst | hrest) | hbusy | hanswers
  · exact .inr (.inl hfirst)
  · exact .inl hrest
  · cases hbusy
  · exact .inr (.inr hanswers)

theorem Load.Has.respond (h : l.Has k) {req : PipeHeader} (hb : l.busy = some req)
    (respsize : Nat) :
    Load.Has { l with busy := none, answers := l.answers ++ [answer req respsize] } k := by
  rw [has_iff, hb] at h
  rw [has_iff, mem_tickets_append]
  rcases h with hworks | hbusy | hanswers
  · exact .inl hworks
  · exact .inr (.inr (.inr hbusy))
  · exact .inr (.inr (.inl hanswers))

theorem Load.collect_same (h : l.Has k) (ha : k ∉ tickets l.answers) (exits : Nat) :
    Load.distance k { l with answers := [], exits := exits } = l.distance k ∧
      Load.turn k { l with answers := [], exits := exits } = l.turn k ∧
      Load.Has { l with answers := [], exits := exits } k := by
  refine ⟨?_, ?_, ?_⟩
  · unfold Load.distance
    rw [mem_tickets] at ha
    rw [if_neg ha]
    rfl
  · rw [turn_of_not_mem ha]
    rfl
  · rw [has_iff] at h ⊢
    rcases h with hworks | hbusy | hanswers
    · exact .inl hworks
    · exact .inr (.inl hbusy)
    · exact absurd hanswers ha

theorem Load.distance_receive {hdr : PipeHeader} {works : List PipeHeader}
    (ha : k ∉ tickets l.answers) (hb : l.busy = none) (hw : l.works = hdr :: works) :
    Load.distance k { l with works := works, busy := some hdr } < l.distance k := by
  unfold Load.distance
  rw [mem_tickets] at ha
  simp only [if_neg ha, hb, hw, Option.map_none, reduceCtorEq, if_false, Option.map_some,
    Option.some.injEq, map_cons, Option.toList_some, Option.toList_none, length_singleton,
    length_nil]
  by_cases hk : hdr.ticket = k
  · rw [if_pos hk]
    omega
  · rw [if_neg hk, idxOf_cons_ne _ hk]
    omega

theorem Load.distance_respond {req : PipeHeader} (respsize : Nat) (ha : k ∉ tickets l.answers)
    (hb : l.busy = some req) :
    Load.distance k { l with busy := none, answers := l.answers ++ [answer req respsize] } <
      l.distance k := by
  unfold Load.distance
  rw [mem_tickets] at ha
  rw [if_neg ha, hb]
  by_cases hk : req.ticket = k
  · rw [if_pos (by simp [hk]), if_pos (by simp [hk])]
    omega
  · have hnot : k ∉ (l.answers ++ [answer req respsize]).map PipeHeader.ticket := by
      rw [map_append, mem_append]
      rintro (hmem | hmem)
      · exact ha hmem
      · exact hk (mem_singleton.mp hmem).symm
    rw [if_neg hnot, if_neg (by simp), if_neg (by simp [hk])]
    simp

theorem Load.distance_addWork (hk : l.Has k) : (l.addWork hdr).distance k = l.distance k := by
  unfold Load.distance Load.addWork
  by_cases ha : k ∈ l.answers.map PipeHeader.ticket
  · rw [if_pos ha, if_pos ha]
  by_cases hb : l.busy.map PipeHeader.ticket = some k
  · rw [if_neg ha, if_neg ha, if_pos hb, if_pos hb]
  -- The ticket waits, so what is behind it does not count.
  have hw : k ∈ l.works.map PipeHeader.ticket := by
    rcases hk with hw | hh
    · exact hw
    · exfalso
      unfold Load.held at hh
      rw [mem_tickets_append] at hh
      rcases hh with hh | hh
      · cases hbusy : l.busy with
        | none =>
          rw [hbusy] at hh
          cases hh
        | some req =>
          rw [hbusy] at hh hb
          exact hb (congrArg some (mem_singleton.mp hh).symm)
      · exact ha hh
  rw [if_neg ha, if_neg ha, if_neg hb, if_neg hb, map_append, idxOf_append_of_mem hw]

theorem Desk.load_set (l' : Load) (hl : d.load j = some m) (i : Nat) :
    ((d.loads.set j (some l'))[i]?).join = if j = i then some l' else d.load i := by
  have hlt := (List.getElem?_eq_some_iff.mp (Desk.getElem?_of_load hl)).1
  exact join_getElem?_set hlt l' i

theorem Desk.load_queue (l' : Load) (hj : j < d.loads.length + slots) (i : Nat) :
    (((d.loads ++ List.replicate slots none).set j (some l'))[i]?).join =
      if j = i then some l' else d.load i := by
  have hlen : j < (d.loads ++ List.replicate slots none).length := by
    rw [length_append, length_replicate]
    exact hj
  unfold Desk.load
  rw [join_getElem?_set hlen, join_getElem?_append]

theorem Load.Has.where_is (hk : l.Has k)
    (hcalm : l.phase ≠ .running → l.works = [] ∧ l.busy = none) :
    (l.turn k = .process ∧ l.answers ≠ []) ∨
      (l.turn k = .respond ∧ l.phase = .running ∧ ∃ req, l.busy = some req) ∨
      (l.turn k = .receive ∧ l.phase = .running ∧ l.busy = none ∧ l.works ≠ []) := by
  by_cases ha : k ∈ tickets l.answers
  · refine .inl ⟨turn_of_mem ha, fun hnil => ?_⟩
    rw [hnil] at ha
    cases ha
  have hturn := turn_of_not_mem ha
  cases hb : l.busy with
  | some req =>
    rw [hb] at hturn
    refine .inr (.inl ⟨hturn, ?_, req, rfl⟩)
    by_contra hp
    cases (hcalm hp).2.symm.trans hb
  | none =>
    rw [hb] at hturn
    have hne : l.works ≠ [] := by
      intro hnil
      have hmem := hk.mem_works ha hb
      rw [hnil] at hmem
      cases hmem
    exact .inr (.inr ⟨hturn, not_not.mp fun hp => hne (hcalm hp).1, rfl, hne⟩)

theorem Desk.able_of_turn (hcalm : d.Calm) (hl : d.load i = some l) (hk : l.Has k)
    (hdoes : (l.turn k).Does i e) : d.Able e := by
  rcases hk.where_is (hcalm i l hl) with ⟨hturn, hne⟩ | ⟨hturn, hp, req, hb⟩ | ⟨hturn, hp, hb, hne⟩
    <;> rw [hturn] at hdoes
  · cases hdoes
    exact ⟨l, hl, by simp [respPtrs, hne]⟩
  · obtain ⟨respsize, rfl⟩ := hdoes
    exact ⟨l, hl, hp, by simp [hb]⟩
  · cases hdoes
    exact ⟨l, hl, hp, hb, by simp [reqPtrs, hne]⟩

/-- A request brings no ticket nearer, and keeps none away. -/
theorem progress_queue (hl : d.load i = some l) (hk : l.Has k)
    (hj : j < d.loads.length + slots) (hm : (d.load j).getD {} = m)
    (hloads : d'.loads = (d.loads ++ List.replicate slots none).set j (some (m.addWork hdr)))
    (hnot : ¬(l.turn k).Does i e) : Progress k i l e d' := by
  have hload : d'.load i = if j = i then some (m.addWork hdr) else d.load i := by
    unfold Desk.load
    rw [hloads]
    exact Desk.load_queue (m.addWork hdr) hj i
  by_cases hij : j = i
  · rw [if_pos hij] at hload
    rw [hij, hl] at hm
    have hlm : l = m := hm
    subst hlm
    refine .inr ⟨l.addWork hdr, hload, ?_, .inr ⟨distance_addWork hdr hk, rfl, hnot⟩⟩
    rcases hk with hw | hh
    · left
      exact mem_tickets_append.mpr (.inl hw)
    · exact .inr hh
  · rw [if_neg hij, hl] at hload
    exact .stays hload hk rfl rfl rfl hnot

/-- An event of a slot is no turn of another. -/
def OfSlot (e : WorkerEvent) (j : Nat) : Prop := ∀ (t : Turn) (i : Nat), t.Does i e → j = i

theorem Turn.Does.ofSlot {t : Turn} (h : t.Does j e) : OfSlot e j := by
  intro t' i hdoes
  rcases h.inv with ⟨-, rfl⟩ | ⟨-, _, rfl⟩ | ⟨-, rfl⟩ <;>
    rcases hdoes.inv with ⟨-, he⟩ | ⟨-, _, he⟩ | ⟨-, he⟩ <;> cases he <;> rfl

/-- A step in a slot: what it does for the tickets of that slot is what it does for all. -/
theorem progress_slot {m' : Load} (hl : d.load i = some l) (hk : l.Has k)
    (hm : d.load j = some m) (hloads : d'.loads = d.loads.set j (some m')) (hslot : OfSlot e j)
    (hown : l = m → j = i → d'.load i = some m' → Progress k i l e d') : Progress k i l e d' := by
  have hload : d'.load i = if j = i then some m' else d.load i := by
    unfold Desk.load
    rw [hloads]
    exact Desk.load_set m' hm i
  by_cases hij : j = i
  · rw [if_pos hij] at hload
    rw [hij, hl] at hm
    exact hown (Option.some.inj hm) hij hload
  · rw [if_neg hij, hl] at hload
    exact .stays hload hk rfl rfl rfl fun hdoes => hij (hslot _ i hdoes)

theorem progress_step (hstep : DeskStep d e d') (hcalm : d.Calm)
    (hl : d.load i = some l) (hk : l.Has k) : Progress k i l e d' := by
  cases hstep with
  | idle _ h =>
    exact .stays hl hk rfl rfl rfl fun hdoes => h (Desk.able_of_turn hcalm hl hk hdoes)
  | queue rtype reqsize done_func context j slots m hdr hj hm hexits hphase hserial =>
    refine progress_queue hdr hl hk hj hm rfl ?_
    intro hdoes
    rcases hdoes.inv with ⟨-, he⟩ | ⟨-, _, he⟩ | ⟨-, he⟩ <;> cases he
  | receiveWork j m hdr works hm hp hb hw =>
    refine progress_slot hl hk hm rfl (Turn.Does.ofSlot (t := .receive) rfl) ?_
    rintro rfl rfl hload
    by_cases ha : k ∈ tickets l.answers
    · exact .answered hload ha ha nofun
    · exact .inr ⟨_, hload, hk.receive hb hw, .inl (distance_receive ha hb hw)⟩
  | receiveExit j m exits hm hp hb hw he =>
    refine progress_slot hl hk hm rfl (Turn.Does.ofSlot (t := .receive) rfl) ?_
    rintro rfl rfl hload
    have ha := hk.mem_answers hw hb
    exact .answered hload ha ha nofun
  | respond j respsize m req hm hp hb =>
    refine progress_slot hl hk hm rfl (Turn.Does.ofSlot (t := .respond) ⟨respsize, rfl⟩) ?_
    rintro rfl rfl hload
    by_cases ha : k ∈ tickets l.answers
    · have ha' : k ∈ tickets (l.answers ++ [answer req respsize]) := by
        exact mem_tickets_append.mpr (.inl ha)
      exact .answered hload ha ha' nofun
    · exact .inr ⟨_, hload, hk.respond hb respsize, .inl (distance_respond respsize ha hb)⟩
  | collect j m exits hm hp =>
    refine progress_slot hl hk hm rfl (Turn.Does.ofSlot (t := .process) rfl) ?_
    rintro rfl rfl hload
    by_cases ha : k ∈ tickets l.answers
    · left
      exact mem_tickets_append.mpr (.inr ha)
    · obtain ⟨hdist, hturn, hhas⟩ := collect_same hk ha (l.exits + exits)
      refine .inr ⟨_, hload, hhas, .inr ⟨hdist, hturn, ?_⟩⟩
      rw [turn_of_not_mem ha]
      intro hdoes
      cases hb : l.busy with
      | none =>
        rw [hb] at hdoes
        cases hdoes
      | some req =>
        rw [hb] at hdoes
        obtain ⟨_, he⟩ := hdoes
        cases he
  | collectGone j m exits hm hp =>
    refine progress_slot hl hk hm rfl (Turn.Does.ofSlot (t := .process) rfl) ?_
    rintro rfl rfl hload
    obtain ⟨hw, hb⟩ := hcalm j l hl (by rw [hp]; decide)
    left
    exact mem_tickets_append.mpr (.inr (hk.mem_answers hw hb))
  | dismiss =>
    have hload : ((d.loads.map (·.map fun l => { l with exits := l.exits + 1 }))[i]?).join =
        some { l with exits := l.exits + 1 } := by
      rw [List.getElem?_map, Desk.getElem?_of_load hl]
      rfl
    refine .stays hload hk rfl rfl rfl ?_
    · intro hdoes
      rcases hdoes.inv with ⟨-, he⟩ | ⟨-, _, he⟩ | ⟨-, he⟩ <;> cases he

theorem DeskStep.completed_mono (hstep : DeskStep d e d')
    (hk : k ∈ tickets d.completed) : k ∈ tickets d'.completed := by
  cases hstep with
  | collect j m exits hm hp | collectGone j m exits hm hp =>
    exact mem_tickets_append.mpr (.inl hk)
  | _ => exact hk

/-! ### What follows from the accounts -/

theorem Settled.nodup (h : Settled d) : (tickets d.accepted).Nodup := by
  apply List.Nodup.of_map Ticket.serial
  rw [map_map]
  have hserials : d.accepted.map (Ticket.serial ∘ PipeHeader.ticket) =
      List.range d.accepted.length := h.serials
  rw [hserials]
  exact nodup_range

theorem Settled.accepted_eq (h : Settled d) :
    tickets d.accepted =
      tickets d.completed + (gather Load.held d.loads + gather Load.works d.loads) := by
  rw [h.taken, h.completed, add_assoc]

theorem Settled.taken_le (h : Settled d) : tickets d.taken ≤ tickets d.accepted := by
  rw [h.taken]
  exact Multiset.le_add_right _ _

theorem Settled.completed_le (h : Settled d) : tickets d.completed ≤ tickets d.taken := by
  rw [h.completed]
  exact Multiset.le_add_right _ _

/-- The counter counts the accepted requests that are not completed. -/
theorem Settled.pending_eq (h : Settled d) :
    d.pending =
      (d.accepted.filter fun hdr => hdr.ticket ∉ d.completed.map PipeHeader.ticket).length := by
  -- The filter takes out what is completed and nothing else.
  have hsplit : (tickets d.accepted).filter (· ∉ tickets d.completed) =
      gather Load.held d.loads + gather Load.works d.loads := by
    have hdisjoint := (Multiset.nodup_add.mp (h.accepted_eq ▸ h.nodup)).2.2
    rw [h.accepted_eq, Multiset.filter_add]
    rw [Multiset.filter_eq_nil.mpr (fun k hk hnot => hnot hk), zero_add]
    apply Multiset.filter_eq_self.mpr
    intro k hk hmem
    exact Multiset.disjoint_left.mp hdisjoint hmem hk
  have hcard := congrArg Multiset.card hsplit
  rw [card_add] at hcard
  have hlist : ((tickets d.accepted).filter (· ∉ tickets d.completed)).card =
      (d.accepted.filter fun hdr => hdr.ticket ∉ d.completed.map PipeHeader.ticket).length := by
    unfold tickets
    rw [Multiset.filter_coe, coe_card, filter_map, length_map]
    rfl
  rw [h.pending, ← hlist, hcard]
  push_cast
  ring

/-! ### Fair schedules -/

/-- The turn could be taken now: the thread waits and is not blocked, it is in
    the resolver, or the main thread finds its pipe readable. -/
def Turn.Can (t : Turn) (i : Nat) (s : WorkerSys) : Prop :=
  match t with
  | .receive => ∃ c, s.child i = some c ∧ c.thread = .waiting ∧
      receiveBlockingReqInternal c ≠ .blocked
  | .respond => ∃ c, s.child i = some c ∧ ∃ req, c.thread = .resolving req
  | .process => ∃ c, s.child i = some c ∧ c.resp_pipe ≠ 0

/-- A turn that could be taken from some moment on is taken. -/
def FairSchedule (p : Run.Path workerStep) : Prop :=
  ∀ t i, Run.WeakFair p (Turn.Can t i) (Turn.Does t i)

theorem WorkerInv.calm (h : WorkerInv s) : (deskOf s).Calm := by
  intro i l hl hp
  rw [deskOf_load] at hl
  obtain ⟨c, hc, rfl⟩ := Option.map_eq_some_iff.mp hl
  exact (h.keeps i c hc).calm hp

theorem WorkerInv.can_turn (h : WorkerInv s) (hl : (deskOf s).load i = some l) (hk : l.Has k) :
    (l.turn k).Can i s := by
  have hwhere := hk.where_is (h.calm i l hl)
  rw [deskOf_load] at hl
  obtain ⟨c, hc, hload⟩ := Option.map_eq_some_iff.mp hl
  have hkeeps := h.keeps i c hc
  rw [hload] at hkeeps
  rcases hwhere with ⟨hturn, hne⟩ | ⟨hturn, hp, req, hb⟩ | ⟨hturn, hp, hb, hne⟩ <;> rw [hturn]
  · refine ⟨c, hc, ?_⟩
    rw [hkeeps.pipe]
    simp [respPtrs, hne]
  · exact ⟨c, hc, req, (hkeeps.resolving_iff req).mpr ⟨hp, hb⟩⟩
  · obtain ⟨hdr, works, hw⟩ := exists_cons_of_ne_nil hne
    refine ⟨c, hc, hkeeps.waiting_iff.mpr ⟨hp, hb⟩, ?_⟩
    rw [(hkeeps.receive_work hp hw).1]
    exact nofun

/-- The condition on every step of a run. -/
def Smooth (s : WorkerSys) (e : WorkerEvent) : Prop := RingsShort s ∧ Unhindered s e

instance (s : WorkerSys) (e : WorkerEvent) : Decidable (Smooth s e) :=
  inferInstanceAs (Decidable (RingsShort s ∧ Unhindered s e))

theorem lookup_completes (p : Run.Path workerStep) (hm : p.Meets Smooth) (hfair : FairSchedule p)
    {n : Nat} (hinv : WorkerInv (p.state n)) (hl : (deskOf (p.state n)).load i = some l)
    (hk : l.Has k) : ∃ m, n ≤ m ∧ k ∈ tickets (p.state m).completed := by
  refine Run.eventually_of_rank p
    (fun s => WorkerInv s ∧ (k ∈ tickets s.completed ∨ ∃ l, (deskOf s).load i = some l ∧ l.Has k))
    (fun s => k ∈ tickets s.completed)
    (fun s => ((deskOf s).load i).elim 0 (Load.distance k))
    (fun s => ((deskOf s).load i).elim Turn.process (Load.turn k))
    (fun t => hfair t i) hm ?_ ?_ ?_ ⟨hinv, .inr ⟨l, hl, hk⟩⟩
  · rintro s e ⟨hs, hplace⟩ ⟨hshort, hcond⟩
    obtain ⟨hs', hstep⟩ := workerStep_desk hs hshort hcond
    refine ⟨hs', ?_⟩
    rcases hplace with hdone | ⟨l, hl, hk⟩
    · exact .inl (hstep.completed_mono hdone)
    · rcases progress_step hstep hs.calm hl hk with hdone | ⟨l', hl', hk', -⟩
      · exact .inl hdone
      · exact .inr ⟨l', hl', hk'⟩
  · rintro s ⟨hs, hplace⟩ hnot
    rcases hplace with hdone | ⟨l, hl, hk⟩
    · exact absurd hdone hnot
    · simp only [hl, Option.elim_some]
      exact hs.can_turn hl hk
  · rintro s e ⟨hs, hplace⟩ ⟨hshort, hcond⟩ hnot
    rcases hplace with hdone | ⟨l, hl, hk⟩
    · exact absurd hdone hnot
    · obtain ⟨-, hstep⟩ := workerStep_desk hs hshort hcond
      rcases progress_step hstep hs.calm hl hk with hdone | ⟨l', hl', -, hnear⟩
      · exact .inl hdone
      · right
        simp only [hl, hl', Option.elim_some]
        exact hnear

theorem smooth_step (s : WorkerSys) (e : WorkerEvent) (h : WorkerInv s ∧ Settled (deskOf s))
    (hcond : Smooth s e) : WorkerInv (workerStep s e) ∧ Settled (deskOf (workerStep s e)) := by
  obtain ⟨hinv, hstep⟩ := workerStep_desk h.1 hcond.1 hcond.2
  exact ⟨hinv, settled_step h.2 h.1.calm hstep⟩

/-- An accepted ticket that is not completed is in the load of a slot. -/
theorem Settled.place (h : Settled d) (hk : k ∈ tickets d.accepted) :
    k ∈ tickets d.completed ∨ ∃ i l, d.load i = some l ∧ l.Has k := by
  rw [h.accepted_eq, mem_add, mem_add] at hk
  rcases hk with hdone | hheld | hworks
  · exact .inl hdone
  · obtain ⟨i, l, hl, hmem⟩ := Desk.load_of_mem_gather rfl hheld
    exact .inr ⟨i, l, hl, .inr hmem⟩
  · obtain ⟨i, l, hl, hmem⟩ := Desk.load_of_mem_gather rfl hworks
    exact .inr ⟨i, l, hl, .inl hmem⟩

/-- A ticket that is completed was taken once and completed once. -/
theorem Settled.once (h : Settled d) (hk : k ∈ tickets d.completed) :
    (d.taken.map PipeHeader.ticket).count k = 1 ∧
      (d.completed.map PipeHeader.ticket).count k = 1 := by
  have htaken := nodup_of_le h.taken_le h.nodup
  have hcompleted := nodup_of_le h.completed_le htaken
  constructor
  · exact count_eq_one_of_mem htaken (Multiset.mem_of_le h.completed_le hk)
  · exact count_eq_one_of_mem hcompleted hk

/-- Every queued lookup completes exactly once, with one worker or a worker for each query, if every
    step meets the condition. In every run no ticket is completed that was not accepted, and none
    twice; and the counter counts the accepted requests that are not completed. In every fair
    infinite run each accepted request is taken by a worker and completed after some time, once and
    for all. -/
theorem queued_lookups_complete (perQuery : Bool) :
    (∀ es, Run.Meets workerStep Smooth { worker_per_query := perQuery } es →
      let s := Run.exec workerStep { worker_per_query := perQuery } es
      s.insisted = false ∧
      (s.taken.map PipeHeader.ticket).Nodup ∧
      (s.completed.map PipeHeader.ticket).Nodup ∧
      s.completed.map PipeHeader.ticket ⊆ s.taken.map PipeHeader.ticket ∧
      s.taken.map PipeHeader.ticket ⊆ s.accepted.map PipeHeader.ticket ∧
      s.intres_req_pending =
        (s.accepted.filter fun hdr => hdr.ticket ∉ s.completed.map PipeHeader.ticket).length) ∧
    ∀ p : Run.Path workerStep, p.state 0 = { worker_per_query := perQuery } →
      p.Meets Smooth → FairSchedule p → ∀ n, ∀ hdr ∈ (p.state n).accepted,
        ∃ m, n ≤ m ∧ ∀ m', m ≤ m' →
          ((p.state m').taken.map PipeHeader.ticket).count hdr.ticket = 1 ∧
          ((p.state m').completed.map PipeHeader.ticket).count hdr.ticket = 1 := by
  have hstart := And.intro (WorkerInv.start perQuery) (Settled.start perQuery)
  constructor
  · intro es hm s
    obtain ⟨hinv, hset⟩ := Run.exec_invariant smooth_step _ es hstart hm
    have htaken := nodup_of_le hset.taken_le hset.nodup
    refine ⟨hinv.sound, htaken, nodup_of_le hset.completed_le htaken, ?_, ?_,
      hset.pending_eq⟩
    · exact Multiset.subset_of_le hset.completed_le
    · exact Multiset.subset_of_le hset.taken_le
  · intro p hzero hm hfair n hdr hhdr
    have hall := p.invariant smooth_step hm (hzero ▸ hstart)
    -- The ticket is completed at some moment, and stays so.
    obtain ⟨m, hle, hdone⟩ : ∃ m, n ≤ m ∧ hdr.ticket ∈ tickets (p.state m).completed := by
      obtain ⟨hinv, hset⟩ := hall n (Nat.zero_le n)
      rcases hset.place (mem_map_of_mem hhdr) with hdone | ⟨i, l, hl, hk⟩
      · exact ⟨n, le_refl n, hdone⟩
      · exact lookup_completes p hm hfair hinv hl hk
    have hstays : ∀ m', m ≤ m' → hdr.ticket ∈ tickets (p.state m').completed := by
      intro m' hle'
      induction m', hle' using Nat.le_induction with
      | base => exact hdone
      | succ m' _ ih =>
        obtain ⟨hshort, hcond⟩ := hm m'
        obtain ⟨-, hstep⟩ := workerStep_desk (hall m' (Nat.zero_le m')).1 hshort hcond
        rw [p.next m']
        exact hstep.completed_mono ih
    exact ⟨m, hle, fun m' hle' => (hall m' (Nat.zero_le m')).2.once (hstays m' hle')⟩

/-- A lookup. -/
def lookup : WorkerEvent := .queue .getaddrinfo 8 1 1

/-- A lookup, from the request to the answer. -/
def wholeLookup : List WorkerEvent := [lookup, .receive 0, .respond 0 48, .process 0]

/-- The worker is sent away after it had nothing to do for a while. -/
def idleOut : List WorkerEvent :=
  List.replicate CHILD_MAX_IDLE .tick ++ [.receive 0, .process 0]

/-- The worker is idled out and started again for a second lookup, soon
    enough, and idled out again. The last ticks fire the timer once more. -/
def restartRun : List WorkerEvent :=
  wholeLookup ++ idleOut ++ List.replicate 100 .tick ++ wholeLookup ++ idleOut ++
    List.replicate CHILD_MAX_IDLE .tick

/-- All threads are gone, no pipe is readable and no timer runs. -/
structure Rested (s : WorkerSys) : Prop where
  timer : s.worker_idle_timer = 0
  short : RingsShort s
  gone : ∀ o ∈ s.blocking_children, ∀ c ∈ o, c.thread = .none ∧ c.resp_pipe = 0

theorem Rested.tick (s : WorkerSys) (h : Rested s) :
    Smooth s .tick ∧ Rested (workerStep s .tick) := by
  refine ⟨⟨h.short, trivial⟩, ?_⟩
  unfold workerStep workerTick
  simp only [h.timer, ne_eq, not_true_eq_false, false_and, if_false]
  exact ⟨rfl, h.short, h.gone⟩

theorem Rested.not_can (h : Rested s) (t : Turn) (i : Nat) : ¬t.Can i s := by
  have hgone : ∀ c, s.child i = some c → c.thread = .none ∧ c.resp_pipe = 0 := fun c hc =>
    h.gone _ (mem_of_getElem? (WorkerSys.getElem?_of_child hc)) c rfl
  cases t with
  | receive =>
    rintro ⟨c, hc, hwait, -⟩
    rw [(hgone c hc).1] at hwait
    cases hwait
  | respond =>
    rintro ⟨c, hc, req, hreq⟩
    rw [(hgone c hc).1] at hreq
    cases hreq
  | process =>
    rintro ⟨c, hc, hpipe⟩
    exact hpipe (hgone c hc).2

theorem restartRun_smooth : Run.Meets workerStep Smooth {} restartRun := by
  decide +kernel

theorem restartRun_rested : Rested (Run.exec workerStep {} restartRun) where
  timer := by decide +kernel
  short := by decide +kernel
  gone := by decide +kernel

/-- The run with both lookups completed, and the same run with ticks for ever
    after, which is fair. -/
theorem queued_lookups_complete_restartRun :
    ((Run.exec workerStep {} restartRun).completed.map PipeHeader.ticket).Nodup ∧
    (Run.exec workerStep {} restartRun).completed.length = 2 ∧
    let p := Run.Path.follow workerStep {} restartRun .tick
    ∀ n, ∀ hdr ∈ (p.state n).accepted, ∃ m, n ≤ m ∧
      hdr.ticket ∈ (p.state m).completed.map PipeHeader.ticket := by
  obtain ⟨hruns, hpaths⟩ := queued_lookups_complete false
  obtain ⟨hmeets, hafter⟩ :=
    Run.Path.follow_meets Rested restartRun_smooth restartRun_rested Rested.tick
  have hfair : FairSchedule (Run.Path.follow workerStep {} restartRun .tick) :=
    fun t i => Run.weakFair_of_rest fun n hn => (hafter n hn).not_can t i
  refine ⟨(hruns restartRun restartRun_smooth).2.2.1, by decide +kernel, ?_⟩
  intro p n hdr hhdr
  obtain ⟨m, hle, hcount⟩ := hpaths _ rfl hmeets hfair n hdr hhdr
  refine ⟨m, hle, count_pos_iff.mp ?_⟩
  rw [(hcount m (le_refl m)).2]
  exact one_pos

/-! ### A lost request -/

/-- A run in which the second lookup is queued behind an exit request that a worker was sent after
    it had left: by the idle timer, which the notice of its exit started again, or for a worker of a
    single query by the handler of that notice. -/
def lostRun (perQuery : Bool) : List WorkerEvent :=
  if perQuery then wholeLookup ++ [.receive 0, .process 0] ++ [lookup, .receive 0, .process 0]
  else
    wholeLookup ++ idleOut ++ List.replicate CHILD_MAX_IDLE .tick ++
      [lookup, .receive 0, .process 0]

/-- The state after that run. -/
def lostState (perQuery : Bool) : WorkerSys :=
  Run.exec workerStep { worker_per_query := perQuery } (lostRun perQuery)

/-- A state at rest, in which one of two requests is lost. -/
structure Lost (s : WorkerSys) : Prop extends Rested s where
  accepted : s.accepted.map PipeHeader.serial = [0, 1]
  taken : s.taken.map PipeHeader.serial = [0]
  completed : s.completed.map PipeHeader.serial = [0]

theorem Lost.tick (s : WorkerSys) (h : Lost s) : RingsShort s ∧ Lost (workerStep s .tick) := by
  obtain ⟨hsmooth, hrested⟩ := h.toRested.tick
  have hlogs : (workerStep s .tick).accepted = s.accepted ∧
      (workerStep s .tick).taken = s.taken ∧ (workerStep s .tick).completed = s.completed := by
    unfold workerStep workerTick
    simp only [h.timer, ne_eq, not_true_eq_false, false_and, if_false]
    exact ⟨trivial, trivial, trivial⟩
  refine ⟨h.short, hrested, ?_, ?_, ?_⟩
  · rw [hlogs.1]
    exact h.accepted
  · rw [hlogs.2.1]
    exact h.taken
  · rw [hlogs.2.2]
    exact h.completed

theorem lostState_lost : Lost (lostState perQuery) := by
  cases perQuery with
  | false | true => exact ⟨⟨by decide +kernel, by decide +kernel, by decide +kernel⟩,
      by decide +kernel, by decide +kernel, by decide +kernel⟩

theorem lostRun_short : Run.Meets workerStep (fun s _ => RingsShort s)
    { worker_per_query := perQuery } (lostRun perQuery) := by
  cases perQuery with
  | false | true => decide +kernel

/-- There is a fair infinite run with few entries in the rings, in which a
    request that was accepted is never taken and its function never called. -/
def LosesLookup (perQuery : Bool) : Prop :=
  ∃ p : Run.Path workerStep, p.state 0 = { worker_per_query := perQuery } ∧
    p.Meets (fun s _ => RingsShort s) ∧ FairSchedule p ∧
    ∃ n, 1 ∈ (p.state n).accepted.map PipeHeader.serial ∧ ∀ m, n ≤ m →
      1 ∉ (p.state m).taken.map PipeHeader.serial ∧
      1 ∉ (p.state m).completed.map PipeHeader.serial

theorem losesLookup : LosesLookup perQuery := by
  obtain ⟨hmeets, hafter⟩ :=
    Run.Path.follow_meets Lost (lostRun_short perQuery) (lostState_lost perQuery) Lost.tick
  refine ⟨_, rfl, hmeets, ?_, (lostRun perQuery).length, ?_, ?_⟩
  · exact fun t i => Run.weakFair_of_rest fun n hn => (hafter n hn).not_can t i
  · rw [(hafter _ (le_refl _)).accepted]
    decide
  · intro m hle
    rw [(hafter m hle).taken, (hafter m hle).completed]
    decide

/-- Lookups are lost with and without a worker for each query. And a request
    without a payload is counted though it is not accepted. -/
theorem queued_lookup_lost :
    LosesLookup false ∧ LosesLookup true ∧
    (Run.exec workerStep {} [.queue .getaddrinfo 0 1 1]).intres_req_pending = 1 ∧
    (Run.exec workerStep {} [.queue .getaddrinfo 0 1 1]).accepted = [] :=
  ⟨losesLookup false, losesLookup true, by decide, by decide⟩

end NtpSuite
