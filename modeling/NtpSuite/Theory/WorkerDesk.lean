import NtpSuite.Theory.WorkerLoad

/-!
# The Workers from Outside

An abstract machine for the workers, and the proof that the code is one.

A `Desk` has the load of every slot and the three logs: requests that were
accepted, taken by a worker, and completed. `DeskStep` is what may happen to
it. The interesting part is what may not: a request goes to a worker only if
no exit request is before it, so that no load ever has a request that will
not be looked at.

The code does not see to that. `Unhindered` is the condition on a step of the
main thread or of a worker under which it does: a request has a payload, it
goes to a child without exit requests that is not being left, and a ring of
responses that has to grow does so at its start. With fewer requests waiting
than a ring has slots, `workerStep_desk` then shows that every step of the
code is a step of the desk.

## Main definitions

* `Desk`, `DeskStep`: The abstract machine.
* `deskOf`: The desk of a state.
* `Unhindered`: The condition on a step.
* `RingsShort`: Fewer requests wait than a ring has slots at first.
* `WorkerInv`: What is known of every state.

## Theorems

* `chooseSlot_spec`: The slot of a request.
* `workerStep_desk`: A step of the code is a step of the desk.
-/

namespace NtpSuite

open List

/-! ### The abstract machine -/

/-- The loads of all slots and the logs. -/
structure Desk where
  loads : List (Option Load)
  accepted : List PipeHeader
  taken : List PipeHeader
  completed : List PipeHeader
  pending : Int

/-- The load of a slot. -/
def Desk.load (d : Desk) (i : Nat) : Option Load := (d.loads[i]?).join

/-- The event finds something to do. A tick may always find nothing. -/
def Desk.Able (d : Desk) : WorkerEvent → Prop
  | .queue _ _ _ _ => True
  | .process i => ∃ l, d.load i = some l ∧ l.respPtrs ≠ []
  | .tick => False
  | .receive i => ∃ l, d.load i = some l ∧ l.phase = .running ∧ l.busy = none ∧ l.reqPtrs ≠ []
  | .respond i _ => ∃ l, d.load i = some l ∧ l.phase = .running ∧ l.busy ≠ none

/-- The answer to a request. -/
def answer (req : PipeHeader) (respsize : Nat) : PipeHeader :=
  { req with octets := respsize, child_idx := 0 }

/-- What may happen. -/
inductive DeskStep : Desk → WorkerEvent → Desk → Prop
  | idle (d : Desk) (e : WorkerEvent) (h : ¬d.Able e) : DeskStep d e d
  | queue (d : Desk) (rtype : WorkReq) (reqsize done_func context : Nat) (i slots : Nat)
      (l : Load) (hdr : PipeHeader) (hi : i < d.loads.length + slots)
      (hl : (d.load i).getD {} = l) (hexits : l.exits = 0) (hphase : l.phase ≠ .leaving)
      (hserial : hdr.serial = d.accepted.length) :
      DeskStep d (.queue rtype reqsize done_func context)
        { d with
          loads := (d.loads ++ List.replicate slots none).set i (some (l.addWork hdr))
          accepted := d.accepted ++ [hdr]
          pending := d.pending + 1 }
  | receiveWork (d : Desk) (i : Nat) (l : Load) (hdr : PipeHeader) (works : List PipeHeader)
      (hl : d.load i = some l) (hp : l.phase = .running) (hb : l.busy = none)
      (hw : l.works = hdr :: works) :
      DeskStep d (.receive i)
        { d with
          loads := d.loads.set i (some { l with works := works, busy := some hdr })
          taken := d.taken ++ [hdr] }
  | receiveExit (d : Desk) (i : Nat) (l : Load) (exits : Nat) (hl : d.load i = some l)
      (hp : l.phase = .running) (hb : l.busy = none) (hw : l.works = [])
      (he : l.exits = exits + 1) :
      DeskStep d (.receive i)
        { d with loads := d.loads.set i (some { l with exits := exits, phase := .leaving }) }
  | respond (d : Desk) (i respsize : Nat) (l : Load) (req : PipeHeader) (hl : d.load i = some l)
      (hp : l.phase = .running) (hb : l.busy = some req) :
      DeskStep d (.respond i respsize)
        { d with
          loads := d.loads.set i (some
            { l with busy := none, answers := l.answers ++ [answer req respsize] }) }
  | collect (d : Desk) (i : Nat) (l : Load) (exits : Nat) (hl : d.load i = some l)
      (hp : l.phase = .running) :
      DeskStep d (.process i)
        { d with
          loads := d.loads.set i (some { l with answers := [], exits := l.exits + exits })
          completed := d.completed ++ l.answers
          pending := d.pending - l.answers.length }
  | collectGone (d : Desk) (i : Nat) (l : Load) (exits : Nat) (hl : d.load i = some l)
      (hp : l.phase = .leaving) :
      DeskStep d (.process i)
        { d with
          loads := d.loads.set i (some { exits := exits })
          completed := d.completed ++ l.answers
          pending := d.pending - l.answers.length }
  | dismiss (d : Desk) :
      DeskStep d .tick
        { d with loads := d.loads.map (·.map fun l => { l with exits := l.exits + 1 }) }

/-! ### The desk of a state -/

/-- The desk of a state. -/
def deskOf (s : WorkerSys) : Desk where
  loads := s.blocking_children.map (·.map loadOf)
  accepted := s.accepted
  taken := s.taken
  completed := s.completed
  pending := s.intres_req_pending

theorem deskOf_load (s : WorkerSys) (i : Nat) : (deskOf s).load i = (s.child i).map loadOf := by
  unfold Desk.load deskOf WorkerSys.child
  simp only [List.getElem?_map]
  cases s.blocking_children[i]? with
  | none | some o => rfl

variable {c : BlockingChild} {l : Load} {s : WorkerSys} {i : Nat}

theorem loads_setChild (s : WorkerSys) (i : Nat) (h : StandsFor c l) :
    (deskOf (s.setChild i c)).loads = (deskOf s).loads.set i (some l) := by
  unfold deskOf WorkerSys.setChild
  rw [map_set, Option.map_some, h.loadOf_eq]

theorem deskOf_setChild (s : WorkerSys) (i : Nat) (h : StandsFor c l) :
    deskOf (s.setChild i c) = { deskOf s with loads := (deskOf s).loads.set i (some l) } := by
  rw [← loads_setChild s i h]
  rfl

section Slots

variable {β : Type}

theorem join_getElem?_set {slots : List (Option β)} {j : Nat} (hj : j < slots.length) (b : β)
    (i : Nat) : ((slots.set j (some b))[i]?).join = if j = i then some b else (slots[i]?).join := by
  rw [List.getElem?_set]
  by_cases hij : j = i
  · rw [if_pos hij, if_pos hij, if_pos hj]
    rfl
  · rw [if_neg hij, if_neg hij]

theorem join_getElem?_append (slots : List (Option β)) (n i : Nat) :
    ((slots ++ List.replicate n none)[i]?).join = (slots[i]?).join := by
  by_cases hold : i < slots.length
  · rw [List.getElem?_append_left hold]
  · rw [List.getElem?_append_right (not_lt.mp hold), List.getElem?_replicate,
      List.getElem?_eq_none (not_lt.mp hold)]
    split
    · rfl
    · rfl

end Slots

theorem WorkerSys.getElem?_of_child (h : s.child i = some c) :
    s.blocking_children[i]? = some (some c) :=
  Option.join_eq_some_iff.mp h

theorem WorkerSys.lt_of_child (h : s.child i = some c) : i < s.blocking_children.length :=
  (List.getElem?_eq_some_iff.mp (WorkerSys.getElem?_of_child h)).1

theorem WorkerSys.child_setChild {j : Nat} (hi : i < s.blocking_children.length) :
    (s.setChild i c).child j = if i = j then some c else s.child j := by
  exact join_getElem?_set hi c j

/-- What is known of every state. The shared worker has slot zero. -/
structure WorkerInv (s : WorkerSys) : Prop where
  keeps : ∀ i c, s.child i = some c → StandsFor c (loadOf c)
  shared : s.worker_per_query = false →
    s.intres_slot = none ∧ s.blocking_children = [] ∨
      s.intres_slot = some 0 ∧ ∃ c, s.child 0 = some c
  own : s.worker_per_query = true → s.intres_slot = none
  sound : s.insisted = false

/-- Fewer entries wait in a ring of requests than it has slots at first. -/
def RingsShort (s : WorkerSys) : Prop :=
  ∀ c, some c ∈ s.blocking_children → c.workitems.countP Option.isSome < WORKITEMS_ALLOC_INC

instance (s : WorkerSys) : Decidable (RingsShort s) :=
  decidable_of_iff (∀ o ∈ s.blocking_children, ∀ c ∈ o,
      c.workitems.countP Option.isSome < WORKITEMS_ALLOC_INC)
    ⟨fun h c hc => h (some c) hc c rfl, fun h _ ho c hc => h c (hc ▸ ho)⟩

/-- The slot whose child gets the next request, if it has one: the first that is available for a
    query of its own, the slot of the shared worker otherwise. -/
def ServesNext (s : WorkerSys) (i : Nat) : Prop :=
  if s.worker_per_query then s.blocking_children.findIdx? slotAvailable = some i
  else s.intres_slot = some i

instance (s : WorkerSys) (i : Nat) : Decidable (ServesNext s i) := by
  unfold ServesNext
  infer_instance

/-- The condition on a step. A request has a payload and goes to a child with no exit request in its
    ring and no notice that its worker is gone. What a worker puts into its ring of responses, an
    answer or that notice, finds a free slot there, or a ring that is written at its start. -/
def Unhindered (s : WorkerSys) : WorkerEvent → Prop
  | .queue _ reqsize _ _ =>
    0 < reqsize ∧ ∀ i < s.blocking_children.length, ∀ c ∈ s.child i, ServesNext s i →
      some .childExit ∉ c.workitems ∧ some .childGone ∉ c.responses
  | .receive i => ∀ c ∈ s.child i, (c.workitems[c.next_workeritem]?).join = some .childExit →
    GrowsAtStart c.responses c.next_response
  | .respond i _ => ∀ c ∈ s.child i, GrowsAtStart c.responses c.next_response
  | _ => True

instance (s : WorkerSys) (e : WorkerEvent) : Decidable (Unhindered s e) := by
  cases e <;> unfold Unhindered <;> infer_instance

theorem WorkerInv.start (perQuery : Bool) : WorkerInv { worker_per_query := perQuery } where
  keeps := by
    intro i c h
    cases h
  shared := fun _ => .inl ⟨rfl, rfl⟩
  own := fun _ => rfl
  sound := rfl

theorem WorkerInv.setChild (h : WorkerInv s) {d : BlockingChild} (hc : s.child i = some c)
    (hd : StandsFor d l) : WorkerInv (s.setChild i d) where
  keeps := by
    intro j e he
    rw [WorkerSys.child_setChild (WorkerSys.lt_of_child hc)] at he
    by_cases hij : i = j
    · rw [if_pos hij] at he
      cases he
      rw [hd.loadOf_eq]
      exact hd
    · rw [if_neg hij] at he
      exact h.keeps j e he
  shared := by
    intro hq
    rcases h.shared hq with ⟨-, hnil⟩ | ⟨hslot, e, he⟩
    · have hlt := WorkerSys.lt_of_child hc
      rw [hnil] at hlt
      exact absurd hlt (Nat.not_lt_zero i)
    · refine .inr ⟨hslot, ?_⟩
      rw [WorkerSys.child_setChild (WorkerSys.lt_of_child hc)]
      by_cases hi : i = 0
      · exact ⟨d, if_pos hi⟩
      · exact ⟨e, by rw [if_neg hi]; exact he⟩
  own := h.own
  sound := h.sound

theorem WorkerInv.room (h : WorkerInv s) (hshort : RingsShort s) (hc : s.child i = some c) :
    (loadOf c).reqPtrs.length < WORKITEMS_ALLOC_INC := by
  have hlt := hshort c (mem_of_getElem? (WorkerSys.getElem?_of_child hc))
  rw [← Ring.length_items c.workitems c.next_workeritem,
    Ring.Holds.items_eq (h.keeps i c hc).reqs] at hlt
  exact hlt

/-! ### The threads -/

theorem deskOf_load_some (hc : s.child i = some c) : (deskOf s).load i = some (loadOf c) := by
  rw [deskOf_load, hc]
  rfl

/-- A thread waits exactly when its worker runs and has nothing in the resolver. -/
theorem StandsFor.waiting_iff (h : StandsFor c l) :
    c.thread = .waiting ↔ l.phase = .running ∧ l.busy = none := by
  rw [h.thread]
  unfold Load.thread
  cases l.phase with
  | absent | leaving => simp
  | running =>
    cases l.busy with
    | none | some req => simp

/-- A thread is in the resolver exactly when its load says so. -/
theorem StandsFor.resolving_iff (h : StandsFor c l) (req : PipeHeader) :
    c.thread = .resolving req ↔ l.phase = .running ∧ l.busy = some req := by
  rw [h.thread]
  unfold Load.thread
  cases l.phase with
  | absent | leaving => simp
  | running =>
    cases l.busy with
    | none | some req => simp

theorem workerReceive_desk (h : WorkerInv s) (hc : s.child i = some c)
    (hgrow : (c.workitems[c.next_workeritem]?).join = some .childExit →
      GrowsAtStart c.responses c.next_response) :
    WorkerInv (workerReceive s i c) ∧
      DeskStep (deskOf s) (.receive i) (deskOf (workerReceive s i c)) := by
  have hk := h.keeps i c hc
  have hl := deskOf_load_some hc
  generalize loadOf c = l at hk hl
  unfold workerReceive
  by_cases hwait : c.thread = .waiting
  · rw [if_pos hwait]
    obtain ⟨hp, hb⟩ := hk.waiting_iff.mp hwait
    cases hw : l.works with
    | cons hdr works =>
      obtain ⟨hrecv, hkeeps⟩ := hk.receive_work hp hw
      rw [hrecv]
      have hinv := h.setChild hc hkeeps
      refine ⟨⟨hinv.keeps, hinv.shared, hinv.own, hinv.sound⟩, ?_⟩
      have hstep := DeskStep.receiveWork (deskOf s) i l hdr works hl hp hb hw
      rw [← loads_setChild s i hkeeps] at hstep
      exact hstep
    | nil =>
      cases he : l.exits with
      | zero =>
        rw [hk.receive_none hp hw he]
        refine ⟨h, .idle _ _ ?_⟩
        rintro ⟨l', hl', -, -, hne⟩
        rw [hl] at hl'
        cases hl'
        apply hne
        unfold Load.reqPtrs
        rw [hw, he]
        rfl
      | succ exits =>
        have hfirst : (c.workitems[c.next_workeritem]?).join = some .childExit := by
          have hreqs := hk.reqs
          unfold Load.reqPtrs at hreqs
          rw [hw, he] at hreqs
          rw [hreqs.first]
        obtain ⟨hrecv, hkeeps⟩ := hk.receive_exit hp hb hw he (hgrow hfirst)
        rw [hrecv]
        refine ⟨h.setChild hc hkeeps, ?_⟩
        rw [deskOf_setChild s i hkeeps]
        exact .receiveExit (deskOf s) i l exits hl hp hb hw he
  · rw [if_neg hwait]
    refine ⟨h, .idle _ _ ?_⟩
    rintro ⟨l', hl', hp, hb, -⟩
    rw [hl] at hl'
    cases hl'
    exact hwait (hk.waiting_iff.mpr ⟨hp, hb⟩)

theorem workerRespond_desk (h : WorkerInv s) (hc : s.child i = some c)
    (hgrow : GrowsAtStart c.responses c.next_response) (respsize : Nat) :
    WorkerInv (workerRespond s i c respsize) ∧
      DeskStep (deskOf s) (.respond i respsize) (deskOf (workerRespond s i c respsize)) := by
  have hk := h.keeps i c hc
  have hl := deskOf_load_some hc
  generalize loadOf c = l at hk hl
  have hidle : (∀ req, c.thread ≠ .resolving req) → ¬(deskOf s).Able (.respond i respsize) := by
    rintro hno ⟨l', hl', hp, hb⟩
    rw [hl] at hl'
    cases hl'
    obtain ⟨req, hreq⟩ := Option.ne_none_iff_exists'.mp hb
    exact hno req ((hk.resolving_iff req).mpr ⟨hp, hreq⟩)
  unfold workerRespond
  cases hthread : c.thread with
  | none | waiting => exact ⟨h, .idle _ _ (hidle (by rw [hthread]; simp))⟩
  | resolving req =>
    obtain ⟨hp, hb⟩ := (hk.resolving_iff req).mp hthread
    have hkeeps := hk.respond hp hgrow (answer req respsize)
    refine ⟨h.setChild hc hkeeps, ?_⟩
    have hstep := DeskStep.respond (deskOf s) i respsize l req hl hp hb
    rw [← deskOf_setChild s i hkeeps] at hstep
    exact hstep

/-! ### The main thread -/

/-- What is known depends on the children and the slot of the shared worker only. -/
theorem WorkerInv.congr {t : WorkerSys} (h : WorkerInv s)
    (hc : t.blocking_children = s.blocking_children) (hq : t.worker_per_query = s.worker_per_query)
    (hi : t.intres_slot = s.intres_slot) (hs : t.insisted = s.insisted) : WorkerInv t where
  keeps := by
    intro i c hchild
    unfold WorkerSys.child at hchild
    rw [hc] at hchild
    exact h.keeps i c hchild
  shared := by
    unfold WorkerSys.child
    rw [hc, hq, hi]
    exact h.shared
  own := by
    rw [hq, hi]
    exact h.own
  sound := by
    rw [hs]
    exact h.sound

/-- The main thread has collected some answers from a child and, when every
    query has its own worker, has sent it an exit request. -/
theorem processBlockingResp_desk {d : BlockingChild} {answers : List PipeHeader} (h : WorkerInv s)
    (hc : s.child i = some c) (hdrain : drainResponses (c.responses.length + 1) c = (d, answers))
    (hd : StandsFor d l) (hroom : l.reqPtrs.length < WORKITEMS_ALLOC_INC) :
    ∃ exits, WorkerInv (processBlockingResp s i c) ∧
      deskOf (processBlockingResp s i c) =
        { deskOf s with
          loads := (deskOf s).loads.set i (some { l with exits := l.exits + exits })
          completed := s.completed ++ answers
          pending := s.intres_req_pending - answers.length } := by
  have hplain := loads_setChild s i hd
  have hexit := loads_setChild s i (hd.exit hroom)
  have hinv := h.setChild hc hd
  have hinv' := h.setChild hc (hd.exit hroom)
  unfold processBlockingResp
  simp only [hdrain]
  split
  · refine ⟨0, hinv.congr rfl rfl rfl rfl, ?_⟩
    rw [add_zero, ← hplain]
    rfl
  · split
    · refine ⟨1, hinv'.congr rfl rfl rfl rfl, ?_⟩
      rw [← hexit]
      rfl
    · refine ⟨0, hinv.congr rfl rfl rfl rfl, ?_⟩
      rw [add_zero, ← hplain]
      rfl

theorem process_desk (h : WorkerInv s) (hshort : RingsShort s) (hc : s.child i = some c)
    (hpipe : c.resp_pipe ≠ 0) :
    WorkerInv (processBlockingResp s i c) ∧
      DeskStep (deskOf s) (.process i) (deskOf (processBlockingResp s i c)) := by
  have hk := h.keeps i c hc
  have hl := deskOf_load_some hc
  have hroom := h.room hshort hc
  generalize loadOf c = l at hk hl hroom
  cases hp : l.phase with
  | absent =>
    -- The pipe of an absent worker is closed.
    exfalso
    apply hpipe
    rw [hk.pipe]
    unfold Load.respPtrs
    rw [hk.clear hp, hp]
    rfl
  | running =>
    obtain ⟨d, hdrain, hd⟩ := hk.drain hp
    obtain ⟨exits, hinv, hdesk⟩ := processBlockingResp_desk h hc hdrain hd hroom
    refine ⟨hinv, ?_⟩
    rw [hdesk]
    exact .collect (deskOf s) i l exits hl hp
  | leaving =>
    obtain ⟨d, hdrain, hd⟩ := hk.drain_gone hp
    obtain ⟨exits, hinv, hdesk⟩ := processBlockingResp_desk h hc hdrain hd (by decide)
    refine ⟨hinv, ?_⟩
    rw [hdesk]
    have hstep := DeskStep.collectGone (deskOf s) i l (0 + exits) hl hp
    exact hstep

theorem WorkerSys.exists_child (h : some c ∈ s.blocking_children) : ∃ i, s.child i = some c := by
  obtain ⟨i, hi⟩ := mem_iff_getElem?.mp h
  refine ⟨i, ?_⟩
  unfold WorkerSys.child
  rw [hi]
  rfl

theorem workerIdleTimerFired_desk (h : WorkerInv s) (hshort : RingsShort s) :
    WorkerInv (workerIdleTimerFired s) ∧
      DeskStep (deskOf s) .tick (deskOf (workerIdleTimerFired s)) := by
  have hchild : ∀ i, (workerIdleTimerFired s).child i = (s.child i).map reqChildExit := by
    intro i
    unfold workerIdleTimerFired intresTimeoutReq WorkerSys.child
    simp only [List.getElem?_map]
    cases s.blocking_children[i]? with
    | none | some o => rfl
  have hexit : ∀ i c, s.child i = some c →
      StandsFor (reqChildExit c) { loadOf c with exits := (loadOf c).exits + 1 } :=
    fun i c hc => (h.keeps i c hc).exit (h.room hshort hc)
  constructor
  · refine ⟨?_, ?_, h.own, h.sound⟩
    · intro i d hd
      rw [hchild] at hd
      obtain ⟨c, hc, rfl⟩ := Option.map_eq_some_iff.mp hd
      rw [(hexit i c hc).loadOf_eq]
      exact hexit i c hc
    · intro hq
      rcases h.shared hq with ⟨hnone, hnil⟩ | ⟨hslot, c, hc⟩
      · left
        refine ⟨hnone, ?_⟩
        unfold workerIdleTimerFired
        simp [intresTimeoutReq, hnil]
      · right
        exact ⟨hslot, reqChildExit c, by rw [hchild, hc]; rfl⟩
  · have hloads : (deskOf (workerIdleTimerFired s)).loads =
        (deskOf s).loads.map (·.map fun l => { l with exits := l.exits + 1 }) := by
      unfold deskOf workerIdleTimerFired intresTimeoutReq
      simp only [map_map]
      apply map_congr_left
      intro o ho
      cases o with
      | none => rfl
      | some c =>
        obtain ⟨i, hc⟩ := WorkerSys.exists_child ho
        simp [(hexit i c hc).loadOf_eq]
    have hstep := DeskStep.dismiss (deskOf s)
    rw [← hloads] at hstep
    exact hstep

theorem workerTick_desk (h : WorkerInv s) (hshort : RingsShort s) :
    WorkerInv (workerTick s) ∧ DeskStep (deskOf s) .tick (deskOf (workerTick s)) := by
  have hinv : WorkerInv { s with current_time := s.current_time + 1 } :=
    h.congr rfl rfl rfl rfl
  unfold workerTick
  simp only
  split
  · exact workerIdleTimerFired_desk hinv hshort
  · exact ⟨hinv, .idle _ _ (fun hable => hable)⟩

/-! ### The slot of a request -/

/-- A child whose slot has been taken again. -/
def claimed (c : BlockingChild) : BlockingChild := { c with reusable := false }

theorem set_same {β : Type} {xs : List β} {x : β} (h : xs[i]? = some x) : xs.set i x = xs := by
  obtain ⟨hlt, hx⟩ := List.getElem?_eq_some_iff.mp h
  rw [← hx]
  exact set_getElem_self hlt

/-- The slot that `available_blocking_child_slot` finds, among perhaps more
    slots than before, is claimed; nothing else changes. -/
theorem availableBlockingChildSlot_spec (s : WorkerSys) :
    ∃ slots, (availableBlockingChildSlot s).2 < s.blocking_children.length + slots ∧
      (availableBlockingChildSlot s).1 =
        { s with
          blocking_children := (s.blocking_children ++ List.replicate slots none).set
            (availableBlockingChildSlot s).2
            ((s.child (availableBlockingChildSlot s).2).map claimed) } := by
  unfold availableBlockingChildSlot
  cases hfind : s.blocking_children.findIdx? slotAvailable with
  | some slot =>
    obtain ⟨hlt, -⟩ := List.findIdx?_eq_some_iff_getElem.mp hfind
    refine ⟨0, ?_⟩
    simp only [replicate_zero, append_nil, add_zero]
    cases hchild : s.child slot with
    | none =>
      refine ⟨hlt, ?_⟩
      have hget : s.blocking_children[slot]? = some none := by
        unfold WorkerSys.child at hchild
        rw [List.getElem?_eq_getElem hlt] at hchild ⊢
        exact congrArg some hchild
      simp [hchild, set_same hget]
    | some c =>
      refine ⟨hlt, ?_⟩
      simp only [hchild, Option.map_some]
      rfl
  | none =>
    refine ⟨4, ?_⟩
    have hnone : s.child s.blocking_children.length = none := by
      unfold WorkerSys.child
      rw [List.getElem?_eq_none (le_refl _)]
      rfl
    simp only [hnone, Option.map_none]
    refine ⟨by omega, ?_⟩
    rw [set_same]
    rw [List.getElem?_append_right (Nat.le_refl _), Nat.sub_self]
    rfl

theorem availableBlockingChildSlot_zero
    (h : s.blocking_children = [] ∨ ∃ c, s.child 0 = some c ∧ c.reusable = true) :
    (availableBlockingChildSlot s).2 = 0 := by
  unfold availableBlockingChildSlot
  rcases h with hnil | ⟨c, hc, hreuse⟩
  · rw [hnil]
    rfl
  · have hfind : s.blocking_children.findIdx? slotAvailable = some 0 := by
      have hlt := WorkerSys.lt_of_child hc
      unfold WorkerSys.child at hc
      cases hcs : s.blocking_children with
      | nil =>
        rw [hcs] at hlt
        exact absurd hlt (Nat.not_lt_zero 0)
      | cons o os =>
        rw [hcs] at hc
        have ho : o = some c := hc
        rw [List.findIdx?_cons, ho]
        simp [slotAvailable, hreuse]
    simp only [hfind, hc]

theorem chooseSlot_perQuery (hq : s.worker_per_query = true) :
    chooseSlot s = availableBlockingChildSlot s := by
  have hneeds : needsSlot s = true := by
    unfold needsSlot
    rw [hq]
    rfl
  unfold chooseSlot
  simp [hneeds, hq]

section

variable (h : WorkerInv s) (hq : s.worker_per_query = false)

include h hq

/-- A request to the shared worker. What the timer is set to does not matter below. -/
theorem chooseSlot_shared {r : WorkerSys × Nat}
    (hr : r = if needsSlot s then availableBlockingChildSlot s else (s, 0)) (hr0 : r.2 = 0) :
    (chooseSlot s).2 = 0 ∧ (chooseSlot s).1.intres_slot = some 0 ∧
      (chooseSlot s).1.blocking_children = r.1.blocking_children ∧
      deskOf (chooseSlot s).1 = deskOf r.1 ∧
      (chooseSlot s).1.worker_per_query = r.1.worker_per_query ∧
      (chooseSlot s).1.insisted = r.1.insisted := by
  have hslot : s.intres_slot.getD r.2 = 0 := by
    rcases h.shared hq with ⟨hnone, -⟩ | ⟨hsome, -⟩
    · rw [hnone]
      exact hr0
    · rw [hsome]
      rfl
  unfold chooseSlot
  simp only [← hr, hq, Bool.false_eq_true, if_false, hslot]
  split
  · exact ⟨trivial, rfl, rfl, rfl, rfl, rfl⟩
  · exact ⟨trivial, rfl, rfl, rfl, rfl, rfl⟩

/-- The shared worker gets slot zero, at first and when it gave the slot up. -/
theorem availableBlockingChildSlot_shared (hneeds : needsSlot s = true) :
    (availableBlockingChildSlot s).2 = 0 := by
  apply availableBlockingChildSlot_zero
  rcases h.shared hq with ⟨-, hnil⟩ | ⟨hsome, c, hc⟩
  · exact .inl hnil
  · right
    unfold needsSlot at hneeds
    rw [hq, hsome] at hneeds
    simpa [hc] using hneeds

theorem child_zero_of_not_needsSlot (hneeds : ¬needsSlot s = true) :
    ∃ c, s.child 0 = some c ∧ c.reusable = false := by
  unfold needsSlot at hneeds
  rcases h.shared hq with ⟨hnone, -⟩ | ⟨hsome, c, hc⟩
  · rw [hq, hnone] at hneeds
    exact absurd rfl hneeds
  · rw [hq, hsome] at hneeds
    simpa [hc] using hneeds

end

/-- The slot of a request is claimed, the logs stay as they are, and the
    shared worker has slot zero. -/
theorem chooseSlot_spec (h : WorkerInv s) :
    ∃ slots, (chooseSlot s).2 < s.blocking_children.length + slots ∧
      (chooseSlot s).1.blocking_children = (s.blocking_children ++ List.replicate slots none).set
        (chooseSlot s).2 ((s.child (chooseSlot s).2).map claimed) ∧
      (s.worker_per_query = false → (chooseSlot s).1.intres_slot = some 0 ∧ (chooseSlot s).2 = 0) ∧
      (s.worker_per_query = true → (chooseSlot s).1.intres_slot = none) ∧
      { deskOf (chooseSlot s).1 with loads := (deskOf s).loads } = deskOf s ∧
      (chooseSlot s).1.worker_per_query = s.worker_per_query ∧
      (chooseSlot s).1.insisted = s.insisted := by
  obtain ⟨slots, hlt, hstate⟩ := availableBlockingChildSlot_spec s
  cases hq : s.worker_per_query with
  | true =>
    rw [chooseSlot_perQuery hq]
    refine ⟨slots, hlt, ?_, ?_, ?_, ?_, ?_, ?_⟩
    · rw [hstate]
    · intro hfalse
      cases hfalse
    · intro _
      rw [hstate]
      exact h.own hq
    · rw [hstate]
      rfl
    · rw [hstate]
      exact hq
    · rw [hstate]
  | false =>
    by_cases hneeds : needsSlot s = true
    · have hzero := availableBlockingChildSlot_shared h hq hneeds
      obtain ⟨hslot, hintres, hchildren, hdesk, hquery, hins⟩ :=
        chooseSlot_shared h hq (if_pos hneeds).symm hzero
      rw [hzero] at hlt hstate
      refine ⟨slots, by rw [hslot]; exact hlt, ?_, ?_, ?_, ?_, ?_, ?_⟩
      · rw [hchildren, hslot, hstate]
      · intro _
        exact ⟨hintres, hslot⟩
      · intro htrue
        cases htrue
      · rw [hdesk, hstate]
        rfl
      · rw [hquery, hstate, hq]
      · rw [hins, hstate]
    · obtain ⟨c, hc, hreuse⟩ := child_zero_of_not_needsSlot h hq hneeds
      obtain ⟨hslot, hintres, hchildren, hdesk, hquery, hins⟩ :=
        chooseSlot_shared h hq (r := (s, 0)) (if_neg hneeds).symm rfl
      have hsame : claimed c = c := by
        unfold claimed
        rw [← hreuse]
      refine ⟨0, by rw [hslot]; exact WorkerSys.lt_of_child hc, ?_, ?_, ?_, ?_, ?_, ?_⟩
      · rw [hchildren, hslot, hc, Option.map_some, hsame, replicate_zero, append_nil]
        exact (set_same (WorkerSys.getElem?_of_child hc)).symm
      · intro _
        exact ⟨hintres, hslot⟩
      · intro htrue
        cases htrue
      · rw [hdesk]
      · rw [hquery, hq]
      · rw [hins]

/-- A child that stands in the slot of a request serves it. -/
theorem servesNext_chooseSlot (h : WorkerInv s) (hc : s.child (chooseSlot s).2 = some c) :
    ServesNext s (chooseSlot s).2 := by
  obtain ⟨-, -, -, hshared, -⟩ := chooseSlot_spec h
  unfold ServesNext
  cases hq : s.worker_per_query with
  | true =>
    have hchoose : chooseSlot s = availableBlockingChildSlot s := by
      unfold chooseSlot needsSlot
      simp [hq]
    rw [hchoose] at hc ⊢
    unfold availableBlockingChildSlot at hc ⊢
    cases hfind : s.blocking_children.findIdx? slotAvailable with
    | none =>
      -- A slot that is made for the request has no child.
      rw [hfind] at hc
      exact absurd (WorkerSys.lt_of_child hc) (lt_irrefl _)
    | some slot =>
      simp only
      cases s.child slot with
      | none | some _ => rfl
  | false =>
    obtain ⟨-, hzero⟩ := hshared hq
    rw [hzero] at hc ⊢
    rcases h.shared hq with ⟨-, hnil⟩ | ⟨hsome, -⟩
    · have hlt := WorkerSys.lt_of_child hc
      rw [hnil] at hlt
      exact absurd hlt (Nat.not_lt_zero 0)
    · exact hsome

/-- What the condition says of the load a request is added to. -/
theorem exits_of_unhindered (hk : StandsFor c l) (hexit : some .childExit ∉ c.workitems)
    (hgone : some .childGone ∉ c.responses) : l.exits = 0 ∧ l.phase ≠ .leaving := by
  constructor
  · by_contra hne
    apply hexit
    rw [← Ring.mem_items _ c.next_workeritem, Ring.Holds.items_eq hk.reqs]
    exact mem_append_right _ (mem_replicate.mpr ⟨hne, rfl⟩)
  · intro hp
    apply hgone
    rw [← Ring.mem_items _ c.next_workresp, Ring.Holds.items_eq hk.resps]
    unfold Load.respPtrs
    rw [hp]
    exact mem_append_right _ (mem_singleton.mpr rfl)

theorem send_claimed (h : WorkerInv s) (hshort : RingsShort s) {slot : Nat}
    (hfree : ∀ c, s.child slot = some c →
      some .childExit ∉ c.workitems ∧ some .childGone ∉ c.responses)
    {hdr : PipeHeader} (ho : HEADER_OCTETS < hdr.octets) :
    ∃ l d, ((deskOf s).load slot).getD {} = l ∧ l.exits = 0 ∧ l.phase ≠ .leaving ∧
      sendBlockingReqInternal (((s.child slot).map claimed).getD {}) hdr = some d ∧
      StandsFor d (l.addWork hdr) := by
  rw [deskOf_load]
  cases hc : s.child slot with
  | none =>
    obtain ⟨d, hsend, hd⟩ := standsFor_fresh ho
    exact ⟨{}, d, rfl, rfl, by simp, hsend, hd⟩
  | some c =>
    have hk := h.keeps slot c hc
    obtain ⟨hexit, hgone⟩ := hfree c hc
    obtain ⟨hexits, hphase⟩ := exits_of_unhindered hk hexit hgone
    obtain ⟨d, hsend, hd⟩ := hk.send hexits hphase (h.room hshort hc) ho
    exact ⟨loadOf c, d, rfl, hexits, hphase, hsend, hd⟩

/-- The children after a request: perhaps more slots, and another child in one of them. -/
structure Sent (s t : WorkerSys) (slots slot : Nat) (d : BlockingChild) : Prop where
  lt : slot < s.blocking_children.length + slots
  children : t.blocking_children =
    (s.blocking_children ++ List.replicate slots none).set slot (some d)

theorem Sent.child {t : WorkerSys} {slots slot : Nat} {d : BlockingChild}
    (h : Sent s t slots slot d) (j : Nat) : t.child j = if slot = j then some d else s.child j := by
  have hlen : slot < (s.blocking_children ++ List.replicate slots none).length := by
    rw [length_append, length_replicate]
    exact h.lt
  unfold WorkerSys.child
  rw [h.children, join_getElem?_set hlen, join_getElem?_append]

theorem Sent.loads {t : WorkerSys} {slots slot : Nat} {d : BlockingChild}
    (h : Sent s t slots slot d) (hd : StandsFor d l) :
    (deskOf t).loads =
      ((deskOf s).loads ++ List.replicate slots none).set slot (some l) := by
  unfold deskOf
  rw [h.children, map_set, map_append, map_replicate, Option.map_some, hd.loadOf_eq]
  rfl

theorem queueBlockingRequest_desk (h : WorkerInv s) (hshort : RingsShort s) {rtype : WorkReq}
    {reqsize done_func context : Nat}
    (hcond : Unhindered s (.queue rtype reqsize done_func context)) :
    WorkerInv (queueBlockingRequest s rtype reqsize done_func context) ∧
      DeskStep (deskOf s) (.queue rtype reqsize done_func context)
        (deskOf (queueBlockingRequest s rtype reqsize done_func context)) := by
  obtain ⟨slots, hlt, hchildren, hshared, hown, hdesk, hquery, hins⟩ := chooseSlot_spec h
  obtain ⟨hsize, hfree⟩ := hcond
  replace hfree := fun c hc =>
    hfree _ (WorkerSys.lt_of_child hc) c hc (servesNext_chooseSlot h hc)
  unfold queueBlockingRequest
  simp only
  generalize (chooseSlot s).2 = slot at *
  generalize (chooseSlot s).1 = t at *
  have hlen : slot < (s.blocking_children ++ List.replicate slots none).length := by
    rw [length_append, length_replicate]
    exact hlt
  have hchild : t.child slot = (s.child slot).map claimed := by
    unfold WorkerSys.child
    rw [hchildren, List.getElem?_set_self hlen]
    rfl
  -- The request as it is sent, and what the child makes of it.
  generalize hhdr : requestHeader { t with intres_req_pending := t.intres_req_pending + 1 } slot
    rtype reqsize done_func context = hdr
  have hoctets : HEADER_OCTETS < hdr.octets := by
    rw [← hhdr]
    exact Nat.lt_add_of_pos_right hsize
  have hserial : hdr.serial = s.accepted.length := by
    rw [← hhdr, ← show t.accepted = s.accepted from congrArg Desk.accepted hdesk]
    rfl
  obtain ⟨l, d, hl, hexits, hphase, hsend, hd⟩ := send_claimed h hshort hfree hoctets
  have hresult : sendToSlot { t with intres_req_pending := t.intres_req_pending + 1 } slot hdr =
      { t with
        intres_req_pending := t.intres_req_pending + 1
        blocking_children := t.blocking_children.set slot (some d)
        accepted := t.accepted ++ [hdr] } := by
    unfold sendToSlot
    rw [← hchild] at hsend
    have hsend' : sendBlockingReqInternal ((WorkerSys.child { t with
      intres_req_pending := t.intres_req_pending + 1 } slot).getD {}) hdr = some d := hsend
    simp only [hsend']
    rfl
  rw [hresult]
  have hsent : Sent s { t with
      intres_req_pending := t.intres_req_pending + 1
      blocking_children := t.blocking_children.set slot (some d)
      accepted := t.accepted ++ [hdr] } slots slot d :=
    ⟨hlt, by simp only [hchildren, set_set]⟩
  constructor
  · refine ⟨?_, ?_, ?_, ?_⟩
    · intro j e he
      rw [hsent.child] at he
      by_cases hj : slot = j
      · rw [if_pos hj] at he
        cases he
        rw [hd.loadOf_eq]
        exact hd
      · rw [if_neg hj] at he
        exact h.keeps j e he
    · intro hq
      obtain ⟨hintres, hzero⟩ := hshared (hquery.symm.trans hq)
      exact .inr ⟨hintres, d, by rw [hsent.child, if_pos hzero]⟩
    · intro hq
      exact hown (hquery.symm.trans hq)
    · exact hins.trans h.sound
  · have hlt' : slot < (deskOf s).loads.length + slots := by
      unfold deskOf
      rw [length_map]
      exact hlt
    have hstep := DeskStep.queue (deskOf s) rtype reqsize done_func context slot slots l hdr
      hlt' hl hexits hphase hserial
    have haccepted : (deskOf s).accepted = t.accepted := (congrArg Desk.accepted hdesk).symm
    have htaken : (deskOf s).taken = t.taken := (congrArg Desk.taken hdesk).symm
    have hcompleted : (deskOf s).completed = t.completed := (congrArg Desk.completed hdesk).symm
    have hpending : (deskOf s).pending = t.intres_req_pending :=
      (congrArg Desk.pending hdesk).symm
    rw [← hsent.loads hd, haccepted, htaken, hcompleted, hpending] at hstep
    exact hstep

theorem workerStep_desk {e : WorkerEvent} (h : WorkerInv s) (hshort : RingsShort s)
    (hcond : Unhindered s e) :
    WorkerInv (workerStep s e) ∧ DeskStep (deskOf s) e (deskOf (workerStep s e)) := by
  -- Without a child there is nothing to do.
  have hnone : ∀ {i : Nat} {P : Load → Prop}, s.child i = none →
      ¬∃ l, (deskOf s).load i = some l ∧ P l := by
    rintro i P hc ⟨l, hl, -⟩
    rw [deskOf_load, hc] at hl
    cases hl
  cases e with
  | queue rtype reqsize done_func context => exact queueBlockingRequest_desk h hshort hcond
  | tick => exact workerTick_desk h hshort
  | process i =>
    simp only [workerStep]
    cases hc : s.child i with
    | none => exact ⟨h, .idle _ _ (hnone hc)⟩
    | some c =>
      simp only
      by_cases hpipe : c.resp_pipe = 0
      · rw [if_pos hpipe]
        refine ⟨h, .idle _ _ ?_⟩
        rintro ⟨l, hl, hne⟩
        rw [deskOf_load_some hc] at hl
        cases hl
        apply hne
        rw [(h.keeps i c hc).pipe] at hpipe
        exact length_eq_zero_iff.mp hpipe
      · rw [if_neg hpipe]
        exact process_desk h hshort hc hpipe
  | receive i =>
    simp only [workerStep]
    cases hc : s.child i with
    | none => exact ⟨h, .idle _ _ (hnone hc)⟩
    | some c => exact workerReceive_desk h hc (hcond c hc)
  | respond i respsize =>
    simp only [workerStep]
    cases hc : s.child i with
    | none => exact ⟨h, .idle _ _ (hnone hc)⟩
    | some c => exact workerRespond_desk h hc (hcond c hc) respsize

end NtpSuite
