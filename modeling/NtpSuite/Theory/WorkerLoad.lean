import NtpSuite.Theory.WorkerRing

/-!
# What a Worker Has to Do

A child, seen from outside, is a short list of things: requests that wait,
exit requests behind them, perhaps one request in the resolver, and answers
nobody has collected. `Load` is that view, and `StandsFor` says that a child with
all its indices, counters and handles stands for a load.

Three phases make up the life of a worker. It is absent until a request
starts it and after its exit has been noticed. It runs. And it is leaving
between the moment it takes an exit request and the moment the main thread
finds the notice in the ring of responses and cleans up, which empties both
rings. `StandsFor` has the reason why the cleanup loses nothing: a worker that is
not running has no request waiting. That is true only as long as requests are
not queued behind exit requests.

Each operation of the source is shown to do to the load what it should.

## Main definitions

* `Load`: The view of a child from outside.
* `StandsFor`: A child stands for a load.
* `loadOf`: The load a child stands for.

## Theorems

* `StandsFor.loadOf_eq`: The load is determined by the child.
* `StandsFor.send`, `standsFor_fresh`: A request is put at the end.
* `StandsFor.exit`: An exit request is put at the end.
* `StandsFor.receive_work`, `StandsFor.receive_exit`: The worker takes what is first.
* `StandsFor.respond`: The request in the resolver becomes an answer.
* `StandsFor.drain`, `StandsFor.drain_gone`: The main thread collects all answers.
-/

namespace NtpSuite

open List

/-- The life of a worker. -/
inductive WorkerPhase where
  | absent | running | leaving
deriving DecidableEq, Repr

/-- What a worker has to do. -/
structure Load where
  phase : WorkerPhase := .absent
  works : List PipeHeader := []
  exits : Nat := 0
  busy : Option PipeHeader := none
  answers : List PipeHeader := []
deriving DecidableEq, Repr

/-- The ring of requests. -/
def Load.reqPtrs (l : Load) : List ReqPtr :=
  l.works.map .work ++ List.replicate l.exits .childExit

/-- The ring of responses. -/
def Load.respPtrs (l : Load) : List RespPtr :=
  l.answers.map .work ++ if l.phase = .leaving then [.childGone] else []

/-- Where the thread is. -/
def Load.thread (l : Load) : ThreadState :=
  match l.phase, l.busy with
  | .running, none => .waiting
  | .running, some req => .resolving req
  | _, _ => .none

/-- The child stands for the load. -/
structure StandsFor (c : BlockingChild) (l : Load) : Prop where
  reqs : HoldsReqs c l.reqPtrs
  resps : HoldsResps c l.respPtrs
  size : WORKITEMS_ALLOC_INC ≤ c.workitems.length
  thread : c.thread = l.thread
  thread_ref : c.thread_ref = decide (l.phase ≠ .absent)
  reusable : c.reusable = decide (l.phase = .absent)
  sem : l.phase = .running → c.blocking_req_ready = l.works.length + l.exits
  pipe : c.resp_pipe = l.respPtrs.length
  calm : l.phase ≠ .running → l.works = [] ∧ l.busy = none
  clear : l.phase = .absent → l.answers = []

/-! ### The load of a child -/

/-- The request behind a pointer. -/
def ReqPtr.header? : ReqPtr → Option PipeHeader
  | .work hdr => some hdr
  | .childExit => none

/-- The response behind a pointer. -/
def RespPtr.header? : RespPtr → Option PipeHeader
  | .work hdr => some hdr
  | .childGone => none

/-- The load, read off the fields of the child. -/
def loadOf (c : BlockingChild) : Load where
  phase := if c.thread_ref then if c.thread = .none then .leaving else .running else .absent
  works := (Ring.items c.workitems c.next_workeritem).filterMap ReqPtr.header?
  exits := (Ring.items c.workitems c.next_workeritem).count .childExit
  busy := match c.thread with
    | .resolving req => some req
    | _ => none
  answers := (Ring.items c.responses c.next_workresp).filterMap RespPtr.header?

theorem filterMap_reqPtrs (l : Load) : l.reqPtrs.filterMap ReqPtr.header? = l.works := by
  unfold Load.reqPtrs
  simp [Function.comp_def, ReqPtr.header?]

theorem count_reqPtrs (l : Load) : l.reqPtrs.count .childExit = l.exits := by
  unfold Load.reqPtrs
  have hworks : (l.works.map ReqPtr.work).count .childExit = 0 := by
    rw [count_eq_zero]
    simp
  rw [count_append, hworks, count_replicate_self, zero_add]

theorem filterMap_respPtrs (l : Load) : l.respPtrs.filterMap RespPtr.header? = l.answers := by
  unfold Load.respPtrs
  split <;> simp [Function.comp_def, RespPtr.header?]

variable {c : BlockingChild} {l : Load}

theorem StandsFor.loadOf_eq (h : StandsFor c l) : loadOf c = l := by
  have hreqs := Ring.Holds.items_eq h.reqs
  have hresps := Ring.Holds.items_eq h.resps
  have hthread := h.thread
  have href := h.thread_ref
  have hcalm := h.calm
  unfold loadOf
  rw [hreqs, hresps, filterMap_reqPtrs, count_reqPtrs, filterMap_respPtrs, hthread, href]
  -- The phase and the request in the resolver are read off the thread.
  cases l with
  | mk phase works exits busy answers =>
    cases phase with
    | absent =>
      obtain ⟨-, rfl⟩ := hcalm (by simp)
      rfl
    | running =>
      cases busy with
      | none | some req => rfl
    | leaving =>
      obtain ⟨-, rfl⟩ := hcalm (by simp)
      rfl

/-- Fewer pointers wait than the ring has slots, so the next one is free. -/
theorem StandsFor.free (h : StandsFor c l) (hroom : l.reqPtrs.length < WORKITEMS_ALLOC_INC) :
    c.workitems[c.next_workitem]? = some none :=
  Ring.Holds.free h.reqs (lt_of_lt_of_le hroom h.size)

theorem growsAtStart_of_free {β : Type} {slots : List (Option β)} {next : Nat}
    (h : slots[next]? = some none) : GrowsAtStart slots next := by
  unfold GrowsAtStart
  rw [h]
  intro hsome
  cases hsome

theorem growsAtStart_of_nil (h : HoldsResps c []) : GrowsAtStart c.responses c.next_response := by
  by_cases hnil : c.responses = []
  · rw [hnil]
    intro hsome
    cases hsome
  · exact growsAtStart_of_free (Ring.Holds.free h (length_pos_of_ne_nil hnil))

/-! ### Requests and exit requests -/

theorem StandsFor.exit (h : StandsFor c l) (hroom : l.reqPtrs.length < WORKITEMS_ALLOC_INC) :
    StandsFor (reqChildExit c) { l with exits := l.exits + 1 } where
  __ := h
  reqs := by
    have hput := queueReqPointer_holds h.reqs (h.free hroom) .childExit
    unfold Load.reqPtrs at hput ⊢
    rw [append_assoc, ← replicate_succ'] at hput
    exact hput
  size := by
    unfold reqChildExit queueReqPointer
    rw [length_set]
    exact h.size
  sem := by
    intro hrun
    show c.blocking_req_ready + 1 = l.works.length + (l.exits + 1)
    rw [h.sem hrun, add_assoc]

theorem le_length_ensureEmptySlot {β : Type} (inc : Nat) (slots : List (Option β)) (next : Nat) :
    slots.length ≤ (ensureEmptySlot inc slots next).1.length := by
  unfold ensureEmptySlot
  split
  · exact le_refl _
  · rw [length_append]
    exact Nat.le_add_right _ _

variable {hdr : PipeHeader}

theorem send_running (ho : HEADER_OCTETS < hdr.octets) (ht : c.thread_ref = true) :
    sendBlockingReqInternal c hdr =
      some (queueReqPointer (ensureWorkitemsEmptySlot c) (.work hdr)) := by
  unfold sendBlockingReqInternal
  rw [if_neg (not_le.mpr ho)]
  have ht' : (ensureWorkitemsEmptySlot c).thread_ref = true := ht
  simp [ht']

theorem send_absent (ho : HEADER_OCTETS < hdr.octets) (ht : c.thread_ref = false) :
    sendBlockingReqInternal c hdr =
      some (queueReqPointer (startBlockingThread (ensureWorkrespEmptySlot
        (ensureWorkitemsEmptySlot c))) (.work hdr)) := by
  unfold sendBlockingReqInternal
  rw [if_neg (not_le.mpr ho)]
  have ht' : (ensureWorkitemsEmptySlot c).thread_ref = false := ht
  simp [ht']

/-- The load after a request is put at the end. -/
def Load.addWork (l : Load) (hdr : PipeHeader) : Load :=
  { l with phase := .running, works := l.works ++ [hdr] }

/-- With no exit request before it, a request is the last pointer. -/
theorem reqPtrs_addWork (hexits : l.exits = 0) (hdr : PipeHeader) :
    (l.addWork hdr).reqPtrs = l.reqPtrs ++ [.work hdr] := by
  unfold Load.reqPtrs Load.addWork
  rw [hexits]
  simp

/-- A child that is given its first thread, or one again. Nothing is known of
    it but that its rings are empty. -/
theorem standsFor_started (hreqs : HoldsReqs c []) (hresps : HoldsResps c [])
    (hgrow : GrowsAtStart c.workitems c.next_workitem)
    (hsize : c.workitems = [] ∨ WORKITEMS_ALLOC_INC ≤ c.workitems.length)
    (hreusable : c.reusable = false) :
    StandsFor (queueReqPointer (startBlockingThread (ensureWorkrespEmptySlot
      (ensureWorkitemsEmptySlot c))) (.work hdr)) (Load.addWork {} hdr) := by
  obtain ⟨hroom, hfree⟩ := ensureWorkitems_holds hreqs hgrow
  have hresps' := (ensureWorkresp_holds (c := ensureWorkitemsEmptySlot c) hresps
    (growsAtStart_of_nil hresps)).1
  have hput := queueReqPointer_holds (c := startBlockingThread
    (ensureWorkrespEmptySlot (ensureWorkitemsEmptySlot c))) hroom hfree (.work hdr)
  refine ⟨hput, hresps', ?_, rfl, rfl, hreusable, fun _ => rfl, rfl, ?_, ?_⟩
  · show WORKITEMS_ALLOC_INC ≤ ((ensureEmptySlot WORKITEMS_ALLOC_INC c.workitems
      c.next_workitem).1.set _ _).length
    rw [length_set]
    rcases hsize with hnil | hlen
    · rw [hnil]
      simp [ensureEmptySlot]
    · exact le_trans hlen (le_length_ensureEmptySlot _ _ _)
  · intro hrun
    exact absurd rfl hrun
  · intro habsent
    cases habsent

theorem standsFor_fresh (ho : HEADER_OCTETS < hdr.octets) :
    ∃ d, sendBlockingReqInternal {} hdr = some d ∧ StandsFor d (Load.addWork {} hdr) :=
  ⟨_, send_absent ho rfl,
    standsFor_started Ring.holds_nil Ring.holds_nil nofun (.inl rfl) rfl⟩

section

variable (h : StandsFor c l)

include h

/-- A request is put at the end, if there is no exit request in the ring and
    the worker is not leaving. -/
theorem StandsFor.send (hexits : l.exits = 0) (hphase : l.phase ≠ .leaving)
    (hroom : l.reqPtrs.length < WORKITEMS_ALLOC_INC) (ho : HEADER_OCTETS < hdr.octets) :
    ∃ d, sendBlockingReqInternal { c with reusable := false } hdr = some d ∧
      StandsFor d (l.addWork hdr) := by
  have hgrow := growsAtStart_of_free (h.free hroom)
  cases hp : l.phase with
  | leaving => exact absurd hp hphase
  | running =>
    have href : c.thread_ref = true := by
      rw [h.thread_ref, hp]
      rfl
    refine ⟨_, send_running (c := { c with reusable := false }) ho href, ?_⟩
    obtain ⟨hnext, hfree⟩ := ensureWorkitems_holds h.reqs hgrow
    have hput := queueReqPointer_holds hnext hfree (.work hdr)
    have hwas : l = { l with phase := .running } := by rw [← hp]
    refine ⟨?_, ?_, ?_, ?_, ?_, rfl, ?_, ?_, ?_, ?_⟩
    · rw [reqPtrs_addWork hexits]
      exact hput
    · have hresps := h.resps
      rw [hwas] at hresps
      exact hresps
    · show WORKITEMS_ALLOC_INC ≤ ((ensureEmptySlot WORKITEMS_ALLOC_INC c.workitems
        c.next_workitem).1.set _ _).length
      rw [length_set]
      exact le_trans h.size (le_length_ensureEmptySlot _ _ _)
    · have hthread := h.thread
      rw [hwas] at hthread
      exact hthread
    · exact href
    · intro _
      show c.blocking_req_ready + 1 = (l.works ++ [hdr]).length + l.exits
      rw [h.sem hp, length_append, length_singleton]
      omega
    · have hpipe := h.pipe
      rw [hwas] at hpipe
      exact hpipe
    · intro hrun
      exact absurd rfl hrun
    · intro habsent
      cases habsent
  | absent =>
    have href : c.thread_ref = false := by
      rw [h.thread_ref, hp]
      rfl
    -- Nothing is left of the worker that was there before.
    obtain ⟨hworks, hbusy⟩ := h.calm (by rw [hp]; simp)
    have hanswers := h.clear hp
    have hreqs := h.reqs
    have hresps := h.resps
    unfold Load.reqPtrs at hreqs
    unfold Load.respPtrs at hresps
    rw [hworks, hexits] at hreqs
    rw [hanswers, hp] at hresps
    refine ⟨_, send_absent (c := { c with reusable := false }) ho href, ?_⟩
    have hload : l.addWork hdr = Load.addWork {} hdr := by
      unfold Load.addWork
      rw [hworks, hexits, hbusy, hanswers]
    rw [hload]
    exact standsFor_started (c := { c with reusable := false }) hreqs hresps hgrow
      (.inr h.size) rfl

/-! ### The thread -/

section

variable (hp : l.phase = .running)

include hp

theorem StandsFor.receive_work {works : List PipeHeader} (hw : l.works = hdr :: works) :
    receiveBlockingReqInternal c = .got (takeReq c) (some hdr) ∧
      StandsFor { takeReq c with thread := .resolving hdr }
        { l with works := works, busy := some hdr } := by
  have hreqs : HoldsReqs c (.work hdr :: { l with works := works }.reqPtrs) := by
    have hold := h.reqs
    unfold Load.reqPtrs at hold
    rw [hw] at hold
    exact hold
  have hsem := h.sem hp
  rw [hw, length_cons] at hsem
  refine ⟨receiveReq_work hreqs (by omega), takeReq_holds hreqs, h.resps, ?_, ?_, h.thread_ref,
    h.reusable, ?_, h.pipe, ?_, h.clear⟩
  · show WORKITEMS_ALLOC_INC ≤ (c.workitems.set _ _).length
    rw [length_set]
    exact h.size
  · unfold Load.thread
    simp only [hp]
  · intro _
    show c.blocking_req_ready - 1 = works.length + l.exits
    omega
  · intro hrun
    exact absurd hp hrun

theorem StandsFor.receive_exit (hb : l.busy = none) (hw : l.works = []) {exits : Nat}
    (he : l.exits = exits + 1) (hgrow : GrowsAtStart c.responses c.next_response) :
    receiveBlockingReqInternal c = .got (sendBlockingRespInternal (takeReq c) .childGone) none ∧
      StandsFor { sendBlockingRespInternal (takeReq c) .childGone with thread := .none }
        { l with exits := exits, phase := .leaving } := by
  have hreqs : HoldsReqs c (.childExit :: { l with exits := exits }.reqPtrs) := by
    have hold := h.reqs
    unfold Load.reqPtrs at hold ⊢
    rw [hw, he] at hold
    simp only [hw]
    exact hold
  have hsem := h.sem hp
  refine ⟨receiveReq_exit hreqs (by omega), takeReq_holds hreqs, ?_, ?_, rfl, ?_, ?_, ?_, ?_, ?_,
    ?_⟩
  · -- The notice stands behind all answers.
    have hput := sendBlockingRespInternal_holds (c := takeReq c) h.resps hgrow .childGone
    have hresps : { l with exits := exits, phase := .leaving }.respPtrs =
        l.respPtrs ++ [.childGone] := by
      unfold Load.respPtrs
      rw [hp]
      simp
    rw [hresps]
    exact hput
  · show WORKITEMS_ALLOC_INC ≤ (c.workitems.set _ _).length
    rw [length_set]
    exact h.size
  · have href := h.thread_ref
    rw [hp] at href
    exact href
  · have hreu := h.reusable
    rw [hp] at hreu
    exact hreu
  · intro hrun
    cases hrun
  · show c.resp_pipe + 1 = _
    rw [h.pipe]
    unfold Load.respPtrs
    rw [hp]
    simp
  · intro _
    exact ⟨hw, hb⟩
  · intro habsent
    cases habsent

theorem StandsFor.receive_none (hw : l.works = []) (he : l.exits = 0) :
    receiveBlockingReqInternal c = .blocked := by
  apply receiveReq_blocked
  rw [h.sem hp, hw, he]
  rfl

theorem StandsFor.respond (hgrow : GrowsAtStart c.responses c.next_response) (resp : PipeHeader) :
    StandsFor { sendBlockingRespInternal c (.work resp) with thread := .waiting }
      { l with busy := none, answers := l.answers ++ [resp] } := by
  have hput := sendBlockingRespInternal_holds h.resps hgrow (.work resp)
  refine ⟨h.reqs, ?_, h.size, ?_, h.thread_ref, h.reusable, h.sem, ?_, ?_, ?_⟩
  · have hresps : { l with busy := none, answers := l.answers ++ [resp] }.respPtrs =
        l.respPtrs ++ [.work resp] := by
      unfold Load.respPtrs
      simp [hp]
    rw [hresps]
    exact hput
  · unfold Load.thread
    simp only [hp]
  · show c.resp_pipe + 1 = _
    rw [h.pipe]
    unfold Load.respPtrs
    rw [hp]
    simp
  · intro hrun
    exact absurd hp hrun
  · intro habsent
    rw [hp] at habsent
    cases habsent

end

end

/-! ### The answers -/

/-- A child some of whose responses have been taken: nothing but the reading
    side of the ring and the pipe has changed. -/
def afterTaking (c : BlockingChild) (responses : List (Option RespPtr)) (next n : Nat) :
    BlockingChild :=
  { c with
    responses := responses
    next_workresp := next
    resp_pipe := c.resp_pipe - 32 * n }

/-- The loop over the responses collects the answers that come first. -/
theorem drainResponses_works {answers : List PipeHeader} {rest : List RespPtr}
    (h : HoldsResps c (answers.map .work ++ rest)) :
    ∃ responses next, HoldsResps (afterTaking c responses next answers.length) rest ∧
      ∀ m, drainResponses (answers.length + m) c =
        ((drainResponses m (afterTaking c responses next answers.length)).1,
          answers ++ (drainResponses m (afterTaking c responses next answers.length)).2) := by
  induction answers generalizing c with
  | nil =>
    refine ⟨c.responses, c.next_workresp, h, ?_⟩
    intro m
    rw [length_nil, zero_add]
    rfl
  | cons resp answers ih =>
    obtain ⟨responses, next, hd, hdrain⟩ := ih (takeResp_holds h)
    have hafter : afterTaking (takeResp c) responses next answers.length =
        afterTaking c responses next (resp :: answers).length := by
      simp only [afterTaking, takeResp, length_cons]
      congr 1
      omega
    rw [hafter] at hd hdrain
    refine ⟨responses, next, hd, ?_⟩
    intro m
    rw [length_cons, add_right_comm, drainResponses, receiveResp_work h]
    simp [hdrain m]

/-- The number of turns of the loop is enough for all answers and one turn more. -/
theorem StandsFor.turns (h : StandsFor c l) :
    ∃ m, c.responses.length + 1 = l.answers.length + (m + 1) := by
  have hle := Ring.Holds.le h.resps
  unfold Load.respPtrs at hle
  rw [length_append, length_map] at hle
  exact ⟨c.responses.length - l.answers.length, by omega⟩

theorem StandsFor.drain (h : StandsFor c l) (hp : l.phase = .running) :
    ∃ d, drainResponses (c.responses.length + 1) c = (d, l.answers) ∧
      StandsFor d { l with answers := [] } := by
  have hresps := h.resps
  have hpipe := h.pipe
  unfold Load.respPtrs at hresps hpipe
  rw [hp] at hresps hpipe
  simp only [reduceCtorEq, if_false, append_nil, length_map] at hpipe
  obtain ⟨responses, next, hd, hdrain⟩ := drainResponses_works hresps
  obtain ⟨m, hm⟩ := h.turns
  have hnil : HoldsResps (afterTaking c responses next l.answers.length) [] := hd
  refine ⟨afterTaking c responses next (l.answers.length + 1), ?_, ?_⟩
  · rw [hm, hdrain (m + 1), drainResponses]
    simp only [receiveResp_nil hnil, append_nil]
    rfl
  · refine { h with resps := ?_, pipe := ?_, clear := ?_ }
    · rw [hp]
      exact hd
    · show c.resp_pipe - 32 * (l.answers.length + 1) = _
      unfold Load.respPtrs
      rw [hp]
      simp only [reduceCtorEq, if_false, map_nil, append_nil, length_nil]
      omega
    · intro _
      rfl

/-- The main thread collects the answers of a worker that is leaving, finds
    the notice and cleans up. -/
theorem StandsFor.drain_gone (h : StandsFor c l) (hp : l.phase = .leaving) :
    ∃ d, drainResponses (c.responses.length + 1) c = (d, l.answers) ∧ StandsFor d {} := by
  have hresps := h.resps
  unfold Load.respPtrs at hresps
  rw [hp] at hresps
  obtain ⟨responses, next, hd, hdrain⟩ := drainResponses_works hresps
  obtain ⟨m, hm⟩ := h.turns
  refine ⟨cleanupAfterChild (takeResp (afterTaking c responses next l.answers.length)), ?_, ?_⟩
  · rw [hm, hdrain (m + 1), drainResponses]
    simp [receiveResp_gone hd]
  · have hthread := h.thread
    unfold Load.thread at hthread
    rw [hp] at hthread
    refine ⟨Ring.holds_replicate _, Ring.holds_replicate _, ?_, hthread, rfl, rfl, ?_, rfl, ?_, ?_⟩
    · show WORKITEMS_ALLOC_INC ≤ (List.replicate c.workitems.length none).length
      rw [length_replicate]
      exact h.size
    · intro hrun
      cases hrun
    · intro _
      exact ⟨rfl, rfl⟩
    · intro _
      rfl

end NtpSuite
