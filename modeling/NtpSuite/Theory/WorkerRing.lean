import NtpSuite.Lib.Ring
import NtpSuite.Lib.Run
import NtpSuite.Core.Worker

/-!
# The Rings of a Worker

Both rings of a worker are queues as long as they are enlarged at the right
moment.

A ring that is full has its write index where its read index is. When one
more item is to go in, the source enlarges the array at its end, and moves the
write index to the first new slot if it was zero. If it was not, the index
stays, and the oldest item is overwritten: the queue loses an item, the
newest is read in its place, and the reader will come to an empty slot while
the semaphore says that there is something. `GrowsAtStart` is the condition
on a step that this does not happen.

The first part is about the functions of the source on one child, for any
items in its rings. The second runs them against each other.

## Main definitions

* `GrowsAtStart`: The ring has room at its write index or is written at its
  start.
* `RingSys`, `ringStep`: A child whose rings are used from both ends.

## Theorems

* `ensureEmptySlot_holds`: Enlarging keeps the queue and makes room.
* `queueReqPointer_holds`, `sendBlockingRespInternal_holds`: Writing appends.
* `worker_rings_fifo`: Both rings are queues along every run.
-/

namespace NtpSuite

open List

/-! ### One operation -/

/-- If the slot at the write index is occupied, the index is zero. -/
def GrowsAtStart {β : Type} (slots : List (Option β)) (next : Nat) : Prop :=
  (slots[next]?).join.isSome → next = 0

instance {β : Type} (slots : List (Option β)) (next : Nat) :
    Decidable (GrowsAtStart slots next) := by unfold GrowsAtStart; infer_instance

/-- The ring of requests of a child holds a queue. -/
def HoldsReqs (c : BlockingChild) (items : List ReqPtr) : Prop :=
  Ring.Holds c.workitems c.next_workeritem c.next_workitem items

/-- The ring of responses of a child holds a queue. -/
def HoldsResps (c : BlockingChild) (items : List RespPtr) : Prop :=
  Ring.Holds c.responses c.next_workresp c.next_response items

variable {hdr : PipeHeader}

/-- Making sure of an empty slot keeps the queue, if the array grows at its start only. -/
theorem ensureEmptySlot_holds {β : Type} {inc : Nat} (hinc : 0 < inc) {slots : List (Option β)}
    {rd wr : Nat} {items : List β} (h : Ring.Holds slots rd wr items)
    (hgrow : GrowsAtStart slots wr) :
    Ring.Holds (ensureEmptySlot inc slots wr).1 rd (ensureEmptySlot inc slots wr).2 items ∧
      (ensureEmptySlot inc slots wr).1[(ensureEmptySlot inc slots wr).2]? = some none := by
  unfold ensureEmptySlot
  split
  · rename_i hroom
    have hlt := h.wr_lt hroom.1
    have hget := List.getElem?_eq_getElem hlt
    have hnone : slots[wr] = none := by
      have hjoin := hroom.2
      rw [hget] at hjoin
      exact Option.isNone_iff_eq_none.mp hjoin
    rw [hnone] at hget
    exact ⟨h, hget⟩
  · rename_i hfull
    -- The array is not there yet, or its slot at the write index is occupied.
    have hzero : wr = 0 := by
      by_cases hnil : slots = []
      · rw [h.wr_eq, h.rd_nil hnil, hnil]
        have hle := h.le
        rw [hnil] at hle
        rw [length_nil, Nat.mod_zero]
        exact Nat.add_eq_zero_iff.mpr ⟨rfl, Nat.le_zero.mp hle⟩
      · apply hgrow
        rw [Option.isSome_iff_ne_none]
        intro hnone
        exact hfull ⟨hnil, by rw [hnone]; rfl⟩
    subst hzero
    rw [if_pos rfl]
    have hocc : slots[0]? ≠ some none := by
      intro hempty
      apply hfull
      constructor
      · intro hnil
        rw [hnil] at hempty
        cases hempty
      · rw [hempty]
        rfl
    refine ⟨Ring.holds_grow h hocc hinc, ?_⟩
    rw [List.getElem?_append_right (Nat.le_refl _), Nat.sub_self, List.getElem?_replicate,
      if_pos hinc]

variable {c : BlockingChild} {items : List RespPtr} {s : RingSys} {reqs resps : List PipeHeader}

/-- There is room at the write index of the ring of requests. -/
theorem ensureWorkitems_holds {items : List ReqPtr} (h : HoldsReqs c items)
    (hgrow : GrowsAtStart c.workitems c.next_workitem) :
    HoldsReqs (ensureWorkitemsEmptySlot c) items ∧
      (ensureWorkitemsEmptySlot c).workitems[(ensureWorkitemsEmptySlot c).next_workitem]? =
        some none :=
  ensureEmptySlot_holds (by decide) h hgrow

/-- There is room at the write index of the ring of responses. -/
theorem ensureWorkresp_holds (h : HoldsResps c items)
    (hgrow : GrowsAtStart c.responses c.next_response) :
    HoldsResps (ensureWorkrespEmptySlot c) items ∧
      (ensureWorkrespEmptySlot c).responses[(ensureWorkrespEmptySlot c).next_response]? =
        some none :=
  ensureEmptySlot_holds (by decide) h hgrow

theorem queueReqPointer_holds {items : List ReqPtr} (h : HoldsReqs c items)
    (hfree : c.workitems[c.next_workitem]? = some none) (p : ReqPtr) :
    HoldsReqs (queueReqPointer c p) (items ++ [p]) := by
  have hput := Ring.holds_put h hfree p
  exact hput

theorem sendBlockingRespInternal_holds (h : HoldsResps c items)
    (hgrow : GrowsAtStart c.responses c.next_response) (p : RespPtr) :
    HoldsResps (sendBlockingRespInternal c p) (items ++ [p]) := by
  obtain ⟨hholds, hfree⟩ := ensureWorkresp_holds h hgrow
  exact Ring.holds_put hholds hfree p

/-- What stands at the read index of a queue that is not empty. -/
theorem HoldsReqs.first {p : ReqPtr} {items : List ReqPtr} (h : HoldsReqs c (p :: items)) :
    (c.workitems[c.next_workeritem]?).join = some p := by
  rw [(Ring.holds_take h).1]
  rfl

theorem HoldsResps.first {p : RespPtr} (h : HoldsResps c (p :: items)) :
    (c.responses[c.next_workresp]?).join = some p := by
  rw [(Ring.holds_take h).1]
  rfl

theorem HoldsResps.first_nil (h : HoldsResps c []) :
    (c.responses[c.next_workresp]?).join = none := by
  by_cases hnil : c.responses = []
  · rw [hnil]
    rfl
  · rw [Ring.Holds.first h hnil]
    rfl

/-- A child whose next request has been taken. -/
def takeReq (c : BlockingChild) : BlockingChild :=
  { c with
    blocking_req_ready := c.blocking_req_ready - 1
    workitems := c.workitems.set c.next_workeritem none
    next_workeritem := (1 + c.next_workeritem) % c.workitems.length }

/-- A child whose next response has been taken. -/
def takeResp (c : BlockingChild) : BlockingChild :=
  { c with
    resp_pipe := c.resp_pipe - 32
    responses := c.responses.set c.next_workresp none
    next_workresp := (1 + c.next_workresp) % c.responses.length }

theorem takeReq_holds {p : ReqPtr} {items : List ReqPtr} (h : HoldsReqs c (p :: items)) :
    HoldsReqs (takeReq c) items :=
  (Ring.holds_take h).2

theorem takeResp_holds {p : RespPtr} (h : HoldsResps c (p :: items)) :
    HoldsResps (takeResp c) items :=
  (Ring.holds_take h).2

theorem receiveReq_work {items : List ReqPtr} (h : HoldsReqs c (.work hdr :: items))
    (hsem : c.blocking_req_ready ≠ 0) :
    receiveBlockingReqInternal c = .got (takeReq c) (some hdr) := by
  unfold receiveBlockingReqInternal
  rw [if_neg hsem, h.first]
  rfl

theorem receiveReq_exit {items : List ReqPtr} (h : HoldsReqs c (.childExit :: items))
    (hsem : c.blocking_req_ready ≠ 0) :
    receiveBlockingReqInternal c =
      .got (sendBlockingRespInternal (takeReq c) .childGone) none := by
  unfold receiveBlockingReqInternal
  rw [if_neg hsem, h.first]
  rfl

theorem receiveReq_blocked (hsem : c.blocking_req_ready = 0) :
    receiveBlockingReqInternal c = .blocked := by
  unfold receiveBlockingReqInternal
  rw [if_pos hsem]

/-- The main thread receives the first response of the queue. -/
theorem receiveResp_work (h : HoldsResps c (.work hdr :: items)) :
    receiveBlockingRespInternal c = (takeResp c, some hdr) := by
  unfold receiveBlockingRespInternal
  simp only [h.first]
  rfl

theorem receiveResp_gone (h : HoldsResps c (.childGone :: items)) :
    receiveBlockingRespInternal c = (cleanupAfterChild (takeResp c), none) := by
  unfold receiveBlockingRespInternal
  simp only [h.first]
  rfl

theorem receiveResp_nil (h : HoldsResps c []) :
    receiveBlockingRespInternal c = ({ c with resp_pipe := c.resp_pipe - 32 }, none) := by
  unfold receiveBlockingRespInternal
  simp only [h.first_nil]

/-- A request that is sent is appended to the ring of requests. A thread that
    is not there is started, and with it the ring of responses. -/
theorem sendBlockingReqInternal_holds {c d : BlockingChild} {reqs : List ReqPtr}
    {resps : List RespPtr} (h : sendBlockingReqInternal c hdr = some d) (hreqs : HoldsReqs c reqs)
    (hresps : HoldsResps c resps) (hgrow : GrowsAtStart c.workitems c.next_workitem)
    (hgrow' : c.thread_ref = false → GrowsAtStart c.responses c.next_response) :
    HoldsReqs d (reqs ++ [.work hdr]) ∧ HoldsResps d resps ∧ d.thread_ref = true ∧
      d.blocking_req_ready = (if c.thread_ref then c.blocking_req_ready else 0) + 1 := by
  unfold sendBlockingReqInternal at h
  split at h
  · cases h
  obtain ⟨hroom, hfree⟩ := ensureWorkitems_holds hreqs hgrow
  simp only [Option.some.injEq] at h
  subst h
  by_cases hthread : c.thread_ref = true
  · have hthread' : (ensureWorkitemsEmptySlot c).thread_ref = true := hthread
    rw [if_pos hthread', if_pos hthread]
    exact ⟨queueReqPointer_holds hroom hfree _, hresps, hthread, rfl⟩
  · have hthread' : ¬(ensureWorkitemsEmptySlot c).thread_ref = true := hthread
    rw [if_neg hthread', if_neg hthread]
    have hresps' : HoldsResps (ensureWorkrespEmptySlot (ensureWorkitemsEmptySlot c)) resps :=
      (ensureWorkresp_holds (c := ensureWorkitemsEmptySlot c) hresps
        (hgrow' (by simpa using hthread))).1
    exact ⟨queueReqPointer_holds (c := startBlockingThread
      (ensureWorkrespEmptySlot (ensureWorkitemsEmptySlot c))) hroom hfree _, hresps', rfl, rfl⟩

/-! ### Both ends of both rings -/

/-- A child whose rings are used from both ends, with what went in and what came out. -/
structure RingSys where
  child : BlockingChild := {}
  queued : List PipeHeader := []
  received : List PipeHeader := []
  responded : List PipeHeader := []
  collected : List PipeHeader := []
  insisted : Bool := false
deriving DecidableEq, Repr

/-- A call by the main thread or by the running worker. -/
inductive RingEvent where
  | sendReq (hdr : PipeHeader)
  | receiveReq
  | sendResp (hdr : PipeHeader)
  | receiveResp
deriving DecidableEq, Repr

/-- One call. The worker runs once the first request has started it. -/
def ringStep (s : RingSys) : RingEvent → RingSys
  | .sendReq hdr =>
    match sendBlockingReqInternal s.child hdr with
    | none => s
    | some c => { s with child := c, queued := s.queued ++ [hdr] }
  | .receiveReq =>
    if s.child.thread_ref then
      match receiveBlockingReqInternal s.child with
      | .blocked => s
      | .insist => { s with insisted := true }
      | .got c none => { s with child := c }
      | .got c (some req) => { s with child := c, received := s.received ++ [req] }
    else s
  | .sendResp hdr =>
    if s.child.thread_ref then
      { s with
        child := sendBlockingRespInternal s.child (.work hdr)
        responded := s.responded ++ [hdr] }
    else s
  | .receiveResp =>
    match receiveBlockingRespInternal s.child with
    | (c, none) => { s with child := c }
    | (c, some resp) => { s with child := c, collected := s.collected ++ [resp] }

-- The equations are made here, once for all proofs that unfold a step.
attribute [local simp] ringStep

/-- The condition on a call: a ring that has to grow grows at its start. The
    first request also prepares the ring of responses. -/
def RingRoom (s : RingSys) : RingEvent → Prop
  | .sendReq _ =>
    GrowsAtStart s.child.workitems s.child.next_workitem ∧
      (s.child.thread_ref = false → GrowsAtStart s.child.responses s.child.next_response)
  | .sendResp _ => GrowsAtStart s.child.responses s.child.next_response
  | _ => True

instance (s : RingSys) (e : RingEvent) : Decidable (RingRoom s e) := by
  cases e <;> unfold RingRoom <;> infer_instance

/-- What holds after every run: the rings hold what went in and did not come
    out yet, and the semaphore counts the requests among it. -/
structure RingInv (s : RingSys) (reqs resps : List PipeHeader) : Prop where
  reqs_held : HoldsReqs s.child (reqs.map .work)
  resps_held : HoldsResps s.child (resps.map .work)
  reqs_eq : s.queued = s.received ++ reqs
  resps_eq : s.responded = s.collected ++ resps
  sem : s.child.blocking_req_ready = reqs.length
  idle : s.child.thread_ref = false → reqs = []
  sound : s.insisted = false

theorem ringInv_start : RingInv {} [] [] where
  reqs_held := Ring.holds_nil
  resps_held := Ring.holds_nil
  reqs_eq := rfl
  resps_eq := rfl
  sem := rfl
  idle := fun _ => rfl
  sound := rfl

section

variable (h : RingInv s reqs resps)

include h

theorem RingInv.sendReq (hdr : PipeHeader) (hroom : RingRoom s (.sendReq hdr)) :
    ∃ reqs' resps', RingInv (ringStep s (.sendReq hdr)) reqs' resps' := by
  cases hsend : sendBlockingReqInternal s.child hdr with
  | none =>
    simp only [ringStep, hsend]
    exact ⟨reqs, resps, h⟩
  | some d =>
    simp only [ringStep, hsend]
    obtain ⟨hreqs, hresps, hthread, hsem⟩ :=
      sendBlockingReqInternal_holds hsend h.reqs_held h.resps_held hroom.1 hroom.2
    refine ⟨reqs ++ [hdr], resps, ?_, hresps, ?_, h.resps_eq, ?_, ?_, h.sound⟩
    · rw [map_append]
      exact hreqs
    · rw [h.reqs_eq, append_assoc]
    · rw [hsem, length_append, length_singleton]
      by_cases ht : s.child.thread_ref = true
      · rw [if_pos ht, h.sem]
      · rw [if_neg ht, h.idle (by simpa using ht), length_nil]
    · intro hfalse
      rw [hthread] at hfalse
      cases hfalse

/-- Receiving a request: nothing happens if there is none, and the oldest one
    is received otherwise. -/
theorem RingInv.receiveReq :
    RingInv (ringStep s .receiveReq) reqs.tail resps ∧
      (ringStep s .receiveReq).queued = s.queued := by
  cases reqs with
  | nil =>
    have hblocked := receiveReq_blocked h.sem
    simp only [ringStep, hblocked, ite_self, tail_nil]
    exact ⟨h, trivial⟩
  | cons hdr reqs =>
    have hthread : s.child.thread_ref = true := by
      by_contra hno
      exact cons_ne_nil _ _ (h.idle (by simpa using hno))
    have hsem : s.child.blocking_req_ready ≠ 0 := by
      rw [h.sem]
      exact Nat.succ_ne_zero _
    simp only [ringStep, hthread, if_true, receiveReq_work h.reqs_held hsem, tail_cons]
    refine ⟨⟨takeReq_holds h.reqs_held, h.resps_held, ?_, h.resps_eq, ?_, ?_, h.sound⟩, trivial⟩
    · rw [h.reqs_eq, append_assoc]
      rfl
    · show s.child.blocking_req_ready - 1 = reqs.length
      rw [h.sem, length_cons, Nat.add_sub_cancel]
    · intro hfalse
      rw [show (takeReq s.child).thread_ref = s.child.thread_ref from rfl, hthread] at hfalse
      cases hfalse

theorem RingInv.sendResp (hdr : PipeHeader) (hroom : RingRoom s (.sendResp hdr)) :
    ∃ reqs' resps', RingInv (ringStep s (.sendResp hdr)) reqs' resps' := by
  by_cases hthread : s.child.thread_ref = true
  · simp only [ringStep, hthread, if_true]
    have hresps := sendBlockingRespInternal_holds h.resps_held hroom (.work hdr)
    refine ⟨reqs, resps ++ [hdr], h.reqs_held, ?_, h.reqs_eq, ?_, h.sem, h.idle, h.sound⟩
    · rw [map_append]
      exact hresps
    · rw [h.resps_eq, append_assoc]
  · simp only [ringStep, hthread]
    exact ⟨reqs, resps, h⟩

/-- Receiving a response: there is none, or the oldest one is received. -/
theorem RingInv.receiveResp :
    RingInv (ringStep s .receiveResp) reqs resps.tail ∧
      (ringStep s .receiveResp).responded = s.responded := by
  cases resps with
  | nil =>
    simp only [ringStep, receiveResp_nil h.resps_held, tail_nil]
    exact ⟨{ h with }, trivial⟩
  | cons hdr resps =>
    simp only [ringStep, receiveResp_work h.resps_held, tail_cons]
    refine ⟨{ h with resps_held := takeResp_holds h.resps_held, resps_eq := ?_ }, trivial⟩
    rw [h.resps_eq, append_assoc]
    rfl

end

/-- Every call that meets the condition keeps the invariant. -/
theorem ringInv_step (s : RingSys) (e : RingEvent) (h : ∃ reqs resps, RingInv s reqs resps)
    (hroom : RingRoom s e) : ∃ reqs resps, RingInv (ringStep s e) reqs resps := by
  obtain ⟨reqs, resps, hinv⟩ := h
  cases e with
  | sendReq hdr => exact hinv.sendReq hdr hroom
  | receiveReq => exact ⟨_, _, hinv.receiveReq.1⟩
  | sendResp hdr => exact hinv.sendResp hdr hroom
  | receiveResp => exact ⟨_, _, hinv.receiveResp.1⟩

/-- A worker that goes on receiving comes to the end of the queue. -/
theorem RingInv.receiveReq_all (h : RingInv s reqs resps) :
    (Run.exec ringStep s (List.replicate reqs.length .receiveReq)).received = s.queued := by
  induction reqs generalizing s with
  | nil =>
    have heq := h.reqs_eq
    rw [append_nil] at heq
    exact heq.symm
  | cons hdr reqs ih =>
    obtain ⟨hnext, hqueued⟩ := h.receiveReq
    rw [length_cons, replicate_succ, Run.exec_cons, ih hnext, hqueued]

theorem RingInv.receiveResp_all (h : RingInv s reqs resps) :
    (Run.exec ringStep s (List.replicate resps.length .receiveResp)).collected = s.responded := by
  induction resps generalizing s with
  | nil =>
    have heq := h.resps_eq
    rw [append_nil] at heq
    exact heq.symm
  | cons hdr resps ih =>
    obtain ⟨hnext, hresponded⟩ := h.receiveResp
    rw [length_cons, replicate_succ, Run.exec_cons, ih hnext, hresponded]

/-- Both rings are queues at every load. Along every run in which no ring has to grow while its
    write index is in the middle, the assertion on the slot that the worker reads does not fail,
    what the worker has received is the first part of what was queued, and it will have received all
    of it, in this order, after one more call for each request that is waiting. The same holds for
    the responses. -/
theorem worker_rings_fifo (es : List RingEvent) (h : Run.Meets ringStep RingRoom {} es) :
    let s := Run.exec ringStep {} es
    s.insisted = false ∧
    (∃ waiting, s.queued = s.received ++ waiting ∧
      (Run.exec ringStep s (List.replicate waiting.length .receiveReq)).received = s.queued) ∧
    ∃ waiting, s.responded = s.collected ++ waiting ∧
      (Run.exec ringStep s (List.replicate waiting.length .receiveResp)).collected =
        s.responded := by
  intro s
  obtain ⟨reqs, resps, hinv⟩ : ∃ reqs resps, RingInv s reqs resps :=
    Run.exec_invariant ringInv_step {} es ⟨[], [], ringInv_start⟩ h
  exact ⟨hinv.sound, ⟨reqs, hinv.reqs_eq, hinv.receiveReq_all⟩,
    resps, hinv.resps_eq, hinv.receiveResp_all⟩

/-- A request with a number in place of its context. -/
def numbered (n : Nat) : PipeHeader :=
  { octets := 48, rtype := .getaddrinfo, done_func := 1, context := n }

/-- Seventeen requests before the first is received: the ring of sixteen slots
    is full and grows at its start. -/
def growingRun : List RingEvent :=
  (List.range 17).map (fun n => .sendReq (numbered n)) ++
    [.receiveReq, .sendResp (numbered 0), .receiveResp]

theorem worker_rings_fifo_growingRun :
    (Run.exec ringStep {} growingRun).child.workitems.length = 32 ∧
    (Run.exec ringStep {} growingRun).insisted = false :=
  ⟨by decide, (worker_rings_fifo growingRun (by decide)).1⟩

/-- Sixteen requests, one received, and two more: the second of them finds the
    ring full with its write index at one. -/
def overwritingRun : List RingEvent :=
  (List.range 16).map (fun n => .sendReq (numbered n)) ++
    [.receiveReq, .sendReq (numbered 16), .sendReq (numbered 17)]

/-- The last request takes the place of the oldest one, which is never
    received, and the worker comes to an empty slot in the end. -/
theorem worker_ring_overwrites :
    (Run.exec ringStep {} (overwritingRun ++ [.receiveReq])).received =
      [numbered 0, numbered 17] ∧
    numbered 1 ∉
      (Run.exec ringStep {} (overwritingRun ++ List.replicate 17 .receiveReq)).received ∧
    (Run.exec ringStep {} (overwritingRun ++ List.replicate 17 .receiveReq)).insisted = true := by
  decide

end NtpSuite
