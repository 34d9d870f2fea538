import Mathlib

/-!
# Blocking Workers

The threads that do name lookups for the daemon, with the two rings between
the main thread and each of them.

A `BlockingChild` has a ring of requests, written by the main thread and read
by the worker, and a ring of responses that goes the other way. Both are
arrays of pointers that are enlarged in place. A semaphore counts the requests
and the octets in a pipe count the responses. An exit request is a pointer
like any other in the first ring, and the notice that the worker is gone is
one in the second.

Each function of the source that runs without being interrupted is one
definition. `workerStep` interleaves them: the main thread queues requests,
takes responses when a pipe is readable and counts seconds for the idle
timer, and each worker receives and responds. The last four fields of
`WorkerSys` only record what happened.

## Main definitions

* `BlockingChild`: A worker with its rings.
* `queueBlockingRequest`: A new request.
* `processBlockingResp`: Taking all responses of a worker.
* `workerIdleTimerFired`: Sending the idle workers away.
* `workerStep`: One step of the main thread or of a worker.
-/

namespace NtpSuite

def WORKITEMS_ALLOC_INC : Nat := 16
def RESPONSES_ALLOC_INC : Nat := 4
/-- `sizeof(blocking_pipe_header)`. -/
def HEADER_OCTETS : Nat := 40
def CHILD_MAX_IDLE : Nat := 3 * 60

/-- `blocking_work_req`. -/
inductive WorkReq where
  | getaddrinfo | getnameinfo
deriving DecidableEq, Repr

/-- `blocking_pipe_header`, of a request or a response. The callback and its
    context are opaque numbers. `serial` is the number of the request; it
    tells requests apart as their addresses do in the source. -/
structure PipeHeader where
  octets : Nat
  rtype : WorkReq
  child_idx : Nat := 0
  done_func : Nat
  context : Nat
  serial : Nat := 0
deriving DecidableEq, Repr

/-- A pointer in the ring of requests. -/
inductive ReqPtr where
  | work (hdr : PipeHeader)
  | childExit
deriving DecidableEq, Repr

/-- A pointer in the ring of responses. -/
inductive RespPtr where
  | work (hdr : PipeHeader)
  | childGone
deriving DecidableEq, Repr

/-- Where the thread is: it has not been started or has left its loop, it
    waits for a request, or it is in the resolver. -/
inductive ThreadState where
  | none
  | waiting
  | resolving (req : PipeHeader)
deriving DecidableEq, Repr

/-- `blocking_child`. An array that has not been allocated is empty. The
    semaphore is its count, and the pipe the number of octets in it. -/
structure BlockingChild where
  reusable : Bool := false
  thread_ref : Bool := false
  workitems : List (Option ReqPtr) := []
  next_workitem : Nat := 0
  next_workeritem : Nat := 0
  responses : List (Option RespPtr) := []
  next_response : Nat := 0
  next_workresp : Nat := 0
  blocking_req_ready : Nat := 0
  resp_pipe : Nat := 0
  thread : ThreadState := .none
deriving DecidableEq, Repr

/-! ### The rings -/

/-- Make sure that the slot at the write index is empty: the array is enlarged
    when it is not, and the index moved if it was at the start. -/
def ensureEmptySlot {β : Type} (inc : Nat) (slots : List (Option β)) (next : Nat) :
    List (Option β) × Nat :=
  if slots ≠ [] ∧ (slots[next]?).join.isNone then (slots, next)
  else (slots ++ List.replicate inc none, if next = 0 then slots.length else next)

def ensureWorkitemsEmptySlot (c : BlockingChild) : BlockingChild :=
  let r := ensureEmptySlot WORKITEMS_ALLOC_INC c.workitems c.next_workitem
  { c with workitems := r.1, next_workitem := r.2 }

def ensureWorkrespEmptySlot (c : BlockingChild) : BlockingChild :=
  let r := ensureEmptySlot RESPONSES_ALLOC_INC c.responses c.next_response
  { c with responses := r.1, next_response := r.2 }

/-- Append a work item or an exit request and signal it. -/
def queueReqPointer (c : BlockingChild) (hdr : ReqPtr) : BlockingChild :=
  { c with
    workitems := c.workitems.set c.next_workitem (some hdr)
    next_workitem := (1 + c.next_workitem) % c.workitems.length
    blocking_req_ready := c.blocking_req_ready + 1 }

/-- `start_blocking_thread`, with `prepare_child_sems`: the semaphores are
    initialized anew, whatever the ring holds. -/
def startBlockingThread (c : BlockingChild) : BlockingChild :=
  { c with
    thread_ref := true
    blocking_req_ready := 0
    resp_pipe := 0
    thread := .waiting }

/-- A request without payload is refused. -/
def sendBlockingReqInternal (c : BlockingChild) (hdr : PipeHeader) : Option BlockingChild :=
  if hdr.octets ≤ HEADER_OCTETS then none
  else
    let c := ensureWorkitemsEmptySlot c
    let c := if c.thread_ref then c else startBlockingThread (ensureWorkrespEmptySlot c)
    some (queueReqPointer c (.work hdr))

/-- Append a response and write an octet to the pipe. -/
def sendBlockingRespInternal (c : BlockingChild) (resp : RespPtr) : BlockingChild :=
  let c := ensureWorkrespEmptySlot c
  { c with
    responses := c.responses.set c.next_response (some resp)
    next_response := (1 + c.next_response) % c.responses.length
    resp_pipe := c.resp_pipe + 1 }

/-- What `receive_blocking_req_internal` comes to: the worker is still blocked in the semaphore, the
    assertion fails, or there is a result, which is `none` after an exit request. -/
inductive Received where
  | blocked
  | insist
  | got (c : BlockingChild) (req : Option PipeHeader)

/-- Take the next request, answering an exit request. -/
def receiveBlockingReqInternal (c : BlockingChild) : Received :=
  if c.blocking_req_ready = 0 then .blocked
  else match (c.workitems[c.next_workeritem]?).join with
    | none => .insist
    | some req =>
      let c := { c with
        blocking_req_ready := c.blocking_req_ready - 1
        workitems := c.workitems.set c.next_workeritem none
        next_workeritem := (1 + c.next_workeritem) % c.workitems.length }
      match req with
      -- The worker is idled out.
      | .childExit => .got (sendBlockingRespInternal c .childGone) none
      | .work hdr => .got c (some hdr)

/-- `cleanup_after_child`: the rings are cleared and the slot can be used again. -/
def cleanupAfterChild (c : BlockingChild) : BlockingChild :=
  { c with
    thread_ref := false
    resp_pipe := 0
    workitems := List.replicate c.workitems.length none
    next_workitem := 0
    next_workeritem := 0
    responses := List.replicate c.responses.length none
    next_response := 0
    next_workresp := 0
    reusable := true }

/-- Take the next response, if there is one. Up to 32 octets are read from the pipe first. -/
def receiveBlockingRespInternal (c : BlockingChild) : BlockingChild × Option PipeHeader :=
  let c := { c with resp_pipe := c.resp_pipe - 32 }
  match (c.responses[c.next_workresp]?).join with
  | none => (c, none)
  | some removed =>
    let c := { c with
      responses := c.responses.set c.next_workresp none
      next_workresp := (1 + c.next_workresp) % c.responses.length }
    match removed with
    | .childGone => (cleanupAfterChild c, none)
    | .work hdr => (c, some hdr)

/-- `req_child_exit`. -/
def reqChildExit (c : BlockingChild) : BlockingChild := queueReqPointer c .childExit

/-! ### The main thread -/

/-- The state of the main thread and of all workers. -/
structure WorkerSys where
  worker_per_query : Bool := false
  blocking_children : List (Option BlockingChild) := []
  intres_slot : Option Nat := none
  intres_req_pending : Int := 0
  worker_idle_timer : Nat := 0
  current_time : Nat := 0
  accepted : List PipeHeader := []
  taken : List PipeHeader := []
  completed : List PipeHeader := []
  insisted : Bool := false
deriving DecidableEq, Repr

/-- `intres_timeout_req`; zero cancels. -/
def intresTimeoutReq (s : WorkerSys) (seconds : Nat) : WorkerSys :=
  { s with worker_idle_timer := if seconds = 0 then 0 else s.current_time + seconds }

/-- The slot is empty or its worker is gone. -/
def slotAvailable : Option BlockingChild → Bool
  | none => true
  | some c => c.reusable

/-- The child of a slot, or `NULL`. -/
def WorkerSys.child (s : WorkerSys) (i : Nat) : Option BlockingChild :=
  (s.blocking_children[i]?).join

/-- Store the child of a slot. -/
def WorkerSys.setChild (s : WorkerSys) (i : Nat) (c : BlockingChild) : WorkerSys :=
  { s with blocking_children := s.blocking_children.set i (some c) }

/-- The first available slot, which is taken; there are four more if none is. -/
def availableBlockingChildSlot (s : WorkerSys) : WorkerSys × Nat :=
  match s.blocking_children.findIdx? slotAvailable with
  | some slot =>
    match s.child slot with
    | none => (s, slot)
    | some c => (s.setChild slot { c with reusable := false }, slot)
  | none =>
    ({ s with blocking_children := s.blocking_children ++ List.replicate 4 none },
      s.blocking_children.length)

/-- The shared worker has to be given a slot. -/
def needsSlot (s : WorkerSys) : Bool :=
  s.worker_per_query ||
    match s.intres_slot with
    | none => true
    | some slot => (s.child slot).any (·.reusable)

/-- The slot for a request: one of its own for every query, or the one of the
    shared worker. The idle timer is cancelled by the first request. -/
def chooseSlot (s : WorkerSys) : WorkerSys × Nat :=
  let r := if needsSlot s then availableBlockingChildSlot s else (s, 0)
  if s.worker_per_query then r
  else
    let slot := s.intres_slot.getD r.2
    let s : WorkerSys := { r.1 with intres_slot := some slot }
    (if s.intres_req_pending = 0 then intresTimeoutReq s 0 else s, slot)

/-- The header of the next request. -/
def requestHeader (s : WorkerSys) (slot : Nat) (rtype : WorkReq)
    (reqsize done_func context : Nat) : PipeHeader where
  octets := HEADER_OCTETS + reqsize
  rtype := rtype
  child_idx := slot
  done_func := done_func
  context := context
  serial := s.accepted.length

/-- Send a request to the child of a slot, which is made if there is none. -/
def sendToSlot (s : WorkerSys) (slot : Nat) (hdr : PipeHeader) : WorkerSys :=
  let c := (s.child slot).getD {}
  match sendBlockingReqInternal c hdr with
  | none => s.setChild slot c
  | some c => { s.setChild slot c with accepted := s.accepted ++ [hdr] }

/-- `queue_blocking_request`. The counter is incremented before it is known
    whether the request is accepted. -/
def queueBlockingRequest (s : WorkerSys) (rtype : WorkReq) (reqsize done_func context : Nat) :
    WorkerSys :=
  let r := chooseSlot s
  let s := { r.1 with intres_req_pending := r.1.intres_req_pending + 1 }
  sendToSlot s r.2 (requestHeader s r.2 rtype reqsize done_func context)

/-- The loop of `process_blocking_resp`: all responses of a worker. -/
def drainResponses : Nat → BlockingChild → BlockingChild × List PipeHeader
  | 0, c => (c, [])
  | n + 1, c =>
    match receiveBlockingRespInternal c with
    | (c, none) => (c, [])
    | (c, some resp) => ((drainResponses n c).1, resp :: (drainResponses n c).2)

/-- `process_blocking_resp`. The idle timer is started when nothing is pending
    any more; a worker of a single query is sent away. -/
def processBlockingResp (s : WorkerSys) (i : Nat) (c : BlockingChild) : WorkerSys :=
  let r := drainResponses (c.responses.length + 1) c
  let s := { s with
    intres_req_pending := s.intres_req_pending - r.2.length
    completed := s.completed ++ r.2 }
  if ¬s.worker_per_query ∧ s.intres_req_pending = 0 then
    intresTimeoutReq (s.setChild i r.1) CHILD_MAX_IDLE
  else if s.worker_per_query then s.setChild i (reqChildExit r.1)
  else s.setChild i r.1

/-- `worker_idle_timer_fired`: every child is sent an exit request, whether
    its worker is there or not. -/
def workerIdleTimerFired (s : WorkerSys) : WorkerSys :=
  let s := intresTimeoutReq s 0
  { s with blocking_children := s.blocking_children.map (·.map reqChildExit) }

/-- A second of `timer`, as far as the workers are concerned. -/
def workerTick (s : WorkerSys) : WorkerSys :=
  let s := { s with current_time := s.current_time + 1 }
  if s.worker_idle_timer ≠ 0 ∧ s.worker_idle_timer ≤ s.current_time then workerIdleTimerFired s
  else s

/-! ### The threads -/

/-- The thread of a child receives a request, if it waits for one and is not blocked. -/
def workerReceive (s : WorkerSys) (i : Nat) (c : BlockingChild) : WorkerSys :=
  if c.thread = .waiting then
    match receiveBlockingReqInternal c with
    | .blocked => s
    | .insist => { s with insisted := true }
    | .got c none => s.setChild i { c with thread := .none }
    | .got c (some req) =>
      { s.setChild i { c with thread := .resolving req } with taken := s.taken ++ [req] }
  else s

/-- The resolver returns and the thread queues a response of some size. -/
def workerRespond (s : WorkerSys) (i : Nat) (c : BlockingChild) (respsize : Nat) : WorkerSys :=
  match c.thread with
  | .resolving req =>
    let resp : PipeHeader := { req with octets := respsize, child_idx := 0 }
    s.setChild i { sendBlockingRespInternal c (.work resp) with thread := .waiting }
  | _ => s

/-- What can happen next. -/
inductive WorkerEvent where
  | queue (rtype : WorkReq) (reqsize done_func context : Nat)
  | process (i : Nat)
  | tick
  | receive (i : Nat)
  | respond (i respsize : Nat)
deriving DecidableEq, Repr

/-- One step. The main thread looks at a child only if its pipe is readable. -/
def workerStep (s : WorkerSys) : WorkerEvent → WorkerSys
  | .queue rtype reqsize done_func context =>
    queueBlockingRequest s rtype reqsize done_func context
  | .process i =>
    match s.child i with
    | none => s
    | some c => if c.resp_pipe = 0 then s else processBlockingResp s i c
  | .tick => workerTick s
  | .receive i =>
    match s.child i with
    | none => s
    | some c => workerReceive s i c
  | .respond i respsize =>
    match s.child i with
    | none => s
    | some c => workerRespond s i c respsize

end NtpSuite
