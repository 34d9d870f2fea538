import Mathlib

/-!
# Sleeps of a DNS Worker

A lookup that failed is asked again, and the worker sleeps until the earliest time
for that. When the name service is seen to have recovered, the time of it is noted
in a context, so that sleeps that were scheduled before are left out.

The contexts are fetched by the index of the request. Of a context the time is
modelled, as what it is when nothing has been noted: zero.

## Main definitions

* `Lookup`: A request, and what happens while it is handled.
* `blockingLookup`: What a worker does with it.
* `outcomes`: A sequence of requests.
-/

namespace NtpSuite.Dns

def INITIAL_DNS_RETRY : Int := 2

/-- `blocking_gai_req` or `blocking_gni_req`, with the time when it is taken up, and the
    times when its sleep is interrupted and when the query succeeds, if that happens. -/
structure Lookup where
  dns_idx : Nat
  scheduled : Int
  earliest : Int
  retry : Int
  now : Int
  interrupted : Option Int
  success : Option Int
deriving DecidableEq, Repr

/-- Whether the worker slept, and the times at which it noted a recovery. -/
structure Outcome where
  req : Lookup
  slept : Bool
  recovered : List Int
deriving DecidableEq, Repr

/-- `dnsworker_contexts`, with `ignore_scheduled_before` of each. -/
abbrev Contexts := Nat → Int

/-- `get_worker_context`: the context is zeroed whenever it is fetched. -/
def getWorkerContext (s : Contexts) (idx : Nat) : Contexts := Function.update s idx 0

/-- `scheduled_sleep`: if it sleeps, and the time of an interruption. -/
def scheduledSleep (x : Lookup) (ignore_scheduled_before : Int) : Bool × Option Int :=
  if x.scheduled < ignore_scheduled_before then (false, none)
  else if x.now < x.earliest then (true, x.interrupted)
  else (false, none)

/-- `blocking_getaddrinfo` and `blocking_getnameinfo`, as far as they use the context. -/
def blockingLookup (s : Contexts) (x : Lookup) : Contexts × Outcome :=
  let s := getWorkerContext s x.dns_idx
  let sleep := scheduledSleep x (s x.dns_idx)
  let retried := if x.retry > INITIAL_DNS_RETRY then x.success else none
  let recovered := sleep.2.toList ++ retried.toList
  (Function.update s x.dns_idx (recovered.getLastD (s x.dns_idx)), ⟨x, sleep.1, recovered⟩)

/-- The outcomes of the requests that a worker handles. -/
def outcomes : Contexts → List Lookup → List Outcome
  | _, [] => []
  | s, x :: xs => (blockingLookup s x).2 :: outcomes (blockingLookup s x).1 xs

end NtpSuite.Dns
