import NtpSuite.Core.DnsWorker

/-!
# Recovery of the Name Service

A recovery that was noted should release the retries that wait. But the context is
zeroed when it is fetched for the next request, so every request is handled as if
nothing had been noted, and one that waits is released only if it need not wait.
-/

namespace NtpSuite.Dns

/-- The outcome of a request for which no recovery has been noted. -/
def Lookup.alone (x : Lookup) : Outcome := (blockingLookup (fun _ => 0) x).2

/-- No request waits that was scheduled before an earlier request saw a recovery. -/
def Released (os : List Outcome) : Prop :=
  os.Pairwise fun a b => a.req.dns_idx = b.req.dns_idx →
    (∃ t ∈ a.recovered, b.req.scheduled < t) → b.slept = false

/-- Nothing of the contexts reaches the next request. -/
theorem outcomes_eq (s : Contexts) (xs : List Lookup) :
    outcomes s xs = xs.map Lookup.alone := by
  induction xs generalizing s with
  | nil => rfl
  | cons x xs ih =>
    rw [outcomes, ih]
    -- The context that is read is the one that has just been zeroed.
    simp [Lookup.alone, blockingLookup, getWorkerContext]

theorem alone_slept (x : Lookup) :
    x.alone.slept = false ↔ x.scheduled < 0 ∨ x.earliest ≤ x.now := by
  simp only [Lookup.alone, blockingLookup, getWorkerContext, Function.update_self, scheduledSleep]
  split_ifs with hold hwait
  · exact iff_of_true rfl (.inl hold)
  · exact iff_of_false nofun (by omega)
  · exact iff_of_true rfl (.inr (not_lt.mp hwait))

/-- The retries that were scheduled before a recovery are released if and only if none
    of them would have to wait anyway. -/
theorem released_iff (s : Contexts) (xs : List Lookup) :
    Released (outcomes s xs) ↔ xs.Pairwise fun x y => x.dns_idx = y.dns_idx →
      (∃ t ∈ x.alone.recovered, y.scheduled < t) → y.scheduled < 0 ∨ y.earliest ≤ y.now := by
  rw [outcomes_eq, Released, List.pairwise_map]
  refine iff_of_eq (congrArg (xs.Pairwise ·) ?_)
  funext x y
  rw [alone_slept]
  rfl

/-- A retry succeeds at 100. One that was scheduled at 50 for 200 still waits. -/
theorem not_released_waiting : ¬Released (outcomes (fun _ => 0)
    [⟨1, 90, 95, 4, 99, none, some 100⟩, ⟨1, 50, 200, 4, 101, none, none⟩]) := by
  unfold Released
  decide

end NtpSuite.Dns
