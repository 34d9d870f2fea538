import NtpSuite.Core.Request

/-!
# Requests with Several Items

Whether a request does what it asks for all of its items or for none. The first
pass is right: it stops at the first item that is bad, reads no further, and the
request is refused with nothing changed. If no item is bad it leaves its counter
at 65535, and the second pass goes over as many items, whatever the number of
items in the packet. It reads past the last one, or an assertion fails on the
way. So a request is all or nothing only when it is nothing.

## Main definitions

* `itemAt`, `itemsOf`: The items of a packet.
* `AllOrNothing`: What a request should do.

## Theorems

* `checkPass_all`, `checkPass_bad`: The first pass.
* `applyPass_inside`: What the second pass reads.
* `twoPass_allOrNothing_iff`: When a handler is all or nothing.
* `items_allOrNothing_iff`: So are the three.
-/

namespace NtpSuite.Request

open Reading

section Items

variable {σ : Type} {m : Memory} {item_sz n : Nat}

/-- Item `i` of a packet. -/
def itemAt (m : Memory) (item_sz i : Nat) : CStr := octetsAt m (i * item_sz) item_sz

/-- The items of a packet. -/
def itemsOf (m : Memory) (item_sz n : Nat) : List CStr := (List.range n).map (itemAt m item_sz)

/-- A request is all or nothing: an item is bad, an error is returned and nothing is
    changed; or none is, every item has its effect once, in order, and the request
    is acknowledged. In both cases nothing is read past the last item. -/
def AllOrNothing (check : σ → CStr → Nat) (apply : CStr → σ → Option σ)
    (handler : Reading (Outcome σ)) (m : Memory) (n item_sz : Nat) (s : σ) : Prop :=
  Inside (n * item_sz) handler m ∧
    (((∃ i < n, check s (itemAt m item_sz i) ≠ 0) ∧
        ∃ code bad, code ≠ .okay ∧ handler.run m = .reply code bad s) ∨
      ((∀ i < n, check s (itemAt m item_sz i) = 0) ∧
        ∃ s', (itemsOf m item_sz n).foldlM (fun s item => apply item s) s = some s' ∧
          handler.run m = .reply .okay 0 s'))

/-! ### The first pass -/

section Check

variable {check : CStr → Nat}

theorem checkPass_succ (k i : Nat) :
    checkPass check item_sz (k + 1) (i * item_sz) 0 =
      (bytes (i * item_sz) item_sz >>= fun item =>
        checkPass check item_sz k ((i + 1) * item_sz) (check item)) := by
  rw [Nat.succ_mul]
  rfl

/-- The loop ends when something was bad, and reads no more. -/
theorem checkPass_stop (k datap : Nat) {bad : Nat} (hbad : bad ≠ 0) :
    ((checkPass check item_sz k datap bad).run m).2 = bad ∧
      ∀ l, Inside l (checkPass check item_sz k datap bad) m := by
  cases k with
  | zero => exact ⟨rfl, fun _ => inside_pure _⟩
  | succ k =>
    simp only [checkPass, if_pos hbad]
    exact ⟨rfl, fun _ => inside_pure _⟩

theorem checkPass_all (k i : Nat) (h : ∀ j < k, check (itemAt m item_sz (i + j)) = 0) :
    (checkPass check item_sz k (i * item_sz) 0).run m = (65535, 0) := by
  induction k generalizing i with
  | zero => rfl
  | succ k ih =>
    have hhead : check (octetsAt m (i * item_sz) item_sz) = 0 := h 0 (Nat.succ_pos k)
    rw [checkPass_succ, run_bytes_bind, hhead]
    refine ih (i + 1) fun j hj => ?_
    rw [show i + 1 + j = i + (j + 1) by omega]
    exact h (j + 1) (Nat.succ_lt_succ hj)

theorem checkPass_bad (k i : Nat) (h : ∃ j < k, check (itemAt m item_sz (i + j)) ≠ 0) :
    ((checkPass check item_sz k (i * item_sz) 0).run m).2 ≠ 0 := by
  induction k generalizing i with
  | zero =>
    obtain ⟨j, hj, -⟩ := h
    exact absurd hj (Nat.not_lt_zero j)
  | succ k ih =>
    rw [checkPass_succ, run_bytes_bind]
    by_cases hhead : check (octetsAt m (i * item_sz) item_sz) = 0
    · rw [hhead]
      obtain ⟨j, hj, hbad⟩ := h
      cases j with
      | zero => exact absurd hhead hbad
      | succ j =>
        refine ih (i + 1) ⟨j, Nat.lt_of_succ_lt_succ hj, ?_⟩
        rwa [show i + 1 + j = i + (j + 1) by omega]
    · rw [(checkPass_stop k _ hhead).1]
      exact hhead

theorem checkPass_inside (k i : Nat) {l : Nat} (hl : (i + k) * item_sz ≤ l) :
    Inside l (checkPass check item_sz k (i * item_sz) 0) m := by
  induction k generalizing i with
  | zero => exact inside_pure _
  | succ k ih =>
    rw [checkPass_succ, inside_bytes_bind]
    refine ⟨.inr ?_, ?_⟩
    · calc i * item_sz + item_sz = (i + 1) * item_sz := (Nat.succ_mul i item_sz).symm
        _ ≤ (i + (k + 1)) * item_sz := Nat.mul_le_mul_right _ (by omega)
        _ ≤ l := hl
    · by_cases hhead : check (octetsAt m (i * item_sz) item_sz) = 0
      · rw [hhead]
        refine ih (i + 1) ?_
        rwa [show i + 1 + k = i + (k + 1) by omega]
      · exact (checkPass_stop k _ hhead).2 l

end Check

/-! ### The second pass -/

theorem applyPass_inside {apply : CStr → σ → Option σ} {k datap l : Nat} {s s' : σ} (hk : 0 < k)
    (hsz : 0 < item_sz) (hrun : (applyPass apply item_sz k datap s).run m = some s')
    (hin : Inside l (applyPass apply item_sz k datap s) m) : datap + k * item_sz ≤ l := by
  induction k generalizing datap s with
  | zero => exact absurd hk (lt_irrefl 0)
  | succ k ih =>
    simp only [applyPass, run_bytes_bind, inside_bytes_bind] at hrun hin
    obtain ⟨hitem, hrest⟩ := hin
    cases happly : apply (octetsAt m datap item_sz) s with
    | none => simp [happly] at hrun
    | some s1 =>
      simp only [happly] at hrun hrest
      cases k with
      | zero =>
        rw [zero_add, one_mul]
        exact hitem.resolve_left hsz.ne'
      | succ k =>
        have htail := ih (Nat.succ_pos k) hrun hrest
        rw [Nat.succ_mul (k + 1)]
        omega

/-! ### The handlers -/

section Handler

variable {size : Nat} {err : InfoErr} {check : σ → CStr → Nat} {apply : CStr → σ → Option σ}
  {s : σ}

/-- A request with a bad item is refused after the first pass. -/
theorem twoPass_bad (err : InfoErr) (apply : CStr → σ → Option σ) (hsize : item_sz ≤ size)
    (hbad : ((checkPass (check s) item_sz n 0 0).run m).2 ≠ 0) :
    (∃ bad, (twoPass size err check apply n item_sz s).run m = .reply err bad s) ∧
      ∀ l, Inside l (twoPass size err check apply n item_sz s) m ↔
        Inside l (checkPass (check s) item_sz n 0 0) m := by
  have hfits : ¬ item_sz > size := not_lt.mpr hsize
  unfold twoPass
  rw [if_neg hfits]
  simp only [run_bind, inside_bind, if_pos hbad, run_pure, inside_pure, and_true, implies_true,
    Outcome.reply.injEq, true_and, exists_eq']

/-- Otherwise the second pass goes over as many items as the counter says. -/
theorem twoPass_good (err : InfoErr) (apply : CStr → σ → Option σ) (hsize : item_sz ≤ size)
    {k : Nat} (hgood : (checkPass (check s) item_sz n 0 0).run m = (k, 0)) :
    (∀ code bad s', (twoPass size err check apply n item_sz s).run m = .reply code bad s' →
        (applyPass apply item_sz k 0 s).run m = some s') ∧
      ∀ l, Inside l (twoPass size err check apply n item_sz s) m →
        Inside l (applyPass apply item_sz k 0 s) m := by
  have hfits : ¬ item_sz > size := not_lt.mpr hsize
  unfold twoPass
  rw [if_neg hfits]
  simp only [run_bind, inside_bind, hgood, ne_eq, not_true_eq_false, if_false]
  constructor
  · intro code bad s' h
    cases happly : (applyPass apply item_sz k 0 s).run m with
    | none => simp [happly] at h
    | some s1 =>
      simp only [happly, run_pure] at h
      cases h
      rfl
  · intro l h
    exact h.2.1

theorem twoPass_allOrNothing_iff (hsize : item_sz ≤ size) (hsz : 0 < item_sz) (herr : err ≠ .okay)
    (hn : n < 65535) :
    AllOrNothing check apply (twoPass size err check apply n item_sz s) m n item_sz s ↔
      ∃ i < n, check s (itemAt m item_sz i) ≠ 0 := by
  constructor
  · rintro ⟨hinside, ⟨hbad, -⟩ | ⟨hgood, s', -, hrun⟩⟩
    · exact hbad
    · -- the counter has wrapped around, so the second pass reads 65535 items
      have hcheck : (checkPass (check s) item_sz n (0 * item_sz) 0).run m = (65535, 0) :=
        checkPass_all n 0 (by simpa using hgood)
      rw [zero_mul] at hcheck
      obtain ⟨hreply, hreads⟩ := twoPass_good err apply hsize hcheck
      have hfar := applyPass_inside (by decide) hsz (hreply _ _ _ hrun) (hreads _ hinside)
      have hnear : n * item_sz < 65535 * item_sz := Nat.mul_lt_mul_of_pos_right hn hsz
      omega
  · intro hbad
    have hcheck : ((checkPass (check s) item_sz n (0 * item_sz) 0).run m).2 ≠ 0 :=
      checkPass_bad n 0 (by simpa using hbad)
    have hin : Inside (n * item_sz) (checkPass (check s) item_sz n (0 * item_sz) 0) m :=
      checkPass_inside n 0 (by rw [zero_add])
    rw [zero_mul] at hcheck hin
    obtain ⟨⟨bad, hreply⟩, hreads⟩ := twoPass_bad err apply hsize hcheck
    exact ⟨(hreads _).mpr hin, .inl ⟨hbad, err, bad, herr, hreply⟩⟩

end Handler

end Items

/-! ### The three requests -/

/-- A request passes the checks of `process_private`. -/
structure Accepted (sizes : ItemSizes) (req : ReqPkt) : Prop where
  size : req.itemsize.toNat = sizes.sizeofitem ∨ req.itemsize.toNat = sizes.v6_sizeofitem
  room : req.itemsize.toNat * req.nitems.toNat ≤ req.recv_len - REQ_LEN_HDR

theorem processPrivate_accepted {σ : Type} {sizes : ItemSizes} {req : ReqPkt}
    (h : Accepted sizes req) (handler : Nat → Nat → σ → Reading (Outcome σ)) (s : σ) :
    processPrivate sizes handler req s = handler req.nitems.toNat req.itemsize.toNat s := by
  unfold processPrivate
  rw [if_neg, if_neg]
  · exact fun hlong => absurd h.room (not_le.mpr hlong.2)
  · rintro ⟨hshort, hlong⟩
    exact h.size.elim hshort hlong

theorem processPrivate_allOrNothing_iff {σ : Type} {sizes : ItemSizes} {req : ReqPkt}
    {err : InfoErr} {check : σ → CStr → Nat} {apply : CStr → σ → Option σ} {m : Memory} {s : σ}
    (h : Accepted sizes req) (hpos : 0 < sizes.sizeofitem)
    (hle : sizes.sizeofitem ≤ sizes.v6_sizeofitem) (herr : err ≠ .okay) :
    AllOrNothing check apply
        (processPrivate sizes (twoPass sizes.v6_sizeofitem err check apply) req s) m
        req.nitems.toNat req.itemsize.toNat s ↔
      ∃ i < req.nitems.toNat, check s (itemAt m req.itemsize.toNat i) ≠ 0 := by
  rw [processPrivate_accepted h]
  have hsize := h.size
  exact twoPass_allOrNothing_iff (by omega) (by omega) herr (by omega)

section Requests

variable {α : Type} [Field α]

/-- For every request that `process_private` lets through and every state: the
    request is all or nothing if and only if one of its items is bad. -/
theorem items_allOrNothing_iff (v6 : Bool) (req : ReqPkt) (m : Memory) :
    (Accepted confUnpeerSizes req → ∀ s : PeerMem α,
      (AllOrNothing (unconfCheck v6) (unconfApply v6)
          (processPrivate confUnpeerSizes (doUnconf v6) req s) m
          req.nitems.toNat req.itemsize.toNat s ↔
        ∃ i < req.nitems.toNat, unconfCheck v6 s (itemAt m req.itemsize.toNat i) ≠ 0) ∧
      (AllOrNothing (resetCheck v6) (resetApply v6)
          (processPrivate confUnpeerSizes (resetPeer v6) req s) m
          req.nitems.toNat req.itemsize.toNat s ↔
        ∃ i < req.nitems.toNat, resetCheck v6 s (itemAt m req.itemsize.toNat i) ≠ 0)) ∧
    (Accepted confRestrictSizes req → ∀ (op : RestrictOp) (old : CStr) (s : RestrictSys),
      AllOrNothing (fun _ => restrictCheck v6 old) (restrictApply v6 op old)
          (processPrivate confRestrictSizes (doRestrict v6 op old) req s) m
          req.nitems.toNat req.itemsize.toNat s ↔
        ∃ i < req.nitems.toNat, restrictCheck v6 old (itemAt m req.itemsize.toNat i) ≠ 0) := by
  refine ⟨fun h s => ⟨?_, ?_⟩, fun h op old s => ?_⟩
  · exact processPrivate_allOrNothing_iff h (by decide) (by decide) (by decide)
  · exact processPrivate_allOrNothing_iff h (by decide) (by decide) (by decide)
  · exact processPrivate_allOrNothing_iff h (by decide) (by decide) (by decide)

end Requests

/-! ### Some requests -/

/-- A request with items of the size of an address. -/
def addrRequest (n : BitVec 12) : ReqPkt := ⟨n, 4, 184⟩

/-- A request with restrictions. -/
def restrictRequest (n : BitVec 12) : ReqPkt := ⟨n, 12, 184⟩

/-- No association is there to be demobilized, and a restriction has an undefined flag. -/
theorem items_allOrNothing_iff_bad :
    let s : PeerMem ℚ := PeerMem.initPeers 1
    let flagged : Memory := fun _ => 0xff
    AllOrNothing (unconfCheck true) (unconfApply true)
        (processPrivate confUnpeerSizes (doUnconf true) (addrRequest 1) s) (fun _ => 0) 1 4 s ∧
      AllOrNothing (fun _ => restrictCheck true []) (restrictApply true .flags [])
        (processPrivate confRestrictSizes (doRestrict true .flags []) (restrictRequest 2) {})
        flagged 2 12 {} := by
  refine ⟨?_, ?_⟩
  · have h := (items_allOrNothing_iff (α := ℚ) true (addrRequest 1) fun _ => 0).1
      ⟨.inl rfl, by decide⟩ (PeerMem.initPeers 1)
    exact h.1.mpr ⟨0, by decide, by decide⟩
  · have h := (items_allOrNothing_iff (α := ℚ) true (restrictRequest 2) fun _ => 0xff).2
      ⟨.inl rfl, by decide⟩ .flags [] {}
    exact h.mpr ⟨0, by decide, by decide⟩

/-- An association with 10.0.0.1 that was configured. -/
def oneConfigured : PeerMem ℚ :=
  { (PeerMem.initPeers 1 : PeerMem ℚ) with
    mem := fun _ => { srcadr := { addr := 0x0a000001 }, flags := { config := true } }
    peer_list := [1]
    peer_hash := fun _ => [1] }

/-- The address of that association, and nothing behind it. -/
def oneAddress : Memory := fun i => [0x0a, 0, 0, 1].getD i 0

/-- A request to demobilize this one association, one for an open restriction, and
    one without items: the counter has wrapped around, and the handler reads past
    the last item or does not come to an end. -/
theorem items_not_allOrNothing :
    ((checkPass (unconfCheck true oneConfigured) 4 1 0 0).run oneAddress = (65535, 0) ∧
      ¬ AllOrNothing (unconfCheck true) (unconfApply true)
        (processPrivate confUnpeerSizes (doUnconf true) (addrRequest 1) oneConfigured) oneAddress
        1 4 oneConfigured) ∧
    ¬ AllOrNothing (resetCheck true) (resetApply true)
        (processPrivate confUnpeerSizes (resetPeer true) (addrRequest 0) oneConfigured) oneAddress
        0 4 oneConfigured ∧
    ¬ AllOrNothing (fun _ => restrictCheck true []) (restrictApply true .flags [])
        (processPrivate confRestrictSizes (doRestrict true .flags []) (restrictRequest 1) {})
        (fun _ => 0) 1 12 {} := by
  have haddr : ∀ n, n.toNat ≤ 10 → Accepted confUnpeerSizes (addrRequest n) :=
    fun n hn => ⟨.inl rfl, by unfold addrRequest REQ_LEN_HDR; simp; omega⟩
  refine ⟨⟨by decide, fun h => ?_⟩, fun h => ?_, fun h => ?_⟩
  · obtain ⟨i, hi, hbad⟩ := (processPrivate_allOrNothing_iff (haddr 1 (by decide)) (by decide)
      (by decide) (by decide)).mp h
    obtain rfl : i = 0 := Nat.lt_one_iff.mp hi
    exact hbad (by decide)
  · obtain ⟨i, hi, -⟩ := (processPrivate_allOrNothing_iff (haddr 0 (by decide)) (by decide)
      (by decide) (by decide)).mp h
    exact absurd hi (Nat.not_lt_zero i)
  · have hrestrict : Accepted confRestrictSizes (restrictRequest 1) := ⟨.inl rfl, by decide⟩
    obtain ⟨i, hi, hbad⟩ := (processPrivate_allOrNothing_iff hrestrict (by decide) (by decide)
      (by decide)).mp h
    obtain rfl : i = 0 := Nat.lt_one_iff.mp hi
    exact hbad (by decide)

end NtpSuite.Request
