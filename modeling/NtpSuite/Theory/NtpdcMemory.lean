import NtpSuite.Core.Ntpdc
import NtpSuite.Lib.Run

/-!
# The Buffer of the Client

Whether `getresponse` stays inside its buffer. What it reads of a packet is inside
the packet, since the number of items times their size is compared with what has
arrived. What it writes is another matter: items are padded to the size that is
expected, the padding takes no octets of the packet, and the buffer grows once. So
a short packet with many small items is written past the end.

## Main definitions

* `itemsIn`, `putItems`: The items of a packet, and how they are written.
* `Safe`: Nothing was written outside the buffer.
* `PktFits`, `GetOk`: The condition on what arrives.

## Theorems

* `copyItems_run`, `copyItems_inside`: What the loop does and what it reads.
* `putItems_safe_iff`: When items fit.
* `getStep_safe_iff`: When a step is safe.
* `client_safe_iff`: When a call is.
-/

namespace NtpSuite.Ntpdc

open Reading
open Storing
open Request List

section Copy

variable {size pad : Nat} {m : Memory} {g : Getter}

/-- The items at an address. -/
def itemsIn (m : Memory) (size : Nat) : Nat → Nat → List CStr
  | 0, _ => []
  | items + 1, off => octetsAt m off size :: itemsIn m size items (off + size)

/-- Items are written one behind the other. -/
def putItems (pad : Nat) (g : Getter) (items : List CStr) : Getter :=
  items.foldl (fun g item => g.putItem item pad) g

theorem copyItems_run (k off : Nat) :
    (copyItems size pad k off g).run m = putItems pad g (itemsIn m size k off) := by
  induction k generalizing off g with
  | zero => rfl
  | succ k ih => exact ih (off + size)

theorem length_itemsIn (k off : Nat) : (itemsIn m size k off).length = k := by
  induction k generalizing off with
  | zero => rfl
  | succ k ih => rw [itemsIn, length_cons, ih]

theorem mem_itemsIn {k off : Nat} : ∀ item ∈ itemsIn m size k off, item.length = size := by
  induction k generalizing off with
  | zero => simp [itemsIn]
  | succ k ih =>
    intro item hitem
    rcases mem_cons.mp hitem with rfl | htail
    · simp [octetsAt]
    · exact ih item htail

theorem copyItems_inside {n : Nat} (k off : Nat) (hn : off + k * size ≤ n) :
    Inside n (copyItems size pad k off g) m := by
  induction k generalizing off g with
  | zero => exact inside_pure _
  | succ k ih =>
    rw [Nat.succ_mul] at hn
    rw [copyItems, inside_bytes_bind]
    exact ⟨.inr (by omega), ih (off + size) (by omega)⟩

/-! ### What is written -/

/-- Nothing was written outside the buffer. -/
def Safe (g : Getter) : Prop := ∀ w ∈ g.writes, w.InBounds

theorem put_safe_iff (off : Nat) (octets : CStr) :
    Safe (g.put off octets) ↔
      (octets.length = 0 ∨ off + octets.length ≤ g.pktdatasize) ∧ Safe g :=
  forall_mem_cons

theorem putItem_safe_iff (item : CStr) :
    Safe (g.putItem item pad) ↔
      (item.length + pad = 0 ∨ g.offset + (item.length + pad) ≤ g.pktdatasize) ∧ Safe g := by
  have hpad : Safe (g.putItem item pad) ↔
      Safe ((g.put g.offset item).put (g.offset + item.length) (List.replicate pad 0)) := Iff.rfl
  rw [hpad, put_safe_iff, put_safe_iff, ← and_assoc, length_replicate]
  refine and_congr_left fun _ => ?_
  change (pad = 0 ∨ g.offset + item.length + pad ≤ g.pktdatasize) ∧ _ ↔ _
  omega

theorem putItems_safe_iff (items : List CStr) (hitems : ∀ item ∈ items, item.length = size) :
    Safe (putItems pad g items) ↔
      (items.length * (size + pad) = 0 ∨
        g.offset + items.length * (size + pad) ≤ g.pktdatasize) ∧ Safe g := by
  induction items generalizing g with
  | nil => simp [putItems]
  | cons item items ih =>
    have hitem : item.length = size := hitems item mem_cons_self
    have htail := ih (g := g.putItem item pad) fun item' hitem' =>
      hitems item' (mem_cons_of_mem item hitem')
    have hoffset : (g.putItem item pad).offset = g.offset + (size + pad) := by
      rw [← hitem]
      rfl
    have hroom : (g.putItem item pad).pktdatasize = g.pktdatasize := rfl
    -- without octets in an item there are none in all
    change Safe (putItems pad (g.putItem item pad) items) ↔ _
    rw [htail, putItem_safe_iff, ← and_assoc, length_cons, Nat.succ_mul]
    refine and_congr_left fun _ => ?_
    omega

end Copy

/-! ### Packets -/

section Packet

variable {q : Query} {g : Getter} {p : RespHdr} {m : Memory}

theorem size_add_pad (q : Query) (p : RespHdr) :
    p.infoItemsize + (q.esize - p.infoItemsize) = max p.infoItemsize q.esize := by
  omega

/-- The items of a packet fit into the buffer after it has grown once. -/
def PktFits (q : Query) (g : Getter) (p : RespHdr) : Prop :=
  p.infoNitems * max p.infoItemsize q.esize = 0 ∨
    g.offset + p.infoNitems * max p.infoItemsize q.esize ≤ g.pktdatasize + INCDATASIZE

instance (q : Query) (g : Getter) (p : RespHdr) : Decidable (PktFits q g p) :=
  inferInstanceAs (Decidable (_ ∨ _))

theorem copied_eq (q : Query) (p : RespHdr) :
    p.infoNitems * p.infoItemsize + (q.esize - p.infoItemsize) * p.infoNitems =
      p.infoNitems * max p.infoItemsize q.esize := by
  rw [← size_add_pad, mul_add, mul_comm (q.esize - p.infoItemsize)]

theorem takeItems_run :
    (takeItems q p g).run m =
      (putItems (q.esize - p.infoItemsize)
        ((g.notePkt p).makeRoom (p.infoNitems * max p.infoItemsize q.esize))
        (itemsIn m p.infoItemsize p.infoNitems RESP_HEADER_SIZE)).count p.infoNitems
          p.infoItemsize (q.esize - p.infoItemsize) := by
  rw [← copyItems_run, ← copied_eq]
  rfl

theorem growpktdata_safe_iff : Safe g.growpktdata ↔ Safe g := by
  have hput := put_safe_iff (g := { g with pktdatasize := g.pktdatasize + INCDATASIZE })
    g.pktdatasize (List.replicate INCDATASIZE 0)
  refine hput.trans (and_iff_right (.inr ?_))
  rw [length_replicate]

theorem makeRoom_safe_iff (len : Nat) : Safe (g.makeRoom len) ↔ Safe g := by
  unfold Getter.makeRoom
  split_ifs
  · exact growpktdata_safe_iff
  · exact Iff.rfl

theorem makeRoom_offset (len : Nat) : (g.makeRoom len).offset = g.offset := by
  unfold Getter.makeRoom
  split_ifs <;> rfl

theorem makeRoom_pktdatasize (len : Nat) :
    (g.makeRoom len).pktdatasize =
      if g.offset + len > g.pktdatasize then g.pktdatasize + INCDATASIZE else g.pktdatasize := by
  unfold Getter.makeRoom
  split_ifs <;> rfl

/-- The items of a packet are written inside the buffer if and only if they fit. -/
theorem takeItems_safe_iff : Safe ((takeItems q p g).run m) ↔ Safe g ∧ PktFits q g p := by
  have hcount : ∀ (g : Getter) (a b c : Nat), Safe (g.count a b c) ↔ Safe g :=
    fun _ _ _ _ => Iff.rfl
  rw [takeItems_run, hcount, putItems_safe_iff _ mem_itemsIn, length_itemsIn, size_add_pad,
    makeRoom_safe_iff, makeRoom_offset, makeRoom_pktdatasize, and_comm]
  refine and_congr_right fun _ => ?_
  change _ ∨ g.offset + _ ≤ (if g.offset + _ > g.pktdatasize then g.pktdatasize + INCDATASIZE
    else g.pktdatasize) ↔ _
  unfold PktFits
  split_ifs <;> omega

theorem recvPkt_eq_of_short {n : Nat} (hn : n < RESP_HEADER_SIZE) : (recvPkt q g n).run m = g := by
  unfold recvPkt
  rw [if_pos hn]
  rfl

/-- The header of a datagram. -/
def hdrOf (m : Memory) : RespHdr := readHdr.run m

theorem recvPkt_eq {n : Nat} (hn : ¬ n < RESP_HEADER_SIZE) :
    (recvPkt q g n).run m =
      match verdict q g (hdrOf m) n with
      | .toss => g
      | .fail code => { g with status := some (.err code) }
      | .note => g.noteSeq (hdrOf m).infoSeq
      | .take => (takeItems q (hdrOf m) g).run m := by
  unfold recvPkt
  rw [if_neg hn]
  change (match verdict q g (hdrOf m) n with
    | .toss => _ | .fail code => _ | .note => _ | .take => _ : Reading Getter).run m = _
  cases verdict q g (hdrOf m) n <;> rfl

/-- A packet whose items are taken has as many octets as it says. -/
theorem size_of_take {n : Nat} (h : verdict q g p n = .take) :
    p.infoNitems * p.infoItemsize ≤ n - RESP_HEADER_SIZE := by
  unfold verdict at h
  split_ifs at h with _ _ hsize
  exact not_lt.mp hsize

theorem recvPkt_inside (q : Query) (g : Getter) (n : Nat) (m : Memory) :
    Inside n (recvPkt q g n) m := by
  unfold recvPkt
  by_cases hn : n < RESP_HEADER_SIZE
  · rw [if_pos hn]
    exact inside_pure _
  · rw [if_neg hn, inside_bind]
    refine ⟨?_, ?_⟩
    · unfold readHdr
      rw [inside_bytes_bind]
      exact ⟨.inr (by omega), inside_pure _⟩
    · cases hverdict : verdict q g (readHdr.run m) n with
      | toss | fail code | note => exact inside_pure _
      | take =>
        have hsize := size_of_take hverdict
        simp only [takeItems, inside_bind, inside_pure, and_true]
        exact copyItems_inside _ _ (by omega)

end Packet

/-! ### Calls -/

section Calls

variable {q : Query} {g : Getter}

/-- The condition on what arrives: a packet whose items are taken fits into the
    buffer after it has grown once. -/
def GetOk (q : Query) (g : Getter) : GetEvent → Prop
  | .datagram d =>
    g.status = none → RESP_HEADER_SIZE ≤ d.n → verdict q g (hdrOf d.mem) d.n = .take →
      PktFits q g (hdrOf d.mem)
  | _ => True

/-- What `getresponse` reads of a datagram is inside the datagram. -/
def ReadsInside (q : Query) (g : Getter) : GetEvent → Prop
  | .datagram d => Inside d.n (recvPkt q g d.n) d.mem
  | _ => True

theorem getStep_safe_iff (e : GetEvent) : Safe (getStep q g e) ↔ Safe g ∧ GetOk q g e := by
  unfold getStep
  by_cases hdone : g.status.isSome = true
  · rw [if_pos hdone]
    refine (and_iff_left ?_).symm
    cases e with
    | datagram d =>
      intro hnone
      rw [hnone] at hdone
      cases hdone
    | timeout | failure => trivial
  · rw [if_neg hdone]
    have hnone : g.status = none := Option.not_isSome_iff_eq_none.mp hdone
    cases e with
    | timeout | failure => exact (and_iff_left trivial).symm
    | datagram d =>
      simp only [GetOk, hnone, true_implies]
      by_cases hn : d.n < RESP_HEADER_SIZE
      · rw [recvPkt_eq_of_short hn]
        exact (and_iff_left fun hle => absurd hn (not_lt.mpr hle)).symm
      · rw [recvPkt_eq hn]
        simp only [not_lt.mp hn, true_implies]
        cases verdict q g (hdrOf d.mem) d.n with
        | toss | fail code | note => exact (and_iff_left nofun).symm
        | take =>
          simp only [true_implies]
          exact takeItems_safe_iff

/-- For every sequence of datagrams and every item size that is expected: every octet that is read
    is inside its datagram and every octet that is written is inside the buffer as it is then, if
    and only if every packet whose items are taken fits into the buffer after it has grown once. -/
theorem client_safe_iff (q : Query) (pktdata : Memory) (pktdatasize : Nat) (es : List GetEvent) :
    (Run.Meets (getStep q) (ReadsInside q) (getStart pktdata pktdatasize) es ∧
        Safe (Run.exec (getStep q) (getStart pktdata pktdatasize) es)) ↔
      Run.Meets (getStep q) (GetOk q) (getStart pktdata pktdatasize) es := by
  have hreads : Run.Meets (getStep q) (ReadsInside q) (getStart pktdata pktdatasize) es := by
    refine Run.meets_of_forall _ fun e _ g => ?_
    cases e with
    | datagram d => exact recvPkt_inside q g d.n d.mem
    | timeout | failure => trivial
  have hstart : Safe (getStart pktdata pktdatasize) := fun w hw => by simp [getStart] at hw
  rw [and_iff_right hreads,
    Run.exec_iff_meets (fun _ _ _ => trivial) (fun _ e (_ : True) => getStep_safe_iff e) _ es
      trivial]
  exact and_iff_right hstart

/-! ### A packet that says it has many items -/

/-- A datagram with the given octets. -/
def datagramOf (octets : CStr) (h : octets.length ≤ RESP_PKT_SIZE) : Datagram :=
  ⟨fun i => octets.getD i 0, octets.length, h⟩

/-- A request whose items are to have 72 octets. -/
def peerQuery : Query := { implcode := 3, reqcode := 1, esize := 72 }

/-- A packet of eight octets that says it has 200 items of no octets. The buffer has
    12192 octets after it has grown, and 14400 are written. -/
theorem client_overrun :
    let d := datagramOf [0x97, 0, 3, 1, 0, 200, 0, 0] (by decide)
    let g := getStart (fun _ => 0) INITDATASIZE
    (verdict peerQuery g (hdrOf d.mem) d.n = .take ∧ (hdrOf d.mem).infoNitems = 200 ∧
      (hdrOf d.mem).infoItemsize = 0) ∧
    ¬ Safe (Run.exec (getStep peerQuery) g [.datagram d]) := by
  refine ⟨by decide, ?_⟩
  rw [Run.exec_cons, Run.exec_nil, getStep_safe_iff]
  exact fun h => absurd (h.2 rfl (by decide) (by decide)) (by decide)

end Calls

end NtpSuite.Ntpdc
