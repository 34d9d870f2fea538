import NtpSuite.Theory.NtpdcMemory
import NtpSuite.Theory.RespSeries

/-!
# Putting a Response Together

What `getresponse` makes of a series that the server sent, when all packets of the
series arrive, in some order and some of them more than once. Every packet is taken
once, and the call returns when the last one that was missing has been taken. But
the items are copied in the order in which the packets arrive, not in the order of
their numbers. And if the items are shorter than expected, the size that later
packets are compared with is the one with the padding, so no packet but the first
is taken.

The invariant is about the numbers of the packets that were taken, in the order in
which they were. `Carries` connects the octets of a datagram with the packet it
came from.

## Main definitions

* `Carries`, `Arrival`: A packet that arrives.
* `Got`: What is known after some packets have been taken.
* `Reassembled`: What a call should return.
* `ArrivalOk`: The condition on how the packets arrive.

## Theorems

* `hdrOf_carries`, `itemsIn_carries`: What is read of a datagram.
* `putItems_stands`: What is in the buffer.
* `getStep_got`: What one packet does.
* `reassembled_iff`: When a response is put together.
-/

namespace NtpSuite.Ntpdc

open Reading
open Storing
open Request List

/-! ### Packets as octets -/

section Octets

/-- The octets of a header. -/
def encodeHdr (p : RespHdr) : CStr :=
  [p.rm_vn_mode, p.auth_seq, p.implementation, p.request,
    (p.err_nitems >>> 8).setWidth 8, p.err_nitems.setWidth 8,
    (p.mbz_itemsize >>> 8).setWidth 8, p.mbz_itemsize.setWidth 8]

/-- The octets of a datagram are those of a packet. -/
structure Carries (d : Datagram) (p : RespPkt) : Prop where
  n : d.n = RESP_HEADER_SIZE + p.data.length
  octets : Stands d.mem 0 (encodeHdr p.toRespHdr ++ p.data)

variable {d : Datagram} {p : RespPkt}

theorem hdrOf_carries (h : Carries d p) : hdrOf d.mem = p.toRespHdr := by
  have hread : octetsAt d.mem 0 RESP_HEADER_SIZE = encodeHdr p.toRespHdr :=
    (stands_append.mp h.octets).1.octetsAt_eq
  unfold hdrOf readHdr
  rw [run_bytes_bind, hread]
  simp [encodeHdr, shortAt, append_halves]

/-- Items that stand one behind the other are read one after the other. -/
theorem itemsIn_stands {m : Memory} {size off : Nat} {items : List CStr}
    (hitems : ∀ item ∈ items, item.length = size) (hstands : Stands m off items.flatten) :
    itemsIn m size items.length off = items := by
  induction items generalizing off with
  | nil => rfl
  | cons item items ih =>
    have hitem : item.length = size := hitems item mem_cons_self
    rw [flatten_cons, stands_append] at hstands
    have hhead : octetsAt m off size = item := by
      rw [← hitem]
      exact hstands.1.octetsAt_eq
    have htail := ih (fun item' hitem' => hitems item' (mem_cons_of_mem item hitem'))
      hstands.2
    rw [hitem] at htail
    rw [length_cons, itemsIn, hhead, htail]

theorem itemsIn_carries (h : Carries d p) {size : Nat} {items : List CStr}
    (hitems : ∀ item ∈ items, item.length = size) (hdata : p.data = items.flatten) :
    itemsIn d.mem size items.length RESP_HEADER_SIZE = items := by
  have hstands := (stands_append.mp h.octets).2
  rw [hdata] at hstands
  exact itemsIn_stands hitems hstands

end Octets

/-! ### The buffer -/

section Buffer

variable {g : Getter} {size pad : Nat} {items : List CStr}

/-- An item with its padding. -/
def padded (pad : Nat) (item : CStr) : CStr := item ++ List.replicate pad 0

theorem putItem_stands {front : CStr} (hfront : front.length = g.offset)
    (hstands : Stands g.pktdata 0 front) (item : CStr) :
    Stands (g.putItem item pad).pktdata 0 (front ++ padded pad item) := by
  change Stands (store (store g.pktdata g.offset item) (g.offset + item.length)
    (List.replicate pad 0)) 0 (front ++ (item ++ List.replicate pad 0))
  rw [stands_append, stands_append, zero_add, hfront]
  refine ⟨?_, ?_, stands_store⟩
  · exact (hstands.store (.inl (by omega))).store (.inl (by omega))
  · exact stands_store.store (.inl (le_refl _))

theorem putItems_stands (pad : Nat) {front : CStr} (hfront : front.length = g.offset)
    (hstands : Stands g.pktdata 0 front) (items : List CStr) :
    Stands (putItems pad g items).pktdata 0 (front ++ (items.map (padded pad)).flatten) ∧
      (putItems pad g items).offset =
        (front ++ (items.map (padded pad)).flatten).length := by
  induction items generalizing g front with
  | nil => simpa [putItems, hfront] using hstands
  | cons item items ih =>
    have hfront' : (front ++ padded pad item).length = (g.putItem item pad).offset := by
      change _ = g.offset + (item.length + pad)
      simp [padded, hfront]
    have htail := ih hfront' (putItem_stands hfront hstands item)
    rw [append_assoc] at htail
    exact htail

/-- The variables other than those of the buffer are the same. -/
structure SameCall (g g' : Getter) : Prop where
  ritems : g'.ritems = g.ritems
  rsize : g'.rsize = g.rsize
  firstpkt : g'.firstpkt = g.firstpkt
  numrecv : g'.numrecv = g.numrecv
  lastseq : g'.lastseq = g.lastseq
  haveseq : g'.haveseq = g.haveseq

theorem putItems_sameCall (items : List CStr) :
    SameCall g (putItems pad g items) ∧ (putItems pad g items).pktdatasize = g.pktdatasize := by
  induction items generalizing g with
  | nil => exact ⟨⟨rfl, rfl, rfl, rfl, rfl, rfl⟩, rfl⟩
  | cons item items ih =>
    have htail := ih (g := g.putItem item pad)
    exact ⟨⟨htail.1.1, htail.1.2, htail.1.3, htail.1.4, htail.1.5, htail.1.6⟩, htail.2⟩

theorem makeRoom_sameCall (len : Nat) : SameCall g (g.makeRoom len) := by
  unfold Getter.makeRoom
  split_ifs
  · exact ⟨rfl, rfl, rfl, rfl, rfl, rfl⟩
  · exact ⟨rfl, rfl, rfl, rfl, rfl, rfl⟩

theorem SameCall.trans {g g' g'' : Getter} (h : SameCall g g') (h' : SameCall g' g'') :
    SameCall g g'' :=
  ⟨h'.1.trans h.1, h'.2.trans h.2, h'.3.trans h.3, h'.4.trans h.4, h'.5.trans h.5, h'.6.trans h.6⟩

theorem makeRoom_stands {front : CStr} (hfront : front.length = g.offset)
    (hroom : g.offset ≤ g.pktdatasize) (hstands : Stands g.pktdata 0 front) (len : Nat) :
    Stands (g.makeRoom len).pktdata 0 front := by
  unfold Getter.makeRoom
  split_ifs
  · exact hstands.store (.inl (by omega))
  · exact hstands

end Buffer

/-! ### A series that arrives -/

section Arrive

variable {h : Request.Reply} {chunks : List (List CStr)} {esize : Nat} {taken : List Nat}
  {g : Getter} {d : Datagram} {i : Nat}

/-- A series as the server sends it. -/
structure Served (h : Request.Reply) (chunks : List (List CStr)) : Prop where
  pos : 1 ≤ h.itemsize
  le : h.itemsize ≤ RESP_DATA_SIZE
  version : NTP_OLDVERSION ≤ h.reqver.toNat ∧ h.reqver.toNat ≤ NTP_VERSION
  ne_nil : chunks ≠ []
  length : chunks.length ≤ MAXSEQ + 1
  count : ∀ c ∈ chunks, 1 ≤ c.length ∧ c.length ≤ capacity h
  items : ∀ c ∈ chunks, ∀ item ∈ c, item.length = h.itemsize

/-- The request that a response is for. -/
def queryOf (h : Request.Reply) (esize : Nat) : Query :=
  { implcode := h.implementation, reqcode := h.request, esize := esize }

/-- The items of packet `i`. -/
def chunkAt (chunks : List (List CStr)) (i : Nat) : List CStr := chunks.getD i []

/-- Packet `i`. -/
def pktAt (h : Request.Reply) (chunks : List (List CStr)) (i : Nat) : RespPkt :=
  itemPkt h (decide (i + 1 < chunks.length)) i (chunkAt chunks i).length
    (chunkAt chunks i).flatten

theorem chunkAt_mem (hi : i < chunks.length) : chunkAt chunks i ∈ chunks := by
  unfold chunkAt
  rw [getD_eq_getElem _ _ hi]
  exact getElem_mem hi

/-- What stands in the buffer after the packets with these numbers. -/
def gathered (h : Request.Reply) (chunks : List (List CStr)) (esize : Nat) (taken : List Nat) :
    CStr :=
  ((taken.flatMap (chunkAt chunks)).map (padded (esize - h.itemsize))).flatten

/-- What is known after the packets with these numbers have been taken, in this order. -/
structure Got (h : Request.Reply) (chunks : List (List CStr)) (esize : Nat) (taken : List Nat)
    (g : Getter) : Prop where
  nodup : taken.Nodup
  bound : ∀ i ∈ taken, i < chunks.length
  haveseq : ∀ i, g.haveseq i = true ↔ i ∈ taken
  firstpkt : g.firstpkt = taken.isEmpty
  rsize : taken ≠ [] → g.rsize = max h.itemsize esize
  ritems : g.ritems = (taken.flatMap (chunkAt chunks)).length
  numrecv : g.numrecv = taken.length
  lastseq : g.lastseq = if chunks.length - 1 ∈ taken then chunks.length - 1 else NOSEQ
  status : g.status = if taken.length = chunks.length then some .okay else none
  data : Safe g → g.offset ≤ g.pktdatasize ∧
    g.offset = (gathered h chunks esize taken).length ∧
    Stands g.pktdata 0 (gathered h chunks esize taken)

theorem getStart_got (hs : Served h chunks) (pktdata : Memory) (pktdatasize : Nat) :
    Got h chunks esize [] (getStart pktdata pktdatasize) where
  nodup := nodup_nil
  bound := by simp
  haveseq := by simp [getStart]
  firstpkt := rfl
  rsize := fun h => absurd rfl h
  ritems := rfl
  numrecv := rfl
  lastseq := by simp [getStart]
  status := by
    have hpos := length_pos_of_ne_nil hs.ne_nil
    rw [if_neg (by simp; omega)]
    rfl
  data := fun _ => ⟨Nat.zero_le _, rfl, stands_nil⟩

/-- If one of `n` numbers is missing there are fewer than `n`. -/
theorem length_lt_of_missing {n : Nat} (hnodup : taken.Nodup) (hbound : ∀ i ∈ taken, i < n)
    (hi : i < n) (hnew : i ∉ taken) : taken.length < n := by
  have hsub : (i :: taken) ⊆ List.range n := by
    intro j hj
    rcases mem_cons.mp hj with rfl | hold
    · exact mem_range.mpr hi
    · exact mem_range.mpr (hbound j hold)
  have hle := (subperm_of_subset (nodup_cons.mpr ⟨hnew, hnodup⟩) hsub).length_le
  simpa using hle

theorem Got.length_lt (hg : Got h chunks esize taken g) (hi : i < chunks.length)
    (hnew : i ∉ taken) : taken.length < chunks.length :=
  length_lt_of_missing hg.nodup hg.bound hi hnew

theorem Got.status_eq_none (hg : Got h chunks esize taken g) (hi : i < chunks.length)
    (hnew : i ∉ taken) : g.status = none := by
  rw [hg.status, if_neg (hg.length_lt hi hnew).ne]

theorem itemsize_lt (hs : Served h chunks) : h.itemsize < 2 ^ 12 := by
  have hle := hs.le
  unfold RESP_DATA_SIZE at hle
  omega

theorem length_chunkAt_lt (hs : Served h chunks) (hi : i < chunks.length) :
    (chunkAt chunks i).length < 2 ^ 12 := by
  have hcap : capacity h ≤ RESP_DATA_SIZE := Nat.div_le_self _ _
  have hlen := (hs.count _ (chunkAt_mem hi)).2
  unfold RESP_DATA_SIZE at hcap
  omega

theorem infoVersion_itemPkt {more : Bool} {seqno nitems : Nat} {data : CStr}
    (hver : h.reqver ≠ 0) : (itemPkt h more seqno nitems data).infoVersion = h.reqver.toNat := by
  have hbits : ∀ (more : Bool) (v : BitVec 3), v ≠ 0 →
      (rmVnMode more v >>> 3 &&& 7).toNat = v.toNat := by decide
  exact hbits more h.reqver hver

theorem infoMode_itemPkt {more : Bool} {seqno nitems : Nat} {data : CStr} :
    (itemPkt h more seqno nitems data).infoMode = 7 := by
  have hbits : ∀ (more : Bool) (v : BitVec 3), (rmVnMode more v &&& 7).toNat = 7 := by decide
  exact hbits more h.reqver

theorem infoIsAuth_itemPkt {more : Bool} {seqno nitems : Nat} {data : CStr} :
    (itemPkt h more seqno nitems data).infoIsAuth = false := by
  have hzero : authSeq seqno &&& 0x80 = 0 := by
    unfold authSeq
    rw [BitVec.and_assoc]
    exact BitVec.and_zero
  exact bne_eq_false_iff_eq.mpr hzero

section

variable (hs : Served h chunks)

include hs

/-- A packet of the series passes the checks of its header. -/
theorem isAnswer_pktAt (i : Nat) :
    isAnswer (queryOf h esize) (pktAt h chunks i).toRespHdr = true := by
  have hver : h.reqver ≠ 0 := by
    rintro hzero
    have hpos := hs.version.1
    rw [hzero] at hpos
    exact absurd hpos (by decide)
  have hmbz : (pktAt h chunks i).infoMbz = 0 := upper_eq_zero (itemsize_lt hs)
  unfold isAnswer
  simp only [Bool.and_eq_true, decide_eq_true_eq, beq_iff_eq, Bool.not_eq_true']
  refine ⟨⟨⟨⟨⟨⟨⟨?_, ?_⟩, infoMode_itemPkt⟩, infoIsAuth_itemPkt⟩, isResponse_itemPkt⟩, hmbz⟩, rfl⟩,
    rfl⟩
  · exact hs.version.1.trans_eq (infoVersion_itemPkt hver).symm
  · exact (infoVersion_itemPkt hver).trans_le hs.version.2

theorem pktAt_fields (hi : i < chunks.length) :
    (pktAt h chunks i).infoSeq = i ∧ (pktAt h chunks i).infoErr = InfoErr.okay.toNat ∧
      (pktAt h chunks i).infoItemsize = h.itemsize ∧
      (pktAt h chunks i).infoNitems = (chunkAt chunks i).length ∧
      ((pktAt h chunks i).isMore = true ↔ i + 1 < chunks.length) := by
  have hseq : i ≤ MAXSEQ := by
    have hlen := hs.length
    omega
  exact ⟨infoSeq_itemPkt hseq, infoErr_itemPkt (length_chunkAt_lt hs hi),
    infoItemsize_itemPkt (itemsize_lt hs), infoNitems_itemPkt (length_chunkAt_lt hs hi),
    by unfold pktAt; rw [isMore_itemPkt, decide_eq_true_iff]⟩

theorem length_data_pktAt (hi : i < chunks.length) :
    (pktAt h chunks i).data.length = (chunkAt chunks i).length * h.itemsize :=
  flatten_length (hs.items _ (chunkAt_mem hi))

section

variable (hg : Got h chunks esize taken g) (hi : i < chunks.length)
  (hd : Carries d (pktAt h chunks i))

include hg hi hd

theorem verdict_pktAt :
    verdict (queryOf h esize) g (hdrOf d.mem) d.n =
      if i ∈ taken ∨ taken ≠ [] ∧ h.itemsize < esize then .toss else .take := by
  obtain ⟨hseq, herr, hsize, hnitems, hmore⟩ := pktAt_fields hs hi
  have hn : d.n - RESP_HEADER_SIZE = (chunkAt chunks i).length * h.itemsize := by
    rw [hd.n, length_data_pktAt hs hi, Nat.add_sub_cancel_left]
  have hfirst : ¬ g.firstpkt = true ↔ taken ≠ [] := by
    rw [hg.firstpkt, List.isEmpty_iff]
  have hother : (¬ g.firstpkt = true ∧ h.itemsize ≠ g.rsize) ↔ taken ≠ [] ∧ h.itemsize < esize := by
    rw [hfirst]
    refine and_congr_right fun hne => ?_
    rw [hg.rsize hne]
    omega
  have hlast : i ∉ taken → ¬ (¬ (pktAt h chunks i).isMore = true ∧ g.lastseq ≠ NOSEQ) := by
    rintro hnew ⟨hend, hseen⟩
    have hi' : i = chunks.length - 1 := by
      have := mt hmore.mpr hend
      omega
    rw [hg.lastseq, if_neg (hi' ▸ hnew)] at hseen
    exact hseen rfl
  rw [hdrOf_carries hd]
  unfold verdict
  rw [if_neg (not_not.mpr (isAnswer_pktAt hs i)), if_neg (not_not.mpr herr), hnitems, hsize, hn,
    if_neg (lt_irrefl _), if_congr hother rfl rfl, hseq, if_congr (hg.haveseq i) rfl rfl]
  by_cases hmis : taken ≠ [] ∧ h.itemsize < esize
  · rw [if_pos hmis, if_pos (.inr hmis)]
  · rw [if_neg hmis]
    by_cases hold : i ∈ taken
    · rw [if_pos hold, if_pos (.inl hold)]
    · rw [if_neg hold, if_neg (hlast hold), if_neg (not_or.mpr ⟨hold, hmis⟩)]

/-- A packet that was taken before, or that has the wrong size, is tossed. -/
theorem getStep_toss (htoss : i ∈ taken ∨ taken ≠ [] ∧ h.itemsize < esize) :
    getStep (queryOf h esize) g (.datagram d) = g := by
  unfold getStep
  by_cases hdone : g.status.isSome = true
  · rw [if_pos hdone]
  · rw [if_neg hdone]
    by_cases hn : d.n < RESP_HEADER_SIZE
    · exact recvPkt_eq_of_short hn
    · simp only
      rw [recvPkt_eq hn, verdict_pktAt hs hg hi hd, if_pos htoss]

theorem getStep_take (htake : ¬ (i ∈ taken ∨ taken ≠ [] ∧ h.itemsize < esize)) :
    getStep (queryOf h esize) g (.datagram d) = (putItems (esize - h.itemsize)
        ((g.notePkt (pktAt h chunks i).toRespHdr).makeRoom
          ((chunkAt chunks i).length * max h.itemsize esize))
        (chunkAt chunks i)).count (chunkAt chunks i).length h.itemsize (esize - h.itemsize) := by
  obtain ⟨hseq, herr, hsize, hnitems, hmore⟩ := pktAt_fields hs hi
  have hnew : i ∉ taken := fun hold => htake (.inl hold)
  have hnone := hg.status_eq_none hi hnew
  have hn : ¬ d.n < RESP_HEADER_SIZE := by
    rw [hd.n]
    omega
  have hread : itemsIn d.mem h.itemsize (chunkAt chunks i).length RESP_HEADER_SIZE =
      chunkAt chunks i :=
    itemsIn_carries hd (hs.items _ (chunkAt_mem hi)) rfl
  unfold getStep
  rw [hnone]
  simp only
  rw [recvPkt_eq hn, verdict_pktAt hs hg hi hd, if_neg htake]
  rw [takeItems_run, hdrOf_carries hd, hsize, hnitems, hread]
  rfl

/-- A packet that is taken is written inside the buffer if and only if it fits. -/
theorem getStep_safe_take (htake : ¬ (i ∈ taken ∨ taken ≠ [] ∧ h.itemsize < esize)) :
    Safe (getStep (queryOf h esize) g (.datagram d)) ↔
      Safe g ∧ g.offset + (chunkAt chunks i).length * max h.itemsize esize ≤
        g.pktdatasize + INCDATASIZE := by
  obtain ⟨-, -, hsize, hnitems, -⟩ := pktAt_fields hs hi
  have hnone := hg.status_eq_none hi fun hold => htake (.inl hold)
  have hn : RESP_HEADER_SIZE ≤ d.n := by
    rw [hd.n]
    exact Nat.le_add_right _ _
  have hpos : (chunkAt chunks i).length * max h.itemsize esize ≠ 0 := by
    have hcount := (hs.count _ (chunkAt_mem hi)).1
    have hsize := hs.pos
    exact Nat.mul_ne_zero (by omega) (by omega)
  have htaken : verdict (queryOf h esize) g (hdrOf d.mem) d.n = .take := by
    rw [verdict_pktAt hs hg hi hd, if_neg htake]
  rw [getStep_safe_iff]
  refine and_congr_right fun _ => ?_
  simp only [GetOk, hnone, hn, htaken, true_implies]
  unfold PktFits
  rw [hdrOf_carries hd, hsize, hnitems]
  exact or_iff_right hpos

end

end

theorem gathered_concat (h : Request.Reply) (chunks : List (List CStr)) (esize : Nat)
    (taken : List Nat) (i : Nat) :
    gathered h chunks esize (taken ++ [i]) =
      gathered h chunks esize taken ++
        ((chunkAt chunks i).map (padded (esize - h.itemsize))).flatten := by
  simp [gathered]

theorem putItems_gathered (hs : Served h chunks) (hi : i < chunks.length)
    (hroom : g.offset ≤ g.pktdatasize) (hoffset : g.offset = (gathered h chunks esize taken).length)
    (hstands : Stands g.pktdata 0 (gathered h chunks esize taken)) (len : Nat)
    (hsafe : Safe (putItems (esize - h.itemsize) (g.makeRoom len) (chunkAt chunks i))) :
    let g' := putItems (esize - h.itemsize) (g.makeRoom len) (chunkAt chunks i)
    g'.offset ≤ g'.pktdatasize ∧
      g'.offset = (gathered h chunks esize (taken ++ [i])).length ∧
      Stands g'.pktdata 0 (gathered h chunks esize (taken ++ [i])) := by
  have hfront : (gathered h chunks esize taken).length = (g.makeRoom len).offset := by
    rw [makeRoom_offset, hoffset]
  have hput := putItems_stands (esize - h.itemsize) hfront
    (makeRoom_stands hoffset.symm hroom hstands len) (chunkAt chunks i)
  rw [← gathered_concat] at hput
  obtain ⟨hstands', hoffset'⟩ := hput
  refine ⟨?_, hoffset', hstands'⟩
  have hitems := hs.items _ (chunkAt_mem hi)
  have hcount := (hs.count _ (chunkAt_mem hi)).1
  have hpos : 0 < (chunkAt chunks i).length * (h.itemsize + (esize - h.itemsize)) :=
    Nat.mul_pos hcount (Nat.add_pos_left hs.pos _)
  have hlength : ((chunkAt chunks i).map (padded (esize - h.itemsize))).flatten.length =
      (chunkAt chunks i).length * (h.itemsize + (esize - h.itemsize)) := by
    rw [flatten_length (n := h.itemsize + (esize - h.itemsize)), length_map]
    intro item hitem
    obtain ⟨item', hitem', rfl⟩ := mem_map.mp hitem
    simp [padded, hitems item' hitem']
  rw [putItems_safe_iff _ hitems] at hsafe
  rw [(putItems_sameCall (chunkAt chunks i)).2, hoffset', gathered_concat, length_append,
    hlength, hfront]
  exact hsafe.1.resolve_left hpos.ne'

theorem notePkt_haveseq (hs : Served h chunks) (hg : Got h chunks esize taken g)
    (hi : i < chunks.length) (j : Nat) :
    (g.notePkt (pktAt h chunks i).toRespHdr).haveseq j = true ↔ j ∈ taken ++ [i] := by
  change Function.update g.haveseq (pktAt h chunks i).infoSeq true j = true ↔ _
  rw [(pktAt_fields hs hi).1, mem_append, mem_singleton]
  by_cases hj : j = i
  · simp [hj]
  · rw [Function.update_of_ne hj, hg.haveseq j]
    exact (or_iff_left hj).symm

theorem notePkt_lastseq (hs : Served h chunks) (hg : Got h chunks esize taken g)
    (hi : i < chunks.length) :
    (g.notePkt (pktAt h chunks i).toRespHdr).lastseq =
      if chunks.length - 1 ∈ taken ++ [i] then chunks.length - 1 else NOSEQ := by
  obtain ⟨hseq, -, -, -, hmore⟩ := pktAt_fields hs hi
  change (if (pktAt h chunks i).isMore = true then g.lastseq else (pktAt h chunks i).infoSeq) = _
  rw [hseq, if_congr hmore rfl rfl, hg.lastseq]
  by_cases hend : i + 1 < chunks.length
  · have hiff : chunks.length - 1 ∈ taken ++ [i] ↔ chunks.length - 1 ∈ taken := by
      rw [mem_append, mem_singleton]
      exact or_iff_left (by omega)
    rw [if_pos hend, if_congr hiff rfl rfl]
  · have hlast : i = chunks.length - 1 := by omega
    rw [if_neg hend, ← hlast, if_pos (by simp)]

theorem status_eq (hs : Served h chunks) {all : List Nat} (hnodup : all.Nodup)
    (hbound : ∀ j ∈ all, j < chunks.length) :
    (if all.length ≤ (if chunks.length - 1 ∈ all then chunks.length - 1 else NOSEQ) then none
      else some Status.okay) =
      if all.length = chunks.length then some .okay else none := by
  have hlen := hs.length
  have hne := length_pos_of_ne_nil hs.ne_nil
  have hle : all.length ≤ chunks.length := by
    have hsub : all ⊆ List.range chunks.length := fun j hj => mem_range.mpr (hbound j hj)
    simpa using (subperm_of_subset hnodup hsub).length_le
  unfold MAXSEQ at hlen
  by_cases hend : chunks.length - 1 ∈ all
  · split_ifs
    · omega
    · rfl
    · rfl
    · omega
  · have hlt := length_lt_of_missing hnodup hbound (by omega) hend
    rw [if_neg hend, if_pos (by unfold NOSEQ; omega), if_neg hlt.ne]

theorem Got.concat (hg : Got h chunks esize taken g) (hi : i < chunks.length) (hnew : i ∉ taken) :
    (taken ++ [i]).Nodup ∧ ∀ j ∈ taken ++ [i], j < chunks.length := by
  constructor
  · rw [nodup_append_comm]
    exact nodup_cons.mpr ⟨hnew, hg.nodup⟩
  · intro j hj
    rcases mem_append.mp hj with hold | hlast
    · exact hg.bound j hold
    · rw [mem_singleton.mp hlast]
      exact hi

/-- The size of an item in the buffer is that of the first packet. -/
theorem Got.rsize_concat (hg : Got h chunks esize taken g) :
    (if g.firstpkt = true then h.itemsize + (esize - h.itemsize) else g.rsize) =
      max h.itemsize esize := by
  rw [hg.firstpkt]
  by_cases hempty : taken = []
  · rw [if_pos (isEmpty_iff.mpr hempty)]
    omega
  · rw [if_neg (mt List.isEmpty_iff.mp hempty), hg.rsize hempty]

theorem getStep_got (hs : Served h chunks) (hg : Got h chunks esize taken g)
    (hi : i < chunks.length) (hd : Carries d (pktAt h chunks i))
    (htake : ¬ (i ∈ taken ∨ taken ≠ [] ∧ h.itemsize < esize)) :
    Got h chunks esize (taken ++ [i]) (getStep (queryOf h esize) g (.datagram d)) := by
  have hnew : i ∉ taken := fun hold => htake (.inl hold)
  rw [getStep_take hs hg hi hd htake]
  obtain ⟨len, hlen⟩ : ∃ len, (chunkAt chunks i).length * max h.itemsize esize = len := ⟨_, rfl⟩
  obtain ⟨g', hg'⟩ : ∃ g', putItems (esize - h.itemsize)
      ((g.notePkt (pktAt h chunks i).toRespHdr).makeRoom len) (chunkAt chunks i) = g' := ⟨_, rfl⟩
  rw [hlen, hg']
  have hsame : SameCall (g.notePkt (pktAt h chunks i).toRespHdr) g' :=
    hg' ▸ (makeRoom_sameCall len).trans (putItems_sameCall (chunkAt chunks i)).1
  obtain ⟨hnodup, hbound⟩ := hg.concat hi hnew
  have hlast := hsame.lastseq.trans (notePkt_lastseq hs hg hi)
  have hnumrecv : g'.numrecv + 1 = (taken ++ [i]).length := by
    rw [hsame.numrecv, length_append]
    exact congrArg (· + 1) hg.numrecv
  refine
    { nodup := hnodup
      bound := hbound
      haveseq := fun j => ?_
      firstpkt := ?_
      rsize := fun _ => ?_
      ritems := ?_
      numrecv := hnumrecv
      lastseq := hlast
      status := ?_
      data := fun hsafe => ?_ }
  · change g'.haveseq j = true ↔ _
    rw [hsame.haveseq]
    exact notePkt_haveseq hs hg hi j
  · change false = _
    simp
  · change (if g'.firstpkt = true then h.itemsize + (esize - h.itemsize) else g'.rsize) = _
    rw [hsame.firstpkt, hsame.rsize]
    exact hg.rsize_concat
  · change g'.ritems + (chunkAt chunks i).length = _
    rw [hsame.ritems]
    change g.ritems + _ = _
    rw [hg.ritems]
    simp
  · change (if g'.numrecv + 1 ≤ g'.lastseq then none else some Status.okay) = _
    rw [hnumrecv, hlast]
    exact status_eq hs hnodup hbound
  · have hsafe' : Safe g' := hsafe
    rw [← hg'] at hsafe'
    have hbefore : Safe g := by
      have hroom := ((putItems_safe_iff _ (hs.items _ (chunkAt_mem hi))).mp hsafe').2
      rw [makeRoom_safe_iff] at hroom
      exact hroom
    obtain ⟨hroom, hoffset, hstands⟩ := hg.data hbefore
    have hdata := putItems_gathered (g := g.notePkt (pktAt h chunks i).toRespHdr) hs hi hroom
      hoffset hstands len hsafe'
    rw [hg'] at hdata
    exact hdata

/-! ### Runs -/

/-- A packet of a series that arrives. -/
structure Arrival (sent : List RespPkt) where
  i : Fin sent.length
  d : Datagram
  carries : Carries d sent[i]

/-- The number of the packet. -/
def Arrival.num {sent : List RespPkt} (a : Arrival sent) : Nat := a.i

/-- The state after packets have arrived. -/
def received {sent : List RespPkt} (q : Query) (g : Getter) (arr : List (Arrival sent)) : Getter :=
  Run.exec (getStep q) g (arr.map fun a => .datagram a.d)

theorem received_concat {sent : List RespPkt} (q : Query) (g : Getter) (arr : List (Arrival sent))
    (a : Arrival sent) :
    received q g (arr ++ [a]) = getStep q (received q g arr) (.datagram a.d) := by
  unfold received
  rw [map_append, Run.exec_append]
  rfl

theorem length_series : (series h chunks).length = chunks.length := by
  simp [series]

theorem Arrival.num_lt (a : Arrival (series h chunks)) : a.num < chunks.length :=
  lt_of_lt_of_eq a.i.isLt length_series

theorem series_getElem_eq (hi : i < (series h chunks).length) :
    (series h chunks)[i] = pktAt h chunks i := by
  have hi' : i < chunks.length := by rwa [length_series] at hi
  simp only [series, getElem_mapIdx, pktAt, chunkAt, getD_eq_getElem _ _ hi']

theorem Arrival.carries_pktAt (a : Arrival (series h chunks)) :
    Carries a.d (pktAt h chunks a.num) := by
  rw [Arrival.num, ← series_getElem_eq a.i.isLt]
  exact a.carries

theorem eraseDups_concat (l : List Nat) (i : Nat) :
    (l ++ [i]).eraseDups = if i ∈ l then l.eraseDups else l.eraseDups ++ [i] := by
  rw [eraseDups_append]
  split_ifs with hi
  · simp [List.removeAll, hi]
  · simp [List.removeAll, hi, eraseDups_cons]

/-- Items of the size that is expected, or a single packet: every packet is taken
    once, in the order in which the packets arrive for the first time. -/
theorem received_got (hs : Served h chunks) (hcase : esize ≤ h.itemsize ∨ chunks.length = 1)
    (pktdata : Memory) (pktdatasize : Nat) (arr : List (Arrival (series h chunks))) :
    Got h chunks esize (arr.map Arrival.num).eraseDups
      (received (queryOf h esize) (getStart pktdata pktdatasize) arr) := by
  induction arr using List.reverseRecOn with
  | nil => exact getStart_got hs pktdata pktdatasize
  | append_singleton arr a ih =>
    rw [received_concat, map_append, map_singleton, eraseDups_concat]
    by_cases hold : a.num ∈ (arr.map Arrival.num).eraseDups
    · rw [if_pos (mem_eraseDups.mp hold), getStep_toss hs ih a.num_lt a.carries_pktAt (.inl hold)]
      exact ih
    · rw [if_neg (mt mem_eraseDups.mpr hold)]
      refine getStep_got hs ih a.num_lt a.carries_pktAt (not_or.mpr ⟨hold, ?_⟩)
      rintro ⟨hne, hshort⟩
      have hlt := ih.length_lt a.num_lt hold
      exact hne (length_eq_zero_iff.mp (by omega))

/-- Shorter items in several packets: only one packet is taken. -/
theorem received_one (hs : Served h chunks) (hshort : h.itemsize < esize) (pktdata : Memory)
    (pktdatasize : Nat) (arr : List (Arrival (series h chunks))) :
    ∃ taken, taken.length ≤ 1 ∧ Got h chunks esize taken
      (received (queryOf h esize) (getStart pktdata pktdatasize) arr) := by
  induction arr using List.reverseRecOn with
  | nil => exact ⟨[], Nat.zero_le 1, getStart_got hs pktdata pktdatasize⟩
  | append_singleton arr a ih =>
    obtain ⟨taken, hlen, hg⟩ := ih
    rw [received_concat]
    by_cases htoss : a.num ∈ taken ∨ taken ≠ [] ∧ h.itemsize < esize
    · rw [getStep_toss hs hg a.num_lt a.carries_pktAt htoss]
      exact ⟨taken, hlen, hg⟩
    · have hempty : taken = [] := by
        by_contra hne
        exact htoss (.inr ⟨hne, hshort⟩)
      exact ⟨taken ++ [a.num], by simp [hempty], getStep_got hs hg a.num_lt a.carries_pktAt htoss⟩

/-- The octets of all items of a packet as they are sent. -/
theorem length_mul_itemsize_le (hs : Served h chunks) (hi : i < chunks.length) :
    (chunkAt chunks i).length * h.itemsize ≤ RESP_DATA_SIZE :=
  (le_capacity_iff hs.pos _).mp (hs.count _ (chunkAt_mem hi)).2

theorem flatMap_chunkAt (chunks : List (List CStr)) :
    (List.range chunks.length).flatMap (chunkAt chunks) = chunks.flatten := by
  have hmap : (List.range chunks.length).map (chunkAt chunks) = chunks := by
    apply ext_getElem
    · simp
    · intro i hi hi'
      simp [chunkAt, hi']
  rw [flatMap_def, hmap]

theorem chunkAt_zero (hone : chunks.length = 1) : chunkAt chunks 0 = chunks.flatten := by
  rw [← flatMap_chunkAt, hone]
  simp

/-- The condition on a single packet: the buffer has to grow at most once. -/
def OneFits (total size pktdatasize : Nat) : Prop := total * size ≤ pktdatasize + INCDATASIZE

/-- If the packets are taken, what is written is inside the buffer. -/
theorem received_safe (hs : Served h chunks) (hcase : esize ≤ h.itemsize ∨ chunks.length = 1)
    (pktdata : Memory) (pktdatasize : Nat) (hfits : chunks.length = 1 →
      OneFits chunks.flatten.length (max h.itemsize esize) pktdatasize)
    (arr : List (Arrival (series h chunks))) :
    Safe (received (queryOf h esize) (getStart pktdata pktdatasize) arr) := by
  induction arr using List.reverseRecOn with
  | nil => exact fun w hw => by simp [received, getStart] at hw
  | append_singleton arr a ih =>
    have hg := received_got hs hcase pktdata pktdatasize arr
    rw [received_concat]
    by_cases htoss : a.num ∈ (arr.map Arrival.num).eraseDups ∨
        (arr.map Arrival.num).eraseDups ≠ [] ∧ h.itemsize < esize
    · rw [getStep_toss hs hg a.num_lt a.carries_pktAt htoss]
      exact ih
    · rw [getStep_safe_take hs hg a.num_lt a.carries_pktAt htoss]
      refine ⟨ih, ?_⟩
      by_cases hshort : h.itemsize < esize
      · -- the only packet, which is the first to arrive
        have hone := hcase.resolve_left (not_le.mpr hshort)
        have hempty : arr = [] := by
          cases arr with
          | nil => rfl
          | cons b rest =>
            refine absurd (.inr ⟨?_, hshort⟩) htoss
            simp [eraseDups_cons]
        have hnum : a.num = 0 := by
          have hlt := a.num_lt
          omega
        rw [hempty, hnum, chunkAt_zero hone]
        exact (zero_add _).trans_le (hfits hone)
      · have hle := length_mul_itemsize_le hs a.num_lt
        have hroom := (hg.data ih).1
        rw [max_eq_left (not_lt.mp hshort)]
        unfold RESP_DATA_SIZE at hle
        unfold INCDATASIZE RESP_PKT_SIZE RESP_HEADER_SIZE RESP_DATA_SIZE
        omega

theorem oneFits_of_safe (hs : Served h chunks) (hone : chunks.length = 1) (pktdata : Memory)
    (pktdatasize : Nat) {arr : List (Arrival (series h chunks))} (hne : arr ≠ [])
    (hsafe : Safe (received (queryOf h esize) (getStart pktdata pktdatasize) arr)) :
    OneFits chunks.flatten.length (max h.itemsize esize) pktdatasize := by
  cases arr with
  | nil => exact absurd rfl hne
  | cons a rest =>
    have hrest : Safe (received (queryOf h esize) (getStep (queryOf h esize)
        (getStart pktdata pktdatasize) (.datagram a.d)) rest) := hsafe
    have hfirst := ((Run.exec_iff_meets (fun _ _ _ => trivial)
      (fun _ e (_ : True) => getStep_safe_iff e) _ _ trivial).mp hrest).1
    have hnum : a.num = 0 := by
      have hlt := a.num_lt
      omega
    rw [getStep_safe_take hs (getStart_got hs pktdata pktdatasize) a.num_lt a.carries_pktAt
      (by simp), hnum, chunkAt_zero hone] at hfirst
    exact (zero_add _).symm.trans_le hfirst.2

/-! ### The response -/

/-- An item with zeros behind it, up to a size. -/
def padTo (size : Nat) (item : CStr) : CStr := padded (size - item.length) item

/-- What a call should return: all items in order, each padded to the size. -/
structure Reassembled (items : List CStr) (size : Nat) (g : Getter) : Prop where
  status : g.status = some .okay
  ritems : g.ritems = items.length
  rsize : g.rsize = size
  rdata : octetsAt g.pktdata 0 (items.length * size) = (items.map (padTo size)).flatten
  safe : Safe g

theorem Reassembled.first {items : List CStr} {size : Nat} {b : BitVec 8}
    (hr : Reassembled items size g) (hb : (items.map (padTo size)).flatten[0]? = some b) :
    g.pktdata 0 = b := by
  obtain ⟨hlt, hfirst⟩ := List.getElem?_eq_some_iff.mp hb
  have hstands := stands_octetsAt g.pktdata 0 (items.length * size)
  rw [hr.rdata] at hstands
  exact (hstands 0 hlt).trans hfirst

/-- The data of packet `i` of a series. -/
def dataAt (sent : List RespPkt) (i : Nat) : CStr := (sent[i]?.map RespPkt.data).getD []

/-- The condition on how packets arrive. The items are not shorter than expected, or
    there is one packet. The packets have their data in order when only the first
    arrival of each counts. A single packet fits. -/
def ArrivalOk {sent : List RespPkt} (size esize total pktdatasize : Nat)
    (arr : List (Arrival sent)) : Prop :=
  (esize ≤ size ∨ sent.length = 1) ∧
    (arr.map Arrival.num).eraseDups.flatMap (dataAt sent) = sent.flatMap RespPkt.data ∧
    (sent.length = 1 → OneFits total (max size esize) pktdatasize)

theorem dataAt_series (i : Nat) : dataAt (series h chunks) i = (chunkAt chunks i).flatten := by
  unfold dataAt series chunkAt
  rw [List.getElem?_mapIdx, getD_eq_getElem?_getD]
  cases chunks[i]? <;> rfl

theorem flatMap_dataAt (taken : List Nat) :
    taken.flatMap (dataAt (series h chunks)) = (taken.flatMap (chunkAt chunks)).flatten := by
  induction taken with
  | nil => rfl
  | cons i taken ih =>
    rw [flatMap_cons, flatMap_cons, flatten_append, dataAt_series, ih]

theorem map_padTo (hs : Served h chunks) :
    chunks.flatten.map (padTo (max h.itemsize esize)) =
      chunks.flatten.map (padded (esize - h.itemsize)) := by
  refine map_congr_left fun item hitem => ?_
  obtain ⟨c, hc, hitem'⟩ := mem_flatten.mp hitem
  have hsize : max h.itemsize esize - h.itemsize = esize - h.itemsize := by omega
  unfold padTo
  rw [hs.items c hc item hitem', hsize]

theorem length_gathered (hs : Served h chunks) (hbound : ∀ i ∈ taken, i < chunks.length) :
    (gathered h chunks esize taken).length =
      (taken.flatMap (chunkAt chunks)).length * max h.itemsize esize := by
  unfold gathered
  have hsize : h.itemsize + (esize - h.itemsize) = max h.itemsize esize := by omega
  rw [flatten_length (n := max h.itemsize esize), length_map]
  intro item hitem
  obtain ⟨item', hitem', rfl⟩ := mem_map.mp hitem
  obtain ⟨i, hi, hin⟩ := mem_flatMap.mp hitem'
  have hlength := hs.items _ (chunkAt_mem (hbound i hi)) item' hin
  rw [padded, length_append, length_replicate, hlength, hsize]

/-- When every packet has been taken, the buffer has the items in order if and only
    if the packets have. -/
theorem gathered_eq_iff (hs : Served h chunks) (hcase : esize ≤ h.itemsize ∨ chunks.length = 1)
    (hperm : taken.Perm (List.range chunks.length)) :
    gathered h chunks esize taken =
        (chunks.flatten.map (padTo (max h.itemsize esize))).flatten ↔
      taken.flatMap (dataAt (series h chunks)) = (series h chunks).flatMap RespPkt.data := by
  have hseries : (series h chunks).flatMap RespPkt.data = chunks.flatten.flatten :=
    series_data chunks
  rw [map_padTo hs, flatMap_dataAt, hseries]
  unfold gathered
  rcases hcase with hle | hone
  · have hid : padded (esize - h.itemsize) = id := by
      funext item
      simp [padded, Nat.sub_eq_zero_of_le hle]
    rw [hid, map_id, map_id]
  · have htaken : taken.flatMap (chunkAt chunks) = chunks.flatten := by
      rw [hone] at hperm
      rw [perm_singleton.mp hperm, ← chunkAt_zero hone]
      simp
    rw [htaken]
    exact iff_of_true rfl rfl

theorem received_perm (hg : Got h chunks esize taken g)
    (hall : ∀ i < chunks.length, i ∈ taken) : taken.Perm (List.range chunks.length) := by
  refine (perm_ext_iff_of_nodup hg.nodup nodup_range).mpr fun i => ?_
  rw [mem_range]
  exact ⟨hg.bound i, hall i⟩

theorem reassembled_got_iff (hs : Served h chunks)
    (hcase : esize ≤ h.itemsize ∨ chunks.length = 1) (hg : Got h chunks esize taken g)
    (hall : ∀ i < chunks.length, i ∈ taken) :
    Reassembled chunks.flatten (max h.itemsize esize) g ↔
      Safe g ∧
        taken.flatMap (dataAt (series h chunks)) = (series h chunks).flatMap RespPkt.data := by
  have hperm := received_perm hg hall
  have hlength : taken.length = chunks.length := by
    rw [hperm.length_eq, length_range]
  have hne : taken ≠ [] := by
    intro hempty
    rw [hempty] at hlength
    exact hs.ne_nil (length_eq_zero_iff.mp hlength.symm)
  have htotal : (taken.flatMap (chunkAt chunks)).length = chunks.flatten.length := by
    rw [← flatMap_chunkAt chunks]
    exact (hperm.flatMap_right _).length_eq
  have hrdata : Safe g → octetsAt g.pktdata 0 (chunks.flatten.length * max h.itemsize esize) =
      gathered h chunks esize taken := by
    intro hsafe
    rw [← htotal, ← length_gathered hs hg.bound]
    exact (hg.data hsafe).2.2.octetsAt_eq
  rw [← gathered_eq_iff hs hcase hperm]
  constructor
  · intro hr
    exact ⟨hr.safe, (hrdata hr.safe).symm.trans hr.rdata⟩
  · rintro ⟨hsafe, hdata⟩
    exact
      { status := by rw [hg.status, if_pos hlength]
        ritems := hg.ritems.trans htotal
        rsize := hg.rsize hne
        rdata := (hrdata hsafe).trans hdata
        safe := hsafe }

theorem reassembled_series_iff (hs : Served h chunks) (pktdata : Memory) (pktdatasize : Nat)
    (arr : List (Arrival (series h chunks)))
    (hall : ∀ i : Fin (series h chunks).length, ∃ a ∈ arr, a.i = i) :
    Reassembled chunks.flatten (max h.itemsize esize)
        (received (queryOf h esize) (getStart pktdata pktdatasize) arr) ↔
      ArrivalOk h.itemsize esize chunks.flatten.length pktdatasize arr := by
  unfold ArrivalOk
  rw [length_series]
  by_cases hcase : esize ≤ h.itemsize ∨ chunks.length = 1
  · have hall' : ∀ i < chunks.length, i ∈ (arr.map Arrival.num).eraseDups := by
      intro i hi
      obtain ⟨a, ha, hai⟩ := hall ⟨i, hi.trans_eq length_series.symm⟩
      exact mem_eraseDups.mpr (mem_map.mpr ⟨a, ha, congrArg Fin.val hai⟩)
    have hne : arr ≠ [] := by
      rintro rfl
      exact absurd (hall' 0 (length_pos_of_ne_nil hs.ne_nil)) (by simp)
    rw [reassembled_got_iff hs hcase (received_got hs hcase pktdata pktdatasize arr) hall',
      and_iff_right hcase, and_comm]
    refine and_congr_right fun _ => ⟨fun hsafe hone => ?_, fun hfits => ?_⟩
    · exact oneFits_of_safe hs hone pktdata pktdatasize hne hsafe
    · exact received_safe hs hcase pktdata pktdatasize hfits arr
  · -- after one packet the others are tossed
    refine iff_of_false (fun hr => ?_) (fun hok => hcase hok.1)
    obtain ⟨hshort, hmany⟩ := not_or.mp hcase
    obtain ⟨taken, hlen, hg⟩ := received_one hs (not_le.mp hshort) pktdata pktdatasize arr
    have hpos := length_pos_of_ne_nil hs.ne_nil
    have hnone := hg.status
    rw [if_neg (by omega), hr.status] at hnone
    cases hnone

/-- For every series that a server sends and every way its packets arrive, in any
    order and any of them more than once, so that none is missing: `getresponse`
    returns all items in the order of the server, each padded to the larger of
    both sizes, if and only if the condition on how the packets arrive is met. -/
theorem reassembled_iff (h : Request.Reply) (hpos : 1 ≤ h.itemsize)
    (hle : h.itemsize ≤ RESP_DATA_SIZE)
    (hver : NTP_OLDVERSION ≤ h.reqver.toNat ∧ h.reqver.toNat ≤ NTP_VERSION)
    (data exbuf : Memory) (items : List CStr) (hne : items ≠ [])
    (hitems : ∀ item ∈ items, item.length = h.itemsize) (esize : Nat) (pktdata : Memory)
    (pktdatasize : Nat) (arr : List (Arrival (respond h data exbuf items).sent))
    (hall : ∀ i : Fin (respond h data exbuf items).sent.length, ∃ a ∈ arr, a.i = i) :
    let sent := items.take ((MAXSEQ + 1) * (RESP_DATA_SIZE / h.itemsize))
    Reassembled sent (max h.itemsize esize)
        (received (queryOf h esize) (getStart pktdata pktdatasize) arr) ↔
      ArrivalOk h.itemsize esize sent.length pktdatasize arr := by
  obtain ⟨chunks, hsent, -, hchunks, hlength, hcount, hflat⟩ :=
    respond_series hpos hle data exbuf hne hitems
  have hsized : ∀ c ∈ chunks, ∀ item ∈ c, item.length = h.itemsize := by
    intro c hc item hitem
    have hin : item ∈ chunks.flatten := mem_flatten.mpr ⟨c, hc, hitem⟩
    rw [hflat] at hin
    exact hitems item (mem_of_mem_take hin)
  have hs : Served h chunks := ⟨hpos, hle, hver, hchunks, hlength, hcount, hsized⟩
  revert arr hall
  rw [hsent]
  intro arr hall
  change Reassembled (items.take ((MAXSEQ + 1) * capacity h)) _ _ ↔
    ArrivalOk _ _ (items.take ((MAXSEQ + 1) * capacity h)).length _ _
  rw [← hflat]
  exact reassembled_series_iff hs pktdata pktdatasize arr hall

end Arrive

/-! ### Packets that arrive in another order -/

/-- The datagram of a packet. -/
def datagramFor (p : RespPkt) (hle : p.data.length ≤ RESP_DATA_SIZE) : Datagram :=
  datagramOf (encodeHdr p.toRespHdr ++ p.data) (by
    rw [length_append]
    exact Nat.add_le_add_left hle _)

theorem datagramFor_carries {p : RespPkt} (hle : p.data.length ≤ RESP_DATA_SIZE) :
    Carries (datagramFor p hle) p where
  n := length_append
  octets := by
    intro i hi
    change (encodeHdr p.toRespHdr ++ p.data).getD (0 + i) 0 = _
    rw [zero_add, getD_eq_getElem _ _ hi]

/-- Packet `i` of a series arrives. -/
def arrivalAt (sent : List RespPkt) (i : Fin sent.length)
    (hle : sent[i].data.length ≤ RESP_DATA_SIZE) : Arrival sent :=
  ⟨i, datagramFor sent[i] hle, datagramFor_carries hle⟩

/-- A single packet with an item of two octets. -/
def shortSent : List RespPkt := (respond plainHdr (fun _ => 0) (fun _ => 0) [[1, 2]]).sent

/-- The packet arrives twice, and four octets are expected. -/
theorem reassembled_iff_twice :
    Reassembled [[1, 2]] 4
      (received (queryOf plainHdr 4) (getStart (fun _ => 0) INITDATASIZE)
        [arrivalAt shortSent ⟨0, by decide⟩ (by decide),
          arrivalAt shortSent ⟨0, by decide⟩ (by decide)]) := by
  refine (reassembled_iff plainHdr (by decide) (by decide) (by decide) (fun _ => 0) (fun _ => 0)
    [[1, 2]] (by decide) (by decide) 4 (fun _ => 0) INITDATASIZE
    [arrivalAt shortSent ⟨0, by decide⟩ (by decide),
      arrivalAt shortSent ⟨0, by decide⟩ (by decide)] ?_).mpr ?_
  · intro i
    have hlt : (i : Nat) < 1 := i.isLt
    exact ⟨_, mem_cons_self, Fin.ext (Nat.lt_one_iff.mp hlt).symm⟩
  · exact ⟨.inr rfl, by decide, fun _ => by unfold OneFits; decide⟩

/-- Two items of 251 octets, of which each takes a packet. -/
def wideItems : List CStr := [List.replicate 251 1, List.replicate 251 2]

def wideHdr : Request.Reply := { plainHdr with itemsize := 251 }

def wideSent : List RespPkt := (respond wideHdr (fun _ => 0) (fun _ => 0) wideItems).sent

/-- The two packets, the second one first. -/
def wideSwapped : List (Arrival wideSent) :=
  [arrivalAt wideSent ⟨1, by decide +kernel⟩ (by decide +kernel),
    arrivalAt wideSent ⟨0, by decide +kernel⟩ (by decide +kernel)]

/-- If the second packet arrives first its item is the first one that the call returns. And if 252
    octets are expected the call never returns, in whatever order the packets arrive. -/
theorem swapped_not_reassembled :
    let g := received (queryOf wideHdr 251) (getStart (fun _ => 0) INITDATASIZE) wideSwapped
    let g' := received (queryOf wideHdr 252) (getStart (fun _ => 0) INITDATASIZE)
      wideSwapped.reverse
    (g.status = some .okay ∧ g.ritems = 2 ∧ g.rsize = 251 ∧ g.pktdata 0 = 2 ∧
      ¬ Reassembled wideItems 251 g) ∧
    g'.status = none ∧ ¬ Reassembled wideItems 252 g' := by
  have hswapped : (received (queryOf wideHdr 251) (getStart (fun _ => 0) INITDATASIZE)
      wideSwapped).pktdata 0 = 2 := by decide +kernel
  have hnone : (received (queryOf wideHdr 252) (getStart (fun _ => 0) INITDATASIZE)
      wideSwapped.reverse).status = none := by decide +kernel
  refine ⟨⟨by decide +kernel, by decide +kernel, by decide +kernel, hswapped, fun hr => ?_⟩,
    hnone, fun hr => ?_⟩
  · have hone := hr.first (b := 1) (by decide +kernel)
    exact absurd (hswapped.symm.trans hone) (by decide)
  · rw [hr.status] at hnone
    cases hnone

end NtpSuite.Ntpdc
