import NtpSuite.Core.RespPkt

/-!
# A Series of Responses

The packets that a handler sends. Its items go into packets in order, each packet
but the last is full, and at most 128 packets are sent. What does not fit into
these is left out. A series is described by the items of each packet, and both
what the packets have in their headers and what all of them carry can be read off
that description.

The invariant is about the state between two items. Full packets have been sent,
except for one that stands in the buffer while the next item goes to the extra
buffer.

## Main definitions

* `capacity`: The items of a full packet.
* `series`: The packets with given items.
* `Packed`: What is known between two items.

## Theorems

* `fill_more`: What one item does.
* `fillItems_packed`: What all items do.
* `respond_series`: A handler sends a series.
* `response_packing`: What is in the packets.
-/

namespace NtpSuite.Request

open Reading
open Storing List

/-! ### Headers -/

section Header

variable {h : Reply} {more : Bool} {seqno nitems : Nat} {data : CStr}

theorem isMore_itemPkt : (itemPkt h more seqno nitems data).isMore = more := by
  have hbits : ∀ (more : Bool) (v : BitVec 3), (rmVnMode more v &&& 0x40 != 0) = more := by decide
  exact hbits more h.reqver

theorem isResponse_itemPkt : (itemPkt h more seqno nitems data).isResponse = true := by
  have hbits : ∀ (more : Bool) (v : BitVec 3), (rmVnMode more v &&& 0x80 != 0) = true := by decide
  exact hbits more h.reqver

theorem toNat_and_mask {w : Nat} (x : BitVec w) (k : Nat) (hk : k ≤ w) :
    (x &&& BitVec.ofNat w (2 ^ k - 1)).toNat = x.toNat % 2 ^ k := by
  have hlt : 2 ^ k - 1 < 2 ^ w := by
    have hpow : 2 ^ k ≤ 2 ^ w := Nat.pow_le_pow_right Nat.two_pos hk
    have hpos : 0 < 2 ^ k := Nat.two_pow_pos k
    omega
  rw [BitVec.toNat_and, BitVec.toNat_ofNat, Nat.mod_eq_of_lt hlt, Nat.and_two_pow_sub_one_eq_mod]

theorem infoSeq_itemPkt (hseq : seqno ≤ MAXSEQ) :
    (itemPkt h more seqno nitems data).infoSeq = seqno := by
  have hmask : ∀ x : BitVec 8, (x &&& 0x7f).toNat = x.toNat % 128 := fun x =>
    toNat_and_mask x 7 (by decide)
  unfold MAXSEQ at hseq
  simp only [RespHdr.infoSeq, itemPkt, authSeq, hmask, BitVec.toNat_ofNat]
  omega

theorem toNat_and_0xfff (x : BitVec 16) : (x &&& 0xfff).toNat = x.toNat % 2 ^ 12 :=
  toNat_and_mask x 12 (by decide)

theorem infoNitems_itemPkt (hitems : nitems < 2 ^ 12) :
    (itemPkt h more seqno nitems data).infoNitems = nitems := by
  simp only [RespHdr.infoNitems, itemPkt, toNat_and_0xfff, BitVec.toNat_ofNat]
  omega

theorem infoItemsize_itemPkt (hsize : h.itemsize < 2 ^ 12) :
    (itemPkt h more seqno nitems data).infoItemsize = h.itemsize := by
  simp only [RespHdr.infoItemsize, itemPkt, toNat_and_0xfff, BitVec.toNat_ofNat]
  omega

theorem upper_eq_zero {n : Nat} (hn : n < 2 ^ 12) :
    ((BitVec.ofNat 16 n >>> 12) &&& 0xf).toNat = 0 := by
  have hmask := toNat_and_mask (BitVec.ofNat 16 n >>> 12) 4 (by decide)
  refine hmask.trans ?_
  rw [BitVec.toNat_ushiftRight, BitVec.toNat_ofNat]
  omega

theorem infoErr_itemPkt (hitems : nitems < 2 ^ 12) :
    (itemPkt h more seqno nitems data).infoErr = 0 :=
  upper_eq_zero hitems

end Header

/-! ### The invariant -/

section Packing

variable {h : Reply}

/-- The items of a full packet. -/
def capacity (h : Reply) : Nat := RESP_DATA_SIZE / h.itemsize

theorem le_capacity_iff (hpos : 1 ≤ h.itemsize) (n : Nat) :
    n ≤ capacity h ↔ n * h.itemsize ≤ RESP_DATA_SIZE :=
  Nat.le_div_iff_mul_le hpos

/-- What is known between two items: `full` are the items of the packets that were
    sent, and `cur` those of the packet in the buffer. -/
structure Packed (h : Reply) (full : List (List CStr)) (cur : List CStr) (s : Packer) : Prop where
  hdr : s.toReply = h
  seqno : s.seqno = full.length
  seqno_le : full.length ≤ MAXSEQ
  nitems : s.nitems = cur.length
  databytes : s.databytes = cur.length * h.itemsize
  room : cur.length ≤ capacity h
  full_length : ∀ c ∈ full, c.length = capacity h
  item_length : ∀ item ∈ full.flatten ++ cur, item.length = h.itemsize
  stands : Stands s.data 0 cur.flatten
  sent : s.sent = full.mapIdx fun i c => itemPkt h true i c.length c.flatten
  inBounds : ∀ w ∈ s.writes, w.InBounds

/-- The place for the next item: behind the others, or in the extra buffer if the
    packet is full and not the last. -/
inductive NextSlot (h : Reply) (full : List (List CStr)) (cur : List CStr) (s : Packer) :
    Slot → Prop
  | data (husing : s.usingexbuf = false) (hroom : cur.length + 1 ≤ capacity h) :
      NextSlot h full cur s (.data (cur.length * h.itemsize))
  | exbuf (husing : s.usingexbuf = true) (hfull : cur.length = capacity h)
      (hseq : full.length < MAXSEQ) : NextSlot h full cur s .exbuf

theorem flatten_length {β : Type} {l : List (List β)} {n : Nat} (h : ∀ item ∈ l, item.length = n) :
    l.flatten.length = l.length * n := by
  induction l with
  | nil => simp
  | cons item l ih =>
    have htail := ih fun item hitem => h item (mem_cons_of_mem _ hitem)
    rw [flatten_cons, length_append, h item mem_cons_self, htail, length_cons,
      Nat.succ_mul, add_comm]

/-! ### Items -/

section Step

variable {full : List (List CStr)} {cur : List CStr} {s : Packer} {slot : Slot} {item : CStr}

/-- The end of `more_pkt`: the item is counted, and there is a place for another one
    unless this was the last packet. -/
def account (s : Packer) : Packer × Option Slot :=
  let s := { s with databytes := s.databytes + s.itemsize, nitems := s.nitems + 1 }
  if s.databytes + s.itemsize ≤ RESP_DATA_SIZE then (s, some (.data s.databytes))
  else if s.seqno = MAXSEQ then (s, none)
  else ({ s with usingexbuf := true }, some .exbuf)

theorem morePkt_eq (s : Packer) :
    s.morePkt = account (if s.usingexbuf = true then s.spill else s) := rfl

/-- An item stands behind the others and has not been counted. -/
structure Placed (h : Reply) (full : List (List CStr)) (cur : List CStr) (item : CStr)
    (s : Packer) : Prop extends Packed h full cur s where
  usingexbuf : s.usingexbuf = false
  fits : cur.length + 1 ≤ capacity h
  length : item.length = h.itemsize
  behind : Stands s.data (cur.length * h.itemsize) item

/-- What comes of an item: it is in the packet, and there is another place or all
    packets are full. -/
def Counted (h : Reply) (full : List (List CStr)) (cur : List CStr) (r : Packer × Option Slot) :
    Prop :=
  Packed h full cur r.1 ∧
    match r.2 with
    | some slot => NextSlot h full cur r.1 slot
    | none => full.length = MAXSEQ ∧ cur.length = capacity h

theorem Packed.flatten_cur (hs : Packed h full cur s) :
    cur.flatten.length = cur.length * h.itemsize :=
  flatten_length fun item hitem => hs.item_length item (mem_append_right _ hitem)

section

variable (hpos : 1 ≤ h.itemsize)

include hpos

theorem Placed.account (hs : Placed h full cur item s) :
    Counted h full (cur ++ [item]) (account s) := by
  have hsize : s.itemsize = h.itemsize := congrArg Reply.itemsize hs.hdr
  have hbytes : s.databytes + s.itemsize = (cur ++ [item]).length * h.itemsize := by
    rw [hs.databytes, hsize, length_append, length_singleton, Nat.succ_mul]
  have hstands : Stands s.data 0 (cur ++ [item]).flatten := by
    rw [flatten_append, flatten_singleton, stands_append, hs.flatten_cur, zero_add]
    exact ⟨hs.stands, hs.behind⟩
  have hlengths : ∀ item' ∈ full.flatten ++ (cur ++ [item]), item'.length = h.itemsize := by
    intro item' hitem
    rw [← append_assoc] at hitem
    rcases mem_append.mp hitem with hold | hnew
    · exact hs.item_length item' hold
    · rw [mem_singleton.mp hnew, hs.length]
  have hpacked : ∀ b : Bool, Packed h full (cur ++ [item])
      { s with
        databytes := s.databytes + s.itemsize
        nitems := s.nitems + 1
        usingexbuf := b } :=
    fun _ =>
      { hdr := hs.hdr
        seqno := hs.seqno
        seqno_le := hs.seqno_le
        nitems := by simp [hs.nitems]
        databytes := hbytes
        room := by simpa using hs.fits
        full_length := hs.full_length
        item_length := hlengths
        stands := hstands
        sent := hs.sent
        inBounds := hs.inBounds }
  have hroom : s.databytes + s.itemsize + s.itemsize ≤ RESP_DATA_SIZE ↔
      (cur ++ [item]).length + 1 ≤ capacity h := by
    rw [le_capacity_iff hpos, Nat.succ_mul, hbytes, hsize]
  have hfull : ¬ (cur ++ [item]).length + 1 ≤ capacity h → (cur ++ [item]).length = capacity h :=
    fun hnot => le_antisymm (hpacked true).room (by omega)
  unfold NtpSuite.Request.account
  simp only
  split_ifs with hfits hlast
  · refine ⟨hpacked s.usingexbuf, ?_⟩
    rw [hbytes]
    exact .data hs.usingexbuf (hroom.mp hfits)
  · exact ⟨hpacked s.usingexbuf, hs.seqno.symm.trans hlast, hfull (mt hroom.mpr hfits)⟩
  · refine ⟨hpacked true, .exbuf rfl (hfull (mt hroom.mpr hfits)) ?_⟩
    exact lt_of_le_of_ne hs.seqno_le fun heq => hlast (hs.seqno.trans heq)

theorem Packed.fill_data (hs : Packed h full cur s)
    (husing : s.usingexbuf = false) (hroom : cur.length + 1 ≤ capacity h)
    (hitem : item.length = h.itemsize) :
    Placed h full cur item (s.fill (.data (cur.length * h.itemsize)) item) where
  __ := hs
  stands := hs.stands.store (.inl (by rw [hs.flatten_cur, zero_add]))
  inBounds := by
    intro w hw
    rcases mem_cons.mp hw with rfl | hold
    · change cur.length * h.itemsize + item.length ≤ RESP_DATA_SIZE
      rw [hitem, ← Nat.succ_mul]
      exact (le_capacity_iff hpos _).mp hroom
    · exact hs.inBounds w hold
  usingexbuf := husing
  fits := hroom
  length := hitem
  behind := stands_store

section

variable (hle : h.itemsize ≤ RESP_DATA_SIZE) (hs : Packed h full cur s)

include hle hs

/-- An item goes to the extra buffer, and from there to the next packet. -/
theorem Packed.fill_exbuf (hfull : cur.length = capacity h) (hseq : full.length < MAXSEQ)
    (hitem : item.length = h.itemsize) :
    Placed h (full ++ [cur]) [] item (s.fill .exbuf item).spill := by
  have hsize : s.itemsize = h.itemsize := congrArg Reply.itemsize hs.hdr
  have hcopy : octetsAt (store s.exbuf 0 item) 0 s.itemsize = item := by
    rw [hsize, ← hitem]
    exact stands_store.octetsAt_eq
  have hdata : octetsAt s.data 0 s.databytes = cur.flatten := by
    rw [hs.databytes, ← hs.flatten_cur]
    exact hs.stands.octetsAt_eq
  refine
    { hdr := hs.hdr
      seqno := by simp [Packer.spill, Packer.sendpkt, Packer.fill, hs.seqno]
      seqno_le := by simpa using hseq
      nitems := rfl
      databytes := (zero_mul _).symm
      room := Nat.zero_le _
      full_length := ?_
      item_length := ?_
      stands := stands_nil
      sent := ?_
      inBounds := ?_
      usingexbuf := rfl
      fits := (le_capacity_iff hpos 1).mpr (by rw [one_mul]; exact hle)
      length := hitem
      behind := ?_ }
  · intro c hc
    rcases mem_append.mp hc with hold | hnew
    · exact hs.full_length c hold
    · rw [mem_singleton.mp hnew, hfull]
  · simpa using hs.item_length
  · rw [mapIdx_append, ← hs.sent]
    simp [Packer.spill, Packer.sendpkt, Packer.fill, hdata, hs.hdr, hs.seqno, hs.nitems]
  · intro w hw
    simp only [Packer.spill, Packer.sendpkt, Packer.fill, hcopy, hitem] at hw
    rcases mem_cons.mp hw with rfl | hw
    · exact (zero_add h.itemsize).trans_le hle
    · rcases mem_cons.mp hw with rfl | hold
      · exact hle
      · exact hs.inBounds w hold
  · simp only [Packer.spill, Packer.sendpkt, Packer.fill, hcopy, length_nil, zero_mul]
    exact stands_store

theorem fill_more (hslot : NextSlot h full cur s slot) (hitem : item.length = h.itemsize) :
    ∃ full' cur', Counted h full' cur' (s.fill slot item).morePkt ∧ cur' ≠ [] ∧
      full'.flatten ++ cur' = full.flatten ++ cur ++ [item] := by
  rw [morePkt_eq]
  cases hslot with
  | data husing hroom =>
    have hplaced := hs.fill_data hpos husing hroom hitem
    rw [if_neg (by rw [hplaced.usingexbuf]; decide)]
    exact ⟨full, cur ++ [item], hplaced.account hpos, by simp, by simp⟩
  | exbuf husing hfull hseq =>
    have hplaced := hs.fill_exbuf hpos hle hfull hseq hitem
    have husing' : (s.fill .exbuf item).usingexbuf = true := husing
    rw [if_pos husing']
    exact ⟨full ++ [cur], [item], hplaced.account hpos, by simp, by simp⟩

theorem fillItems_packed (hslot : NextSlot h full cur s slot) (items : List CStr)
    (hitems : ∀ item ∈ items, item.length = h.itemsize) :
    ∃ full' cur', Packed h full' cur' (s.fillItems slot items) ∧
      (cur ≠ [] ∨ items ≠ [] → cur' ≠ []) ∧ full'.flatten ++ cur' <+: full.flatten ++ cur ++ items ∧
      (full'.flatten ++ cur' = full.flatten ++ cur ++ items ∨
        full'.length = MAXSEQ ∧ cur'.length = capacity h) := by
  induction items generalizing full cur s slot with
  | nil =>
    refine ⟨full, cur, hs, fun hne => hne.resolve_right fun h => h rfl, ?_, .inl ?_⟩
    · rw [append_nil]
    · rw [append_nil]
  | cons item items ih =>
    obtain ⟨full1, cur1, ⟨hpacked, hnext⟩, hne, hall⟩ :=
      fill_more hpos hle hs hslot (hitems item mem_cons_self)
    have hassoc : full.flatten ++ cur ++ item :: items = full1.flatten ++ cur1 ++ items := by
      rw [hall, append_assoc _ [item], singleton_append]
    rw [hassoc]
    unfold Packer.fillItems
    obtain ⟨⟨s1, slot1⟩, hr⟩ : ∃ r, (s.fill slot item).morePkt = r := ⟨_, rfl⟩
    rw [hr] at hpacked hnext ⊢
    cases slot1 with
    | none =>
      exact ⟨full1, cur1, hpacked, fun _ => hne, prefix_append _ _, .inr hnext⟩
    | some slot1 =>
      obtain ⟨full2, cur2, hpacked2, hne2, hpre, hend⟩ := ih hpacked hnext fun item' hitem =>
        hitems item' (mem_cons_of_mem item hitem)
      exact ⟨full2, cur2, hpacked2, fun _ => hne2 (.inl hne), hpre, hend⟩

end

end

end Step

/-! ### Responses -/

/-- The packets of a response with the given items in each. -/
def series (h : Reply) (chunks : List (List CStr)) : List RespPkt :=
  chunks.mapIdx fun i c => itemPkt h (decide (i + 1 < chunks.length)) i c.length c.flatten

theorem Packed.length_eq {full : List (List CStr)} {cur : List CStr} {s : Packer}
    (hs : Packed h full cur s) :
    (full.flatten ++ cur).length = full.length * capacity h + cur.length := by
  rw [length_append, flatten_length hs.full_length]

theorem preparePkt_packed (hpos : 1 ≤ h.itemsize) (hle : h.itemsize ≤ RESP_DATA_SIZE)
    (data exbuf : Memory) :
    Packed h [] [] (Packer.preparePkt h data exbuf).1 ∧
      NextSlot h [] [] (Packer.preparePkt h data exbuf).1 (Packer.preparePkt h data exbuf).2 := by
  have hcap : 1 ≤ capacity h := (le_capacity_iff hpos 1).mpr (by rw [one_mul]; exact hle)
  constructor
  · constructor <;> simp [Packer.preparePkt]
  · have hslot : (Packer.preparePkt h data exbuf).2 =
        .data (([] : List CStr).length * h.itemsize) := by
      simp [Packer.preparePkt]
    rw [hslot]
    exact .data rfl hcap

/-- The packets of full packets and of a last one are a series. -/
theorem Packed.series_eq {full : List (List CStr)} {cur : List CStr} {s : Packer}
    (hs : Packed h full cur s) : (s.sendpkt false).sent = series h (full ++ [cur]) := by
  have hdata : octetsAt s.data 0 s.databytes = cur.flatten := by
    rw [hs.databytes, ← hs.flatten_cur]
    exact hs.stands.octetsAt_eq
  have hmore : (full.mapIdx fun i c => itemPkt h true i c.length c.flatten) =
      full.mapIdx fun i c =>
        itemPkt h (decide (i + 1 < (full ++ [cur]).length)) i c.length c.flatten := by
    apply mapIdx_eq_mapIdx_iff.mpr
    intro i hi
    have hlt : i + 1 < (full ++ [cur]).length := by simpa using hi
    rw [decide_eq_true hlt]
  simp only [Packer.sendpkt, series, mapIdx_append, hdata, hs.hdr, hs.seqno, hs.nitems]
  rw [hs.sent, hmore]
  simp

/-- A handler with items sends a series, whose packets have the items in order, as
    far as they fit into 128 packets. -/
theorem respond_series (hpos : 1 ≤ h.itemsize) (hle : h.itemsize ≤ RESP_DATA_SIZE)
    (data exbuf : Memory) {items : List CStr} (hne : items ≠ [])
    (hitems : ∀ item ∈ items, item.length = h.itemsize) :
    ∃ chunks, (respond h data exbuf items).sent = series h chunks ∧
      (∀ w ∈ (respond h data exbuf items).writes, w.InBounds) ∧
      chunks ≠ [] ∧ chunks.length ≤ MAXSEQ + 1 ∧
      (∀ c ∈ chunks, 1 ≤ c.length ∧ c.length ≤ capacity h) ∧
      chunks.flatten = items.take ((MAXSEQ + 1) * capacity h) := by
  obtain ⟨hs0, hslot0⟩ := preparePkt_packed hpos hle data exbuf
  obtain ⟨full, cur, hs, hcur, hpre, hend⟩ := fillItems_packed hpos hle hs0 hslot0 items hitems
  have hcap : 1 ≤ capacity h := (le_capacity_iff hpos 1).mpr (by rw [one_mul]; exact hle)
  have hcur' : 1 ≤ cur.length := length_pos_of_ne_nil (hcur (.inr hne))
  have hflush : respond h data exbuf items =
      (((Packer.preparePkt h data exbuf).1.fillItems (Packer.preparePkt h data exbuf).2
        items)).sendpkt false := by
    refine if_neg fun hnone => ?_
    rw [hs.nitems] at hnone
    omega
  rw [hflush]
  refine ⟨full ++ [cur], hs.series_eq, hs.inBounds, by simp, by simpa using hs.seqno_le, ?_, ?_⟩
  · intro c hc
    rcases mem_append.mp hc with hfull | hlast
    · rw [hs.full_length c hfull]
      exact ⟨hcap, le_refl _⟩
    · rw [mem_singleton.mp hlast]
      exact ⟨hcur', hs.room⟩
  · rw [flatten_append, flatten_singleton]
    simp only [flatten_nil, nil_append] at hpre hend
    have hlength := hs.length_eq
    rcases hend with hall | ⟨hlast, hfull⟩
    · rw [hall] at hlength ⊢
      refine (take_of_length_le ?_).symm
      calc items.length = full.length * capacity h + cur.length := hlength
        _ ≤ MAXSEQ * capacity h + capacity h :=
            Nat.add_le_add (Nat.mul_le_mul_right _ hs.seqno_le) hs.room
        _ = (MAXSEQ + 1) * capacity h := (Nat.succ_mul _ _).symm
    · rw [hlast, hfull, ← Nat.succ_mul] at hlength
      rw [prefix_iff_eq_take.mp hpre, hlength]

theorem respond_nil (data exbuf : Memory) :
    (respond h data exbuf []).sent = [reqAck h .nodata] ∧
      (respond h data exbuf []).writes = [] :=
  ⟨rfl, rfl⟩

theorem series_getElem (hle : h.itemsize ≤ RESP_DATA_SIZE) {chunks : List (List CStr)}
    (hseq : chunks.length ≤ MAXSEQ + 1)
    (hchunks : ∀ c ∈ chunks, 1 ≤ c.length ∧ c.length ≤ capacity h) (i : Nat)
    (hi : i < (series h chunks).length) :
    ∃ c ∈ chunks, (series h chunks)[i].infoSeq = i ∧
      ((series h chunks)[i].isMore = true ↔ i + 1 < chunks.length) ∧
      (series h chunks)[i].infoNitems = c.length ∧
      (series h chunks)[i].infoItemsize = h.itemsize ∧
      (series h chunks)[i].infoErr = InfoErr.okay.toNat ∧
      (series h chunks)[i].data = c.flatten := by
  have hi' : i < chunks.length := by simpa [series] using hi
  have hmem : chunks[i] ∈ chunks := getElem_mem hi'
  have hcount : chunks[i].length < 2 ^ 12 := by
    have hcap : capacity h ≤ RESP_DATA_SIZE := Nat.div_le_self _ _
    have hlen := (hchunks _ hmem).2
    unfold RESP_DATA_SIZE at hcap
    omega
  have hsize : h.itemsize < 2 ^ 12 := by
    unfold RESP_DATA_SIZE at hle
    omega
  refine ⟨chunks[i], hmem, ?_⟩
  simp only [series, getElem_mapIdx]
  exact ⟨infoSeq_itemPkt (by omega), by rw [isMore_itemPkt, decide_eq_true_iff],
    infoNitems_itemPkt hcount, infoItemsize_itemPkt hsize, infoErr_itemPkt hcount, rfl⟩

theorem series_data (chunks : List (List CStr)) :
    ((series h chunks).map RespPkt.data).flatten = chunks.flatten.flatten := by
  have hdata : (series h chunks).map RespPkt.data = chunks.map List.flatten := by
    apply ext_getElem
    · simp [series]
    · simp [series, itemPkt]
  rw [hdata, flatten_flatten]

end Packing

/-- For every item size and every number of items: the packets are numbered from zero
    to at most 127, all but the last have the bit that says there are more, each
    has at least one item and no more octets than fit, and together they carry the
    items in order, all of them or as many as fit into 128 packets. Without items
    one packet says so. Nothing is written outside the two buffers. -/
theorem response_packing (h : Reply) (hpos : 1 ≤ h.itemsize) (hle : h.itemsize ≤ RESP_DATA_SIZE)
    (data exbuf : Memory) (items : List CStr) (hitems : ∀ item ∈ items, item.length = h.itemsize) :
    let r := respond h data exbuf items
    let most := (MAXSEQ + 1) * (RESP_DATA_SIZE / h.itemsize)
    (∀ w ∈ r.writes, w.InBounds) ∧
    (items = [] → r.sent = [reqAck h .nodata]) ∧
    (items ≠ [] → ∃ k ≤ MAXSEQ, r.sent.length = k + 1 ∧
      (∀ i (hi : i < r.sent.length),
        r.sent[i].infoSeq = i ∧ (r.sent[i].isMore = true ↔ i < k) ∧
        r.sent[i].infoErr = InfoErr.okay.toNat ∧ r.sent[i].infoItemsize = h.itemsize ∧
        1 ≤ r.sent[i].infoNitems ∧ r.sent[i].infoNitems * h.itemsize ≤ RESP_DATA_SIZE ∧
        r.sent[i].data.length = r.sent[i].infoNitems * h.itemsize) ∧
      ∃ taken, (taken = items.length ∨ most < items.length ∧ taken = most) ∧
        (r.sent.map RespPkt.data).flatten = (items.take taken).flatten) := by
  intro r most
  by_cases hne : items = []
  · subst hne
    obtain ⟨hsent, hwrites⟩ := respond_nil (h := h) data exbuf
    refine ⟨fun w hw => ?_, fun _ => hsent, fun h => absurd rfl h⟩
    cases hw
  · obtain ⟨chunks, hsent, hwrites, hchunks, hlength, hcount, hflatten⟩ :=
      respond_series hpos hle data exbuf hne hitems
    refine ⟨hwrites, fun h => absurd h hne, fun _ => ?_⟩
    have hpos' : 1 ≤ chunks.length := length_pos_of_ne_nil hchunks
    have hseries : r.sent = series h chunks := hsent
    have hlen : (series h chunks).length = chunks.length := by simp [series]
    rw [hseries]
    refine ⟨chunks.length - 1, by omega, by omega, fun i hi => ?_, ?_⟩
    · obtain ⟨c, hc, hseq, hmore, hnitems, hsize, herr, hdata⟩ :=
        series_getElem hle hlength hcount i hi
      have hitem : ∀ item ∈ c, item.length = h.itemsize := by
        intro item hitem
        have hmem : item ∈ chunks.flatten := mem_flatten.mpr ⟨c, hc, hitem⟩
        rw [hflatten] at hmem
        exact hitems item (mem_of_mem_take hmem)
      refine ⟨hseq, hmore.trans (by omega), herr, hsize, ?_, ?_, ?_⟩
      · rw [hnitems]
        exact (hcount c hc).1
      · rw [hnitems]
        exact (le_capacity_iff hpos _).mp (hcount c hc).2
      · rw [hnitems, hdata, flatten_length hitem]
    · have hmost : chunks.flatten = items.take most := hflatten
      rw [series_data, hmost]
      by_cases hfit : items.length ≤ most
      · refine ⟨items.length, .inl rfl, ?_⟩
        rw [take_length, take_of_length_le hfit]
      · exact ⟨most, .inr ⟨not_le.mp hfit, rfl⟩, rfl⟩

/-- A request from version 4, and items of two octets. -/
def plainHdr : Reply := { reqver := 4, implementation := 3, request := 0, itemsize := 2 }

theorem response_packing_two :
    ∃ k ≤ MAXSEQ,
      (respond plainHdr (fun _ => 0xff) (fun _ => 0xff) [[1, 2], [3, 4]]).sent.length = k + 1 := by
  obtain ⟨-, -, h⟩ := response_packing plainHdr (by decide) (by decide) (fun _ => 0xff)
    (fun _ => 0xff) [[1, 2], [3, 4]] (by decide)
  obtain ⟨k, hk, hlength, -⟩ := h (by decide)
  exact ⟨k, hk, hlength⟩

end NtpSuite.Request
