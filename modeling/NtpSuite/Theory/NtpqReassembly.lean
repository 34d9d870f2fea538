import NtpSuite.Theory.CtlSeries

/-!
# The Reassembly of a Response

What `getresponse` returns for the packets of a response.

The fragments that it keeps are those of the pieces that have come, in the order of
their numbers, and the data of each piece stands at its place in the buffer. A packet
that has come before is tossed. A packet with a new piece is recorded, and if it is the
last that was missing, the data is complete.

## Main definitions

* `Datagram.Carries`: A packet has arrived.
* `Foreign`: A packet that is tossed.
* `Held`: The pieces that have come.

## Theorems

* `verdict_arrived`: What becomes of a packet with a piece.
* `getStep_arrived`: One packet.
* `received_held`: All packets.
* `fragments_reassembled`: The response of the server at the client.
-/

namespace NtpSuite.Ntpq

open Control
open Reading
open Storing
open Tiling List Bool

/-- The datagram is a packet, as far as it fits into the variable. -/
structure Datagram.Carries (d : Datagram) (p : CStr) : Prop where
  n : d.n = min p.length RPKT_SIZE
  octets : Stands d.mem 0 (p.take RPKT_SIZE)

/-- A packet that is tossed: it has less than a header, it is not a response to the query,
    or it is not an error and its length is not a multiple of four. -/
def Foreign (q : Query) (d : Datagram) : Prop :=
  d.n < CTL_HEADER_LEN ∨ isAnswer (CtlHdr.read d.mem) q = false ∨
    ctlIserror (CtlHdr.read d.mem) = false ∧ d.n % 4 ≠ 0

/-- A datagram with a piece of the data. -/
structure Arrived (q : Query) (cs : List CStr) (i : Nat) (more : Bool) (d : Datagram) : Prop where
  hdr : FragHdr q (segmentAt cs i) more (CtlHdr.read d.mem)
  data : Stands d.mem CTL_HEADER_LEN (piece cs i)
  padded : d.n % 4 = 0
  long : CTL_HEADER_LEN + (piece cs i).length ≤ d.n

variable {q : Query} {cs : List CStr} {i : Nat} {more : Bool} {p : CStr} {d : Datagram}
  {taken : List Nat} {g : Getter}

theorem read_encode {m : Memory} {h : CtlHdr} (hs : Stands m 0 h.encode) : CtlHdr.read m = h := by
  have hread : ∀ i (hi : i < h.encode.length), m i = h.encode[i] := by
    intro i hi
    rw [← hs i hi, zero_add]
  unfold CtlHdr.read
  rw [hread 0 (by rw [length_encode]; decide), hread 1 (by rw [length_encode]; decide),
    hread 2 (by rw [length_encode]; decide), hread 3 (by rw [length_encode]; decide),
    hread 4 (by rw [length_encode]; decide), hread 5 (by rw [length_encode]; decide),
    hread 6 (by rw [length_encode]; decide), hread 7 (by rw [length_encode]; decide),
    hread 8 (by rw [length_encode]; decide), hread 9 (by rw [length_encode]; decide),
    hread 10 (by rw [length_encode]; decide), hread 11 (by rw [length_encode]; decide)]
  simp [CtlHdr.encode, htons, append_halves]

/-- A fragment arrives whole if its data fits into the variable. -/
theorem isFragment_arrived (hf : IsFragment q cs i more p)
    (hlen : (piece cs i).length ≤ CTL_DATA_SIZE) (hc : d.Carries p) : Arrived q cs i more d := by
  obtain ⟨h, tail, hhdr, rfl, hpad⟩ := hf
  have hsize : RPKT_SIZE = CTL_HEADER_LEN + CTL_DATA_SIZE := rfl
  have hmult : CTL_DATA_SIZE % 4 = 0 ∧ CTL_HEADER_LEN % 4 = 0 := by decide
  have hn := hc.n
  rw [length_append, length_encode, length_append] at hn hpad
  -- The header and the piece are in what has arrived.
  have htake : (h.encode ++ (piece cs i ++ tail)).take RPKT_SIZE =
      h.encode ++ (piece cs i ++ tail.take (CTL_DATA_SIZE - (piece cs i).length)) := by
    rw [take_append, length_encode, hsize, Nat.add_sub_cancel_left,
      take_of_length_le (by rw [length_encode]; omega), take_append, take_of_length_le hlen]
  have hstands := hc.octets
  rw [htake, stands_append, stands_append] at hstands
  obtain ⟨hhead, hdata, -⟩ := hstands
  refine ⟨?_, hdata, ?_, ?_⟩
  · rw [read_encode hhead]
    exact hhdr
  · omega
  · omega

/-! ### The pieces that have come -/

/-- The pieces with these numbers have come. -/
structure Held (cs : List CStr) (taken : List Nat) (g : Getter) : Prop where
  frags : g.frags = held cs taken
  seen : g.seenlastfrag = true ↔ cs.length - 1 ∈ taken
  bound : ∀ i ∈ taken, i < cs.length
  stands : ∀ i ∈ taken, Stands g.pktdata (start cs i) (piece cs i)

theorem getStart_held (cs : List CStr) (pktdata : Memory) : Held cs [] (getStart pktdata) := by
  refine ⟨?_, ?_, nofun, nofun⟩
  · simp [getStart, held, heldFrom]
  · simp [getStart]

/-- The place of a piece is taken if and only if it has come before. -/
theorem overlaps_held (hs : Solid cs) (hi : i < cs.length) :
    overlaps (segmentAt cs i) (held cs taken) = decide (i ∈ taken) := by
  obtain ⟨hbefore, hbehind⟩ := before_behind_held taken hs hi
  unfold overlaps
  rw [show (segmentAt cs i).offset = start cs i from rfl, hbefore, hbehind]
  by_cases hmem : i ∈ taken
  · simp [hmem, segmentAt]
  · rw [if_neg hmem, decide_eq_false hmem]
    have hfirst : ∀ x ∈ heldFrom cs taken 0 i, x.offset + x.count ≤ start cs i := by
      intro x hx
      obtain ⟨j, ⟨-, hj⟩, -, rfl⟩ := mem_heldFrom.mp hx
      exact segment_end_le (by omega) (by omega)
    have hrest : ∀ x ∈ heldFrom cs taken (i + 1) (cs.length - (i + 1)),
        start cs i < x.offset ∧ start cs i + (piece cs i).length ≤ x.offset := by
      intro x hx
      obtain ⟨j, ⟨hj, hj'⟩, -, rfl⟩ := mem_heldFrom.mp hx
      exact ⟨start_lt hs (by omega) (by omega), segment_end_le hi (by omega)⟩
    have hany : ∀ {o : Option Segment} {f : Segment → Bool}, (∀ x ∈ o, f x = false) →
        o.any f = false := by
      intro o f h
      cases o with
      | none => rfl
      | some x => exact h x rfl
    rw [or_eq_false_iff, or_eq_false_iff]
    refine ⟨⟨hany fun x hx => ?_, hany fun x hx => ?_⟩, hany fun x hx => ?_⟩
    · exact beq_eq_false_iff_ne.mpr (hrest x (mem_of_mem_head? hx)).1.ne
    · exact decide_eq_false (not_lt.mpr (hfirst x (mem_of_getLast? hx)))
    · exact decide_eq_false (not_lt.mpr (hrest x (mem_of_mem_head? hx)).2)

/-- The offset and the length of a piece fit into their fields. -/
structure Narrow (cs : List CStr) : Prop where
  total : cs.flatten.length < 2 ^ 16
  solid : Solid cs

theorem piece_mem (hi : i < cs.length) : piece cs i ∈ cs := by
  unfold piece
  rw [getD_eq_getElem _ _ hi]
  exact getElem_mem hi

theorem piece_end_le (hi : i < cs.length) :
    start cs i + (piece cs i).length ≤ cs.flatten.length := by
  rw [← start_length]
  exact segment_end_le hi hi

theorem Arrived.fragment_eq (ha : Arrived q cs i more d) (hcs : Narrow cs) (hi : i < cs.length) :
    fragment (CtlHdr.read d.mem) = segmentAt cs i := by
  have hend := piece_end_le hi
  have htotal := hcs.total
  have hoffset : (segmentAt cs i).offset < 2 ^ 16 := by
    change start cs i < _
    omega
  have hcount : (segmentAt cs i).count < 2 ^ 16 := by
    change (piece cs i).length < _
    omega
  unfold fragment
  rw [ha.hdr.offset, ha.hdr.count, BitVec.toNat_ofNat, BitVec.toNat_ofNat,
    Nat.mod_eq_of_lt hoffset, Nat.mod_eq_of_lt hcount]

/-- What becomes of a packet that is a part of the response. -/
theorem verdict_eq {h : CtlHdr} {n : Nat} (hans : isAnswer h q = true)
    (hnoerr : ctlIserror h = false) (hpad : n % 4 = 0)
    (hlong : CTL_HEADER_LEN + (fragment h).count ≤ n)
    (hmore : (fragment h).count = 0 → ctlIsmore h = false) :
    verdict q g h n =
      if (fragment h).offset + (fragment h).count > DATASIZE then .fail .toomuch
      else if g.seenlastfrag ∧ ¬ ctlIsmore h then .toss
      else if g.frags.length > MAXFRAGS - 1 then .fail .toomuch
      else if overlaps (fragment h) g.frags then .toss
      else .take := by
  have hempty : ¬ ((fragment h).count = 0 ∧ ctlIsmore h = true) := by
    rintro ⟨hzero, hm⟩
    rw [hmore hzero] at hm
    cases hm
  unfold CTL_HEADER_LEN at hlong
  unfold verdict CTL_HEADER_LEN
  rw [if_neg (by omega), if_neg (not_not.mpr hans), if_neg (by simp [hnoerr]), if_neg (by omega),
    if_neg (by omega), if_neg (by omega), if_neg hempty]

theorem verdict_arrived (hcs : Narrow cs) (hg : Held cs taken g) (hi : i < cs.length)
    (ha : Arrived q cs i (decide (i + 1 < cs.length)) d) :
    verdict q g (CtlHdr.read d.mem) d.n =
      if start cs i + (piece cs i).length > DATASIZE then .fail .toomuch
      else if i ∈ taken ∧ i + 1 = cs.length then .toss
      else if (held cs taken).length > MAXFRAGS - 1 then .fail .toomuch
      else if i ∈ taken then .toss
      else .take := by
  have hfrag := ha.fragment_eq hcs hi
  have hlast : g.seenlastfrag = true ∧ ¬ ctlIsmore (CtlHdr.read d.mem) = true ↔
      i ∈ taken ∧ i + 1 = cs.length := by
    rw [hg.seen, ha.hdr.ismore, decide_eq_true_eq]
    constructor
    · rintro ⟨hmem, hnomore⟩
      exact ⟨by rwa [show i = cs.length - 1 by omega], by omega⟩
    · rintro ⟨hmem, hend⟩
      exact ⟨by rwa [show cs.length - 1 = i by omega], by omega⟩
  rw [verdict_eq ha.hdr.answer ha.hdr.noError ha.padded (by rw [hfrag]; exact ha.long)]
  · rw [hfrag, hg.frags, overlaps_held hcs.solid hi]
    simp only [hlast, decide_eq_true_eq]
    rfl
  · intro hempty
    rw [hfrag] at hempty
    rw [ha.hdr.ismore]
    exact decide_eq_false fun hlt => hcs.solid i hlt (length_eq_zero_iff.mp hempty)

/-! ### One packet -/

theorem mem_concat_iff {k : Nat} : k ∈ taken ++ [i] ↔ k ∈ taken ∨ k = i := by
  rw [mem_append, mem_singleton]

theorem Held.record (hcs : Narrow cs) (hg : Held cs taken g) (hi : i < cs.length)
    (hnew : i ∉ taken) (ha : Arrived q cs i (decide (i + 1 < cs.length)) d) :
    Held cs (taken ++ [i]) (g.record (CtlHdr.read d.mem)
      (octetsAt d.mem CTL_HEADER_LEN (fragment (CtlHdr.read d.mem)).count)) := by
  have hfrag := ha.fragment_eq hcs hi
  have hdata : octetsAt d.mem CTL_HEADER_LEN (fragment (CtlHdr.read d.mem)).count = piece cs i := by
    rw [hfrag]
    exact ha.data.octetsAt_eq
  rw [hdata]
  refine ⟨?_, ?_, ?_, ?_⟩
  · change place (fragment _) g.frags = _
    rw [hfrag, hg.frags, place_held hcs.solid hi hnew]
  · change (g.seenlastfrag || !ctlIsmore (CtlHdr.read d.mem)) = true ↔ _
    rw [or_eq_true, hg.seen, ha.hdr.ismore, mem_concat_iff]
    simp only [not_eq_true', decide_eq_false_iff_not]
    apply or_congr_right
    omega
  · intro j hj
    rcases mem_concat_iff.mp hj with hj | rfl
    · exact hg.bound j hj
    · exact hi
  · intro j hj
    change Stands (store g.pktdata (fragment _).offset (piece cs i)) _ _
    rw [hfrag]
    rcases mem_concat_iff.mp hj with hj | rfl
    · -- The other pieces stand beside the new one.
      apply (hg.stands j hj).store
      have hjlt := hg.bound j hj
      have hne : j ≠ i := fun h => hnew (h ▸ hj)
      rcases Nat.lt_or_gt_of_ne hne with hlt | hgt
      · exact .inl (segment_end_le hjlt hlt)
      · exact .inr (segment_end_le hi hgt)
    · exact stands_store

/-- The response is complete if and only if all pieces have come. -/
theorem Held.complete_iff (hcs : Narrow cs) (hpos : 0 < cs.length) (hg : Held cs taken g) :
    g.complete = true ↔ ∀ i < cs.length, i ∈ taken := by
  unfold Getter.complete
  rw [and_eq_true, hg.seen, hg.frags]
  constructor
  · rintro ⟨hlast, habuts⟩
    exact (abuts_held_iff hcs.solid hlast).mp habuts
  · intro h
    have hlast := h (cs.length - 1) (by omega)
    exact ⟨hlast, (abuts_held_iff hcs.solid hlast).mpr h⟩

theorem stands_flatten {m : Memory} {off : Nat} {cs : List CStr}
    (h : ∀ i < cs.length, Stands m (off + start cs i) (piece cs i)) : Stands m off cs.flatten := by
  induction cs generalizing off with
  | nil => exact stands_nil
  | cons c cs ih =>
    rw [flatten_cons, stands_append]
    constructor
    · exact h 0 (by simp)
    · apply ih
      intro i hi
      have hnext := h (i + 1) (by simpa using hi)
      simp only [start, take_succ_cons, flatten_cons, length_append] at hnext
      rw [add_assoc]
      exact hnext

/-- What `getresponse` has returned for a response: all of its data. -/
structure Whole (cs : List CStr) (g : Getter) : Prop where
  okay : g.result = some .okay
  size : g.rsize = cs.flatten.length
  stands : Stands g.pktdata 0 cs.flatten

theorem Held.finish (hcs : Narrow cs) (hpos : 0 < cs.length) (hg : Held cs taken g) :
    ((∀ i < cs.length, i ∈ taken) → Whole cs g.finish) ∧
      ((¬ ∀ i < cs.length, i ∈ taken) → g.finish = g) := by
  have hiff := hg.complete_iff hcs hpos
  unfold Getter.finish
  constructor
  · intro hall
    rw [if_pos (hiff.mpr hall)]
    refine ⟨rfl, ?_, stands_flatten fun i hi => ?_⟩
    · have hsplit := held_split taken (Nat.sub_lt hpos one_pos)
      rw [if_pos (hall _ (by omega)), show cs.length - (cs.length - 1 + 1) = 0 by omega] at hsplit
      simp only [hg.frags, hsplit, heldFrom, List.range'_zero, filter_nil, map_nil,
        append_nil, List.getLast?_append, List.getLast?_singleton, Option.some_or, Option.elim_some]
      change start cs _ + (piece cs _).length = _
      rw [← start_succ (by omega), show cs.length - 1 + 1 = cs.length by omega, start_length]
    · rw [zero_add]
      exact hg.stands i (hall i hi)
  · intro hmissing
    rw [if_neg fun h => hmissing (hiff.mp h)]

theorem Held.again (hg : Held cs taken g) (hmem : i ∈ taken) : Held cs (taken ++ [i]) g := by
  have hsame : ∀ {k}, k ∈ taken ++ [i] ↔ k ∈ taken := by
    intro k
    rw [mem_concat_iff, or_iff_left_of_imp]
    rintro rfl
    exact hmem
  refine ⟨?_, ?_, fun j hj => hg.bound j (hsame.mp hj), fun j hj => hg.stands j (hsame.mp hj)⟩
  · rw [hg.frags]
    unfold held heldFrom
    simp only [hsame]
  · rw [hg.seen, hsame]

theorem verdict_foreign (hf : Foreign q d) : verdict q g (CtlHdr.read d.mem) d.n = .toss := by
  unfold verdict
  by_cases hshort : d.n < CTL_HEADER_LEN
  · rw [if_pos hshort]
  · rw [if_neg hshort]
    by_cases hans : isAnswer (CtlHdr.read d.mem) q = true
    · rw [if_neg (not_not.mpr hans)]
      rcases hf with hshort' | hnot | ⟨hnoerr, hodd⟩
      · exact absurd hshort' hshort
      · rw [hnot] at hans
        cases hans
      · rw [if_neg (by simp [hnoerr]), if_pos hodd]
    · rw [if_pos hans]

theorem getStep_foreign (hf : Foreign q d) : getStep q g (.datagram d) = g := by
  unfold getStep recvPkt
  simp [verdict_foreign hf]

/-- What a packet with a piece does: the piece does not fit, it has come before, or it is
    recorded. -/
theorem getStep_arrived (hcs : Narrow cs) (hpos : 0 < cs.length) (hg : Held cs taken g)
    (hres : g.result = none) (hi : i < cs.length)
    (ha : Arrived q cs i (decide (i + 1 < cs.length)) d) :
    ((getStep q g (.datagram d)).result = some .toomuch ∧
        (start cs i + (piece cs i).length > DATASIZE ∨ (held cs taken).length > MAXFRAGS - 1)) ∨
      (i ∈ taken ∧ getStep q g (.datagram d) = g) ∨
      (i ∉ taken ∧ ((∀ k < cs.length, k ∈ taken ++ [i]) → Whole cs (getStep q g (.datagram d))) ∧
        ((¬ ∀ k < cs.length, k ∈ taken ++ [i]) → (getStep q g (.datagram d)).result = none ∧
          Held cs (taken ++ [i]) (getStep q g (.datagram d)))) := by
  have hstep : getStep q g (.datagram d) = recvPkt q g d := by
    unfold getStep
    simp [hres]
  rw [hstep]
  unfold recvPkt
  simp only [verdict_arrived hcs hg hi ha]
  split_ifs with hbig hlast hmany hmem
  · exact .inl ⟨rfl, .inl hbig⟩
  · exact .inr (.inl ⟨hlast.1, rfl⟩)
  · exact .inl ⟨rfl, .inr hmany⟩
  · exact .inr (.inl ⟨hmem, rfl⟩)
  · refine .inr (.inr ⟨hmem, ?_⟩)
    have hrec := hg.record hcs hi hmem ha
    obtain ⟨hall, hmissing⟩ := hrec.finish hcs hpos
    refine ⟨hall, fun h => ?_⟩
    simp only [hmissing h]
    exact ⟨hres, hrec⟩

/-! ### All packets -/

theorem Arrived.unique {j : Nat} {more' : Bool} (hcs : Narrow cs) (hi : i < cs.length)
    (hj : j < cs.length) (ha : Arrived q cs i more d) (ha' : Arrived q cs j more' d) : i = j := by
  have hsame : segmentAt cs i = segmentAt cs j :=
    (ha.fragment_eq hcs hi).symm.trans (ha'.fragment_eq hcs hj)
  exact start_inj hcs.solid hi hj (congrArg Segment.offset hsame)

theorem Arrived.not_foreign (ha : Arrived q cs i more d) : ¬ Foreign q d := by
  rintro (hshort | hnot | ⟨-, hodd⟩)
  · have hlong := ha.long
    omega
  · rw [ha.hdr.answer] at hnot
    cases hnot
  · exact hodd ha.padded

/-- The fragments that are kept are fewer than the pieces while one is missing. -/
theorem length_held_lt (hmissing : ¬ ∀ i < cs.length, i ∈ taken) :
    (held cs taken).length < cs.length := by
  obtain ⟨j, hj⟩ := not_forall.mp hmissing
  obtain ⟨hj, hnot⟩ := Classical.not_imp.mp hj
  unfold held heldFrom
  rw [length_map]
  calc ((List.range' 0 cs.length).filter (· ∈ taken)).length
      < (List.range' 0 cs.length).length := by
        rw [length_filter_lt_length_iff_exists]
        exact ⟨j, by simpa using hj, by simpa using hnot⟩
    _ = cs.length := length_range'

/-- The datagrams arrive, and `getresponse` has not timed out. -/
def received (q : Query) (pktdata : Memory) (ds : List Datagram) : Getter :=
  Run.exec (getStep q) (getStart pktdata) (ds.map .datagram)

theorem received_concat (q : Query) (pktdata : Memory) (ds : List Datagram) (d : Datagram) :
    received q pktdata (ds ++ [d]) = getStep q (received q pktdata ds) (.datagram d) := by
  unfold received
  rw [map_append, Run.exec_append]
  rfl

/-- A series of packets that the buffers of the client can take. -/
structure Takes (q : Query) (cs ps : List CStr) : Prop where
  narrow : Narrow cs
  pos : 0 < cs.length
  series : Series q cs ps
  short : ∀ c ∈ cs, c.length ≤ CTL_DATA_SIZE

theorem Takes.arrived {ps : List CStr} (ht : Takes q cs ps) (hi : i < ps.length)
    (hc : d.Carries ps[i]) : Arrived q cs i (decide (i + 1 < cs.length)) d := by
  have hlt : i < cs.length := ht.series.1 ▸ hi
  exact isFragment_arrived (ht.series.2 i hi) (ht.short _ (piece_mem hlt)) hc

/-- While packets of the response arrive, and packets that are tossed: either all have
    come and the response is returned, or `getresponse` has not returned. -/
theorem received_held {ps : List CStr} (ht : Takes q cs ps) (hfits : ps.length ≤ MAXFRAGS)
    (htotal : cs.flatten.length ≤ DATASIZE) (pktdata : Memory) (ds : List Datagram)
    (hds : ∀ d ∈ ds, (∃ p ∈ ps, d.Carries p) ∨ Foreign q d) :
    ∃ taken, (∀ i (hi : i < ps.length), i ∈ taken ↔ ∃ d ∈ ds, d.Carries ps[i]) ∧
      ((∀ i < cs.length, i ∈ taken) → Whole cs (received q pktdata ds)) ∧
      ((¬ ∀ i < cs.length, i ∈ taken) → (received q pktdata ds).result = none ∧
        Held cs taken (received q pktdata ds)) := by
  induction ds using List.reverseRecOn with
  | nil =>
    refine ⟨[], by simp, fun h => ?_, fun _ => ⟨rfl, getStart_held cs pktdata⟩⟩
    exact absurd (h 0 ht.pos) not_mem_nil
  | append_singleton ds d ih =>
    obtain ⟨taken, hmem, hall, hmissing⟩ := ih fun d' hd' => hds d' (mem_append_left _ hd')
    rw [received_concat]
    have hexists : ∀ {p}, (∃ d' ∈ ds ++ [d], d'.Carries p) ↔
        (∃ d' ∈ ds, d'.Carries p) ∨ d.Carries p := by
      intro p
      simp only [mem_append, mem_singleton, or_and_right, exists_or, exists_eq_left]
    rcases hds d (by simp) with ⟨p, hp, hc⟩ | hforeign
    · obtain ⟨i, hi, rfl⟩ := getElem_of_mem hp
      have hlt : i < cs.length := ht.series.1 ▸ hi
      have ha := ht.arrived hi hc
      have hmem' : ∀ j (hj : j < ps.length),
          j ∈ taken ++ [i] ↔ ∃ d' ∈ ds ++ [d], d'.Carries ps[j] := by
        intro j hj
        rw [mem_concat_iff, hexists, hmem j hj]
        apply or_congr_right
        constructor
        · rintro rfl
          exact hc
        · intro hcj
          exact (ht.arrived hj hcj).unique ht.narrow (ht.series.1 ▸ hj) hlt ha
      refine ⟨taken ++ [i], hmem', ?_⟩
      by_cases hdone : ∀ k < cs.length, k ∈ taken
      · have hwhole := hall hdone
        have hstay : getStep q (received q pktdata ds) (.datagram d) = received q pktdata ds := by
          unfold getStep
          simp [hwhole.okay]
        rw [hstay]
        have hdone' : ∀ k < cs.length, k ∈ taken ++ [i] := fun k hk =>
          mem_append_left _ (hdone k hk)
        exact ⟨fun _ => hwhole, fun h => absurd hdone' h⟩
      · obtain ⟨hres, hg⟩ := hmissing hdone
        have hfew := length_held_lt hdone
        have hend := piece_end_le hlt
        rcases getStep_arrived ht.narrow ht.pos hg hres hlt ha with
          ⟨-, hbig | hmany⟩ | ⟨hold, hsame⟩ | ⟨-, hstep⟩
        · omega
        · rw [← ht.series.1] at hfew
          omega
        · rw [hsame]
          have hiff : (∀ k < cs.length, k ∈ taken ++ [i]) ↔ ∀ k < cs.length, k ∈ taken := by
            simp only [mem_concat_iff]
            refine forall₂_congr fun k _ => or_iff_left_of_imp ?_
            rintro rfl
            exact hold
          rw [hiff]
          exact ⟨fun h => absurd h hdone, fun _ => ⟨hres, hg.again hold⟩⟩
        · exact hstep
    · rw [getStep_foreign hforeign]
      refine ⟨taken, fun j hj => ?_, hall, hmissing⟩
      rw [hexists, hmem j hj, or_iff_left_of_imp]
      intro hcj
      exact absurd hforeign (ht.arrived hj hcj).not_foreign

/-! ### The response of the server -/

/-- The header of a packet. -/
def hdrOf (p : CStr) : CtlHdr := CtlHdr.read fun i => p.getD i 0

/-- The data area of a packet. -/
def dataArea (p : CStr) : CStr := (p.drop CTL_HEADER_LEN).take (hdrOf p).count.toNat

theorem hdrOf_encode (h : CtlHdr) (data : CStr) : hdrOf (h.encode ++ data) = h := by
  apply read_encode
  intro k hk
  change (h.encode ++ data).getD (0 + k) 0 = _
  rw [zero_add, getD_append _ _ _ _ hk, getD_eq_getElem _ _ hk]

theorem isFragment_data (hlen : (piece cs i).length ≤ CTL_DATA_SIZE)
    (hf : IsFragment q cs i more p) :
    (hdrOf p).count.toNat = (piece cs i).length ∧ dataArea p = piece cs i := by
  obtain ⟨h, tail, hhdr, rfl, -⟩ := hf
  have hcount : h.count.toNat = (piece cs i).length := by
    have hlt : (segmentAt cs i).count < 2 ^ 16 := hlen.trans_lt (by decide)
    rw [hhdr.count, BitVec.toNat_ofNat, Nat.mod_eq_of_lt hlt]
    rfl
  unfold dataArea
  rw [hdrOf_encode]
  refine ⟨hcount, ?_⟩
  rw [hcount, ← length_encode h, drop_left, take_left]

theorem isFragment_place (hcs : Narrow cs) (hi : i < cs.length) (hf : IsFragment q cs i more p) :
    (hdrOf p).offset.toNat = start cs i ∧ ctlIsmore (hdrOf p) = more := by
  obtain ⟨h, tail, hhdr, rfl, -⟩ := hf
  have hlt : (segmentAt cs i).offset < 2 ^ 16 := by
    have hend := piece_end_le hi
    have htotal := hcs.total
    change start cs i < _
    omega
  rw [hdrOf_encode]
  refine ⟨?_, hhdr.ismore⟩
  rw [hhdr.offset, BitVec.toNat_ofNat, Nat.mod_eq_of_lt hlt]
  rfl

theorem map_dataArea {ps : List CStr} (hser : Series q cs ps)
    (hshort : ∀ c ∈ cs, c.length ≤ CTL_DATA_SIZE) : ps.map dataArea = cs := by
  apply ext_getElem
  · rw [length_map, hser.1]
  · intro i hi hi'
    rw [length_map] at hi
    rw [getElem_map, (isFragment_data (hshort _ (piece_mem hi')) (hser.2 i hi)).2]
    unfold piece
    rw [getD_eq_getElem _ _ hi']

/-- All items are text, or all are binary data. -/
def OneKind (items : List Item) : Prop :=
  (∀ item ∈ items, item.bin = true) ∨ ∀ item ∈ items, item.bin = false

/-- The bounds of the pieces. Text behind binary data may exceed the limit by a separator. -/
theorem exists_sized (items : List Item) :
    ∃ a b, (∀ item ∈ items, Sized a b item.bin) ∧ a ≤ b ∧ CTL_MAX_DATA_LEN ≤ b ∧
      b ≤ CTL_MAX_DATA_LEN + 3 ∧ (OneKind items → b = CTL_MAX_DATA_LEN) := by
  by_cases hbin : ∀ item ∈ items, item.bin = true
  · refine ⟨468, 468, fun item hmem => ?_, by decide, by decide, by decide, fun _ => rfl⟩
    rw [hbin item hmem]
    exact ⟨by decide, by decide, by decide⟩
  · by_cases htext : ∀ item ∈ items, item.bin = false
    · refine ⟨465, 468, fun item hmem => ?_, by decide, by decide, by decide, fun _ => rfl⟩
      rw [htext item hmem]
      exact ⟨by decide, by decide, by decide⟩
    · refine ⟨468, 471, fun item _ => ?_, by decide, by decide, by decide, fun h => ?_⟩
      · cases item.bin
        · exact ⟨by decide, by decide, by decide⟩
        · exact ⟨by decide, by decide, by decide⟩
      · exact absurd h (not_or.mpr ⟨hbin, htext⟩)

theorem length_flatten_le {b : Nat} (h : ∀ c ∈ cs, c.length ≤ b) :
    cs.flatten.length ≤ cs.length * b := by
  have hsum := sum_le_card_nsmul (cs.map List.length) b (by simpa using h)
  simpa using hsum

/-- The query that a request is for. -/
def queryFor {autokey : Bool} (rb : CtlRecv autokey) : Query :=
  ⟨rb.hdr.r_m_e_op &&& CTL_OP_MASK, rb.hdr.sequence⟩

section Response

variable {autokey : Bool} {env : CtlEnv} {rb : CtlRecv autokey} {s0 s : CtlSys} {op : CtlOp}
  {items : List Item}

theorem respond_pieces (hmac : ∀ keyid pkt, (env.authencrypt keyid pkt).1 % 4 = 0)
    (hcall : processControl env rb s0 = (s, some op))
    (hitems : ∀ item ∈ items, item.dp ≠ [] ∧ item.dp.length ≤ CTL_MAX_DATA_LEN - 3) :
    ∃ cs, Series (queryFor rb) cs (packets env items s) ∧ 0 < cs.length ∧ Solid cs ∧
      (∀ c ∈ cs, c.length ≤ CTL_MAX_DATA_LEN + 3 ∧ (OneKind items → c.length ≤ CTL_MAX_DATA_LEN)) ∧
      ((∀ item ∈ items, item.bin = false) → ∃ text trail, Joined [] (items.map Item.dp) text ∧
        cs.flatten = text ++ trail ∧ (trail = [] ∨ trail = [0x0d, 0x0a])) := by
  obtain ⟨a, b, hsized, hab, hb, hle, hkind⟩ := exists_sized items
  obtain ⟨cs, hseries, hpos, hsolid, hshort, htext⟩ := respond_series hmac
    (processControl_replying a b hcall) hab hb fun item hmem => ⟨hsized item hmem, hitems item hmem⟩
  refine ⟨cs, hseries, hpos, hsolid, fun c hc => ⟨(hshort c hc).trans hle, fun hone => ?_⟩, htext⟩
  rw [← hkind hone]
  exact hshort c hc

theorem short_of_le (h : ∀ c ∈ cs, c.length ≤ CTL_MAX_DATA_LEN + 3) :
    ∀ c ∈ cs, c.length ≤ CTL_DATA_SIZE := fun c hc => (h c hc).trans (by decide)

/-- The pieces of a response that has not too many packets. -/
theorem respond_takes (hmac : ∀ keyid pkt, (env.authencrypt keyid pkt).1 % 4 = 0)
    (hcall : processControl env rb s0 = (s, some op))
    (hitems : ∀ item ∈ items, item.dp ≠ [] ∧ item.dp.length ≤ CTL_MAX_DATA_LEN - 3)
    (hfits : (packets env items s).length ≤ MAXFRAGS) :
    ∃ cs, Takes (queryFor rb) cs (packets env items s) ∧ cs.flatten.length ≤ DATASIZE ∧
      (∀ c ∈ cs, c.length ≤ CTL_MAX_DATA_LEN + 3 ∧ (OneKind items → c.length ≤ CTL_MAX_DATA_LEN)) ∧
      ((∀ item ∈ items, item.bin = false) → ∃ text trail, Joined [] (items.map Item.dp) text ∧
        cs.flatten = text ++ trail ∧ (trail = [] ∨ trail = [0x0d, 0x0a])) := by
  obtain ⟨cs, hseries, hpos, hsolid, hshort, htext⟩ := respond_pieces hmac hcall hitems
  have hlen : cs.length ≤ MAXFRAGS := hseries.1 ▸ hfits
  have htotal : cs.flatten.length ≤ DATASIZE := by
    have hflat := length_flatten_le fun c hc => (hshort c hc).1
    have hmul := Nat.mul_le_mul_right (CTL_MAX_DATA_LEN + 3) hlen
    have hnum : MAXFRAGS * (CTL_MAX_DATA_LEN + 3) ≤ DATASIZE := by decide
    omega
  exact ⟨cs, ⟨⟨htotal.trans_lt (by decide), hsolid⟩, hpos, hseries,
    short_of_le fun c hc => (hshort c hc).1⟩, htotal, hshort, htext⟩

end Response

/-- For every list of items: the packets of the response have contiguous offsets and all
    but the last say that more follow, and from these packets, in any order and any number
    of times, with any packets between them that are tossed, `getresponse` puts the data
    together once all of them have arrived, and it does not return before. -/
theorem fragments_reassembled {autokey : Bool} (env : CtlEnv)
    (hmac : ∀ keyid pkt, (env.authencrypt keyid pkt).1 % 4 = 0) (rb : CtlRecv autokey)
    (s0 s : CtlSys) (op : CtlOp) (hcall : processControl env rb s0 = (s, some op))
    (items : List Item)
    (hitems : ∀ item ∈ items, item.dp ≠ [] ∧ item.dp.length ≤ CTL_MAX_DATA_LEN - 3)
    (hfits : (packets env items s).length ≤ MAXFRAGS) :
    let ps := packets env items s
    0 < ps.length ∧
      (∀ i (hi : i < ps.length),
        (hdrOf ps[i]).offset.toNat = ((ps.take i).map dataArea).flatten.length ∧
        (hdrOf ps[i]).count.toNat = (dataArea ps[i]).length ∧
        (dataArea ps[i]).length ≤ CTL_MAX_DATA_LEN + 3 ∧
        (OneKind items → (dataArea ps[i]).length ≤ CTL_MAX_DATA_LEN) ∧
        ctlIsmore (hdrOf ps[i]) = decide (i + 1 < ps.length)) ∧
      ∀ (pktdata : Memory) (ds : List Datagram),
        (∀ d ∈ ds, (∃ p ∈ ps, d.Carries p) ∨ Foreign (queryFor rb) d) →
        let g := received (queryFor rb) pktdata ds
        ((∀ p ∈ ps, ∃ d ∈ ds, d.Carries p) →
          g.result = some .okay ∧ octetsAt g.pktdata 0 g.rsize = (ps.map dataArea).flatten) ∧
        ((¬ ∀ p ∈ ps, ∃ d ∈ ds, d.Carries p) → g.result = none) := by
  intro ps
  obtain ⟨cs, ht, htotal, hlen, -⟩ := respond_takes hmac hcall hitems hfits
  have hps : ps.length = cs.length := ht.series.1
  have hmap : ps.map dataArea = cs := map_dataArea ht.series ht.short
  refine ⟨hps ▸ ht.pos, ?_, ?_⟩
  · intro i hi
    have hlt : i < cs.length := hps ▸ hi
    have hmem := piece_mem hlt
    obtain ⟨hoffset, hmore⟩ := isFragment_place ht.narrow hlt (ht.series.2 i hi)
    obtain ⟨hcount, hdata⟩ := isFragment_data (ht.short _ hmem) (ht.series.2 i hi)
    rw [hdata, hps]
    refine ⟨?_, hcount, (hlen _ hmem).1, (hlen _ hmem).2, hmore⟩
    rw [hoffset, map_take, hmap]
    rfl
  · intro pktdata ds hds g
    obtain ⟨taken, hmem, hall, hmissing⟩ := received_held ht hfits htotal pktdata ds hds
    have hiff : (∀ p ∈ ps, ∃ d ∈ ds, d.Carries p) ↔ ∀ i < cs.length, i ∈ taken := by
      rw [← hps, forall_mem_iff_getElem]
      exact forall₂_congr fun i hi => (hmem i hi).symm
    rw [hiff, hmap]
    refine ⟨fun h => ?_, fun h => (hmissing h).1⟩
    have hwhole := hall h
    refine ⟨hwhole.okay, ?_⟩
    rw [hwhole.size]
    exact hwhole.stands.octetsAt_eq

/-- A packet as it arrives. -/
def datagramFor (p : CStr) : Datagram :=
  ⟨fun i => p.getD i 0, min p.length RPKT_SIZE, min_le_right _ _⟩

theorem datagramFor_carries (p : CStr) : (datagramFor p).Carries p := by
  refine ⟨rfl, fun i hi => ?_⟩
  have hlt : i < p.length := (length_take_le' _ _).trans_lt' hi
  change p.getD (0 + i) 0 = _
  rw [zero_add, getD_eq_getElem _ _ hlt, getElem_take]

theorem md5Env_padded (keyid : BitVec 32) (pkt : CStr) :
    (md5Env.authencrypt keyid pkt).1 % 4 = 0 := by
  simp [md5Env]

/-- A request without data, with sequence number 1. -/
def plainRequest (op : BitVec 8) : CtlRecv false :=
  ⟨fun i => [0x16, op, 0, 1].getD i 0, CTL_HEADER_LEN, by decide⟩

/-- The variables when the function that reads variables is called. -/
def readvarSys : CtlSys := (processControl md5Env (plainRequest 2) (ctlStart (fun _ => 0) [])).1

/-- Two items of text that do not fit into one packet. -/
def longItems (c c' : BitVec 8) : List Item :=
  [⟨List.replicate 300 c, false⟩, ⟨List.replicate 300 c', false⟩]

/-- The packets of a response in the wrong order. -/
theorem fragments_reassembled_reversed :
    (packets md5Env (longItems 0x61 0x62) readvarSys).length = 2 ∧
    (received (queryFor (plainRequest 2)) (fun _ => 0)
      ((packets md5Env (longItems 0x61 0x62) readvarSys).reverse.map datagramFor)).result =
        some .okay := by
  have hlen : (packets md5Env (longItems 0x61 0x62) readvarSys).length = 2 := by decide +kernel
  refine ⟨hlen, ?_⟩
  have h := fragments_reassembled md5Env md5Env_padded (plainRequest 2)
    (ctlStart (fun _ => 0) []) readvarSys .readvar (Prod.ext rfl (by decide +kernel))
    (longItems 0x61 0x62) (by decide +kernel) (by rw [hlen]; decide)
  refine ((h.2.2 (fun _ => 0) _ ?_).1 ?_).1
  · intro d hd
    obtain ⟨p, hp, rfl⟩ := mem_map.mp hd
    exact .inl ⟨p, mem_reverse.mp hp, datagramFor_carries p⟩
  · intro p hp
    exact ⟨datagramFor p, mem_map.mpr ⟨p, mem_reverse.mpr hp, rfl⟩, datagramFor_carries p⟩

/-- A packet with the operation and the sequence number of the query that says it has
    four octets of data and has none ends the wait. And text behind binary data is sent in
    a packet with 471 octets of data. -/
theorem fragments_not_reassembled :
    (received (queryFor (plainRequest 2)) (fun _ => 0)
      ((([0x16, 0x82, 0, 1, 0, 0, 0, 0, 0, 0, 0, 4] : CStr) ::
        packets md5Env (longItems 0x61 0x62) readvarSys).map datagramFor)).result =
        some .incomplete ∧
    ∃ p ∈ packets md5Env [⟨List.replicate 465 1, true⟩, ⟨[1, 1, 1], true⟩, ⟨[0x61], false⟩]
      readvarSys, (dataArea p).length = 471 := by
  decide +kernel

end NtpSuite.Ntpq
