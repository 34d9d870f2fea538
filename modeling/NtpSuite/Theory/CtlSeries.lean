import NtpSuite.Core.Ntpq
import NtpSuite.Theory.CtlResponse

/-!
# The Fragments of a Response

What `ctl_putdata` and `ctl_flushpkt` send for a list of items.

While a response is put together, some of its data was sent and the rest stands in the
packet. Whatever is put into the packet is appended to the rest, and when the packet is
sent, the rest becomes one more piece of the data. Every piece is sent with the offset
at which it begins, and with the bit that says that more will follow, except for the
last one.

## Main definitions

* `Item`, `respond`, `packets`: A response.
* `IsFragment`: The packet with a piece of the data.
* `Replying`: A response that is put together.
* `Joined`: The items with what stands between them.

## Theorems

* `flush_sends`: One packet.
* `Replying.putdata`: One item.
* `respond_series`: The whole response.
-/

namespace NtpSuite.Control

open Reading
open Storing
open Tiling
open Ntpq (Query pktVersion pktMode ctlIsresponse ctlIserror ctlIsmore ctlOp isAnswer)
open List Bool

/-- What is given to `ctl_putdata`. -/
structure Item where
  dp : CStr
  bin : Bool
deriving DecidableEq, Repr

/-- The items are put into a response. -/
def putItems (env : CtlEnv) (items : List Item) (s : CtlSys) : CtlSys :=
  items.foldl (fun s item => ctlPutdata env item.dp item.bin s) s

/-- The items are put into a response, which is sent. -/
def respond (env : CtlEnv) (items : List Item) (s : CtlSys) : CtlSys :=
  ctlFlushpkt env false (putItems env items s)

/-- The packets that are sent. -/
def packets (env : CtlEnv) (items : List Item) (s : CtlSys) : List CStr :=
  (respond env items s).sent.drop s.sent.length

/-! ### Fragments -/

/-- The header of a fragment. -/
structure FragHdr (q : Query) (f : Segment) (more : Bool) (h : CtlHdr) : Prop where
  answer : isAnswer h q = true
  noError : ctlIserror h = false
  ismore : ctlIsmore h = more
  offset : h.offset = BitVec.ofNat 16 f.offset
  count : h.count = BitVec.ofNat 16 f.count

/-- The packet with a piece of the data: the header, the piece, and what follows to a
    multiple of four octets. -/
def IsFragment (q : Query) (cs : List CStr) (i : Nat) (more : Bool) (p : CStr) : Prop :=
  ∃ h tail, FragHdr q (segmentAt cs i) more h ∧ p = h.encode ++ (piece cs i ++ tail) ∧
    p.length % 4 = 0

/-- The variables are those of a response to a query. -/
structure Answering (q : Query) (s : CtlSys) : Prop where
  sync : s.res_async = false
  version_le : (pktVersion s.rpkt).toNat ≤ NTP_VERSION
  le_version : NTP_OLDVERSION ≤ (pktVersion s.rpkt).toNat
  mode : pktMode s.rpkt = MODE_CONTROL
  sequence : s.rpkt.sequence = q.sequence
  opcode : s.res_opcode &&& CTL_OP_MASK = q.opcode

/-- What stays the same while a packet is put together and sent. -/
structure Kept (s s' : CtlSys) : Prop where
  async : s'.res_async = s.res_async
  vn_mode : s'.rpkt.li_vn_mode = s.rpkt.li_vn_mode
  sequence : s'.rpkt.sequence = s.rpkt.sequence
  opcode : s'.res_opcode = s.res_opcode
  offset : s'.res_offset = s.res_offset

variable {s' : CtlSys} {c p : CStr} {autokey : Bool}

theorem Kept.trans {s s'' : CtlSys} (h : Kept s s') (h' : Kept s' s'') : Kept s s'' :=
  ⟨h'.async.trans h.async, h'.vn_mode.trans h.vn_mode, h'.sequence.trans h.sequence,
    h'.opcode.trans h.opcode, h'.offset.trans h.offset⟩

theorem length_encode (h : CtlHdr) : h.encode.length = CTL_HEADER_LEN := rfl

variable {env : CtlEnv} {q : Query} {s : CtlSys} {more : Bool} {cur : CStr}

theorem Answering.kept (ha : Answering q s) (h : Kept s s') : Answering q s' := by
  have hversion : pktVersion s'.rpkt = pktVersion s.rpkt := by
    unfold pktVersion
    rw [h.vn_mode]
  refine ⟨h.async.trans ha.sync, ?_, ?_, ?_, h.sequence.trans ha.sequence, ?_⟩
  · rw [hversion]
    exact ha.version_le
  · rw [hversion]
    exact ha.le_version
  · unfold pktMode
    rw [h.vn_mode]
    exact ha.mode
  · rw [h.opcode]
    exact ha.opcode

theorem opBits (more : Bool) (op : BitVec 8) :
    let r := CTL_RESPONSE ||| (if more then CTL_MORE else 0) ||| (op &&& CTL_OP_MASK)
    r &&& CTL_RESPONSE ≠ 0 ∧ r &&& CTL_ERROR = 0 ∧ (r &&& CTL_MORE ≠ 0 ↔ more = true) ∧
      r &&& CTL_OP_MASK = op &&& CTL_OP_MASK := by
  revert more op
  decide

theorem fillIn_hdr (ha : Answering q s) (more : Bool) (dlen : Nat) :
    FragHdr q ⟨s.res_offset, dlen⟩ more (fillIn more dlen s).rpkt := by
  obtain ⟨hresp, herr, hmore, hop⟩ := opBits more s.res_opcode
  refine ⟨?_, ?_, ?_, rfl, rfl⟩
  · unfold isAnswer
    simp only [and_eq_true, decide_eq_true_eq, beq_iff_eq]
    exact ⟨⟨⟨⟨⟨ha.version_le, ha.le_version⟩, ha.mode⟩, bne_iff_ne.mpr hresp⟩, ha.sequence⟩,
      hop.trans ha.opcode⟩
  · exact bne_eq_false_iff_eq.mpr herr
  · rw [Bool.eq_iff_iff, ← hmore]
    exact bne_iff_ne

theorem send_sent (s : CtlSys) {n : Nat} (hstands : Stands s.data.mem 0 cur) (hn : cur.length ≤ n) :
    ∃ tail, (s.send (CTL_HEADER_LEN + n)).sent = s.sent ++ [s.rpkt.encode ++ (cur ++ tail)] ∧
      tail.length = n - cur.length := by
  refine ⟨octetsAt s.data.mem (0 + cur.length) (n - cur.length), ?_, by simp [octetsAt]⟩
  have hread : octetsAt s.data.mem 0 n =
      cur ++ octetsAt s.data.mem (0 + cur.length) (n - cur.length) := by
    have hadd := octetsAt_add s.data.mem 0 cur.length (n - cur.length)
    rwa [Nat.add_sub_cancel' hn, hstands.octetsAt_eq] at hadd
  unfold CtlSys.send
  rw [Nat.add_sub_cancel_left, hread]

theorem sendMac_sent (hmac : ∀ keyid pkt, (env.authencrypt keyid pkt).1 % 4 = 0) {off : Nat}
    (hstands : Stands s.data.mem 0 cur) (hoff : cur.length ≤ off) (hpad : off % 4 = 0) :
    ∃ tail, (s.sendMac env off).sent = s.sent ++ [s.rpkt.encode ++ (cur ++ tail)] ∧
      (cur.length + tail.length) % 4 = 0 := by
  have hlen := hmac s.res_keyid (s.rpkt.encode ++ octetsAt s.data.mem 0 off)
  have hbehind : 0 + cur.length ≤ off := by omega
  unfold CtlSys.sendMac
  simp only
  generalize env.authencrypt s.res_keyid (s.rpkt.encode ++ octetsAt s.data.mem 0 off) = r at hlen ⊢
  have hmem : Stands ((s.data.put off (Exten.htonl s.res_keyid)).put (off + 4) r.2).mem 0 cur :=
    (hstands.store (.inl hbehind)).store (.inl (by omega))
  simp only [add_assoc]
  obtain ⟨tail, hsent, htail⟩ := send_sent
    { s with data := (s.data.put off (Exten.htonl s.res_keyid)).put (off + 4) r.2 }
    (n := off + r.1) hmem (by omega)
  exact ⟨tail, hsent, by omega⟩

theorem sendOut_sent (more : Bool) (hmac : ∀ keyid pkt, (env.authencrypt keyid pkt).1 % 4 = 0)
    (hsync : s.res_async = false) (hstands : Stands s.data.mem 0 cur)
    (hcur : cur.length ≤ s.datapt) (hpad : s.datapt % 4 = 0) :
    ∃ tail, (sendOut env more s).sent = s.sent ++ [s.rpkt.encode ++ (cur ++ tail)] ∧
      (cur.length + tail.length) % 4 = 0 := by
  have hlen : (padding (CTL_HEADER_LEN + s.datapt) 8).length % 4 = 0 := by
    rw [length_padding]
    unfold CTL_HEADER_LEN
    omega
  unfold sendOut
  simp only [hsync, false_eq_true, if_false]
  split_ifs with hauth
  · apply sendMac_sent hmac
    · exact (hstands.store (.inl (by omega))).store (.inl (by simp [CtlSys.put]; omega))
    · simp only [CtlSys.put]
      omega
    · simp only [CtlSys.put]
      omega
  · obtain ⟨tail, hsent, htail⟩ := send_sent s hstands hcur
    exact ⟨tail, hsent, by omega⟩

theorem sendOut_kept (env : CtlEnv) (more : Bool) (hsync : s.res_async = false) :
    Kept s (sendOut env more s) := by
  unfold sendOut
  simp only [hsync, false_eq_true, if_false]
  split_ifs
  · exact ⟨rfl, rfl, rfl, rfl, rfl⟩
  · exact ⟨rfl, rfl, rfl, rfl, rfl⟩

/-- The CR LF at the end of the text. -/
def trailing (more : Bool) (s : CtlSys) : CStr :=
  if !more && s.datanotbinflag && decide (s.datapt + 2 < CTL_MAX_DATA_LEN) then [0x0d, 0x0a] else []

theorem trailing_true (s : CtlSys) : trailing true s = [] := rfl

theorem trail_kept (more : Bool) (s : CtlSys) : Kept s (trail more s) := by
  unfold trail
  split_ifs
  · exact ⟨rfl, rfl, rfl, rfl, rfl⟩
  · exact ⟨rfl, rfl, rfl, rfl, rfl⟩

/-- Some octets stand in the packet, and nothing else. -/
structure Contains (s : CtlSys) (cur : CStr) : Prop where
  datapt : s.datapt = cur.length
  stands : Stands s.data.mem 0 cur

theorem Contains.put (hc : Contains s cur) (bs : CStr) : Contains (s.put bs) (cur ++ bs) := by
  constructor
  · rw [length_append, ← hc.datapt]
    rfl
  · rw [stands_append, ← hc.datapt, zero_add]
    exact ⟨hc.stands.store (.inl (by rw [hc.datapt, zero_add])), Buffer.stands_put⟩

theorem Contains.trail (hc : Contains s cur) (more : Bool) :
    Contains (trail more s) (cur ++ trailing more s) ∧ (trail more s).sent = s.sent := by
  unfold Control.trail trailing
  split_ifs
  · exact ⟨hc.put _, rfl⟩
  · rw [append_nil]
    exact ⟨hc, rfl⟩

theorem flush_sends (more : Bool) (hmac : ∀ keyid pkt, (env.authencrypt keyid pkt).1 % 4 = 0)
    (ha : Answering q s) (hc : Contains s cur) :
    (∃ h tail, FragHdr q ⟨s.res_offset, (cur ++ trailing more s).length⟩ more h ∧
      (ctlFlushpkt env more s).sent = s.sent ++ [h.encode ++ (cur ++ trailing more s ++ tail)] ∧
      (h.encode ++ (cur ++ trailing more s ++ tail)).length % 4 = 0) ∧
      Answering q (ctlFlushpkt env more s) ∧
      (ctlFlushpkt env more s).res_offset = s.res_offset + (cur ++ trailing more s).length := by
  obtain ⟨hct, hsent⟩ := hc.trail more
  generalize cur ++ trailing more s = data at hct
  -- The packet before it is sent: the data, and the padding behind it.
  obtain ⟨u, hu⟩ : ∃ u, u = fillIn more data.length
      ((trail more s).put (padding (CTL_HEADER_LEN + data.length) 4)) := ⟨_, rfl⟩
  have hkept : Kept s u := by
    rw [hu]
    exact (trail_kept more s).trans ⟨rfl, rfl, rfl, rfl, rfl⟩
  have hhdr : FragHdr q ⟨s.res_offset, data.length⟩ more u.rpkt := by
    have hput : Kept s ((trail more s).put (padding (CTL_HEADER_LEN + data.length) 4)) :=
      (trail_kept more s).trans ⟨rfl, rfl, rfl, rfl, rfl⟩
    rw [hu, ← hput.offset]
    exact fillIn_hdr (ha.kept hput) more data.length
  have hcu := hct.put (padding (CTL_HEADER_LEN + data.length) 4)
  have hstands : Stands u.data.mem 0 data := by
    rw [hu]
    exact (stands_append.mp hcu.stands).1
  have hpt : u.datapt = data.length + (padding (CTL_HEADER_LEN + data.length) 4).length := by
    rw [hu, ← length_append]
    exact hcu.datapt
  have hpad : u.datapt % 4 = 0 := by
    rw [hpt, length_padding]
    unfold CTL_HEADER_LEN
    omega
  have hsync : u.res_async = false := hkept.async.trans ha.sync
  obtain ⟨tail, hout, htail⟩ := sendOut_sent more hmac hsync hstands (by omega) hpad
  have hkept' := hkept.trans (sendOut_kept env more hsync)
  have hflush : ctlFlushpkt env more s = { sendOut env more u with
      res_frags := (sendOut env more u).res_frags + 1
      res_offset := (sendOut env more u).res_offset + data.length
      datapt := 0 } := by
    unfold ctlFlushpkt
    simp only [hct.datapt, ← hu]
  rw [hflush]
  refine ⟨⟨u.rpkt, tail, hhdr, ?_, ?_⟩, ?_, ?_⟩
  · rw [← hsent]
    rw [hu] at hout ⊢
    exact hout
  · rw [length_append, length_encode, length_append]
    unfold CTL_HEADER_LEN
    omega
  · have hans := ha.kept hkept'
    exact { hans with }
  · exact congrArg (· + data.length) hkept'.offset

/-! ### A response that is put together -/

/-- The packets with all pieces so far. -/
def Begun (q : Query) (cs ps : List CStr) : Prop :=
  ps.length = cs.length ∧ ∀ i (hi : i < ps.length), IsFragment q cs i true ps[i]

/-- The packets with all pieces: more follow all but the last one. -/
def Series (q : Query) (cs ps : List CStr) : Prop :=
  ps.length = cs.length ∧
    ∀ i (hi : i < ps.length), IsFragment q cs i (decide (i + 1 < cs.length)) ps[i]

theorem IsFragment.append {cs : List CStr} {i : Nat} (hf : IsFragment q cs i more p)
    (hi : i < cs.length) (c : CStr) : IsFragment q (cs ++ [c]) i more p := by
  unfold IsFragment segmentAt at hf ⊢
  rw [start_append _ hi.le, piece_append _ hi]
  exact hf

theorem isFragment_concat {cs : List CStr} {h : CtlHdr} {tail : CStr}
    (hh : FragHdr q ⟨cs.flatten.length, c.length⟩ more h)
    (hlen : (h.encode ++ (c ++ tail)).length % 4 = 0) :
    IsFragment q (cs ++ [c]) cs.length more (h.encode ++ (c ++ tail)) := by
  refine ⟨h, tail, ?_, ?_, hlen⟩
  · unfold segmentAt
    rw [start_append _ le_rfl, start_length, piece_length_append]
    exact hh
  · rw [piece_length_append]

theorem Begun.concat {cs ps : List CStr} (hb : Begun q cs ps)
    (hf : IsFragment q (cs ++ [c]) cs.length true p) : Begun q (cs ++ [c]) (ps ++ [p]) := by
  refine ⟨by simp [hb.1], fun i hi => ?_⟩
  rw [length_append, length_singleton] at hi
  by_cases hlt : i < ps.length
  · rw [getElem_append_left hlt]
    exact (hb.2 i hlt).append (hb.1 ▸ hlt) c
  · obtain rfl : i = ps.length := by omega
    rw [getElem_concat_length rfl, hb.1]
    exact hf

theorem Begun.finish {cs ps : List CStr} (hb : Begun q cs ps)
    (hf : IsFragment q (cs ++ [c]) cs.length false p) : Series q (cs ++ [c]) (ps ++ [p]) := by
  refine ⟨by simp [hb.1], fun i hi => ?_⟩
  rw [length_append, length_singleton] at hi ⊢
  by_cases hlt : i < ps.length
  · rw [getElem_append_left hlt, decide_eq_true (by have := hb.1; omega)]
    exact (hb.2 i hlt).append (hb.1 ▸ hlt) c
  · obtain rfl : i = ps.length := by omega
    rw [getElem_concat_length rfl, hb.1, decide_eq_false (by omega)]
    exact hf

/-- A response that is put together: the pieces that were sent and the rest of the data.
    The rest has at most `a` octets and a piece at most `b`. -/
structure Replying (q : Query) (old : List CStr) (a b : Nat) (cs : List CStr) (cur : CStr)
    (s : CtlSys) : Prop where
  answering : Answering q s
  contains : Contains s cur
  offset : s.res_offset = cs.flatten.length
  sent : ∃ ps, s.sent = old ++ ps ∧ Begun q cs ps
  cur_le : cur.length ≤ a
  pieces : ∀ c ∈ cs, c ≠ [] ∧ c.length ≤ b
  first : cur = [] → cs = []

/-- What stands between two items of text. -/
def separators : List CStr := [[0x2c, 0x20], [0x2c, 0x0d, 0x0a]]

/-- The bounds allow an item, if it is text or not. -/
structure Sized (a b : Nat) (bin : Bool) : Prop where
  item : CTL_MAX_DATA_LEN - 3 ≤ a
  room : CTL_MAX_DATA_LEN ≤ a + (if bin = true then 0 else 3)
  sep : a + (if bin = true then 0 else 3) ≤ b

theorem separated_contains (hc : Contains s cur) (dlen : Nat) (bin : Bool) :
    ∃ sep, Contains (separated dlen bin s) (cur ++ sep) ∧ Kept s (separated dlen bin s) ∧
      (separated dlen bin s).sent = s.sent ∧
      (bin = true ∨ cur = [] → sep = []) ∧ (bin = false → cur ≠ [] → sep ∈ separators) := by
  have hempty : s.datapt = 0 ↔ cur = [] := by
    rw [hc.datapt, length_eq_zero_iff]
  unfold separated
  by_cases hbin : bin = true
  · rw [if_pos hbin]
    exact ⟨[], by rwa [append_nil], ⟨rfl, rfl, rfl, rfl, rfl⟩, rfl, fun _ => rfl,
      fun h => absurd hbin (by simp [h])⟩
  · have hc' : Contains { s with datanotbinflag := true } cur := ⟨hc.datapt, hc.stands⟩
    rw [if_neg hbin]
    unfold separate
    by_cases hcur : s.datapt = 0
    · rw [if_neg (not_not.mpr hcur)]
      exact ⟨[], by rwa [append_nil], ⟨rfl, rfl, rfl, rfl, rfl⟩, rfl, fun _ => rfl,
        fun _ h => absurd (hempty.mp hcur) h⟩
    · rw [if_pos hcur]
      have hne : bin = true ∨ cur = [] → False := by
        rintro (h | h)
        · exact hbin h
        · exact hcur (hempty.mpr h)
      split_ifs
      · obtain ⟨hpt, hstands⟩ := hc'.put [0x2c, 0x0d, 0x0a]
        exact ⟨_, ⟨hpt, hstands⟩, ⟨rfl, rfl, rfl, rfl, rfl⟩, rfl, fun h => (hne h).elim,
          fun _ _ => by decide⟩
      · obtain ⟨hpt, hstands⟩ := hc'.put [0x2c, 0x20]
        exact ⟨_, ⟨hpt, hstands⟩, ⟨rfl, rfl, rfl, rfl, rfl⟩, rfl, fun h => (hne h).elim,
          fun _ _ => by decide⟩

section Items

variable {old : List CStr} {a b : Nat} {cs : List CStr}

section

variable (hmac : ∀ keyid pkt, (env.authencrypt keyid pkt).1 % 4 = 0)

include hmac

/-- The packet is sent because the next item does not fit. -/
theorem Replying.flush (hr : Replying q old a b cs cur s) {sep : CStr} (hkept : Kept s s')
    (hsent : s'.sent = s.sent) (hc : Contains s' (cur ++ sep)) :
    Answering q (ctlFlushpkt env true s') ∧ Contains (ctlFlushpkt env true s') [] ∧
      (ctlFlushpkt env true s').res_offset = (cs ++ [cur ++ sep]).flatten.length ∧
      ∃ ps, (ctlFlushpkt env true s').sent = old ++ ps ∧ Begun q (cs ++ [cur ++ sep]) ps := by
  obtain ⟨⟨h, tail, hhdr, hnew, hlen⟩, hans, hoff⟩ :=
    flush_sends true hmac (hr.answering.kept hkept) hc
  rw [trailing_true, append_nil] at hhdr hnew hlen hoff
  rw [hkept.offset, hr.offset] at hhdr hoff
  obtain ⟨ps, hps, hbegun⟩ := hr.sent
  refine ⟨hans, ⟨rfl, stands_nil⟩, ?_, ps ++ [h.encode ++ (cur ++ sep ++ tail)], ?_, ?_⟩
  · rw [hoff]
    simp
  · rw [hnew, hsent, hps, append_assoc]
  · exact hbegun.concat (isFragment_concat hhdr hlen)

theorem Replying.putdata (hr : Replying q old a b cs cur s) {item : Item}
    (hsized : Sized a b item.bin) (hne : item.dp ≠ [])
    (hlen : item.dp.length ≤ CTL_MAX_DATA_LEN - 3) :
    ∃ cs' cur' sep, Replying q old a b cs' cur' (ctlPutdata env item.dp item.bin s) ∧
      cs'.flatten ++ cur' = cs.flatten ++ cur ++ sep ++ item.dp ∧
      (item.bin = true ∨ cur = [] → sep = []) ∧
      (item.bin = false → cur ≠ [] → sep ∈ separators) := by
  obtain ⟨dp, bin⟩ := item
  obtain ⟨sep, hcs, hkept, hsent, hnosep, hsep⟩ := separated_contains hr.contains dp.length bin
  have hseplen : sep.length ≤ if bin = true then 0 else 3 := by
    by_cases hbin : bin = true
    · simp [hnosep (.inl hbin)]
    · rw [if_neg hbin]
      by_cases hcur : cur = []
      · simp [hnosep (.inr hcur)]
      · have hmem := hsep (by simpa using hbin) hcur
        rcases mem_pair.mp hmem with rfl | rfl <;> decide
  have hputs : ctlPutdata env dp bin s =
      { (made env dp.length bin s).put dp with
        datalinelen := ((made env dp.length bin s).put dp).datalinelen + dp.length } := rfl
  obtain ⟨hitem, hroom, hseps⟩ := hsized
  simp only at hlen hitem hroom hseps
  have hcur := hr.cur_le
  unfold CTL_MAX_DATA_LEN at hlen hitem hroom
  rw [hputs]
  unfold made
  by_cases hfull : dp.length + (if bin = true then 0 else 3) +
      (separated dp.length bin s).datapt > CTL_MAX_DATA_LEN
  · -- The packet is sent, and the item begins the next one.
    rw [if_pos hfull]
    rw [hcs.datapt, length_append] at hfull
    unfold CTL_MAX_DATA_LEN at hfull
    obtain ⟨hans, hempty, hoff, hps⟩ := hr.flush hmac hkept hsent hcs
    obtain ⟨hpt, hstands⟩ := hempty.put dp
    refine ⟨cs ++ [cur ++ sep], dp, sep, ?_, ?_, hnosep, hsep⟩
    · refine ⟨{ hans with }, ⟨hpt, hstands⟩, hoff, hps, ?_, ?_, fun h => absurd h hne⟩
      · omega
      · intro c hmem
        rcases mem_append.mp hmem with hmem | hmem
        · exact hr.pieces c hmem
        · rw [mem_singleton.mp hmem, length_append]
          refine ⟨?_, by omega⟩
          intro h
          rw [← length_eq_zero_iff, length_append] at h
          split_ifs at hfull <;> omega
    · simp
  · rw [if_neg hfull]
    rw [hcs.datapt, length_append] at hfull
    unfold CTL_MAX_DATA_LEN at hfull
    have hans := hr.answering.kept hkept
    obtain ⟨hpt, hstands⟩ := hcs.put dp
    refine ⟨cs, cur ++ sep ++ dp, sep, ?_, by simp, hnosep, hsep⟩
    refine ⟨{ hans with }, ⟨hpt, hstands⟩, hkept.offset.trans hr.offset, ?_, ?_, hr.pieces, ?_⟩
    · obtain ⟨ps, hps, hbegun⟩ := hr.sent
      exact ⟨ps, hsent.trans hps, hbegun⟩
    · rw [length_append, length_append]
      omega
    · intro h
      exact absurd (append_eq_nil_iff.mp h).2 hne

/-- Items that are appended to a text, with what stands between them. -/
inductive Joined : CStr → List CStr → CStr → Prop
  | nil (text : CStr) : Joined text [] text
  | cons {text sep item text' : CStr} {items : List CStr} (hfirst : text = [] → sep = [])
      (hnext : text ≠ [] → sep ∈ separators) (h : Joined (text ++ sep ++ item) items text') :
      Joined text (item :: items) text'

theorem Replying.putItems {items : List Item} (hr : Replying q old a b cs cur s)
    (hitems : ∀ item ∈ items, Sized a b item.bin ∧ item.dp ≠ [] ∧
      item.dp.length ≤ CTL_MAX_DATA_LEN - 3) :
    ∃ cs' cur', Replying q old a b cs' cur' (putItems env items s) ∧
      ((∀ item ∈ items, item.bin = false) →
        Joined (cs.flatten ++ cur) (items.map Item.dp) (cs'.flatten ++ cur')) := by
  induction items generalizing s cs cur with
  | nil => exact ⟨cs, cur, hr, fun _ => Joined.nil _⟩
  | cons item items ih =>
    obtain ⟨⟨hsized, hne, hlen⟩, hrest⟩ := forall_mem_cons.mp hitems
    obtain ⟨cs1, cur1, sep, hr1, htext, hnosep, hsep⟩ := hr.putdata hmac hsized hne hlen
    obtain ⟨cs', cur', hr', hjoined⟩ := ih hr1 hrest
    refine ⟨cs', cur', hr', fun htexts => ?_⟩
    obtain ⟨hbin, htexts⟩ := forall_mem_cons.mp htexts
    have hempty : cs.flatten ++ cur = [] ↔ cur = [] := by
      constructor
      · intro h
        exact (append_eq_nil_iff.mp h).2
      · intro h
        rw [hr.first h, h]
        rfl
    rw [htext] at hjoined
    exact Joined.cons (fun h => hnosep (.inr (hempty.mp h)))
      (fun h => hsep hbin (fun hcur => h (hempty.mpr hcur))) (hjoined htexts)

end

theorem trailing_cases (more : Bool) (s : CtlSys) :
    trailing more s = [] ∨
      trailing more s = [0x0d, 0x0a] ∧ s.datapt + 2 < CTL_MAX_DATA_LEN := by
  unfold trailing
  split_ifs with hc
  · simp only [and_eq_true, decide_eq_true_eq] at hc
    exact .inr ⟨rfl, hc.2⟩
  · exact .inl rfl

theorem respond_series (hmac : ∀ keyid pkt, (env.authencrypt keyid pkt).1 % 4 = 0)
    {items : List Item} (hr : Replying q s.sent a b [] [] s) (hab : a ≤ b)
    (hb : CTL_MAX_DATA_LEN ≤ b) (hitems : ∀ item ∈ items, Sized a b item.bin ∧ item.dp ≠ [] ∧
      item.dp.length ≤ CTL_MAX_DATA_LEN - 3) :
    ∃ cs, Series q cs (packets env items s) ∧ 0 < cs.length ∧ Solid cs ∧
      (∀ c ∈ cs, c.length ≤ b) ∧
      ((∀ item ∈ items, item.bin = false) → ∃ text trail, Joined [] (items.map Item.dp) text ∧
        cs.flatten = text ++ trail ∧ (trail = [] ∨ trail = [0x0d, 0x0a])) := by
  obtain ⟨cs, cur, hr', hjoined⟩ := hr.putItems hmac hitems
  obtain ⟨⟨h, tail, hhdr, hnew, hlen⟩, -, -⟩ := flush_sends false hmac hr'.answering hr'.contains
  obtain ⟨ps, hps, hbegun⟩ := hr'.sent
  obtain ⟨trail, htrail⟩ : ∃ t, t = trailing false (Control.putItems env items s) := ⟨_, rfl⟩
  have hcases := trailing_cases false (Control.putItems env items s)
  rw [hr'.contains.datapt, ← htrail] at hcases
  rw [← htrail] at hhdr hnew hlen
  rw [hr'.offset] at hhdr
  have hpackets : packets env items s = ps ++ [h.encode ++ (cur ++ trail ++ tail)] := by
    unfold packets respond
    rw [hnew, hps, append_assoc, drop_left]
  refine ⟨cs ++ [cur ++ trail], ?_, by simp, ?_, ?_, ?_⟩
  · rw [hpackets]
    exact hbegun.finish (isFragment_concat hhdr hlen)
  · -- Only the last piece may be empty.
    intro i hi
    rw [length_append, length_singleton] at hi
    rw [piece_append _ (by omega)]
    unfold piece
    rw [getD_eq_getElem _ _ (by omega)]
    exact (hr'.pieces _ (getElem_mem _)).1
  · intro c hc
    rcases mem_append.mp hc with hc | hc
    · exact (hr'.pieces c hc).2
    · rw [mem_singleton.mp hc, length_append]
      have hcur := hr'.cur_le
      rcases hcases with htr | ⟨htr, hlt⟩
      · rw [htr, length_nil]
        omega
      · rw [htr]
        simp only [length_cons, length_nil]
        omega
  · intro htexts
    refine ⟨cs.flatten ++ cur, trail, hjoined htexts, by simp, ?_⟩
    rcases hcases with htr | ⟨htr, -⟩
    · exact .inl htr
    · exact .inr htr

end Items

/-! ### The beginning of a response -/

theorem liVnMode_bits (li vn : BitVec 8) :
    (pktLiVnMode li (vn &&& 0x7) MODE_CONTROL >>> 3) &&& 0x7 = vn &&& 0x7 ∧
      pktLiVnMode li (vn &&& 0x7) MODE_CONTROL &&& 0x7 = MODE_CONTROL := by
  have hli : ∀ x : BitVec 8, (((x <<< 6) &&& 0xc0#8) >>> 3) &&& 0x7 = 0 ∧
      ((x <<< 6) &&& 0xc0#8) &&& 0x7 = 0 := by decide
  have hvn : ∀ x : BitVec 8, ((((x &&& 0x7) <<< 3) &&& 0x38#8) >>> 3) &&& 0x7 = x &&& 0x7 ∧
      (((x &&& 0x7) <<< 3) &&& 0x38#8) &&& 0x7 = 0 := by decide
  have hmd : ((MODE_CONTROL &&& 0x7) >>> 3) &&& 0x7 = 0 ∧
      (MODE_CONTROL &&& 0x7) &&& 0x7 = MODE_CONTROL := by decide
  have hdef : pktLiVnMode li (vn &&& 0x7) MODE_CONTROL =
      ((li <<< 6) &&& 0xc0#8) ||| (((vn &&& 0x7) <<< 3) &&& 0x38#8) ||| (MODE_CONTROL &&& 0x7) :=
    rfl
  rw [hdef]
  constructor
  · rw [BitVec.ushiftRight_or_distrib, BitVec.ushiftRight_or_distrib, BitVec.and_or_distrib_right,
      BitVec.and_or_distrib_right, (hli li).1, (hvn vn).1, hmd.1]
    simp
  · rw [BitVec.and_or_distrib_right, BitVec.and_or_distrib_right, (hli li).2, (hvn vn).2, hmd.2]
    simp

/-- A request whose function is called: it is not ignored, and its variables are set. -/
theorem processControl_calls {rb : CtlRecv autokey} {s0 : CtlSys} {op : CtlOp}
    (hcall : processControl env rb s0 = (s, some op)) :
    rb.ignored = false ∧ s = checkAuth env rb (setUp env rb s0) := by
  unfold processControl at hcall
  split_ifs at hcall with hignored hlength
  · cases congrArg Prod.snd hcall
  · cases congrArg Prod.snd hcall
  · simp only at hcall
    split at hcall
    · cases congrArg Prod.snd hcall
    · split_ifs at hcall
      · exact ⟨by simpa using hignored, (congrArg Prod.fst hcall).symm⟩
      · cases congrArg Prod.snd hcall

theorem checkAuth_kept (env : CtlEnv) (rb : CtlRecv autokey) (s : CtlSys) :
    Kept s (checkAuth env rb s) ∧ (checkAuth env rb s).datapt = s.datapt := by
  unfold checkAuth
  split_ifs <;> exact ⟨⟨rfl, rfl, rfl, rfl, rfl⟩, rfl⟩

/-- A request whose function is called begins a response. -/
theorem processControl_replying {rb : CtlRecv autokey} {s0 : CtlSys} {op : CtlOp} (a b : Nat)
    (hcall : processControl env rb s0 = (s, some op)) :
    Replying ⟨rb.hdr.r_m_e_op &&& CTL_OP_MASK, rb.hdr.sequence⟩ s.sent a b [] [] s := by
  obtain ⟨hignored, hs⟩ := processControl_calls hcall
  obtain ⟨hkept, hpt⟩ := checkAuth_kept env rb (setUp env rb s0)
  rw [← hs] at hkept hpt
  obtain ⟨hversion, hmode⟩ := liVnMode_bits env.sys_leap (rb.hdr.li_vn_mode >>> 3)
  simp only [CtlRecv.ignored, or_eq_false_iff, decide_eq_false_iff_not, not_lt] at hignored
  obtain ⟨⟨-, hle⟩, hge⟩ := hignored
  have hans : Answering ⟨rb.hdr.r_m_e_op &&& CTL_OP_MASK, rb.hdr.sequence⟩ (setUp env rb s0) := by
    refine ⟨rfl, ?_, ?_, hmode, rfl, rfl⟩
    · exact (congrArg BitVec.toNat hversion).trans_le hle
    · exact hge.trans_eq (congrArg BitVec.toNat hversion).symm
  exact ⟨hans.kept hkept, ⟨hpt, stands_nil⟩, hkept.offset,
    ⟨[], (append_nil _).symm, rfl, fun i hi => absurd hi (Nat.not_lt_zero i)⟩,
    Nat.zero_le _, fun c hc => absurd hc not_mem_nil, fun _ => rfl⟩

end NtpSuite.Control
