import NtpSuite.Core.ExtenSend
import NtpSuite.Theory.ExtenVerify

/-!
# The Field that is Sent

What `crypto_send` puts into a packet. The field is the header the caller has
begun, the stamps, the value and the signature with their lengths, and octets of
zero up to the next word behind the value and the signature.

The word that gets those zeros is cleared before the octets are copied over it,
and the source finds it by the length of the value in both cases. So the octets
behind a signature keep what was in the packet, unless the signature ends in a
word of the same number as the value, or at the end of a word. And since the
length of the field is computed in 32 bits, there are lengths close to the
largest number for which the check of the room is no check.

## Main definitions

* `sentField`: The octets a field is to have.
* `Emitted`: A memory has the field, and the receiver finds the parts.
* `SendOk`: What the lengths must be like.

## Theorems

* `copyPart_stands`: What a copy leaves, with the zeros behind it.
* `cryptoSend_emitted`: What is sent.
* `send_exact_iff`: When the field has no octet of what was there before.
-/

namespace NtpSuite.Exten

open Reading Storing Function List

/-! ### Words -/

@[simp] theorem length_htonl (w : BitVec 32) : (htonl w).length = 4 := rfl

theorem htonl_append (w : BitVec 32) :
    (w >>> 24).setWidth 8 ++ (w >>> 16).setWidth 8 ++ (w >>> 8).setWidth 8 ++ w.setWidth 8 = w := by
  apply BitVec.eq_of_getLsbD_eq
  intro i hi
  simp only [BitVec.getLsbD_append, BitVec.getLsbD_setWidth, BitVec.getLsbD_ushiftRight]
  split_ifs with h1 h2 h3
  · rw [decide_eq_true h1, Bool.true_and]
  · rw [show 8 + (i - 8) = i by omega, decide_eq_true (by omega), Bool.true_and]
  · rw [show 16 + (i - 8 - 8) = i by omega, decide_eq_true (by omega), Bool.true_and]
  · rw [show 24 + (i - 8 - 8 - 8) = i by omega, decide_eq_true (by omega), Bool.true_and]

theorem wordAt_of_stands {m : Memory} {off : Nat} {w : BitVec 32} (h : Stands m off (htonl w)) :
    wordAt m off = w := by
  have h0 := h 0 (by simp)
  have h1 := h 1 (by simp)
  have h2 := h 2 (by simp)
  have h3 := h 3 (by simp)
  unfold wordAt
  rw [h1, h2, h3]
  refine Eq.trans (congrArg (· ++ _ ++ _ ++ _) h0) (htonl_append w)

/-- The octets of a word that is put together are those it is made of. -/
theorem htonl_of_octets (a b c d : BitVec 8) : htonl (a ++ b ++ c ++ d) = [a, b, c, d] := by
  have hoctet : ∀ (k : Nat) (x : BitVec 8),
      (∀ i < 8, (a ++ b ++ c ++ d).getLsbD (k + i) = x.getLsbD i) →
      ((a ++ b ++ c ++ d) >>> k).setWidth 8 = x := by
    intro k x h
    apply BitVec.eq_of_getLsbD_eq
    intro i hi
    rw [BitVec.getLsbD_setWidth, BitVec.getLsbD_ushiftRight, decide_eq_true hi, Bool.true_and,
      h i hi]
  have hlast : (a ++ b ++ c ++ d).setWidth 8 = d := by
    refine Eq.trans ?_ (hoctet 0 d ?_)
    · rw [BitVec.ushiftRight_zero]
    · intro i hi
      rw [BitVec.getLsbD_append, if_pos (by omega), zero_add]
  unfold htonl
  rw [hoctet 24 a, hoctet 16 b, hoctet 8 c, hlast]
  all_goals
    intro i hi
    simp only [BitVec.getLsbD_append]
    split_ifs <;> first | omega | (congr 1; omega)

theorem stands_wordAt (m : Memory) (off : Nat) : Stands m off (htonl (wordAt m off)) := by
  unfold wordAt
  rw [htonl_of_octets]
  intro i hi
  match i with
  | 0 | 1 | 2 | 3 => rfl

/-! ### What is to be sent -/

/-- Octets with zeros up to the next word behind them. -/
def padded (bs : CStr) : CStr := bs ++ List.replicate (roundUp bs.length - bs.length) 0

/-- The octets a pointer with a length points to. -/
def pointed (src : Option Memory) (len : BitVec 32) : CStr :=
  match src with
  | none => []
  | some p => octetsAt p 0 len.toNat

/-- A pointer is there, or not needed. -/
def Present (src : Option Memory) (len : BitVec 32) : Prop := len ≠ 0 → src.isSome = true

/-- The length of the field, without a bound. -/
def fieldSize (vp : StructValue) : Nat := 24 + roundUp vp.vallen.toNat + roundUp vp.siglen.toNat

/-- The field: the header, the stamps, the value and the signature. -/
def sentField (opcode associd : BitVec 32) (vp : StructValue) : CStr :=
  htonl (opcode &&& 0xffff0000 ||| BitVec.ofNat 32 (fieldSize vp)) ++ htonl associd ++
    htonl vp.tstamp ++ htonl vp.fstamp ++ htonl vp.vallen ++ padded (pointed vp.ptr vp.vallen) ++
    htonl vp.siglen ++ padded (pointed vp.sig vp.siglen)

/-- The field is in the packet, nothing behind it has changed, and the receiver
    finds the length, the value and the signature. -/
structure Emitted (m m' : Memory) (vp : StructValue) : Prop where
  octets : octetsAt m' 0 (fieldSize vp) = sentField (wordAt m 0) (wordAt m 4) vp
  behind : ∀ a, fieldSize vp ≤ a → m' a = m a
  len : lenOf m' = fieldSize vp
  vallen : vallenOf m' = vp.vallen
  value : octetsAt m' 20 vp.vallen.toNat = pointed vp.ptr vp.vallen
  siglen : siglenOf m' = vp.siglen
  sig : octetsAt m' (siglenOff (vallenOf m') + 4) vp.siglen.toNat = pointed vp.sig vp.siglen

/-- The field leaves room for a MAC. -/
def HasRoom (vp : StructValue) (start : Nat) : Prop :=
  start + fieldSize vp ≤ SIZEOF_PKT - MAX_MAC_LEN

instance (vp : StructValue) (start : Nat) : Decidable (HasRoom vp start) :=
  inferInstanceAs (Decidable (_ ≤ _))

/-- The field is sent as it is to be, or nothing is done for want of room. -/
def SendsExactly (m : Memory) (vp : StructValue) (start : Nat) : Prop :=
  if HasRoom vp start then
    (cryptoSend m vp start).1 = fieldSize vp ∧ Emitted m (cryptoSend m vp start).2 vp
  else cryptoSend m vp start = (0, m)

theorem length_pointed {src : Option Memory} {len : BitVec 32} (h : Present src len) :
    (pointed src len).length = len.toNat := by
  unfold pointed
  cases src with
  | none =>
    by_cases hlen : len = 0
    · rw [hlen]
      rfl
    · exact absurd (h hlen) (by simp)
  | some p => simp [octetsAt]

theorem le_roundUp (n : Nat) : n ≤ roundUp n := by
  unfold roundUp
  omega

theorem length_padded (bs : CStr) : (padded bs).length = roundUp bs.length := by
  unfold padded
  rw [length_append, length_replicate]
  exact Nat.add_sub_cancel' (le_roundUp _)

/-! ### A copy -/

section Copy

variable {m : Memory} {i : Nat} {vallen len : BitVec 32} {src : Option Memory}

/-- The memory after the word behind a copy has been cleared. -/
def cleared (m : Memory) (i : Nat) (vallen len : BitVec 32) : Memory :=
  if (vallen / 4 * 4).slt len then putWord m (pktOff (i + (vallen / 4).toNat)) 0 else m

theorem copyPart_empty (h : len = 0) : copyPart m i vallen len src = (m, i) := by
  cases src with
  | none => rfl
  | some p => exact if_pos h

theorem copyPart_some (p : Memory) (h : len ≠ 0) :
    (copyPart m i vallen len (some p)).1 =
      store (cleared m i vallen len) (pktOff i) (octetsAt p 0 len.toNat) := by
  unfold copyPart cleared
  simp only [if_neg h]
  split_ifs <;> rfl

/-- The memory after a copy is that before, or a copy over a memory in which a word
    has been cleared. -/
theorem copyPart_cases (m : Memory) (i : Nat) (vallen : BitVec 32) (h : Present src len) :
    (len = 0 ∧ copyPart m i vallen len src = (m, i)) ∨
      (len ≠ 0 ∧ (copyPart m i vallen len src).1 =
        store (cleared m i vallen len) (pktOff i) (pointed src len)) := by
  by_cases hlen : len = 0
  · exact .inl ⟨hlen, copyPart_empty hlen⟩
  · obtain ⟨p, rfl⟩ := Option.isSome_iff_exists.mp (h hlen)
    exact .inr ⟨hlen, copyPart_some p hlen⟩

theorem copyPart_before (h : Present src len) {a : Nat} (ha : a < pktOff i) :
    (copyPart m i vallen len src).1 a = m a := by
  rcases copyPart_cases m i vallen h with ⟨-, hcopy⟩ | ⟨-, hcopy⟩
  · rw [hcopy]
  · rw [hcopy, store_of_lt ha]
    unfold cleared
    split_ifs
    · exact store_of_lt (by unfold pktOff at ha ⊢; omega)
    · rfl

section Small

variable (hlen : len.toNat < 2 ^ 31) (hval : vallen.toNat < 2 ^ 31)

include hlen hval

/-- Numbers with the highest bit clear compare as they should. -/
theorem slt_iff_of_small : (vallen / 4 * 4).slt len = true ↔ vallen.toNat / 4 * 4 < len.toNat := by
  have hfour : BitVec.toNat (4 : BitVec 32) = 4 := rfl
  have hprod : (vallen / 4 * 4).toNat = vallen.toNat / 4 * 4 := by
    rw [BitVec.toNat_mul, BitVec.toNat_udiv, hfour]
    omega
  rw [BitVec.slt_eq_decide, decide_eq_true_iff, BitVec.toInt_eq_toNat_of_lt (by omega),
    BitVec.toInt_eq_toNat_of_lt (by omega)]
  omega

/-- A word is cleared if there is one that the length goes beyond. -/
theorem cleared_eq :
    cleared m i vallen len =
      if vallen.toNat / 4 * 4 < len.toNat then putWord m (pktOff i + vallen.toNat / 4 * 4) 0
      else m := by
  unfold cleared
  have hoff : pktOff (i + (vallen / 4).toNat) = pktOff i + vallen.toNat / 4 * 4 := by
    unfold pktOff
    rw [BitVec.toNat_udiv, show BitVec.toNat (4 : BitVec 32) = 4 from rfl]
    omega
  rw [hoff]
  simp only [slt_iff_of_small hlen hval]

theorem copyPart_behind (h : Present src len) {a : Nat} (ha : pktOff i + roundUp len.toNat ≤ a) :
    (copyPart m i vallen len src).1 a = m a := by
  rcases copyPart_cases m i vallen h with ⟨-, hcopy⟩ | ⟨-, hcopy⟩
  · rw [hcopy]
  · rw [hcopy, store_of_le (by rw [length_pointed h]; have := le_roundUp len.toNat; omega),
      cleared_eq hlen hval]
    split_ifs with hclear
    · exact store_of_le (by rw [length_htonl]; unfold roundUp at ha; omega)
    · rfl

/-- A copy has zeros behind it if the word that is cleared is its last, or if it
    ends with a word. -/
theorem copyPart_stands (h : Present src len)
    (hpad : len.toNat % 4 = 0 ∨ vallen.toNat / 4 = len.toNat / 4) :
    Stands (copyPart m i vallen len src).1 (pktOff i) (padded (pointed src len)) := by
  have hbs := length_pointed h
  rcases copyPart_cases m i vallen h with ⟨hzero, -⟩ | ⟨-, hcopy⟩
  · have hnil : pointed src len = [] := eq_nil_of_length_eq_zero (by rw [hbs, hzero]; rfl)
    rw [hnil]
    exact stands_nil
  · rw [hcopy]
    refine stands_append.mpr ⟨stands_store, ?_⟩
    intro k hk
    rw [length_replicate] at hk
    rw [getElem_replicate, store_of_le (by omega), cleared_eq hlen hval, hbs]
    unfold roundUp at hk
    -- There is something to fill, so the last word is the one that was cleared.
    rw [if_pos (by omega)]
    have hzeros : Stands (putWord m (pktOff i + vallen.toNat / 4 * 4) 0)
      (pktOff i + vallen.toNat / 4 * 4) (List.replicate 4 0) := stands_store
    have hword := hzeros (len.toNat % 4 + k) (by rw [length_replicate]; omega)
    rw [show pktOff i + vallen.toNat / 4 * 4 + (len.toNat % 4 + k) = pktOff i + len.toNat + k by
      omega] at hword
    rw [hword, getElem_replicate]

/-- Otherwise the first octet behind the copy is what it was. -/
theorem copyPart_stale (h : Present src len) (hword : vallen.toNat / 4 ≠ len.toNat / 4) :
    (copyPart m i vallen len src).1 (pktOff i + len.toNat) = m (pktOff i + len.toNat) := by
  rcases copyPart_cases m i vallen h with ⟨-, hcopy⟩ | ⟨-, hcopy⟩
  · rw [hcopy]
  · rw [hcopy, store_of_le (by rw [length_pointed h]), cleared_eq hlen hval]
    split_ifs with hclear
    · exact store_of_le (by rw [length_htonl]; omega)
    · rfl

end Small

/-- The index behind a copy that is found by its own length. -/
theorem copyPart_index (h : Present src len) (hlen : len.toNat < 2 ^ 31) :
    pktOff (copyPart m i len len src).2 = pktOff i + roundUp len.toNat := by
  by_cases hzero : len = 0
  · rw [copyPart_empty hzero, hzero]
    rfl
  · obtain ⟨p, rfl⟩ := Option.isSome_iff_exists.mp (h hzero)
    have hslt := slt_iff_of_small hlen hlen
    unfold copyPart pktOff roundUp
    simp only [if_neg hzero, hslt]
    rw [BitVec.toNat_udiv, show BitVec.toNat (4 : BitVec 32) = 4 from rfl]
    split_ifs <;> (omega)

end Copy

/-! ### A field -/

section Send

variable {m : Memory} {vp : StructValue} {start : Nat}

/-- The length the source computes is that of the field, in 32 bits. -/
theorem sendLen_eq (vp : StructValue) :
    sendLen vp.vallen vp.siglen = BitVec.ofNat 32 (fieldSize vp) := by
  have hfour : BitVec.toNat (4 : BitVec 32) = 4 := rfl
  have hone : BitVec.toNat (1 : BitVec 32) = 1 := rfl
  have hsixteen : BitVec.toNat (16 : BitVec 32) = 16 := rfl
  apply BitVec.eq_of_toNat_eq
  simp only [sendLen, BitVec.toNat_add, BitVec.toNat_mul, words_toNat, hfour, hone, hsixteen,
    BitVec.toNat_ofNat, fieldSize, roundUp]
  have hs := vp.siglen.isLt
  omega

theorem sendLen_toNat :
    (BitVec.ofNat 32 start + sendLen vp.vallen vp.siglen).toNat =
      (start + fieldSize vp) % 2 ^ 32 := by
  rw [sendLen_eq, BitVec.toNat_add, BitVec.toNat_ofNat, BitVec.toNat_ofNat, ← Nat.add_mod]

theorem HasRoom.small (h : HasRoom vp start) :
    vp.vallen.toNat < 2 ^ 31 ∧ vp.siglen.toNat < 2 ^ 31 := by
  have hsize : start + fieldSize vp ≤ 2096 := h
  have hv := le_roundUp vp.vallen.toNat
  have hs := le_roundUp vp.siglen.toNat
  unfold fieldSize at hsize
  omega

theorem HasRoom.pass (h : HasRoom vp start) :
    (start + fieldSize vp) % 2 ^ 32 ≤ SIZEOF_PKT - MAX_MAC_LEN :=
  (Nat.mod_le _ _).trans h

/-- The memory with the stamps and the length of the value. -/
def stamped (m : Memory) (vp : StructValue) : Memory :=
  putWord (putWord (putWord m 8 vp.tstamp) 12 vp.fstamp) 16 vp.vallen

/-- The memory before the length of the field is put into the header. -/
def sentBody (m : Memory) (vp : StructValue) : Memory :=
  let value := copyPart (stamped m vp) 0 vp.vallen vp.vallen vp.ptr
  (copyPart (putWord value.1 (pktOff value.2) vp.siglen) (value.2 + 1) vp.vallen vp.siglen vp.sig).1

theorem cryptoSend_eq (hpass : (start + fieldSize vp) % 2 ^ 32 ≤ SIZEOF_PKT - MAX_MAC_LEN) :
    cryptoSend m vp start =
      ((BitVec.ofNat 32 (fieldSize vp)).toInt, putWord (sentBody m vp) 0
        (wordAt (sentBody m vp) 0 &&& 0xffff0000 ||| BitVec.ofNat 32 (fieldSize vp))) := by
  rw [← sendLen_eq]
  unfold cryptoSend
  simp only [sendLen_toNat]
  exact if_neg (not_lt.mpr hpass)

theorem cryptoSend_refused (hfull : SIZEOF_PKT - MAX_MAC_LEN < (start + fieldSize vp) % 2 ^ 32) :
    cryptoSend m vp start = (0, m) := by
  unfold cryptoSend
  simp only [sendLen_toNat]
  exact if_pos hfull

theorem sentBody_eq (m : Memory) (hptr : Present vp.ptr vp.vallen)
    (hval : vp.vallen.toNat < 2 ^ 31) :
    ∃ (m' : Memory) (i : Nat), pktOff i = 20 + roundUp vp.vallen.toNat ∧
      Stands m' 20 (padded (pointed vp.ptr vp.vallen)) ∧
      (∀ a, 20 + roundUp vp.vallen.toNat ≤ a → m' a = m a) ∧
      sentBody m vp =
        (copyPart (putWord m' (pktOff i) vp.siglen) (i + 1) vp.vallen vp.siglen vp.sig).1 := by
  refine ⟨(copyPart (stamped m vp) 0 vp.vallen vp.vallen vp.ptr).1, _, copyPart_index hptr hval,
    copyPart_stands hval hval hptr (.inr rfl), ?_, rfl⟩
  intro a ha
  rw [copyPart_behind hval hval hptr ha]
  unfold stamped putWord
  rw [store_of_le (by rw [length_htonl]; omega), store_of_le (by rw [length_htonl]; omega),
    store_of_le (by rw [length_htonl]; omega)]

section Body

variable (hptr : Present vp.ptr vp.vallen) (hsig : Present vp.sig vp.siglen)

include hptr hsig

theorem sentBody_before {a : Nat} (ha : a < 20) : sentBody m vp a = stamped m vp a := by
  unfold sentBody
  rw [copyPart_before hsig (by unfold pktOff; omega)]
  unfold putWord
  rw [store_of_lt (by unfold pktOff; omega), copyPart_before hptr (by unfold pktOff; omega)]

theorem sentBody_header {a : Nat} (ha : a < 8) : sentBody m vp a = m a := by
  rw [sentBody_before hptr hsig (by omega)]
  unfold stamped putWord
  rw [store_of_lt (by omega), store_of_lt (by omega), store_of_lt (by omega)]

theorem sentBody_stamps :
    Stands (sentBody m vp) 8 (htonl vp.tstamp ++ htonl vp.fstamp ++ htonl vp.vallen) := by
  have hstamped :
      Stands (stamped m vp) 8 (htonl vp.tstamp ++ htonl vp.fstamp ++ htonl vp.vallen) := by
    refine stands_append.mpr ⟨stands_append.mpr ⟨?_, ?_⟩, stands_store⟩
    · exact (stands_store.store (.inl le_rfl)).store (.inl (by rw [length_htonl]; omega))
    · exact stands_store.store (.inl le_rfl)
  exact hstamped.congr fun a _ ha => sentBody_before hptr hsig ha

/-- The value with its zeros, and the length of the signature. -/
theorem sentBody_value (hval : vp.vallen.toNat < 2 ^ 31) :
    Stands (sentBody m vp) 20 (padded (pointed vp.ptr vp.vallen) ++ htonl vp.siglen) := by
  obtain ⟨m', i, hoff, hvalue, -, hbody⟩ := sentBody_eq m hptr hval
  have hend : (padded (pointed vp.ptr vp.vallen)).length = roundUp vp.vallen.toNat := by
    rw [length_padded, length_pointed hptr]
  have hword : Stands (putWord m' (pktOff i) vp.siglen) 20
      (padded (pointed vp.ptr vp.vallen) ++ htonl vp.siglen) := by
    refine stands_append.mpr ⟨hvalue.store (.inl (by omega)), ?_⟩
    rw [hend, ← hoff]
    exact stands_store
  rw [hbody]
  refine hword.congr fun a _ ha => copyPart_before hsig ?_
  rw [length_append, hend, length_htonl] at ha
  unfold pktOff at hoff ⊢
  omega

section Small

variable (hval : vp.vallen.toNat < 2 ^ 31) (hlen : vp.siglen.toNat < 2 ^ 31)

include hval hlen

theorem sentBody_sig (hpad : vp.siglen.toNat % 4 = 0 ∨ vp.vallen.toNat / 4 = vp.siglen.toNat / 4) :
    Stands (sentBody m vp) (24 + roundUp vp.vallen.toNat) (padded (pointed vp.sig vp.siglen)) := by
  obtain ⟨m', i, hoff, -, -, hbody⟩ := sentBody_eq m hptr hval
  rw [hbody, show 24 + roundUp vp.vallen.toNat = pktOff (i + 1) by unfold pktOff at hoff ⊢; omega]
  exact copyPart_stands hlen hval hsig hpad

theorem sentBody_behind {a : Nat} (ha : fieldSize vp ≤ a) : sentBody m vp a = m a := by
  obtain ⟨m', i, hoff, -, hbehind, hbody⟩ := sentBody_eq m hptr hval
  unfold fieldSize at ha
  rw [hbody, copyPart_behind hlen hval hsig (by unfold pktOff at hoff ⊢; omega)]
  unfold putWord
  rw [store_of_le (by rw [length_htonl]; omega)]
  exact hbehind a (by omega)

/-- The first octet behind the signature is what it was if another word has been cleared. -/
theorem sentBody_stale (hword : vp.vallen.toNat / 4 ≠ vp.siglen.toNat / 4) :
    sentBody m vp (24 + roundUp vp.vallen.toNat + vp.siglen.toNat) =
      m (24 + roundUp vp.vallen.toNat + vp.siglen.toNat) := by
  obtain ⟨m', i, hoff, -, hbehind, hbody⟩ := sentBody_eq m hptr hval
  rw [hbody, show 24 + roundUp vp.vallen.toNat = pktOff (i + 1) by unfold pktOff at hoff ⊢; omega,
    copyPart_stale hlen hval hsig hword]
  unfold putWord
  rw [store_of_le (by rw [length_htonl]; unfold pktOff; omega)]
  exact hbehind _ (by unfold pktOff at hoff ⊢; omega)

end Small

end Body

theorem fieldLen_or {x l : BitVec 32} (h : l.toNat < 2 ^ 16) :
    fieldLen (x &&& 0xffff0000 ||| l) = l.toNat := by
  unfold fieldLen
  have hlow : l &&& 0xffff = l := by
    apply BitVec.eq_of_toNat_eq
    rw [BitVec.toNat_and]
    exact (Nat.and_two_pow_sub_one_eq_mod l.toNat 16).trans (Nat.mod_eq_of_lt h)
  rw [BitVec.and_or_distrib_right, BitVec.and_assoc,
    show (0xffff0000 : BitVec 32) &&& 0xffff = 0#32 from rfl, BitVec.and_zero, BitVec.zero_or, hlow]

theorem length_sentField (opcode associd : BitVec 32) (hptr : Present vp.ptr vp.vallen)
    (hsig : Present vp.sig vp.siglen) : (sentField opcode associd vp).length = fieldSize vp := by
  unfold sentField fieldSize
  simp only [length_append, length_htonl, length_padded, length_pointed hptr, length_pointed hsig]
  omega

theorem sentField_stands (hptr : Present vp.ptr vp.vallen) (hsig : Present vp.sig vp.siglen)
    (hval : vp.vallen.toNat < 2 ^ 31) (hlen : vp.siglen.toNat < 2 ^ 31)
    (hpad : vp.siglen.toNat % 4 = 0 ∨ vp.vallen.toNat / 4 = vp.siglen.toNat / 4) :
    Stands (putWord (sentBody m vp) 0
        (wordAt m 0 &&& 0xffff0000 ||| BitVec.ofNat 32 (fieldSize vp))) 0
      (sentField (wordAt m 0) (wordAt m 4) vp) := by
  have hassoc : Stands (sentBody m vp) 4 (htonl (wordAt m 4)) :=
    (stands_wordAt m 4).congr fun a _ ha => sentBody_header hptr hsig ha
  have hvalue := sentBody_value (m := m) hptr hsig hval
  have hsigned := sentBody_sig (m := m) hptr hsig hval hlen hpad
  have hend : (padded (pointed vp.ptr vp.vallen)).length = roundUp vp.vallen.toNat := by
    rw [length_padded, length_pointed hptr]
  rw [stands_append] at hvalue
  unfold sentField
  refine stands_append.mpr ⟨stands_append.mpr ⟨stands_append.mpr ⟨?_, ?_⟩, ?_⟩, ?_⟩
  · rw [append_assoc, append_assoc, append_assoc, ← append_assoc (htonl vp.tstamp)]
    refine stands_append.mpr ⟨stands_store, stands_append.mpr ⟨?_, ?_⟩⟩
    · exact hassoc.store (.inr (by rw [length_htonl]))
    · exact (sentBody_stamps hptr hsig).store (.inr (by rw [length_htonl]; omega))
  all_goals simp only [length_append, length_htonl, hend]
  · exact hvalue.1.store (.inr (by rw [length_htonl]; omega))
  · rw [hend] at hvalue
    rw [show 0 + (4 + 4 + 4 + 4 + 4 + roundUp vp.vallen.toNat) = 20 + roundUp vp.vallen.toNat by
      omega]
    exact hvalue.2.store (.inr (by rw [length_htonl]; omega))
  · rw [show 0 + (4 + 4 + 4 + 4 + 4 + roundUp vp.vallen.toNat + 4) =
      24 + roundUp vp.vallen.toNat by omega]
    exact hsigned.store (.inr (by rw [length_htonl]; omega))

theorem octetsAt_pointed {m : Memory} {off : Nat} {src : Option Memory} {len : BitVec 32}
    (h : Stands m off (padded (pointed src len))) (hsrc : Present src len) :
    octetsAt m off len.toNat = pointed src len := by
  rw [← length_pointed hsrc]
  exact (stands_append.mp h).1.octetsAt_eq

theorem cryptoSend_emitted (hptr : Present vp.ptr vp.vallen) (hsig : Present vp.sig vp.siglen)
    (hroom : HasRoom vp start)
    (hpad : vp.siglen.toNat % 4 = 0 ∨ vp.vallen.toNat / 4 = vp.siglen.toNat / 4) :
    (cryptoSend m vp start).1 = fieldSize vp ∧ Emitted m (cryptoSend m vp start).2 vp := by
  have hsize : start + fieldSize vp ≤ 2096 := hroom
  obtain ⟨hval, hlen⟩ := hroom.small
  have hword : wordAt (sentBody m vp) 0 = wordAt m 0 := by
    refine wordAt_of_stands ((stands_wordAt m 0).congr fun a _ ha => ?_)
    exact sentBody_header hptr hsig (by rw [length_htonl] at ha; omega)
  have hfield := sentField_stands (m := m) hptr hsig hval hlen hpad
  rw [cryptoSend_eq hroom.pass, hword]
  generalize hm : putWord (sentBody m vp) 0
    (wordAt m 0 &&& 0xffff0000 ||| BitVec.ofNat 32 (fieldSize vp)) = m' at hfield ⊢
  change (BitVec.ofNat 32 (fieldSize vp)).toInt = _ ∧ Emitted m m' vp
  have hsent := hfield.octetsAt_eq
  rw [length_sentField _ _ hptr hsig] at hsent
  -- The receiver looks for the parts where they stand.
  simp only [sentField, stands_append, length_append, length_htonl, length_padded,
    length_pointed hptr, zero_add, Nat.reduceAdd] at hfield
  obtain ⟨⟨⟨⟨⟨⟨⟨hopcode, -⟩, -⟩, -⟩, hvallen⟩, hvalue⟩, hsiglen⟩, hsigned⟩ := hfield
  have hvallen' : vallenOf m' = vp.vallen := wordAt_of_stands hvallen
  have hoff : siglenOff (vallenOf m') = 20 + roundUp vp.vallen.toNat := by
    rw [hvallen', siglenOff_eq]
    unfold roundUp
    omega
  have hsize' : (BitVec.ofNat 32 (fieldSize vp)).toNat = fieldSize vp := by
    rw [BitVec.toNat_ofNat]
    omega
  refine ⟨?_, ⟨hsent, ?_, ?_, hvallen', octetsAt_pointed hvalue hptr, ?_, ?_⟩⟩
  · rw [BitVec.toInt_eq_toNat_of_lt (by omega), hsize']
  · intro a ha
    rw [← hm]
    unfold putWord
    rw [store_of_le (by rw [length_htonl]; unfold fieldSize at ha; omega),
      sentBody_behind hptr hsig hval hlen ha]
  · unfold lenOf
    rw [wordAt_of_stands hopcode, fieldLen_or (by omega), hsize']
  · unfold siglenOf
    rw [hoff]
    exact wordAt_of_stands hsiglen
  · rw [hoff]
    exact octetsAt_pointed hsigned hsig

/-- What the lengths must be like: a field without room is seen to have none
    although its length is computed in 32 bits, and a signature ends with a word, or
    in the word that the length of the value gives. -/
def SendOk (vp : StructValue) (start : Nat) : Prop :=
  if HasRoom vp start then
    vp.siglen.toNat % 4 = 0 ∨ vp.vallen.toNat / 4 = vp.siglen.toNat / 4
  else SIZEOF_PKT - MAX_MAC_LEN < (start + fieldSize vp) % 2 ^ 32

instance (vp : StructValue) (start : Nat) : Decidable (SendOk vp start) :=
  inferInstanceAs (Decidable (if HasRoom vp start then _ ∨ _ else _ < _))

/-- Behind the first word the length of the field makes no difference. -/
theorem cryptoSend_octet (hpass : (start + fieldSize vp) % 2 ^ 32 ≤ SIZEOF_PKT - MAX_MAC_LEN)
    {a : Nat} (ha : 4 ≤ a) : (cryptoSend m vp start).2 a = sentBody m vp a := by
  rw [cryptoSend_eq hpass]
  change store _ 0 _ a = _
  exact store_of_le (by rw [length_htonl]; omega)

section

variable (hptr : Present vp.ptr vp.vallen) (hsig : Present vp.sig vp.siglen)

include hptr hsig

/-- The first octet of the timestamp is stored wherever the check lets a field pass. -/
theorem cryptoSend_tstamp (hpass : (start + fieldSize vp) % 2 ^ 32 ≤ SIZEOF_PKT - MAX_MAC_LEN)
    (m : Memory) : (cryptoSend m vp start).2 8 = (vp.tstamp >>> 24).setWidth 8 := by
  rw [cryptoSend_octet hpass (by omega)]
  exact sentBody_stamps hptr hsig 0 (by simp)

/-- So a field that passes for want of a wider sum changes the packet. -/
theorem cryptoSend_overflow (hpass : (start + fieldSize vp) % 2 ^ 32 ≤ SIZEOF_PKT - MAX_MAC_LEN) :
    ∃ m, cryptoSend m vp start ≠ (0, m) := by
  by_contra hnone
  push Not at hnone
  have hstamp := cryptoSend_tstamp hptr hsig hpass
  have hzero := hstamp fun _ => 0
  have hone := hstamp fun _ => 1
  rw [hnone] at hzero hone
  exact absurd (hzero.trans hone.symm) (by decide)

/-- An octet behind a signature is sent as it was if another word has been cleared. -/
theorem cryptoSend_stale (hroom : HasRoom vp start)
    (hword : vp.vallen.toNat / 4 ≠ vp.siglen.toNat / 4) (m : Memory) :
    (cryptoSend m vp start).2 (24 + roundUp vp.vallen.toNat + vp.siglen.toNat) =
      m (24 + roundUp vp.vallen.toNat + vp.siglen.toNat) := by
  obtain ⟨hval, hlen⟩ := hroom.small
  rw [cryptoSend_octet hroom.pass (by omega)]
  exact sentBody_stale hptr hsig hval hlen hword

/-- So the field is not the same for all packets, although the headers are. -/
theorem not_emitted_of_stale (hroom : HasRoom vp start) (hpart : vp.siglen.toNat % 4 ≠ 0)
    (hword : vp.vallen.toNat / 4 ≠ vp.siglen.toNat / 4) :
    ∃ m, ¬ Emitted m (cryptoSend m vp start).2 vp := by
  by_contra hall
  push Not at hall
  obtain ⟨a, ha⟩ : ∃ a, a = 24 + roundUp vp.vallen.toNat + vp.siglen.toNat := ⟨_, rfl⟩
  have hinside : a < fieldSize vp := by
    unfold fieldSize roundUp at *
    omega
  have hstale := cryptoSend_stale hptr hsig hroom hword
  rw [← ha] at hstale
  -- Two packets with the same header and another octet behind the signature.
  obtain ⟨m, hm⟩ : ∃ m : Memory, m = fun _ => 0 := ⟨_, rfl⟩
  have hsame : ∀ off, off + 4 ≤ 8 → wordAt (update m a 1) off = wordAt m off := by
    intro off hoff
    unfold wordAt
    rw [update_of_ne (by omega), update_of_ne (by omega),
      update_of_ne (by omega), update_of_ne (by omega)]
  have hfields : octetsAt (cryptoSend (update m a 1) vp start).2 0 (fieldSize vp) =
      octetsAt (cryptoSend m vp start).2 0 (fieldSize vp) := by
    rw [(hall m).octets, (hall _).octets, hsame 0 (by omega), hsame 4 (by omega)]
  have hoctet := map_inj_left.mp hfields a (mem_range.mpr hinside)
  rw [zero_add, hstale, hstale, update_self, hm] at hoctet
  exact absurd hoctet (show ¬ (1 : BitVec 8) = 0 by decide)

end

end Send

/-- For every value structure with its pointers, and every offset: whatever the
    packet has in it, `crypto_send` sends exactly the field, or nothing for want of
    room, if and only if the lengths are as in `SendOk`. -/
theorem send_exact_iff (vp : StructValue) (start : Nat) (hptr : Present vp.ptr vp.vallen)
    (hsig : Present vp.sig vp.siglen) : (∀ m, SendsExactly m vp start) ↔ SendOk vp start := by
  unfold SendsExactly SendOk
  split_ifs with hroom
  · constructor
    · intro h
      by_contra hbad
      push Not at hbad
      obtain ⟨m, hm⟩ := not_emitted_of_stale hptr hsig hroom hbad.1 hbad.2
      exact hm (h m).2
    · intro hpad m
      exact cryptoSend_emitted hptr hsig hroom hpad
  · constructor
    · intro h
      by_contra hpass
      obtain ⟨m, hm⟩ := cryptoSend_overflow hptr hsig (not_lt.mp hpass)
      exact hm (h m)
    · intro hfull m
      exact cryptoSend_refused hfull

/-- A value and a signature of the given lengths, of octets 0x11 and 0x22. -/
def plainValue (vallen siglen : BitVec 32) : StructValue where
  tstamp := 1
  fstamp := 1
  vallen := vallen
  ptr := some fun _ => 0x11
  siglen := siglen
  sig := some fun _ => 0x22

theorem send_exact_iff_plainValue :
    HasRoom (plainValue 5 7) 48 ∧ ∀ m, SendsExactly m (plainValue 5 7) 48 :=
  ⟨by decide, (send_exact_iff (plainValue 5 7) 48 (fun _ => rfl) fun _ => rfl).mpr (by decide)⟩

/-- Behind a signature of one octet and a value of eight the packet keeps three
    octets of 0xff. And a value of 2 ^ 32 - 3 octets passes for one of none. -/
theorem send_inexact :
    let packet : Memory := fun _ => 0xff
    (octetsAt (cryptoSend packet (plainValue 8 1) 48).2 28 8 =
        [0, 0, 0, 1, 0x22, 0xff, 0xff, 0xff] ∧
      ¬ SendsExactly packet (plainValue 8 1) 48) ∧
    (cryptoSend packet (plainValue 0xfffffffd 0) 48).1 = 24 ∧
      ¬ SendsExactly packet (plainValue 0xfffffffd 0) 48 := by
  refine ⟨⟨by decide, fun h => ?_⟩, by decide, fun h => ?_⟩
  · unfold SendsExactly at h
    rw [if_pos (by decide)] at h
    exact absurd h.2.octets (by decide)
  · unfold SendsExactly at h
    rw [if_neg (by decide)] at h
    exact absurd (congrArg Prod.fst h) (by decide)

end NtpSuite.Exten
