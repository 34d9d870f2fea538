import NtpSuite.Core.Exten
import NtpSuite.Theory.Framing

/-!
# Checking a Response

`crypto_verify` looks up the length of the signature behind the value before
it has checked the length of the value, and checks both lengths with a sum of
32 bits. So it can read a word anywhere in the sixteen gigabytes after the
field, and it can accept lengths whose sum is far beyond the field: a value
length of `0xffffffff` takes no words at all when it is rounded up, and a long
signature length makes the sum wrap around. In a certificate response nothing
else is checked.

`verify_safe_iff` says when the function stays inside the field and believes
the right lengths: the word with the signature length is in the field, and the
sum of the lengths does not wrap around unless a later check rejects the field.
Then the functions that take the value stay inside too.

## Main definitions

* `HeaderOk`: The checks before the signature length is read.
* `SiglenInside`, `SumSmall`: The conditions on the two lengths.
* `Passes`: The checks afterwards.
* `VerifySafe`: What is to be shown.

## Theorems

* `cryptoVerify_ok_iff`: When a response is accepted.
* `cryptoVerify_inside_iff`: When the check stays inside the field.
* `installResponse_inside`: The value of a response whose lengths fit.
* `verify_safe_iff`: When all is well.
-/

namespace NtpSuite.Exten

open Reading

/-! ### Lengths -/

/-- A length rounded up to words, in octets. -/
def roundUp (n : Nat) : Nat := (n + 3) / 4 * 4

theorem words_toNat (n : BitVec 32) : (words n).toNat = (n.toNat + 3) % 2 ^ 32 / 4 := by
  simp [words, BitVec.toNat_udiv, BitVec.toNat_add]

theorem siglenOff_eq (vallen : BitVec 32) :
    siglenOff vallen = 20 + 4 * ((vallen.toNat + 3) % 2 ^ 32 / 4) := by
  rw [siglenOff, words_toNat]

theorem lengthsOk_iff (len : Nat) (vallen siglen : BitVec 32) :
    lengthsOk len vallen siglen = true ↔
      (24 + (vallen.toNat + 3) % 2 ^ 32 / 4 * 4 + (siglen.toNat + 3) % 2 ^ 32 / 4 * 4) % 2 ^ 32 ≤
        len := by
  unfold lengthsOk
  rw [decide_eq_true_iff]
  have hfour : BitVec.toNat (4 : BitVec 32) = 4 := rfl
  simp only [BitVec.toNat_add, BitVec.toNat_mul, words_toNat, VALUE_LEN, BitVec.toNat_ofNat, hfour]
  omega

theorem signedLen_eq (vallen : BitVec 32) : signedLen vallen = (vallen.toNat + 12) % 2 ^ 32 := by
  simp [signedLen, BitVec.toNat_add]

theorem fieldLen_lt (opcode : BitVec 32) : fieldLen opcode < 2 ^ 16 := by
  exact Nat.lt_of_le_of_lt Nat.and_le_right (by decide)

/-! ### A field in memory -/

section Field

variable (m : Memory)

/-- The declared length of the field at the start of the memory. -/
def lenOf : Nat := fieldLen (wordAt m 0)

/-- Its code. -/
def codeOf : BitVec 32 := fieldCode (wordAt m 0)

/-- The length of the value. -/
def vallenOf : BitVec 32 := wordAt m 16

/-- The length of the signature, where the source looks for it. -/
def siglenOf : BitVec 32 := wordAt m (siglenOff (vallenOf m))

/-- The word with the length of the signature is in the field. -/
def SiglenInside : Prop := siglenOff (vallenOf m) + 4 ≤ lenOf m

/-- The sum of the lengths fits 32 bits. -/
def SumSmall : Prop :=
  VALUE_LEN + roundUp (vallenOf m).toNat + roundUp (siglenOf m).toNat < 2 ^ 32

/-- The header, the value and the signature fit the field. -/
def LengthsFit : Prop :=
  VALUE_LEN + roundUp (vallenOf m).toNat + roundUp (siglenOf m).toNat ≤ lenOf m

instance : Decidable (SiglenInside m) := inferInstanceAs (Decidable (_ ≤ _))
instance : Decidable (SumSmall m) := inferInstanceAs (Decidable (_ < _))
instance : Decidable (LengthsFit m) := inferInstanceAs (Decidable (_ ≤ _))

variable {m}

/-- The check of the lengths is right as long as the sum does not wrap around. -/
theorem lengthsFit_iff (hok : lengthsOk (lenOf m) (vallenOf m) (siglenOf m) = true) :
    LengthsFit m ↔ SumSmall m := by
  unfold LengthsFit SumSmall roundUp VALUE_LEN
  rw [lengthsOk_iff] at hok
  have hlen : lenOf m < 2 ^ 16 := fieldLen_lt _
  omega

theorem signed_inside (hin : SiglenInside m) : 8 + signedLen (vallenOf m) ≤ lenOf m := by
  unfold SiglenInside at hin
  rw [siglenOff_eq] at hin
  rw [signedLen_eq]
  omega

theorem sig_inside (hin : SiglenInside m)
    (hok : lengthsOk (lenOf m) (vallenOf m) (siglenOf m) = true)
    (hs : (siglenOf m).toNat < 2 ^ 31) :
    siglenOff (vallenOf m) + 4 + (siglenOf m).toNat ≤ lenOf m := by
  unfold SiglenInside at hin
  rw [lengthsOk_iff] at hok
  rw [siglenOff_eq] at hin ⊢
  have hlt : lenOf m < 2 ^ 16 := fieldLen_lt _
  omega

end Field

/-! ### The checks -/

theorem checkKey_error {host : Host} {peer : CryptoPeer} {siglen : BitVec 32} {rval : Xevnt}
    (h : checkKey host peer siglen = .error rval) : rval ≠ .ok := by
  unfold checkKey at h
  split at h
  · cases h
    decide
  · split_ifs at h
    · cases h
      decide
    · cases h
      decide

/-- A signature that is verified has the length of the key. -/
theorem checkKey_ok {host : Host} {peer : CryptoPeer} {siglen : BitVec 32} {pkey : PubKey}
    (h : checkKey host peer siglen = .ok pkey) : siglen ≠ 0 ∧ siglen.toNat < 2 ^ 31 := by
  unfold checkKey at h
  split at h
  · cases h
  · split_ifs at h with hnone hsize
    cases h
    exact ⟨fun hz => hnone (.inl hz), by rw [not_not.mp hsize]; exact pkey.size_lt⟩

section Verify

variable (host : Host) (vp : Option Value) (peer : CryptoPeer) (m : Memory)

/-- The checks before the length of the signature is read. -/
def HeaderOk : Prop :=
  codeOf m &&& CRYPTO_ERROR = 0 ∧ VALUE_LEN ≤ lenOf m ∧
    (wordAt m 4).toNat = expectedAssoc (codeOf m) peer ∧ vallenOf m ≠ 0

/-- The key is there and has the length of the signature. -/
def KeyOk : Prop := ∃ pkey, checkKey host peer (siglenOf m) = .ok pkey

/-- The signature is good. -/
def SignatureOk : Prop :=
  ∃ pkey, checkKey host peer (siglenOf m) = .ok pkey ∧
    host.verifies pkey (octetsAt m 8 (signedLen (vallenOf m)))
      (octetsAt m (siglenOff (vallenOf m) + 4) (siglenOf m).toNat) = true

/-- The checks afterwards. A certificate is believed without a signature. -/
def Passes : Prop :=
  lengthsOk (lenOf m) (vallenOf m) (siglenOf m) = true ∧
    checkStamps (wordAt m 8) (wordAt m 12) vp = .ok ∧
    (codeOf m = Cmd.cert.code ||| CRYPTO_RESP ∨ SignatureOk host peer m)

variable {host vp peer m}

theorem cryptoVerify_run :
    (cryptoVerify host vp peer).run m =
      if codeOf m &&& CRYPTO_ERROR ≠ 0 then (.err, peer.crypto)
      else if lenOf m < VALUE_LEN then (.len, peer.crypto)
      else if (wordAt m 4).toNat ≠ expectedAssoc (codeOf m) peer then (.err, peer.crypto)
      else if vallenOf m = 0 then (.len, peer.crypto)
      else (verifyValue host vp peer (lenOf m) (codeOf m) (vallenOf m)).run m := by
  unfold cryptoVerify lenOf codeOf vallenOf
  simp only [run_word_bind, run_ite, run_pure]

theorem cryptoVerify_inside :
    Inside (lenOf m) (cryptoVerify host vp peer) m ↔
      4 ≤ lenOf m ∧ (HeaderOk peer m →
        Inside (lenOf m) (verifyValue host vp peer (lenOf m) (codeOf m) (vallenOf m)) m) := by
  unfold cryptoVerify HeaderOk lenOf codeOf vallenOf
  simp only [inside_word_bind, inside_ite, inside_pure]
  simp only [implies_true, true_and, ne_eq, not_not, not_lt, VALUE_LEN]
  constructor
  · rintro ⟨hlen, h⟩
    exact ⟨hlen, fun hok => (((h hok.1 hok.2.1).2 hok.2.2.1).2 hok.2.2.2)⟩
  · rintro ⟨hlen, h⟩
    refine ⟨hlen, fun herr hval => ⟨by omega, fun hassoc => ⟨by omega, fun hzero => ?_⟩⟩⟩
    exact h ⟨herr, hval, hassoc, hzero⟩

theorem verifyValue_run :
    (verifyValue host vp peer (lenOf m) (codeOf m) (vallenOf m)).run m =
      if lengthsOk (lenOf m) (vallenOf m) (siglenOf m) = false then (.len, peer.crypto)
      else if checkStamps (wordAt m 8) (wordAt m 12) vp ≠ .ok then
        (checkStamps (wordAt m 8) (wordAt m 12) vp, peer.crypto)
      else if codeOf m = Cmd.cert.code ||| CRYPTO_RESP then (.ok, peer.crypto)
      else (verifySignature host peer (vallenOf m) (siglenOf m)).run m := by
  unfold verifyValue siglenOf
  simp only [run_word_bind, run_ite, run_pure]

theorem verifyValue_inside (hlen : VALUE_LEN ≤ lenOf m) :
    Inside (lenOf m) (verifyValue host vp peer (lenOf m) (codeOf m) (vallenOf m)) m ↔
      SiglenInside m ∧
        (lengthsOk (lenOf m) (vallenOf m) (siglenOf m) = true →
          checkStamps (wordAt m 8) (wordAt m 12) vp = .ok →
          codeOf m ≠ Cmd.cert.code ||| CRYPTO_RESP →
          Inside (lenOf m) (verifySignature host peer (vallenOf m) (siglenOf m)) m) := by
  unfold VALUE_LEN at hlen
  unfold verifyValue siglenOf SiglenInside
  simp only [inside_word_bind, inside_ite, inside_pure]
  simp only [implies_true, true_and, ne_eq, not_not, Bool.not_eq_false]
  constructor
  · rintro ⟨hin, h⟩
    exact ⟨hin, fun hok => (h hok).2.2⟩
  · rintro ⟨hin, h⟩
    exact ⟨hin, fun hok => ⟨by omega, by omega, h hok⟩⟩

theorem verifySignature_ok_iff :
    ((verifySignature host peer (vallenOf m) (siglenOf m)).run m).1 = .ok ↔
      SignatureOk host peer m := by
  unfold verifySignature SignatureOk
  cases hkey : checkKey host peer (siglenOf m) with
  | error rval =>
    have hne : rval ≠ .ok := checkKey_error hkey
    simp [hne]
  | ok pkey =>
    simp only [run_bytes_bind, run_ite, run_pure]
    split_ifs with hbad hvrfy
    · simp [hbad]
    · simp [hbad]
    · simp [hbad]

/-- The check of the signature stays inside the field if the lengths have passed theirs. -/
theorem verifySignature_inside (hin : SiglenInside m)
    (hok : lengthsOk (lenOf m) (vallenOf m) (siglenOf m) = true) :
    Inside (lenOf m) (verifySignature host peer (vallenOf m) (siglenOf m)) m := by
  unfold verifySignature
  cases hkey : checkKey host peer (siglenOf m) with
  | error rval => exact inside_pure _
  | ok pkey =>
    have hsig := sig_inside hin hok (checkKey_ok hkey).2
    simp only [inside_bytes_bind, inside_ite, inside_pure, implies_true, and_true]
    exact ⟨.inr (signed_inside hin), .inr hsig⟩

theorem cryptoVerify_ok_iff :
    ((cryptoVerify host vp peer).run m).1 = .ok ↔ HeaderOk peer m ∧ Passes host vp peer m := by
  rw [cryptoVerify_run, verifyValue_run]
  unfold HeaderOk Passes
  rw [← verifySignature_ok_iff]
  split_ifs with herr hval hassoc hzero hlens hstamps hcert
  · exact iff_of_false (by simp) fun h => herr h.1.1
  · exact iff_of_false (by simp) fun h => absurd h.1.2.1 (not_le.mpr hval)
  · exact iff_of_false (by simp) fun h => hassoc h.1.2.2.1
  · exact iff_of_false (by simp) fun h => h.1.2.2.2 hzero
  · exact iff_of_false (by simp) fun h => by simp [hlens] at h
  · exact iff_of_false hstamps fun h => hstamps h.2.2.1
  · exact iff_of_true rfl ⟨⟨not_not.mp herr, not_lt.mp hval, not_not.mp hassoc, hzero⟩,
      eq_true_of_ne_false hlens, not_not.mp hstamps, .inl hcert⟩
  · constructor
    · intro hok
      exact ⟨⟨not_not.mp herr, not_lt.mp hval, not_not.mp hassoc, hzero⟩,
        eq_true_of_ne_false hlens, not_not.mp hstamps, .inr hok⟩
    · intro h
      exact h.2.2.2.resolve_left hcert

theorem cryptoVerify_inside_iff (hlen : 4 ≤ lenOf m) :
    Inside (lenOf m) (cryptoVerify host vp peer) m ↔ (HeaderOk peer m → SiglenInside m) := by
  rw [cryptoVerify_inside]
  constructor
  · rintro ⟨-, h⟩ hheader
    exact ((verifyValue_inside hheader.2.1).mp (h hheader)).1
  · intro h
    refine ⟨hlen, fun hheader => (verifyValue_inside hheader.2.1).mpr ⟨h hheader, ?_⟩⟩
    intro hok _ _
    exact verifySignature_inside (h hheader) hok

end Verify

/-! ### The value of a response -/

section Install

variable {host : Host} {m : Memory}

theorem message_response {code : BitVec 32} {cmd : Cmd} (h : message code = .response cmd) :
    code = cmd.code ||| CRYPTO_RESP := by
  unfold message at h
  split at h
  · cases h
  · split at h
    · rename_i hfind
      cases h
      have htest := List.find?_some hfind
      exact (eq_of_beq htest).symm
    · cases h

section

variable (hval : 20 + (vallenOf m).toNat ≤ lenOf m)

include hval

theorem certInstall_inside : Inside (lenOf m) (certInstall host) m := by
  unfold certInstall
  simp only [inside_word_bind, inside_bytes_bind, inside_pure, and_true]
  exact ⟨by omega, by omega, .inr hval⟩

theorem identify_inside (cmd : Cmd) (stale : BitVec 32 → BitVec 32 → Bool) (v : Vars) :
    Inside (lenOf m) (identify host cmd stale v) m := by
  unfold identify
  split
  · exact inside_pure _
  · simp only [inside_word_bind, inside_ite, inside_bytes_bind, inside_pure, implies_true,
      true_and, and_true]
    exact ⟨by omega, fun _ _ _ => ⟨by omega, .inr hval⟩⟩

/-- The functions that take the value of a response stay inside a field in which
    the value and a signature fit, if it is to have a signature. -/
theorem installResponse_inside {cmd : Cmd}
    (hmore : 28 ≤ lenOf m) (hsig : cmd ≠ .cert → 32 ≤ lenOf m)
    (hismode : PktMode) (associd : Nat) (peer : CryptoPeer) :
    Inside (lenOf m) (installResponse host hismode cmd associd (vallenOf m) peer) m := by
  cases cmd with
  | assoc => exact inside_pure _
  | cert =>
    simp only [installResponse, installCert, inside_bind]
    refine ⟨certInstall_inside hval, ?_⟩
    split
    · exact inside_pure _
    · simp
  | iff =>
    simp only [installResponse, cryptoIff, inside_bind, inside_pure, and_true]
    exact identify_inside hval _ _ _
  | gq =>
    simp only [installResponse, cryptoGq, inside_bind, inside_pure, and_true]
    exact identify_inside hval _ _ _
  | mv =>
    simp only [installResponse, cryptoMv, inside_bind, inside_pure, and_true]
    exact identify_inside hval _ _ _
  | cook =>
    simp only [installResponse, installCook, inside_ite, inside_pure, inside_bytes_bind,
      implies_true, true_and]
    intro _
    refine ⟨.inr hval, ?_⟩
    split <;> exact inside_pure _
  | auto =>
    simp only [installResponse, installAuto, inside_ite, inside_pure, inside_word_bind,
      implies_true, true_and, and_true]
    exact fun _ => ⟨by omega, fun _ => ⟨by omega, by omega, by omega⟩⟩
  | sign =>
    simp only [installResponse, installSign, inside_bind]
    refine ⟨certInstall_inside hval, ?_⟩
    split <;> exact inside_pure _
  | leap =>
    have hlen := hsig (by decide)
    simp only [installResponse, installLeap, inside_word_bind, inside_pure, and_true]
    exact ⟨by omega, by omega, by omega⟩

end

end Install

/-! ### When all is well -/

section Safe

variable (host : Host) (vp : Option Value) (peer : CryptoPeer) (m : Memory)

/-- The check reads no octet outside the field, and accepts only lengths that fit
    the field, so that the functions that take the value stay inside as well. -/
structure VerifySafe : Prop where
  reads : Inside (lenOf m) (cryptoVerify host vp peer) m
  fits : ((cryptoVerify host vp peer).run m).1 = .ok → LengthsFit m
  installs : ((cryptoVerify host vp peer).run m).1 = .ok →
    ∀ cmd, message (codeOf m) = .response cmd → ∀ hismode associd (p : CryptoPeer),
      Inside (lenOf m) (installResponse host hismode cmd associd (vallenOf m) p) m

variable {host vp peer m}

/-- An accepted field with lengths that fit has room for what is read of it. -/
theorem room_of_fit (hheader : HeaderOk peer m) (hpass : Passes host vp peer m)
    (hfit : LengthsFit m) :
    20 + (vallenOf m).toNat ≤ lenOf m ∧ 28 ≤ lenOf m ∧
      (codeOf m ≠ Cmd.cert.code ||| CRYPTO_RESP → 32 ≤ lenOf m) := by
  unfold LengthsFit VALUE_LEN roundUp at hfit
  have hpos : 0 < (vallenOf m).toNat := by
    by_contra hzero
    exact hheader.2.2.2 (BitVec.eq_of_toNat_eq (by simpa using hzero))
  refine ⟨by omega, by omega, ?_⟩
  intro hcode
  obtain ⟨pkey, hkey, -⟩ := hpass.2.2.resolve_left hcode
  have hsig : 0 < (siglenOf m).toNat := by
    by_contra hzero
    exact (checkKey_ok hkey).1 (BitVec.eq_of_toNat_eq (by simpa using hzero))
  omega

/-- A response is checked safely if and only if it fails a check of its header, or the length of its
    signature is in the field and the sum of the lengths fits 32 bits or a later check fails. -/
theorem verifySafe_iff (hlen : 4 ≤ lenOf m) :
    VerifySafe host vp peer m ↔
      (HeaderOk peer m → SiglenInside m ∧ (Passes host vp peer m → SumSmall m)) := by
  constructor
  · rintro ⟨hreads, hfits, -⟩ hheader
    refine ⟨(cryptoVerify_inside_iff hlen).mp hreads hheader, ?_⟩
    intro hpass
    exact (lengthsFit_iff hpass.1).mp (hfits (cryptoVerify_ok_iff.mpr ⟨hheader, hpass⟩))
  · intro h
    have hfits : ((cryptoVerify host vp peer).run m).1 = .ok → LengthsFit m := by
      intro hok
      obtain ⟨hheader, hpass⟩ := cryptoVerify_ok_iff.mp hok
      exact (lengthsFit_iff hpass.1).mpr ((h hheader).2 hpass)
    refine ⟨(cryptoVerify_inside_iff hlen).mpr fun hheader => (h hheader).1, hfits, ?_⟩
    intro hok cmd hmsg hismode associd p
    obtain ⟨hheader, hpass⟩ := cryptoVerify_ok_iff.mp hok
    obtain ⟨hval, hmore, hsig⟩ := room_of_fit hheader hpass (hfits hok)
    refine installResponse_inside hval hmore ?_ hismode associd p
    intro hcmd
    apply hsig
    rw [message_response hmsg]
    revert hcmd
    cases cmd <;> decide

end Safe

/-! ### Fields of a packet -/

theorem wordAt_bufferMem (rb : RecvBuf) {off : Nat} (hoff : off % 4 = 0) :
    wordAt (bufferMem rb off) 0 = rb.word (off / 4) := by
  have hbase : 4 * (off / 4) = off := by omega
  apply BitVec.eq_of_getLsbD_eq
  intro i hi
  rw [getLsbD_word rb (off / 4) i hi, hbase]
  unfold wordAt bufferMem
  rw [BitVec.getLsbD_append, BitVec.getLsbD_append, BitVec.getLsbD_append]
  -- The octet that has the bit.
  by_cases h0 : i < 8
  · rw [if_pos h0, Nat.div_eq_of_lt h0, Nat.mod_eq_of_lt h0]
  by_cases h1 : i < 16
  · rw [if_neg h0, if_pos (by omega), show i / 8 = 1 by omega, show i % 8 = i - 8 by omega]
  by_cases h2 : i < 24
  · rw [if_neg h0, if_neg (by omega), if_pos (by omega), show i / 8 = 2 by omega,
      show i % 8 = i - 8 - 8 by omega]
  · rw [if_neg h0, if_neg (by omega), if_neg (by omega), show i / 8 = 3 by omega,
      show i % 8 = i - 8 - 8 - 8 by omega]

theorem lenOf_bufferMem (rb : RecvBuf) {off : Nat} (hoff : off % 4 = 0) :
    lenOf (bufferMem rb off) = declaredLen rb off := by
  unfold lenOf fieldLen declaredLen
  rw [wordAt_bufferMem rb hoff]

/-- For every field that the loop over the extension fields of a packet comes to and that fits the
    packet: `crypto_verify` stays inside the field, accepts only lengths that fit it, and leaves a
    value that fits it to the functions it guards, if and only if a check of the header fails, or
    the word with the length of the signature is in the field and the sum of the lengths fits 32
    bits unless a later check fails. -/
theorem verify_safe_iff {α : Type} (c : Cfg α) (rb : RecvBuf) (f : Frame)
    (hf : Loop.Heads (extenTurn c rb) (frameStart rb) f) (hfit : Fits rb f)
    (host : Host) (vp : Option Value) (peer : CryptoPeer) :
    let m := bufferMem rb f.authlen
    VerifySafe host vp peer m ↔
      (HeaderOk peer m → SiglenInside m ∧ (Passes host vp peer m → SumSmall m)) := by
  have hlen : 4 ≤ lenOf (bufferMem rb f.authlen) := by
    rw [lenOf_bufferMem rb (framed_of_heads hf).aligned.1]
    exact hfit.len.2.1
  exact verifySafe_iff hlen

/-- A host with a key of 64 octets. -/
def plainHost : Host := { host_pkey := { size := 64, size_lt := by decide } }

/-- A packet with a certificate response of 28 octets, whose value has the given
    length, and a MAC. -/
def certPacket (vallen : BitVec 32) : RecvBuf where
  recv_length := 96
  exten := [0x8202001c, 1, 2, 1, vallen, 0, 0, 0, 0, 0, 0, 0]

theorem verify_safe_iff_certPacket :
    HeaderOk { associd := 1 } (bufferMem (certPacket 4) 48) ∧
      VerifySafe plainHost none { associd := 1 } (bufferMem (certPacket 4) 48) := by
  have hheader : HeaderOk { associd := 1 } (bufferMem (certPacket 4) 48) := by
    unfold HeaderOk
    decide
  refine ⟨hheader, ?_⟩
  refine (verify_safe_iff defaultCfg (certPacket 4) (frameStart (certPacket 4)) .enter
    (by decide) plainHost none { associd := 1 }).mpr ?_
  exact fun _ => ⟨by decide, fun _ => by decide⟩

/-- With a value length of 65536 the word at 65556 of a field of 28 octets is read. With one of
    4294967295 the field is accepted, and the certificate in it is read with that length. -/
theorem verify_unsafe :
    let far := bufferMem (certPacket 65536) 48
    let wrapped := bufferMem (certPacket 4294967295) 48
    (lenOf far = 28 ∧ ⟨65556, 4⟩ ∈ (cryptoVerify plainHost none { associd := 1 }).ranges far ∧
      ¬ VerifySafe plainHost none { associd := 1 } far) ∧
    ((cryptoVerify plainHost none { associd := 1 }).run wrapped).1 = .ok ∧ ¬ LengthsFit wrapped ∧
      ⟨20, 4294967295⟩ ∈ (certInstall plainHost).ranges wrapped ∧
      ¬ VerifySafe plainHost none { associd := 1 } wrapped := by
  refine ⟨⟨by decide +kernel, by decide +kernel, ?_⟩, by decide +kernel, by decide +kernel,
    by decide +kernel, ?_⟩
  · intro h
    exact absurd h.reads (by decide +kernel)
  · intro h
    exact absurd (h.fits (by decide +kernel)) (by decide +kernel)

end NtpSuite.Exten
