import NtpSuite.Lib.Run
import NtpSuite.Theory.ExtenVerify

/-!
# Answering a Request

What `crypto_xmit` reads of a request. It has the length of the field, but only
the answer to a request for a cookie looks at it, and none compares it with
the length of the value. So a request for a certificate has up to 512 octets
copied from behind the field, and the others have a decoder read as many octets
as the request says.

A request gets there in two ways. `fast_xmit` answers the first field of a
packet from the receive buffer, and the field may have only four octets.
`crypto_recv` saves a request on the heap for `peer_xmit`; it checks the version
and that the field has a header, so what is left is the length of the value.

## Main definitions

* `ReadsValue`: The answers for which the whole value is read.
* `RequestFits`: The lengths of a request are those of the field.
* `SavedOk`: What is known of a saved request.
* `cryptoStep`: What happens to an association.
* `Arrives`: A request gets to `crypto_xmit`.

## Theorems

* `cryptoXmit_inside_iff`: When an answer stays inside the field.
* `recvField_cmmdOk`, `exec_cmmdOk`: What is saved.
* `xmit_inside_iff`: When the answer to a request that arrives does.
-/

namespace NtpSuite.Exten

open Reading BitVec Option

/-! ### Messages -/

theorem or_and_cancel (x y : BitVec 32) : (x ||| y) &&& y = y := by
  ext i hi
  simp only [getElem_and, getElem_or]
  cases x[i] <;> cases y[i] <;> rfl

theorem eq_of_or_eq {x y b : BitVec 32} (hx : x &&& b = 0#32) (hy : y &&& b = 0#32)
    (h : x ||| b = y ||| b) : x = y := by
  ext i hi
  have hxi := congrArg (fun w : BitVec 32 => w[i]) hx
  have hyi := congrArg (fun w : BitVec 32 => w[i]) hy
  have hi := congrArg (fun w : BitVec 32 => w[i]) h
  simp only [getElem_and, getElem_or, getElem_zero] at hxi hyi hi
  revert hxi hyi hi
  cases x[i] <;> cases y[i] <;> cases b[i] <;> decide

theorem message_request {code : BitVec 32} {cmd : Cmd} (h : message code = .request cmd) :
    code = cmd.code := by
  unfold message at h
  split at h
  · rename_i hfind
    cases h
    have htest := List.find?_some hfind
    exact (eq_of_beq htest).symm
  · split at h <;> cases h

theorem message_code (cmd : Cmd) : message cmd.code = .request cmd := by
  cases cmd <;> decide

/-! ### What an answer reads -/

section Xmit

variable {host : Host} {peer : Option CryptoPeer} {m : Memory}

/-- The answers for which a decoder is given the value. -/
def ReadsValue (host : Host) (len : Nat) : Cmd → Prop
  | .iff => host.iffkey_info.isSome = true
  | .gq => host.gqkey_info.isSome = true
  | .mv => host.mvkey_info.isSome = true
  | .sign => host.crypto_time ≠ 0
  | .cook => VALUE_LEN ≤ len
  | _ => False

/-- The value is inside the field. -/
def ValueInside (m : Memory) : Prop := 20 + (vallenOf m).toNat ≤ lenOf m

/-- The name in a request for a certificate is not copied, or it is inside the field. -/
def NameInside (m : Memory) : Prop :=
  vallenOf m = 0 ∨ MAXHOSTNAME < (vallenOf m).toNat ∨ ValueInside m

theorem answer_inside_iff (scheme : Option (CStr → Except Xevnt Value)) :
    Inside (lenOf m) (answer scheme) m ↔ (scheme.isSome = true → ValueInside m) := by
  unfold ValueInside vallenOf
  cases scheme with
  | none => simp [answer]
  | some f =>
    simp only [answer, inside_word_bind, inside_bytes_bind, inside_pure, and_true,
      isSome_some, true_implies]
    omega

theorem certSign_inside_iff :
    Inside (lenOf m) (certSign host) m ↔ (host.crypto_time ≠ 0 → ValueInside m) := by
  unfold certSign ValueInside vallenOf
  simp only [inside_ite, inside_pure, inside_word_bind, inside_bytes_bind, implies_true, true_and]
  refine forall_congr' fun _ => ?_
  cases host.signs (octetsAt m 20 (wordAt m 16).toNat) with
  | error rval =>
    simp only [inside_pure, and_true]
    omega
  | ok v =>
    simp only [inside_word_bind, inside_pure, and_true]
    omega

theorem cryptoEncrypt_inside_iff (cookie : BitVec 32) :
    Inside (lenOf m) (cryptoEncrypt host cookie) m ↔ ValueInside m := by
  unfold cryptoEncrypt ValueInside vallenOf
  simp only [inside_word_bind, inside_bytes_bind, inside_pure, and_true]
  omega

theorem sendCert_inside_iff : Inside (lenOf m) (sendCert host) m ↔ 20 ≤ lenOf m ∧ NameInside m := by
  unfold sendCert NameInside ValueInside vallenOf
  simp only [inside_word_bind, inside_ite, inside_pure, inside_bytes_bind, implies_true, true_and,
    and_true]
  have hzero : wordAt m 16 = 0 ↔ (wordAt m 16).toNat = 0 :=
    ⟨fun h => by rw [h]; rfl, fun h => eq_of_toNat_eq (by rw [h]; rfl)⟩
  rw [hzero]
  omega

/-- What the answer to a command reads of the field, beyond its first two words. -/
theorem xmitResponse_inside_iff (cookie : BitVec 32) (associd : Nat) (cmd : Cmd) :
    Inside (lenOf m) (xmitResponse host peer cookie (lenOf m) associd cmd) m ↔
      (cmd = .cert → 20 ≤ lenOf m ∧ NameInside m) ∧
        (ReadsValue host (lenOf m) cmd → ValueInside m) := by
  cases cmd with
  | cert => simp [xmitResponse, ReadsValue, sendCert_inside_iff]
  | iff => simp [xmitResponse, ReadsValue, cryptoBob, answer_inside_iff]
  | gq => simp [xmitResponse, ReadsValue, cryptoBob2, answer_inside_iff]
  | mv => simp [xmitResponse, ReadsValue, cryptoBob3, answer_inside_iff]
  | sign => simp [xmitResponse, ReadsValue, certSign_inside_iff]
  | cook => simp [xmitResponse, ReadsValue, cryptoEncrypt_inside_iff]
  | assoc => simp [xmitResponse, ReadsValue]
  | auto =>
    simp only [xmitResponse, ReadsValue]
    cases peer with
    | some p => simp
    | none =>
      cases host.findpeerbyassoc associd <;> simp
  | leap => simp [xmitResponse, ReadsValue]

/-- The answer to a field with the response bit stays inside the field if and only
    if the field has two words and what the answer reads is inside. -/
theorem cryptoXmit_inside_iff (hresp : ∀ cmd, message (codeOf m) ≠ .request cmd) (start : Nat)
    (cookie : BitVec 32) :
    Inside (lenOf m) (cryptoXmit host peer start cookie) m ↔
      8 ≤ lenOf m ∧ ∀ cmd, message (codeOf m) = .response cmd →
        (cmd = .cert → 20 ≤ lenOf m ∧ NameInside m) ∧
          (ReadsValue host (lenOf m) cmd → ValueInside m) := by
  have hc : fieldCode (wordAt m 0) = codeOf m := rfl
  have hl : fieldLen (wordAt m 0) = lenOf m := rfl
  simp only [cryptoXmit, inside_word_bind, hc, hl]
  cases hmsg : message (codeOf m) with
  | request cmd => exact absurd hmsg (hresp cmd)
  | response cmd =>
    simp only [xmitResponse_inside_iff, Message.response.injEq, forall_eq']
    constructor
    · rintro ⟨-, hlen, h⟩
      exact ⟨hlen, h⟩
    · rintro ⟨hlen, h⟩
      exact ⟨by omega, hlen, h⟩
  | other =>
    simp only [inside_pure, and_true, reduceCtorEq, false_implies, implies_true]
    omega

end Xmit

/-! ### The response bit -/

section Light

variable (m : Memory)

theorem wordAt_lightResp : wordAt (lightResp m) 0 = wordAt m 0 ||| CRYPTO_RESP := by
  have hresp : CRYPTO_RESP = (0x80#8 ++ 0#8 ++ 0#8 ++ 0#8 : BitVec 32) := rfl
  unfold wordAt
  rw [hresp, or_append, or_append, or_append, or_zero, or_zero, or_zero]
  rfl

theorem lenOf_lightResp : lenOf (lightResp m) = lenOf m := by
  unfold lenOf fieldLen
  rw [wordAt_lightResp, and_or_distrib_right,
    show CRYPTO_RESP &&& 0xffff = 0#32 from rfl, or_zero]

theorem codeOf_lightResp : codeOf (lightResp m) = codeOf m ||| CRYPTO_RESP := by
  unfold codeOf fieldCode
  rw [wordAt_lightResp, and_or_distrib_right,
    show CRYPTO_RESP &&& 0xffff0000 = CRYPTO_RESP from rfl]

theorem message_lightResp (cmd : Cmd) : message (codeOf (lightResp m)) ≠ .request cmd := by
  intro hmsg
  have hcode := message_request hmsg
  have hbit := or_and_cancel (codeOf m) CRYPTO_RESP
  rw [codeOf_lightResp] at hcode
  rw [hcode] at hbit
  revert hbit
  cases cmd <;> decide

/-- Lighting the response bit of a request makes it the response to it. -/
theorem request_of_lightResp {cmd : Cmd} (hresp : codeOf m &&& CRYPTO_RESP = 0)
    (hmsg : message (codeOf (lightResp m)) = .response cmd) : codeOf m = cmd.code := by
  have hcode := message_response hmsg
  rw [codeOf_lightResp] at hcode
  have hcmd : cmd.code &&& CRYPTO_RESP = 0 := by cases cmd <;> rfl
  exact eq_of_or_eq hresp hcmd hcode

end Light

/-! ### Saved requests -/

section Saved

/-- What is known of a saved request: it has a header, its length is the declared one, it is no
    response, and if it is to have a value, it has room for the length of one. -/
structure SavedOk (fp : CStr) : Prop where
  header : 8 ≤ fp.length
  len : ∀ rest : Memory, lenOf (heapMem fp rest) = fp.length
  resp : ∀ rest : Memory, codeOf (heapMem fp rest) &&& CRYPTO_RESP = 0
  value : ∀ (rest : Memory) (cmd : Cmd), codeOf (heapMem fp rest) = cmd.code → cmd.hasValue = true →
    VALUE_LEN ≤ fp.length

/-- The saved request of an association. -/
def CmmdOk (peer : CryptoPeer) : Prop := ∀ fp, peer.cmmd = some fp → SavedOk fp

/-- A copy that begins with the first word of a field has its length and its code. -/
theorem wordAt_heapMem {fp : CStr} {m : Memory} (hlen : 4 ≤ fp.length)
    (hfp : ∀ i < 4, fp.getD i 0 = m i) (rest : Memory) :
    wordAt (heapMem fp rest) 0 = wordAt m 0 := by
  have hsame : ∀ i < 4, heapMem fp rest i = m i := by
    intro i hi
    rw [← hfp i hi]
    unfold heapMem
    rw [List.getD_eq_getElem _ _ (by omega), List.getD_eq_getElem _ _ (by omega)]
  unfold wordAt
  rw [hsame 1 (by decide), hsame 2 (by decide), hsame 3 (by decide)]
  exact congrArg (· ++ _ ++ _ ++ _) (hsame 0 (by decide))

/-- A copy of a field that passed the checks of `crypto_recv`. -/
theorem savedOk_of_field {fp : CStr} {m : Memory} (hheader : 8 ≤ lenOf m)
    (hlen : fp.length = lenOf m) (hfp : ∀ i < 4, fp.getD i 0 = m i)
    (hresp : codeOf m &&& CRYPTO_RESP = 0)
    (hvalue : ∀ cmd : Cmd, codeOf m = cmd.code → cmd.hasValue = true → VALUE_LEN ≤ lenOf m) :
    SavedOk fp := by
  have hword := wordAt_heapMem (by omega) hfp
  have hcode : ∀ rest, codeOf (heapMem fp rest) = codeOf m := by
    intro rest
    unfold codeOf
    rw [hword rest]
  refine ⟨by omega, ?_, ?_, ?_⟩
  · intro rest
    rw [hlen]
    unfold lenOf
    rw [hword rest]
  · intro rest
    rw [hcode rest, hresp]
  · intro rest cmd hcmd
    rw [hcode rest] at hcmd
    rw [hlen]
    exact hvalue cmd hcmd

/-- A code without the error bit is that of a field with a header. -/
theorem checkedCode_eq {opcode : BitVec 32} (h : checkedCode opcode &&& CRYPTO_ERROR = 0) :
    checkedCode opcode = fieldCode opcode ∧ 8 ≤ fieldLen opcode := by
  unfold checkedCode at h ⊢
  split_ifs at h ⊢ with hbad
  · rw [or_and_cancel] at h
    exact absurd h (by decide)
  · exact ⟨rfl, not_lt.mp fun hlt => hbad (Or.inr hlt)⟩

variable {host : Host} {hismode : PktMode} {len associd : Nat} {st : Stamps} {peer : CryptoPeer}
  {m : Memory}

/-- A check that fails leaves the saved request as it is. -/
theorem cmmd_ite {c : Prop} [Decidable c] {x y : Reading (CryptoPeer × Xevnt)}
    (hx : (x.run m).1.cmmd = peer.cmmd) (hy : (y.run m).1.cmmd = peer.cmmd) :
    ((if c then x else y).run m).1.cmmd = peer.cmmd := by
  split_ifs
  · exact hx
  · exact hy

theorem recvAssoc_cmmd :
    ((recvAssoc host hismode len associd st peer).run m).1.cmmd = peer.cmmd := by
  refine cmmd_ite rfl ?_
  refine cmmd_ite rfl ?_
  refine cmmd_ite rfl ?_
  refine cmmd_ite rfl ?_
  exact cmmd_ite rfl rfl

theorem recvResponse_cmmd (cmd : Cmd) :
    ((recvResponse host hismode cmd len associd st peer).run m).1.cmmd = peer.cmmd := by
  unfold recvResponse
  simp only [run_ite, run_pure, run_bind]
  split_ifs <;> rfl

/-- A request that passed the checks is saved as it is, if none is waiting. -/
theorem saveRequest_cmmdOk (h : CmmdOk peer) (hheader : 8 ≤ lenOf m)
    (hresp : codeOf m &&& CRYPTO_RESP = 0)
    (hvalue : ∀ cmd : Cmd, codeOf m = cmd.code → cmd.hasValue = true → VALUE_LEN ≤ lenOf m) :
    CmmdOk ((saveRequest (lenOf m) peer).run m).1 := by
  unfold saveRequest
  cases hcmmd : peer.cmmd with
  | some fp => exact h
  | none =>
    simp only [run_bytes_bind, run_pure]
    intro fp hfp
    obtain rfl := some.inj hfp
    refine savedOk_of_field hheader (by simp [octetsAt]) ?_ hresp hvalue
    intro i hi
    simp [octetsAt, List.getD, show i < lenOf m by omega]

/-- So is a request for an association, with another identifier. -/
theorem recvAssocRequest_cmmdOk (h : CmmdOk peer) (hheader : 8 ≤ lenOf m)
    (hcode : codeOf m = Cmd.assoc.code) :
    CmmdOk ((recvAssocRequest host hismode (lenOf m) associd st peer).run m).1 := by
  unfold recvAssocRequest
  simp only [run_ite, run_pure, run_bytes_bind]
  split_ifs
  · exact h
  · exact h
  · intro fp hfp
    rw [recvAssoc_cmmd] at hfp
    obtain rfl := some.inj hfp
    refine savedOk_of_field hheader ?_ ?_ (by rw [hcode]; rfl) ?_
    · simp [octetsAt, htonl]
      omega
    · intro i hi
      have hlen : i < lenOf m := by omega
      simp [octetsAt, List.getD, List.getElem?_append, hi, hlen]
    · intro cmd hcmd hvalue
      rw [hcode] at hcmd
      have hassoc : cmd = .assoc := by
        revert hcmd
        cases cmd <;> decide
      rw [hassoc] at hvalue
      cases hvalue

/-- A code without the response bit and the error bit is that of the field, and the
    field has a header. -/
theorem checkedCode_clear (h : checkedCode (wordAt m 0) &&& (CRYPTO_RESP ||| CRYPTO_ERROR) = 0) :
    codeOf m = checkedCode (wordAt m 0) ∧ codeOf m &&& CRYPTO_RESP = 0 ∧ 8 ≤ lenOf m := by
  rw [and_or_distrib_left] at h
  obtain ⟨hresp, herror⟩ := or_eq_zero_iff.mp h
  obtain ⟨hcode, hlen⟩ := checkedCode_eq herror
  rw [hcode] at hresp
  exact ⟨hcode.symm, hresp, hlen⟩

/-- Whatever a field is, the saved request is good afterwards. -/
theorem recvSwitch_cmmdOk (h : CmmdOk peer) :
    CmmdOk ((recvSwitch host hismode (wordAt m 0) associd st peer).run m).1 := by
  unfold recvSwitch
  cases hmsg : message (checkedCode (wordAt m 0)) with
  | request cmd =>
    have hrequest := message_request hmsg
    have hclear : cmd.code &&& (CRYPTO_RESP ||| CRYPTO_ERROR) = 0 := by cases cmd <;> rfl
    obtain ⟨hcode, hresp, hheader⟩ := checkedCode_clear (hrequest ▸ hclear)
    rw [hrequest] at hcode
    by_cases hassoc : cmd = .assoc
    · subst hassoc
      exact recvAssocRequest_cmmdOk h hheader hcode
    · have hsave : ¬(cmd.hasValue = true ∧ lenOf m < VALUE_LEN) →
          CmmdOk ((saveRequest (lenOf m) peer).run m).1 := by
        intro hlong
        apply saveRequest_cmmdOk h hheader hresp
        intro cmd' hcmd' hvalue
        have heq : cmd' = cmd := by
          rw [hcode] at hcmd'
          have hmsg' := message_code cmd'
          rw [← hcmd', message_code] at hmsg'
          exact (Message.request.inj hmsg').symm
        rw [heq] at hvalue
        exact not_lt.mp fun hshort => hlong ⟨hvalue, hshort⟩
      cases cmd with
      | assoc => exact absurd rfl hassoc
      | _ =>
        simp only [run_ite, run_pure]
        split_ifs with hshort
        · exact h
        · exact hsave hshort
  | response cmd =>
    have hkeep : ∀ x : Reading (CryptoPeer × Xevnt), (x.run m).1.cmmd = peer.cmmd →
        CmmdOk (x.run m).1 := by
      intro x hx fp hfp
      exact h fp (hx ▸ hfp)
    cases cmd with
    | assoc => exact hkeep _ recvAssoc_cmmd
    | _ => exact hkeep _ (recvResponse_cmmd _)
  | other =>
    split_ifs with hbits
    · exact h
    · obtain ⟨hcode, hresp, hheader⟩ := checkedCode_clear (not_not.mp hbits)
      apply saveRequest_cmmdOk h hheader hresp
      intro cmd hcmd
      rw [← hcode, hcmd, message_code] at hmsg
      cases hmsg

theorem recvField_cmmdOk (h : CmmdOk peer) : CmmdOk ((recvField host hismode st peer).run m).2.1 :=
  recvSwitch_cmmdOk h

theorem recvLoop_cmmdOk (rb : RecvBuf) (fuel authlen : Nat) (h : CmmdOk peer) :
    CmmdOk (recvLoop host hismode rb fuel authlen st peer).1 := by
  induction fuel generalizing authlen st peer with
  | zero => exact h
  | succ fuel ih =>
    unfold recvLoop
    split_ifs with hmore
    · have hfield : CmmdOk ((recvField host hismode st peer).run (bufferMem rb authlen)).2.1 :=
        recvField_cmmdOk h
      simp only
      split_ifs
      · exact hfield
      · exact ih _ hfield
    · exact h

end Saved

/-! ### Requests that arrive -/

section Arrive

/-- What happens to an association: a packet, the packet that answers a request,
    and whatever changes the other variables. -/
inductive CryptoEvent where
  | recv (host : Host) (hismode : PktMode) (rb : RecvBuf)
  | xmit
  | change (v : Vars)

def cryptoStep (peer : CryptoPeer) : CryptoEvent → CryptoPeer
  | .recv host hismode rb => (cryptoRecv host hismode rb peer).1
  | .xmit => { peer with cmmd := none }
  | .change v => { peer with toVars := v }

theorem exec_cmmdOk (peer : CryptoPeer) (es : List CryptoEvent) (h : peer.cmmd = none) :
    CmmdOk (Run.exec cryptoStep peer es) := by
  have hstart : CmmdOk peer := by
    intro fp hfp
    rw [h] at hfp
    cases hfp
  refine Run.exec_invariant ?_ _ es hstart (Run.meets_true cryptoStep _ es)
  intro peer e hpeer _
  cases e with
  | recv host hismode rb => exact recvLoop_cmmdOk rb _ _ hpeer
  | xmit =>
    intro fp hfp
    cases hfp
  | change v => exact hpeer

/-- A request gets to `crypto_xmit`: as the first field of a packet that has passed
    the framing, or as the saved request of an association. -/
inductive Arrives {α : Type} (c : Cfg α) : Option CryptoPeer → Memory → Prop
  | fast {rb : RecvBuf} {f : Frame} {m : Memory} (hframe : parseFrame c rb = .ok f)
      (hfield : fastXmit rb f.skeyid = some m) : Arrives c none m
  | saved {peer : CryptoPeer} {es : List CryptoEvent} {rest m : Memory} (hnone : peer.cmmd = none)
      (hfield : peerXmit (Run.exec cryptoStep peer es) rest = some m) :
      Arrives c (some (Run.exec cryptoStep peer es)) m

/-- The lengths of a request are those of the field. A saved request has a header,
    and room for the length of a value if it is to have one. -/
def RequestFits (host : Host) (peer : Option CryptoPeer) (m : Memory) : Prop :=
  (peer.isNone = true →
    8 ≤ lenOf m ∧ (message (codeOf m) = .response .cert → 20 ≤ lenOf m)) ∧
  (message (codeOf m) = .response .cert → NameInside m) ∧
  ∀ cmd, message (codeOf m) = .response cmd → ReadsValue host (lenOf m) cmd → ValueInside m

theorem requestFits_iff {host : Host} {peer : Option CryptoPeer} {m : Memory}
    (hsaved : peer.isNone = false →
      8 ≤ lenOf m ∧ (message (codeOf m) = .response .cert → 20 ≤ lenOf m)) :
    RequestFits host peer m ↔
      8 ≤ lenOf m ∧ ∀ cmd, message (codeOf m) = .response cmd →
        (cmd = .cert → 20 ≤ lenOf m ∧ NameInside m) ∧
          (ReadsValue host (lenOf m) cmd → ValueInside m) := by
  constructor
  · rintro ⟨hheader, hname, hvalue⟩
    have hlens : 8 ≤ lenOf m ∧ (message (codeOf m) = .response .cert → 20 ≤ lenOf m) := by
      cases hpeer : peer.isNone with
      | true => exact hheader hpeer
      | false => exact hsaved hpeer
    refine ⟨hlens.1, fun cmd hmsg => ⟨?_, hvalue cmd hmsg⟩⟩
    rintro rfl
    exact ⟨hlens.2 hmsg, hname hmsg⟩
  · rintro ⟨hlen, h⟩
    refine ⟨fun _ => ⟨hlen, fun hmsg => ((h _ hmsg).1 rfl).1⟩, fun hmsg => ((h _ hmsg).1 rfl).2, ?_⟩
    exact fun cmd hmsg => (h cmd hmsg).2

/-- For every request that arrives, and whatever this host knows: every octet of the
    field that the answer reads is inside the field, if and only if the lengths of
    the request are those of the field. -/
theorem xmit_inside_iff {α : Type} (c : Cfg α) (host : Host) (peer : Option CryptoPeer) (m : Memory)
    (h : Arrives c peer m) (start : Nat) (cookie : BitVec 32) :
    Inside (lenOf m) (cryptoXmit host peer start cookie) m ↔ RequestFits host peer m := by
  cases h with
  | fast hframe hfield =>
    unfold fastXmit at hfield
    split_ifs at hfield
    obtain rfl := some.inj hfield
    rw [cryptoXmit_inside_iff (message_lightResp _), requestFits_iff]
    exact nofun
  | @saved peer es rest m hnone hfield =>
    have hok := exec_cmmdOk peer es hnone
    obtain ⟨fp, hfp, rfl⟩ := map_eq_some_iff.mp hfield
    have hsaved := hok fp hfp
    rw [cryptoXmit_inside_iff (message_lightResp _), requestFits_iff]
    intro _
    rw [lenOf_lightResp, hsaved.len]
    refine ⟨hsaved.header, fun hmsg => ?_⟩
    have hcode := request_of_lightResp _ (hsaved.resp rest) hmsg
    have hlong := hsaved.value rest .cert hcode rfl
    unfold VALUE_LEN at hlong
    omega

end Arrive

/-! ### Requests that do not fit -/

/-- A packet with a request for a certificate of 24 octets, whose name has the
    given length, and an Autokey MAC. -/
def nameRequest (vallen : BitVec 32) : RecvBuf where
  recv_length := 92
  exten := [0x02020018, 1, 0, 0, vallen, 0, 0x10000, 0, 0, 0, 0]

/-- A packet with a request for a certificate of two words. -/
def shortRequest : RecvBuf where
  recv_length := 76
  exten := [0x02020008, 1, 0x10000, 0, 0, 0, 0]

/-- An association that has saved the request of a packet. -/
def askedPeer (vallen : BitVec 32) : CryptoPeer :=
  Run.exec cryptoStep { associd := 1 } [.recv plainHost .active (nameRequest vallen)]

/-- The copy of that request. -/
def askedField (vallen : BitVec 32) : Memory :=
  lightResp (heapMem ((askedPeer vallen).cmmd.getD []) fun _ => 0)

theorem arrives_askedField (vallen : BitVec 32) (h : (askedPeer vallen).cmmd.isSome = true) :
    Arrives defaultCfg (some (askedPeer vallen)) (askedField vallen) := by
  obtain ⟨fp, hfp⟩ := isSome_iff_exists.mp h
  have hfield : peerXmit (askedPeer vallen) (fun _ => 0) = some (askedField vallen) := by
    unfold peerXmit askedField
    rw [hfp]
    rfl
  exact .saved rfl hfield

theorem xmit_inside_iff_askedField :
    Arrives defaultCfg (some (askedPeer 4)) (askedField 4) ∧
      Inside 24 (cryptoXmit plainHost (some (askedPeer 4)) 48 0) (askedField 4) := by
  have harrives := arrives_askedField 4 (by decide)
  have hlen : lenOf (askedField 4) = 24 := by decide
  have hvallen : (vallenOf (askedField 4)).toNat = 4 := by decide
  refine ⟨harrives, ?_⟩
  refine (xmit_inside_iff defaultCfg plainHost _ _ harrives 48 0).mpr ⟨by simp, ?_, ?_⟩
  · intro _
    right
    right
    unfold ValueInside
    rw [hlen, hvallen]
  · intro cmd hcmd hreads
    cases hcmd
    exact hreads.elim

/-- The length of the name is read from behind a field of two words, and 512 octets
    are copied from a field of 24, in the receive buffer and on the heap. -/
theorem xmit_outside :
    let short := lightResp (bufferMem shortRequest 48)
    let named := lightResp (bufferMem (nameRequest 512) 48)
    let asked := askedField 512
    (Arrives defaultCfg none short ∧ lenOf short = 8 ∧
      ⟨16, 4⟩ ∈ (cryptoXmit plainHost none 48 0).ranges short ∧
      ¬ Inside (lenOf short) (cryptoXmit plainHost none 48 0) short) ∧
    (Arrives defaultCfg none named ∧ lenOf named = 24 ∧
      ⟨20, 512⟩ ∈ (cryptoXmit plainHost none 48 0).ranges named ∧
      ¬ Inside (lenOf named) (cryptoXmit plainHost none 48 0) named) ∧
    Arrives defaultCfg (some (askedPeer 512)) asked ∧ lenOf asked = 24 ∧
      ⟨20, 512⟩ ∈ (cryptoXmit plainHost (some (askedPeer 512)) 48 0).ranges asked ∧
      ¬ Inside (lenOf asked) (cryptoXmit plainHost (some (askedPeer 512)) 48 0) asked := by
  have hshort : Arrives defaultCfg none (lightResp (bufferMem shortRequest 48)) := by
    have hframe : parseFrame defaultCfg shortRequest =
        .ok { authlen := 56, has_mac := 20, skeyid := 0x10000, opcode := 0x02020008 } := by
      decide +kernel
    exact .fast hframe (if_pos (by decide))
  have hnamed : Arrives defaultCfg none (lightResp (bufferMem (nameRequest 512) 48)) := by
    have hframe : parseFrame defaultCfg (nameRequest 512) =
        .ok { authlen := 72, has_mac := 20, skeyid := 0x10000, opcode := 0x02020018 } := by
      decide +kernel
    exact .fast hframe (if_pos (by decide))
  refine ⟨⟨hshort, by decide +kernel, by decide +kernel, by decide +kernel⟩,
    ⟨hnamed, by decide +kernel, by decide +kernel, by decide +kernel⟩,
    arrives_askedField 512 (by decide +kernel), by decide +kernel, by decide +kernel,
    by decide +kernel⟩

end NtpSuite.Exten
