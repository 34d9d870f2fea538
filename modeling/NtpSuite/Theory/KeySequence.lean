import NtpSuite.Core.Defaults
import NtpSuite.Core.Keylist
import NtpSuite.Core.Packet
import NtpSuite.Lib.HashChain
import NtpSuite.Lib.Run

/-!
# The Autokey Sequence

A sender of symmetric or broadcast mode takes the keys of a list from the last
to the first, and has announced the hash of the last and its number. A receiver
accepts the key of a packet if it comes to the key of the packet before, or to
the announced one, within the hashes it has left.

Both sides are put in terms of a chain of hashes. The keys of a list are the
iterates of the hash on the first, and those the sender takes are a descending
run of them. What the receiver does with a packet that has no signed field is to
hear a key, so it accepts whatever comes in order, however much is lost.

## Main definitions

* `Keys.sentKeys`: The keys of the packets that are sent.
* `Keys.KeepsList`: A packet is sent without a new list.
* `Keys.sequenceCheck`: What the receiver does with a packet.

## Theorems

* `makeKeys_eq`, `freshKey_spec`: What a list is.
* `sentKeys_sublist`: The order in which it is used.
* `sequenceCheck_hear`: What the check does.
* `key_sequence_accepted`: What is accepted, and what is not.
-/

namespace NtpSuite.Keys

open HashChain List Option

/-! ### The sender -/

section Sender

variable {c : KeyHost}

/-- The keys of a list are iterates of the hash, and what is announced is the next. -/
theorem makeKeys_eq (cookie mpoll tstamp i : Nat) (s : AuthSys) (k : Nat) (lifetime : Int) :
    ∃ n, (i ≠ 0 → n ≠ 0) ∧ (makeKeys c cookie mpoll tstamp i s k lifetime).2 =
      (List.iterate (c.hash · cookie) k n, (c.hash · cookie)^[n] k) := by
  induction i generalizing s k lifetime with
  | zero => exact ⟨0, absurd rfl, rfl⟩
  | succ i ih =>
    obtain ⟨s', hs'⟩ : ∃ s', sessionKey c s k cookie (lifetime + mpoll).toNat =
      (s', c.hash k cookie) := ⟨_, rfl⟩
    unfold makeKeys
    simp only [hs']
    split_ifs with hend
    · exact ⟨1, fun _ => one_ne_zero, rfl⟩
    · obtain ⟨n, -, hn⟩ := ih s' (c.hash k cookie) (lifetime - mpoll)
      refine ⟨n + 1, fun _ => n.succ_ne_zero, ?_⟩
      simp only [hn]
      rfl

/-- A list whose keys are the first `n + 1` iterates of the hash on `k`. -/
structure Listed (c : KeyHost) (k n : Nat) (p : KeyPeer) : Prop where
  keylist : p.keylist = some (List.iterate (c.hash · p.cookie) k (n + 1))
  keynumber : p.keynumber ≤ n

variable {p : KeyPeer} {x : XmitCall}

theorem Listed.xkeyid {k n : Nat} (h : Listed c k n p) :
    p.xkeyid = (c.hash · p.cookie)^[p.keynumber] k := by
  have hlt : p.keynumber < n + 1 := Nat.lt_succ_of_le h.keynumber
  unfold KeyPeer.xkeyid
  rw [h.keylist, getD_some, getD_eq_getElem _ _ (by rw [length_iterate]; exact hlt),
    getElem_iterate]

/-- A new list: its last key is taken, and the hash of that is announced. -/
structure Fresh (c : KeyHost) (k n : Nat) (p : KeyPeer) : Prop extends Listed c k n p where
  last : p.keynumber = n
  sndval : p.sndval = some { key := (c.hash · p.cookie)^[n + 1] k, seq := n }

theorem makeKeylist_fresh {draws : List Nat} {s s' : AuthSys} {p p' : KeyPeer}
    (h : makeKeylist c x draws s p = some (s', p')) :
    p'.cookie = p.cookie ∧ ∃ k n, Fresh c k n p' := by
  obtain ⟨⟨s1, k⟩, -, h⟩ := bind_eq_some_iff.mp h
  obtain ⟨m, hm, hkeys⟩ := makeKeys_eq (c := c) p.cookie (2 ^ min x.ppoll x.hpoll) x.tstamp
    NTP_MAXSESSION s1 k (min (2 ^ c.sys_automax) (NTP_MAXSESSION * 2 ^ min x.ppoll x.hpoll) : Nat)
  obtain ⟨n, rfl⟩ := Nat.exists_eq_succ_of_ne_zero (hm (by decide))
  simp only [hkeys, length_iterate] at h
  obtain ⟨-, rfl⟩ := Prod.mk.inj (some.inj h)
  exact ⟨rfl, k, n, ⟨⟨rfl, le_rfl⟩, rfl, rfl⟩⟩

theorem freshKey_spec {draws : List (List Nat)} {s s' : AuthSys} {p p' : KeyPeer}
    (h : freshKey c x draws s p = some (s', p')) :
    p'.cookie = p.cookie ∧ p'.keyid = p'.xkeyid ∧ ∃ k n, Fresh c k n p' := by
  induction draws generalizing s p with
  | nil => cases h
  | cons draws rest ih =>
    unfold freshKey at h
    split at h
    · cases h
    · rename_i s1 p1 hmade
      obtain ⟨hcookie, k, n, hfresh⟩ := makeKeylist_fresh hmade
      simp only at h
      split_ifs at h with htrusted
      · obtain ⟨-, rfl⟩ := Prod.mk.inj (some.inj h)
        exact ⟨hcookie, rfl, k, n, ⟨⟨hfresh.keylist, hfresh.keynumber⟩, hfresh.last, hfresh.sndval⟩⟩
      · obtain ⟨hcookie', hrest⟩ := ih h
        exact ⟨hcookie'.trans hcookie, hrest⟩

/-- The packet takes another key of the list: there is one, and it is still trusted. -/
def KeepsList (p : KeyPeer) (x : XmitCall) : Prop :=
  p.keynumber ≠ 0 ∧
    (authistrusted x.auth { p with keynumber := p.keynumber - 1 }.xkeyid).2 = true

/-- The association after a packet. -/
def xmitStep (c : KeyHost) (p : KeyPeer) (x : XmitCall) : KeyPeer :=
  match peerXmitKey c x p with
  | none => p
  | some (_, p) => p

/-- The keys of the packets that are sent. -/
def sentKeys (c : KeyHost) : KeyPeer → List XmitCall → List Nat
  | _, [] => []
  | p, x :: xs => (xmitStep c p x).keyid :: sentKeys c (xmitStep c p x) xs

theorem xmitStep_keeps (h : KeepsList p x) :
    xmitStep c p x = { p with
      keynumber := p.keynumber - 1
      keyid := { p with keynumber := p.keynumber - 1 }.xkeyid } := by
  unfold xmitStep peerXmitKey
  simp [if_neg h.1, h.2]

theorem Listed.keeps {k n : Nat} (hp : Listed c k n p) (h : KeepsList p x) :
    Listed c k n (xmitStep c p x) ∧ (xmitStep c p x).cookie = p.cookie ∧
      (xmitStep c p x).keynumber + 1 = p.keynumber ∧
      (xmitStep c p x).keyid = (c.hash · p.cookie)^[(xmitStep c p x).keynumber] k := by
  rw [xmitStep_keeps h]
  have hlisted : Listed c k n { p with keynumber := p.keynumber - 1 } :=
    ⟨hp.keylist, (Nat.sub_le _ _).trans hp.keynumber⟩
  exact ⟨⟨hlisted.keylist, hlisted.keynumber⟩, rfl, Nat.sub_one_add_one h.1, hlisted.xkeyid⟩

/-- As long as no new list is made the keys are taken from the end to the beginning. -/
theorem sentKeys_sublist {k n : Nat} {xs : List XmitCall} (hp : Listed c k n p)
    (hxs : Run.Meets (xmitStep c) KeepsList p xs) :
    (sentKeys c p xs).Sublist
      ((List.range p.keynumber).reverse.map fun j => (c.hash · p.cookie)^[j] k) := by
  induction xs generalizing p with
  | nil => exact nil_sublist _
  | cons x xs ih =>
    obtain ⟨hkeep, hrest⟩ := hxs
    obtain ⟨hlisted, hcookie, hnumber, hkey⟩ := hp.keeps hkeep
    have hnext := ih hlisted hrest
    unfold sentKeys
    rw [← hnumber, range_succ, reverse_append, hkey]
    rw [hcookie] at hnext
    exact hnext.cons_cons _

end Sender

/-! ### The receiver -/

section Receiver

variable {α : Type} [Field α]

/-- What `receive` does to an association between counting down the hashes and the
    test for the proof of identity. -/
def sequenceCheck (p : Peer α) (d : Env α × Rx) : Peer α :=
  autokeyCheck d.1 d.2 p.recval { cryptoRecv d.1 (autokeyEnter p) with unreach := 0 }

/-- A packet of symmetric or broadcast mode without a signed field. Its key is
    hashed with the given function and cookie. -/
structure Unsigned (hash : Nat → Nat → Nat) (cookie : Nat) (d : Env α × Rx) : Prop where
  mode : d.2.hismode ≠ .server
  quiet : ∀ p, d.1.crypto_recv p =
    { ok := true, err := false, crypto := p.toCrypto, clears8 := false }
  session_key : d.1.session_key = hash
  pkeyid : d.2.pkeyid = cookie
  tkeyid : d.2.tkeyid = hash d.2.skeyid cookie

/-- The part of an association that hears keys. -/
def receiver (p : Peer α) (ap : Autokey) : HashChain.Receiver Nat where
  last := p.pkeyid
  anchor := ap.key
  left := ap.seq

theorem autokeyScan_eq (e : Env α) (rx : Rx) (p : Peer α) (ap : Autokey) (fuel i k : Nat) :
    autokeyScan e rx p.pkeyid ap fuel i k =
      search (e.session_key · rx.pkeyid) (receiver p ap) fuel i k := by
  induction fuel generalizing i k with
  | zero => rfl
  | succ fuel ih =>
    unfold autokeyScan search
    rw [ih]
    rfl

/-- The autokey values after the count. -/
def ticked (ap : Autokey) : Autokey := if ap.seq > 0 then { ap with seq := ap.seq - 1 } else ap

theorem receiver_ticked (p : Peer α) (ap : Autokey) :
    receiver p (ticked ap) = (receiver p ap).tick := by
  unfold ticked receiver Receiver.tick
  split_ifs <;> rfl

variable {hash : Nat → Nat → Nat} {cookie : Nat} {d : Env α × Rx} {p : Peer α} {ap : Autokey}

section

variable (hd : Unsigned hash cookie d)

include hd

/-- What comes after the check, in the words of the source. -/
theorem autokeyDance_process [LinearOrder α] {c : Cfg α} {s : Sys α}
    (hskey : (c.autokey && p.flags.skey) = true)
    (hrefresh : ¬ s.current_time > (autokeyProven (sequenceCheck p d)).refresh) :
    autokeyDance c d.1 s d.2 p = .process (autokeyProven (sequenceCheck p d)) := by
  unfold autokeyDance
  simp only [hskey, hd.quiet, Bool.not_true, Bool.false_eq_true, if_false]
  exact if_neg hrefresh

/-- A packet without a signed field is left to the check of the sequence. -/
theorem sequenceCheck_eq (hp : p.recval = some ap) :
    sequenceCheck p d = autokeySequence d.1 d.2 (ticked ap)
      { autokeyEnter p with unreach := 0 } := by
  have hrecv : cryptoRecv d.1 (autokeyEnter p) = autokeyEnter p := by
    unfold cryptoRecv
    rw [hd.quiet]
    rfl
  have hticked : (autokeyEnter p).recval = some (ticked ap) := by
    unfold autokeyEnter
    rw [hp]
    rfl
  unfold sequenceCheck autokeyCheck
  rw [hrecv, if_neg hd.mode, if_neg (by simp [autokeyEnter]), hp]
  simp only [hticked]

theorem scan_eq (p : Peer α) (ap : Autokey) :
    autokeyScan d.1 d.2 p.pkeyid (ticked ap) ((ticked ap).seq.toNat + 2) 0 d.2.tkeyid =
      search (hash · cookie) (receiver p ap).tick ((receiver p ap).tick.left.toNat + 2) 0
        (hash d.2.skeyid cookie) := by
  rw [autokeyScan_eq, hd.session_key, hd.pkeyid, hd.tkeyid, ← receiver_ticked p ap]
  rfl

theorem sequenceCheck_hear (hp : p.recval = some ap) {r : HashChain.Receiver Nat} {i : Nat}
    (hr : (receiver p ap).hear (hash · cookie) d.2.skeyid = some (r, i)) :
    autokeyScan d.1 d.2 p.pkeyid (ticked ap) ((ticked ap).seq.toNat + 2) 0 d.2.tkeyid = some i ∧
      (sequenceCheck p d).flash.test8 = false ∧
      ∃ ap', (sequenceCheck p d).recval = some ap' ∧ receiver (sequenceCheck p d) ap' = r := by
  obtain ⟨n, hscan, hn⟩ := map_eq_some_iff.mp hr
  obtain ⟨rfl, rfl⟩ := Prod.mk.inj hn
  rw [← scan_eq hd p ap] at hscan
  have hseq : autokeyScan d.1 d.2 ({ autokeyEnter p with unreach := 0 } : Peer α).pkeyid (ticked ap)
      ((ticked ap).seq.toNat + 2) 0 d.2.tkeyid = some n := hscan
  rw [sequenceCheck_eq hd hp]
  unfold autokeySequence
  rw [hseq]
  refine ⟨hscan, rfl, _, rfl, ?_⟩
  rw [← receiver_ticked]
  rfl

theorem sequenceCheck_reject (hp : p.recval = some ap)
    (hr : (receiver p ap).hear (hash · cookie) d.2.skeyid = none) :
    (sequenceCheck p d).flash.test8 = true := by
  have hscan := map_eq_none_iff.mp hr
  rw [← scan_eq hd p ap] at hscan
  have hseq : autokeyScan d.1 d.2 ({ autokeyEnter p with unreach := 0 } : Peer α).pkeyid (ticked ap)
      ((ticked ap).seq.toNat + 2) 0 d.2.tkeyid = none := hscan
  rw [sequenceCheck_eq hd hp]
  unfold autokeySequence
  rw [hseq]
  rfl

end

/-- The check puts out the flasher, and hashes no more often than it has hashes
    left, and once more. -/
def PassesTest8 (p : Peer α) (d : Env α × Rx) : Prop :=
  ∃ ap i, p.recval = some ap ∧
    autokeyScan d.1 d.2 p.pkeyid (ticked ap) ((ticked ap).seq.toNat + 2) 0 d.2.tkeyid = some i ∧
    (i : Int) ≤ (ticked ap).seq + 1 ∧ (sequenceCheck p d).flash.test8 = false

/-- Keys further and further down a chain that the receiver knows are accepted. -/
theorem accepted_of_knows {k m : Nat} {js : List Nat} {ds : List (Env α × Rx)}
    (hp : p.recval = some ap) (hknows : Knows (hash · cookie) k (receiver p ap) m)
    (hds : ∀ d ∈ ds, Unsigned hash cookie d)
    (hkeys : (ds.map fun d => d.2.skeyid) = js.map fun j => (hash · cookie)^[j] k)
    (hjs : (m :: js).Pairwise (· > ·)) : Run.Meets sequenceCheck PassesTest8 p ds := by
  -- By induction on what is delivered; the receiver knows the key of the last packet.
  induction ds generalizing p ap m js with
  | nil => trivial
  | cons d ds ih =>
    cases js with
    | nil => cases hkeys
    | cons j js =>
      obtain ⟨hhead, hrest⟩ := List.cons.inj hkeys
      have hkey : d.2.skeyid = (hash · cookie)^[j] k := hhead
      obtain ⟨hm, hjs⟩ := pairwise_cons.mp hjs
      have hd := hds d mem_cons_self
      obtain ⟨r, i, hr, hi, hknows'⟩ := hknows.hear (hm j mem_cons_self)
      rw [← hkey] at hr
      obtain ⟨hscan, hflash, ap', hap', hreceiver⟩ := sequenceCheck_hear hd hp hr
      rw [← receiver_ticked] at hi
      refine ⟨⟨ap, i, hp, hscan, hi, hflash⟩, ?_⟩
      rw [← hreceiver] at hknows'
      exact ih hap' hknows' (fun d' hd' => hds d' (mem_cons_of_mem d hd')) hrest hjs

/-- The check accepts a key if and only if one of its hashes is the last key or the
    announced one, among those that are left and one more. -/
theorem sequenceCheck_iff (hd : Unsigned hash cookie d) (hp : p.recval = some ap) :
    (sequenceCheck p d).flash.test8 = false ↔
      ∃ i : Nat, (i = 0 ∨ (i : Int) ≤ (ticked ap).seq + 1) ∧
        ((hash · cookie)^[i] d.2.tkeyid = p.pkeyid ∨ (hash · cookie)^[i] d.2.tkeyid = ap.key) := by
  have hleft : (ticked ap).seq = (receiver p ap).tick.left := by
    rw [← receiver_ticked]
    rfl
  have hsearch := search_iff (h := (hash · cookie)) (r := (receiver p ap).tick)
    (k := hash d.2.skeyid cookie)
  rw [hleft, hd.tkeyid]
  constructor
  · intro hflash
    cases hr : (receiver p ap).hear (hash · cookie) d.2.skeyid with
    | none =>
      rw [sequenceCheck_reject hd hp hr] at hflash
      cases hflash
    | some ri =>
      obtain ⟨n, hscan, -⟩ := map_eq_some_iff.mp hr
      rw [hscan] at hsearch
      obtain ⟨i, hhas, hi⟩ := hsearch.mp rfl
      exact ⟨i, hi, hhas⟩
  · rintro ⟨i, hi, hhas⟩
    obtain ⟨n, hscan⟩ := isSome_iff_exists.mp (hsearch.mpr ⟨i, hhas, hi⟩)
    exact (sequenceCheck_hear hd hp (map_eq_some_iff.mpr ⟨n, hscan, rfl⟩)).2.1

end Receiver

/-- A sender of symmetric or broadcast mode makes a list with its next packet and takes the keys of
    further packets from it; a receiver has what is announced. Of the packets any may be lost.
    Whatever the digest is, the check of the sequence accepts each packet that is delivered, within
    the hashes that are left and one more; and it accepts no packet whose key does not come to the
    last key or the announced one within these. -/
theorem key_sequence_accepted {α : Type} [Field α] (c : KeyHost) (q q0 : KeyPeer) (x : XmitCall)
    (s0 : AuthSys) (xs : List XmitCall) (hfresh : q.keynumber = 0)
    (hfirst : peerXmitKey c x q = some (s0, q0)) (hxs : Run.Meets (xmitStep c) KeepsList q0 xs)
    (p : Peer α) (hp : p.recval = q0.sndval) (ds : List (Env α × Rx))
    (hds : ∀ d ∈ ds, Unsigned c.hash q.cookie d)
    (hlost : (ds.map fun d => d.2.skeyid).Sublist (q0.keyid :: sentKeys c q0 xs)) :
    Run.Meets sequenceCheck PassesTest8 p ds ∧
      ∀ (p : Peer α) (ap : Autokey) (d : Env α × Rx), p.recval = some ap →
        Unsigned c.hash q.cookie d →
        ((sequenceCheck p d).flash.test8 = false ↔
          ∃ i : Nat, (i = 0 ∨ (i : Int) ≤ (ticked ap).seq + 1) ∧
            ((c.hash · q.cookie)^[i] d.2.tkeyid = p.pkeyid ∨
              (c.hash · q.cookie)^[i] d.2.tkeyid = ap.key)) := by
  refine ⟨?_, fun p ap d hp hd => sequenceCheck_iff hd hp⟩
  unfold peerXmitKey at hfirst
  rw [if_pos hfresh] at hfirst
  obtain ⟨hcookie, hkeyid, k, n, hlist⟩ := freshKey_spec hfirst
  -- What has been sent, by its numbers in the chain.
  have hsent : (q0.keyid :: sentKeys c q0 xs).Sublist
      ((List.range (n + 1)).reverse.map fun j => (c.hash · q.cookie)^[j] k) := by
    have hrest := sentKeys_sublist hlist.toListed hxs
    rw [hkeyid, hlist.toListed.xkeyid, hlist.last, hcookie] at *
    rw [range_succ, reverse_append]
    exact hrest.cons_cons _
  obtain ⟨js, hjs, hkeys⟩ := sublist_map_iff.mp (hlost.trans hsent)
  have hdown : ((n + 1) :: js).Pairwise (· > ·) := by
    refine pairwise_cons.mpr ⟨fun j hj => ?_, ?_⟩
    · exact mem_range.mp (mem_reverse.mp (hjs.subset hj))
    · exact (pairwise_reverse.mpr pairwise_lt_range).sublist hjs
  rw [hlist.sndval] at hp
  refine accepted_of_knows hp ⟨Or.inr ?_, ?_⟩ hds hkeys hdown
  · rw [← hcookie]
    rfl
  · change ((n + 1 : Nat) : Int) - 1 ≤ n
    omega

/-! ### A list of two keys -/

/-- A digest that counts up, and lists that end when a key has lived for a second. -/
def countingHost : KeyHost where
  digest := fun k _ => (List.range 4).map fun i => BitVec.ofNat 8 ((k + 1) / 256 ^ (3 - i))
  sys_automax := 0

/-- A packet of a broadcaster, whose key table is the given one. -/
def broadcastCall (auth : AuthSys) : XmitCall :=
  { auth := auth, tstamp := 1, ppoll := 0, hpoll := 0, signs := true, draws := [[70000]] }

/-- The first packet makes a list. -/
def firstSent : AuthSys × KeyPeer :=
  (peerXmitKey countingHost (broadcastCall {}) { broadcast := true }).getD ({}, {})

/-- A packet with a key, as the receiver has it. -/
def keyPacket (skeyid : Nat) : Env ℚ × Rx :=
  ({ idleEnv with session_key := countingHost.hash },
    { hismode := .broadcast
      hisversion := 4
      hisleap := .nowarning
      hisstratum := 1
      pkt := {}
      recv_time := 0
      restrict_mask := {}
      has_mac := true
      is_authentic := .ok
      skeyid := skeyid
      opcode := 0
      groupname := none
      tkeyid := countingHost.hash skeyid 0
      pkeyid := 0 })

/-- The second packet is accepted by a receiver that has not had the first. -/
theorem key_sequence_accepted_lost :
    firstSent.2.sndval = some { key := 70002, seq := 1 } ∧
      firstSent.2.keyid :: sentKeys countingHost firstSent.2 [broadcastCall firstSent.1] =
        [70001, 70000] ∧
      Run.Meets sequenceCheck PassesTest8 ({ recval := firstSent.2.sndval } : Peer ℚ)
        [keyPacket 70000] := by
  have hfirst : peerXmitKey countingHost (broadcastCall {}) { broadcast := true } =
      some firstSent := by
    rfl
  have hkeys : firstSent.2.keyid ::
      sentKeys countingHost firstSent.2 [broadcastCall firstSent.1] = [70001, 70000] := by
    decide
  refine ⟨by decide, hkeys, ?_⟩
  refine (key_sequence_accepted countingHost { broadcast := true } firstSent.2 (broadcastCall {})
    firstSent.1 [broadcastCall firstSent.1] rfl hfirst ?_ _ rfl [keyPacket 70000] ?_ ?_).1
  · exact ⟨⟨by decide, by decide⟩, trivial⟩
  · intro d hd
    rw [mem_singleton.mp hd]
    exact ⟨by decide, fun _ => rfl, rfl, rfl, rfl⟩
  · rw [hkeys]
    exact (List.Sublist.refl [70000]).cons 70001

end NtpSuite.Keys
