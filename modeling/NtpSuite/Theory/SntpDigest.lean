import NtpSuite.Core.SntpCrypto
import NtpSuite.Theory.MacLocation

/-!
# The Digest of a Packet

The client compares as many octets as the digest of the key is long, whatever the
length of the digest in the packet. So it looks behind a digest that is shorter, and
of one that is longer it does not look at the end.
-/

namespace NtpSuite.Sntp

open Reading List

variable {lib : EvpLib} {key : Key} {m : Memory} {pkt_size mac_size : Nat}

/-- The length of a digest for a key. -/
def EvpLib.keyLen (lib : EvpLib) (key : Key) : Nat :=
  lib.digest_len (lib.keytype_from_text key.type)

/-- The digest fits its buffer, no octet behind the one in the packet is compared, and only
    a digest of the right length that is equal is taken for authentic. -/
def Exact (lib : EvpLib) (m : Memory) (pkt_size mac_size : Nat) (key : Key) : Prop :=
  let call := authMd5 lib m pkt_size mac_size key
  call.digest.length ≤ DIGEST_SIZE ∧ call.compared ≤ mac_size ∧
    (call.authentic = true →
      mac_size = lib.keyLen key ∧ octetsAt m (pkt_size + 4) mac_size = call.digest)

theorem length_hexPairs {xs ys : CStr} (h : hexPairs xs = some ys) : ys.length ≤ xs.length / 2 := by
  fun_induction hexPairs xs generalizing ys with
  | case1 x y rest ih =>
    simp only [Option.bind_eq_bind, Option.bind_eq_some_iff, Option.pure_def,
      Option.some.injEq] at h
    obtain ⟨hi, -, lo, -, seq, hseq, rfl⟩ := h
    have htail := ih hseq
    simp only [length_cons]
    omega
  | case2 x => cases h
  | case3 => cases h; rfl

/-- A key of the file is never too long for `make_mac`. -/
theorem length_authKey {type keystring : CStr} (h : authKey type keystring = some key) :
    key.key_seq.length ≤ 64 := by
  have hscan : (keystring.take 128).length ≤ 128 := length_take_le _ _
  simp only [authKey] at h
  split_ifs at h with hshort
  · cases h
    exact hshort.trans (by decide)
  · obtain ⟨seq, hseq, rfl⟩ := Option.map_eq_some_iff.mp h
    have hlen := length_hexPairs hseq
    simp only
    omega

/-- The check of a digest is exact if and only if the digests of the key have its length,
    or are shorter and not the beginning of it. -/
theorem exact_iff_length (hkey : key.key_seq.length ≤ 64) (hsize : pkt_size % 4 = 0)
    (hmac : mac_size ≤ DIGEST_SIZE) :
    Exact lib m pkt_size mac_size key ↔ lib.keyLen key = mac_size ∨ lib.keyLen key < mac_size ∧
      (lib.keyLen key = 0 ∨
        makeMac lib m pkt_size key ≠ octetsAt m (pkt_size + 4) (lib.keyLen key)) := by
  have hlen : (makeMac lib m pkt_size key).length = lib.keyLen key := by
    rw [makeMac, if_neg (not_lt.mpr hkey), if_neg (not_not.mpr hsize), lib.length_digest]
    rfl
  simp only [Exact, authMd5, if_neg (not_lt.mpr hmac), hlen]
  split_ifs with hzero
  · simp [hlen, hzero]
    omega
  · simp only [hlen, beq_iff_eq]
    constructor
    · rintro ⟨-, hcompared, hequal⟩
      rcases hcompared.eq_or_lt with heq | hlt
      · exact .inl heq
      · exact .inr ⟨hlt, .inr fun h => hlt.ne' (hequal h).1⟩
    · rintro (heq | ⟨hlt, hdiffer⟩)
      · exact ⟨heq.trans_le hmac, heq.le, fun h => ⟨heq.symm, by rw [h, heq]⟩⟩
      · exact ⟨hlt.le.trans hmac, hlt.le, fun h => absurd h (hdiffer.resolve_left hzero)⟩

/-- Every key of the file, and every datagram that gets to `auth_md5`. -/
theorem sntp_digest_iff (lib : EvpLib) (m : Memory) (type keystring : CStr) (d : Datagram)
    (mac : Nat × Nat) (hkey : authKey type keystring = some key) (hmac : sntpMac d = some mac)
    (hdigest : 20 ≤ mac.2) :
    Exact lib m (d.pkt_len - mac.2) (mac.2 - 4) key ↔
      lib.keyLen key = mac.2 - 4 ∨ lib.keyLen key < mac.2 - 4 ∧
        (lib.keyLen key = 0 ∨ makeMac lib m (d.pkt_len - mac.2) key ≠
          octetsAt m (d.pkt_len - mac.2 + 4) (lib.keyLen key)) := by
  obtain ⟨-, hmod, htotal, hshort, lens, -, hoff, -⟩ := sntpMac_skips hmac
  have hbase : LEN_PKT_NOMAC = 48 := rfl
  have hmax : DIGEST_SIZE = 20 := rfl
  exact exact_iff_length (length_authKey hkey) (by omega) (by omega)

/-- A library with digests of a length. -/
def zeroLib (n : Nat) : EvpLib where
  keytype_from_text _ := 1
  digest _ _ := replicate n 0
  digest_len _ := n
  length_digest _ _ := length_replicate

/-- A datagram with a digest of twenty octets. -/
def digestPacket : Datagram where
  sender := {}
  pkt_len := 72
  pkt := {}
  exten := [1, 0, 0, 0, 0, 0]

/-- Of `SHA512` the digest is written far behind its buffer. -/
theorem not_exact_sha512 : authKey [0x53] [0x61] = some ⟨[0x53], [0x61]⟩ ∧
    sntpMac digestPacket = some (48, 24) ∧
    ¬Exact (zeroLib 64) (fun _ => 0) (72 - 24) (24 - 4) ⟨[0x53], [0x61]⟩ :=
  ⟨by decide, by decide, fun h => absurd h.1 (by decide)⟩

theorem sntp_digest_iff_sha1 :
    Exact (zeroLib 20) (fun _ => 0) (72 - 24) (24 - 4) ⟨[0x53], [0x61]⟩ :=
  (sntp_digest_iff (zeroLib 20) (fun _ => 0) [0x53] [0x61] digestPacket (48, 24) (by decide)
    (by decide) (by decide)).mpr (.inl rfl)

end NtpSuite.Sntp
