import NtpSuite.Core.Sntp
import NtpSuite.Lib.Reading

/-!
# Keys and Digests of the SNTP Client

How a key is read from a line of the key file, and how a digest is computed and
compared. The digest functions are those of the crypto library, which knows how
long the digests of a type are.

## Main definitions

* `authKey`: The key of a line.
* `makeMac`, `authMd5`: A digest, and the check of a packet.
-/

namespace NtpSuite.Sntp

open Reading

/-- The crypto library: the type of a key, zero for a text that is none, and the digests. -/
structure EvpLib where
  keytype_from_text : CStr → Nat
  digest : Nat → CStr → CStr
  digest_len : Nat → Nat
  length_digest : ∀ t x, (digest t x).length = digest_len t

/-- `struct key`; the length of the key is that of `key_seq`. -/
structure Key where
  type : CStr
  key_seq : CStr
deriving DecidableEq, Repr

/-- `hex_val`, with no value for -1. -/
def hexVal (x : BitVec 8) : Option (BitVec 8) :=
  if 0x30 ≤ x ∧ x ≤ 0x39 then some (x - 0x30)
  else if 0x61 ≤ x ∧ x ≤ 0x66 then some (x - 0x61 + 0xa)
  else if 0x41 ≤ x ∧ x ≤ 0x46 then some (x - 0x41 + 0xA)
  else none

/-- The loop over the pairs of digits. A digit that is none makes the value negative. -/
def hexPairs : CStr → Option CStr
  | x :: y :: rest => do
    let hi ← hexVal x
    let lo ← hexVal y
    let seq ← hexPairs rest
    return (hi <<< 4 ||| lo) :: seq
  | [_] => none
  | [] => some []

/-- What `auth_init` makes of a line with a number and two words. A short word is the key itself,
    a long one is in hexadecimal digits. -/
def authKey (type keystring : CStr) : Option Key :=
  let keystring := keystring.take 128
  if keystring.length ≤ 20 then some ⟨type.take 9, keystring⟩
  else (hexPairs keystring).map (⟨type.take 9, ·⟩)

/-- `make_mac`: what is written to `digest`. -/
def makeMac (lib : EvpLib) (pkt_data : Memory) (pkt_size : Nat) (cmp_key : Key) : CStr :=
  if cmp_key.key_seq.length > 64 then []
  else if pkt_size % 4 ≠ 0 then []
  else lib.digest (lib.keytype_from_text cmp_key.type)
    (cmp_key.key_seq ++ octetsAt pkt_data 0 pkt_size)

/-- The size of `digest` in `auth_md5`. -/
def DIGEST_SIZE : Nat := 20

/-- A call of `auth_md5`: what it writes to `digest`, how many octets of the packet it compares
    with it, and what it returns. -/
structure AuthCall where
  digest : CStr
  compared : Nat
  authentic : Bool

/-- `auth_md5`. -/
def authMd5 (lib : EvpLib) (pkt_data : Memory) (pkt_size mac_size : Nat) (cmp_key : Key) :
    AuthCall :=
  if mac_size > DIGEST_SIZE then ⟨[], 0, false⟩
  else
    let digest := makeMac lib pkt_data pkt_size cmp_key
    let hash_len := digest.length
    if hash_len = 0 then ⟨digest, 0, false⟩
    else ⟨digest, hash_len, digest == octetsAt pkt_data (pkt_size + 4) hash_len⟩

end NtpSuite.Sntp
