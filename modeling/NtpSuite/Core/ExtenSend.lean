import NtpSuite.Core.Exten
import NtpSuite.Lib.Storing

/-!
# Sending an Extension Field

`crypto_send` of `ntp_crypto.c`, which puts a value and its signature into the
packet that is sent. The memory is that from the start of the field on, where
the caller has put the code and the association identifier. The value and the
signature are read through pointers, and their lengths are those the structure
declares.

## Main definitions

* `StructValue`: A `struct value` with its pointers.
* `copyPart`: The copy of a value or a signature.
* `cryptoSend`: The field.
-/

namespace NtpSuite.Exten

open Reading Storing

/-- `sizeof(struct pkt)`: the header, the extension fields and the MAC. -/
def SIZEOF_PKT : Nat := 2120

/-- A `struct value` with the memory its pointers point to. -/
structure StructValue where
  tstamp : BitVec 32
  fstamp : BitVec 32
  vallen : BitVec 32
  ptr : Option Memory
  siglen : BitVec 32
  sig : Option Memory

/-- A word is stored in network order. -/
def putWord (m : Memory) (off : Nat) (w : BitVec 32) : Memory := store m off (htonl w)

/-- The offset of `ep->pkt[i]`. -/
def pktOff (i : Nat) : Nat := 20 + 4 * i

/-- The copy of `len` octets to `ep->pkt[i]`. The word that is cleared before is
    found by `vallen`, for the signature as well as for the value, and the test
    compares signed numbers. The result has the index behind the copy. -/
def copyPart (m : Memory) (i : Nat) (vallen len : BitVec 32) (src : Option Memory) :
    Memory × Nat :=
  match src with
  | none => (m, i)
  | some p =>
    if len = 0 then (m, i)
    else
      let j := (vallen / 4).toNat
      let (m, j) :=
        if (vallen / 4 * 4).slt len then (putWord m (pktOff (i + j)) 0, j + 1) else (m, j)
      (store m (pktOff i) (octetsAt p 0 len.toNat), i + j)

/-- The length of the field, computed in 32 bits. -/
def sendLen (vallen siglen : BitVec 32) : BitVec 32 :=
  16 + (words vallen + 1) * 4 + (words siglen + 1) * 4

/-- `crypto_send`. -/
def cryptoSend (m : Memory) (vp : StructValue) (start : Nat) : Int × Memory :=
  let len := sendLen vp.vallen vp.siglen
  if SIZEOF_PKT - MAX_MAC_LEN < (BitVec.ofNat 32 start + len).toNat then (0, m)
  else
    let m := putWord m 8 vp.tstamp
    let m := putWord m 12 vp.fstamp
    let m := putWord m 16 vp.vallen
    let (m, i) := copyPart m 0 vp.vallen vp.vallen vp.ptr
    let m := putWord m (pktOff i) vp.siglen
    let (m, _) := copyPart m (i + 1) vp.vallen vp.siglen vp.sig
    let opcode := wordAt m 0
    (len.toInt, putWord m 0 (opcode &&& 0xffff0000 ||| len))

end NtpSuite.Exten
