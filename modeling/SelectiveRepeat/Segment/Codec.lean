/-
  SelectiveRepeat.Segment.Codec

  `pkt_decode` and `pkt_encode` (packet_implem.c).  Both work on raw memory: the
  decoder reads the header before it looks at `len`, and stores every field
  through the setters, whose refusals it ignores.  zlib is not part of the
  repository, so `crc32` is a parameter.
-/
import SelectiveRepeat.Segment.Packet
import Mathlib.Algebra.Ring.Int.Defs
import Mathlib.Algebra.Ring.Nat

namespace SelectiveRepeat

/-- `crc32(crc, buf, len)`; `crc32(0L, Z_NULL, 0)` is `crc32 0 []`. -/
class Zlib where
  crc32 : UInt32 → Bytes → UInt32

export Zlib (crc32)

/-- The CRC of one block, as both functions compute it. -/
def blockCrc [Zlib] (bs : Bytes) : UInt32 :=
  crc32 (crc32 0 []) bs

/-- `*data` promoted to `int`: a plain `char` is signed. -/
def promoteChar (b : UInt8) : BitVec 32 := b.toBitVec.signExtend 32

/-- The cast `(int) len` of a `size_t`. -/
def intOfSize (len : Nat) : Int := (BitVec.ofNat 32 len).toInt

/-- `header[0] -= 32` -/
def clearTr (header : Bytes) : Bytes := header.modifyHead (· - 32)

/-! ## `pkt_decode` -/

/-- `(*data)>>6` -/
def wireType (data : Mem) : BitVec 32 := (promoteChar (data 0)).sshiftRight 6

/-- `((*data)>>5) & 1` -/
def wireTr (data : Mem) : BitVec 32 := (promoteChar (data 0)).sshiftRight 5 &&& 1

/-- `((*data)<<3)>>3` -/
def wireWindow (data : Mem) : BitVec 32 := ((promoteChar (data 0)) <<< 3).sshiftRight 3

/-- The `CHECK SIZE` block: how many bytes the header announces. -/
def decodeBase (data : Mem) : Nat :=
  let length := if wireType data = 1 then (ntohs (data.load16 1)).toNat else 0
  let base := if wireType data = 1 then 10 + 2 else 10
  if wireTr data = 0 then
    if 0 < length then base + length + 4 else base + length
  else base

/-- From `DECODE BEGINS` to the load of CRC1: every header field, TR set to 0. -/
def decodeHeader (data : Mem) (pkt : Pkt) : Pkt :=
  let pkt := { pkt with
    type := (wireType data).setWidth 2
    tr := (wireTr data).setWidth 1
    window := (wireWindow data).setWidth 5 }
  let pkt := (pktSetTr pkt 0).2
  let inc := if pkt.type = ptypeData then 2 else 0
  -- a length over 512 is refused, and the previous one stays in force
  let pkt :=
    if pkt.type = ptypeData then (pktSetLength pkt (ntohs (data.load16 1))).2
    else { pkt with length := 0 }
  let pkt := { pkt with seqnum := data (1 + inc), timestamp := data.load32 (2 + inc) }
  (pktSetCrc1 pkt (ntohl (data.load32 (6 + inc)))).2

/-- The payload block: reached with `pkt->tr` and `pkt->length` set. -/
def decodePayload [Zlib] (data : Mem) (inc : Nat) (pkt : Pkt) : Exec (PktStatusCode × Pkt) :=
  if pkt.tr = 0 ∧ 0 < pkt.length then
    if MAX_PAYLOAD_SIZE < pkt.length.toNat then .error (.payload pkt.length.toNat)
    else
      let payload := data.slice (10 + inc) pkt.length.toNat
      let pkt := { pkt with payload := pkt.payload.blit 0 payload }
      let srcCrc2 := data.load32 (10 + inc + pkt.length.toNat)
      let pkt := (pktSetCrc2 pkt (ntohl srcCrc2)).2
      let crc2 := blockCrc (pkt.payload.slice 0 pkt.length.toNat)
      if crc2 ≠ pktGetCrc2 pkt then .ok (.eCrc, pkt) else .ok (.pktOk, pkt)
  else .ok (.pktOk, pkt)

/-- The status and the packet after `pkt_decode(data, len, pkt)`. -/
def pktDecode [Zlib] (data : Mem) (len : Nat) (pkt : Pkt) : Exec (PktStatusCode × Pkt) :=
  if intOfSize len < decodeBase data then .ok (.eNomem, pkt)
  else
    let prevTr := UInt8.ofNat ((wireTr data).setWidth 1).toNat
    let pkt := decodeHeader data pkt
    let inc := if pkt.type = ptypeData then 2 else 0
    let lengthHeader := if wireType data = 1 then 6 + 2 else 6
    let header := data.slice 0 lengthHeader
    let header := if prevTr = 1 then clearTr header else header
    if blockCrc header ≠ pkt.crc1 then .ok (.eCrc, pkt)
    else decodePayload data inc (pktSetTr pkt prevTr).2

/-! ## `pkt_encode` -/

/-- The size check of `pkt_encode`. -/
def encodeBase (pkt : Pkt) : Nat :=
  let base := if pkt.type = ptypeData then 10 + 2 else 10
  if pkt.tr = 0 then
    if 0 < pkt.length then base + pkt.length.toNat + 4 else base + pkt.length.toNat
  else base

/-- `(type << 6) | (tr << 5) | window`, stored in a `char` -/
def headerByte (type : BitVec 2) (tr : BitVec 1) (window : BitVec 5) : UInt8 :=
  ⟨((type.setWidth 32 <<< 6) ||| (tr.setWidth 32 <<< 5) ||| window.setWidth 32).setWidth 8⟩

/-- The status, the buffer and `*len` after `pkt_encode(pkt, buf, &len)`. -/
def pktEncode [Zlib] (pkt : Pkt) (buf : Mem) (len : Nat) : Exec (PktStatusCode × Mem × Nat) :=
  if intOfSize len < encodeBase pkt then .ok (.eNomem, buf, len)
  else
    let lengthHeader := if pkt.type = ptypeData then 6 + 2 else 6
    let inc := if pkt.type = ptypeData then 2 else 0
    let buf := buf.blit 0 [headerByte pkt.type pkt.tr pkt.window]
    let buf := if pkt.type = ptypeData then buf.blit 1 (bytes16 (htons pkt.length)) else buf
    let buf := buf.blit (1 + inc) [pkt.seqnum]
    let buf := buf.blit (2 + inc) (bytes32 pkt.timestamp)
    let header := buf.slice 0 lengthHeader
    let header := if pkt.tr = 1 then clearTr header else header
    let buf := buf.blit (6 + inc) (bytes32 (htonl (blockCrc header)))
    if pkt.tr ≠ 0 then .ok (.pktOk, buf, 10 + inc)
    else if MAX_PAYLOAD_SIZE < pkt.length.toNat then .error (.payload pkt.length.toNat)
    else
      let payload := pkt.payload.slice 0 pkt.length.toNat
      let buf := buf.blit (10 + inc) payload
      if pkt.length = 0 then .ok (.pktOk, buf, 10 + inc)
      else
        let crc2 := htonl (blockCrc payload)
        let buf := buf.blit (10 + inc + pkt.length.toNat) (bytes32 crc2)
        .ok (.pktOk, buf, 16 + pkt.length.toNat)

end SelectiveRepeat
