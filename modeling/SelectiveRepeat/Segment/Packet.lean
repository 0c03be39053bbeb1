/-
  SelectiveRepeat.Segment.Packet

  `struct pkt` and its accessors (packet_implem.c, packet_interface.h).  The
  bit-fields keep their widths, so a stored value is truncated exactly where the
  compiler truncates it.  A getter that only returns its field is the field's
  own projection; `pkt_get_payload` and `pkt_get_crc2` test TR first and are
  definitions of their own.
-/
import SelectiveRepeat.Lib.Bytes
import SelectiveRepeat.Exec

namespace SelectiveRepeat

def MAX_PAYLOAD_SIZE : Nat := 512

def MAX_WINDOW_SIZE : Nat := 31

/-- `pkt_status_code` -/
inductive PktStatusCode where
  | pktOk | eType | eTr | eLength | eCrc | eWindow | eSeqnum | eNomem | eNoheader | eUnconsistent
  deriving Repr, DecidableEq

/-- `struct pkt`; only the first `MAX_PAYLOAD_SIZE` cells of `payload` exist. -/
structure Pkt where
  type : BitVec 2
  tr : BitVec 1
  window : BitVec 5
  length : UInt16
  seqnum : UInt8
  timestamp : UInt32
  crc1 : UInt32
  payload : Mem
  crc2 : UInt32

/-- `PTYPE_DATA` -/
def ptypeData : BitVec 2 := 1

/-- `PTYPE_ACK` -/
def ptypeAck : BitVec 2 := 2

/-- `PTYPE_NACK` -/
def ptypeNack : BitVec 2 := 3

/-! ## Getters that look at TR -/

/-- `pkt_get_payload`: `none` is the `NULL` of a truncated packet. -/
def pktGetPayload (pkt : Pkt) : Option Mem :=
  if pkt.tr ≠ 0 then none else some pkt.payload

/-- `pkt_get_crc2` -/
def pktGetCrc2 (pkt : Pkt) : UInt32 :=
  if pkt.tr ≠ 0 then 0 else pkt.crc2

/-- Reading `pkt->length` bytes through the pointer `pkt_get_payload` returned. -/
def readPayload (pkt : Pkt) : Exec Bytes :=
  match pktGetPayload pkt with
  | none => .error .null
  | some payload =>
      if MAX_PAYLOAD_SIZE < pkt.length.toNat then .error (.payload pkt.length.toNat)
      else .ok (payload.slice 0 pkt.length.toNat)

/-! ## Setters -/

/-- The argument is an `enum` of the caller's; the field keeps its two low bits. -/
def pktSetType (pkt : Pkt) (type : UInt32) : PktStatusCode × Pkt :=
  if type = 0 then (.eType, pkt)
  else (.pktOk, { pkt with type := BitVec.ofNat 2 type.toNat })

def pktSetTr (pkt : Pkt) (tr : UInt8) : PktStatusCode × Pkt :=
  if pkt.type ≠ ptypeData ∧ tr ≠ 0 then (.eTr, pkt)
  else if 1 < pkt.tr.toNat then (.eTr, pkt)
  else (.pktOk, { pkt with tr := BitVec.ofNat 1 tr.toNat })

def pktSetWindow (pkt : Pkt) (window : UInt8) : PktStatusCode × Pkt :=
  if 31 < window.toNat then (.eWindow, pkt)
  else (.pktOk, { pkt with window := BitVec.ofNat 5 window.toNat })

def pktSetSeqnum (pkt : Pkt) (seqnum : UInt8) : PktStatusCode × Pkt :=
  (.pktOk, { pkt with seqnum := seqnum })

def pktSetLength (pkt : Pkt) (length : UInt16) : PktStatusCode × Pkt :=
  if 512 < length.toNat then (.eLength, pkt)
  else (.pktOk, { pkt with length := length })

def pktSetTimestamp (pkt : Pkt) (timestamp : UInt32) : PktStatusCode × Pkt :=
  (.pktOk, { pkt with timestamp := timestamp })

def pktSetCrc1 (pkt : Pkt) (crc1 : UInt32) : PktStatusCode × Pkt :=
  (.pktOk, { pkt with crc1 := crc1 })

def pktSetCrc2 (pkt : Pkt) (crc2 : UInt32) : PktStatusCode × Pkt :=
  (.pktOk, { pkt with crc2 := crc2 })

/-- `data` holds at least `length` bytes. -/
def pktSetPayload (pkt : Pkt) (data : Bytes) (length : UInt16) : PktStatusCode × Pkt :=
  if 512 < length.toNat then (.eLength, pkt)
  else
    let pkt := { pkt with payload := pkt.payload.blit 0 (data.take length.toNat) }
    (.pktOk, (pktSetLength pkt length).2)

/-! ## What the setters leave alone -/

@[simp] theorem pktSetTr_zero (pkt : Pkt) : pktSetTr pkt 0 = (.pktOk, { pkt with tr := 0 }) := by
  have h : ¬ 1 < pkt.tr.toNat := by have := pkt.tr.isLt; omega
  simp [pktSetTr, h]

theorem pktSetTr_of_data {pkt : Pkt} (h : pkt.type = ptypeData) (tr : UInt8) :
    pktSetTr pkt tr = (.pktOk, { pkt with tr := BitVec.ofNat 1 tr.toNat }) := by
  have h' : ¬ 1 < pkt.tr.toNat := by have := pkt.tr.isLt; omega
  simp [pktSetTr, h, h']

theorem pktSetLength_of_le {pkt : Pkt} {length : UInt16} (h : length.toNat ≤ 512) :
    pktSetLength pkt length = (.pktOk, { pkt with length := length }) := by
  simp [pktSetLength, Nat.not_lt.mpr h]

/-! Refused or not, a setter changes its own field only. -/

section
variable (pkt : Pkt)

@[simp] theorem pktSetWindow_type (window : UInt8) : (pktSetWindow pkt window).2.type = pkt.type := by
  rw [pktSetWindow]
  split <;> rfl

@[simp] theorem pktSetWindow_tr (window : UInt8) : (pktSetWindow pkt window).2.tr = pkt.tr := by
  rw [pktSetWindow]
  split <;> rfl

@[simp] theorem pktSetWindow_length (window : UInt8) :
    (pktSetWindow pkt window).2.length = pkt.length := by
  rw [pktSetWindow]
  split <;> rfl

@[simp] theorem pktSetLength_type (length : UInt16) :
    (pktSetLength pkt length).2.type = pkt.type := by
  rw [pktSetLength]
  split <;> rfl

@[simp] theorem pktSetLength_seqnum (length : UInt16) :
    (pktSetLength pkt length).2.seqnum = pkt.seqnum := by
  rw [pktSetLength]
  split <;> rfl

@[simp] theorem pktSetLength_timestamp (length : UInt16) :
    (pktSetLength pkt length).2.timestamp = pkt.timestamp := by
  rw [pktSetLength]
  split <;> rfl

@[simp] theorem pktSetPayload_type (data : Bytes) (length : UInt16) :
    (pktSetPayload pkt data length).2.type = pkt.type := by
  rw [pktSetPayload]
  split
  · rfl
  · exact pktSetLength_type _ _

@[simp] theorem pktSetPayload_seqnum (data : Bytes) (length : UInt16) :
    (pktSetPayload pkt data length).2.seqnum = pkt.seqnum := by
  rw [pktSetPayload]
  split
  · rfl
  · exact pktSetLength_seqnum _ _

@[simp] theorem pktSetPayload_timestamp (data : Bytes) (length : UInt16) :
    (pktSetPayload pkt data length).2.timestamp = pkt.timestamp := by
  rw [pktSetPayload]
  split
  · rfl
  · exact pktSetLength_timestamp _ _

end

theorem readPayload_of_le {pkt : Pkt} (htr : pkt.tr = 0) (h : pkt.length.toNat ≤ 512) :
    readPayload pkt = .ok (pkt.payload.slice 0 pkt.length.toNat) := by
  simp [readPayload, pktGetPayload, htr, MAX_PAYLOAD_SIZE, Nat.not_lt.mpr h]

/-! ## Sample packets -/

/-- A one-byte DATA packet. -/
def bytePkt (seqnum : UInt8) (timestamp : UInt32) (byte : UInt8) : Pkt where
  type := ptypeData
  tr := 0
  window := 31
  length := 1
  seqnum := seqnum
  timestamp := timestamp
  crc1 := 0
  payload := fun _ => byte
  crc2 := 0

/-- An ACK or a NACK. -/
def replyPkt (type : BitVec 2) (window : BitVec 5) (seqnum : UInt8) : Pkt where
  type := type
  tr := 0
  window := window
  length := 0
  seqnum := seqnum
  timestamp := 0
  crc1 := 0
  payload := fun _ => 0
  crc2 := 0

end SelectiveRepeat
