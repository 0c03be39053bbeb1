/-
  SelectiveRepeat.System.Datagram

  The datagrams in flight.  Each one carries, besides its bytes, the number that
  its 8-bit sequence number stands for, which neither party sees.  The link can
  truncate a datagram to its first 12 bytes and set TR; what is left of a packet is
  that packet with TR set.
-/
import SelectiveRepeat.Receiver.Run
import SelectiveRepeat.Sender.Window

namespace SelectiveRepeat

/-! ## Truncation -/

/-- The first 12 bytes, with the TR bit set. -/
def truncate (d : Bytes) : Bytes := (d.take 12).modifyHead (· ||| 32)

/-- The packet a truncated datagram is the encoding of. -/
def Pkt.truncated (pkt : Pkt) : Pkt := { pkt with tr := 1 }

theorem headerByte_setTr (type : BitVec 2) (tr : BitVec 1) (window : BitVec 5) :
    headerByte type tr window ||| 32 = headerByte type 1 window := by
  revert type tr window
  decide

theorem headerByte_type (type : BitVec 2) (tr : BitVec 1) (window : BitVec 5) :
    ((headerByte type tr window).toBitVec >>> 6).setWidth 2 = type := by
  revert type tr window
  decide

theorem Pkt.Sized.truncated {pkt : Pkt} (hs : pkt.Sized) : pkt.truncated.Sized :=
  ⟨hs.length_le, hs.length_zero⟩

theorem truncate_wire [Zlib] {pkt : Pkt} (hs : pkt.Sized) :
    truncate pkt.wire = pkt.truncated.wire := by
  have htail : ¬ (pkt.truncated.tr = 0 ∧ 0 < pkt.truncated.length) :=
    fun h => absurd h.1 (show ¬ (1 : BitVec 1) = 0 by decide)
  have htake : pkt.wire.take 12 =
      pkt.headerBytes pkt.tr ++ bytes32 (htonl (blockCrc (pkt.headerBytes 0))) := by
    by_cases hd : pkt.type = ptypeData
    · apply List.take_left'
      rw [List.length_append, Pkt.headerBytes_length, bytes32_length, lengthInc, if_pos hd]
    · -- there is nothing behind the header of an ACK or a NACK
      have hzero : ¬ (pkt.tr = 0 ∧ 0 < pkt.length) := by
        rw [hs.length_zero hd]
        exact fun h => absurd h.2 (by decide)
      rw [Pkt.wire, if_neg hzero, List.append_nil]
      apply List.take_of_length_le
      rw [List.length_append, Pkt.headerBytes_length, bytes32_length, lengthInc, if_neg hd]
      decide
  have hhead : (pkt.headerBytes pkt.tr ++ bytes32 (htonl (blockCrc (pkt.headerBytes 0)))).modifyHead
      (· ||| 32) =
      pkt.headerBytes 1 ++ bytes32 (htonl (blockCrc (pkt.headerBytes 0))) := by
    rw [Pkt.headerBytes, List.cons_append, List.modifyHead_cons, headerByte_setTr]
    rfl
  rw [truncate, htake, hhead, Pkt.wire, if_neg htail, List.append_nil]
  rfl

/-! ## Numbered datagrams -/

/-- The first number from `base` on that is `seqnum` modulo 256. -/
def absolute (base : Nat) (seqnum : UInt8) : Nat := base + distance (UInt8.ofNat base) seqnum

theorem absolute_ofNat {base k : Nat} (h : base ≤ k) (hlt : k - base < 256) :
    absolute base (UInt8.ofNat k) = k := by
  rw [absolute, distance_ofNat h hlt]
  omega

/-- `num` is not part of the datagram; it says which number the sequence number in
    `bytes` stands for. -/
structure Datagram where
  num : Nat
  bytes : Bytes

def Datagram.truncate (d : Datagram) : Datagram :=
  { d with bytes := SelectiveRepeat.truncate d.bytes }

/-- A datagram the sender sends while `base` is the oldest number of its window.  The
    sequence number is the fourth byte. -/
def Datagram.sent (base : Nat) (d : Bytes) : Datagram :=
  { num := absolute base (d.getD 3 0), bytes := d }

/-- The type in the two high bits of the first byte. -/
def Datagram.type (d : Datagram) : BitVec 2 := ((d.bytes.headD 0).toBitVec >>> 6).setWidth 2

/-- The datagram is the encoding of `pkt`, and `num` is its number. -/
structure Datagram.Spells [Zlib] (d : Datagram) (pkt : Pkt) : Prop where
  bytes : d.bytes = pkt.wire
  sized : pkt.Sized
  seqnum : pkt.seqnum = UInt8.ofNat d.num

theorem Datagram.Spells.type [Zlib] {d : Datagram} {pkt : Pkt} (h : d.Spells pkt) :
    d.type = pkt.type := by
  rw [Datagram.type, h.bytes]
  exact headerByte_type pkt.type pkt.tr pkt.window

theorem Datagram.Spells.truncate [Zlib] {d : Datagram} {pkt : Pkt} (h : d.Spells pkt) :
    d.truncate.Spells pkt.truncated := by
  refine ⟨?_, h.sized.truncated, h.seqnum⟩
  rw [Datagram.truncate, h.bytes]
  exact truncate_wire h.sized

/-- What the receiver makes of such a datagram. -/
theorem Datagram.Spells.incoming [Zlib] {d : Datagram} {pkt : Pkt} (h : d.Spells pkt)
    (htype : pkt.type = ptypeData) {env : ReceiverEnv} (hpoll : env.poll = .ready (.bytes d.bytes))
    (st : ReceiverState) :
    ∃ q, env.incoming st = some q ∧ q.seqnum = UInt8.ofNat d.num ∧ q.tr = pkt.tr ∧
      (pkt.tr = 0 → q.data = pkt.data) := by
  rw [h.bytes] at hpoll
  obtain ⟨q, hinc, hsame, htr, hdata⟩ := ReceiverEnv.incoming_wire st hpoll h.sized htype
  exact ⟨q, hinc, hsame.seqnum.trans h.seqnum, htr, hdata⟩

/-- What the sender makes of an ACK or a NACK, whatever was in its buffer; TR on it is
    not looked at. -/
theorem Datagram.Spells.reply [Zlib] {d : Datagram} {pkt : Pkt} (h : d.Spells pkt)
    (htype : pkt.type ≠ ptypeData) {env : SenderEnv} (hsocket : env.socket = some (.bytes d.bytes))
    (buf : Mem) :
    ∃ q, env.reply buf = some q ∧ q.type = pkt.type ∧ q.seqnum = UInt8.ofNat d.num ∧
      q.window = pkt.window := by
  have hlen : pkt.wire.length = 10 := by
    rw [pkt.wire_length_eq_size, Pkt.size, if_neg htype, h.sized.length_zero htype]
    simp
  have hmem : ((ReadResult.bytes d.bytes).fill 12 buf).slice 0 pkt.wire.length = pkt.wire := by
    rw [h.bytes, ReadResult.fill, List.take_of_length_le (by omega)]
    exact Mem.slice_blit _ 0 pkt.wire
  obtain ⟨q, hdec, hsame, htr, -⟩ :=
    pktDecode_wire h.sized hmem (show pkt.wire.length ≤ 12 by omega) (by decide) (env.fresh .socket)
  -- TR on an ACK or a NACK is refused by the setter, so the packet is not taken for truncated
  have hne : q.tr ≠ 1 := bitVec1_ne_one (by rw [htr, Pkt.decodedTr, if_neg htype])
  refine ⟨q, ?_, hsame.type, hsame.seqnum.trans h.seqnum, hsame.window⟩
  simp only [SenderEnv.reply, hsocket, hdec]
  exact if_pos ⟨trivial, hne⟩

end SelectiveRepeat
