/-
  SelectiveRepeat.Segment.Corrupt

  A byte changed on the way.  A CRC tells apart two blocks that differ in one byte,
  and the stored CRC is compared byte for byte, so the change is seen by the CRC of
  the part it falls in: CRC1 for the header, CRC2 for the payload.  A header that
  is changed is turned down before anything it announces is used.
-/
import SelectiveRepeat.Segment.Extent
import SelectiveRepeat.Segment.Reencode

namespace SelectiveRepeat

/-- All that is asked of zlib: the CRCs of two blocks of one length that differ in exactly one
    byte differ. -/
def DetectsOneByte [Zlib] : Prop :=
  ∀ bs bs' : Bytes, OneByteApart bs bs' → blockCrc bs ≠ blockCrc bs'

/-- What the network does to the first `n` bytes: one behind the first is replaced, or the
    window in the first is. -/
inductive Mem.Corrupted (m m' : Mem) (n : Nat) : Prop where
  | byte (i : Nat) (hi : 1 ≤ i) (h : m.ApartAt m' n i)
  | window (h : m.ApartAt m' n 0) (htype : m'.typeField = m.typeField)
      (htr : m'.trField = m.trField)

/-! ## The number behind a block -/

/-- Four bytes in network order determine the number. -/
theorem net32_eq_iff {m m' : Mem} {off off' : Nat} :
    m.net32 off = m'.net32 off' ↔ m.slice off 4 = m'.slice off' 4 := by
  have h0 := (m off).toNat_lt
  have h1 := (m (off + 1)).toNat_lt
  have h2 := (m (off + 2)).toNat_lt
  have h3 := (m (off + 3)).toNat_lt
  have h0' := (m' off').toNat_lt
  have h1' := (m' (off' + 1)).toNat_lt
  have h2' := (m' (off' + 2)).toNat_lt
  have h3' := (m' (off' + 3)).toNat_lt
  simp only [Mem.slice_succ, Mem.slice_zero, List.cons.injEq, and_true, ← UInt8.toNat_inj, Mem.net32,
    Nat.add_assoc, Nat.reduceAdd]
  omega

section
variable {m m' : Mem} {n i : Nat}

theorem Mem.ApartAt.net32_ne (h : m.ApartAt m' n i) {off : Nat} (hlo : off ≤ i)
    (hhi : i < off + 4) (hn : off + 4 ≤ n) : m.net32 off ≠ m'.net32 off := by
  rw [Ne, net32_eq_iff]
  exact (h.slice hlo hhi hn).ne

theorem Mem.ApartAt.net32_eq (h : m.ApartAt m' n i) {off : Nat} (hout : i < off ∨ off + 4 ≤ i)
    (hn : off + 4 ≤ n) : m.net32 off = m'.net32 off :=
  net32_eq_iff.mpr (h.slice_eq hout hn)

/-- A block and its CRC on the wire at `off`: when one byte of the two changes, the CRC is no
    longer that of the block. -/
theorem Mem.ApartAt.stored_ne [Zlib] (hd : DetectsOneByte) (h : m.ApartAt m' n i) {off : Nat}
    (hn : off + 4 ≤ n) (hi : i < off + 4) {block block' : Bytes}
    (hright : m.net32 off = (blockCrc block).toNat) (hin : i < off → OneByteApart block block')
    (hout : off ≤ i → block = block') : m'.net32 off ≠ (blockCrc block').toNat := by
  intro hright'
  rcases Nat.lt_or_ge i off with hlt | hge
  · -- the block has another CRC, and the one on the wire is the old one
    apply hd _ _ (hin hlt)
    rw [← UInt32.toNat_inj, ← hright, ← hright']
    exact h.net32_eq (.inl hlt) hn
  · -- the block is the old one, and its CRC is not on the wire
    apply h.net32_ne hge hi hn
    rw [hright, hright', hout hge]

/-- A changed byte of the payload or of CRC2 leaves CRC2 wrong. -/
theorem Mem.ApartAt.crc2_wrong [Zlib] (hd : DetectsOneByte) (h : m.ApartAt m' n i) {off k : Nat}
    (hlo : off ≤ i) (hhi : i < off + k + 4) (hn : off + k + 4 ≤ n) (hright : m.Crc2Right off k) :
    ¬ m'.Crc2Right off k := by
  rw [Mem.Crc2Right] at hright ⊢
  apply h.stored_ne hd hn hhi hright
  · intro hlt
    exact h.slice hlo hlt (by omega)
  · intro hge
    exact h.slice_eq (.inr hge) (by omega)

end

/-! ## The header -/

/-- The window is in what CRC1 covers, TR is not. -/
theorem clearedByte_inj {m m' : Mem} (htype : m'.typeField = m.typeField)
    (htr : m'.trField = m.trField) (h : m 0 &&& 0xDF = m' 0 &&& 0xDF) : m 0 = m' 0 := by
  have hmask : ∀ b : BitVec 8, (b &&& 0xDF).extractLsb' 0 5 = b.extractLsb' 0 5 := by decide
  have hwindow : m.windowField = m'.windowField := by
    rw [Mem.windowField, Mem.windowField, ← hmask (m 0).toBitVec, ← hmask (m' 0).toBitVec]
    exact congrArg (fun b : UInt8 => b.toBitVec.extractLsb' 0 5) h
  rw [← headerByte_ofFields m, ← headerByte_ofFields m', htype, htr, hwindow]

/-- What CRC1 covers differs in the one byte. -/
theorem Mem.ApartAt.clearedHeader {m m' : Mem} {n i : Nat} (h : m.ApartAt m' n i)
    (htype : m'.typeField = m.typeField) (htr : i = 0 → m'.trField = m.trField)
    (hi : i < m.headerSize) (hn : m.headerSize ≤ n) :
    OneByteApart m.clearedHeader m'.clearedHeader := by
  rw [Mem.clearedHeader, Mem.clearedHeader, Mem.headerSize_congr htype]
  rcases Nat.eq_zero_or_pos i with rfl | hpos
  · have hrest : m.slice 1 (m.headerSize - 1) = m'.slice 1 (m.headerSize - 1) :=
      h.slice_eq (.inl Nat.one_pos) (by omega)
    rw [hrest]
    exact ⟨[], _, _, _, fun heq => h.ne (clearedByte_inj htype (htr rfl) heq), rfl, rfl⟩
  · rw [← h.same 0 (by omega) (by omega)]
    exact (h.slice hpos (by omega) (by omega)).cons _

/-- A changed byte of the header or of CRC1 leaves CRC1 wrong. -/
theorem Mem.ApartAt.crc1_wrong [Zlib] (hd : DetectsOneByte) {m m' : Mem} {n i : Nat}
    (h : m.ApartAt m' n i) (htype : m'.typeField = m.typeField)
    (htr : i = 0 → m'.trField = m.trField) (hi : i < m.headerSize + 4)
    (hn : m.headerSize + 4 ≤ n) (hright : m.Crc1Right) : ¬ m'.Crc1Right := by
  have hsize := Mem.headerSize_congr htype
  rw [Mem.Crc1Right] at hright ⊢
  rw [hsize]
  apply h.stored_ne hd hn hi hright
  · intro hlt
    exact h.clearedHeader htype htr hlt (by omega)
  · intro hge
    have hpos : 0 < m.headerSize := by
      rw [Mem.headerSize]
      omega
    rw [Mem.clearedHeader, Mem.clearedHeader, hsize, h.same 0 (by omega) (by omega),
      h.slice_eq (.inr (by omega)) (by omega)]

/-! ## The decoder -/

/-- A wrong CRC1 is an error, whatever the header announces. -/
theorem pktDecode_crc1_wrong [Zlib] {m : Mem} (h : ¬ m.Crc1Right) (len : Nat) (prior : Pkt) :
    ∃ status q, pktDecode m len prior = .ok (status, q) ∧ status ≠ .pktOk := by
  rw [pktDecode_eq, if_pos h]
  split
  · exact ⟨_, _, rfl, PktStatusCode.noConfusion⟩
  · exact ⟨_, _, rfl, PktStatusCode.noConfusion⟩

/-- A wrong CRC2 is an error, under a header that announces a payload. -/
theorem pktDecode_crc2_wrong [Zlib] {m : Mem} (hco : m.Coherent) (hpay : m.HasPayload)
    (h : ¬ m.Crc2Right 12 m.lengthField) (len : Nat) (prior : Pkt) :
    ∃ status q, pktDecode m len prior = .ok (status, q) ∧ status ≠ .pktOk := by
  rw [pktDecode_eq]
  split
  · exact ⟨_, _, rfl, PktStatusCode.noConfusion⟩
  split
  · exact ⟨_, _, rfl, PktStatusCode.noConfusion⟩
  · obtain ⟨status, q, hok, hstatus⟩ := decodePayload_coherent hco prior
    exact ⟨status, q, hok, fun hgood => h (hstatus.mp hgood hpay)⟩

/-- A valid datagram with a byte changed is turned down. -/
theorem Mem.ValidDatagram.corrupted [Zlib] (hd : DetectsOneByte) {m m' : Mem} {n : Nat}
    (hv : m.ValidDatagram n) (hn : m.datagramSize = n) (hc : m.Corrupted m' n) (len : Nat)
    (prior : Pkt) : ∃ status q, pktDecode m' len prior = .ok (status, q) ∧ status ≠ .pktOk := by
  have hheader := header_within m
  have hsize : m.headerSize + 4 ≤ n := by
    rw [Mem.headerSize]
    omega
  cases hc with
  | window h htype htr =>
      exact pktDecode_crc1_wrong (h.crc1_wrong hd htype (fun _ => htr) (by omega) hsize hv.crc1)
        len prior
  | byte i hi h =>
      have hbefore : ∀ j < i, m j = m' j := fun j hj => h.same j (by have := h.lt; omega) (by omega)
      have htype := Mem.typeField_congr hbefore (by omega)
      by_cases hpart : i < m.headerSize + 4
      · have hwrong := h.crc1_wrong hd htype.symm (fun h0 => by omega) hpart hsize hv.crc1
        exact pktDecode_crc1_wrong hwrong len prior
      · -- behind CRC1 there is only a payload, and the header in front of it is the old one
        have hpay : m.HasPayload := by
          by_contra hnone
          have hlt := h.lt
          rw [← hn, datagramSize_of_none hnone] at hlt
          exact hpart hlt
        have hinc : lengthInc m.typeField = 2 := if_pos hpay.1
        rw [Mem.headerSize, hinc] at hpart
        have htr := Mem.trField_congr hbefore (by omega)
        have hlength := Mem.lengthField_congr hbefore (by omega)
        have hco : m'.Coherent := by
          refine ⟨?_, ?_, ?_⟩
          · rw [← htype]
            exact hv.type_mem
          · rw [← htype, ← htr]
            exact hv.tr_data
          · rw [← htype, ← hlength]
            exact hv.length_le
        have hpay' : m'.HasPayload := by
          rw [Mem.HasPayload, ← htype, ← htr, ← hlength]
          exact hpay
        have hend : 12 + m.lengthField + 4 = n := by
          rw [← hn, datagramSize_of_payload hpay, Mem.headerSize, hinc]
          omega
        have hlt := h.lt
        have hwrong := h.crc2_wrong hd (by omega) (by omega) (by omega) (hv.crc2 hpay)
        rw [hlength] at hwrong
        exact pktDecode_crc2_wrong hco hpay' hwrong len prior

/-! ## The encoding -/

/-- The encoding of a packet the protocol allows is a valid datagram of its size. -/
theorem validDatagram_wire [Zlib] {pkt : Pkt} (hv : pkt.Valid) {m : Mem}
    (hm : m.slice 0 pkt.wire.length = pkt.wire) :
    m.ValidDatagram pkt.wire.length ∧ m.datagramSize = pkt.wire.length := by
  have hreads := wireReads_of_slice hm
  obtain ⟨htype, -, htr, -, -⟩ := headerByte_fields hreads.first
  rw [wireType_field] at htype
  rw [wireTr_field] at htr
  have hlength (hd : m.typeField = ptypeData) : m.lengthField = pkt.length.toNat := by
    rw [Mem.lengthField, ← ntohs_load16, hreads.length (htype ▸ hd), ntohs_htons]
  have hsize : m.datagramSize = pkt.wire.length := by
    rw [← decodeBase_eq, decodeBase_wire hv.toSized hreads, pkt.wire_length]
  have hco : m.Coherent := by
    refine ⟨?_, ?_, ?_⟩
    · rw [htype]
      have hne := hv.type_ne
      revert hne
      generalize pkt.type = type
      revert type
      decide
    · rw [htype, htr]
      exact hv.tr_data
    · intro hd
      rw [hlength hd]
      exact hv.length_le
  have hcrc1 : m.Crc1Right := by
    have hcleared : m.clearedHeader = pkt.headerBytes 0 := by
      rw [← clearTr_slice, htr, Mem.headerSize, htype, hreads.header, pkt.clearTr_headerBytes]
    rw [Mem.Crc1Right, hcleared, ← ntohl_load32_eq_iff, Mem.headerSize, htype, hreads.crc1,
      ntohl_htonl]
  refine ⟨⟨hco, Nat.le_of_eq hsize, hcrc1, ?_⟩, hsize⟩
  rintro ⟨hd, htr0, hne⟩
  rw [hlength hd] at hne ⊢
  have hpay : pkt.tr = 0 ∧ 0 < pkt.length :=
    ⟨htr ▸ htr0, uint16_pos.mpr (Nat.pos_of_ne_zero hne)⟩
  have hoff : 12 = 10 + lengthInc pkt.type := by rw [lengthInc, if_pos (htype ▸ hd)]
  rw [Mem.Crc2Right, hoff, hreads.data hpay, ← ntohl_load32_eq_iff, hreads.crc2 hpay, ntohl_htonl]

/-- A corrupted byte is always detected: in the encoding of a packet the protocol allows, any
    other byte for one behind the first, or another window in the first, makes `pkt_decode` return
    an error, whatever the destination held. -/
theorem pktDecode_corrupted [Zlib] (hdetects : DetectsOneByte) (pkt : Pkt) (hv : pkt.Valid)
    (buf : Mem) (cap : Nat) (hcap : cap < 2 ^ 31) (hfit : pkt.size ≤ cap) :
    ∃ wire n, pktEncode pkt buf cap = .ok (.pktOk, wire, n) ∧
      ∀ (data : Mem) (prior : Pkt), wire.Corrupted data n →
        ∃ status q, pktDecode data n prior = .ok (status, q) ∧ status ≠ .pktOk := by
  rw [← pkt.wire_length_eq_size] at hfit
  obtain ⟨wire, henc, hwire⟩ := pktEncode_wire hv.toSized buf hcap hfit
  obtain ⟨hvalid, hsize⟩ := validDatagram_wire hv hwire
  refine ⟨wire, _, henc, fun data prior hc => ?_⟩
  exact hvalid.corrupted hdetects hsize hc _ prior

/-- zlib's own crc32 tells the two blocks apart. -/
theorem zlib_detects : letI := zlib
    DetectsOneByte := by
  intro bs bs' h
  exact Crc32.crc32_ne_of_apart _ h

/-- The packet of packet_test.c, on its way. -/
theorem pktDecode_corrupted_hello : letI := zlib
    ∃ wire n, pktEncode helloPkt (fun _ => 0) 57 = .ok (.pktOk, wire, n) ∧
      ∀ (data : Mem) (prior : Pkt), wire.Corrupted data n →
        ∃ status q, pktDecode data n prior = .ok (status, q) ∧ status ≠ .pktOk :=
  letI := zlib
  pktDecode_corrupted zlib_detects helloPkt ⟨⟨by decide, by decide⟩, by decide, by decide⟩
    (fun _ => 0) 57 (by decide) (by decide)

end SelectiveRepeat
