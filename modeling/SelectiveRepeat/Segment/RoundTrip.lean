/-
  SelectiveRepeat.Segment.RoundTrip

  The wire format as a byte string, independent of any buffer, and the two
  halves of the codec stated against it: `pktEncode` writes `Pkt.wire`, and
  `pktDecode` of a memory that starts with `Pkt.wire` returns the packet's
  fields whatever the destination held and whatever follows.  A datagram
  truncated by the network is the wire image of the packet with TR set, so the
  decoding half covers it too.
-/
import SelectiveRepeat.Segment.Codec
import SelectiveRepeat.Lib.Crc32

namespace SelectiveRepeat

/-! ## The wire format -/

/-- The header up to CRC1, with the TR bit as given. -/
def Pkt.headerBytes (pkt : Pkt) (tr : BitVec 1) : Bytes :=
  headerByte pkt.type tr pkt.window ::
    ((if pkt.type = ptypeData then bytes16 (htons pkt.length) else []) ++
      pkt.seqnum :: bytes32 pkt.timestamp)

/-- The bytes of the payload that are on the wire. -/
def Pkt.data (pkt : Pkt) : Bytes := pkt.payload.slice 0 pkt.length.toNat

/-- The datagram a packet is sent as: CRC1 is taken with TR at 0, payload and
    CRC2 are there only when there is a payload. -/
def Pkt.wire [Zlib] (pkt : Pkt) : Bytes :=
  pkt.headerBytes pkt.tr ++ bytes32 (htonl (blockCrc (pkt.headerBytes 0))) ++
    if pkt.tr = 0 ∧ 0 < pkt.length then pkt.data ++ bytes32 (htonl (blockCrc pkt.data)) else []

/-- A packet whose length field is one the protocol allows for its type. -/
structure Pkt.Sized (pkt : Pkt) : Prop where
  length_le : pkt.length.toNat ≤ 512
  length_zero : pkt.type ≠ ptypeData → pkt.length = 0

/-- A packet the protocol allows: a known type, TR only on DATA, a legal length. -/
structure Pkt.Valid (pkt : Pkt) : Prop extends pkt.Sized where
  type_ne : pkt.type ≠ 0
  tr_data : pkt.tr = 1 → pkt.type = ptypeData

/-- What the header contributes after its first byte. -/
def lengthInc (type : BitVec 2) : Nat := if type = ptypeData then 2 else 0

@[simp] theorem Pkt.headerBytes_length (pkt : Pkt) (tr : BitVec 1) :
    (pkt.headerBytes tr).length = 6 + lengthInc pkt.type := by
  by_cases h : pkt.type = ptypeData <;> simp [Pkt.headerBytes, lengthInc, h]

@[simp] theorem Pkt.data_length (pkt : Pkt) : pkt.data.length = pkt.length.toNat := by
  simp [Pkt.data]

/-- The size `pkt_encode` checks for is the size of the datagram. -/
theorem Pkt.wire_length [Zlib] (pkt : Pkt) : pkt.wire.length = encodeBase pkt := by
  simp only [Pkt.wire, encodeBase, List.length_append, Pkt.headerBytes_length, bytes32_length,
    lengthInc, uint16_pos]
  split <;> split <;> split <;> simp_all <;> omega

/-! ## The first byte -/

/-- The shifts of `pkt_decode`, through a signed `char`, recover the three fields
    `pkt_encode` packed. -/
theorem headerByte_fields {m : Mem} {type : BitVec 2} {tr : BitVec 1} {window : BitVec 5}
    (h : m 0 = headerByte type tr window) :
    (wireType m).setWidth 2 = type ∧ (wireType m = 1 ↔ type = ptypeData) ∧
    (wireTr m).setWidth 1 = tr ∧ (wireTr m = 0 ↔ tr = 0) ∧
    (wireWindow m).setWidth 5 = window := by
  simp only [wireType, wireTr, wireWindow, h]
  clear h
  revert type tr window
  decide

theorem headerByte_clear (type : BitVec 2) (window : BitVec 5) :
    headerByte type 1 window - 32 = headerByte type 0 window := by
  revert type window
  decide

theorem bitVec1_cases (tr : BitVec 1) : tr = 0 ∨ tr = 1 := by
  revert tr
  decide

theorem bitVec1_ne_one {tr : BitVec 1} (h : tr = 0) : tr ≠ 1 := by
  rw [h]
  decide

/-- Both sides compute CRC1 over the header with TR at 0. -/
theorem Pkt.clearTr_headerBytes (pkt : Pkt) (tr : BitVec 1) :
    (if tr = 1 then clearTr (pkt.headerBytes tr) else pkt.headerBytes tr) = pkt.headerBytes 0 := by
  rcases bitVec1_cases tr with rfl | rfl
  · simp
  · rw [if_pos rfl, clearTr, Pkt.headerBytes, List.modifyHead_cons, headerByte_clear]
    rfl

/-! ## Encoding -/

theorem intOfSize_of_lt {len : Nat} (h : len < 2 ^ 31) : intOfSize len = len := by
  rw [intOfSize, BitVec.toInt_eq_toNat_of_lt] <;> simp only [BitVec.toNat_ofNat] <;> omega

/-- The header as the sequence of copies in `pkt_encode` lays it out. -/
theorem slice_header (pkt : Pkt) (buf : Mem) :
    let inc := lengthInc pkt.type
    let buf := buf.blit 0 [headerByte pkt.type pkt.tr pkt.window]
    let buf := if pkt.type = ptypeData then buf.blit 1 (bytes16 (htons pkt.length)) else buf
    let buf := buf.blit (1 + inc) [pkt.seqnum]
    (buf.blit (2 + inc) (bytes32 pkt.timestamp)).slice 0 (6 + inc) = pkt.headerBytes pkt.tr := by
  intro inc buf1 buf2 buf3
  -- one copy after the other: each leaves what is below it and appends its own bytes
  have h1 : buf1.slice 0 1 = [headerByte pkt.type pkt.tr pkt.window] := by
    exact Mem.slice_blit buf 0 [headerByte pkt.type pkt.tr pkt.window]
  have h2 : buf2.slice 0 (1 + inc) = headerByte pkt.type pkt.tr pkt.window ::
      if pkt.type = ptypeData then bytes16 (htons pkt.length) else [] := by
    by_cases hd : pkt.type = ptypeData
    · have h := Mem.slice_blit_append buf1 1 (bytes16 (htons pkt.length))
      rw [h1, bytes16_length] at h
      simpa [buf2, inc, lengthInc, hd] using h
    · simpa [buf2, inc, lengthInc, hd] using h1
  have h3 : buf3.slice 0 (2 + inc) = buf2.slice 0 (1 + inc) ++ [pkt.seqnum] := by
    have h := Mem.slice_blit_append buf2 (1 + inc) [pkt.seqnum]
    rw [show 2 + inc = 1 + inc + [pkt.seqnum].length by simp; omega]
    exact h
  have h4 := Mem.slice_blit_append buf3 (2 + inc) (bytes32 pkt.timestamp)
  rw [show 6 + inc = 2 + inc + (bytes32 pkt.timestamp).length by simp; omega, h4, h3, h2]
  simp [Pkt.headerBytes]

/-- `pkt_encode` up to CRC1: `buf'` starts with the header and CRC1, and what is left to
    do is to append the payload and CRC2. -/
theorem pktEncode_header [Zlib] {pkt : Pkt} (hs : pkt.Sized) (buf : Mem) {cap : Nat}
    (hcap : cap < 2 ^ 31) (hfit : pkt.wire.length ≤ cap) :
    let inc := lengthInc pkt.type
    ∃ buf' : Mem, buf'.slice 0 (10 + inc) =
        pkt.headerBytes pkt.tr ++ bytes32 (htonl (blockCrc (pkt.headerBytes 0))) ∧
      pktEncode pkt buf cap =
        (if pkt.tr ≠ 0 then .ok (.pktOk, buf', 10 + inc)
        else
          let buf' := buf'.blit (10 + inc) pkt.data
          if pkt.length = 0 then .ok (.pktOk, buf', 10 + inc)
          else
            let crc2 := htonl (blockCrc pkt.data)
            let buf' := buf'.blit (10 + inc + pkt.length.toNat) (bytes32 crc2)
            .ok (.pktOk, buf', 16 + pkt.length.toNat)) := by
  intro inc
  have hroom : ¬ intOfSize cap < encodeBase pkt := by
    rw [intOfSize_of_lt hcap, ← pkt.wire_length]
    omega
  have hmax : ¬ MAX_PAYLOAD_SIZE < pkt.length.toNat := Nat.not_lt.mpr hs.length_le
  have hinc : (if pkt.type = ptypeData then 6 + 2 else 6) = 6 + lengthInc pkt.type := by
    simp only [lengthInc]
    split <;> rfl
  -- neither the room nor the length is refused
  have hheader := slice_header pkt buf
  simp only [pktEncode, if_neg hroom, if_neg hmax, hinc]
  simp only [← lengthInc.eq_1]
  simp only at hheader
  rw [hheader, pkt.clearTr_headerBytes]
  refine ⟨_, ?_, rfl⟩
  -- CRC1 is copied behind the header
  have happend := Mem.slice_blit_of_slice hheader (bytes32 (htonl (blockCrc (pkt.headerBytes 0))))
  rw [bytes32_length] at happend
  rw [show 10 + inc = 6 + lengthInc pkt.type + 4 by omega]
  exact happend

/-- The payload and CRC2 behind the header. -/
theorem slice_payload [Zlib] {pkt : Pkt} {m : Mem} {n : Nat} {head : Bytes}
    (h : m.slice 0 n = head) (crc2 : UInt32) :
    ((m.blit n pkt.data).blit (n + pkt.length.toNat) (bytes32 crc2)).slice 0
        (n + pkt.length.toNat + 4) = head ++ (pkt.data ++ bytes32 crc2) := by
  have hdata := Mem.slice_blit_of_slice h pkt.data
  rw [pkt.data_length] at hdata
  have hcrc2 := Mem.slice_blit_of_slice hdata (bytes32 crc2)
  rw [bytes32_length, List.append_assoc] at hcrc2
  exact hcrc2

/-- `pkt_encode` of a packet with a legal length, into a buffer that is large
    enough, writes the packet's wire image from the start of the buffer and
    reports its size. -/
theorem pktEncode_wire [Zlib] {pkt : Pkt} (hs : pkt.Sized) (buf : Mem) {cap : Nat}
    (hcap : cap < 2 ^ 31) (hfit : pkt.wire.length ≤ cap) :
    ∃ buf', pktEncode pkt buf cap = .ok (.pktOk, buf', pkt.wire.length) ∧
      buf'.slice 0 pkt.wire.length = pkt.wire := by
  obtain ⟨hdr, hslice, henc⟩ := pktEncode_header hs buf hcap hfit
  rw [henc]
  have hzero : pkt.length = 0 ↔ pkt.length.toNat = 0 := by
    rw [← UInt16.toNat_inj, UInt16.toNat_zero]
  by_cases hpay : pkt.tr = 0 ∧ 0 < pkt.length
  · -- only DATA has a payload, so the header is the long one
    have hlen := uint16_pos.mp hpay.2
    have hne : ¬ pkt.length = 0 := by
      rw [hzero]
      omega
    have hdata : pkt.type = ptypeData := by
      by_contra hd
      exact hne (hs.length_zero hd)
    have hinc : lengthInc pkt.type = 2 := if_pos hdata
    have hwire : pkt.wire = pkt.headerBytes pkt.tr ++
        bytes32 (htonl (blockCrc (pkt.headerBytes 0))) ++
        (pkt.data ++ bytes32 (htonl (blockCrc pkt.data))) := by
      rw [Pkt.wire, if_pos hpay]
    have hwlen : pkt.wire.length = 16 + pkt.length.toNat := by
      rw [hwire]
      simp [hinc]
      omega
    rw [if_neg (not_not.mpr hpay.1), hwlen]
    simp only [if_neg hne]
    refine ⟨_, rfl, ?_⟩
    rw [hwire, ← slice_payload hslice, hinc]
    congr 1
    omega
  · -- without a payload the header and CRC1 are all there is
    have hwire : pkt.wire = pkt.headerBytes pkt.tr ++
        bytes32 (htonl (blockCrc (pkt.headerBytes 0))) := by
      rw [Pkt.wire, if_neg hpay, List.append_nil]
    have hwlen : pkt.wire.length = 10 + lengthInc pkt.type := by
      rw [hwire]
      simp
      omega
    rw [hwlen, hwire]
    by_cases htr : pkt.tr = 0
    · -- `memcpy` of an empty payload
      have hne : pkt.length = 0 := by
        rw [hzero]
        have hnot : ¬ 0 < pkt.length.toNat := fun h => hpay ⟨htr, uint16_pos.mpr h⟩
        omega
      have hnil : pkt.data = [] := by
        rw [← List.length_eq_zero_iff, pkt.data_length, hzero.mp hne]
      rw [if_neg (not_not.mpr htr)]
      simp only [if_pos hne, hnil, Mem.blit_nil]
      exact ⟨_, rfl, hslice⟩
    · rw [if_pos htr]
      exact ⟨_, rfl, hslice⟩

/-! ## Decoding -/

/-- What the loads of `pkt_decode` find in a memory that starts with a packet's
    wire image. -/
structure WireReads [Zlib] (pkt : Pkt) (m : Mem) : Prop where
  first : m 0 = headerByte pkt.type pkt.tr pkt.window
  length : pkt.type = ptypeData → m.load16 1 = htons pkt.length
  seqnum : m (1 + lengthInc pkt.type) = pkt.seqnum
  timestamp : m.load32 (2 + lengthInc pkt.type) = pkt.timestamp
  crc1 : m.load32 (6 + lengthInc pkt.type) = htonl (blockCrc (pkt.headerBytes 0))
  header : m.slice 0 (6 + lengthInc pkt.type) = pkt.headerBytes pkt.tr
  data : pkt.tr = 0 ∧ 0 < pkt.length →
    m.slice (10 + lengthInc pkt.type) pkt.length.toNat = pkt.data
  crc2 : pkt.tr = 0 ∧ 0 < pkt.length →
    m.load32 (10 + lengthInc pkt.type + pkt.length.toNat) = htonl (blockCrc pkt.data)

theorem wireReads_of_slice [Zlib] {pkt : Pkt} {m : Mem}
    (hm : m.slice 0 pkt.wire.length = pkt.wire) : WireReads pkt m := by
  have hall := hm
  rw [Pkt.wire, List.append_assoc] at hall
  obtain ⟨hheader, hrest⟩ := Mem.slice_eq_append hall
  obtain ⟨hcrc1, htail⟩ := Mem.slice_eq_append hrest
  rw [Pkt.headerBytes_length] at hheader
  rw [Pkt.headerBytes_length, Nat.zero_add] at hcrc1 htail
  rw [bytes32_length] at hcrc1 htail
  -- the fields of the header, one after the other
  have hfields := hheader
  rw [Pkt.headerBytes] at hfields
  obtain ⟨hfirst, hfields⟩ := Mem.slice_eq_cons hfields
  obtain ⟨hlength, hfields⟩ := Mem.slice_eq_append hfields
  have hinc : (if pkt.type = ptypeData then bytes16 (htons pkt.length) else []).length =
      lengthInc pkt.type := by
    simp only [lengthInc]
    split <;> rfl
  rw [hinc] at hlength hfields
  obtain ⟨hseqnum, hts⟩ := Mem.slice_eq_cons hfields
  -- and what is behind CRC1
  have hpay : pkt.tr = 0 ∧ 0 < pkt.length →
      m.slice (10 + lengthInc pkt.type) pkt.length.toNat = pkt.data ∧
      m.load32 (10 + lengthInc pkt.type + pkt.length.toNat) = htonl (blockCrc pkt.data) := by
    intro h
    rw [if_pos h] at htail
    obtain ⟨hdata, hcrc2⟩ := Mem.slice_eq_append htail
    rw [pkt.data_length, show 6 + lengthInc pkt.type + 4 = 10 + lengthInc pkt.type by omega]
      at hdata hcrc2
    refine ⟨hdata, load32_of_slice ?_⟩
    have hn := congrArg List.length hcrc2
    rw [Mem.slice_length, bytes32_length] at hn
    rw [hn] at hcrc2
    exact hcrc2
  refine ⟨hfirst, fun hd => ?_, ?_, load32_of_slice ?_, load32_of_slice hcrc1, hheader,
    fun h => (hpay h).1, fun h => (hpay h).2⟩
  · apply load16_of_slice
    simpa [lengthInc, hd] using hlength
  · simpa using hseqnum
  · rw [show 2 + lengthInc pkt.type = 0 + 1 + lengthInc pkt.type + 1 by omega]
    simpa [show 6 + lengthInc pkt.type - 1 - lengthInc pkt.type - 1 = 4 by omega] using hts

/-- `q` reads as `p` through the header getters. -/
structure Pkt.SameHeader (q p : Pkt) : Prop where
  type : q.type = p.type
  window : q.window = p.window
  length : q.length = p.length
  seqnum : q.seqnum = p.seqnum
  timestamp : q.timestamp = p.timestamp

/-- The TR field `pkt_decode` ends with: `pkt_set_tr` refuses it on a type other
    than DATA. -/
def Pkt.decodedTr (pkt : Pkt) : BitVec 1 := if pkt.type = ptypeData then pkt.tr else 0

/-- The header fields in one piece: only the length depends on the destination. -/
theorem decodeHeader_eq (data : Mem) (pkt : Pkt) :
    let type := (wireType data).setWidth 2
    let inc := lengthInc type
    decodeHeader data pkt =
      { type := type
        tr := 0
        window := (wireWindow data).setWidth 5
        length :=
          if type = ptypeData then
            if 512 < (ntohs (data.load16 1)).toNat then pkt.length else ntohs (data.load16 1)
          else 0
        seqnum := data (1 + inc)
        timestamp := data.load32 (2 + inc)
        crc1 := ntohl (data.load32 (6 + inc))
        payload := pkt.payload
        crc2 := pkt.crc2 } := by
  intro type inc
  by_cases hd : type = ptypeData
  · by_cases hl : 512 < (ntohs (data.load16 1)).toNat <;>
      simp [decodeHeader, pktSetLength, pktSetCrc1, type, inc, lengthInc, hd, hl]
  · simp [decodeHeader, pktSetCrc1, type, inc, lengthInc, hd]

/-- Putting the TR bit of the wire back: refused, and left at 0, off DATA. -/
theorem pktSetTr_decoded {pkt : Pkt} (h : pkt.tr = 0) (tr : BitVec 1) :
    (pktSetTr pkt (UInt8.ofNat tr.toNat)).2 =
      { pkt with tr := if pkt.type = ptypeData then tr else 0 } := by
  by_cases hd : pkt.type = ptypeData
  · rw [pktSetTr_of_data hd, if_pos hd]
    rcases bitVec1_cases tr with rfl | rfl <;> rfl
  · rw [if_neg hd]
    rcases bitVec1_cases tr with rfl | rfl
    · exact congrArg Prod.snd (pktSetTr_zero pkt)
    · have hne : UInt8.ofNat (1 : BitVec 1).toNat ≠ 0 := by decide
      rw [pktSetTr, if_pos ⟨hd, hne⟩, ← h]

/-- The payload block accepts a payload whose CRC2 is on the wire after it. -/
theorem decodePayload_of_reads [Zlib] (m : Mem) (inc : Nat) (pkt : Pkt) (data : Bytes)
    (hlen : pkt.length.toNat ≤ 512)
    (hdata : pkt.tr = 0 ∧ 0 < pkt.length → m.slice (10 + inc) pkt.length.toNat = data)
    (hcrc : pkt.tr = 0 ∧ 0 < pkt.length →
      m.load32 (10 + inc + pkt.length.toNat) = htonl (blockCrc data)) :
    ∃ payload crc2, decodePayload m inc pkt =
        .ok (.pktOk, { pkt with payload := payload, crc2 := crc2 }) ∧
      (pkt.tr = 0 ∧ 0 < pkt.length → payload.slice 0 pkt.length.toNat = data) := by
  by_cases h : pkt.tr = 0 ∧ 0 < pkt.length
  · have hslice : (pkt.payload.blit 0 data).slice 0 pkt.length.toNat = data := by
      have hl : data.length = pkt.length.toNat := by rw [← hdata h]; simp
      rw [← hl]
      exact Mem.slice_blit pkt.payload 0 data
    have hmax : ¬ MAX_PAYLOAD_SIZE < pkt.length.toNat := by
      simp only [MAX_PAYLOAD_SIZE]
      omega
    refine ⟨pkt.payload.blit 0 data, blockCrc data, ?_, fun _ => hslice⟩
    rw [decodePayload, if_pos h, if_neg hmax]
    simp only [hdata h, hcrc h, ntohl_htonl, pktSetCrc2, pktGetCrc2, hslice, h.1, ne_eq,
      not_true_eq_false, if_false]
  · exact ⟨pkt.payload, pkt.crc2, by rw [decodePayload, if_neg h], fun h' => absurd h' h⟩

/-- Both sides compute the size from the header. -/
theorem decodeBase_wire [Zlib] {pkt : Pkt} (hs : pkt.Sized) {m : Mem} (hr : WireReads pkt m) :
    decodeBase m = encodeBase pkt := by
  obtain ⟨-, hisdata, -, hiszero, -⟩ := headerByte_fields hr.first
  simp only [decodeBase, encodeBase, hisdata, hiszero, uint16_pos]
  by_cases hd : pkt.type = ptypeData
  · simp only [if_pos hd, hr.length hd, ntohs_htons]
  · simp only [if_neg hd, hs.length_zero hd, UInt16.toNat_zero]

/-- `pkt_decode` of a memory that starts with a wire image accepts it and returns
    the fields of the packet, whatever the destination held before and whatever
    follows in memory. -/
theorem pktDecode_wire [Zlib] {pkt : Pkt} (hs : pkt.Sized) {m : Mem} {len : Nat}
    (hm : m.slice 0 pkt.wire.length = pkt.wire) (hfit : pkt.wire.length ≤ len)
    (hlen : len < 2 ^ 31) (prior : Pkt) :
    ∃ q, pktDecode m len prior = .ok (.pktOk, q) ∧ q.SameHeader pkt ∧ q.tr = pkt.decodedTr ∧
      (pkt.tr = 0 → q.data = pkt.data) := by
  have hr := wireReads_of_slice hm
  obtain ⟨htype, hisdata, htr, -, hwindow⟩ := headerByte_fields hr.first
  -- the size check passes
  have hroom : ¬ intOfSize len < decodeBase m := by
    rw [intOfSize_of_lt hlen, decodeBase_wire hs hr, ← pkt.wire_length]
    omega
  have hlh : (if pkt.type = ptypeData then 6 + 2 else 6) = 6 + lengthInc pkt.type := by
    simp only [lengthInc]
    split <;> rfl
  have hprev : UInt8.ofNat pkt.tr.toNat = 1 ↔ pkt.tr = 1 := by
    rcases bitVec1_cases pkt.tr with h | h <;> rw [h] <;> decide
  have hlength : (if pkt.type = ptypeData then
      if 512 < (ntohs (m.load16 1)).toNat then prior.length else ntohs (m.load16 1)
      else 0) = pkt.length := by
    by_cases hd : pkt.type = ptypeData
    · rw [if_pos hd, hr.length hd, ntohs_htons, if_neg (Nat.not_lt.mpr hs.length_le)]
    · rw [if_neg hd, hs.length_zero hd]
  -- the header is read back, and its CRC1 with TR cleared is the one on the wire
  have hhdr := decodeHeader_eq m prior
  simp only [htype, hwindow, hlength, hr.seqnum, hr.timestamp, hr.crc1, ntohl_htonl] at hhdr
  simp only [pktDecode, if_neg hroom, htr, hhdr, hisdata, ← lengthInc.eq_1, hlh, hr.header, hprev,
    pkt.clearTr_headerBytes, ne_eq, not_true_eq_false, if_false]
  rw [pktSetTr_decoded rfl]
  -- the payload block goes by the TR that was set back
  have hdec : ∀ h : pkt.decodedTr = 0 ∧ 0 < pkt.length, pkt.tr = 0 ∧ 0 < pkt.length := by
    rintro ⟨h, hl⟩
    refine ⟨?_, hl⟩
    by_cases hd : pkt.type = ptypeData
    · rwa [Pkt.decodedTr, if_pos hd] at h
    · exact absurd (hs.length_zero hd) (by rintro h0; rw [h0] at hl; exact absurd hl (by decide))
  obtain ⟨payload, crc2, hok, hpayload⟩ := decodePayload_of_reads m (lengthInc pkt.type)
    { type := pkt.type, tr := pkt.decodedTr, window := pkt.window, length := pkt.length,
      seqnum := pkt.seqnum, timestamp := pkt.timestamp, crc1 := blockCrc (pkt.headerBytes 0),
      payload := prior.payload, crc2 := prior.crc2 }
    pkt.data hs.length_le (fun h => hr.data (hdec h)) (fun h => hr.crc2 (hdec h))
  refine ⟨_, hok, ⟨rfl, rfl, rfl, rfl, rfl⟩, rfl, fun htr0 => ?_⟩
  by_cases hl : 0 < pkt.length
  · have h0 : pkt.decodedTr = 0 := by simp only [Pkt.decodedTr, htr0, ite_self]
    exact hpayload ⟨h0, hl⟩
  · have hz : pkt.length.toNat = 0 := by rw [uint16_pos] at hl; omega
    simp [Pkt.data, hz]

/-! ## The round trip -/

/-- The room a packet needs: 10 bytes of header and CRC1, two more for the length
    field of DATA, and the payload with its CRC2. -/
def Pkt.size (pkt : Pkt) : Nat :=
  (if pkt.type = ptypeData then 12 else 10) +
    if pkt.tr = 0 ∧ 0 < pkt.length then pkt.length.toNat + 4 else 0

theorem Pkt.wire_length_eq_size [Zlib] (pkt : Pkt) : pkt.wire.length = pkt.size := by
  simp only [Pkt.wire, Pkt.size, List.length_append, Pkt.headerBytes_length, bytes32_length,
    lengthInc]
  split <;> split <;> simp

/-- Encode then decode is the identity on the fields: for every packet the
    protocol allows, every buffer large enough, every content of the destination
    and every bytes that follow the encoding. -/
theorem pktDecode_pktEncode [Zlib] (pkt : Pkt) (hv : pkt.Valid) (buf : Mem) (cap : Nat)
    (hcap : cap < 2 ^ 31) (hfit : pkt.size ≤ cap) :
    ∃ buf' n, pktEncode pkt buf cap = .ok (.pktOk, buf', n) ∧
      ∀ (appended : Bytes) (data : Mem) (prior : Pkt), n + appended.length < 2 ^ 31 →
        data.slice 0 (n + appended.length) = buf'.slice 0 n ++ appended →
        ∃ q, pktDecode data (n + appended.length) prior = .ok (.pktOk, q) ∧
          q.type = pkt.type ∧ q.tr = pkt.tr ∧ q.window = pkt.window ∧ q.length = pkt.length ∧
          q.seqnum = pkt.seqnum ∧ q.timestamp = pkt.timestamp ∧
          (pkt.tr = 0 →
            q.payload.slice 0 pkt.length.toNat = pkt.payload.slice 0 pkt.length.toNat) := by
  rw [← pkt.wire_length_eq_size] at hfit
  obtain ⟨buf', henc, hbuf⟩ := pktEncode_wire hv.toSized buf hcap hfit
  refine ⟨buf', _, henc, fun appended data prior hlt hdata => ?_⟩
  rw [hbuf] at hdata
  have hm : data.slice 0 pkt.wire.length = pkt.wire := (Mem.slice_eq_append hdata).1
  obtain ⟨q, hdec, hsame, htr, hpay⟩ :=
    pktDecode_wire hv.toSized hm (Nat.le_add_right _ appended.length) hlt prior
  -- TR is 1 on DATA only, where the decoder keeps it
  have htr' : q.tr = pkt.tr := by
    rw [htr, Pkt.decodedTr]
    rcases bitVec1_cases pkt.tr with h | h
    · rw [h, ite_self]
    · rw [if_pos (hv.tr_data h)]
  refine ⟨q, hdec, hsame.type, htr', hsame.window, hsame.length, hsame.seqnum, hsame.timestamp,
    fun h => ?_⟩
  have hdata' := hpay h
  rwa [Pkt.data, Pkt.data, hsame.length] at hdata'

/-- The DATA packet of packet_test.c: window 28, number 0x7b, "hello world". -/
def helloPkt : Pkt where
  type := ptypeData
  tr := 0
  window := 28
  length := 11
  seqnum := 0x7b
  timestamp := 0x17
  crc1 := 0
  payload := Mem.blit (fun _ => 0) 0
    [0x68, 0x65, 0x6c, 0x6c, 0x6f, 0x20, 0x77, 0x6f, 0x72, 0x6c, 0x64]
  crc2 := 0

/-- zlib with its own `crc32`. -/
abbrev zlib : Zlib := ⟨Crc32.crc32⟩

/-- The 27 bytes packet_test.c expects. -/
example : letI := zlib
    (pktEncode helloPkt (fun _ => 0) 57).map (fun r => r.2.1.slice 0 r.2.2) =
      .ok [0x5c, 0x00, 0x0b, 0x7b, 0x17, 0x00, 0x00, 0x00, 0x4e, 0xa0, 0x77, 0xdb, 0x68, 0x65,
        0x6c, 0x6c, 0x6f, 0x20, 0x77, 0x6f, 0x72, 0x6c, 0x64, 0x0d, 0x4a, 0x11, 0x85] := by
  decide +kernel

/-- The round trip of the packet of packet_test.c through its 57-byte buffer. -/
theorem pktDecode_pktEncode_hello : letI := zlib
    ∃ buf' n, pktEncode helloPkt (fun _ => 0) 57 = .ok (.pktOk, buf', n) ∧
      ∀ (appended : Bytes) (data : Mem) (prior : Pkt), n + appended.length < 2 ^ 31 →
        data.slice 0 (n + appended.length) = buf'.slice 0 n ++ appended →
        ∃ q, pktDecode data (n + appended.length) prior = .ok (.pktOk, q) ∧
          q.type = ptypeData ∧ q.tr = 0 ∧ q.window = 28 ∧ q.length = 11 ∧
          q.seqnum = 0x7b ∧ q.timestamp = 0x17 ∧
          ((0 : BitVec 1) = 0 → q.payload.slice 0 11 = helloPkt.payload.slice 0 11) :=
  letI := zlib
  pktDecode_pktEncode helloPkt ⟨⟨by decide, by decide⟩, by decide, by decide⟩ (fun _ => 0) 57
    (by decide) (by decide)

end SelectiveRepeat
