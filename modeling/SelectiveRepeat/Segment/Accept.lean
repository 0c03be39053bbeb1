/-
  SelectiveRepeat.Segment.Accept

  Which datagrams `pkt_decode` accepts, and what the previous content of the
  destination has to do with it.  Both results turn on one thing: the decoder
  stores the header through setters whose refusals it ignores, so a header the
  format does not allow is not rejected for that, and a length over 512 leaves
  the length of the packet before.
-/
import SelectiveRepeat.Segment.Format

namespace SelectiveRepeat

/-! ## Valid datagrams -/

/-- A header the format allows. -/
structure Mem.Coherent (m : Mem) : Prop where
  type_mem : m.typeField = ptypeData ∨ m.typeField = ptypeAck ∨ m.typeField = ptypeNack
  tr_data : m.trField = 1 → m.typeField = ptypeData
  length_le : m.typeField = ptypeData → m.lengthField ≤ 512

/-- A payload follows CRC1. -/
def Mem.HasPayload (m : Mem) : Prop :=
  m.typeField = ptypeData ∧ m.trField = 0 ∧ m.lengthField ≠ 0

/-- The first `len` bytes hold a datagram the format allows, with the CRCs it asks for. -/
structure Mem.ValidDatagram [Zlib] (m : Mem) (len : Nat) : Prop extends m.Coherent where
  size : m.datagramSize ≤ len
  crc1 : m.Crc1Right
  crc2 : m.HasPayload → m.Crc2Right 12 m.lengthField

theorem trField_ne_one {m : Mem} : m.trField ≠ 1 ↔ m.trField = 0 := by
  rcases bitVec1_cases m.trField with h | h <;> rw [h] <;> decide

/-- The length of a coherent header is the one on the wire. -/
theorem decodedLength_of_le {m : Mem} (hd : m.typeField = ptypeData) (hle : m.lengthField ≤ 512)
    (prior : Pkt) : (m.decodedLength prior).toNat = m.lengthField := by
  rw [Mem.decodedLength, if_pos hd, if_neg (Nat.not_lt.mpr hle), UInt16.toNat_ofNat']
  omega

theorem decodedLength_of_lt {m : Mem} (hd : m.typeField = ptypeData) (hlt : 512 < m.lengthField)
    (prior : Pkt) : m.decodedLength prior = prior.length := by
  rw [Mem.decodedLength, if_pos hd, if_pos hlt]

theorem decodedLength_of_ne {m : Mem} (hd : m.typeField ≠ ptypeData) (prior : Pkt) :
    m.decodedLength prior = 0 := by
  rw [Mem.decodedLength, if_neg hd]

/-- What is decided after CRC1, when the stored length is one that fits: CRC2 of so many
    bytes, if there are any. -/
theorem decodePayload_header [Zlib] (m : Mem) (prior : Pkt)
    (hd : m.typeField = ptypeData → m.trField = 0 → (m.decodedLength prior).toNat ≤ 512) :
    ∃ status q, decodePayload m (lengthInc m.typeField) (m.decodedHeader prior) = .ok (status, q) ∧
      (status = .pktOk ∨ status = .eCrc) ∧ q.length = m.decodedLength prior ∧
      (status = .pktOk ↔ m.typeField = ptypeData → m.trField = 0 →
        (m.decodedLength prior).toNat ≠ 0 → m.Crc2Right 12 (m.decodedLength prior).toNat) := by
  by_cases h : (m.decodedHeader prior).tr = 0 ∧ 0 < (m.decodedHeader prior).length
  · have hpos : (m.decodedLength prior).toNat ≠ 0 := by
      exact Nat.pos_iff_ne_zero.mp (uint16_pos.mp h.2)
    have hdata : m.typeField = ptypeData := by
      by_contra hne
      exact hpos (by rw [decodedLength_of_ne hne, UInt16.toNat_zero])
    have htr : m.trField = 0 := by
      have h0 : (if m.typeField = ptypeData then m.trField else 0) = 0 := h.1
      rwa [if_pos hdata] at h0
    refine ⟨_, _, decodePayload_eq m _ h (hd hdata htr), ite_eq_or_eq _ _ _, rfl, ?_⟩
    rw [show lengthInc m.typeField = 2 from if_pos hdata]
    by_cases hc : m.Crc2Right 12 (m.decodedLength prior).toNat
    · have hc' : m.Crc2Right (10 + 2) (m.decodedHeader prior).length.toNat := hc
      simp [if_pos hc', hc]
    · have hc' : ¬ m.Crc2Right (10 + 2) (m.decodedHeader prior).length.toNat := hc
      simp [if_neg hc', hc, hdata, htr, hpos]
  · refine ⟨_, _, decodePayload_none m _ h, .inl rfl, rfl, ?_⟩
    have hnone : m.typeField = ptypeData → m.trField = 0 →
        (m.decodedLength prior).toNat ≠ 0 → False := by
      intro hdata htr hne
      refine h ⟨?_, uint16_pos.mpr (Nat.pos_iff_ne_zero.mpr hne)⟩
      exact (if_pos hdata).trans htr
    exact ⟨fun _ hdata htr hne => (hnone hdata htr hne).elim, fun _ => rfl⟩

/-- A coherent header is followed by the payload it announces. -/
theorem decodePayload_coherent [Zlib] {m : Mem} (h : m.Coherent) (prior : Pkt) :
    ∃ status q, decodePayload m (lengthInc m.typeField) (m.decodedHeader prior) = .ok (status, q) ∧
      (status = .pktOk ↔ (m.HasPayload → m.Crc2Right 12 m.lengthField)) := by
  have hlength : m.typeField = ptypeData → (m.decodedLength prior).toNat = m.lengthField :=
    fun hd => decodedLength_of_le hd (h.length_le hd) prior
  obtain ⟨status, q, hok, -, -, hstatus⟩ := decodePayload_header m prior
    fun hd _ => by rw [hlength hd]; exact h.length_le hd
  refine ⟨status, q, hok, hstatus.trans ?_⟩
  refine ⟨?_, ?_⟩
  · rintro hright ⟨hd, htr, hne⟩
    rw [← hlength hd] at hne ⊢
    exact hright hd htr hne
  · intro hright hd htr hne
    rw [hlength hd] at hne ⊢
    exact hright ⟨hd, htr, hne⟩

/-- A header without the right to be accepted is turned down here only by a CRC2 that is looked
    for at the length the destination held before. -/
theorem decodePayload_incoherent [Zlib] {m : Mem} (h : ¬ m.Coherent) (prior : Pkt) :
    (∃ status q, decodePayload m (lengthInc m.typeField) (m.decodedHeader prior) =
        .ok (status, q) ∧ status ≠ .pktOk) ↔
      m.typeField = ptypeData ∧ m.trField = 0 ∧ 0 < prior.length.toNat ∧
        prior.length.toNat ≤ 512 ∧ ¬ m.Crc2Right 12 prior.length.toNat := by
  have hlength : m.typeField = ptypeData → m.trField = 0 →
      m.decodedLength prior = prior.length := by
    intro hd htr
    apply decodedLength_of_lt hd
    by_contra hle
    exact h ⟨.inl hd, fun _ => hd, fun _ => Nat.not_lt.mp hle⟩
  by_cases hover : m.typeField = ptypeData ∧ m.trField = 0 ∧ 512 < prior.length.toNat
  · -- a previous length that does not fit either: no defined result
    obtain ⟨hd, htr, hlt⟩ := hover
    rw [decodePayload_over m _ ((if_pos hd).trans htr)
      (show 512 < (m.decodedLength prior).toNat by rw [hlength hd htr]; exact hlt)]
    refine ⟨?_, ?_⟩
    · rintro ⟨status, q, hok, -⟩
      cases hok
    · rintro ⟨-, -, -, hle, -⟩
      omega
  · obtain ⟨status, q, hok, -, -, hstatus⟩ := decodePayload_header m prior
      fun hd htr => by
        rw [hlength hd htr]
        by_contra hlt
        exact hover ⟨hd, htr, Nat.not_le.mp hlt⟩
    refine ⟨?_, ?_⟩
    · rintro ⟨status', q', hok', hne⟩
      rw [hok] at hok'
      cases hok'
      rw [Ne, hstatus] at hne
      push Not at hne
      obtain ⟨hd, htr, hpos, hcrc2⟩ := hne
      rw [hlength hd htr] at hpos hcrc2
      exact ⟨hd, htr, Nat.pos_of_ne_zero hpos, Nat.not_lt.mp fun hlt => hover ⟨hd, htr, hlt⟩, hcrc2⟩
    · rintro ⟨hd, htr, hpos, -, hcrc2⟩
      refine ⟨status, q, hok, ?_⟩
      rw [Ne, hstatus]
      intro hall
      have hright := hall hd htr
      rw [hlength hd htr] at hright
      exact hcrc2 (hright (by omega))

/-- An incoherent header is turned down for another reason: the size, CRC1, or a CRC2 looked for
    at the length the destination held before. -/
def Mem.RefusedAnyway [Zlib] (m : Mem) (len : Nat) (prior : Pkt) : Prop :=
  len < m.datagramSize ∨ ¬ m.Crc1Right ∨
    (m.typeField = ptypeData ∧ m.trField = 0 ∧ 0 < prior.length.toNat ∧
      prior.length.toNat ≤ 512 ∧ ¬ m.Crc2Right 12 prior.length.toNat)

/-- `pkt_decode` returns, and accepts exactly the valid datagrams, when the header is
    coherent or the datagram is refused whatever its header says; and only then. -/
theorem pktDecode_accepts_iff [Zlib] (m : Mem) {len : Nat} (hlen : len < 2 ^ 31) (prior : Pkt) :
    (∃ status q, pktDecode m len prior = .ok (status, q) ∧
      (status = .pktOk ↔ m.ValidDatagram len)) ↔ m.Coherent ∨ m.RefusedAnyway len prior := by
  have hshort : intOfSize len < m.datagramSize ↔ len < m.datagramSize := by
    rw [intOfSize_of_lt hlen, Int.ofNat_lt]
  simp only [pktDecode_eq, hshort]
  by_cases hsize : len < m.datagramSize
  · -- too short for its header
    have hinvalid : ¬ m.ValidDatagram len := fun h => Nat.not_lt.mpr h.size hsize
    simp [hsize, hinvalid, Mem.RefusedAnyway]
  rw [if_neg hsize]
  by_cases hcrc : m.Crc1Right
  case neg =>
    have hinvalid : ¬ m.ValidDatagram len := fun h => hcrc h.crc1
    simp [hcrc, hinvalid, Mem.RefusedAnyway]
  rw [if_neg (not_not.mpr hcrc)]
  by_cases hco : m.Coherent
  · -- what is left to look at is CRC2
    obtain ⟨status, q, hok, hstatus⟩ := decodePayload_coherent hco prior
    refine ⟨fun _ => .inl hco, fun _ => ⟨status, q, hok, hstatus.trans ?_⟩⟩
    exact ⟨fun h => ⟨hco, Nat.not_lt.mp hsize, hcrc, h⟩, fun h => h.crc2⟩
  · -- nothing before CRC2 turns an incoherent header down
    have hinvalid : ¬ m.ValidDatagram len := fun h => hco h.toCoherent
    simp only [hinvalid, hco, iff_false, false_or, Mem.RefusedAnyway, hsize, hcrc,
      not_true_eq_false]
    exact decodePayload_incoherent hco prior

/-- Ten bytes of type 0 with the right CRC1. -/
def typeZero : Mem := Mem.blit (fun _ => 0) 0 [0, 0, 0, 0, 0, 0, 0xb1, 0xc2, 0xa1, 0xa3]

/-- `PTYPE_DATA` is 1: type 0 is no type, and `pkt_decode` takes it. -/
theorem pktDecode_accepts_typeZero : letI := zlib
    ¬ ∀ (m : Mem) (len : Nat) (prior : Pkt), len < 2 ^ 31 →
      ∃ status q, pktDecode m len prior = .ok (status, q) ∧
        (status = .pktOk ↔ m.ValidDatagram len) := by
  intro h
  obtain ⟨status, q, hok, hstatus⟩ := h typeZero 10 (replyPkt ptypeAck 0 0) (by decide)
  have hdec : letI := zlib
      (pktDecode typeZero 10 (replyPkt ptypeAck 0 0)).map Prod.fst = .ok .pktOk := by
    decide +kernel
  rw [hok] at hdec
  have hvalid := hstatus.mp (Except.ok.inj hdec)
  exact absurd hvalid.type_mem (by decide)

/-- The 27 bytes of packet_test.c. -/
def helloDatagram : Mem := Mem.blit (fun _ => 0) 0
  [0x5c, 0x00, 0x0b, 0x7b, 0x17, 0x00, 0x00, 0x00, 0x4e, 0xa0, 0x77, 0xdb, 0x68, 0x65, 0x6c, 0x6c,
    0x6f, 0x20, 0x77, 0x6f, 0x72, 0x6c, 0x64, 0x0d, 0x4a, 0x11, 0x85]

theorem pktDecode_accepts_iff_hello : letI := zlib
    ∃ status q, pktDecode helloDatagram 27 (replyPkt ptypeAck 0 0) = .ok (status, q) ∧
      (status = .pktOk ↔ helloDatagram.ValidDatagram 27) :=
  letI := zlib
  (pktDecode_accepts_iff helloDatagram (by decide) (replyPkt ptypeAck 0 0)).mpr
    (.inl ⟨by decide, by decide, by decide⟩)

/-! ## What the destination held before -/

/-- Two packets a caller cannot tell apart through the getters. -/
structure Pkt.SameGetters (q q' : Pkt) : Prop extends q.SameHeader q' where
  tr : q.tr = q'.tr
  data : q.tr = 0 → q.data = q'.data

/-- Two runs of `pkt_decode` return, with one status, and where they accept the packets read
    the same. -/
def SameDecode (x y : Exec (PktStatusCode × Pkt)) : Prop :=
  ∃ status q q', x = .ok (status, q) ∧ y = .ok (status, q') ∧ (status = .pktOk → q.SameGetters q')

/-- The one case where the previous packet is looked at: a DATA header announces more than 512
    bytes, the size check passes and CRC1 is right. -/
structure Mem.KeepsLength [Zlib] (m : Mem) (len : Nat) : Prop where
  data : m.typeField = ptypeData
  refused : 512 < m.lengthField
  size : ¬ intOfSize len < m.datagramSize
  crc1 : m.Crc1Right

/-- The decoded header takes nothing but the length from the destination. -/
theorem decodedHeader_same {m : Mem} {prior prior' : Pkt}
    (h : m.decodedLength prior = m.decodedLength prior') :
    (m.decodedHeader prior).SameHeader (m.decodedHeader prior') :=
  ⟨rfl, rfl, h, rfl, rfl⟩

/-- With one stored length the payload block cannot tell two destinations apart. -/
theorem sameDecode_of_length [Zlib] {m : Mem} {prior prior' : Pkt}
    (h : m.decodedLength prior = m.decodedLength prior')
    (hle : m.typeField = ptypeData → m.trField = 0 → (m.decodedLength prior).toNat ≤ 512) :
    SameDecode (decodePayload m (lengthInc m.typeField) (m.decodedHeader prior))
      (decodePayload m (lengthInc m.typeField) (m.decodedHeader prior')) := by
  have hsame := decodedHeader_same h
  by_cases hblock : (m.decodedHeader prior).tr = 0 ∧ 0 < (m.decodedHeader prior).length
  · have hblock' : (m.decodedHeader prior').tr = 0 ∧ 0 < (m.decodedHeader prior').length :=
      ⟨hblock.1, hsame.length ▸ hblock.2⟩
    have hmax : (m.decodedHeader prior).length.toNat ≤ 512 := by
      by_cases hd : m.typeField = ptypeData
      · exact hle hd ((if_pos hd).symm.trans hblock.1)
      · rw [show (m.decodedHeader prior).length = 0 from decodedLength_of_ne hd prior]
        decide
    have hmax' : (m.decodedHeader prior').length.toNat ≤ 512 := hsame.length ▸ hmax
    have hdec' := decodePayload_eq m (lengthInc m.typeField) hblock' hmax'
    rw [← hsame.length] at hdec'
    refine ⟨_, _, _, decodePayload_eq m _ hblock hmax, hdec', fun _ => ?_⟩
    refine ⟨⟨rfl, rfl, rfl, rfl, rfl⟩, rfl, fun _ => ?_⟩
    simp only [Pkt.data, Mem.slice_blit_slice]
  · have hblock' : ¬ ((m.decodedHeader prior').tr = 0 ∧ 0 < (m.decodedHeader prior').length) := by
      rwa [← hsame.length]
    refine ⟨.pktOk, _, _, decodePayload_none m _ hblock, decodePayload_none m _ hblock', ?_⟩
    intro _
    refine ⟨hsame, rfl, fun htr => ?_⟩
    -- no byte of either payload is counted
    have hzero : (m.decodedHeader prior).length.toNat = 0 := by
      have hnot : ¬ 0 < (m.decodedHeader prior).length := fun hpos => hblock ⟨htr, hpos⟩
      rw [uint16_pos] at hnot
      omega
    rw [Pkt.data, Pkt.data, ← hsame.length, hzero, Mem.slice_zero, Mem.slice_zero]

/-- Two previous lengths the payload block does not tell apart: with TR the length is read as it
    is, without it CRC2 is looked for behind so many bytes. -/
def Mem.SameLengths [Zlib] (m : Mem) (length length' : UInt16) : Prop :=
  (m.trField = 1 ∧ length = length') ∨
    (m.trField = 0 ∧ length.toNat ≤ 512 ∧ length'.toNat ≤ 512 ∧
      (length = length' ∨
        (length.toNat ≠ 0 ∧ length'.toNat ≠ 0 ∧ ¬ m.Crc2Right 12 length.toNat ∧
          ¬ m.Crc2Right 12 length'.toNat)))

theorem sameLengths_truncated [Zlib] {m : Mem} (htr : m.trField = 1) {length length' : UInt16} :
    m.SameLengths length length' ↔ length = length' := by
  have hne : ¬ m.trField = 0 := fun h0 => bitVec1_ne_one h0 htr
  simp only [Mem.SameLengths, hne, false_and, or_false, and_iff_right htr]

theorem sameLengths_payload [Zlib] {m : Mem} (htr : m.trField = 0) {length length' : UInt16} :
    m.SameLengths length length' ↔ length.toNat ≤ 512 ∧ length'.toNat ≤ 512 ∧
      (length = length' ∨
        (length.toNat ≠ 0 ∧ length'.toNat ≠ 0 ∧ ¬ m.Crc2Right 12 length.toNat ∧
          ¬ m.Crc2Right 12 length'.toNat)) := by
  have hne : ¬ m.trField = 1 := bitVec1_ne_one htr
  simp only [Mem.SameLengths, hne, false_and, false_or, and_iff_right htr]

/-! ### A length that is refused on the wire -/

section
variable [Zlib] {m : Mem} (hd : m.typeField = ptypeData) (hover : 512 < m.lengthField)
include hd hover

/-- Truncated: accepted with the previous length. -/
theorem sameDecode_truncated (htr : m.trField = 1) (prior prior' : Pkt) :
    SameDecode (decodePayload m (lengthInc m.typeField) (m.decodedHeader prior))
      (decodePayload m (lengthInc m.typeField) (m.decodedHeader prior')) ↔
    prior.length = prior'.length := by
  have hl := decodedLength_of_lt hd hover prior
  have hl' := decodedLength_of_lt hd hover prior'
  have hne : ¬ m.trField = 0 := fun h0 => bitVec1_ne_one h0 htr
  have hnone : ∀ p : Pkt, ¬ ((m.decodedHeader p).tr = 0 ∧ 0 < (m.decodedHeader p).length) :=
    fun p h => hne ((if_pos hd).symm.trans h.1)
  refine ⟨?_, ?_⟩
  · rintro ⟨status, q, q', hok, hok', hsame⟩
    rw [decodePayload_none m _ (hnone prior)] at hok
    rw [decodePayload_none m _ (hnone prior')] at hok'
    cases hok
    cases hok'
    have hlength : m.decodedLength prior = m.decodedLength prior' := (hsame rfl).length
    rwa [hl, hl'] at hlength
  · intro h
    exact sameDecode_of_length (by rw [hl, hl', h]) fun _ h0 => absurd h0 hne

/-- With a payload: CRC2 is looked for at the previous length, if that fits. -/
theorem decodePayload_kept (htr : m.trField = 0) {prior : Pkt} (hle : prior.length.toNat ≤ 512) :
    ∃ status q, decodePayload m (lengthInc m.typeField) (m.decodedHeader prior) = .ok (status, q) ∧
      (status = .pktOk ∨ status = .eCrc) ∧ q.length = prior.length ∧
      (status ≠ .pktOk ↔
        prior.length.toNat ≠ 0 ∧ ¬ m.Crc2Right 12 prior.length.toNat) := by
  have hl := decodedLength_of_lt hd hover prior
  obtain ⟨status, q, hok, hcases, hlen, hstatus⟩ :=
    decodePayload_header m prior fun _ _ => by rwa [hl]
  refine ⟨status, q, hok, hcases, hlen.trans hl, ?_⟩
  rw [Ne, hstatus, hl]
  simp [hd, htr]

/-- If it does not, there is no defined result. -/
theorem decodePayload_kept_over (htr : m.trField = 0) {prior : Pkt}
    (hlt : ¬ prior.length.toNat ≤ 512) {status : PktStatusCode} {q : Pkt} :
    decodePayload m (lengthInc m.typeField) (m.decodedHeader prior) ≠ .ok (status, q) := by
  have hl := decodedLength_of_lt hd hover prior
  rw [decodePayload_over m _ ((if_pos hd).trans htr)
    (show 512 < (m.decodedLength prior).toNat by rw [hl]; omega)]
  simp

theorem sameDecode_payload (htr : m.trField = 0) (prior prior' : Pkt) :
    SameDecode (decodePayload m (lengthInc m.typeField) (m.decodedHeader prior))
      (decodePayload m (lengthInc m.typeField) (m.decodedHeader prior')) ↔
    m.SameLengths prior.length prior'.length := by
  rw [sameLengths_payload htr]
  by_cases hle : prior.length.toNat ≤ 512
  case neg =>
    refine ⟨fun ⟨_, _, _, hok, _⟩ => ?_, fun h => absurd h.1 hle⟩
    exact absurd hok (decodePayload_kept_over hd hover htr hle)
  by_cases hle' : prior'.length.toNat ≤ 512
  case neg =>
    refine ⟨fun ⟨_, _, _, _, hok', _⟩ => ?_, fun h => absurd h.2.1 hle'⟩
    exact absurd hok' (decodePayload_kept_over hd hover htr hle')
  simp only [hle, hle', true_and]
  by_cases heq : prior.length = prior'.length
  · have hl := decodedLength_of_lt hd hover prior
    have hl' := decodedLength_of_lt hd hover prior'
    simp only [heq, true_or, iff_true]
    exact sameDecode_of_length (by rw [hl, hl', ← heq]) fun _ _ => by rwa [hl]
  -- both return; with different lengths only two refusals are alike
  obtain ⟨status, q, hok, hcases, hlen, hrefused⟩ := decodePayload_kept hd hover htr hle
  obtain ⟨status', q', hok', hcases', hlen', hrefused'⟩ := decodePayload_kept hd hover htr hle'
  simp only [heq, false_or]
  refine ⟨?_, ?_⟩
  · rintro ⟨s, r, r', h, h', hsame⟩
    rw [hok] at h
    rw [hok'] at h'
    cases h
    cases h'
    have hbad : status ≠ .pktOk := by
      intro hgood
      have hlength := (hsame hgood).length
      rw [hlen, hlen'] at hlength
      exact heq hlength
    obtain ⟨hpos, hcrc⟩ := hrefused.mp hbad
    obtain ⟨hpos', hcrc'⟩ := hrefused'.mp hbad
    exact ⟨hpos, hpos', hcrc, hcrc'⟩
  · rintro ⟨hpos, hpos', hcrc, hcrc'⟩
    have hbad := hcases.resolve_left (hrefused.mpr ⟨hpos, hcrc⟩)
    have hbad' := hcases'.resolve_left (hrefused'.mpr ⟨hpos', hcrc'⟩)
    exact ⟨.eCrc, q, q', hbad ▸ hok, hbad' ▸ hok', fun h => absurd h (by decide)⟩

/-- Where the length on the wire is refused, the results are alike exactly when the previous
    lengths are not told apart. -/
theorem sameDecode_kept (prior prior' : Pkt) :
    SameDecode (decodePayload m (lengthInc m.typeField) (m.decodedHeader prior))
      (decodePayload m (lengthInc m.typeField) (m.decodedHeader prior')) ↔
    m.SameLengths prior.length prior'.length := by
  rcases bitVec1_cases m.trField with htr | htr
  · exact sameDecode_payload hd hover htr prior prior'
  · rw [sameLengths_truncated htr]
    exact sameDecode_truncated hd hover htr prior prior'

end

/-- `pkt_decode` treats two previous contents of the destination alike exactly when it does not
    keep their length, or cannot tell the two lengths apart. -/
theorem pktDecode_same_iff [Zlib] (m : Mem) (len : Nat) (prior prior' : Pkt) :
    SameDecode (pktDecode m len prior) (pktDecode m len prior') ↔
      (m.KeepsLength len → m.SameLengths prior.length prior'.length) := by
  rw [pktDecode_eq, pktDecode_eq]
  by_cases hsize : intOfSize len < m.datagramSize
  · rw [if_pos hsize, if_pos hsize]
    have halike : SameDecode (.ok (.eNomem, prior)) (.ok (.eNomem, prior')) :=
      ⟨_, _, _, rfl, rfl, fun h => absurd h (by decide)⟩
    exact ⟨fun _ hk => absurd hsize hk.size, fun _ => halike⟩
  rw [if_neg hsize, if_neg hsize]
  by_cases hcrc : m.Crc1Right
  case neg =>
    rw [if_pos hcrc, if_pos hcrc]
    refine ⟨fun _ hk => absurd hk.crc1 hcrc, fun _ => ?_⟩
    exact ⟨_, _, _, rfl, rfl, fun h => absurd h (by decide)⟩
  rw [if_neg (not_not.mpr hcrc), if_neg (not_not.mpr hcrc)]
  by_cases hk : m.typeField = ptypeData ∧ 512 < m.lengthField
  · rw [sameDecode_kept hk.1 hk.2]
    exact ⟨fun h _ => h, fun h => h ⟨hk.1, hk.2, hsize, hcrc⟩⟩
  · -- the length comes from the wire
    have hlength : m.decodedLength prior = m.decodedLength prior' := by
      by_cases hd : m.typeField = ptypeData
      · have hle : ¬ 512 < m.lengthField := fun hlt => hk ⟨hd, hlt⟩
        rw [Mem.decodedLength, Mem.decodedLength, if_pos hd, if_pos hd, if_neg hle, if_neg hle]
      · rw [decodedLength_of_ne hd, decodedLength_of_ne hd]
    refine ⟨fun _ hk' => absurd ⟨hk'.data, hk'.refused⟩ hk, fun _ => ?_⟩
    apply sameDecode_of_length hlength
    intro hd _
    have hle : m.lengthField ≤ 512 := Nat.not_lt.mp fun hlt => hk ⟨hd, hlt⟩
    rwa [decodedLength_of_le hd hle]

/-- Twelve bytes of a truncated DATA packet that announces 513 bytes, with the right CRC1. -/
def truncatedOver : Mem := Mem.blit (fun _ => 0) 0
  [0x60, 0x02, 0x01, 0, 0, 0, 0, 0, 0x10, 0x7c, 0xdf, 0x08]

/-- Decoded over an empty packet it has length 0, and over a one-byte packet length 1. -/
theorem pktDecode_keeps_length : letI := zlib
    ¬ ∀ (m : Mem) (len : Nat) (prior prior' : Pkt),
      SameDecode (pktDecode m len prior) (pktDecode m len prior') := by
  intro h
  obtain ⟨status, q, q', hok, hok', hsame⟩ :=
    h truncatedOver 12 (replyPkt ptypeAck 0 0) (bytePkt 0 0 0)
  have hempty : letI := zlib
      (pktDecode truncatedOver 12 (replyPkt ptypeAck 0 0)).map (fun r => (r.1, r.2.length)) =
        .ok (.pktOk, 0) := by
    decide +kernel
  have hbyte : letI := zlib
      (pktDecode truncatedOver 12 (bytePkt 0 0 0)).map (fun r => (r.1, r.2.length)) =
        .ok (.pktOk, 1) := by
    decide +kernel
  simp only [hok, hok', Except.map, Except.ok.injEq, Prod.mk.injEq] at hempty hbyte
  have hlength := (hsame hempty.1).length
  rw [hempty.2, hbyte.2] at hlength
  exact absurd hlength (by decide)

end SelectiveRepeat
