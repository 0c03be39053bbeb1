/-
  SelectiveRepeat.Segment.Encode

  What `pkt_encode` does to the buffer and to `*len`.  The room it checks for is
  the size of what it writes.  The size it reports is counted again, from the
  16 bytes around the payload of a DATA packet, also where the packet is not
  DATA and the length field is not there.
-/
import SelectiveRepeat.Segment.RoundTrip

namespace SelectiveRepeat

/-! ## The buffer afterwards -/

/-- `pkt_encode` writes nothing behind the size it reports. -/
theorem pktEncode_beyond [Zlib] {pkt : Pkt} {buf buf' : Mem} {cap n : Nat}
    (h : pktEncode pkt buf cap = .ok (.pktOk, buf', n)) {i : Nat} (hi : n ≤ i) :
    buf' i = buf i := by
  have hinc : (if pkt.type = ptypeData then 2 else 0) = lengthInc pkt.type := rfl
  have hle : lengthInc pkt.type ≤ 2 := by
    rw [lengthInc]
    split <;> omega
  -- the header: every copy of it ends before `10 + inc`
  have hheader : ∀ crc1 : UInt32, 10 + lengthInc pkt.type ≤ i →
      ((((if pkt.type = ptypeData then
          (buf.blit 0 [headerByte pkt.type pkt.tr pkt.window]).blit 1 (bytes16 (htons pkt.length))
        else buf.blit 0 [headerByte pkt.type pkt.tr pkt.window]).blit (1 + lengthInc pkt.type)
          [pkt.seqnum]).blit (2 + lengthInc pkt.type) (bytes32 pkt.timestamp)).blit
          (6 + lengthInc pkt.type) (bytes32 (htonl crc1))) i = buf i := by
    intro crc1 hlast
    rw [Mem.blit_of_ge (by rw [bytes32_length]; omega),
      Mem.blit_of_ge (by rw [bytes32_length]; omega),
      Mem.blit_of_ge (by rw [List.length_singleton]; omega)]
    split
    · rw [Mem.blit_of_ge (by rw [bytes16_length]; omega),
        Mem.blit_of_ge (by rw [List.length_singleton]; omega)]
    · rw [Mem.blit_of_ge (by rw [List.length_singleton]; omega)]
  simp only [pktEncode, hinc] at h
  split at h
  · cases h
  split at h
  · -- truncated
    simp only [Except.ok.injEq, Prod.mk.injEq, true_and] at h
    obtain ⟨rfl, rfl⟩ := h
    exact hheader _ hi
  split at h
  · cases h
  split at h
  · -- the copy of an empty payload
    rename_i hzero
    have hnil : pkt.payload.slice 0 pkt.length.toNat = [] := by rw [hzero]; rfl
    simp only [Except.ok.injEq, Prod.mk.injEq, true_and] at h
    obtain ⟨rfl, rfl⟩ := h
    rw [hnil, Mem.blit_nil]
    exact hheader _ hi
  · -- the payload and CRC2
    simp only [Except.ok.injEq, Prod.mk.injEq, true_and] at h
    obtain ⟨rfl, rfl⟩ := h
    rw [Mem.blit_of_ge (by rw [bytes32_length]; omega),
      Mem.blit_of_ge (by rw [Mem.slice_length]; omega)]
    exact hheader _ (by omega)

/-- Into a buffer with room for it, `pkt_encode` copies the wire image and nothing else. -/
theorem pktEncode_blit [Zlib] {pkt : Pkt} (hs : pkt.Sized) (buf : Mem) {cap : Nat}
    (hcap : cap < 2 ^ 31) (hfit : pkt.wire.length ≤ cap) :
    pktEncode pkt buf cap = .ok (.pktOk, buf.blit 0 pkt.wire, pkt.wire.length) := by
  obtain ⟨buf', henc, hslice⟩ := pktEncode_wire hs buf hcap hfit
  have hbuf : buf' = buf.blit 0 pkt.wire := by
    funext i
    by_cases hi : i < pkt.wire.length
    · have hread : (buf.blit 0 pkt.wire).slice 0 pkt.wire.length = pkt.wire :=
        Mem.slice_blit buf 0 pkt.wire
      have hbyte := Mem.slice_eq_iff.mp (hslice.trans hread.symm) i hi
      rwa [Nat.zero_add] at hbyte
    · rw [Mem.blit_of_ge (by omega)]
      exact pktEncode_beyond henc (by omega)
  rw [henc, hbuf]

/-! ## What the caller relies on -/

/-- The contract of `pkt_encode` on one packet, for every buffer and capacity: it returns;
    on `PKT_OK` the size fits, every byte written is below it and every byte below it was
    written, so that it does not depend on what the buffer held; on `E_NOMEM` nothing has
    changed; and it is `E_NOMEM` exactly when that size does not fit. -/
structure Pkt.EncodesHonestly [Zlib] (pkt : Pkt) : Prop where
  returns : ∀ (buf : Mem) (cap : Nat), cap < 2 ^ 31 → ∃ status buf' n,
    pktEncode pkt buf cap = .ok (status, buf', n) ∧ (status = .pktOk ∨ status = .eNomem)
  size_le : ∀ (buf buf' : Mem) (cap n : Nat), cap < 2 ^ 31 →
    pktEncode pkt buf cap = .ok (.pktOk, buf', n) → n ≤ cap
  beyond : ∀ (buf buf' : Mem) (cap n : Nat), cap < 2 ^ 31 →
    pktEncode pkt buf cap = .ok (.pktOk, buf', n) → ∀ i, n ≤ i → buf' i = buf i
  written : ∀ (buf buf' buf₁ buf₁' : Mem) (cap cap₁ n n₁ : Nat), cap < 2 ^ 31 → cap₁ < 2 ^ 31 →
    pktEncode pkt buf cap = .ok (.pktOk, buf', n) →
    pktEncode pkt buf₁ cap₁ = .ok (.pktOk, buf₁', n₁) → ∀ i < n, buf' i = buf₁' i
  atomic : ∀ (buf buf' : Mem) (cap n : Nat), cap < 2 ^ 31 →
    pktEncode pkt buf cap = .ok (.eNomem, buf', n) → buf' = buf ∧ n = cap
  exact : ∀ (buf buf' buf₁ : Mem) (cap cap₁ n : Nat), cap < 2 ^ 31 → cap₁ < 2 ^ 31 →
    pktEncode pkt buf cap = .ok (.pktOk, buf', n) →
    ((∃ buf₁' n₁, pktEncode pkt buf₁ cap₁ = .ok (.eNomem, buf₁', n₁)) ↔ cap₁ < n)

/-- A packet for which the same bytes are written whenever they fit keeps the contract. -/
theorem encodesHonestly_of_bytes [Zlib] {pkt : Pkt} {written : Bytes}
    (h : ∀ (buf : Mem) (cap : Nat), cap < 2 ^ 31 → pktEncode pkt buf cap =
      if cap < written.length then .ok (.eNomem, buf, cap)
      else .ok (.pktOk, buf.blit 0 written, written.length)) : pkt.EncodesHonestly := by
  have hok : ∀ (buf buf' : Mem) (cap n : Nat), cap < 2 ^ 31 →
      pktEncode pkt buf cap = .ok (.pktOk, buf', n) →
      written.length ≤ cap ∧ buf' = buf.blit 0 written ∧ n = written.length := by
    intro buf buf' cap n hcap henc
    rw [h buf cap hcap] at henc
    split at henc
    · cases henc
    · cases henc
      exact ⟨by omega, rfl, rfl⟩
  refine
    { returns := fun buf cap hcap => ?_
      size_le := fun buf buf' cap n hcap henc => ?_
      beyond := fun buf buf' cap n hcap henc i hi => ?_
      written := fun buf buf' buf₁ buf₁' cap cap₁ n n₁ hcap hcap₁ henc henc₁ i hi => ?_
      atomic := fun buf buf' cap n hcap henc => ?_
      exact := fun buf buf' buf₁ cap cap₁ n hcap hcap₁ henc => ?_ }
  · rw [h buf cap hcap]
    split
    · exact ⟨_, _, _, rfl, Or.inr rfl⟩
    · exact ⟨_, _, _, rfl, Or.inl rfl⟩
  · obtain ⟨hle, -, rfl⟩ := hok buf buf' cap n hcap henc
    exact hle
  · obtain ⟨-, rfl, rfl⟩ := hok buf buf' cap n hcap henc
    exact Mem.blit_of_ge (by omega)
  · obtain ⟨-, rfl, rfl⟩ := hok buf buf' cap n hcap henc
    obtain ⟨-, rfl, -⟩ := hok buf₁ buf₁' cap₁ n₁ hcap₁ henc₁
    exact Mem.blit_start buf buf₁ hi
  · rw [h buf cap hcap] at henc
    split at henc
    · cases henc
      exact ⟨rfl, rfl⟩
    · cases henc
  · obtain ⟨-, -, rfl⟩ := hok buf buf' cap n hcap henc
    rw [h buf₁ cap₁ hcap₁]
    by_cases hlt : cap₁ < written.length
    · rw [if_pos hlt]
      exact iff_of_true ⟨_, _, rfl⟩ hlt
    · rw [if_neg hlt]
      refine iff_of_false ?_ hlt
      rintro ⟨buf₁', n₁, hne⟩
      cases hne

/-! ## Which packets keep the contract -/

theorem encodesHonestly_of_sized [Zlib] {pkt : Pkt} (hs : pkt.Sized) : pkt.EncodesHonestly := by
  apply @encodesHonestly_of_bytes _ pkt pkt.wire
  intro buf cap hcap
  by_cases hroom : cap < pkt.wire.length
  · rw [if_pos hroom, pktEncode, intOfSize_of_lt hcap, ← pkt.wire_length,
      if_pos (Int.ofNat_lt.mpr hroom)]
  · rw [if_neg hroom]
    exact pktEncode_blit hs buf hcap (Nat.le_of_not_lt hroom)

/-- The length field is looked at on DATA and without TR only. -/
theorem pktEncode_length [Zlib] {pkt : Pkt} (hd : pkt.type ≠ ptypeData) (htr : pkt.tr ≠ 0)
    (buf : Mem) (cap : Nat) : pktEncode pkt buf cap = pktEncode { pkt with length := 0 } buf cap := by
  simp only [pktEncode, encodeBase, if_neg hd, if_neg htr, if_pos htr]

/-- Without TR, a packet with bytes of payload that is not DATA is reported two bytes longer
    than it is. -/
theorem pktEncode_longer [Zlib] {pkt : Pkt} (hd : pkt.type ≠ ptypeData) (htr : pkt.tr = 0)
    (hpos : pkt.length ≠ 0) (hle : pkt.length.toNat ≤ 512) (buf : Mem) :
    ∃ buf', pktEncode pkt buf (14 + pkt.length.toNat) =
      .ok (.pktOk, buf', 16 + pkt.length.toNat) := by
  have hlt : 0 < pkt.length := UInt16.pos_iff_ne_zero.mpr hpos
  have hbase : encodeBase pkt = 14 + pkt.length.toNat := by
    simp only [encodeBase, if_neg hd, if_pos htr, if_pos hlt]
    omega
  have hroom : ¬ intOfSize (14 + pkt.length.toNat) < encodeBase pkt := by
    rw [intOfSize_of_lt (by omega), hbase]
    exact Int.lt_irrefl _
  have hmax : ¬ MAX_PAYLOAD_SIZE < pkt.length.toNat := Nat.not_lt.mpr hle
  simp only [pktEncode, if_neg hroom, if_neg hd, if_neg (not_not.mpr htr), if_neg hmax,
    if_neg hpos]
  exact ⟨_, rfl⟩

/-- For every packet the setters can build, `pkt_encode` keeps its contract exactly when the
    packet is DATA, or truncated, or without payload. -/
theorem encodesHonestly_iff [Zlib] (pkt : Pkt) (hle : pkt.length.toNat ≤ 512) :
    pkt.EncodesHonestly ↔ pkt.type = ptypeData ∨ pkt.tr ≠ 0 ∨ pkt.length = 0 := by
  refine ⟨?_, ?_⟩
  · intro h
    by_contra hnot
    simp only [not_or, not_not] at hnot
    obtain ⟨hd, htr, hpos⟩ := hnot
    obtain ⟨buf', henc⟩ := pktEncode_longer hd htr hpos hle (fun _ => 0)
    -- the buffer is as large as what is written, and smaller than what is reported
    have hfit := h.size_le _ _ _ _ (by omega) henc
    omega
  · by_cases hd : pkt.type = ptypeData
    · exact fun _ => encodesHonestly_of_sized ⟨hle, fun hne => absurd hd hne⟩
    by_cases hzero : pkt.length = 0
    · exact fun _ => encodesHonestly_of_sized ⟨hle, fun _ => hzero⟩
    intro h
    have htr : pkt.tr ≠ 0 := (h.resolve_left hd).resolve_right hzero
    have hsame : pktEncode pkt = pktEncode { pkt with length := 0 } := by
      funext buf cap
      exact pktEncode_length hd htr buf cap
    have hempty : Pkt.EncodesHonestly { pkt with length := 0 } :=
      encodesHonestly_of_sized ⟨Nat.zero_le _, fun _ => rfl⟩
    constructor <;> rw [hsame]
    · exact hempty.returns
    · exact hempty.size_le
    · exact hempty.beyond
    · exact hempty.written
    · exact hempty.atomic
    · exact hempty.exact

/-- The packet of packet_test.c. -/
theorem encodesHonestly_hello : letI := zlib
    helloPkt.EncodesHonestly :=
  letI := zlib
  (encodesHonestly_iff helloPkt (by decide)).mpr (Or.inl rfl)

/-- An ACK given a payload of one byte. -/
def ackWithPayload : Pkt := (pktSetPayload (replyPkt ptypeAck 0 0) [7] 1).2

/-- It fills a buffer of 15 bytes and is reported as 17. -/
theorem encodesHonestly_ackWithPayload : letI := zlib
    ¬ ackWithPayload.EncodesHonestly ∧
      ∃ buf', pktEncode ackWithPayload (fun _ => 0) 15 = .ok (.pktOk, buf', 17) := by
  let _ := zlib
  have henc : ∃ buf', pktEncode ackWithPayload (fun _ => 0) 15 = .ok (.pktOk, buf', 17) :=
    pktEncode_longer (by decide) rfl (by decide) (by decide) _
  refine ⟨fun h => ?_, henc⟩
  obtain ⟨buf', hok⟩ := henc
  exact absurd (h.size_le _ _ _ _ (by decide) hok) (by decide)

end SelectiveRepeat
