/-
  SelectiveRepeat.Sender.Queued

  The packets in the sender's window: what `build_pkt` makes of a chunk of input,
  how such a packet is encoded, and what is left of it when only its timestamp
  changes, which is all that sending it again does.
-/
import SelectiveRepeat.Sender.Loop
import SelectiveRepeat.Segment.RoundTrip
import Mathlib.Data.List.Forall2

namespace SelectiveRepeat

/-! ## The packets of the window -/

/-- A packet as `build_pkt` leaves it when there was something to read. -/
structure Pkt.Queued (pkt : Pkt) : Prop where
  type : pkt.type = ptypeData
  tr : pkt.tr = 0
  length_pos : 0 < pkt.length.toNat
  length_le : pkt.length.toNat ≤ 512

/-- The packet sent again at `now`. -/
def Pkt.restamp (pkt : Pkt) (now : UInt32) : Pkt := { pkt with timestamp := now }

@[simp] theorem Pkt.restamp_seqnum (pkt : Pkt) (now : UInt32) :
    (pkt.restamp now).seqnum = pkt.seqnum := rfl

theorem Pkt.Queued.restamp {pkt : Pkt} (hq : pkt.Queued) (now : UInt32) :
    (pkt.restamp now).Queued :=
  ⟨hq.type, hq.tr, hq.length_pos, hq.length_le⟩

theorem Pkt.Queued.sized {pkt : Pkt} (hq : pkt.Queued) : pkt.Sized :=
  ⟨hq.length_le, fun h => absurd hq.type h⟩

theorem Pkt.Queued.data_ne_nil {pkt : Pkt} (hq : pkt.Queued) : pkt.data ≠ [] := by
  intro hnil
  have hpos := hq.length_pos
  rw [← pkt.data_length, hnil] at hpos
  exact Nat.lt_irrefl 0 hpos

/-- Its datagram fits into the buffer of the loop. -/
theorem Pkt.Queued.wire_length_le [Zlib] {pkt : Pkt} (hq : pkt.Queued) :
    pkt.wire.length ≤ pktBufferSize := by
  have hle := hq.length_le
  rw [pkt.wire_length_eq_size, Pkt.size, if_pos hq.type]
  simp only [pktBufferSize, MAX_PAYLOAD_SIZE]
  split <;> omega

theorem Pkt.Queued.encode [Zlib] {pkt : Pkt} (hq : pkt.Queued) (buf : Mem) :
    ∃ buf', pktEncode pkt buf pktBufferSize = .ok (.pktOk, buf', pkt.wire.length) ∧
      buf'.slice 0 pkt.wire.length = pkt.wire :=
  pktEncode_wire hq.sized buf (by decide) hq.wire_length_le

/-- `pkt_encode` refuses a DATA packet with a payload exactly when the length is over 512. -/
theorem pktEncode_failed [Zlib] {pkt : Pkt} (htype : pkt.type = ptypeData) (htr : pkt.tr = 0)
    (buf : Mem) :
    (512 < pkt.length.toNat → pktEncode pkt buf pktBufferSize = .ok (.eNomem, buf, pktBufferSize)) ∧
      (pkt.length.toNat ≤ 512 →
        ∃ buf' size, pktEncode pkt buf pktBufferSize = .ok (.pktOk, buf', size)) := by
  refine ⟨?_, ?_⟩
  · intro hlong
    have hbase : intOfSize pktBufferSize < encodeBase pkt := by
      simp only [encodeBase, if_pos htype, if_pos htr, uint16_pos]
      rw [if_pos (Nat.zero_lt_of_lt hlong), intOfSize_of_lt (by decide), pktBufferSize,
        MAX_PAYLOAD_SIZE]
      omega
    rw [pktEncode, if_pos hbase]
  · intro hle
    have hfit : pkt.wire.length ≤ pktBufferSize := by
      rw [pkt.wire_length_eq_size, Pkt.size, if_pos htype, pktBufferSize, MAX_PAYLOAD_SIZE]
      split <;> omega
    obtain ⟨buf', henc, -⟩ := pktEncode_wire ⟨hle, fun h => absurd htype h⟩ buf (by decide) hfit
    exact ⟨buf', _, henc⟩

/-- The number of a DATA packet is the fourth byte of its datagram. -/
theorem Pkt.wire_seqnum [Zlib] {pkt : Pkt} (hd : pkt.type = ptypeData) :
    pkt.wire[3]? = some pkt.seqnum := by
  simp [Pkt.wire, Pkt.headerBytes, hd, bytes16]

/-! ## `build_pkt` -/

theorem uint16_ofInt_toNat {n : Nat} (h : n ≤ 512) : (UInt16.ofInt n).toNat = n := by
  rw [UInt16.ofInt, UInt16.toNat_ofNat', Nat.mod_eq_of_lt (by omega)]
  omega

/-- What `build_pkt` makes of at most 512 bytes: every field but the CRCs is set. -/
structure Pkt.Built (pkt : Pkt) (window : BitVec 5) (seqnum : UInt8) (payload : Bytes)
    (timestamp : UInt32) : Prop where
  type : pkt.type = ptypeData
  tr : pkt.tr = 0
  window : pkt.window = window
  seqnum : pkt.seqnum = seqnum
  timestamp : pkt.timestamp = timestamp
  length : pkt.length.toNat = payload.length
  data : pkt.data = payload

theorem buildPkt_built (fresh : Pkt) {windowSize : UInt8} (hw : windowSize.toNat ≤ 31)
    (seqnum : UInt8) {payload : Bytes} (hp : payload.length ≤ 512) (timestamp : UInt32) :
    (buildPkt fresh windowSize seqnum payload.length payload timestamp).Built
      (BitVec.ofNat 5 windowSize.toNat) seqnum payload timestamp := by
  have hlen : (UInt16.ofInt payload.length).toNat = payload.length := uint16_ofInt_toNat hp
  have hle : (UInt16.ofInt payload.length).toNat ≤ 512 := by rw [hlen]; exact hp
  have hset (pkt : Pkt) : (pktSetLength pkt (UInt16.ofInt payload.length)).2 =
      { pkt with length := UInt16.ofInt payload.length } := by
    rw [pktSetLength_of_le hle]
  have hwindow (pkt : Pkt) : (pktSetWindow pkt windowSize).2 =
      { pkt with window := BitVec.ofNat 5 windowSize.toNat } := by
    rw [pktSetWindow, if_neg (Nat.not_lt.mpr hw)]
  have hpay (pkt : Pkt) : (pktSetPayload pkt payload (UInt16.ofInt payload.length)).2 =
      { pkt with
        payload := pkt.payload.blit 0 payload
        length := UInt16.ofInt payload.length } := by
    rw [pktSetPayload, if_neg (Nat.not_lt.mpr hle), hset, hlen, List.take_length]
  have htype : (pktSetType fresh 1).2 = { fresh with type := ptypeData } := rfl
  -- no setter refuses its value, so every field is the last one set
  have heq : buildPkt fresh windowSize seqnum payload.length payload timestamp =
      { type := ptypeData
        tr := 0
        window := BitVec.ofNat 5 windowSize.toNat
        length := UInt16.ofInt payload.length
        seqnum := seqnum
        timestamp := timestamp
        crc1 := fresh.crc1
        payload := fresh.payload.blit 0 payload
        crc2 := fresh.crc2 } := by
    simp only [buildPkt, htype, pktSetTr_zero, hwindow, hset, hpay, pktSetSeqnum, pktSetTimestamp]
  rw [heq]
  refine ⟨rfl, rfl, rfl, rfl, rfl, hlen, ?_⟩
  rw [Pkt.data, hlen]
  exact Mem.slice_blit _ 0 payload

theorem Pkt.Built.queued {pkt : Pkt} {window : BitVec 5} {seqnum : UInt8} {payload : Bytes}
    {timestamp : UInt32} (h : pkt.Built window seqnum payload timestamp) (hpos : payload ≠ [])
    (hp : payload.length ≤ 512) : pkt.Queued := by
  refine ⟨h.type, h.tr, ?_, ?_⟩
  · rw [h.length]
    exact List.length_pos_iff.mpr hpos
  · rw [h.length]
    exact hp

/-! ## Windows that differ in timestamps only -/

/-- The two windows hold the same packets but for the times they were sent at. -/
def SameButTimestamp (l l' : List Pkt) : Prop :=
  List.Forall₂ (fun pkt pkt' => ∃ ts, pkt' = pkt.restamp ts) l l'

theorem sameButTimestamp_refl (l : List Pkt) : SameButTimestamp l l :=
  List.forall₂_same.mpr fun pkt _ => ⟨pkt.timestamp, rfl⟩

theorem SameButTimestamp.length_eq {l l' : List Pkt} (h : SameButTimestamp l l') :
    l.length = l'.length :=
  List.Forall₂.length_eq h

theorem SameButTimestamp.trans {l l' l'' : List Pkt} (h : SameButTimestamp l l')
    (h' : SameButTimestamp l' l'') : SameButTimestamp l l'' := by
  induction h generalizing l'' with
  | nil => exact h'
  | cons hd _ ih =>
      cases h' with
      | cons hd' htl' =>
          obtain ⟨ts, rfl⟩ := hd
          obtain ⟨ts', rfl⟩ := hd'
          exact List.Forall₂.cons ⟨ts', rfl⟩ (ih htl')

theorem SameButTimestamp.symm {l l' : List Pkt} (h : SameButTimestamp l l') :
    SameButTimestamp l' l := by
  induction h with
  | nil => exact sameButTimestamp_refl []
  | @cons pkt _ _ _ hd _ ih =>
      obtain ⟨ts, rfl⟩ := hd
      exact List.Forall₂.cons ⟨pkt.timestamp, rfl⟩ ih

theorem SameButTimestamp.drop {l l' : List Pkt} (h : SameButTimestamp l l') (n : Nat) :
    SameButTimestamp (l.drop n) (l'.drop n) :=
  List.forall₂_drop n h

theorem SameButTimestamp.append {l l' m m' : List Pkt} (h : SameButTimestamp l l')
    (h' : SameButTimestamp m m') : SameButTimestamp (l ++ m) (l' ++ m') :=
  List.rel_append h h'

theorem sameButTimestamp_set {l : List Pkt} {j : Nat} {pkt : Pkt} (hpkt : l[j]? = some pkt)
    (ts : UInt32) : SameButTimestamp l (l.set j (pkt.restamp ts)) := by
  induction l generalizing j with
  | nil => exact sameButTimestamp_refl []
  | cons p l ih =>
      cases j with
      | zero =>
          rw [List.getElem?_cons_zero, Option.some.injEq] at hpkt
          subst hpkt
          exact List.Forall₂.cons ⟨ts, rfl⟩ (sameButTimestamp_refl l)
      | succ j => exact List.Forall₂.cons ⟨p.timestamp, rfl⟩ (ih hpkt)

theorem SameButTimestamp.seqnums {l l' : List Pkt} (h : SameButTimestamp l l') :
    l'.map Pkt.seqnum = l.map Pkt.seqnum := by
  induction h with
  | nil => rfl
  | cons hd _ ih =>
      obtain ⟨ts, rfl⟩ := hd
      rw [List.map_cons, List.map_cons, ih, Pkt.restamp_seqnum]

theorem SameButTimestamp.datas {l l' : List Pkt} (h : SameButTimestamp l l') :
    l'.map Pkt.data = l.map Pkt.data := by
  induction h with
  | nil => rfl
  | cons hd _ ih =>
      obtain ⟨ts, rfl⟩ := hd
      rw [List.map_cons, List.map_cons, ih]
      rfl

/-- What does not depend on the timestamp stays true of all packets. -/
theorem SameButTimestamp.forall_mem {l l' : List Pkt} (h : SameButTimestamp l l')
    {P : Pkt → Prop} (hrestamp : ∀ pkt ts, P pkt → P (pkt.restamp ts)) (hl : ∀ pkt ∈ l, P pkt) :
    ∀ pkt ∈ l', P pkt := by
  induction h with
  | nil => exact hl
  | cons hd _ ih =>
      obtain ⟨ts, rfl⟩ := hd
      rw [List.forall_mem_cons] at hl ⊢
      exact ⟨hrestamp _ ts hl.1, ih hl.2⟩

theorem SameButTimestamp.queued {l l' : List Pkt} (h : SameButTimestamp l l')
    (hq : ∀ pkt ∈ l, pkt.Queued) : ∀ pkt ∈ l', pkt.Queued :=
  h.forall_mem (fun _ ts hpkt => hpkt.restamp ts) hq

/-- The packet at a place before a change of timestamps. -/
theorem SameButTimestamp.getElem? {l l' : List Pkt} (h : SameButTimestamp l l') {j : Nat}
    {pkt : Pkt} (hpkt : l'[j]? = some pkt) :
    ∃ pkt₀ ts, l[j]? = some pkt₀ ∧ pkt = pkt₀.restamp ts := by
  induction h generalizing j with
  | nil => exact absurd hpkt (by simp)
  | @cons p p' l l' hd _ ih =>
      cases j with
      | zero =>
          obtain ⟨ts, rfl⟩ := hd
          rw [List.getElem?_cons_zero, Option.some.injEq] at hpkt
          exact ⟨p, ts, rfl, hpkt.symm⟩
      | succ j => exact ih hpkt

end SelectiveRepeat
