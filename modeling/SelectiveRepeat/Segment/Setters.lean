/-
  SelectiveRepeat.Segment.Setters

  The setters as operations on one packet.  A call is right when it keeps the
  packet legal, stores the value it accepts and changes nothing when it refuses.
  `pkt_set_type` looks neither at the width of its field nor at TR, and
  `pkt_set_tr` asks whether the old TR is over 1 where the new one is meant, so
  both accept values they do not store.
-/
import SelectiveRepeat.Segment.RoundTrip

namespace SelectiveRepeat

/-- A known type, TR on DATA only, a length the payload has room for.  A window of five
    bits is at most 31. -/
structure Pkt.Legal (pkt : Pkt) : Prop where
  type_ne : pkt.type ≠ 0
  tr_data : pkt.type ≠ ptypeData → pkt.tr = 0
  length_le : pkt.length.toNat ≤ 512

/-- A call of a `pkt_set_*` function, with the arguments behind `pkt`. -/
inductive SetterCall where
  | type (type : UInt32)
  | tr (tr : UInt8)
  | window (window : UInt8)
  | seqnum (seqnum : UInt8)
  | length (length : UInt16)
  | timestamp (timestamp : UInt32)
  | crc1 (crc1 : UInt32)
  | crc2 (crc2 : UInt32)
  | payload (data : Mem) (length : UInt16)

namespace SetterCall

/-- The status returned and the packet after the call. -/
def run (pkt : Pkt) : SetterCall → PktStatusCode × Pkt
  | .type t => pktSetType pkt t
  | .tr t => pktSetTr pkt t
  | .window w => pktSetWindow pkt w
  | .seqnum n => pktSetSeqnum pkt n
  | .length n => pktSetLength pkt n
  | .timestamp n => pktSetTimestamp pkt n
  | .crc1 n => pktSetCrc1 pkt n
  | .crc2 n => pktSetCrc2 pkt n
  | .payload data n => pktSetPayload pkt (data.slice 0 n.toNat) n

/-- The getter of the field returns the value passed.  CRCs and payload are not among the
    fields this is asked of. -/
def Stored (pkt : Pkt) : SetterCall → Prop
  | .type t => pkt.type.toNat = t.toNat
  | .tr t => pkt.tr.toNat = t.toNat
  | .window w => pkt.window.toNat = w.toNat
  | .seqnum n => pkt.seqnum = n
  | .length n => pkt.length = n
  | .timestamp n => pkt.timestamp = n
  | .crc1 _ | .crc2 _ | .payload _ _ => True

/-- The call does what the interface asks of it. -/
structure Right (pkt : Pkt) (call : SetterCall) : Prop where
  legal : (call.run pkt).2.Legal
  stored : (call.run pkt).1 = .pktOk → call.Stored (call.run pkt).2
  refused : (call.run pkt).1 ≠ .pktOk → (call.run pkt).2 = pkt

/-- The value fits where the setter does not look: a type of two bits that is not to stand
    next to TR unless it is DATA, and a TR of one bit. -/
def Fits (pkt : Pkt) : SetterCall → Prop
  | .type t => t = 0 ∨ (t.toNat < 4 ∧ (t.toNat = 1 ∨ pkt.tr = 0))
  | .tr t => t.toNat ≤ 1 ∨ pkt.type ≠ ptypeData
  | _ => True

/-! ## One call -/

theorem right_of_refused {pkt : Pkt} (h : pkt.Legal) {call : SetterCall} {status : PktStatusCode}
    (hrun : call.run pkt = (status, pkt)) (hstatus : status ≠ .pktOk) : call.Right pkt := by
  refine ⟨?_, fun hok => ?_, fun _ => ?_⟩
  · rw [hrun]
    exact h
  · rw [hrun] at hok
    exact absurd hok hstatus
  · rw [hrun]

theorem right_of_accepted {pkt q : Pkt} {call : SetterCall} (hrun : call.run pkt = (.pktOk, q))
    (hlegal : q.Legal) (hstored : call.Stored q) : call.Right pkt := by
  refine ⟨?_, fun _ => ?_, fun hne => ?_⟩
  · rw [hrun]
    exact hlegal
  · rw [hrun]
    exact hstored
  · rw [hrun] at hne
    exact absurd rfl hne

theorem type_right_iff {pkt : Pkt} (h : pkt.Legal) (t : UInt32) :
    (type t).Right pkt ↔ (type t).Fits pkt := by
  by_cases hzero : t = 0
  · have hrefused : (type t).run pkt = (.eType, pkt) := if_pos hzero
    exact iff_of_true (right_of_refused h hrefused (by simp)) (Or.inl hzero)
  have hrun : (type t).run pkt = (.pktOk, { pkt with type := BitVec.ofNat 2 t.toNat }) :=
    if_neg hzero
  have hpos : t.toNat ≠ 0 := fun h0 => hzero (UInt32.toNat_inj.mp h0)
  refine ⟨?_, ?_⟩
  · intro hright
    refine Or.inr ⟨?_, ?_⟩
    · have hstored := hright.stored (by rw [hrun])
      simp only [hrun, Stored, BitVec.toNat_ofNat] at hstored
      omega
    · -- the new type must allow the TR that is there
      by_contra hne
      have hlegal := hright.legal.tr_data
      have hstored := hright.stored (by rw [hrun])
      simp only [hrun, Stored] at hstored hlegal
      refine hne (Or.inr (hlegal fun hd => hne (Or.inl ?_)))
      rw [← hstored, hd]
      rfl
  · rintro (h0 | ⟨hlt, htr⟩)
    · exact absurd h0 hzero
    have hstored : (BitVec.ofNat 2 t.toNat).toNat = t.toNat := by
      rw [BitVec.toNat_ofNat]
      omega
    refine right_of_accepted hrun ⟨fun h0 => ?_, fun hne => ?_, h.length_le⟩ hstored
    · have hval := congrArg BitVec.toNat h0
      exact hpos (hstored.symm.trans hval)
    · apply htr.resolve_left
      intro h1
      apply hne
      show BitVec.ofNat 2 t.toNat = ptypeData
      rw [h1]
      rfl

theorem tr_right_iff {pkt : Pkt} (h : pkt.Legal) (t : UInt8) :
    (tr t).Right pkt ↔ (tr t).Fits pkt := by
  by_cases hd : pkt.type = ptypeData
  · have hrun : (tr t).run pkt = (.pktOk, { pkt with tr := BitVec.ofNat 1 t.toNat }) :=
      pktSetTr_of_data hd t
    refine ⟨?_, ?_⟩
    · intro hright
      have hstored := hright.stored (by rw [hrun])
      simp only [hrun, Stored, BitVec.toNat_ofNat] at hstored
      exact Or.inl (by omega)
    · rintro (hle | hne)
      · refine right_of_accepted hrun ⟨h.type_ne, fun hne => absurd hd hne, h.length_le⟩ ?_
        simp only [Stored, BitVec.toNat_ofNat]
        omega
      · exact absurd hd hne
  · refine iff_of_true ?_ (Or.inr hd)
    by_cases hzero : t = 0
    · have hrun : (tr t).run pkt = (.pktOk, { pkt with tr := 0 }) := by
        rw [hzero]
        exact pktSetTr_zero pkt
      refine right_of_accepted hrun ⟨h.type_ne, fun _ => rfl, h.length_le⟩ ?_
      rw [hzero]
      rfl
    · have hrefused : (tr t).run pkt = (.eTr, pkt) := if_pos ⟨hd, hzero⟩
      exact right_of_refused h hrefused (by simp)

theorem window_right {pkt : Pkt} (h : pkt.Legal) (w : UInt8) : (window w).Right pkt := by
  by_cases hover : 31 < w.toNat
  · have hrefused : (window w).run pkt = (.eWindow, pkt) := if_pos hover
    exact right_of_refused h hrefused (by simp)
  · have hrun : (window w).run pkt = (.pktOk, { pkt with window := BitVec.ofNat 5 w.toNat }) :=
      if_neg hover
    refine right_of_accepted hrun ⟨h.type_ne, h.tr_data, h.length_le⟩ ?_
    simp only [Stored, BitVec.toNat_ofNat]
    omega

theorem length_right {pkt : Pkt} (h : pkt.Legal) (n : UInt16) : (length n).Right pkt := by
  by_cases hover : 512 < n.toNat
  · have hrefused : (length n).run pkt = (.eLength, pkt) := if_pos hover
    exact right_of_refused h hrefused (by simp)
  · have hle : n.toNat ≤ 512 := Nat.le_of_not_lt hover
    exact right_of_accepted (pktSetLength_of_le hle) ⟨h.type_ne, h.tr_data, hle⟩ rfl

theorem payload_right {pkt : Pkt} (h : pkt.Legal) (data : Mem) (n : UInt16) :
    (payload data n).Right pkt := by
  by_cases hover : 512 < n.toNat
  · have hrefused : (payload data n).run pkt = (.eLength, pkt) := if_pos hover
    exact right_of_refused h hrefused (by simp)
  · have hle : n.toNat ≤ 512 := Nat.le_of_not_lt hover
    have hrun : (payload data n).run pkt = _ := if_neg hover
    simp only [pktSetLength_of_le hle] at hrun
    exact right_of_accepted hrun ⟨h.type_ne, h.tr_data, hle⟩ trivial

/-- On a legal packet a call is right exactly when its value fits. -/
theorem right_iff_fits {pkt : Pkt} (h : pkt.Legal) (call : SetterCall) :
    call.Right pkt ↔ call.Fits pkt := by
  have hfields : ∀ q : Pkt, q.type = pkt.type → q.tr = pkt.tr → q.length = pkt.length →
      q.Legal := fun q htype htr hlength =>
    ⟨htype ▸ h.type_ne, fun hne => htr ▸ h.tr_data (htype ▸ hne), hlength ▸ h.length_le⟩
  cases call with
  | type t => exact type_right_iff h t
  | tr t => exact tr_right_iff h t
  | window w => exact iff_of_true (window_right h w) trivial
  | seqnum n => exact iff_of_true (right_of_accepted rfl (hfields _ rfl rfl rfl) rfl) trivial
  | length n => exact iff_of_true (length_right h n) trivial
  | timestamp n => exact iff_of_true (right_of_accepted rfl (hfields _ rfl rfl rfl) rfl) trivial
  | crc1 n => exact iff_of_true (right_of_accepted rfl (hfields _ rfl rfl rfl) trivial) trivial
  | crc2 n => exact iff_of_true (right_of_accepted rfl (hfields _ rfl rfl rfl) trivial) trivial
  | payload data n => exact iff_of_true (payload_right h data n) trivial

end SetterCall

/-! ## Every sequence of calls -/

/-- Each call of the sequence is right on the packet it is made on. -/
def SettersRight : Pkt → List SetterCall → Prop
  | _, [] => True
  | pkt, call :: calls => call.Right pkt ∧ SettersRight (call.run pkt).2 calls

/-- Each value of the sequence fits in the packet it is set in. -/
def SettersFit : Pkt → List SetterCall → Prop
  | _, [] => True
  | pkt, call :: calls => call.Fits pkt ∧ SettersFit (call.run pkt).2 calls

/-- From any legal packet, a sequence of setters keeps it legal, stores what it accepts and
    leaves alone what it refuses exactly when every type and every TR it is given fits. -/
theorem settersRight_iff (pkt : Pkt) (h : pkt.Legal) (calls : List SetterCall) :
    SettersRight pkt calls ↔ SettersFit pkt calls := by
  induction calls generalizing pkt with
  | nil => exact Iff.rfl
  | cons call calls ih =>
      have hstep := SetterCall.right_iff_fits h call
      refine ⟨?_, ?_⟩
      · rintro ⟨hright, hrest⟩
        exact ⟨hstep.mp hright, (ih _ hright.legal).mp hrest⟩
      · rintro ⟨hfits, hrest⟩
        have hright := hstep.mpr hfits
        exact ⟨hright, (ih _ hright.legal).mpr hrest⟩

theorem bytePkt_legal (seqnum : UInt8) (timestamp : UInt32) (byte : UInt8) :
    (bytePkt seqnum timestamp byte).Legal := by
  refine ⟨?_, fun hne => absurd rfl hne, ?_⟩
  · show ptypeData ≠ 0
    decide
  · show (1 : UInt16).toNat ≤ 512
    decide

/-- TR set and cleared again before the change to an ACK, a window refused in between. -/
theorem settersRight_iff_ack :
    SettersRight (bytePkt 0 0 7) [.tr 1, .window 40, .tr 0, .type 2] := by
  refine (settersRight_iff (bytePkt 0 0 7) (bytePkt_legal 0 0 7)
    [.tr 1, .window 40, .tr 0, .type 2]).mpr ?_
  exact ⟨Or.inl (by decide), trivial, Or.inl (by decide), Or.inr ⟨by decide, Or.inr rfl⟩, trivial⟩

/-- `pkt_set_tr(pkt, 2)` on a DATA packet answers `PKT_OK`, and the getter then returns 0. -/
theorem settersRight_tr_two :
    (bytePkt 0 0 7).Legal ∧ ¬ SettersRight (bytePkt 0 0 7) [.tr 2] ∧
      ((SetterCall.tr 2).run (bytePkt 0 0 7)).1 = .pktOk ∧
      ((SetterCall.tr 2).run (bytePkt 0 0 7)).2.tr = 0 := by
  refine ⟨bytePkt_legal 0 0 7, fun hright => ?_, rfl, rfl⟩
  have hfits := (SetterCall.right_iff_fits (bytePkt_legal 0 0 7) (.tr 2)).mp hright.1
  rcases hfits with hle | hne
  · exact absurd hle (by decide)
  · exact hne rfl

end SelectiveRepeat
