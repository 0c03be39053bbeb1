/-
  SelectiveRepeat.Sender.Stale

  The sender reads a datagram into `pkt_buffer` and hands 12 bytes of it to
  `pkt_decode`, however many were read.  Ten are a whole ACK or NACK, so the bytes
  behind them do not matter; of a shorter datagram the end is what the buffer held
  before.
-/
import SelectiveRepeat.Segment.Extent
import SelectiveRepeat.Sender.Nack

namespace SelectiveRepeat

/-! ## The block and what it should decode -/

/-- The rest of the block, with the first `len` bytes of `m` decoded. -/
def decodedCase [Zlib] (env : SenderEnv) (st : SenderState) (m : Mem) (len : Nat) :
    Exec SenderTurn := do
  let (socketResp, socketPkt) ← pktDecode m len (env.fresh .socket)
  if socketResp = .pktOk then socketCase env st socketPkt
  else return { state := { st with senderLogger := st.senderLogger.addPacketIgnored } }

/-- The source decodes 12 bytes of the buffer. -/
theorem socketBranch_eq [Zlib] {env : SenderEnv} {r : ReadResult} (hsocket : env.socket = some r)
    (st : SenderState) :
    socketBranch env st = decodedCase env (st.reads r) (r.fill 12 st.pktBuffer) 12 := by
  simp only [socketBranch, hsocket]
  rfl

/-- The block that decodes the bytes of the datagram, and no others: nothing is under them, and
    `pkt_decode` is told how many there are. -/
def receivedBranch [Zlib] (env : SenderEnv) (st : SenderState) : Exec SenderTurn :=
  match env.socket with
  | none => .ok { state := st }
  | some r => decodedCase env (st.reads r) (r.fill 12 fun _ => 0) (r.nb 12).toNat

/-- What the block does to the window and its sizes, what it sends, and whether it returns. -/
structure Reaction where
  stop : Option SenderStop
  window : Queue
  pktInWindow : UInt8
  sendingWindowSize : UInt8
  sent : List Bytes

def SenderTurn.reaction (t : SenderTurn) : Reaction where
  stop := t.stop
  window := t.state.window
  pktInWindow := t.state.pktInWindow
  sendingWindowSize := t.state.sendingWindowSize
  sent := t.sent

def reaction (x : Exec SenderTurn) : Exec Reaction := x.map SenderTurn.reaction

/-- Nothing is changed and nothing sent. -/
def SenderState.unmoved (st : SenderState) : Exec Reaction := reaction (.ok { state := st })

theorem reaction_eq_unmoved {x : Exec SenderTurn} {st : SenderState}
    (h : reaction x = st.unmoved) :
    ∃ t, x = .ok t ∧ t.stop = none ∧ t.state.window = st.window ∧ t.sent = [] := by
  obtain ⟨t, rfl, heq⟩ := exists_ok_of_map h
  exact ⟨t, rfl, congrArg Reaction.stop heq, congrArg Reaction.window heq,
    congrArg Reaction.sent heq⟩

/-! ## Replies that change nothing -/

theorem ackLoop_size {s : UInt8} {fuel : Nat} {a b : AckState} (h : ackLoop s fuel a = .ok b) :
    b.window.size ≤ a.window.size := by
  induction fuel generalizing a with
  | zero => exact absurd h (by simp [ackLoop])
  | succ fuel ih =>
      simp only [ackLoop] at h
      obtain ⟨higher, -, h⟩ := exists_ok_of_bind h
      cases higher with
      | true =>
          have hle := ih h
          simp only [Queue.dequeue] at hle
          omega
      | false =>
          cases h
          exact Int.le_refl _

/-- An ACK does nothing if the comparison fails at the head and the window size is the one
    there is. -/
theorem reaction_ackCase (env : SenderEnv) (st : SenderState) (q : Pkt) (s : UInt8) :
    reaction (ackCase env st q s) = st.unmoved ↔
      st.window.isHigherOrEqual s.toNat = .ok false ∧
        UInt8.ofNat q.window.toNat = st.sendingWindowSize := by
  simp only [ackCase, ackLoop]
  cases hcmp : st.window.isHigherOrEqual s.toNat with
  | error e => simp [reaction, SenderState.unmoved, Except.map]
  | ok higher =>
      cases higher with
      | false =>
          simp [reaction, SenderState.unmoved, Except.map, SenderTurn.reaction, pure, Except.pure]
      | true =>
          refine ⟨fun hsame => ?_, fun hnot => absurd hnot.1 (by simp)⟩
          -- a packet is taken out
          obtain ⟨t, hrun, -, hwindow, -⟩ := reaction_eq_unmoved hsame
          simp only [ok_bind, if_true] at hrun
          obtain ⟨b, hloop, hrun⟩ := exists_ok_of_bind hrun
          cases hrun
          have hsize := ackLoop_size hloop
          have hsame := congrArg Queue.size hwindow
          simp only [Queue.dequeue] at hsize hsame
          omega

/-- A NACK does nothing if `get` finds nothing. -/
theorem reaction_nackCase [Zlib] (env : SenderEnv) (st : SenderState) (s : UInt8) :
    reaction (nackCase env st s) = st.unmoved ↔ st.window.get s none = .ok none := by
  simp only [nackCase]
  cases hget : st.window.get s none with
  | error e => simp [reaction, SenderState.unmoved, Except.map]
  | ok found =>
      cases found with
      | none =>
          simp [reaction, SenderState.unmoved, Except.map, SenderTurn.reaction, pure, Except.pure]
      | some got =>
          refine ⟨fun hsame => ?_, fun hnot => absurd hnot (by simp)⟩
          -- the packet found is sent, or the loop returns
          obtain ⟨t, hrun, hstop, -, hsent⟩ := reaction_eq_unmoved hsame
          simp only [ok_bind] at hrun
          split at hrun
          · cases hrun
          · obtain ⟨⟨status, buf, size⟩, -, hrun⟩ := exists_ok_of_bind hrun
            dsimp only at hrun
            split at hrun
            · cases hrun
              exact absurd hstop (by simp)
            · cases hrun
              exact absurd hsent (List.cons_ne_nil _ _)

/-- `m` starts with an ACK or a NACK. -/
def Mem.IsReply [Zlib] (m : Mem) : Prop :=
  (m.typeField = ptypeAck ∨ m.typeField = ptypeNack) ∧ m.Crc1Right

/-- What stands at the start of `m` changes nothing: it is an ACK that `is_higher_or_equal` puts
    before the head, or of an empty window, and that advertises the size there is, or a
    NACK for a number `get` does not find, or no reply at all. -/
structure Harmless [Zlib] (st : SenderState) (m : Mem) : Prop where
  ack : m.typeField = ptypeAck → m.Crc1Right →
    st.window.isHigherOrEqual (m 1 - 1).toNat = .ok false ∧
      UInt8.ofNat m.windowField.toNat = st.sendingWindowSize
  nack : m.typeField = ptypeNack → m.Crc1Right → st.window.get (m 1 - 1) none = .ok none

section
variable [Zlib] (env : SenderEnv) (st : SenderState) {m : Mem}

theorem Mem.IsReply.ne_data (h : m.IsReply) : m.typeField ≠ ptypeData := by
  rcases h.1 with htype | htype <;> rw [htype] <;> decide

theorem Mem.IsReply.lengthInc (h : m.IsReply) : lengthInc m.typeField = 0 := if_neg h.ne_data

/-- Other types are counted only. -/
theorem reaction_socketCase_of_ne {q : Pkt} (hack : q.type ≠ ptypeAck) (hnack : q.type ≠ ptypeNack) :
    reaction (socketCase env st q) = st.unmoved := by
  simp only [socketCase, if_neg hack, if_neg hnack]
  split
  · split <;> rfl
  · rfl

/-- The switch takes a reply by its header. -/
theorem reaction_socketCase (h : m.IsReply) (prior : Pkt) :
    reaction (socketCase env st (m.decodedHeader prior)) = st.unmoved ↔ Harmless st m := by
  have hzero : (m.decodedHeader prior).tr = 0 := if_neg h.ne_data
  have htr : (m.decodedHeader prior).tr ≠ 1 := bitVec1_ne_one hzero
  have hseq : (m.decodedHeader prior).seqnum = m 1 := by
    rw [Mem.decodedHeader, h.lengthInc]
  rcases h.1 with htype | htype
  · rw [socketCase_ack env st htype htr, reaction_ackCase, hseq]
    refine ⟨fun hidle => ⟨fun _ _ => hidle, fun hnack => ?_⟩, fun hidle => hidle.ack htype h.2⟩
    exact absurd (htype.symm.trans hnack) (by decide)
  · rw [socketCase_of_nack env st htype htr, reaction_nackCase, hseq]
    refine ⟨fun hidle => ⟨fun hack => ?_, fun _ _ => hidle⟩, fun hidle => hidle.nack htype h.2⟩
    exact absurd (htype.symm.trans hack) (by decide)

/-- Ten bytes are enough for a reply. -/
theorem decodedCase_reply (h : m.IsReply) {len : Nat} (hlen : 10 ≤ len) (hmax : len ≤ 12) :
    decodedCase env st m len = socketCase env st (m.decodedHeader (env.fresh .socket)) := by
  have hsize : ¬ intOfSize len < m.datagramSize := by
    rw [intOfSize_of_lt (by omega), Int.ofNat_lt, Mem.datagramSize, if_pos h.ne_data]
    omega
  have hempty : ¬ 0 < (m.decodedHeader (env.fresh .socket)).length := by
    rw [show (m.decodedHeader (env.fresh .socket)).length = 0 from decodedLength_of_ne h.ne_data _]
    decide
  have hdec : pktDecode m len (env.fresh .socket) =
      .ok (.pktOk, m.decodedHeader (env.fresh .socket)) := by
    rw [pktDecode_eq, if_neg hsize, if_neg (not_not.mpr h.2)]
    exact decodePayload_none m _ fun hpay => hempty hpay.2
  simp only [decodedCase, hdec, ok_bind, if_true]

/-- Anything else is dropped, or counted. -/
theorem reaction_decodedCase (h : ¬ m.IsReply) {len : Nat} (hmax : len ≤ 12) :
    reaction (decodedCase env st m len) = st.unmoved := by
  obtain ⟨status, q, hdec, -⟩ := pktDecode_total m (show len ≤ 528 by omega) (env.fresh .socket)
  simp only [decodedCase, hdec, ok_bind]
  by_cases hok : status = .pktOk
  · subst hok
    obtain ⟨-, hcrc, hpayload⟩ := pktDecode_ok (by omega) hdec
    obtain ⟨payload, crc2, rfl⟩ := decodePayload_keeps hpayload
    rw [if_pos rfl]
    exact reaction_socketCase_of_ne env st (fun htype => h ⟨Or.inl htype, hcrc⟩)
      (fun htype => h ⟨Or.inr htype, hcrc⟩)
  · rw [if_neg hok]
    rfl

theorem reaction_decodedCase_short {len : Nat} (hlen : len < 10) :
    reaction (decodedCase env st m len) = st.unmoved := by
  simp only [decodedCase, pktDecode_short m hlen, ok_bind]
  rfl

/-- With the same ten bytes at the start, two memories start with the same reply. -/
theorem isReply_congr {m' : Mem} {n : Nat} (hn : 10 ≤ n) (h : ∀ i < n, m i = m' i) :
    m.IsReply → m'.IsReply := by
  intro hreply
  have hheader : 10 + lengthInc m.typeField ≤ n := by
    rw [hreply.lengthInc]
    exact hn
  refine ⟨?_, (crc1Right_congr h hheader).mp hreply.2⟩
  rw [← Mem.typeField_congr h (by omega)]
  exact hreply.1

end

/-! ## The datagram -/

/-- A turn in which the socket brings `data`. -/
def SenderEnv.hearing (env : SenderEnv) (data : Bytes) : SenderEnv :=
  { env with socket := some (.bytes data) }

/-- The block reacts to the bytes of the datagram and to no others; where it is shorter than
    ten bytes, not at all. -/
structure ReactsToReceived [Zlib] (env : SenderEnv) (st : SenderState) (data : Bytes) : Prop where
  received : reaction (socketBranch (env.hearing data) st) =
    reaction (receivedBranch (env.hearing data) st)
  short : data.length < 10 → reaction (socketBranch (env.hearing data) st) = st.unmoved

/-- In every state, whatever the buffer held: the block reacts to the datagram only, if and only
    if that is ten bytes long or what it leaves in the buffer is harmless. -/
theorem socketBranch_received_iff [Zlib] (env : SenderEnv) (st : SenderState) (data : Bytes) :
    ReactsToReceived env st data ↔
      10 ≤ data.length ∨ Harmless st (st.pktBuffer.blit 0 (data.take 12)) := by
  have hbranch : socketBranch (env.hearing data) st =
      decodedCase (env.hearing data) (st.reads (.bytes data))
        (st.pktBuffer.blit 0 (data.take 12)) 12 := socketBranch_eq rfl st
  have hreceived : receivedBranch (env.hearing data) st =
      decodedCase (env.hearing data) (st.reads (.bytes data))
        (Mem.blit (fun _ => 0) 0 (data.take 12)) (data.take 12).length := rfl
  have hunmoved : (st.reads (.bytes data)).unmoved = st.unmoved := rfl
  have htaken : (data.take 12).length = min 12 data.length := List.length_take
  by_cases hlen : 10 ≤ data.length
  · -- the bytes under the datagram are not looked at
    refine ⟨fun _ => Or.inl hlen, fun _ => ⟨?_, fun hshort => absurd hshort (Nat.not_lt.mpr hlen)⟩⟩
    have hsame : ∀ i < (data.take 12).length, st.pktBuffer.blit 0 (data.take 12) i =
        Mem.blit (fun _ => 0) 0 (data.take 12) i := fun i hi => Mem.blit_start _ _ hi
    by_cases hreply : (st.pktBuffer.blit 0 (data.take 12)).IsReply
    · have hreply' := isReply_congr (by omega) hsame hreply
      have hheader : 10 + lengthInc (st.pktBuffer.blit 0 (data.take 12)).typeField ≤
          (data.take 12).length := by
        rw [hreply.lengthInc]
        omega
      rw [hbranch, hreceived, decodedCase_reply _ _ hreply (by decide) (Nat.le_refl _),
        decodedCase_reply _ _ hreply' (by omega) (by omega), decodedHeader_congr hsame hheader]
    · have hreply' : ¬ (Mem.blit (fun _ => 0) 0 (data.take 12)).IsReply := fun h =>
        hreply (isReply_congr (by omega) (fun i hi => (hsame i hi).symm) h)
      rw [hbranch, hreceived, reaction_decodedCase _ _ hreply (Nat.le_refl _),
        reaction_decodedCase _ _ hreply' (by omega)]
  · -- nothing is to be done, so it must be nothing that is done
    have hnothing : reaction (receivedBranch (env.hearing data) st) = st.unmoved := by
      rw [hreceived, reaction_decodedCase_short _ _ (by omega)]
      exact hunmoved
    have hharmless : reaction (socketBranch (env.hearing data) st) = st.unmoved ↔
        Harmless st (st.pktBuffer.blit 0 (data.take 12)) := by
      rw [hbranch, ← hunmoved]
      by_cases hreply : (st.pktBuffer.blit 0 (data.take 12)).IsReply
      · rw [decodedCase_reply _ _ hreply (by decide) (Nat.le_refl _), reaction_socketCase _ _ hreply]
        exact ⟨fun h => ⟨h.ack, h.nack⟩, fun h => ⟨h.ack, h.nack⟩⟩
      · rw [reaction_decodedCase _ _ hreply (Nat.le_refl _)]
        exact ⟨fun _ => ⟨fun htype hcrc => absurd ⟨Or.inl htype, hcrc⟩ hreply,
          fun htype hcrc => absurd ⟨Or.inr htype, hcrc⟩ hreply⟩, fun _ => rfl⟩
    rw [or_iff_right hlen, ← hharmless]
    exact ⟨fun h => h.short (Nat.lt_of_not_le hlen), fun h => ⟨h.trans hnothing.symm, fun _ => h⟩⟩

/-- The sender of packet 0, with its datagram still in the buffer. -/
def senderOfByte [Zlib] : SenderState :=
  { senderHolding [bytePkt 0 0 1] with pktBuffer := Mem.blit (fun _ => 0) 0 (bytePkt 0 0 1).wire }

/-- Nine bytes of the NACK 1; the tenth, the end of its CRC1, is the one in the buffer. -/
def nackCut : Bytes := [0xdf, 1, 0x5e, 0, 0, 0, 0x44, 0x18, 0x5e]

/-- The packet is sent again. -/
theorem socketBranch_not_received : ¬ ∀ [Zlib] (env : SenderEnv) (st : SenderState) (data : Bytes),
    ReactsToReceived env st data := by
  intro hall
  let _ := zlib
  have hsent : (socketBranch ((quietEnv 0).hearing nackCut) senderOfByte).map
      (fun t => t.sent.length) = .ok 1 := by
    decide +kernel
  obtain ⟨t, hrun, -, -, hnil⟩ :=
    reaction_eq_unmoved ((hall (quietEnv 0) senderOfByte nackCut).short (by decide))
  rw [hrun, Except.map, hnil, Except.ok.injEq] at hsent
  exact absurd hsent (by decide)

end SelectiveRepeat
