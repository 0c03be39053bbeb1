/-
  SelectiveRepeat.Sender.Turn

  One turn of the sender, block by block, on a window of any packets.  Nothing is
  asked of what the packets contain, so this covers the turns after a read of the
  input that failed.  What the blocks keep is the ring and its count; what they
  leave in `nb` is the result of the last `read`, of either descriptor.
-/
import SelectiveRepeat.Segment.Format
import SelectiveRepeat.Sender.Window

namespace SelectiveRepeat

/-- The ring holds `l`, and the loop counts it right. -/
structure Counted (st : SenderState) (l : List Pkt) : Prop where
  holds : st.window.Holds l
  count : st.pktInWindow.toNat = l.length
  windowSize : st.sendingWindowSize.toNat ≤ 31

theorem senderInit_counted (buf : Mem) (mem : Logger) (statsFile : Bool) (start : Int) :
    Counted (senderInit buf mem statsFile start) [] :=
  ⟨Queue.newList_holds, rfl, (by decide : (1 : UInt8).toNat ≤ 31)⟩

/-! ## The input -/

/-- What `nb` is after the input block. -/
def SenderEnv.inputNb (env : SenderEnv) (st : SenderState) : Int :=
  match env.inputRead st with
  | none => st.nb
  | some r => r.nb MAX_PAYLOAD_SIZE

/-- The number of the packet the input block adds to the window, if any: also a read
    that failed makes one. -/
def SenderEnv.numberAdded (env : SenderEnv) (st : SenderState) : List UInt8 :=
  match env.inputRead st with
  | none => []
  | some r => if r.nb MAX_PAYLOAD_SIZE = 0 then [] else [st.seqnum]

/-- The number and the type are set, whatever the other setters refuse. -/
theorem buildPkt_keeps (pkt : Pkt) (windowSize seqnum : UInt8) (nb : Int) (payload : Bytes)
    (timestamp : UInt32) :
    (buildPkt pkt windowSize seqnum nb payload timestamp).seqnum = seqnum ∧
      (buildPkt pkt windowSize seqnum nb payload timestamp).type = ptypeData := by
  have htype : (pktSetType pkt 1).2.type = ptypeData := rfl
  refine ⟨?_, ?_⟩
  · rw [buildPkt, pktSetPayload_seqnum, pktSetTimestamp, pktSetLength_seqnum, pktSetSeqnum]
  · rw [buildPkt, pktSetPayload_type, pktSetTimestamp, pktSetLength_type, pktSetSeqnum,
      pktSetWindow_type, pktSetTr_zero]
    exact htype

/-- What `pkt_encode` leaves in the buffer starts with the type. -/
theorem pktEncode_typeField [Zlib] {pkt : Pkt} {buf buf' : Mem} {len size : Nat}
    (h : pktEncode pkt buf len = .ok (.pktOk, buf', size)) : buf'.typeField = pkt.type := by
  have hfirst : buf' 0 = headerByte pkt.type pkt.tr pkt.window := by
    simp only [pktEncode] at h
    split at h
    · cases h
    · split at h
      · cases h
        split <;> simp [Mem.blit]
      · split at h
        · cases h
        · split at h
          · cases h
            split <;> simp [Mem.blit]
          · cases h
            split <;> simp [Mem.blit]
  rw [← wireType_field]
  exact (headerByte_fields hfirst).1

/-- What the input block can do: read nothing but the end of the input, add a packet that it
    has encoded, or return. -/
inductive InputCase [Zlib] (env : SenderEnv) (st : SenderState) (t : SenderTurn) : Prop where
  | idle (hnumber : env.numberAdded st = []) (hstop : t.stop = none)
      (hstate : t.state = { st with nb := env.inputNb st })
  | added (pkt : Pkt) (buf : Mem) (size : Nat)
      (henc : pktEncode pkt st.pktBuffer pktBufferSize = .ok (.pktOk, buf, size))
      (hseq : pkt.seqnum = st.seqnum) (htype : pkt.type = ptypeData)
      (hnumber : env.numberAdded st = [st.seqnum])
      (hroom : st.pktInWindow < st.sendingWindowSize) (hstop : t.stop = none)
      (hstate : t.state = { st with
        nb := env.inputNb st
        pktBuffer := buf
        window := (st.window.add pkt).2
        senderLogger := st.senderLogger.addDataSent
        pktInWindow := st.pktInWindow + 1
        seqnum := UInt8.ofNat ((st.seqnum.toNat + 1) % 256) })
  | returned (hstop : t.stop ≠ none) (hopen : t.stop ≠ some .closed)

theorem inputBranch_inv [Zlib] {env : SenderEnv} {st : SenderState} {t : SenderTurn}
    (hpoll : env.pollFails = false) (hrun : inputBranch env st = .ok t) : InputCase env st t := by
  cases hinput : env.input with
  | none =>
      have hread : env.inputRead st = none := by
        simp only [SenderEnv.inputRead, hpoll, hinput, Bool.false_eq_true, ite_self]
      simp only [inputBranch, hinput] at hrun
      cases hrun
      refine .idle ?_ rfl ?_
      · rw [SenderEnv.numberAdded, hread]
      · rw [SenderEnv.inputNb, hread]
  | some r =>
      simp only [inputBranch, hinput] at hrun
      by_cases hlt : st.pktInWindow < st.sendingWindowSize
      · have hread : env.inputRead st = some r := by
          simp only [SenderEnv.inputRead, hpoll, hinput, Bool.false_eq_true, if_false, if_pos hlt]
        have hnb : env.inputNb st = r.nb MAX_PAYLOAD_SIZE := by
          rw [SenderEnv.inputNb, hread]
        rw [if_pos hlt] at hrun
        by_cases hzero : r.nb MAX_PAYLOAD_SIZE = 0
        · rw [if_neg (not_not.mpr hzero)] at hrun
          cases hrun
          refine .idle ?_ rfl ?_
          · simp only [SenderEnv.numberAdded, hread, if_pos hzero]
          · rw [hnb]
        · rw [if_pos hzero] at hrun
          obtain ⟨⟨status, buf, size⟩, henc, hrun⟩ := exists_ok_of_bind hrun
          dsimp only at hrun
          split at hrun
          · cases hrun
            exact .returned (by simp) (by simp)
          · simp only [Queue.add, Int.lt_irrefl, if_false] at hrun
            split at hrun
            · cases hrun
              exact .returned (by simp) (by simp)
            · rename_i hok _
              rw [not_not] at hok
              subst hok
              cases hrun
              refine .added _ buf size henc (buildPkt_keeps ..).1 (buildPkt_keeps ..).2 ?_ hlt rfl ?_
              · simp only [SenderEnv.numberAdded, hread, if_neg hzero]
              · rw [hnb]
                rfl
      · -- the input is left unread
        have hread : env.inputRead st = none := by
          simp only [SenderEnv.inputRead, hpoll, Bool.false_eq_true, if_false, if_neg hlt]
        rw [if_neg hlt] at hrun
        cases hrun
        refine .idle ?_ rfl ?_
        · rw [SenderEnv.numberAdded, hread]
        · rw [SenderEnv.inputNb, hread]

/-- The block adds at most one packet, with the next number, and encodes it in the
    buffer. -/
theorem Counted.input [Zlib] {env : SenderEnv} {st : SenderState} {l : List Pkt}
    (h : Counted st l) (hpoll : env.pollFails = false) {t : SenderTurn}
    (hrun : inputBranch env st = .ok t) :
    t.stop ≠ some .closed ∧ (t.stop = none → t.state.nb = env.inputNb st ∧
      ∃ added, added.map Pkt.seqnum = env.numberAdded st ∧ Counted t.state (l ++ added) ∧
        (added = [] → t.state.pktBuffer = st.pktBuffer) ∧
        (added ≠ [] → t.state.pktBuffer.typeField = ptypeData) ∧
        t.state.seqnum = st.seqnum + UInt8.ofNat added.length) := by
  cases inputBranch_inv hpoll hrun with
  | idle hnumber hstop hstate =>
      rw [hstate, hstop, hnumber]
      refine ⟨by simp, fun _ => ⟨rfl, [], rfl, ?_, fun _ => rfl, fun hne => absurd rfl hne,
        (UInt8.add_zero st.seqnum).symm⟩⟩
      rw [List.append_nil]
      exact ⟨h.holds, h.count, h.windowSize⟩
  | added pkt buf size henc hseq htype hnumber hlt hstop hstate =>
      -- the guard of the block leaves a free slot
      have hcount := h.count
      have hsize := h.windowSize
      have hroom : l.length < 31 := by
        have hlt' := UInt8.lt_iff_toNat_lt.mp hlt
        omega
      rw [hstate, hstop, hnumber]
      refine ⟨by simp, fun _ => ⟨rfl, [pkt], ?_, ⟨h.holds.add hroom pkt, ?_, hsize⟩,
        fun hnil => absurd hnil (List.cons_ne_nil _ _), fun _ => ?_, ?_⟩⟩
      · rw [List.map_singleton, hseq]
      · rw [List.length_append, List.length_singleton, UInt8.toNat_add, UInt8.toNat_one]
        omega
      · exact (pktEncode_typeField henc).trans htype
      · rw [List.length_singleton, ← UInt8.toNat_inj, UInt8.toNat_add]
        dsimp only
        rw [UInt8.toNat_ofNat']
        exact Nat.mod_mod _ _
  | returned hstop hopen => exact ⟨hopen, fun hgo => absurd hgo hstop⟩

/-! ## The window with other timestamps -/

/-- Storing a packet of the window with another timestamp. -/
theorem Queue.Holds.store_restamp {list : Queue} {l : List Pkt} (h : list.Holds l)
    {i : Fin MAX_WINDOW_SIZE} {pkt : Pkt} (hcell : list.window i = some pkt) (ts : UInt32) :
    ∃ l', (list.store i (pkt.restamp ts)).Holds l' ∧ SameButTimestamp l l' := by
  obtain ⟨j, hj, rfl, rfl⟩ := h.place hcell
  exact ⟨_, h.store hj _, sameButTimestamp_set (List.getElem?_eq_getElem hj) ts⟩

/-- From `st` to `st'` only timestamps, the buffer and the statistics change. -/
structure Restamped (st st' : SenderState) : Prop where
  nb : st'.nb = st.nb
  seqnum : st'.seqnum = st.seqnum
  pktInWindow : st'.pktInWindow = st.pktInWindow
  sendingWindowSize : st'.sendingWindowSize = st.sendingWindowSize
  window : ∀ l, st.window.Holds l → ∃ l', st'.window.Holds l' ∧ SameButTimestamp l l'

theorem restamped_refl (st : SenderState) : Restamped st st :=
  ⟨rfl, rfl, rfl, rfl, fun l hl => ⟨l, hl, sameButTimestamp_refl l⟩⟩

theorem Restamped.trans {st st' st'' : SenderState} (h : Restamped st st')
    (h' : Restamped st' st'') : Restamped st st'' := by
  refine ⟨h'.nb.trans h.nb, h'.seqnum.trans h.seqnum, h'.pktInWindow.trans h.pktInWindow,
    h'.sendingWindowSize.trans h.sendingWindowSize, fun l hl => ?_⟩
  obtain ⟨l', hl', hsame⟩ := h.window l hl
  obtain ⟨l'', hl'', hsame'⟩ := h'.window l' hl'
  exact ⟨l'', hl'', hsame.trans hsame'⟩

theorem Restamped.counted {st st' : SenderState} (h : Restamped st st') {l : List Pkt}
    (hl : Counted st l) : ∃ l', Counted st' l' ∧ SameButTimestamp l l' := by
  obtain ⟨l', hl', hsame⟩ := h.window l hl.holds
  refine ⟨l', ⟨hl', ?_, ?_⟩, hsame⟩
  · rw [h.pktInWindow, hl.count, hsame.length_eq]
  · rw [h.sendingWindowSize]
    exact hl.windowSize

/-! ## Check RT -/

/-- A pass changes timestamps only. -/
theorem checkRtLoop_restamped [Zlib] {env : SenderEnv} {clock_time : UInt32} {first : UInt8}
    {fuel n : Nat} {firstTime : Bool} {receive_seqnum : UInt8}
    {supportInt : Option (Fin MAX_WINDOW_SIZE)} {st : SenderState} {t : SenderTurn}
    (hrun : checkRtLoop env clock_time first fuel n firstTime receive_seqnum supportInt st = .ok t) :
    t.stop ≠ some .closed ∧ (t.stop = none → Restamped st t.state) := by
  induction fuel generalizing n firstTime receive_seqnum supportInt st t with
  | zero => exact absurd hrun (by simp [checkRtLoop])
  | succ fuel ih =>
      simp only [checkRtLoop] at hrun
      obtain ⟨found, -, hrun⟩ := exists_ok_of_bind hrun
      cases found with
      | none =>
          cases hrun
          exact ⟨by simp, fun _ => restamped_refl st⟩
      | some got =>
          dsimp only at hrun
          cases hcell : st.window.window got.tmpPtk with
          | none =>
              rw [hcell] at hrun
              cases hrun
          | some tmpPtk =>
              simp only [hcell] at hrun
              split at hrun
              · cases hrun
                exact ⟨by simp, fun _ => restamped_refl st⟩
              · split at hrun
                · -- the packet is stored with a new timestamp and sent
                  obtain ⟨⟨status, buf, size⟩, -, hrun⟩ := exists_ok_of_bind hrun
                  dsimp only at hrun
                  split at hrun
                  · cases hrun
                    exact ⟨by simp, fun hgo => absurd hgo (by simp)⟩
                  · obtain ⟨t', hrest, hrun⟩ := exists_ok_of_bind hrun
                    cases hrun
                    obtain ⟨hnot, hkept⟩ := ih hrest
                    refine ⟨hnot, fun hgo => Restamped.trans ?_ (hkept hgo)⟩
                    exact ⟨rfl, rfl, rfl, rfl, fun l hl => hl.store_restamp hcell _⟩
                · exact ih hrun

theorem checkRt_restamped [Zlib] {env : SenderEnv} {st : SenderState} {t : SenderTurn}
    (hrun : checkRt env st = .ok t) :
    t.stop ≠ some .closed ∧ (t.stop = none → Restamped st t.state) := by
  simp only [checkRt] at hrun
  split at hrun
  · cases hrun
    exact ⟨by simp, fun _ => restamped_refl st⟩
  · exact checkRtLoop_restamped hrun

/-! ## The socket -/

/-- A NACK changes a timestamp and the window size. -/
theorem Counted.nack [Zlib] {env : SenderEnv} {st : SenderState} {l : List Pkt}
    (h : Counted st l) {s : UInt8} {t : SenderTurn} (hrun : nackCase env st s = .ok t) :
    t.stop ≠ some .closed ∧ (t.stop = none → t.state.nb = st.nb ∧
      t.state.seqnum = st.seqnum ∧ ∃ l', Counted t.state l' ∧ SameButTimestamp l l') := by
  simp only [nackCase] at hrun
  obtain ⟨found, -, hrun⟩ := exists_ok_of_bind hrun
  cases found with
  | none =>
      cases hrun
      exact ⟨by simp, fun _ =>
        ⟨rfl, rfl, l, ⟨h.holds, h.count, h.windowSize⟩, sameButTimestamp_refl l⟩⟩
  | some got =>
      dsimp only at hrun
      cases hcell : st.window.window got.tmpPtk with
      | none =>
          rw [hcell] at hrun
          cases hrun
      | some tmpPtk =>
          simp only [hcell] at hrun
          obtain ⟨⟨status, buf, size⟩, -, hrun⟩ := exists_ok_of_bind hrun
          dsimp only at hrun
          split at hrun
          · cases hrun
            exact ⟨by simp, fun hgo => absurd hgo (by simp)⟩
          · cases hrun
            refine ⟨by simp, fun _ => ⟨rfl, rfl, ?_⟩⟩
            obtain ⟨l', hl', hsame⟩ := h.holds.store_restamp hcell (env.now .nack st)
            refine ⟨l', ⟨hl', h.count.trans hsame.length_eq, ?_⟩, hsame⟩
            -- the window size is halved, down to one
            have hsize := h.windowSize
            dsimp only
            split
            · decide
            · rw [UInt8.toNat_div]
              exact Nat.le_trans (Nat.div_le_self _ _) hsize

/-- What a reply leaves of the window. -/
def remaining (reply : Option Pkt) (l : List Pkt) : List Pkt :=
  match reply with
  | none => l
  | some q => if q.type = ptypeAck then unacked (q.seqnum - 1) l else l

theorem Counted.ack [Zlib] (env : SenderEnv) {st : SenderState} {l : List Pkt} (h : Counted st l)
    (q : Pkt) (s : UInt8) :
    ∃ t, ackCase env st q s = .ok t ∧ t.stop = none ∧ t.state.nb = st.nb ∧
      t.state.seqnum = st.seqnum ∧ Counted t.state (unacked s l) := by
  obtain ⟨window', lg, hrun, hholds⟩ := ackCase_spec env h.holds q s
  refine ⟨_, hrun, rfl, rfl, rfl, hholds, ?_, ?_⟩
  · -- no more than what is there is taken out
    have hle := unacked_length_le s l
    have hlen := h.holds.length_le
    have hcount := h.count
    rw [UInt8.toNat_sub, UInt8.toNat_ofNat']
    omega
  · have hwindow := q.window.isLt
    rw [UInt8.toNat_ofNat']
    omega

/-- Only an ACK takes packets out. -/
theorem Counted.socket [Zlib] {env : SenderEnv} {st : SenderState} {l : List Pkt}
    (h : Counted st l) {t : SenderTurn} (hrun : socketBranch env st = .ok t) :
    t.stop ≠ some .closed ∧ (t.stop = none → t.state.nb = env.socketNb st.nb ∧
      t.state.seqnum = st.seqnum ∧
      ∃ l', Counted t.state l' ∧ SameButTimestamp (remaining (env.reply st.pktBuffer) l) l') := by
  cases hreply : env.reply st.pktBuffer with
  | none =>
      obtain ⟨buf, lg, hnone⟩ := socketBranch_of_none hreply
      rw [hrun, Except.ok.injEq] at hnone
      subst hnone
      exact ⟨by simp, fun _ => ⟨rfl, rfl, l, ⟨h.holds, h.count, h.windowSize⟩,
        sameButTimestamp_refl l⟩⟩
  | some q =>
      obtain ⟨buf, hcase, htr⟩ := socketBranch_of_reply hreply
      rw [hcase] at hrun
      have hread : Counted { st with nb := env.socketNb st.nb, pktBuffer := buf } l :=
        ⟨h.holds, h.count, h.windowSize⟩
      simp only [remaining]
      by_cases hack : q.type = ptypeAck
      · obtain ⟨t', hrun', hgo, hnb, hseq, hcounted⟩ := hread.ack env q (q.seqnum - 1)
        rw [socketCase_ack env _ hack htr, hrun', Except.ok.injEq] at hrun
        subst hrun
        rw [if_pos hack]
        exact ⟨by simp [hgo], fun _ => ⟨hnb, hseq, _, hcounted, sameButTimestamp_refl _⟩⟩
      · rw [if_neg hack]
        simp only [socketCase, if_pos htr, if_neg hack] at hrun
        split at hrun
        · cases hrun
          exact ⟨by simp, fun _ => ⟨rfl, rfl, l, ⟨h.holds, h.count, h.windowSize⟩,
        sameButTimestamp_refl l⟩⟩
        · split at hrun
          · exact hread.nack hrun
          · cases hrun
            exact ⟨by simp, fun _ => ⟨rfl, rfl, l, hread, sameButTimestamp_refl l⟩⟩

/-! ## The end of the transfer -/

/-- The loop returns through this block when `nb` and the count are 0. -/
theorem closeBranch_inv [Zlib] {env : SenderEnv} {st : SenderState} {t : SenderTurn}
    (hrun : closeBranch env st = .ok t) :
    (t.stop = none → t.state = st ∧ ¬ (st.nb = 0 ∧ st.pktInWindow = 0)) ∧
      (t.stop = some .closed → st.nb = 0 ∧ st.pktInWindow = 0 ∧ t.state.window = st.window) := by
  simp only [closeBranch] at hrun
  split at hrun
  next hend =>
    obtain ⟨⟨status, buf, size⟩, -, hrun⟩ := exists_ok_of_bind hrun
    dsimp only at hrun
    split at hrun
    · cases hrun
      exact ⟨fun hgo => absurd hgo (by simp), fun hclosed => absurd hclosed (by simp)⟩
    · cases hrun
      exact ⟨fun hgo => absurd hgo (by simp), fun _ => ⟨hend.1, hend.2, rfl⟩⟩
  next hend =>
    cases hrun
    exact ⟨fun _ => ⟨rfl, hend⟩, fun hclosed => absurd hclosed (by simp)⟩

/-! ## The turn -/

/-- The turn `t`, by the blocks it came to; only the last of them can have returned. -/
inductive Blocks [Zlib] (env : SenderEnv) (st : SenderState) : SenderTurn → Prop where
  | poll (hpoll : env.pollFails = true) : Blocks env st { state := st, stop := some .poll }
  | input {t₁ : SenderTurn} (hpoll : env.pollFails = false) (h₁ : inputBranch env st = .ok t₁)
      (hstop : t₁.stop ≠ none) : Blocks env st t₁
  | socket {t₁ t₂ : SenderTurn} (hpoll : env.pollFails = false)
      (h₁ : inputBranch env st = .ok t₁) (hgo₁ : t₁.stop = none)
      (h₂ : socketBranch env t₁.state = .ok t₂) (hstop : t₂.stop ≠ none) :
      Blocks env st { t₂ with sent := t₁.sent ++ t₂.sent }
  | check {t₁ t₂ t₃ : SenderTurn} (hpoll : env.pollFails = false)
      (h₁ : inputBranch env st = .ok t₁) (hgo₁ : t₁.stop = none)
      (h₂ : socketBranch env t₁.state = .ok t₂) (hgo₂ : t₂.stop = none)
      (h₃ : checkRt env t₂.state = .ok t₃) (hstop : t₃.stop ≠ none) :
      Blocks env st { t₃ with sent := t₁.sent ++ t₂.sent ++ t₃.sent }
  | close {t₁ t₂ t₃ t₄ : SenderTurn} (hpoll : env.pollFails = false)
      (h₁ : inputBranch env st = .ok t₁) (hgo₁ : t₁.stop = none)
      (h₂ : socketBranch env t₁.state = .ok t₂) (hgo₂ : t₂.stop = none)
      (h₃ : checkRt env t₂.state = .ok t₃) (hgo₃ : t₃.stop = none)
      (h₄ : closeBranch env t₃.state = .ok t₄) :
      Blocks env st { t₄ with sent := t₁.sent ++ t₂.sent ++ t₃.sent ++ t₄.sent }

theorem SenderTurn.andThen_cases {t t' : SenderTurn} {next : SenderState → Exec SenderTurn}
    (h : t.andThen next = .ok t') :
    t.stop ≠ none ∧ t' = t ∨
      t.stop = none ∧ ∃ u, next t.state = .ok u ∧ t' = { u with sent := t.sent ++ u.sent } := by
  cases hstop : t.stop with
  | some reason =>
      rw [SenderTurn.andThen_of_stop (by simp [hstop])] at h
      cases h
      exact Or.inl ⟨by simp, rfl⟩
  | none =>
      simp only [SenderTurn.andThen, hstop] at h
      obtain ⟨u, hu, h⟩ := exists_ok_of_bind h
      cases h
      exact Or.inr ⟨rfl, u, hu, rfl⟩

theorem readWriteLoopSender_blocks [Zlib] {env : SenderEnv} {st : SenderState} {t : SenderTurn}
    (h : readWriteLoopSender env st = .ok t) : Blocks env st t := by
  simp only [readWriteLoopSender] at h
  split at h
  next hpoll =>
    cases h
    exact .poll hpoll
  next hpoll =>
    rw [Bool.not_eq_true] at hpoll
    obtain ⟨t₁, h₁, h⟩ := exists_ok_of_bind h
    obtain ⟨t₂, h₂, h⟩ := exists_ok_of_bind h
    obtain ⟨t₃, h₃, h₄⟩ := exists_ok_of_bind h
    rcases SenderTurn.andThen_cases h₂ with ⟨hstop, rfl⟩ | ⟨hgo₁, u₂, hu₂, rfl⟩
    · rw [SenderTurn.andThen_of_stop hstop, Except.ok.injEq] at h₃
      subst h₃
      rw [SenderTurn.andThen_of_stop hstop, Except.ok.injEq] at h₄
      subst h₄
      exact .input hpoll h₁ hstop
    · rcases SenderTurn.andThen_cases h₃ with ⟨hstop, rfl⟩ | ⟨hgo₂, u₃, hu₃, rfl⟩
      · rw [SenderTurn.andThen_of_stop hstop, Except.ok.injEq] at h₄
        subst h₄
        exact .socket hpoll h₁ hgo₁ hu₂ hstop
      · rcases SenderTurn.andThen_cases h₄ with ⟨hstop, rfl⟩ | ⟨hgo₃, u₄, hu₄, rfl⟩
        · exact .check hpoll h₁ hgo₁ hu₂ hgo₂ hu₃ hstop
        · exact .close hpoll h₁ hgo₁ hu₂ hgo₂ hu₃ hgo₃ hu₄

/-- A turn that went through all the blocks.  The input block added `added` and left `buf`
    in the buffer; before the last block the state is `st'`, and the ring holds `l'`. -/
structure WentThrough [Zlib] (env : SenderEnv) (st : SenderState) (l : List Pkt) (t : SenderTurn)
    (buf : Mem) (added l' : List Pkt) (st' : SenderState) : Prop where
  poll : env.pollFails = false
  numbers : added.map Pkt.seqnum = env.numberAdded st
  heard : env.heard st = env.reply buf
  seqnum : st'.seqnum = st.seqnum + UInt8.ofNat added.length
  room : (l ++ added).length ≤ 31
  unchanged : added = [] → buf = st.pktBuffer
  data : added ≠ [] → buf.typeField = ptypeData
  left : SameButTimestamp (remaining (env.reply buf) (l ++ added)) l'
  counted : Counted st' l'
  nb : st'.nb = env.socketNb (env.inputNb st)
  goes : t.stop = none → t.state = st' ∧ ¬ (st'.nb = 0 ∧ st'.pktInWindow = 0)
  closes : t.stop = some .closed → st'.nb = 0 ∧ st'.pktInWindow = 0 ∧ t.state.window = st'.window

/-- After every other turn the loop returns, without closing the connection. -/
theorem Counted.turn [Zlib] {env : SenderEnv} {st : SenderState} {l : List Pkt}
    (h : Counted st l) {t : SenderTurn} (hrun : readWriteLoopSender env st = .ok t)
    (hstop : t.stop = none ∨ t.stop = some .closed) :
    ∃ buf added l' st', WentThrough env st l t buf added l' st' := by
  -- a block that returns takes a different `return`, so each one goes on to the next
  cases readWriteLoopSender_blocks hrun with
  | poll => exact absurd hstop (by simp)
  | input hpoll h₁ hreturned =>
      exact absurd hstop (by simp [hreturned, (h.input hpoll h₁).1])
  | socket hpoll h₁ hgo₁ h₂ hreturned =>
      obtain ⟨-, added, -, hcounted₁, -⟩ := (h.input hpoll h₁).2 hgo₁
      exact absurd hstop (by simp [hreturned, (hcounted₁.socket h₂).1])
  | check hpoll h₁ hgo₁ h₂ hgo₂ h₃ hreturned =>
      exact absurd hstop (by simp [hreturned, (checkRt_restamped h₃).1])
  | @close t₁ t₂ t₃ t₄ hpoll h₁ hgo₁ h₂ hgo₂ h₃ hgo₃ h₄ =>
      obtain ⟨hnb₁, added, hadded, hcounted₁, hbuf, htype, hseq₁⟩ := (h.input hpoll h₁).2 hgo₁
      obtain ⟨hnb₂, hseq₂, l₂, hcounted₂, hsame₂⟩ := (hcounted₁.socket h₂).2 hgo₂
      have hkept := (checkRt_restamped h₃).2 hgo₃
      obtain ⟨l₃, hcounted₃, hsame₃⟩ := hkept.counted hcounted₂
      obtain ⟨hsame₄, hclosed⟩ := closeBranch_inv h₄
      refine ⟨t₁.state.pktBuffer, added, l₃, t₃.state, hpoll, hadded, ?_, ?_,
        hcounted₁.holds.length_le, hbuf, htype, hsame₂.trans hsame₃, hcounted₃, ?_, hsame₄,
        hclosed⟩
      · simp only [SenderEnv.heard, hpoll, h₁, hgo₁, if_true, Bool.false_eq_true, if_false]
      · rw [hkept.seqnum, hseq₂, hseq₁]
      · rw [hkept.nb, hnb₂, hnb₁]

end SelectiveRepeat
