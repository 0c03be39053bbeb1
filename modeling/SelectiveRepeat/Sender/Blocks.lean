/-
  SelectiveRepeat.Sender.Blocks

  The blocks of a turn of the sender taken apart, whatever arrives and whatever is
  in the window.  Two properties of the state follow: the packets in the ring carry
  timestamps that the clock has shown, and the sending window stays open as long as
  no ACK advertises an empty one.
-/
import SelectiveRepeat.Sender.Turn

namespace SelectiveRepeat

/-! ## The socket -/

/-- What the `switch` does with the packet `q`, truncated or not. -/
inductive SocketCase [Zlib] (env : SenderEnv) (st : SenderState) (q : Pkt) (t : SenderTurn) :
    Prop where
  | truncated (htr : q.tr = 1)
      (ht : t = { state := { st with
        senderLogger := st.senderLogger.addDataTruncatedReceived } })
  | data (htr : q.tr ≠ 1) (htype : q.type = ptypeData)
      (ht : t = { state := { st with
        senderLogger := st.senderLogger.addPacketDuplicated.addDataReceived } })
  | ack (htr : q.tr ≠ 1) (htype : q.type = ptypeAck) (s : AckState)
      (hloop : ackLoop (previousSeqnum q.seqnum) (st.window.size.toNat + 1)
        { window := st.window, pktInWindow := st.pktInWindow, isChanged := false } = .ok s)
      (ht : t = { state := { st with
        window := s.window
        pktInWindow := s.pktInWindow
        sendingWindowSize := UInt8.ofNat q.window.toNat
        senderLogger :=
          if s.isChanged then
            st.senderLogger.addAckReceived.newRtt (env.now .rtt st - q.timestamp).toInt32.toInt
          else st.senderLogger.addAckReceived.addPacketIgnored } })
  | nackMissing (htr : q.tr ≠ 1) (htype : q.type = ptypeNack)
      (hget : st.window.get (previousSeqnum q.seqnum) none = .ok none)
      (ht : t = { state := { st with
        senderLogger := st.senderLogger.addNackReceived.addPacketIgnored } })
  | nackRefused (htr : q.tr ≠ 1) (htype : q.type = ptypeNack) (hstop : t.stop = some .encode)
  | nackFound (htr : q.tr ≠ 1) (htype : q.type = ptypeNack) (got : Queue.Got) (pkt : Pkt) (buf : Mem)
      (size : Nat)
      (hget : st.window.get (previousSeqnum q.seqnum) none = .ok (some got))
      (hcell : st.window.window got.tmpPtk = some pkt)
      (henc : pktEncode (pkt.restamp (env.now .nack st)) st.pktBuffer pktBufferSize =
        .ok (.pktOk, buf, size))
      (ht : t = {
        state := { st with
          pktBuffer := buf
          window := st.window.store got.tmpPtk (pkt.restamp (env.now .nack st))
          sendingWindowSize := if st.sendingWindowSize = 1 then 1 else st.sendingWindowSize / 2
          senderLogger := st.senderLogger.addNackReceived.addPacketRetransmitted }
        sent := [buf.slice 0 size] })
  | other (htr : q.tr ≠ 1) (hdata : q.type ≠ ptypeData) (hack : q.type ≠ ptypeAck)
      (hnack : q.type ≠ ptypeNack) (ht : t = { state := st })

/-- What the socket block does. -/
inductive SocketBlock [Zlib] (env : SenderEnv) (st : SenderState) (t : SenderTurn) : Prop where
  | silent (hsocket : env.socket = none) (ht : t = { state := st })
  | rejected (r : ReadResult) (status : PktStatusCode) (q : Pkt) (hsocket : env.socket = some r)
      (hdec : pktDecode (r.fill 12 st.pktBuffer) 12 (env.fresh .socket) = .ok (status, q))
      (hstatus : status ≠ .pktOk)
      (ht : t = { state := { st.reads r with senderLogger := st.senderLogger.addPacketIgnored } })
  | accepted (r : ReadResult) (q : Pkt) (hsocket : env.socket = some r)
      (hdec : pktDecode (r.fill 12 st.pktBuffer) 12 (env.fresh .socket) = .ok (.pktOk, q))
      (hcase : SocketCase env (st.reads r) q t)

section
variable [Zlib] {env : SenderEnv} {st : SenderState} {t : SenderTurn} {q : Pkt}

omit [Zlib] in
theorem ackCase_cases {s : UInt8} (h : ackCase env st q s = .ok t) :
    ∃ a, ackLoop s (st.window.size.toNat + 1)
        { window := st.window, pktInWindow := st.pktInWindow, isChanged := false } = .ok a ∧
      t = { state := { st with
        window := a.window
        pktInWindow := a.pktInWindow
        sendingWindowSize := UInt8.ofNat q.window.toNat
        senderLogger :=
          if a.isChanged then
            st.senderLogger.addAckReceived.newRtt (env.now .rtt st - q.timestamp).toInt32.toInt
          else st.senderLogger.addAckReceived.addPacketIgnored } } := by
  simp only [ackCase] at h
  obtain ⟨a, ha, h⟩ := exists_ok_of_bind h
  cases h
  exact ⟨a, ha, rfl⟩

theorem socketCase_cases (h : socketCase env st q = .ok t) : SocketCase env st q t := by
  simp only [socketCase] at h
  split at h
  next htr =>
    split at h
    next htype =>
      cases h
      exact .data htr htype rfl
    next hdata =>
      split at h
      next htype =>
        obtain ⟨a, hloop, ht⟩ := ackCase_cases h
        exact .ack htr htype a hloop ht
      next hack =>
        split at h
        next htype =>
          simp only [nackCase] at h
          obtain ⟨found, hget, h⟩ := exists_ok_of_bind h
          cases found with
          | none =>
              cases h
              exact .nackMissing htr htype hget rfl
          | some got =>
              dsimp only at h
              cases hcell : st.window.window got.tmpPtk with
              | none =>
                  rw [hcell] at h
                  cases h
              | some pkt =>
                  simp only [hcell] at h
                  obtain ⟨⟨status, buf, size⟩, henc, h⟩ := exists_ok_of_bind h
                  dsimp only at h
                  by_cases hok : status = .pktOk
                  · rw [if_neg (not_not.mpr hok)] at h
                    cases h
                    subst hok
                    exact .nackFound htr htype got pkt buf size hget hcell henc rfl
                  · rw [if_pos hok] at h
                    cases h
                    exact .nackRefused htr htype rfl
        next hnack =>
          cases h
          exact .other htr hdata hack hnack rfl
  next htr =>
    cases h
    exact .truncated (not_not.mp htr) rfl

theorem socketBranch_cases (h : socketBranch env st = .ok t) : SocketBlock env st t := by
  cases hsocket : env.socket with
  | none =>
      simp only [socketBranch, hsocket] at h
      cases h
      exact .silent hsocket rfl
  | some r =>
      simp only [socketBranch, hsocket] at h
      obtain ⟨⟨status, q⟩, hdec, h⟩ := exists_ok_of_bind h
      dsimp only at h
      split at h
      next hok =>
        subst hok
        exact .accepted r q hsocket hdec (socketCase_cases h)
      next hno =>
        cases h
        exact .rejected r status q hsocket hdec hno rfl

/-! ## Timestamps -/

/-- The clock counts from `start`, and `p` holds of what it shows and of the timestamps in the
    ring. -/
structure Stamped (start : Int) (p : UInt32 → Prop) (env : SenderEnv) (st : SenderState) :
    Prop where
  begins : st.startingTimestamp = start
  clock : ∀ site, p (currentTimestamp (env.milliseconds site) start)
  cells : ∀ i pkt, st.window.window i = some pkt → p pkt.timestamp

variable {start : Int} {p : UInt32 → Prop}

omit [Zlib] in
theorem Stamped.now (h : Stamped start p env st) (site : ClockSite) : p (env.now site st) := by
  rw [SenderEnv.now, h.begins]
  exact h.clock site

omit [Zlib] in
/-- What does not touch the ring. -/
theorem Stamped.congr {st' : SenderState} (h : Stamped start p env st)
    (hwindow : st'.window = st.window) (hstart : st'.startingTimestamp = st.startingTimestamp) :
    Stamped start p env st' := by
  refine ⟨hstart.trans h.begins, h.clock, ?_⟩
  rw [hwindow]
  exact h.cells

omit [Zlib] in
/-- What stores one more packet. -/
theorem Stamped.update {st' : SenderState} (h : Stamped start p env st)
    {i : Fin MAX_WINDOW_SIZE} {pkt : Pkt} (hpkt : p pkt.timestamp)
    (hwindow : st'.window.window = Function.update st.window.window i (some pkt))
    (hstart : st'.startingTimestamp = st.startingTimestamp) : Stamped start p env st' := by
  refine ⟨hstart.trans h.begins, h.clock, fun j pkt' hcell => ?_⟩
  rw [hwindow] at hcell
  by_cases hj : j = i
  · subst hj
    rw [Function.update_self, Option.some.injEq] at hcell
    rw [← hcell]
    exact hpkt
  · rw [Function.update_of_ne hj] at hcell
    exact h.cells j pkt' hcell

omit [Zlib] in
theorem buildPkt_timestamp (pkt : Pkt) (windowSize seqnum : UInt8) (nb : Int) (payload : Bytes)
    (timestamp : UInt32) :
    (buildPkt pkt windowSize seqnum nb payload timestamp).timestamp = timestamp := by
  rw [buildPkt, pktSetPayload_timestamp, pktSetTimestamp]

theorem Stamped.input (h : Stamped start p env st) (hrun : inputBranch env st = .ok t)
    (hgo : t.stop = none) : Stamped start p env t.state := by
  simp only [inputBranch] at hrun
  split at hrun
  · cases hrun
    exact h
  split at hrun
  case isFalse =>
    cases hrun
    exact h
  split at hrun
  case isFalse =>
    cases hrun
    exact h.congr rfl rfl
  obtain ⟨⟨status, buf, size⟩, -, hrun⟩ := exists_ok_of_bind hrun
  dsimp only at hrun
  split at hrun
  · cases hrun
    exact absurd hgo (by simp)
  simp only [Queue.add, Int.lt_irrefl, if_false] at hrun
  split at hrun
  · cases hrun
    exact absurd hgo (by simp)
  · cases hrun
    refine h.update ?_ rfl rfl
    rw [buildPkt_timestamp]
    exact h.now .build

omit [Zlib] in
/-- The ACK loop only takes packets out. -/
theorem ackLoop_cells {s : UInt8} {fuel : Nat} {a b : AckState} (h : ackLoop s fuel a = .ok b)
    {i : Fin MAX_WINDOW_SIZE} {pkt : Pkt} (hcell : b.window.window i = some pkt) :
    a.window.window i = some pkt := by
  induction fuel generalizing a with
  | zero => exact absurd h (by simp [ackLoop])
  | succ fuel ih =>
      simp only [ackLoop] at h
      obtain ⟨more, -, h⟩ := exists_ok_of_bind h
      split at h
      · have hleft := ih h
        simp only [Queue.dequeue] at hleft
        by_cases hi : i = a.window.ptrPop
        · rw [hi, Function.update_self] at hleft
          cases hleft
        · rwa [Function.update_of_ne hi] at hleft
      · cases h
        exact hcell

theorem Stamped.socket (h : Stamped start p env st) (hrun : socketBranch env st = .ok t)
    (hgo : t.stop = none) : Stamped start p env t.state := by
  cases socketBranch_cases hrun with
  | silent _ ht =>
      rw [ht]
      exact h
  | rejected r _ _ _ _ _ ht =>
      rw [ht]
      exact h.congr rfl rfl
  | accepted r q _ _ hcase =>
      cases hcase with
      | truncated _ ht | data _ _ ht | nackMissing _ _ _ ht | other _ _ _ _ ht =>
          rw [ht]
          exact h.congr rfl rfl
      | nackRefused _ _ hstop => exact absurd (hgo.symm.trans hstop) (by simp)
      | ack _ _ s hloop ht =>
          rw [ht]
          exact ⟨h.begins, h.clock, fun i pkt hcell => h.cells i pkt (ackLoop_cells hloop hcell)⟩
      | nackFound _ _ got pkt buf size _ hcell _ ht =>
          rw [ht]
          exact h.update (h.now .nack) rfl rfl

theorem Stamped.checkLoop {clock_time : UInt32} {first : UInt8} {fuel n : Nat} {firstTime : Bool}
    {receive_seqnum : UInt8} {supportInt : Option (Fin MAX_WINDOW_SIZE)}
    (h : Stamped start p env st)
    (hrun : checkRtLoop env clock_time first fuel n firstTime receive_seqnum supportInt st = .ok t)
    (hgo : t.stop = none) : Stamped start p env t.state := by
  induction fuel generalizing n firstTime receive_seqnum supportInt st t with
  | zero => exact absurd hrun (by simp [checkRtLoop])
  | succ fuel ih =>
      simp only [checkRtLoop] at hrun
      obtain ⟨found, -, hrun⟩ := exists_ok_of_bind hrun
      cases found with
      | none =>
          cases hrun
          exact h
      | some got =>
          dsimp only at hrun
          cases hcell : st.window.window got.tmpPtk with
          | none =>
              rw [hcell] at hrun
              cases hrun
          | some tmpPtk =>
              simp only [hcell] at hrun
              split at hrun
              · cases hrun
                exact h
              · split at hrun
                · obtain ⟨⟨status, buf, size⟩, -, hrun⟩ := exists_ok_of_bind hrun
                  dsimp only at hrun
                  split at hrun
                  · cases hrun
                    exact absurd hgo (by simp)
                  · obtain ⟨t', hrest, hrun⟩ := exists_ok_of_bind hrun
                    cases hrun
                    have hstored : Stamped start p env { st with
                        pktBuffer := buf
                        window := st.window.store got.tmpPtk
                          (tmpPtk.restamp (env.now (.resend n) st))
                        senderLogger := st.senderLogger.addPacketRetransmitted } :=
                      h.update (h.now (.resend n)) rfl rfl
                    have hkept := ih hstored hrest hgo
                    exact hkept
                · exact ih h hrun hgo

theorem Stamped.check (h : Stamped start p env st) (hrun : checkRt env st = .ok t)
    (hgo : t.stop = none) : Stamped start p env t.state := by
  simp only [checkRt] at hrun
  split at hrun
  · cases hrun
    exact h
  · exact h.checkLoop hrun hgo

/-- A turn that goes on stamps packets with times the clock shows. -/
theorem Stamped.turn (h : Stamped start p env st) (hrun : readWriteLoopSender env st = .ok t)
    (hgo : t.stop = none) : Stamped start p env t.state := by
  cases readWriteLoopSender_blocks hrun with
  | poll => exact absurd hgo (by simp)
  | input _ _ hstop => exact absurd hgo hstop
  | socket _ _ _ _ hstop => exact absurd hgo hstop
  | check _ _ _ _ _ _ hstop => exact absurd hgo hstop
  | close _ h₁ hgo₁ h₂ hgo₂ h₃ hgo₃ h₄ =>
      dsimp only
      rw [((closeBranch_inv h₄).1 hgo).1]
      exact ((h.input h₁ hgo₁).socket h₂ hgo₂).check h₃ hgo₃

/-! ## The sending window -/

omit [Zlib] in
theorem uint8_pos_iff {n : UInt8} : 0 < n ↔ 0 < n.toNat := by
  rw [UInt8.lt_iff_toNat_lt, UInt8.toNat_zero]

omit [Zlib] in
/-- Halving stops at one. -/
theorem halved_pos {size : UInt8} (h : 0 < size) : 0 < if size = 1 then 1 else size / 2 := by
  rw [uint8_pos_iff] at h
  split
  next => decide
  next hone =>
    rw [← UInt8.toNat_inj, UInt8.toNat_one] at hone
    have htwo : (2 : UInt8).toNat = 2 := rfl
    rw [uint8_pos_iff, UInt8.toNat_div, htwo]
    omega

theorem inputBranch_windowSize (hpoll : env.pollFails = false) (hrun : inputBranch env st = .ok t)
    (hgo : t.stop = none) : t.state.sendingWindowSize = st.sendingWindowSize := by
  cases inputBranch_inv hpoll hrun with
  | idle _ _ hstate => rw [hstate]
  | added _ _ _ _ _ _ _ _ _ hstate => rw [hstate]
  | returned hstop => exact absurd hgo hstop

/-- The window stays open in the socket block unless an ACK closes it. -/
theorem socketBranch_open (hopen : 0 < st.sendingWindowSize)
    (hack : ∀ q, env.reply st.pktBuffer = some q → q.type = ptypeAck → q.window ≠ 0)
    (hrun : socketBranch env st = .ok t) (hgo : t.stop = none) :
    0 < t.state.sendingWindowSize := by
  cases socketBranch_cases hrun with
  | silent _ ht | rejected _ _ _ _ _ _ ht =>
      rw [ht]
      exact hopen
  | accepted r q hsocket hdec hcase =>
      cases hcase with
      | truncated _ ht | data _ _ ht | nackMissing _ _ _ ht | other _ _ _ _ ht =>
          rw [ht]
          exact hopen
      | nackRefused _ _ hstop => exact absurd (hgo.symm.trans hstop) (by simp)
      | ack htr htype s _ ht =>
          have hreply : env.reply st.pktBuffer = some q := by
            simp only [SenderEnv.reply, hsocket, hdec]
            exact if_pos ⟨trivial, htr⟩
          have hwindow := q.window.isLt
          have hne : q.window.toNat ≠ 0 := fun hzero =>
            hack q hreply htype (BitVec.eq_of_toNat_eq hzero)
          rw [ht, uint8_pos_iff]
          dsimp only
          rw [UInt8.toNat_ofNat']
          omega
      | nackFound _ _ got pkt buf size _ _ _ ht =>
          rw [ht]
          exact halved_pos hopen

/-- So does it in a turn. -/
theorem readWriteLoopSender_open (hopen : 0 < st.sendingWindowSize)
    (hack : ∀ q, env.heard st = some q → q.type = ptypeAck → q.window ≠ 0)
    (hrun : readWriteLoopSender env st = .ok t) (hgo : t.stop = none) :
    0 < t.state.sendingWindowSize := by
  cases readWriteLoopSender_blocks hrun with
  | poll => exact absurd hgo (by simp)
  | input _ _ hstop => exact absurd hgo hstop
  | socket _ _ _ _ hstop => exact absurd hgo hstop
  | check _ _ _ _ _ _ hstop => exact absurd hgo hstop
  | @close t₁ t₂ t₃ t₄ hpoll h₁ hgo₁ h₂ hgo₂ h₃ hgo₃ h₄ =>
      have hheard : env.heard st = env.reply t₁.state.pktBuffer := by
        simp only [SenderEnv.heard, hpoll, h₁, hgo₁, if_true, Bool.false_eq_true, if_false]
      rw [hheard] at hack
      dsimp only
      rw [((closeBranch_inv h₄).1 hgo).1, ((checkRt_restamped h₃).2 hgo₃).sendingWindowSize]
      apply socketBranch_open ?_ hack h₂ hgo₂
      rw [inputBranch_windowSize hpoll h₁ hgo₁]
      exact hopen

end

end SelectiveRepeat
