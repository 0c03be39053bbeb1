/-
  SelectiveRepeat.Sender.Counters

  The statistics of the sender against what happened in the run.  Every turn adds to
  the counters what it sent and what it made of the datagram it read, if any.  A
  datagram is judged in the state the socket block finds, after the input block.
-/
import SelectiveRepeat.Sender.Blocks
import SelectiveRepeat.Sender.History
import SelectiveRepeat.Sender.Run
import Mathlib.Data.Nat.Find

namespace SelectiveRepeat

/-! ## What a datagram is counted as -/

/-- What the socket block makes of a datagram.  An ACK is useful when it acknowledges the
    oldest packet, and then carries a time; a NACK is unnamed when it names no packet of the
    window; `other` is an accepted packet of type 0. -/
inductive Verdict where
  | rejected | truncated | data | useful (rtt : Int) | useless | resent | unnamed | other
  deriving Repr, DecidableEq

/-- The oldest packet is not newer than `s`. -/
def Queue.acknowledges (list : Queue) (s : UInt8) : Bool :=
  list.peek.any fun pkt => seqnumHigherOrEqual s.toNat pkt.seqnum

/-- Some packet has the number `s`. -/
def Queue.names (list : Queue) (s : UInt8) : Bool :=
  decide (∃ i, (list.window i).any fun pkt => pkt.seqnum = s)

/-- The verdict on an accepted packet. -/
def SenderEnv.judges (env : SenderEnv) (st : SenderState) (socketPkt : Pkt) : Verdict :=
  if socketPkt.tr = 1 then .truncated
  else if socketPkt.type = ptypeData then .data
  else if socketPkt.type = ptypeAck then
    if st.window.acknowledges (previousSeqnum socketPkt.seqnum) then
      .useful (env.now .rtt st - socketPkt.timestamp).toInt32.toInt
    else .useless
  else if socketPkt.type = ptypeNack then
    if st.window.names (previousSeqnum socketPkt.seqnum) then .resent else .unnamed
  else .other

/-- The verdict on the datagram the socket block finds in the state `st`. -/
def SenderEnv.verdict [Zlib] (env : SenderEnv) (st : SenderState) : Option Verdict :=
  match env.socket with
  | none => none
  | some r =>
      match pktDecode (r.fill 12 st.pktBuffer) 12 (env.fresh .socket) with
      | .ok (socketResp, socketPkt) =>
          if socketResp = .pktOk then some (env.judges st socketPkt) else some .rejected
      | .error _ => none

/-- The verdict of a turn. -/
def SenderStep.verdict [Zlib] (step : SenderStep) : Option Verdict :=
  if step.env.pollFails then none
  else
    match inputBranch step.env step.before with
    | .ok t => if t.stop = none then step.env.verdict t.state else none
    | .error _ => none

/-- How many datagrams of the run got a verdict that meets `p`. -/
def verdictCount [Zlib] (p : Verdict → Bool) (steps : List SenderStep) : Nat :=
  steps.countP fun step => step.verdict.any p

namespace Verdict

/-- The time since the one an ACK carries. -/
def rtt : Verdict → Option Int
  | useful rtt => some rtt
  | _ => none

def isAck (v : Verdict) : Bool := v.rtt.isSome ∨ v = useless

def isNack (v : Verdict) : Bool := v = resent ∨ v = unnamed

def isIgnored (v : Verdict) : Bool := v = rejected ∨ v = useless ∨ v = unnamed

end Verdict

/-- The times that were measured. -/
def rttsOf [Zlib] (steps : List SenderStep) : List Int :=
  steps.filterMap fun step => step.verdict.bind Verdict.rtt

/-- The counters are those of what happened. -/
structure SenderConserved [Zlib] (steps : List SenderStep) (l : Logger) : Prop where
  data_sent : l.data_sent =
    (newsOf steps).length + steps.countP fun step => step.turn.stop = some .closed
  sent : l.data_sent + l.packet_retransmitted = (sentOf steps).length
  data_received : l.data_received = verdictCount (· = .data) steps
  data_truncated_received : l.data_truncated_received = verdictCount (· = .truncated) steps
  ack_received : l.ack_received = verdictCount Verdict.isAck steps
  nack_received : l.nack_received = verdictCount Verdict.isNack steps
  packet_ignored : l.packet_ignored = verdictCount Verdict.isIgnored steps
  ack_sent : l.ack_sent = 0
  nack_sent : l.nack_sent = 0
  min_rtt : l.min_rtt = (rttsOf steps).foldl min 2147483647
  max_rtt : l.max_rtt = (rttsOf steps).foldl max 0

/-! ## Adding to the counters -/

/-- What is added to the counters, and the times that were measured. -/
structure Tally where
  data_sent : Nat := 0
  packet_retransmitted : Nat := 0
  data_received : Nat := 0
  data_truncated_received : Nat := 0
  ack_received : Nat := 0
  nack_received : Nat := 0
  packet_ignored : Nat := 0
  rtts : List Int := []

/-- What a datagram adds. -/
def Verdict.tally : Verdict → Tally
  | rejected => { packet_ignored := 1 }
  | truncated => { data_truncated_received := 1 }
  | data => { data_received := 1 }
  | useful rtt => { ack_received := 1, rtts := [rtt] }
  | useless => { ack_received := 1, packet_ignored := 1 }
  | resent => { nack_received := 1, packet_retransmitted := 1 }
  | unnamed => { nack_received := 1, packet_ignored := 1 }
  | other => {}

/-- What the socket block adds. -/
def socketTally (v : Option Verdict) : Tally := (v.map Verdict.tally).getD {}

/-- One counter at a time. -/
theorem socketTally_fields (v : Option Verdict) :
    (socketTally v).data_sent = 0 ∧
      ((socketTally v).data_received = if v.any (· = .data) then 1 else 0) ∧
      ((socketTally v).data_truncated_received = if v.any (· = .truncated) then 1 else 0) ∧
      ((socketTally v).ack_received = if v.any Verdict.isAck then 1 else 0) ∧
      ((socketTally v).nack_received = if v.any Verdict.isNack then 1 else 0) ∧
      ((socketTally v).packet_ignored = if v.any Verdict.isIgnored then 1 else 0) ∧
      (socketTally v).rtts = (v.bind Verdict.rtt).toList := by
  cases v with
  | none => exact ⟨rfl, rfl, rfl, rfl, rfl, rfl, rfl⟩
  | some v => cases v <;> exact ⟨rfl, rfl, rfl, rfl, rfl, rfl, rfl⟩

/-- One after the other. -/
def Tally.plus (k k' : Tally) : Tally where
  data_sent := k.data_sent + k'.data_sent
  packet_retransmitted := k.packet_retransmitted + k'.packet_retransmitted
  data_received := k.data_received + k'.data_received
  data_truncated_received := k.data_truncated_received + k'.data_truncated_received
  ack_received := k.ack_received + k'.ack_received
  nack_received := k.nack_received + k'.nack_received
  packet_ignored := k.packet_ignored + k'.packet_ignored
  rtts := k.rtts ++ k'.rtts

namespace Logger

def adds (l : Logger) (k : Tally) : Logger :=
  if l.activated then
    { l with
      data_sent := l.data_sent + k.data_sent
      packet_retransmitted := l.packet_retransmitted + k.packet_retransmitted
      data_received := l.data_received + k.data_received
      data_truncated_received := l.data_truncated_received + k.data_truncated_received
      ack_received := l.ack_received + k.ack_received
      nack_received := l.nack_received + k.nack_received
      packet_ignored := l.packet_ignored + k.packet_ignored
      min_rtt := k.rtts.foldl min l.min_rtt
      max_rtt := k.rtts.foldl max l.max_rtt }
  else l

@[simp] theorem adds_activated (l : Logger) (k : Tally) : (l.adds k).activated = l.activated := by
  rw [adds]
  split <;> rfl

@[simp] theorem adds_is_sender (l : Logger) (k : Tally) : (l.adds k).is_sender = l.is_sender := by
  rw [adds]
  split <;> rfl

theorem adds_nothing (l : Logger) : l.adds {} = l := by
  simp [adds]

theorem adds_adds (l : Logger) (k k' : Tally) : (l.adds k).adds k' = l.adds (k.plus k') := by
  by_cases h : l.activated = true
  · simp [adds, h, Tally.plus, Int.add_assoc]
  · simp [adds, h]

/-- The logger of a sender: without a file, its other fields are not set. -/
def OfSender (l : Logger) : Prop := l.activated = true → l.is_sender = true

theorem newLogger_ofSender (fd : Bool) (mem : Logger) : (newLogger true fd mem).OfSender := by
  intro hact
  cases fd with
  | true => rfl
  | false => cases hact

theorem OfSender.adds {l : Logger} (h : l.OfSender) (k : Tally) : (l.adds k).OfSender := by
  rw [OfSender, adds_activated, adds_is_sender]
  exact h

section
variable (l : Logger)

theorem addDataSent_eq : l.addDataSent = l.adds { data_sent := 1 } := by
  simp [addDataSent, adds]

theorem addPacketIgnored_eq : l.addPacketIgnored = l.adds { packet_ignored := 1 } := by
  simp [addPacketIgnored, adds]

theorem addDataTruncatedReceived_eq :
    l.addDataTruncatedReceived = l.adds { data_truncated_received := 1 } := by
  simp [addDataTruncatedReceived, adds]

theorem addDataReceived_eq : l.addDataReceived = l.adds { data_received := 1 } := by
  simp [addDataReceived, adds]

theorem addAckReceived_eq : l.addAckReceived = l.adds { ack_received := 1 } := by
  simp [addAckReceived, adds]

theorem addNackReceived_eq : l.addNackReceived = l.adds { nack_received := 1 } := by
  simp [addNackReceived, adds]

end

section
variable {l : Logger} (h : l.OfSender)
include h

theorem OfSender.addPacketRetransmitted_eq :
    l.addPacketRetransmitted = l.adds { packet_retransmitted := 1 } := by
  by_cases hact : l.activated = true
  · simp [addPacketRetransmitted, Logger.adds, hact, h hact]
  · simp [addPacketRetransmitted, Logger.adds, hact]

/-- At the sender no packet counts as a duplicate. -/
theorem OfSender.addPacketDuplicated_eq : l.addPacketDuplicated = l := by
  rw [addPacketDuplicated, if_neg]
  rintro ⟨hact, hrecv⟩
  exact hrecv (h hact)

theorem OfSender.newRtt_eq (rtt : Int) : l.newRtt rtt = l.adds { rtts := [rtt] } := by
  by_cases hact : l.activated = true
  case neg => simp [newRtt, Logger.adds, hact]
  rw [newRtt, if_pos ⟨hact, h hact⟩, Logger.adds, if_pos hact]
  by_cases hmin : rtt < l.min_rtt <;> by_cases hmax : l.max_rtt < rtt
  · simp [hmin, hmax, Int.min_eq_right (Int.le_of_lt hmin), Int.max_eq_right (Int.le_of_lt hmax)]
  · simp [hmin, hmax, Int.min_eq_right (Int.le_of_lt hmin), Int.max_eq_left (Int.not_lt.mp hmax)]
  · simp [hmin, hmax, Int.min_eq_left (Int.not_lt.mp hmin), Int.max_eq_right (Int.le_of_lt hmax)]
  · simp [hmin, hmax, Int.min_eq_left (Int.not_lt.mp hmin), Int.max_eq_left (Int.not_lt.mp hmax)]

end

end Logger

/-! ## The blocks -/

section
variable {list : Queue} {l : List Pkt}

theorem Queue.Holds.acknowledges (h : list.Holds l) (s : UInt8) :
    list.isHigherOrEqual s.toNat = .ok (list.acknowledges s) := by
  rw [h.isHigherOrEqual, Queue.acknowledges, h.peek]
  cases l with
  | nil => rfl
  | cons pkt l => rfl

/-- A search from the head that finds nothing leaves no packet with the number out. -/
theorem Queue.Holds.names_iff (h : list.Holds l) (s : UInt8) :
    list.names s = true ↔ ∃ got, list.get s none = .ok (some got) := by
  rw [Queue.names, decide_eq_true_iff]
  refine ⟨?_, ?_⟩
  · rintro ⟨i, hi⟩
    obtain ⟨pkt, hcell, hs⟩ := (Option.any_eq_true _ _).mp hi
    obtain ⟨j, hj, -, rfl⟩ := h.place hcell
    -- the search stops at the first packet with the number
    have hex : ∃ o, ∃ ho : o < l.length, l[o].seqnum = s := ⟨j, hj, of_decide_eq_true hs⟩
    classical
    obtain ⟨ho, hseq⟩ := Nat.find_spec hex
    rw [Queue.get_head]
    refine ⟨_, h.get_stops (Nat.zero_le _) ho hseq ?_⟩
    exact fun k hk _ hlt heq => Nat.find_min hex hlt ⟨hk, heq⟩
  · rintro ⟨got, hget⟩
    obtain ⟨pkt, hcell, hs, -⟩ := Queue.get_some hget
    refine ⟨got.tmpPtk, ?_⟩
    rw [hcell]
    exact decide_eq_true hs

end

section
variable [Zlib] {env : SenderEnv} {st : SenderState} {t : SenderTurn} {l : List Pkt}

omit [Zlib] in
/-- The loop has taken something out exactly when the ACK acknowledges the oldest packet. -/
theorem ackLoop_changed {s : UInt8} {fuel : Nat} {a b : AckState} (h : ackLoop s fuel a = .ok b)
    (hchanged : a.isChanged = true) : b.isChanged = true := by
  induction fuel generalizing a with
  | zero => exact absurd h (by simp [ackLoop])
  | succ fuel ih =>
      simp only [ackLoop] at h
      obtain ⟨more, -, h⟩ := exists_ok_of_bind h
      split at h
      · exact ih h rfl
      · cases h
        exact hchanged

omit [Zlib] in
theorem ackLoop_isChanged {s : UInt8} {fuel : Nat} {window : Queue} {n : UInt8} {a : AckState}
    (hl : window.Holds l)
    (h : ackLoop s (fuel + 1) { window := window, pktInWindow := n, isChanged := false } = .ok a) :
    a.isChanged = window.acknowledges s := by
  simp only [ackLoop, hl.acknowledges s, ok_bind] at h
  split at h
  next hyes =>
    rw [hyes]
    exact ackLoop_changed h rfl
  next hno =>
    cases h
    exact (Bool.eq_false_of_not_eq_true hno).symm

/-- The switch on an accepted packet. -/
theorem SocketCase.counts {q : Pkt} (h : SocketCase env st q t) (hl : st.window.Holds l)
    (hc : st.senderLogger.OfSender) (hgo : t.stop = none) :
    t.state.senderLogger = st.senderLogger.adds (env.judges st q).tally ∧
      t.sent.length = (env.judges st q).tally.packet_retransmitted := by
  cases h with
  | truncated htr ht =>
      rw [ht, SenderEnv.judges, if_pos htr]
      exact ⟨Logger.addDataTruncatedReceived_eq _, rfl⟩
  | data htr htype ht =>
      rw [ht, SenderEnv.judges, if_neg htr, if_pos htype]
      dsimp only
      rw [hc.addPacketDuplicated_eq]
      exact ⟨Logger.addDataReceived_eq _, rfl⟩
  | ack htr htype s hloop ht =>
      have hdata : ¬ q.type = ptypeData := by
        rw [htype]
        decide
      rw [ht, SenderEnv.judges, if_neg htr, if_neg hdata, if_pos htype]
      dsimp only
      rw [ackLoop_isChanged hl hloop, Logger.addAckReceived_eq]
      have hc' := hc.adds { ack_received := 1 }
      split
      · rw [hc'.newRtt_eq, Logger.adds_adds]
        exact ⟨rfl, rfl⟩
      · rw [Logger.addPacketIgnored_eq, Logger.adds_adds]
        exact ⟨rfl, rfl⟩
  | nackMissing htr htype hget ht =>
      have hdata : ¬ q.type = ptypeData := by
        rw [htype]
        decide
      have hack : ¬ q.type = ptypeAck := by
        rw [htype]
        decide
      have hnames : ¬ st.window.names (previousSeqnum q.seqnum) = true := by
        rw [hl.names_iff, hget]
        simp
      rw [ht, SenderEnv.judges, if_neg htr, if_neg hdata, if_neg hack, if_pos htype, if_neg hnames]
      dsimp only
      rw [Logger.addNackReceived_eq, Logger.addPacketIgnored_eq, Logger.adds_adds]
      exact ⟨rfl, rfl⟩
  | nackRefused _ _ hstop => exact absurd (hgo.symm.trans hstop) (by simp)
  | nackFound htr htype got pkt buf size hget hcell _ ht =>
      have hdata : ¬ q.type = ptypeData := by
        rw [htype]
        decide
      have hack : ¬ q.type = ptypeAck := by
        rw [htype]
        decide
      have hnames : st.window.names (previousSeqnum q.seqnum) = true :=
        (hl.names_iff _).mpr ⟨got, hget⟩
      rw [ht, SenderEnv.judges, if_neg htr, if_neg hdata, if_neg hack, if_pos htype, if_pos hnames]
      dsimp only
      rw [Logger.addNackReceived_eq, (hc.adds _).addPacketRetransmitted_eq, Logger.adds_adds]
      exact ⟨rfl, rfl⟩
  | other htr hdata hack hnack ht =>
      rw [ht, SenderEnv.judges, if_neg htr, if_neg hdata, if_neg hack, if_neg hnack]
      exact ⟨(Logger.adds_nothing _).symm, rfl⟩

theorem socketBranch_counts (hl : st.window.Holds l) (hc : st.senderLogger.OfSender)
    (hrun : socketBranch env st = .ok t) (hgo : t.stop = none) :
    t.state.senderLogger = st.senderLogger.adds (socketTally (env.verdict st)) ∧
      t.sent.length = (socketTally (env.verdict st)).packet_retransmitted := by
  cases socketBranch_cases hrun with
  | silent hsocket ht =>
      have hverdict : env.verdict st = none := by
        simp only [SenderEnv.verdict, hsocket]
      rw [ht, hverdict]
      exact ⟨(Logger.adds_nothing _).symm, rfl⟩
  | rejected r status q hsocket hdec hstatus ht =>
      have hverdict : env.verdict st = some .rejected := by
        simp only [SenderEnv.verdict, hsocket, hdec, if_neg hstatus]
      rw [ht, hverdict]
      exact ⟨Logger.addPacketIgnored_eq _, rfl⟩
  | accepted r q hsocket hdec hcase =>
      have hverdict : env.verdict st = some (env.judges (st.reads r) q) := by
        simp only [SenderEnv.verdict, hsocket, hdec, if_true]
        rfl
      rw [hverdict]
      exact hcase.counts hl hc hgo

theorem inputBranch_counts (hrun : inputBranch env st = .ok t) (hgo : t.stop = none) :
    t.state.senderLogger = st.senderLogger.adds { data_sent := t.sent.length } := by
  have hnone : st.senderLogger = st.senderLogger.adds { data_sent := 0 } :=
    (Logger.adds_nothing _).symm
  simp only [inputBranch] at hrun
  split at hrun
  · cases hrun
    exact hnone
  split at hrun
  case isFalse =>
    cases hrun
    exact hnone
  split at hrun
  case isFalse =>
    cases hrun
    exact hnone
  obtain ⟨⟨status, buf, size⟩, -, hrun⟩ := exists_ok_of_bind hrun
  dsimp only at hrun
  split at hrun
  · cases hrun
    exact absurd hgo (by simp)
  simp only [Queue.add, Int.lt_irrefl, if_false] at hrun
  split at hrun
  · cases hrun
    exact absurd hgo (by simp)
  · cases hrun
    exact Logger.addDataSent_eq _

theorem checkRtLoop_counts {clock_time : UInt32} {first : UInt8} {fuel n : Nat} {firstTime : Bool}
    {receive_seqnum : UInt8} {supportInt : Option (Fin MAX_WINDOW_SIZE)}
    (hc : st.senderLogger.OfSender)
    (hrun : checkRtLoop env clock_time first fuel n firstTime receive_seqnum supportInt st = .ok t)
    (hgo : t.stop = none) :
    t.state.senderLogger = st.senderLogger.adds { packet_retransmitted := t.sent.length } := by
  induction fuel generalizing n firstTime receive_seqnum supportInt st t with
  | zero => exact absurd hrun (by simp [checkRtLoop])
  | succ fuel ih =>
      have hnone : st.senderLogger = st.senderLogger.adds { packet_retransmitted := 0 } :=
        (Logger.adds_nothing _).symm
      simp only [checkRtLoop] at hrun
      obtain ⟨found, -, hrun⟩ := exists_ok_of_bind hrun
      cases found with
      | none =>
          cases hrun
          exact hnone
      | some got =>
          dsimp only at hrun
          cases hcell : st.window.window got.tmpPtk with
          | none =>
              rw [hcell] at hrun
              cases hrun
          | some tmpPtk =>
              simp only [hcell] at hrun
              split at hrun
              · cases hrun
                exact hnone
              · split at hrun
                · -- one packet here, and those of the rest of the pass
                  obtain ⟨⟨status, buf, size⟩, -, hrun⟩ := exists_ok_of_bind hrun
                  dsimp only at hrun
                  split at hrun
                  · cases hrun
                    exact absurd hgo (by simp)
                  · obtain ⟨t', hrest, hrun⟩ := exists_ok_of_bind hrun
                    cases hrun
                    have hone := hc.addPacketRetransmitted_eq
                    have hc' := hc.adds { packet_retransmitted := 1 }
                    rw [← hone] at hc'
                    have hkept := ih hc' hrest hgo
                    dsimp only at hkept ⊢
                    rw [hkept, hone, Logger.adds_adds, List.length_cons, Nat.add_comm]
                    rfl
                · exact ih hc hrun hgo

theorem checkRt_counts (hc : st.senderLogger.OfSender) (hrun : checkRt env st = .ok t)
    (hgo : t.stop = none) :
    t.state.senderLogger = st.senderLogger.adds { packet_retransmitted := t.sent.length } := by
  simp only [checkRt] at hrun
  split at hrun
  · cases hrun
    exact (Logger.adds_nothing _).symm
  · exact checkRtLoop_counts hc hrun hgo

theorem closeBranch_counts (hrun : closeBranch env st = .ok t)
    (hstop : t.stop = none ∨ t.stop = some .closed) :
    t.state.senderLogger = st.senderLogger.adds { data_sent := t.sent.length } ∧
      t.sent.length = if t.stop = some .closed then 1 else 0 := by
  simp only [closeBranch] at hrun
  split at hrun
  · obtain ⟨⟨status, buf, size⟩, -, hrun⟩ := exists_ok_of_bind hrun
    dsimp only at hrun
    split at hrun
    · cases hrun
      exact absurd hstop (by simp)
    · cases hrun
      exact ⟨Logger.addDataSent_eq _, rfl⟩
  · cases hrun
    exact ⟨(Logger.adds_nothing _).symm, rfl⟩

end

/-! ## The turn -/

/-- What a turn adds: what it sent, and what it made of the datagram. -/
structure TurnAdds [Zlib] (step : SenderStep) (k : Tally) : Prop where
  data_sent : k.data_sent = (step.env.newSent step.before).length +
    if step.turn.stop = some .closed then 1 else 0
  sent : k.data_sent + k.packet_retransmitted = step.turn.sent.length
  data_received : k.data_received = if step.verdict.any (· = .data) then 1 else 0
  data_truncated_received :
    k.data_truncated_received = if step.verdict.any (· = .truncated) then 1 else 0
  ack_received : k.ack_received = if step.verdict.any Verdict.isAck then 1 else 0
  nack_received : k.nack_received = if step.verdict.any Verdict.isNack then 1 else 0
  packet_ignored : k.packet_ignored = if step.verdict.any Verdict.isIgnored then 1 else 0
  rtts : k.rtts = (step.verdict.bind Verdict.rtt).toList

section
variable [Zlib] {env : SenderEnv} {st : SenderState} {t : SenderTurn} {l : List Pkt}

/-- A turn after which the loop goes on, or has closed the connection. -/
theorem Counted.counts (h : Counted st l) (hc : st.senderLogger.OfSender)
    (hrun : readWriteLoopSender env st = .ok t) (hstop : t.stop = none ∨ t.stop = some .closed) :
    ∃ k, TurnAdds { env := env, before := st, turn := t } k ∧
      t.state.senderLogger = st.senderLogger.adds k := by
  cases readWriteLoopSender_blocks hrun with
  | poll => exact absurd hstop (by simp)
  | input hpoll h₁ hreturned =>
      exact absurd hstop (by simp [hreturned, (h.input hpoll h₁).1])
  | socket hpoll h₁ hgo₁ h₂ hreturned =>
      obtain ⟨-, added, -, hcounted₁, -⟩ := (h.input hpoll h₁).2 hgo₁
      exact absurd hstop (by simp [hreturned, (hcounted₁.socket h₂).1])
  | check hpoll h₁ hgo₁ h₂ hgo₂ h₃ hreturned =>
      exact absurd hstop (by simp [hreturned, (checkRt_restamped h₃).1])
  | @close t₁ t₂ t₃ t₄ hpoll h₁ hgo₁ h₂ hgo₂ h₃ hgo₃ h₄ =>
      obtain ⟨-, added, -, hcounted₁, -⟩ := (h.input hpoll h₁).2 hgo₁
      have hlog₁ := inputBranch_counts h₁ hgo₁
      have hc₁ : t₁.state.senderLogger.OfSender := hlog₁ ▸ hc.adds _
      obtain ⟨hlog₂, hsent₂⟩ := socketBranch_counts hcounted₁.holds hc₁ h₂ hgo₂
      have hc₂ : t₂.state.senderLogger.OfSender := hlog₂ ▸ hc₁.adds _
      have hlog₃ := checkRt_counts hc₂ h₃ hgo₃
      obtain ⟨hlog₄, hsent₄⟩ := closeBranch_counts h₄ hstop
      -- the turn's verdict and news are those of its blocks
      have hverdict (turn : SenderTurn) :
          SenderStep.verdict { env := env, before := st, turn := turn } =
            env.verdict t₁.state := by
        simp only [SenderStep.verdict, hpoll, h₁, hgo₁, if_true, Bool.false_eq_true, if_false]
      have hnews : env.newSent st = t₁.sent := by
        simp only [SenderEnv.newSent, hpoll, h₁, Bool.false_eq_true, if_false]
      obtain ⟨hzero, hdata, htruncated, hack, hnack, hignored, hrtts⟩ :=
        socketTally_fields (env.verdict t₁.state)
      refine ⟨Tally.plus { data_sent := t₁.sent.length } ((socketTally (env.verdict t₁.state)).plus
        (Tally.plus { packet_retransmitted := t₃.sent.length } { data_sent := t₄.sent.length })),
        ⟨?_, ?_, ?_, ?_, ?_, ?_, ?_, ?_⟩, ?_⟩
      · simp only [Tally.plus, hzero, Nat.zero_add, hnews, hsent₄]
      · simp only [Tally.plus, hzero, Nat.add_zero, Nat.zero_add, List.length_append, ← hsent₂]
        omega
      · simp only [Tally.plus, hverdict, hdata, Nat.add_zero, Nat.zero_add]
      · simp only [Tally.plus, hverdict, htruncated, Nat.add_zero, Nat.zero_add]
      · simp only [Tally.plus, hverdict, hack, Nat.add_zero, Nat.zero_add]
      · simp only [Tally.plus, hverdict, hnack, Nat.add_zero, Nat.zero_add]
      · simp only [Tally.plus, hverdict, hignored, Nat.add_zero, Nat.zero_add]
      · simp only [Tally.plus, hverdict, hrtts, List.append_nil, List.nil_append]
      · dsimp only
        rw [hlog₄, hlog₃, hlog₂, hlog₁, Logger.adds_adds, Logger.adds_adds, Logger.adds_adds]

/-! ## Every run -/

theorem verdictCount_append (p : Verdict → Bool) (steps : List SenderStep) (step : SenderStep) :
    verdictCount p (steps ++ [step]) =
      verdictCount p steps + if step.verdict.any p then 1 else 0 := by
  rw [verdictCount, List.countP_append, List.countP_singleton, ← verdictCount]

theorem rttsOf_append (steps : List SenderStep) (step : SenderStep) :
    rttsOf (steps ++ [step]) = rttsOf steps ++ (step.verdict.bind Verdict.rtt).toList := by
  rw [rttsOf, List.filterMap_append, List.filterMap_cons, List.filterMap_nil, ← rttsOf]
  cases step.verdict.bind Verdict.rtt <;> rfl

theorem newsOf_append (steps : List SenderStep) (step : SenderStep) :
    newsOf (steps ++ [step]) = newsOf steps ++ step.env.newSent step.before := by
  rw [newsOf, List.flatMap_append, List.flatMap_singleton, ← newsOf]

omit [Zlib] in
theorem sentOf_append (steps : List SenderStep) (step : SenderStep) :
    sentOf (steps ++ [step]) = sentOf steps ++ step.turn.sent := by
  rw [sentOf, List.flatMap_append, List.flatMap_singleton, ← sentOf]

/-- What one turn preserves. -/
theorem SenderConserved.turn {steps : List SenderStep} {step : SenderStep} {l : Logger} {k : Tally}
    (h : SenderConserved steps l) (hact : l.activated = true) (hk : TurnAdds step k) :
    SenderConserved (steps ++ [step]) (l.adds k) := by
  rw [Logger.adds, if_pos hact]
  refine ⟨?_, ?_, ?_, ?_, ?_, ?_, ?_, h.ack_sent, h.nack_sent, ?_, ?_⟩
  · dsimp only
    rw [h.data_sent, hk.data_sent, newsOf_append, List.length_append, List.countP_append,
      List.countP_singleton]
    simp only [decide_eq_true_eq]
    omega
  · have hbefore := h.sent
    have hsent := hk.sent
    dsimp only
    rw [sentOf_append, List.length_append]
    omega
  · dsimp only
    rw [h.data_received, hk.data_received, verdictCount_append]
    omega
  · dsimp only
    rw [h.data_truncated_received, hk.data_truncated_received, verdictCount_append]
    omega
  · dsimp only
    rw [h.ack_received, hk.ack_received, verdictCount_append]
    omega
  · dsimp only
    rw [h.nack_received, hk.nack_received, verdictCount_append]
    omega
  · dsimp only
    rw [h.packet_ignored, hk.packet_ignored, verdictCount_append]
    omega
  · dsimp only
    rw [h.min_rtt, hk.rtts, rttsOf_append, List.foldl_append]
  · dsimp only
    rw [h.max_rtt, hk.rtts, rttsOf_append, List.foldl_append]

theorem senderInit_conserved (buf : Mem) (mem : Logger) (statsFile : Bool) (start : Int)
    (hact : (senderInit buf mem statsFile start).senderLogger.activated = true) :
    SenderConserved [] (senderInit buf mem statsFile start).senderLogger := by
  cases statsFile with
  | true => constructor <;> rfl
  | false => cases hact

/-- What every run preserves. -/
theorem SenderHistory.logger {allowed : List SenderStep → SenderEnv → SenderState → Prop}
    {stop : Option SenderStop} {steps : List SenderStep}
    (h : SenderHistory allowed st stop steps) (hstop : stop = none ∨ stop = some .closed) :
    st.senderLogger.OfSender ∧
      (st.senderLogger.activated = true → SenderConserved steps st.senderLogger) := by
  induction h with
  | init buf mem statsFile start =>
      exact ⟨Logger.newLogger_ofSender statsFile mem, senderInit_conserved buf mem statsFile start⟩
  | turn hbefore _ hturn ih =>
      obtain ⟨hsender, hconserved⟩ := ih (Or.inl rfl)
      obtain ⟨l, hl⟩ := hbefore.counted rfl
      obtain ⟨k, hk, hlog⟩ := hl.counts hsender hturn hstop
      rw [hlog, Logger.adds_activated]
      exact ⟨hsender.adds k, fun hact => (hconserved hact).turn hact hk⟩

/-- The statistics of the sender are conserved.  In every run with a statistics file, whatever
    the input, the socket and the clock bring, at every loop boundary and when the connection
    is closed and the file written: `data_sent` are the new packets and the one of the end,
    and with `packet_retransmitted` all that was sent; every datagram that was read is
    counted as what it was found to be, an accepted one of type 0 excepted; and the times
    are the least and the greatest of those that the useful ACKs carried and of what they
    start from, `INT_MAX` and 0. -/
theorem senderHistory_conserved {allowed : List SenderStep → SenderEnv → SenderState → Prop}
    {stop : Option SenderStop} {steps : List SenderStep}
    (h : SenderHistory allowed st stop steps) (hstop : stop = none ∨ stop = some .closed)
    (hact : st.senderLogger.activated = true) : SenderConserved steps st.senderLogger :=
  (h.logger hstop).2 hact

end

/-- A chunk is read and sent, and its ACK arrives in the same turn. -/
theorem senderHistory_conserved_acked : letI := zlib
    let env := { inputEnv [7] with socket := some (.bytes (replyPkt ptypeAck 31 1).wire) }
    let st := senderInit (fun _ => 0) default true 0
    ∃ t, readWriteLoopSender env st = .ok t ∧ t.state.senderLogger.ack_received = 1 ∧
      SenderConserved [{ env := env, before := st, turn := t }] t.state.senderLogger := by
  let _ := zlib
  intro env st
  have hok : (readWriteLoopSender env st).map (fun t => (t.stop, t.state.senderLogger.activated,
      t.state.senderLogger.ack_received)) = .ok (none, true, 1) := by
    decide +kernel
  obtain ⟨t, hturn, ht⟩ := exists_ok_of_map hok
  rw [Prod.mk.injEq, Prod.mk.injEq] at ht
  obtain ⟨hgo, hact, hack⟩ := ht
  have hhistory : SenderHistory (fun _ _ _ => True) t.state t.stop
      ([] ++ [{ env := env, before := st, turn := t }]) :=
    .turn (.init _ _ _ _) trivial hturn
  exact ⟨t, hturn, hack, senderHistory_conserved hhistory (Or.inl hgo) hact⟩

end SelectiveRepeat
