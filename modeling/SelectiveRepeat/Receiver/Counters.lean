/-
  SelectiveRepeat.Receiver.Counters

  The statistics of the receiver against what happened in the run.  Each turn moves
  the counters by what it received and sent, except that a DATA packet which is not
  the expected one is counted a second time when it is in the window.
-/
import SelectiveRepeat.Receiver.Run

namespace SelectiveRepeat

/-! ## A run and what is seen of it -/

/-- A turn that was made. -/
structure ReceiverStep where
  env : ReceiverEnv
  before : ReceiverState
  turn : ReceiverTurn

/-- `ReceiverHistory mem statFile steps st`: `read_write_loop_server` has made the turns
    `steps` without returning and is in the state `st`. -/
inductive ReceiverHistory [Zlib] (mem : ReceiverMemory) (statFile : Bool) :
    List ReceiverStep → ReceiverState → Prop where
  | init : ReceiverHistory mem statFile [] (receiverInit mem statFile)
  | turn {steps : List ReceiverStep} {st : ReceiverState} {env : ReceiverEnv} {t : ReceiverTurn} :
      ReceiverHistory mem statFile steps st → readWriteLoopServer env st = .ok t →
      t.stop = none →
      ReceiverHistory mem statFile (steps ++ [{ env := env, before := st, turn := t }]) t.state

/-- From a window of null slots, the window stays the part of a stream. -/
theorem ReceiverHistory.represents [Zlib] {mem : ReceiverMemory} {statFile : Bool}
    (hnull : ∀ i, mem.window.window i = none) {steps : List ReceiverStep} {st : ReceiverState}
    (h : ReceiverHistory mem statFile steps st) : ∃ W known, Represents st W known := by
  induction h with
  | init => exact ⟨_, _, (receiverInit_tracks mem statFile hnull).represents⟩
  | turn _ hturn hgo ih =>
      obtain ⟨W, known, hrep⟩ := ih
      rcases readWriteLoopServer_cases hrep hturn with ⟨-, hrep', -⟩ | ⟨q, -, heffect⟩
      · exact ⟨W, known, hrep'⟩
      · exact ⟨_, _, heffect.represents hgo⟩

/-- The packet of type DATA that `pkt_decode` accepted in the turn, if it did. -/
def ReceiverStep.data [Zlib] (step : ReceiverStep) : Option Pkt := step.env.incoming step.before

/-- The turn brings a DATA packet, and `p` holds of it in the state it meets. -/
def ReceiverStep.receives [Zlib] (step : ReceiverStep) (p : ReceiverState → Pkt → Bool) : Bool :=
  step.data.any (p step.before)

/-- How many accepted DATA packets of the run met `p`. -/
def receivedCount [Zlib] (p : ReceiverState → Pkt → Bool) (steps : List ReceiverStep) : Nat :=
  steps.countP fun step => step.receives p

/-- What was handed to `send`. -/
def repliesOf (steps : List ReceiverStep) : List Bytes :=
  steps.flatMap fun step => step.turn.sent

/-- Not truncated, and found in the window; the expected packet is not looked for there. -/
def ReceiverState.duplicate (st : ReceiverState) (q : Pkt) : Bool :=
  q.tr ≠ 1 ∧ q.seqnum ≠ st.waitedSeqnum ∧
    (st.window.cells (distance st.waitedSeqnum q.seqnum)).isSome

/-- Not truncated, not the expected packet, and in the window. -/
def ReceiverState.countsTwice (st : ReceiverState) (q : Pkt) : Bool :=
  q.tr ≠ 1 ∧ q.seqnum ≠ st.waitedSeqnum ∧ inWindow st.waitedSeqnum q.seqnum

/-- The counters are those of what happened. -/
structure Conserved [Zlib] (steps : List ReceiverStep) (l : Logger) : Prop where
  data_received : l.data_received = receivedCount (fun _ _ => true) steps
  data_truncated_received :
    l.data_truncated_received = receivedCount (fun _ q => q.tr = 1) steps
  nack_sent : l.nack_sent = l.data_truncated_received
  sent : l.ack_sent + l.nack_sent = (repliesOf steps).length
  packet_duplicated : l.packet_duplicated = receivedCount ReceiverState.duplicate steps

/-! ## What a turn does to the counters -/

section
variable {env : ReceiverEnv} {st : ReceiverState} {t : ReceiverTurn}

/-- A reply that does not end the loop is one datagram and one count. -/
theorem sendReply_counts [Zlib] {written : List (Bytes × Int)} {timestamp type : UInt32}
    {count : Logger → Logger} (h : sendReply env st written timestamp type count = .ok t)
    (hgo : t.stop = none) :
    t.sent.length = 1 ∧ t.state.receiverLogger = count st.receiverLogger := by
  rw [sendReply] at h
  obtain ⟨r, -, h⟩ := exists_ok_of_bind h
  simp only at h
  split at h
  · cases h
    cases hgo
  · cases h
    exact ⟨rfl, rfl⟩

theorem waitedCase_counts [Zlib] (h : waitedCase env st = .ok t) (hgo : t.stop = none) :
    t.sent.length = 1 ∧ t.state.receiverLogger = st.receiverLogger.addAckSent := by
  rw [waitedCase] at h
  split at h
  · cases h
    cases hgo
  obtain ⟨payload, -, h⟩ := exists_ok_of_bind h
  simp only at h
  split at h
  · cases h
    cases hgo
  obtain ⟨⟨s, stop⟩, -, h⟩ := exists_ok_of_bind h
  cases stop with
  | some reason =>
      cases h
      cases hgo
  | none =>
      obtain ⟨window, -, h⟩ := exists_ok_of_bind h
      obtain ⟨hsent, hlog⟩ := sendReply_counts h hgo
      exact ⟨hsent, hlog⟩

/-- The counters after the `switch` on the result of `add`. -/
def storedLogger (st : ReceiverState) (q : Pkt) (l : Logger) : Logger :=
  if inWindow st.waitedSeqnum q.seqnum then
    if (st.window.cells (distance st.waitedSeqnum q.seqnum)).isSome then
      l.addDataReceived.addPacketIgnored.addPacketDuplicated
    else l.addDataReceived
  else l.addPacketIgnored

theorem storeCase_counts {st' : ReceiverState} (h : storeCase env st = .ok (st', none)) :
    st'.receiverLogger = storedLogger st st.pkt st.receiverLogger := by
  rw [storeCase] at h
  rw [storedLogger]
  split at h
  · rename_i hin
    rw [if_pos hin]
    obtain ⟨⟨res, window⟩, hadd, h⟩ := exists_ok_of_bind h
    have hres := SortedList.add_result hadd
    simp only at h
    split at h
    · cases h
    · split at h
      · rename_i hone
        cases h
        rw [if_pos (hres.mp hone)]
      · rename_i hone
        cases h
        rw [if_neg (fun hsome => hone (hres.mpr hsome))]
  · rename_i hin
    cases h
    rw [if_neg hin]

theorem unwaitedCase_counts [Zlib] (h : unwaitedCase env st = .ok t) (hgo : t.stop = none) :
    (t.sent = [] ∧ t.state.receiverLogger = storedLogger st st.pkt st.receiverLogger) ∨
      (t.sent.length = 1 ∧
        t.state.receiverLogger = (storedLogger st st.pkt st.receiverLogger).addAckSent) := by
  rw [unwaitedCase] at h
  obtain ⟨⟨st', stop⟩, hstore, h⟩ := exists_ok_of_bind h
  cases stop with
  | some reason =>
      cases h
      cases hgo
  | none =>
      rw [← storeCase_counts hstore]
      simp only [Option.isSome_none, Bool.false_eq_true, if_false] at h
      split at h
      · exact Or.inr (sendReply_counts h hgo)
      · cases h
        exact Or.inl ⟨rfl, rfl⟩

end

/-- What a turn that goes on does to the counters, by what it received. -/
inductive Counts [Zlib] (env : ReceiverEnv) (st : ReceiverState) (t : ReceiverTurn) : Prop where
  | other (hinc : env.incoming st = none) (hsent : t.sent = [])
      (hlog : t.state.receiverLogger = st.receiverLogger ∨
        t.state.receiverLogger = st.receiverLogger.addAckReceived ∨
        t.state.receiverLogger = st.receiverLogger.addNackReceived ∨
        t.state.receiverLogger = st.receiverLogger.addPacketIgnored)
  | truncated (q : Pkt) (hinc : env.incoming st = some q) (htr : q.tr = 1)
      (hsent : t.sent.length = 1)
      (hlog : t.state.receiverLogger =
        st.receiverLogger.addDataReceived.addDataTruncatedReceived.addNackSent)
  | waited (q : Pkt) (hinc : env.incoming st = some q) (htr : q.tr ≠ 1)
      (hseq : q.seqnum = st.waitedSeqnum) (hsent : t.sent.length = 1)
      (hlog : t.state.receiverLogger = st.receiverLogger.addDataReceived.addAckSent)
  | unwaited (q : Pkt) (hinc : env.incoming st = some q) (htr : q.tr ≠ 1)
      (hseq : q.seqnum ≠ st.waitedSeqnum)
      (hlog : (t.sent = [] ∧ t.state.receiverLogger =
          storedLogger st q st.receiverLogger.addDataReceived) ∨
        (t.sent.length = 1 ∧ t.state.receiverLogger =
          (storedLogger st q st.receiverLogger.addDataReceived).addAckSent))

/-- Without a DATA packet at most one counter moves, and none of those below. -/
theorem readWriteLoopServer_other [Zlib] {env : ReceiverEnv} {st : ReceiverState}
    {t : ReceiverTurn} (h : readWriteLoopServer env st = .ok t) (hinc : env.incoming st = none) :
    t.state.receiverLogger = st.receiverLogger ∨
      t.state.receiverLogger = st.receiverLogger.addAckReceived ∨
      t.state.receiverLogger = st.receiverLogger.addNackReceived ∨
      t.state.receiverLogger = st.receiverLogger.addPacketIgnored := by
  cases hpoll : env.poll with
  | timeout =>
      simp only [readWriteLoopServer, hpoll] at h
      cases h
      exact Or.inl rfl
  | idle =>
      simp only [readWriteLoopServer, hpoll] at h
      cases h
      exact Or.inl rfl
  | ready r =>
      simp only [readWriteLoopServer, hpoll] at h
      simp only [ReceiverEnv.incoming, hpoll] at hinc
      split at h
      · cases h
        exact Or.inl rfl
      rename_i hzero
      rw [if_neg hzero] at hinc
      obtain ⟨⟨resp, pkt⟩, hdec, h⟩ := exists_ok_of_bind h
      rw [hdec] at hinc
      simp only at h hinc
      by_cases hok : resp = .pktOk
      · have hdata : ¬ pkt.type = ptypeData := by
          intro hd
          rw [if_pos ⟨hok, hd⟩] at hinc
          cases hinc
        rw [if_pos hok, packetCase, if_neg hdata] at h
        split at h
        · cases h
          exact Or.inr (Or.inl rfl)
        · split at h
          · cases h
            exact Or.inr (Or.inr (Or.inl rfl))
          · cases h
            exact Or.inl rfl
      · rw [if_neg hok] at h
        cases h
        exact Or.inr (Or.inr (Or.inr rfl))

theorem readWriteLoopServer_counts [Zlib] {env : ReceiverEnv} {st : ReceiverState}
    {t : ReceiverTurn} (h : readWriteLoopServer env st = .ok t) (hgo : t.stop = none) :
    Counts env st t := by
  cases hinc : env.incoming st with
  | some q =>
      obtain ⟨buf, hturn, -, -⟩ := readWriteLoopServer_of_incoming hinc
      rw [hturn, dataCase] at h
      split at h
      · rename_i htr
        obtain ⟨hsent, hlog⟩ := sendReply_counts h hgo
        exact .truncated q hinc htr hsent hlog
      rename_i htr
      split at h
      · rename_i hseq
        obtain ⟨hsent, hlog⟩ := waitedCase_counts h hgo
        exact .waited q hinc htr hseq hsent hlog
      · rename_i hseq
        have hlog := unwaitedCase_counts h hgo
        exact .unwaited q hinc htr hseq hlog
  | none =>
      obtain ⟨t', hturn, -, hsent, -⟩ := readWriteLoopServer_of_none hinc
      rw [h, Except.ok.injEq] at hturn
      subst hturn
      exact .other hinc hsent (readWriteLoopServer_other h hinc)

/-! ## The counters a turn moves -/

/-- The counters in question go up by these amounts. -/
structure Logger.Moved (l l' : Logger) (data truncated acks nacks duplicates : Nat) : Prop where
  activated : l'.activated = l.activated
  is_sender : l'.is_sender = l.is_sender
  data_received : l'.data_received = l.data_received + data
  data_truncated_received : l'.data_truncated_received = l.data_truncated_received + truncated
  ack_sent : l'.ack_sent = l.ack_sent + acks
  nack_sent : l'.nack_sent = l.nack_sent + nacks
  packet_duplicated : l'.packet_duplicated = l.packet_duplicated + duplicates

section
variable {l l₁ l₂ : Logger}

theorem Logger.Moved.refl (l : Logger) : l.Moved l 0 0 0 0 0 := by
  constructor <;> simp

theorem Logger.Moved.trans {a b c d e a' b' c' d' e' : Nat} (h : l.Moved l₁ a b c d e)
    (h' : l₁.Moved l₂ a' b' c' d' e') : l.Moved l₂ (a + a') (b + b') (c + c') (d + d') (e + e') where
  activated := h'.activated.trans h.activated
  is_sender := h'.is_sender.trans h.is_sender
  data_received := by
    rw [h'.data_received, h.data_received]
    omega
  data_truncated_received := by
    rw [h'.data_truncated_received, h.data_truncated_received]
    omega
  ack_sent := by
    rw [h'.ack_sent, h.ack_sent]
    omega
  nack_sent := by
    rw [h'.nack_sent, h.nack_sent]
    omega
  packet_duplicated := by
    rw [h'.packet_duplicated, h.packet_duplicated]
    omega

theorem addDataReceived_moved (h : l.activated = true) : l.Moved l.addDataReceived 1 0 0 0 0 := by
  rw [Logger.addDataReceived, if_pos h]
  constructor <;> simp

theorem addDataTruncatedReceived_moved (h : l.activated = true) :
    l.Moved l.addDataTruncatedReceived 0 1 0 0 0 := by
  rw [Logger.addDataTruncatedReceived, if_pos h]
  constructor <;> simp

theorem addAckSent_moved (h : l.activated = true) : l.Moved l.addAckSent 0 0 1 0 0 := by
  rw [Logger.addAckSent, if_pos h]
  constructor <;> simp

theorem addNackSent_moved (h : l.activated = true) : l.Moved l.addNackSent 0 0 0 1 0 := by
  rw [Logger.addNackSent, if_pos h]
  constructor <;> simp

theorem addPacketDuplicated_moved (h : l.activated = true) (hrecv : l.is_sender = false) :
    l.Moved l.addPacketDuplicated 0 0 0 0 1 := by
  rw [Logger.addPacketDuplicated, if_pos ⟨h, by rw [hrecv]; decide⟩]
  constructor <;> simp

theorem addPacketIgnored_moved (h : l.activated = true) : l.Moved l.addPacketIgnored 0 0 0 0 0 := by
  rw [Logger.addPacketIgnored, if_pos h]
  constructor <;> simp

theorem addAckReceived_moved (h : l.activated = true) : l.Moved l.addAckReceived 0 0 0 0 0 := by
  rw [Logger.addAckReceived, if_pos h]
  constructor <;> simp

theorem addNackReceived_moved (h : l.activated = true) : l.Moved l.addNackReceived 0 0 0 0 0 := by
  rw [Logger.addNackReceived, if_pos h]
  constructor <;> simp

/-- What the `switch` on the result of `add` moves. -/
theorem storedLogger_moved (h : l.activated = true) (hrecv : l.is_sender = false)
    (st : ReceiverState) (q : Pkt) :
    l.Moved (storedLogger st q l) (if inWindow st.waitedSeqnum q.seqnum then 1 else 0) 0 0 0
      (if inWindow st.waitedSeqnum q.seqnum ∧
        (st.window.cells (distance st.waitedSeqnum q.seqnum)).isSome then 1 else 0) := by
  have hdata := addDataReceived_moved h
  have hact := hdata.activated.trans h
  rw [storedLogger]
  by_cases hin : inWindow st.waitedSeqnum q.seqnum = true
  · by_cases hsome : (st.window.cells (distance st.waitedSeqnum q.seqnum)).isSome = true
    · rw [if_pos hin, if_pos hsome, if_pos hin, if_pos ⟨hin, hsome⟩]
      have hignored := addPacketIgnored_moved hact
      exact (hdata.trans hignored).trans (addPacketDuplicated_moved (hignored.activated.trans hact)
        ((hdata.trans hignored).is_sender.trans hrecv))
    · rw [if_pos hin, if_neg hsome, if_pos hin, if_neg (fun hc => hsome hc.2)]
      exact hdata
  · rw [if_neg hin, if_neg hin, if_neg (fun hc => hin hc.1)]
    exact addPacketIgnored_moved h

end

/-! ## Every run -/

/-- The counters as they really move: a packet that counts twice is two for `data_received`. -/
structure Tallied [Zlib] (steps : List ReceiverStep) (l : Logger) : Prop where
  activated : l.activated = true
  is_receiver : l.is_sender = false
  data_received : l.data_received =
    receivedCount (fun _ _ => true) steps + receivedCount ReceiverState.countsTwice steps
  data_truncated_received :
    l.data_truncated_received = receivedCount (fun _ q => q.tr = 1) steps
  nack_sent : l.nack_sent = l.data_truncated_received
  sent : l.ack_sent + l.nack_sent = (repliesOf steps).length
  packet_duplicated : l.packet_duplicated = receivedCount ReceiverState.duplicate steps

theorem receivedCount_append [Zlib] (p : ReceiverState → Pkt → Bool) (steps : List ReceiverStep)
    (step : ReceiverStep) : receivedCount p (steps ++ [step]) =
      receivedCount p steps + if step.receives p then 1 else 0 := by
  rw [receivedCount, List.countP_append, List.countP_singleton, ← receivedCount]

theorem repliesOf_append (steps : List ReceiverStep) (step : ReceiverStep) :
    (repliesOf (steps ++ [step])).length = (repliesOf steps).length + step.turn.sent.length := by
  rw [repliesOf, List.flatMap_append, List.length_append, List.flatMap_singleton, ← repliesOf]

/-- A turn keeps the tally when it moves the counters by what it received and sent. -/
theorem Tallied.move [Zlib] {steps : List ReceiverStep} {step : ReceiverStep} {l l' : Logger}
    (h : Tallied steps l) {data truncated acks duplicates : Nat}
    (hmoved : l.Moved l' data truncated acks truncated duplicates)
    (hdata : data = (if step.receives (fun _ _ => true) then 1 else 0) +
      if step.receives ReceiverState.countsTwice then 1 else 0)
    (htruncated : truncated = if step.receives (fun _ q => q.tr = 1) then 1 else 0)
    (hsent : acks + truncated = step.turn.sent.length)
    (hduplicates : duplicates = if step.receives ReceiverState.duplicate then 1 else 0) :
    Tallied (steps ++ [step]) l' where
  activated := hmoved.activated.trans h.activated
  is_receiver := hmoved.is_sender.trans h.is_receiver
  data_received := by
    rw [hmoved.data_received, h.data_received, receivedCount_append, receivedCount_append]
    omega
  data_truncated_received := by
    rw [hmoved.data_truncated_received, h.data_truncated_received, receivedCount_append]
    omega
  nack_sent := by
    rw [hmoved.nack_sent, hmoved.data_truncated_received, h.nack_sent]
  sent := by
    have hbefore := h.sent
    rw [hmoved.ack_sent, hmoved.nack_sent, repliesOf_append]
    omega
  packet_duplicated := by
    rw [hmoved.packet_duplicated, h.packet_duplicated, receivedCount_append]
    omega

theorem receives_of_none [Zlib] {env : ReceiverEnv} {st : ReceiverState} (t : ReceiverTurn)
    (hinc : env.incoming st = none) (p : ReceiverState → Pkt → Bool) :
    ReceiverStep.receives { env := env, before := st, turn := t } p = false := by
  rw [ReceiverStep.receives, ReceiverStep.data, hinc]
  rfl

theorem receives_of_some [Zlib] {env : ReceiverEnv} {st : ReceiverState} (t : ReceiverTurn)
    {q : Pkt} (hinc : env.incoming st = some q) (p : ReceiverState → Pkt → Bool) :
    ReceiverStep.receives { env := env, before := st, turn := t } p = p st q := by
  rw [ReceiverStep.receives, ReceiverStep.data, hinc]
  rfl

theorem not_countsTwice {st : ReceiverState} {q : Pkt}
    (h : q.tr = 1 ∨ q.seqnum = st.waitedSeqnum) : st.countsTwice q = false := by
  rw [ReceiverState.countsTwice, decide_eq_false_iff_not]
  rintro ⟨htr, hseq, -⟩
  exact h.elim htr hseq

theorem not_duplicate {st : ReceiverState} {q : Pkt}
    (h : q.tr = 1 ∨ q.seqnum = st.waitedSeqnum) : st.duplicate q = false := by
  rw [ReceiverState.duplicate, decide_eq_false_iff_not]
  rintro ⟨htr, hseq, -⟩
  exact h.elim htr hseq

/-- Between two datagrams of a run from null slots, the slot is taken exactly when an element
    with the number of the packet is stored. -/
theorem duplicate_iff_stored {st : ReceiverState} (h : Ready st) (q : Pkt) :
    st.duplicate q = true ↔
      q.tr ≠ 1 ∧ ∃ i elem, st.window.cells i = some elem ∧ elem.seqnum = q.seqnum := by
  rw [ReceiverState.duplicate, decide_eq_true_iff]
  refine ⟨?_, ?_⟩
  · rintro ⟨htr, -, hslot⟩
    obtain ⟨elem, helem⟩ := Option.isSome_iff_exists.mp hslot
    refine ⟨htr, _, elem, helem, ?_⟩
    rw [h.placed.seqnum _ elem helem]
    exact (seqnum_of_distance rfl).symm
  · rintro ⟨htr, i, elem, helem, hseq⟩
    have hlt := SortedList.lt_of_cells helem
    have hdist : distance st.waitedSeqnum q.seqnum = i := by
      rw [← hseq, h.placed.seqnum i elem helem]
      exact distance_add (by omega)
    refine ⟨htr, fun hwaited => ?_, by rw [hdist, helem]; rfl⟩
    -- the expected packet would be in slot 0, which is free
    rw [hwaited, distance_self] at hdist
    rw [← hdist, h.head] at helem
    cases helem

section
variable {st : ReceiverState} {q : Pkt} (htr : q.tr ≠ 1) (hseq : q.seqnum ≠ st.waitedSeqnum)
include htr hseq

theorem countsTwice_unwaited : st.countsTwice q = inWindow st.waitedSeqnum q.seqnum := by
  rw [ReceiverState.countsTwice, Bool.eq_iff_iff, decide_eq_true_iff]
  exact ⟨fun hc => hc.2.2, fun hin => ⟨htr, hseq, hin⟩⟩

/-- A slot of the array is in the window. -/
theorem duplicate_unwaited : st.duplicate q = decide (inWindow st.waitedSeqnum q.seqnum = true ∧
    (st.window.cells (distance st.waitedSeqnum q.seqnum)).isSome = true) := by
  rw [ReceiverState.duplicate, decide_eq_decide]
  refine ⟨?_, fun hin => ⟨htr, hseq, hin.2⟩⟩
  rintro ⟨-, -, hslot⟩
  obtain ⟨elem, helem⟩ := Option.isSome_iff_exists.mp hslot
  have hlt := SortedList.lt_of_cells helem
  exact ⟨(inWindow_iff _ _).mpr (by omega), hslot⟩

/-- A packet that is not the expected one moves what the `switch` on the result of `add` moves,
    and the ACKs by what is sent. -/
theorem Tallied.move_unwaited [Zlib] {steps : List ReceiverStep} {env : ReceiverEnv}
    {t : ReceiverTurn} {l' : Logger} (h : Tallied steps st.receiverLogger)
    (hinc : env.incoming st = some q) {acks : Nat}
    (hmoved : st.receiverLogger.Moved l'
      (1 + if inWindow st.waitedSeqnum q.seqnum then 1 else 0) 0 acks 0
      (if inWindow st.waitedSeqnum q.seqnum ∧
        (st.window.cells (distance st.waitedSeqnum q.seqnum)).isSome then 1 else 0))
    (hsent : acks = t.sent.length) :
    Tallied (steps ++ [{ env := env, before := st, turn := t }]) l' := by
  have hsome := receives_of_some t hinc
  apply h.move hmoved
  · rw [hsome, hsome, countsTwice_unwaited htr hseq]
    rfl
  · rw [hsome, decide_eq_false htr]
    rfl
  · exact hsent
  · rw [hsome, duplicate_unwaited htr hseq]
    simp only [decide_eq_true_eq]

end

/-- What one turn preserves. -/
theorem Tallied.turn [Zlib] {steps : List ReceiverStep} {env : ReceiverEnv} {st : ReceiverState}
    {t : ReceiverTurn} (h : Tallied steps st.receiverLogger) (hcounts : Counts env st t) :
    Tallied (steps ++ [{ env := env, before := st, turn := t }]) t.state.receiverLogger := by
  have hact := h.activated
  have hdata := addDataReceived_moved hact
  have hact' := hdata.activated.trans hact
  cases hcounts with
  | other hinc hsent hlog =>
      have hnone := receives_of_none t hinc
      have hmoved : st.receiverLogger.Moved t.state.receiverLogger 0 0 0 0 0 := by
        rcases hlog with hlog | hlog | hlog | hlog <;> rw [hlog]
        · exact Logger.Moved.refl _
        · exact addAckReceived_moved hact
        · exact addNackReceived_moved hact
        · exact addPacketIgnored_moved hact
      refine h.move hmoved ?_ ?_ ?_ ?_
      · rw [hnone, hnone]
        rfl
      · rw [hnone]
        rfl
      · rw [hsent]
        rfl
      · rw [hnone]
        rfl
  | truncated q hinc htr hsent hlog =>
      have hsome := receives_of_some t hinc
      have htruncated := addDataTruncatedReceived_moved hact'
      have hmoved := (hdata.trans htruncated).trans
        (addNackSent_moved (htruncated.activated.trans hact'))
      rw [← hlog] at hmoved
      refine h.move hmoved ?_ ?_ hsent.symm ?_
      · rw [hsome, hsome, not_countsTwice (Or.inl htr)]
        rfl
      · rw [hsome, htr]
        rfl
      · rw [hsome, not_duplicate (Or.inl htr)]
        rfl
  | waited q hinc htr hseq hsent hlog =>
      have hsome := receives_of_some t hinc
      have hmoved := hdata.trans (addAckSent_moved hact')
      rw [← hlog] at hmoved
      refine h.move hmoved ?_ ?_ hsent.symm ?_
      · rw [hsome, hsome, not_countsTwice (Or.inr hseq)]
        rfl
      · rw [hsome, decide_eq_false htr]
        rfl
      · rw [hsome, not_duplicate (Or.inr hseq)]
        rfl
  | unwaited q hinc htr hseq hlog =>
      have hstored := hdata.trans
        (storedLogger_moved hact' (hdata.is_sender.trans h.is_receiver) st q)
      simp only [Nat.zero_add] at hstored
      rcases hlog with ⟨hnone, hlog⟩ | ⟨hone, hlog⟩
      · rw [← hlog] at hstored
        apply Tallied.move_unwaited htr hseq h hinc hstored
        rw [hnone]
        rfl
      · have hreply := hstored.trans (addAckSent_moved (hstored.activated.trans hact))
        rw [← hlog] at hreply
        exact Tallied.move_unwaited htr hseq h hinc hreply hone.symm

theorem receiverInit_tallied [Zlib] (mem : ReceiverMemory) :
    Tallied [] (receiverInit mem true).receiverLogger := by
  constructor <;> rfl

theorem ReceiverHistory.tallied [Zlib] {mem : ReceiverMemory} {steps : List ReceiverStep}
    {st : ReceiverState} (h : ReceiverHistory mem true steps st) :
    Tallied steps st.receiverLogger := by
  induction h with
  | init => exact receiverInit_tallied mem
  | turn _ hturn hgo ih => exact ih.turn (readWriteLoopServer_counts hturn hgo)

/-- In every run with a statistics file, the counters are those of what happened, at the end
    of the turns made, exactly when none of the turns received a packet that counts twice. -/
theorem receiverHistory_conserved_iff [Zlib] {mem : ReceiverMemory} {steps : List ReceiverStep}
    {st : ReceiverState} (h : ReceiverHistory mem true steps st) :
    Conserved steps st.receiverLogger ↔
      ∀ step ∈ steps, step.receives ReceiverState.countsTwice = false := by
  have htallied := h.tallied
  have hzero : receivedCount ReceiverState.countsTwice steps = 0 ↔
      ∀ step ∈ steps, step.receives ReceiverState.countsTwice = false := by
    rw [receivedCount, List.countP_eq_zero]
    simp only [Bool.not_eq_true]
  rw [← hzero]
  refine ⟨?_, ?_⟩
  · intro hconserved
    have hdata := hconserved.data_received
    rw [htallied.data_received] at hdata
    omega
  · intro hnone
    refine ⟨?_, htallied.data_truncated_received, htallied.nack_sent, htallied.sent,
      htallied.packet_duplicated⟩
    rw [htallied.data_received, hnone]
    omega

/-- The expected packet, as the first datagram of a transfer. -/
theorem receiverHistory_conserved_iff_expected : letI := zlib
    ∃ t, readWriteLoopServer (datagramEnv (bytePkt 0 0 7).wire) (receiverInit nullMemory true) =
        .ok t ∧
      Conserved [⟨datagramEnv (bytePkt 0 0 7).wire, receiverInit nullMemory true, t⟩]
        t.state.receiverLogger := by
  let _ := zlib
  have hok : (readWriteLoopServer (datagramEnv (bytePkt 0 0 7).wire)
      (receiverInit nullMemory true)).map ReceiverTurn.stop = .ok none := by
    decide +kernel
  obtain ⟨t, hturn, hgo⟩ := exists_ok_of_map hok
  have hhistory : ReceiverHistory nullMemory true
      ([] ++ [⟨datagramEnv (bytePkt 0 0 7).wire, receiverInit nullMemory true, t⟩]) t.state :=
    .turn .init hturn hgo
  refine ⟨t, hturn, (receiverHistory_conserved_iff hhistory).mpr fun step hstep => ?_⟩
  rw [List.nil_append, List.mem_singleton] at hstep
  subst hstep
  show ((datagramEnv (bytePkt 0 0 7).wire).incoming (receiverInit nullMemory true)).any
    (ReceiverState.countsTwice (receiverInit nullMemory true)) = false
  decide +kernel

/-- Packet 1 before packet 0: one DATA packet was received, and two were counted. -/
theorem receiverHistory_not_conserved : ¬ ∀ [Zlib] (mem : ReceiverMemory)
    (steps : List ReceiverStep) (st : ReceiverState), ReceiverHistory mem true steps st →
      Conserved steps st.receiverLogger := by
  intro hall
  let _ := zlib
  have hok : (readWriteLoopServer (datagramEnv (bytePkt 1 0 7).wire)
      (receiverInit nullMemory true)).map
        (fun t => (t.stop, t.state.receiverLogger.data_received)) = .ok (none, 2) := by
    decide +kernel
  obtain ⟨t, hturn, hresult⟩ := exists_ok_of_map hok
  rw [Prod.mk.injEq] at hresult
  have hdata := (hall nullMemory _ _ (.turn .init hturn hresult.1)).data_received
  rw [hresult.2, List.nil_append, receivedCount, List.countP_singleton] at hdata
  split at hdata
  · exact absurd hdata (by decide)
  · exact absurd hdata (by decide)

end SelectiveRepeat
