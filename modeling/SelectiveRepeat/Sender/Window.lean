/-
  SelectiveRepeat.Sender.Window

  What the sender's window is for: a log of the packets built so far, of which the
  first `acked` are acknowledged and the others, at most 31, are outstanding.
  The ring, the two counts and the two 8-bit numbers of the loop refine that log,
  and each block of the loop body is one step on it, whatever arrives on the
  socket.
-/
import SelectiveRepeat.Segment.Total
import SelectiveRepeat.Sender.Nack
import SelectiveRepeat.Sender.Scan

namespace SelectiveRepeat

/-! ## The log -/

/-- Every packet built so far, as it was built; packet `k` has the number `k`
    modulo 256. -/
structure SendLog where
  log : List Pkt
  acked : Nat
  acked_le : acked ≤ log.length
  room : log.length ≤ acked + 31
  numbered : ∀ k (hk : k < log.length), log[k].seqnum = UInt8.ofNat k
  queued : ∀ pkt ∈ log, pkt.Queued

namespace SendLog

/-- The packets still in the window. -/
def outstanding (w : SendLog) : List Pkt := w.log.drop w.acked

theorem outstanding_length (w : SendLog) : w.outstanding.length = w.log.length - w.acked :=
  List.length_drop

theorem outstanding_length_le (w : SendLog) : w.outstanding.length ≤ 31 := by
  have hroom := w.room
  rw [outstanding_length]
  omega

theorem outstanding_queued (w : SendLog) : ∀ pkt ∈ w.outstanding, pkt.Queued :=
  fun pkt h => w.queued pkt (List.mem_of_mem_drop h)

theorem consecutive_of_numbered {n : Nat} {l : List Pkt}
    (h : ∀ j (hj : j < l.length), l[j].seqnum = UInt8.ofNat (n + j)) :
    Consecutive (UInt8.ofNat n) l := by
  induction l generalizing n with
  | nil => trivial
  | cons pkt l ih =>
      refine ⟨h 0 (Nat.succ_pos _), ?_⟩
      rw [← ofNat_succ]
      apply ih
      intro j hj
      have hnext := h (j + 1) (Nat.succ_lt_succ hj)
      rwa [List.getElem_cons_succ, show n + (j + 1) = n + 1 + j by omega] at hnext

theorem outstanding_consecutive (w : SendLog) :
    Consecutive (UInt8.ofNat w.acked) w.outstanding := by
  apply consecutive_of_numbered
  intro j hj
  have hk : w.acked + j < w.log.length := by
    rw [outstanding_length] at hj
    omega
  simpa [outstanding, List.getElem_drop] using w.numbered (w.acked + j) hk

/-- Nothing built, nothing acknowledged. -/
def empty : SendLog where
  log := []
  acked := 0
  acked_le := Nat.le_refl 0
  room := Nat.zero_le _
  numbered := fun _ h => absurd h (Nat.not_lt_zero _)
  queued := fun _ h => absurd h List.not_mem_nil

/-- A new packet is built. -/
def build (w : SendLog) (pkt : Pkt) (hseq : pkt.seqnum = UInt8.ofNat w.log.length)
    (hq : pkt.Queued) (hroom : w.log.length < w.acked + 31) : SendLog where
  log := w.log ++ [pkt]
  acked := w.acked
  acked_le := by
    have hle := w.acked_le
    rw [List.length_append]
    omega
  room := by
    rw [List.length_append, List.length_singleton]
    omega
  numbered := by
    intro k hk
    rw [List.getElem_append]
    split
    · exact w.numbered k _
    · rw [List.length_append, List.length_singleton] at hk
      have hlast : k = w.log.length := by omega
      simp [hlast, hseq]
  queued := by
    intro p hp
    rcases List.mem_append.mp hp with hp | hp
    · exact w.queued p hp
    · rwa [List.mem_singleton.mp hp]

/-- The `n` oldest outstanding packets are acknowledged. -/
def ack (w : SendLog) (n : Nat) (hn : n ≤ w.outstanding.length) : SendLog where
  log := w.log
  acked := w.acked + n
  acked_le := by
    have hle := w.acked_le
    rw [outstanding_length] at hn
    omega
  room := by
    have hroom := w.room
    omega
  numbered := w.numbered
  queued := w.queued

theorem outstanding_ack (w : SendLog) (n : Nat) (hn : n ≤ w.outstanding.length) :
    (w.ack n hn).outstanding = w.outstanding.drop n := by
  simp [outstanding, ack, List.drop_drop]

theorem outstanding_build (w : SendLog) (pkt : Pkt) (hseq : pkt.seqnum = UInt8.ofNat w.log.length)
    (hq : pkt.Queued) (hroom : w.log.length < w.acked + 31) :
    (w.build pkt hseq hq hroom).outstanding = w.outstanding ++ [pkt] :=
  List.drop_append_of_le_length w.acked_le

/-- How many packets an ACK takes out of the window. -/
def ackedBy (w : SendLog) (socketPkt : Pkt) : Nat :=
  w.outstanding.length - (unacked (socketPkt.seqnum - 1) w.outstanding).length

theorem ackedBy_le (w : SendLog) (socketPkt : Pkt) :
    w.ackedBy socketPkt ≤ w.outstanding.length :=
  Nat.sub_le _ _

/-- The log after a reply; `none` is a datagram the sender drops. -/
def receive (w : SendLog) : Option Pkt → SendLog
  | none => w
  | some socketPkt =>
      if socketPkt.type = ptypeAck then w.ack (w.ackedBy socketPkt) (w.ackedBy_le socketPkt) else w

theorem receive_of_not_ack (w : SendLog) {socketPkt : Pkt} (h : socketPkt.type ≠ ptypeAck) :
    w.receive (some socketPkt) = w :=
  if_neg h

@[simp] theorem receive_log (w : SendLog) (reply : Option Pkt) :
    (w.receive reply).log = w.log := by
  cases reply with
  | none => rfl
  | some socketPkt =>
      rw [receive]
      split <;> rfl

theorem acked_le_receive (w : SendLog) (reply : Option Pkt) :
    w.acked ≤ (w.receive reply).acked := by
  cases reply with
  | none => exact Nat.le_refl _
  | some socketPkt =>
      rw [receive]
      split
      · exact Nat.le_add_right _ _
      · exact Nat.le_refl _

/-- An ACK that names the packets up to `A - 1` takes out those; one that comes late
    takes out nothing, as long as it is not more than 99 behind. -/
theorem receive_acked (w : SendLog) {socketPkt : Pkt} (htype : socketPkt.type = ptypeAck) {A : Nat}
    (hseq : socketPkt.seqnum = UInt8.ofNat A) (hle : A ≤ w.log.length)
    (hfresh : w.acked ≤ A + 99) : (w.receive (some socketPkt)).acked = max w.acked A := by
  have hc := w.outstanding_consecutive
  have hlen := w.outstanding_length_le
  have hout := w.outstanding_length
  have hacked : (w.receive (some socketPkt)).acked = w.acked + (w.outstanding.length -
      (unacked (UInt8.ofNat A - 1) w.outstanding).length) := by
    rw [receive, if_pos htype, ← hseq]
    rfl
  by_cases hlt : w.acked < A
  · -- `A - 1` is outstanding
    have hd := distance_pred hlt (by omega)
    rw [hacked, unacked_of_lt hc hlen (by omega), List.length_drop, hd]
    omega
  · -- `A - 1` is at most 100 before the oldest, so at least 156 after it modulo 256
    have hd := distance_pred_back (Nat.le_of_not_lt hlt) (by omega)
    have hold : Queue.seqnumHigherOrEqual (UInt8.ofNat A - 1).toNat (UInt8.ofNat w.acked) = false :=
      not_seqnumHigherOrEqual_of_distance (by omega)
    rw [hacked, unacked_of_not_higher hc hold]
    omega

/-- `d` is packet `k` of the log, sent at some time. -/
def Copy [Zlib] (w : SendLog) (k : Nat) (d : Bytes) : Prop :=
  ∃ pkt ts, w.log[k]? = some pkt ∧ d = (pkt.restamp ts).wire

/-- `d` is an outstanding packet, sent at a time the turn reads from its clock. -/
def Transmits [Zlib] (w : SendLog) (env : SenderEnv) (st : SenderState) (d : Bytes) : Prop :=
  ∃ k pkt site, w.acked ≤ k ∧ w.log[k]? = some pkt ∧ d = (pkt.restamp (env.now site st)).wire

theorem Transmits.copy [Zlib] {w : SendLog} {env : SenderEnv} {st : SenderState} {d : Bytes}
    (h : w.Transmits env st d) : ∃ k, w.acked ≤ k ∧ w.Copy k d := by
  obtain ⟨k, pkt, site, hk, hpkt, hd⟩ := h
  exact ⟨k, hk, pkt, _, hpkt, hd⟩

theorem transmits_of_mem [Zlib] {w : SendLog} {j : Nat} {pkt : Pkt}
    (h : w.outstanding[j]? = some pkt) (env : SenderEnv) (site : ClockSite) (st : SenderState) :
    w.Transmits env st (pkt.restamp (env.now site st)).wire := by
  refine ⟨w.acked + j, pkt, site, Nat.le_add_right _ _, ?_, rfl⟩
  rwa [outstanding, List.getElem?_drop] at h

/-- The clock of the loop does not depend on the block that reads it. -/
theorem Transmits.congr [Zlib] {w : SendLog} {env : SenderEnv} {st st' : SenderState} {d : Bytes}
    (h : w.Transmits env st' d) (hstart : st'.startingTimestamp = st.startingTimestamp) :
    w.Transmits env st d := by
  obtain ⟨k, pkt, site, hk, hpkt, hd⟩ := h
  refine ⟨k, pkt, site, hk, hpkt, ?_⟩
  rw [hd, SenderEnv.now, hstart]
  rfl

end SendLog

/-! ## The refinement -/

/-- The state of the loop, between two turns, against the log. -/
structure Refines (st : SenderState) (w : SendLog) : Prop where
  holds : ∃ l, st.window.Holds l ∧ SameButTimestamp w.outstanding l
  count : st.pktInWindow.toNat = w.outstanding.length
  seqnum : st.seqnum = UInt8.ofNat w.log.length
  windowSize : st.sendingWindowSize.toNat ≤ 31

theorem senderInit_refines (buf : Mem) (mem : Logger) (statsFile : Bool) (start : Int) :
    Refines (senderInit buf mem statsFile start) SendLog.empty :=
  ⟨⟨[], Queue.newList_holds, sameButTimestamp_refl []⟩, rfl, rfl, (by decide : (1 : UInt8).toNat ≤ 31)⟩

/-- The number of packets in flight is the size of the queue. -/
theorem Refines.size {st : SenderState} {w : SendLog} (h : Refines st w) :
    st.window.size = st.pktInWindow.toNat := by
  obtain ⟨l, hl, hsame⟩ := h.holds
  rw [h.count, hl.size, ← hsame.length_eq]

/-- While the loop may send a new packet, the slot it adds it to is free. -/
theorem Refines.free {st : SenderState} {w : SendLog} (h : Refines st w)
    (hlt : st.pktInWindow < st.sendingWindowSize) : st.window.window st.window.ptrAdd = none := by
  obtain ⟨l, hl, hsame⟩ := h.holds
  have hcount := h.count
  have hsize := h.windowSize
  rw [UInt8.lt_iff_toNat_lt] at hlt
  rw [hsame.length_eq] at hcount
  exact hl.free (by omega)

/-! ## The input -/

/-- No read of the input fails. -/
def SenderEnv.InputReads (env : SenderEnv) : Prop := ∀ r, env.input = some r → r ≠ .error

/-- What the read of the input finds, if the turn makes one. -/
def SenderEnv.inputRead (env : SenderEnv) (st : SenderState) : Option ReadResult :=
  if env.pollFails then none
  else if st.pktInWindow < st.sendingWindowSize then env.input else none

theorem SenderEnv.InputReads.inputRead_ne {env : SenderEnv} (h : env.InputReads)
    (st : SenderState) : env.inputRead st ≠ some .error := by
  intro herror
  rw [SenderEnv.inputRead] at herror
  split at herror
  · cases herror
  · split at herror
    · exact h _ herror rfl
    · cases herror

/-- The chunk a turn takes from the input: there is one when the window has room
    and the read does not meet the end of the input. -/
def SenderEnv.chunkRead (env : SenderEnv) (st : SenderState) : List Bytes :=
  if env.pollFails then []
  else
    match env.input with
    | some (.bytes data) =>
        if st.pktInWindow < st.sendingWindowSize ∧ data.take MAX_PAYLOAD_SIZE ≠ [] then
          [data.take MAX_PAYLOAD_SIZE]
        else []
    | _ => []

/-- `build_pkt` and `pkt_encode` on a chunk that was read. -/
theorem inputBranch_send [Zlib] {env : SenderEnv} {st : SenderState} {data : Bytes}
    (hin : env.input = some (.bytes data)) (hlt : st.pktInWindow < st.sendingWindowSize)
    (hsize : st.sendingWindowSize.toNat ≤ 31) (hne : data.take MAX_PAYLOAD_SIZE ≠ []) :
    ∃ pkt buf, pkt.Built (BitVec.ofNat 5 (st.sendingWindowSize - st.pktInWindow).toNat)
        st.seqnum (data.take MAX_PAYLOAD_SIZE) (env.now .build st) ∧
      inputBranch env st = .ok (
        let st' := { st with
          nb := (data.take MAX_PAYLOAD_SIZE).length
          pktBuffer := buf
          window := (st.window.add pkt).2 }
        if env.send < 0 then { state := st', stop := some .send, sent := [pkt.wire] }
        else
          { state := { st' with
              senderLogger := st.senderLogger.addDataSent
              pktInWindow := st.pktInWindow + 1
              seqnum := UInt8.ofNat ((st.seqnum.toNat + 1) % 256) },
            sent := [pkt.wire] }) := by
  have hlen : (data.take MAX_PAYLOAD_SIZE).length ≤ 512 := by
    rw [List.length_take]
    exact Nat.min_le_left _ _
  -- the window field of the packet is 5 bits wide, and the room left fits into it
  have hlt' := UInt8.lt_iff_toNat_lt.mp hlt
  have hroom : (st.sendingWindowSize - st.pktInWindow).toNat ≤ 31 := by
    rw [UInt8.toNat_sub_of_le _ _ (UInt8.le_iff_toNat_le.mpr (Nat.le_of_lt hlt'))]
    omega
  have hnb : ((data.take MAX_PAYLOAD_SIZE).length : Int) ≠ 0 := by
    have hpos := List.length_pos_iff.mpr hne
    omega
  have hnow : env.now .build { st with nb := ((data.take MAX_PAYLOAD_SIZE).length : Int) } =
      env.now .build st := rfl
  have hbuilt := buildPkt_built (env.fresh .input) hroom st.seqnum hlen (env.now .build st)
  obtain ⟨buf, henc, hbuf⟩ := (hbuilt.queued hne hlen).encode st.pktBuffer
  refine ⟨_, buf, hbuilt, ?_⟩
  simp only [inputBranch, hin, if_pos hlt, ReadResult.nb, ReadResult.payload, ne_eq, hnb,
    not_false_eq_true, if_true, hnow, henc, ok_bind, not_true_eq_false, if_false, Queue.add,
    Int.lt_irrefl, hbuf]
  split <;> rfl

/-- The input block as a step on the log `w`: it builds the packets `built` from the chunk
    it reads, which makes `w'`, and sends them. -/
structure SendLog.Input [Zlib] (w : SendLog) (env : SenderEnv) (st : SenderState) (t : SenderTurn)
    (w' : SendLog) (built : List Pkt) : Prop where
  acked : w'.acked = w.acked
  log : w'.log = w.log ++ built
  read : built.map Pkt.data = env.chunkRead st
  sent : t.sent = built.map Pkt.wire
  start : t.state.startingTimestamp = st.startingTimestamp
  holds : ∃ l, t.state.window.Holds l ∧ SameButTimestamp w'.outstanding l
  refines : t.stop = none → Refines t.state w'

/-- Nothing is read, or the end of the input. -/
theorem SendLog.Input.nothing [Zlib] {env : SenderEnv} {st st' : SenderState} {w : SendLog}
    (hread : env.chunkRead st = []) (hstart : st'.startingTimestamp = st.startingTimestamp)
    (href : Refines st' w) : w.Input env st { state := st' } w [] :=
  ⟨rfl, (List.append_nil _).symm, hread.symm, rfl, hstart, href.holds, fun _ => href⟩

/-- `pkt` is what `build_pkt` makes of its payload: every field but the CRCs, which
    `pkt_encode` computes, is set. -/
def SenderEnv.Builds (env : SenderEnv) (st : SenderState) (pkt : Pkt) : Prop :=
  pkt.Built (BitVec.ofNat 5 (st.sendingWindowSize - st.pktInWindow).toNat) st.seqnum pkt.data
    (env.now .build st)

/-- A chunk is read. -/
theorem inputBranch_chunk [Zlib] {env : SenderEnv} {st : SenderState} {w : SendLog}
    (hr : Refines st w) (hpoll : env.pollFails = false) {data : Bytes}
    (hinput : env.input = some (.bytes data)) (hlt : st.pktInWindow < st.sendingWindowSize)
    (hne : data.take MAX_PAYLOAD_SIZE ≠ []) :
    ∃ t w' built, inputBranch env st = .ok t ∧ w.Input env st t w' built ∧
      (0 ≤ env.send → t.stop = none) ∧ ∀ pkt ∈ built, env.Builds st pkt := by
  obtain ⟨pkt, buf, hbuilt, hrun⟩ := inputBranch_send hinput hlt hr.windowSize hne
  have hcount := hr.count
  have hsize := hr.windowSize
  have hlt' := UInt8.lt_iff_toNat_lt.mp hlt
  have hacked := w.acked_le
  rw [w.outstanding_length] at hcount
  have hlen : (data.take MAX_PAYLOAD_SIZE).length ≤ 512 := by
    rw [List.length_take]
    exact Nat.min_le_left _ _
  have hq := hbuilt.queued hne hlen
  have hseq : pkt.seqnum = UInt8.ofNat w.log.length := hbuilt.seqnum.trans hr.seqnum
  -- the guard of the loop leaves room in the log, hence a free slot in the ring
  have hroom : w.log.length < w.acked + 31 := by omega
  have hholds : ∃ l, (st.window.add pkt).2.Holds l ∧
      SameButTimestamp (w.build pkt hseq hq hroom).outstanding l := by
    obtain ⟨l, hl, hsame⟩ := hr.holds
    refine ⟨l ++ [pkt], hl.add ?_ pkt, ?_⟩
    · rw [← hsame.length_eq, w.outstanding_length]
      omega
    · rw [w.outstanding_build]
      exact hsame.append (sameButTimestamp_refl [pkt])
  refine ⟨_, w.build pkt hseq hq hroom, [pkt], hrun, ⟨rfl, rfl, ?_, ?_, ?_, ?_, ?_⟩, ?_, ?_⟩
  · simp [SenderEnv.chunkRead, hpoll, hinput, hlt, hne, hbuilt.data]
  · split <;> rfl
  · split <;> rfl
  · split <;> exact hholds
  · -- both counts go up by one, and the next number with the length of the log
    by_cases hsend : env.send < 0
    · rw [if_pos hsend]
      exact fun h => absurd h (by simp)
    · rw [if_neg hsend]
      intro _
      refine ⟨hholds, ?_, ?_, hsize⟩
      · rw [w.outstanding_build, List.length_append, w.outstanding_length,
          List.length_singleton, UInt8.toNat_add, UInt8.toNat_one]
        omega
      · have hlast : (w.build pkt hseq hq hroom).log.length = w.log.length + 1 := by
          simp [SendLog.build]
        rw [hlast, hr.seqnum, UInt8.toNat_ofNat']
        apply UInt8.toNat_inj.mp
        rw [UInt8.toNat_ofNat', UInt8.toNat_ofNat']
        omega
  · intro hsend
    rw [if_neg (Int.not_lt.mpr hsend)]
  · intro p hp
    rw [List.mem_singleton.mp hp, SenderEnv.Builds, hbuilt.data]
    exact hbuilt

/-- The input block builds a packet from each chunk it reads and sends it; it returns only
    if that `send` fails. -/
theorem inputBranch_spec [Zlib] {env : SenderEnv} {st : SenderState} {w : SendLog}
    (hr : Refines st w) (hpoll : env.pollFails = false) (hin : env.inputRead st ≠ some .error) :
    ∃ t w' built, inputBranch env st = .ok t ∧ w.Input env st t w' built ∧
      ((env.chunkRead st ≠ [] → 0 ≤ env.send) → t.stop = none) ∧
      ∀ pkt ∈ built, env.Builds st pkt := by
  have hnothing : ∀ pkt ∈ [], env.Builds st pkt := fun _ hp => absurd hp List.not_mem_nil
  cases hinput : env.input with
  | none =>
      have hrun : inputBranch env st = .ok { state := st } := by simp only [inputBranch, hinput]
      refine ⟨_, w, [], hrun, .nothing ?_ rfl hr, fun _ => rfl, hnothing⟩
      simp [SenderEnv.chunkRead, hpoll, hinput]
  | some r =>
      by_cases hlt : st.pktInWindow < st.sendingWindowSize
      · cases r with
        | error =>
            refine absurd ?_ hin
            simp only [SenderEnv.inputRead, hpoll, Bool.false_eq_true, if_false, if_pos hlt, hinput]
        | bytes data =>
            by_cases hne : data.take MAX_PAYLOAD_SIZE = []
            · -- end of the input: only `nb` is set
              have hnb : (ReadResult.bytes data).nb MAX_PAYLOAD_SIZE = 0 := by
                rw [ReadResult.nb, hne]
                rfl
              have hrun : inputBranch env st = .ok { state := { st with nb := 0 } } := by
                simp only [inputBranch, hinput, if_pos hlt, hnb, ne_eq, not_true_eq_false, if_false]
              refine ⟨_, w, [], hrun, .nothing ?_ rfl
                ⟨hr.holds, hr.count, hr.seqnum, hr.windowSize⟩, fun _ => rfl, hnothing⟩
              simp [SenderEnv.chunkRead, hpoll, hinput, hne]
            · obtain ⟨t, w', built, hrun, hbuilds, hgo, hfields⟩ :=
                inputBranch_chunk hr hpoll hinput hlt hne
              refine ⟨t, w', built, hrun, hbuilds, fun hsend => hgo (hsend ?_), hfields⟩
              simp [SenderEnv.chunkRead, hpoll, hinput, hlt, hne]
      · have hrun : inputBranch env st = .ok { state := st } := by
          simp only [inputBranch, hinput, if_neg hlt]
        refine ⟨_, w, [], hrun, .nothing ?_ rfl hr, fun _ => rfl, hnothing⟩
        cases r <;> simp [SenderEnv.chunkRead, hpoll, hinput, hlt]

/-! ## The socket -/

/-- The reply the sender makes of what it reads, with `buf` in `pkt_buffer` before:
    a packet that the decoder accepts and that is not truncated. -/
def SenderEnv.reply [Zlib] (env : SenderEnv) (buf : Mem) : Option Pkt :=
  match env.socket with
  | none => none
  | some r =>
      match pktDecode (r.fill 12 buf) 12 (env.fresh .socket) with
      | .ok (socketResp, socketPkt) =>
          if socketResp = .pktOk ∧ socketPkt.tr ≠ 1 then some socketPkt else none
      | .error _ => none

/-- The reply a turn takes.  The socket is read after the input, into the buffer that
    the new packet was encoded in. -/
def SenderEnv.heard [Zlib] (env : SenderEnv) (st : SenderState) : Option Pkt :=
  if env.pollFails then none
  else
    match inputBranch env st with
    | .ok t => if t.stop = none then env.reply t.state.pktBuffer else none
    | .error _ => none

/-- What a turn takes is what the decoder makes of some content of the buffer. -/
theorem SenderEnv.exists_reply [Zlib] {env : SenderEnv} {st : SenderState} {q : Pkt}
    (h : env.heard st = some q) : ∃ buf, env.reply buf = some q := by
  rw [SenderEnv.heard] at h
  split at h
  · exact absurd h (by simp)
  · split at h
    · split at h
      · exact ⟨_, h⟩
      · exact absurd h (by simp)
    · exact absurd h (by simp)

theorem unacked_same {s : UInt8} {l l' : List Pkt} (h : SameButTimestamp l l') :
    (unacked s l').length = (unacked s l).length ∧
      SameButTimestamp (unacked s l) (unacked s l') := by
  induction h with
  | nil => exact ⟨rfl, sameButTimestamp_refl []⟩
  | @cons pkt pkt' l l' hd htl ih =>
      obtain ⟨ts, rfl⟩ := hd
      cases hcmp : Queue.seqnumHigherOrEqual s.toNat pkt.seqnum with
      | true =>
          have hcmp' : Queue.seqnumHigherOrEqual s.toNat (pkt.restamp ts).seqnum = true := hcmp
          rw [unacked_cons_of_higher hcmp, unacked_cons_of_higher hcmp']
          exact ih
      | false =>
          have hcmp' : Queue.seqnumHigherOrEqual s.toNat (pkt.restamp ts).seqnum = false := hcmp
          rw [unacked_cons_of_not_higher hcmp, unacked_cons_of_not_higher hcmp']
          have hall : SameButTimestamp (pkt :: l) (pkt.restamp ts :: l') :=
            List.Forall₂.cons ⟨ts, rfl⟩ htl
          exact ⟨hall.length_eq.symm, hall⟩

/-- What the loop leaves is what is left of the log's outstanding packets. -/
theorem SendLog.outstanding_receive_ack (w : SendLog) {socketPkt : Pkt}
    (h : socketPkt.type = ptypeAck) :
    (w.receive (some socketPkt)).outstanding = unacked (socketPkt.seqnum - 1) w.outstanding := by
  rw [SendLog.receive, if_pos h, SendLog.outstanding_ack]
  exact (List.suffix_iff_eq_drop.mp (unacked_suffix _ w.outstanding)).symm

/-- A NACK sends the packet before the number it carries, if that is in the window. -/
theorem socketCase_nack [Zlib] (env : SenderEnv) {st : SenderState} {w : SendLog}
    (hr : Refines st w) {socketPkt : Pkt} (htr : socketPkt.tr ≠ 1)
    (htype : socketPkt.type = ptypeNack) :
    ∃ t, socketCase env st socketPkt = .ok t ∧ t.stop = none ∧ Refines t.state w ∧
      t.state.startingTimestamp = st.startingTimestamp ∧
      t.sent = ((w.outstanding[distance (UInt8.ofNat w.acked) (socketPkt.seqnum - 1)]?).map
        fun pkt => (pkt.restamp (env.now .nack st)).wire).toList := by
  obtain ⟨l, hl, hsame⟩ := hr.holds
  have hc := w.outstanding_consecutive.congr hsame.seqnums
  have hq := hsame.queued w.outstanding_queued
  rw [socketCase_of_nack env st htype htr]
  by_cases hlt : distance (UInt8.ofNat w.acked) (socketPkt.seqnum - 1) < l.length
  · obtain ⟨buf, window', lg, hholds, hrun⟩ := nackCase_held env hl hc hq hlt
    have hpkt := List.getElem?_eq_getElem hlt
    obtain ⟨pkt₀, ts, hpkt₀, heq⟩ := hsame.getElem? hpkt
    refine ⟨_, hrun, rfl, ⟨⟨_, hholds, ?_⟩, hr.count, hr.seqnum, ?_⟩, rfl, ?_⟩
    · exact hsame.trans (sameButTimestamp_set hpkt _)
    · -- the window size is halved, down to one
      have hsize := hr.windowSize
      dsimp only
      split
      · decide
      · rw [UInt8.toNat_div]
        exact Nat.le_trans (Nat.div_le_self _ _) hsize
    · rw [hpkt₀, heq]
      rfl
  · -- any other number is ignored
    have hnone : w.outstanding[distance (UInt8.ofNat w.acked) (socketPkt.seqnum - 1)]? = none := by
      rw [List.getElem?_eq_none_iff, hsame.length_eq]
      exact Nat.le_of_not_lt hlt
    rw [nackCase_ignored env hl hc (Nat.le_of_not_lt hlt), hnone]
    exact ⟨_, rfl, rfl, ⟨hr.holds, hr.count, hr.seqnum, hr.windowSize⟩, rfl, rfl⟩

/-- The switch on the reply, as a step on the log. -/
theorem socketCase_spec [Zlib] (env : SenderEnv) {st : SenderState} {w : SendLog}
    (hr : Refines st w) {socketPkt : Pkt} (htr : socketPkt.tr ≠ 1) :
    ∃ t, socketCase env st socketPkt = .ok t ∧ t.stop = none ∧
      Refines t.state (w.receive (some socketPkt)) ∧
      t.state.startingTimestamp = st.startingTimestamp ∧
      ∀ d ∈ t.sent, w.Transmits env st d := by
  obtain ⟨l, hl, hsame⟩ := hr.holds
  by_cases hack : socketPkt.type = ptypeAck
  · obtain ⟨window', lg, hrun, hholds⟩ := ackCase_spec env hl socketPkt (socketPkt.seqnum - 1)
    rw [← socketCase_ack env st hack htr] at hrun
    obtain ⟨hlength, hsame'⟩ := unacked_same (s := socketPkt.seqnum - 1) hsame
    refine ⟨_, hrun, rfl, ⟨⟨_, hholds, ?_⟩, ?_, ?_, ?_⟩, rfl,
      fun d hd => absurd hd List.not_mem_nil⟩
    · rwa [w.outstanding_receive_ack hack]
    · -- at most what is outstanding is subtracted, so the 8-bit count does not wrap
      have hle := unacked_length_le (socketPkt.seqnum - 1) w.outstanding
      have hcount := hr.count
      have hmax := w.outstanding_length_le
      rw [w.outstanding_receive_ack hack, hlength, ← hsame.length_eq, UInt8.toNat_sub,
        UInt8.toNat_ofNat']
      omega
    · rw [SendLog.receive_log]
      exact hr.seqnum
    · -- the advertised window is a 5-bit field
      have hwindow := socketPkt.window.isLt
      rw [UInt8.toNat_ofNat']
      omega
  · -- only an ACK moves the log
    rw [w.receive_of_not_ack hack]
    by_cases hisdata : socketPkt.type = ptypeData
    · have hcase : socketCase env st socketPkt = .ok { state := { st with
          senderLogger := st.senderLogger.addPacketDuplicated.addDataReceived } } := by
        simp only [socketCase, if_pos htr, if_pos hisdata]
      exact ⟨_, hcase, rfl, ⟨hr.holds, hr.count, hr.seqnum, hr.windowSize⟩, rfl,
        fun d hd => absurd hd List.not_mem_nil⟩
    · by_cases hisnack : socketPkt.type = ptypeNack
      · obtain ⟨t, hrun, hgo, href, hstart, hsent⟩ := socketCase_nack env hr htr hisnack
        refine ⟨t, hrun, hgo, href, hstart, fun d hd => ?_⟩
        rw [hsent, Option.mem_toList, Option.map_eq_some_iff] at hd
        obtain ⟨pkt, hpkt, rfl⟩ := hd
        exact SendLog.transmits_of_mem hpkt env .nack st
      · have hcase : socketCase env st socketPkt = .ok { state := st } := by
          simp only [socketCase, if_pos htr, if_neg hisdata, if_neg hack, if_neg hisnack]
        exact ⟨_, hcase, rfl, hr, rfl, fun d hd => absurd hd List.not_mem_nil⟩

/-- What `nb` is after the socket block. -/
def SenderEnv.socketNb (env : SenderEnv) (nb : Int) : Int :=
  match env.socket with
  | none => nb
  | some r => r.nb 12

/-- A reply that is accepted goes to the switch. -/
theorem socketBranch_of_reply [Zlib] {env : SenderEnv} {st : SenderState} {q : Pkt}
    (hreply : env.reply st.pktBuffer = some q) :
    ∃ buf, socketBranch env st =
        socketCase env { st with nb := env.socketNb st.nb, pktBuffer := buf } q ∧
      q.tr ≠ 1 := by
  cases hsocket : env.socket with
  | none => exact absurd hreply (by simp [SenderEnv.reply, hsocket])
  | some r =>
      obtain ⟨status, socketPkt, hdec, -⟩ :=
        pktDecode_total (r.fill 12 st.pktBuffer) (show 12 ≤ 528 by decide) (env.fresh .socket)
      simp only [SenderEnv.reply, hsocket, hdec] at hreply
      by_cases hok : status = .pktOk ∧ socketPkt.tr ≠ 1
      · rw [if_pos hok, Option.some.injEq] at hreply
        subst hreply
        refine ⟨r.fill 12 st.pktBuffer, ?_, hok.2⟩
        simp only [socketBranch, hsocket, hdec, ok_bind, if_pos hok.1, SenderEnv.socketNb]
      · rw [if_neg hok] at hreply
        exact absurd hreply (by simp)

/-- Anything else leaves the window alone. -/
theorem socketBranch_of_none [Zlib] {env : SenderEnv} {st : SenderState}
    (hreply : env.reply st.pktBuffer = none) :
    ∃ buf senderLogger', socketBranch env st = .ok { state := { st with
      nb := env.socketNb st.nb
      pktBuffer := buf
      senderLogger := senderLogger' } } := by
  cases hsocket : env.socket with
  | none =>
      exact ⟨st.pktBuffer, st.senderLogger, by simp only [socketBranch, hsocket, SenderEnv.socketNb]⟩
  | some r =>
      obtain ⟨status, socketPkt, hdec, -⟩ :=
        pktDecode_total (r.fill 12 st.pktBuffer) (show 12 ≤ 528 by decide) (env.fresh .socket)
      simp only [SenderEnv.reply, hsocket, hdec] at hreply
      simp only [socketBranch, hsocket, hdec, ok_bind, SenderEnv.socketNb]
      by_cases hok : status = .pktOk
      · -- decoded, so it was dropped for its TR
        have htr : ¬ socketPkt.tr ≠ 1 := by
          intro htr
          rw [if_pos ⟨hok, htr⟩] at hreply
          exact absurd hreply (by simp)
        rw [if_pos hok, socketCase, if_neg htr]
        exact ⟨_, _, rfl⟩
      · rw [if_neg hok]
        exact ⟨_, _, rfl⟩

/-- The socket block takes whatever arrives, of any content. -/
theorem socketBranch_spec [Zlib] (env : SenderEnv) {st : SenderState} {w : SendLog}
    (hr : Refines st w) :
    ∃ t, socketBranch env st = .ok t ∧ t.stop = none ∧
      Refines t.state (w.receive (env.reply st.pktBuffer)) ∧
      t.state.startingTimestamp = st.startingTimestamp ∧
      ∀ d ∈ t.sent, w.Transmits env st d := by
  cases hreply : env.reply st.pktBuffer with
  | none =>
      obtain ⟨buf, lg, hrun⟩ := socketBranch_of_none hreply
      exact ⟨_, hrun, rfl, ⟨hr.holds, hr.count, hr.seqnum, hr.windowSize⟩, rfl,
        fun d hd => absurd hd List.not_mem_nil⟩
  | some q =>
      obtain ⟨buf, hrun, htr⟩ := socketBranch_of_reply hreply
      have hread : Refines { st with nb := env.socketNb st.nb, pktBuffer := buf } w :=
        ⟨hr.holds, hr.count, hr.seqnum, hr.windowSize⟩
      rw [hrun]
      exact socketCase_spec env hread htr

/-! ## Check RT and the end of the transfer -/

theorem checkRt_refines [Zlib] (env : SenderEnv) {st : SenderState} {w : SendLog}
    (hr : Refines st w) :
    ∃ t, checkRt env st = .ok t ∧ t.stop = none ∧ Refines t.state w ∧
      (t.state.nb = st.nb ∧ t.state.sendingWindowSize = st.sendingWindowSize) ∧
      t.state.startingTimestamp = st.startingTimestamp ∧
      ∀ d ∈ t.sent, w.Transmits env st d := by
  obtain ⟨l, hl, hsame⟩ := hr.holds
  obtain ⟨buf, window', lg, hholds, -, hrun⟩ := checkRt_spec env hl
    (w.outstanding_consecutive.congr hsame.seqnums) (hsame.queued w.outstanding_queued)
  refine ⟨_, hrun, rfl, ⟨⟨_, hholds, ?_⟩, hr.count, hr.seqnum, hr.windowSize⟩, ⟨rfl, rfl⟩, rfl,
    fun d hd => ?_⟩
  · exact hsame.trans (rescan_same _ _ _)
  · obtain ⟨j, -, pkt, m, hpkt, rfl⟩ := rescan_sent hd
    obtain ⟨pkt₀, ts', hpkt₀, rfl⟩ := hsame.getElem? hpkt
    exact SendLog.transmits_of_mem hpkt₀ env (.resend m) st

/-- `d` is an empty DATA packet, sent after everything was acknowledged. -/
def SendLog.Closes [Zlib] (w : SendLog) (d : Bytes) : Prop :=
  w.outstanding = [] ∧
    ∃ pkt window ts, Pkt.Built pkt window (UInt8.ofNat w.log.length) [] ts ∧ d = pkt.wire

theorem Pkt.Built.encode_empty [Zlib] {pkt : Pkt} {window : BitVec 5} {seqnum : UInt8}
    {ts : UInt32} (h : pkt.Built window seqnum [] ts) (buf : Mem) :
    ∃ buf', pktEncode pkt buf pktBufferSize = .ok (.pktOk, buf', pkt.wire.length) ∧
      buf'.slice 0 pkt.wire.length = pkt.wire := by
  have hlen : pkt.length.toNat = 0 := h.length
  refine pktEncode_wire ⟨by omega, fun hd => absurd h.type hd⟩ buf (by decide) ?_
  rw [pkt.wire_length_eq_size, Pkt.size, if_pos h.type, hlen]
  split <;> decide

/-- At the end of the transfer the empty packet is sent. -/
theorem closeBranch_closes [Zlib] (env : SenderEnv) {st : SenderState}
    (hsize : st.sendingWindowSize.toNat ≤ 31) (hend : st.nb = 0 ∧ st.pktInWindow = 0) :
    ∃ (t : SenderTurn) (pkt : Pkt), closeBranch env st = .ok t ∧ t.stop = some .closed ∧
      t.state.window = st.window ∧ t.state.sendingWindowSize = st.sendingWindowSize ∧
      t.state.seqnum = st.seqnum ∧
      pkt.Built (BitVec.ofNat 5 st.sendingWindowSize.toNat) st.seqnum [] (env.now .close st) ∧
      t.sent = [pkt.wire] := by
  have hempty : ([] : Bytes).length ≤ 512 := Nat.zero_le _
  have hbuilt := buildPkt_built (env.fresh .close) hsize st.seqnum hempty (env.now .close st)
  obtain ⟨buf, henc, hbuf⟩ := hbuilt.encode_empty st.pktBuffer
  have hzero : ((([] : Bytes).length : Nat) : Int) = 0 := rfl
  rw [hzero] at hbuilt henc hbuf
  simp only [closeBranch, if_pos hend, henc, ok_bind, ne_eq, not_true_eq_false, if_false, hbuf]
  exact ⟨_, _, rfl, rfl, rfl, rfl, rfl, hbuilt, rfl⟩

/-- `d` is the empty packet with the window size and the number of the loop and the time
    read for it. -/
def SenderTurn.ClosesWith [Zlib] (t : SenderTurn) (env : SenderEnv) (st : SenderState)
    (d : Bytes) : Prop :=
  ∃ pkt : Pkt, pkt.Built (BitVec.ofNat 5 t.state.sendingWindowSize.toNat) t.state.seqnum []
    (env.now .close st) ∧ d = pkt.wire

theorem closeBranch_spec [Zlib] (env : SenderEnv) {st : SenderState} {w : SendLog}
    (hr : Refines st w) :
    ∃ t, closeBranch env st = .ok t ∧ t.state.window = st.window ∧
      (t.stop = none → Refines t.state w) ∧
      ∀ d ∈ t.sent, w.Closes d ∧ t.stop = some .closed ∧ t.ClosesWith env st d := by
  by_cases hend : st.nb = 0 ∧ st.pktInWindow = 0
  · obtain ⟨t, pkt, hrun, hstop, hwindow, hsize, hseq, hbuilt, hsent⟩ :=
      closeBranch_closes env hr.windowSize hend
    have hnil : w.outstanding = [] := by
      have hcount := hr.count
      rw [hend.2] at hcount
      exact List.eq_nil_of_length_eq_zero hcount.symm
    refine ⟨t, hrun, hwindow, fun h => absurd (h.symm.trans hstop) (by simp), fun d hd => ?_⟩
    rw [hsent, List.mem_singleton] at hd
    refine ⟨⟨hnil, pkt, _, _, hr.seqnum ▸ hbuilt, hd⟩, hstop, pkt, ?_, hd⟩
    rw [hsize, hseq]
    exact hbuilt
  · refine ⟨{ state := st }, by rw [closeBranch, if_neg hend], rfl, fun _ => hr, fun d hd => ?_⟩
    exact absurd hd List.not_mem_nil

/-! ## A turn of the loop -/

/-- What the input block sends is outstanding. -/
theorem SendLog.Input.transmits [Zlib] {w w' : SendLog} {env : SenderEnv} {st : SenderState}
    {t : SenderTurn} {built : List Pkt} (h : w.Input env st t w' built)
    (hfields : ∀ pkt ∈ built, env.Builds st pkt) : ∀ d ∈ t.sent, w'.Transmits env st d := by
  intro d hd
  rw [h.sent, List.mem_map] at hd
  obtain ⟨pkt, hpkt, rfl⟩ := hd
  obtain ⟨j, hj, rfl⟩ := List.getElem_of_mem hpkt
  have hle := w.acked_le
  have hacked := h.acked
  refine ⟨w.log.length + j, built[j], .build, by omega, ?_, ?_⟩
  · rw [h.log, List.getElem?_append_right (Nat.le_add_right _ _), Nat.add_sub_cancel_left,
      List.getElem?_eq_getElem hj]
  · rw [← (hfields _ hpkt).timestamp]
    rfl

theorem SenderTurn.andThen_of_stop {t : SenderTurn} (h : t.stop ≠ none)
    (next : SenderState → Exec SenderTurn) : t.andThen next = .ok t := by
  cases hstop : t.stop with
  | none => exact absurd hstop h
  | some reason => simp only [SenderTurn.andThen, hstop]

theorem SenderTurn.andThen_of_go {t t' : SenderTurn} (h : t.stop = none)
    {next : SenderState → Exec SenderTurn} (hnext : next t.state = .ok t') :
    t.andThen next = .ok { t' with sent := t.sent ++ t'.sent } := by
  simp only [SenderTurn.andThen, h, hnext, ok_bind]
  rfl

/-- A turn in which no block returns before the last one. -/
theorem readWriteLoopSender_of_go [Zlib] {env : SenderEnv} {st : SenderState}
    {t₁ t₂ t₃ t₄ : SenderTurn} (hpoll : env.pollFails = false) (h₁ : inputBranch env st = .ok t₁)
    (hgo₁ : t₁.stop = none) (h₂ : socketBranch env t₁.state = .ok t₂) (hgo₂ : t₂.stop = none)
    (h₃ : checkRt env t₂.state = .ok t₃) (hgo₃ : t₃.stop = none)
    (h₄ : closeBranch env t₃.state = .ok t₄) :
    readWriteLoopSender env st =
      .ok { t₄ with sent := t₁.sent ++ t₂.sent ++ t₃.sent ++ t₄.sent } := by
  simp only [readWriteLoopSender, hpoll, Bool.false_eq_true, if_false, h₁, ok_bind]
  rw [SenderTurn.andThen_of_go hgo₁ h₂, ok_bind,
    SenderTurn.andThen_of_go (t := { t₂ with sent := t₁.sent ++ t₂.sent }) hgo₂ h₃, ok_bind,
    SenderTurn.andThen_of_go (t := { t₃ with sent := t₁.sent ++ t₂.sent ++ t₃.sent }) hgo₃ h₄]

/-- A turn as a step on the log `w`: it builds the packets `built` from what it reads,
    which makes `w'`, and then takes `reply`; it sends outstanding packets and, when
    it ends the transfer, the empty one. -/
structure SendLog.Turn [Zlib] (w : SendLog) (env : SenderEnv) (st : SenderState) (t : SenderTurn)
    (w' : SendLog) (built : List Pkt) (reply : Option Pkt) : Prop where
  acked : w'.acked = w.acked
  log : w'.log = w.log ++ built
  read : built.map Pkt.data = env.chunkRead st
  received : reply = env.heard st
  holds : ∃ l, t.state.window.Holds l ∧ SameButTimestamp (w'.receive reply).outstanding l
  refines : t.stop = none → Refines t.state (w'.receive reply)
  sent : ∃ copies closing, t.sent = copies ++ closing ∧
    (∀ d ∈ copies, w'.Transmits env st d) ∧
    ∀ d ∈ closing, (w'.receive reply).Closes d ∧ t.stop = some .closed ∧ t.ClosesWith env st d

/-- The new packets a turn hands to `send`. -/
def SenderEnv.newSent [Zlib] (env : SenderEnv) (st : SenderState) : List Bytes :=
  if env.pollFails then []
  else
    match inputBranch env st with
    | .ok t => t.sent
    | .error _ => []

/-- `built` are the packets a turn makes of what it reads and sends. -/
structure SenderEnv.Makes [Zlib] (env : SenderEnv) (st : SenderState) (built : List Pkt) : Prop where
  sent : env.newSent st = built.map Pkt.wire
  fields : ∀ pkt ∈ built, env.Builds st pkt

/-- Every turn is such a step, whatever arrives; none runs into undefined behaviour. -/
theorem readWriteLoopSender_spec [Zlib] {env : SenderEnv} {st : SenderState} {w : SendLog}
    (hr : Refines st w) (hin : env.inputRead st ≠ some .error) :
    ∃ t w' built reply, readWriteLoopSender env st = .ok t ∧ w.Turn env st t w' built reply ∧
      env.Makes st built := by
  cases hpoll : env.pollFails with
  | true =>
      refine ⟨{ state := st, stop := some .poll }, w, [], none, ?_, ⟨rfl,
        (List.append_nil _).symm, ?_, ?_, hr.holds, fun h => absurd h (by simp), ?_⟩,
        ⟨by simp [SenderEnv.newSent, hpoll], fun _ hp => absurd hp List.not_mem_nil⟩⟩
      · simp only [readWriteLoopSender, hpoll, if_true]
      · simp [SenderEnv.chunkRead, hpoll]
      · simp only [SenderEnv.heard, hpoll, if_true]
      · exact ⟨[], [], rfl, fun d hd => absurd hd List.not_mem_nil,
          fun d hd => absurd hd List.not_mem_nil⟩
  | false =>
      obtain ⟨t₁, w', built, hrun₁, hinput, -, hfields⟩ := inputBranch_spec hr hpoll hin
      have hmakes : env.Makes st built := by
        refine ⟨?_, hfields⟩
        simp only [SenderEnv.newSent, hpoll, Bool.false_eq_true, if_false, hrun₁]
        exact hinput.sent
      have hnew := hinput.transmits hfields
      have hheard : env.heard st = if t₁.stop = none then env.reply t₁.state.pktBuffer else none := by
        simp only [SenderEnv.heard, hpoll, Bool.false_eq_true, if_false, hrun₁]
      by_cases hstop : t₁.stop = none
      · -- the other three blocks follow, each from the state the one before it leaves
        obtain ⟨t₂, hrun₂, hgo₂, href₂, hstart₂, hsent₂⟩ :=
          socketBranch_spec env (hinput.refines hstop)
        obtain ⟨t₃, hrun₃, hgo₃, href₃, -, hstart₃, hsent₃⟩ := checkRt_refines env href₂
        obtain ⟨t₄, hrun₄, hwindow₄, href₄, hsent₄⟩ := closeBranch_spec env href₃
        rw [hinput.start] at hstart₂
        rw [hstart₂] at hstart₃
        refine ⟨{ t₄ with sent := t₁.sent ++ t₂.sent ++ t₃.sent ++ t₄.sent }, w', built, _, ?_,
          ⟨hinput.acked, hinput.log, hinput.read, ?_, ?_, href₄, t₁.sent ++ t₂.sent ++ t₃.sent,
            t₄.sent, rfl, ?_, fun d hd => ?_⟩, hmakes⟩
        · exact readWriteLoopSender_of_go hpoll hrun₁ hstop hrun₂ hgo₂ hrun₃ hgo₃ hrun₄
        · rw [hheard, if_pos hstop]
        · dsimp only
          rw [hwindow₄]
          exact href₃.holds
        · intro d hd
          simp only [List.mem_append] at hd
          rcases hd with (hd | hd) | hd
          · exact hnew d hd
          · exact (hsent₂ d hd).congr hinput.start
          · -- outstanding after the reply, so outstanding before it
            obtain ⟨k, pkt, site, hk, hpkt, rfl⟩ := (hsent₃ d hd).congr hstart₂
            refine ⟨k, pkt, site, Nat.le_trans (w'.acked_le_receive _) hk, ?_, rfl⟩
            rwa [SendLog.receive_log] at hpkt
        · obtain ⟨hcloses, hclosed, pkt, hbuilt, hd⟩ := hsent₄ d hd
          refine ⟨hcloses, hclosed, pkt, ?_, hd⟩
          rw [SenderEnv.now, hstart₃] at hbuilt
          exact hbuilt
      · -- the turn ends with the input
        refine ⟨t₁, w', built, none, ?_, ⟨hinput.acked, hinput.log, hinput.read, ?_, hinput.holds,
          fun h => absurd h hstop, t₁.sent, [], (List.append_nil _).symm, hnew,
          fun d hd => absurd hd List.not_mem_nil⟩, hmakes⟩
        · simp only [readWriteLoopSender, hpoll, Bool.false_eq_true, if_false, hrun₁, ok_bind,
            SenderTurn.andThen_of_stop hstop]
        · rw [hheard, if_neg hstop]

end SelectiveRepeat
