/-
  SelectiveRepeat.Receiver.Drain

  The two blocks of the receiver that do the work: the reply it sends, and the loop
  that hands on the packets of the window that follow the one just written.  The
  loop is described for any results of `write`: it writes the run of non-empty
  packets stored from the next place on, and it ends at the first place that is
  free or holds an empty packet, or at a write that returns 0.
-/
import SelectiveRepeat.Lib.Reassembly
import SelectiveRepeat.Receiver.Loop
import SelectiveRepeat.Segment.RoundTrip

namespace SelectiveRepeat

open Reassembly

/-! ## The reply -/

/-- A packet as `build_ack` leaves it. -/
structure Pkt.Reply (pkt : Pkt) (type : BitVec 2) (seqnum : UInt8) (timestamp : UInt32) : Prop where
  type : pkt.type = type
  tr : pkt.tr = 0
  window : pkt.window = 31
  length : pkt.length = 0
  seqnum : pkt.seqnum = seqnum
  timestamp : pkt.timestamp = timestamp

theorem buildAck_reply (fresh : Pkt) (timestamp : UInt32) (seqnum : UInt8) {type : UInt32}
    (htype : type ≠ 0) :
    (buildAck fresh timestamp seqnum type).Reply (BitVec.ofNat 2 type.toNat) seqnum timestamp := by
  have hset : (pktSetType fresh type).2 = { fresh with type := BitVec.ofNat 2 type.toNat } := by
    rw [pktSetType, if_neg htype]
  have hwindow (pkt : Pkt) : (pktSetWindow pkt (UInt8.ofNat MAX_WINDOW_SIZE)).2 =
      { pkt with window := 31 } := rfl
  have hlength (pkt : Pkt) : (pktSetLength pkt 0).2 = { pkt with length := 0 } := by
    rw [pktSetLength_of_le (by decide)]
  have heq : buildAck fresh timestamp seqnum type =
      { type := BitVec.ofNat 2 type.toNat
        tr := 0
        window := 31
        length := 0
        seqnum := seqnum
        timestamp := timestamp
        crc1 := fresh.crc1
        payload := fresh.payload
        crc2 := fresh.crc2 } := by
    simp only [buildAck, hset, pktSetTr_zero, hwindow, hlength, pktSetSeqnum, pktSetTimestamp]
  rw [heq]
  exact ⟨rfl, rfl, rfl, rfl, rfl, rfl⟩

theorem Pkt.Reply.sized {pkt : Pkt} {type : BitVec 2} {seqnum : UInt8} {timestamp : UInt32}
    (h : pkt.Reply type seqnum timestamp) : pkt.Sized :=
  ⟨by rw [h.length]; decide, fun _ => h.length⟩

theorem Pkt.Reply.wire_length [Zlib] {pkt : Pkt} {type : BitVec 2} {seqnum : UInt8}
    {timestamp : UInt32} (h : pkt.Reply type seqnum timestamp) (htype : type ≠ ptypeData) :
    pkt.wire.length = 10 := by
  have hne : pkt.type ≠ ptypeData := by rwa [h.type]
  rw [pkt.wire_length_eq_size, Pkt.size, if_neg hne, h.length, if_neg (fun hc => by simp at hc)]

/-- The reply carries the expected number; a `send` that returns 0 ends the loop. -/
theorem sendReply_spec [Zlib] (env : ReceiverEnv) {st : ReceiverState} (hsize : st.ackSize = 10)
    (written : List (Bytes × Int)) (timestamp : UInt32) {type : UInt32} (htype : type ≠ 0)
    (hdata : BitVec.ofNat 2 type.toNat ≠ ptypeData) (count : Logger → Logger) :
    ∃ (pkt : Pkt) (buffer : Mem), pkt.Reply (BitVec.ofNat 2 type.toNat) st.waitedSeqnum timestamp ∧
      sendReply env st written timestamp type count = .ok (
        if env.send = 0 then
          { state := { st with buffer := buffer, ackSize := 10 }
            stop := some .send, written := written, sent := [pkt.wire] }
        else
          { state := { st with
              buffer := buffer, ackSize := 10, receiverLogger := count st.receiverLogger }
            written := written, sent := [pkt.wire] }) := by
  have hreply := buildAck_reply env.fresh timestamp st.waitedSeqnum htype
  have hlen := hreply.wire_length hdata
  obtain ⟨buffer, henc, hbuf⟩ := pktEncode_wire hreply.sized st.buffer
    (show st.ackSize < 2 ^ 31 by rw [hsize]; decide) (by rw [hlen, hsize])
  rw [hlen] at henc hbuf
  refine ⟨_, buffer, hreply, ?_⟩
  simp only [sendReply, henc, ok_bind, hbuf]
  split <;> rfl

/-! ## The loop that empties the window -/

/-- The cells with everything up to `k` gone. -/
def above (cells : Nat → Option Pstl) (k : Nat) : Nat → Option Pstl :=
  fun i => if i ≤ k then none else cells i

theorem above_le (cells : Nat → Option Pstl) {k i : Nat} (h : i ≤ k) : above cells k i = none :=
  if_pos h

theorem above_gt (cells : Nat → Option Pstl) {k i : Nat} (h : k < i) :
    above cells k i = cells i :=
  if_neg (Nat.not_le.mpr h)

theorem above_succ (cells : Nat → Option Pstl) (k : Nat) :
    above cells (k + 1) = Function.update (above cells k) (k + 1) none := by
  funext i
  by_cases hi : i = k + 1
  · rw [hi, Function.update_self, above_le _ (Nat.le_refl _)]
  · rw [Function.update_of_ne hi]
    by_cases hle : i ≤ k
    · rw [above_le _ hle, above_le _ (Nat.le_succ_of_le hle)]
    · rw [above_gt _ (Nat.lt_of_not_le hle), above_gt _ (by omega)]

/-- What a stored packet may look like: its number says where it is stored, and its
    length is legal. -/
structure Placed (cells : Nat → Option Pstl) (waited : UInt8) : Prop where
  seqnum : ∀ i elem, cells i = some elem → elem.seqnum = waited + UInt8.ofNat i
  length_le : ∀ i elem, cells i = some elem → elem.length.toNat ≤ 512
  bound : ∀ i, 31 ≤ i → cells i = none

theorem readPstl_of_le {elem : Pstl} (h : elem.length.toNat ≤ 512) :
    readPstl elem = .ok elem.data :=
  if_neg (Nat.not_lt.mpr h)

/-- The writes of `payloads`, from the `n`-th of the turn on, with their results. -/
def ReceiverEnv.writes (env : ReceiverEnv) : Nat → List Bytes → List (Bytes × Int)
  | _, [] => []
  | n, payload :: payloads => (payload, env.write n payload) :: env.writes (n + 1) payloads

theorem ReceiverEnv.writes_length (env : ReceiverEnv) (n : Nat) (payloads : List Bytes) :
    (env.writes n payloads).length = payloads.length := by
  induction payloads generalizing n with
  | nil => rfl
  | cons payload payloads ih =>
      rw [ReceiverEnv.writes, List.length_cons, List.length_cons, ih]

theorem ReceiverEnv.writes_fst (env : ReceiverEnv) (n : Nat) (payloads : List Bytes) :
    (env.writes n payloads).map Prod.fst = payloads := by
  induction payloads generalizing n with
  | nil => rfl
  | cons payload payloads ih => rw [ReceiverEnv.writes, List.map_cons, ih]

/-- How the loop can end after the run `elems` from place `k + 1` on. -/
inductive DrainEnd (env : ReceiverEnv) (cells : Nat → Option Pstl) (s : DrainState) (k : Nat)
    (elems : List Pstl) : DrainState → Option ReceiverStop → Prop where
  | gap {s' : DrainState} (hgap : cells (k + elems.length + 1) = none)
      (hcells : s'.window.cells = above cells (k + elems.length)) (hcounted : s'.window.Counted)
      (hwaited : s'.waitedSeqnum = s.waitedSeqnum + UInt8.ofNat elems.length)
      (hwritten : s'.written = s.written ++ env.writes s.written.length (elems.map Pstl.data))
      (hreceive : s'.receivePkt = s.receivePkt + UInt64.ofNat elems.length) :
      DrainEnd env cells s k elems s' none
  | disconnect {s' : DrainState} {elem : Pstl}
      (hempty : cells (k + elems.length + 1) = some elem) (hlength : elem.length = 0)
      (hcells : s'.window.cells = above cells (k + elems.length))
      (hwaited : s'.waitedSeqnum = s.waitedSeqnum + UInt8.ofNat elems.length)
      (hwritten : s'.written = s.written ++ env.writes s.written.length (elems.map Pstl.data)) :
      DrainEnd env cells s k elems s' (some .storedDisconnect)
  | write {s' : DrainState} {elem : Pstl}
      (hnext : cells (k + elems.length + 1) = some elem) (hlength : elem.length ≠ 0)
      (hfail : env.write (s.written.length + elems.length) elem.data = 0)
      (hwaited : s'.waitedSeqnum = s.waitedSeqnum + UInt8.ofNat elems.length)
      (hwritten : s'.written =
        s.written ++ env.writes s.written.length (elems.map Pstl.data) ++ [(elem.data, 0)]) :
      DrainEnd env cells s k elems s' (some .write)

/-- The end of the loop after one more packet. -/
theorem DrainEnd.cons {env : ReceiverEnv} {cells : Nat → Option Pstl} {s s₁ s' : DrainState}
    {k : Nat} {elem : Pstl} {elems : List Pstl} {stop : Option ReceiverStop}
    (h : DrainEnd env cells s₁ (k + 1) elems s' stop)
    (hwaited₁ : s₁.waitedSeqnum = s.waitedSeqnum + 1)
    (hreceive₁ : s₁.receivePkt = s.receivePkt + 1)
    (hwritten₁ : s₁.written = s.written ++ [(elem.data, env.write s.written.length elem.data)]) :
    DrainEnd env cells s k (elem :: elems) s' stop := by
  -- the same place, number and writes, counted from `k` instead of `k + 1`
  have hplace : k + 1 + elems.length = k + (elem :: elems).length := by
    rw [List.length_cons]
    omega
  have hlen₁ : s₁.written.length = s.written.length + 1 := by
    rw [hwritten₁, List.length_append, List.length_singleton]
  have hnum : s₁.waitedSeqnum + UInt8.ofNat elems.length =
      s.waitedSeqnum + UInt8.ofNat (elem :: elems).length := by
    rw [hwaited₁, List.length_cons, Nat.add_comm, add_ofNat_one_add]
  have hout : s₁.written ++ env.writes s₁.written.length (elems.map Pstl.data) =
      s.written ++ env.writes s.written.length ((elem :: elems).map Pstl.data) := by
    rw [hlen₁, hwritten₁, List.append_assoc, List.singleton_append]
    rfl
  cases h with
  | gap hgap hcells hcounted hwaited hwritten hreceive =>
      rw [hplace] at hgap hcells
      apply DrainEnd.gap hgap hcells hcounted (hwaited.trans hnum) (hwritten.trans hout)
      rw [hreceive, hreceive₁, List.length_cons, UInt64.ofNat_add,
        show UInt64.ofNat 1 = 1 from rfl]
      grind
  | disconnect hempty hlength hcells hwaited hwritten =>
      rw [hplace] at hempty hcells
      exact .disconnect hempty hlength hcells (hwaited.trans hnum) (hwritten.trans hout)
  | write hnext hlength hfail hwaited hwritten =>
      rw [hplace] at hnext
      refine .write hnext hlength ?_ (hwaited.trans hnum) ?_
      · rw [List.length_cons]
        rwa [hlen₁, show s.written.length + 1 + elems.length =
          s.written.length + (elems.length + 1) by omega] at hfail
      · rw [hwritten, hout]

/-- What `peek` finds: the first packet behind place `k`. -/
theorem exists_next {cells : Nat → Option Pstl} {list : SortedList} {k : Nat}
    (hcells : list.cells = above cells k) (hcounted : list.Counted)
    (hsome : ¬ list.isEmpty = true) :
    ∃ j elem, k < j ∧ j < 31 ∧ cells j = some elem ∧ list.cells j = some elem ∧
      ∀ i < j, list.cells i = none := by
  -- `is_empty` looks at the count only, which is right about the cells
  have hocc : Slots.occupied list.cells 31 ≠ 0 := by
    intro hz
    apply hsome
    apply hcounted.isEmpty.mpr
    intro i
    by_cases hi : i < 31
    · exact Slots.occupied_eq_zero.mp hz i hi
    · exact list.cells_of_ge (Nat.le_of_not_lt hi)
  -- the places up to `k` are done with, so the first packet left comes after them
  have hlow : ∀ i < k + 1, list.cells i = none := by
    intro i hi
    rw [hcells, above_le _ (Nat.le_of_lt_succ hi)]
  obtain ⟨j, elem, hkj, hj31, hj, hbefore⟩ := Slots.exists_first hlow hocc
  have horig : cells j = some elem := by
    rw [← above_gt cells (show k < j by omega), ← hcells]
    exact hj
  exact ⟨j, elem, hkj, hj31, horig, hj, hbefore⟩

/-- `pop` takes out the packet at place `k + 1`, where `peek` has left `ptr`. -/
theorem pop_next {cells : Nat → Option Pstl} {list : SortedList} {k : Nat}
    (hcells : list.cells = above cells k) (hcounted : list.Counted) (hk : k + 1 < 31)
    {elem : Pstl} (helem : cells (k + 1) = some elem) :
    ∃ list', { list with ptr := UInt8.ofNat (k + 1) }.pop = .ok list' ∧
      list'.cells = above cells (k + 1) ∧ list'.Counted ∧ list'.ptr.toNat ≤ k + 1 + 1 ∧
      Slots.occupied (above cells (k + 1)) 31 < Slots.occupied (above cells k) 31 := by
  have hptr : (UInt8.ofNat (k + 1)).toNat = k + 1 := by
    rw [UInt8.toNat_ofNat']
    omega
  have habove : above cells k (k + 1) = some elem := by
    rw [above_gt _ (Nat.lt_succ_self k)]
    exact helem
  have hj : list.cells (k + 1) = some elem := by
    rw [hcells]
    exact habove
  obtain ⟨list', hpop, hcells', hcounted', hptr'⟩ :=
    @SortedList.pop_spec { list with ptr := UInt8.ofNat (k + 1) } hcounted (k + 1) elem hj hptr
  refine ⟨list', hpop, ?_, hcounted', ?_, ?_⟩
  · rw [hcells', above_succ, ← hcells]
    rfl
  · rw [hptr']
    exact Nat.le_succ_of_le (Nat.le_of_eq hptr)
  · have hclear := Slots.occupied_clear hk habove
    rw [above_succ]
    omega

/-- The loop from place `k + 1` on: it terminates, and writes a run of non-empty
    stored packets. -/
theorem drainLoop_spec (env : ReceiverEnv) {cells : Nat → Option Pstl} {waited : UInt8}
    (hplaced : Placed cells waited) {fuel k : Nat} {s : DrainState}
    (hcells : s.window.cells = above cells k) (hcounted : s.window.Counted)
    (hptr : s.window.ptr.toNat ≤ k + 1) (hk : k ≤ 30)
    (hwaited : s.waitedSeqnum = waited + UInt8.ofNat (k + 1))
    (hfuel : Slots.occupied (above cells k) 31 < fuel) :
    ∃ elems s' stop, drainLoop env fuel s = .ok (s', stop) ∧
      Run cells (k + 1) elems ∧ (∀ elem ∈ elems, elem.length ≠ 0) ∧
      DrainEnd env cells s k elems s' stop := by
  -- every pass takes a packet out, so the number of packets left bounds the passes
  induction fuel generalizing k s with
  | zero => exact absurd hfuel (Nat.not_lt_zero _)
  | succ fuel ih =>
      by_cases hempty : s.window.isEmpty = true
      · -- nothing is left
        have hnone := hcounted.isEmpty.mp hempty
        have hend : DrainEnd env cells s k [] s none := by
          refine .gap ?_ hcells hcounted (by simp) (by simp [ReceiverEnv.writes]) (by simp)
          rw [List.length_nil, Nat.add_zero, ← above_gt cells (Nat.lt_succ_self k), ← hcells]
          exact hnone (k + 1)
        exact ⟨[], s, none, by simp only [drainLoop, if_pos hempty], trivial,
          fun _ h => absurd h List.not_mem_nil, hend⟩
      · obtain ⟨j, elem, hkj, hj31, horig, hj, hbefore⟩ := exists_next hcells hcounted hempty
        have hpeek := SortedList.peek_of_first hcounted hj hbefore (Nat.le_trans hptr hkj)
        have hseq := hplaced.seqnum j elem horig
        simp only [drainLoop, if_neg hempty, hpeek, ok_bind]
        by_cases hnext : j = k + 1
        · subst hnext
          have hmatch : s.waitedSeqnum = elem.seqnum := hwaited.trans hseq.symm
          rw [if_pos hmatch]
          by_cases hlen : elem.length = 0
          · -- the run ends at an empty packet
            rw [if_pos hlen]
            exact ⟨[], _, _, rfl, trivial, fun _ h => absurd h List.not_mem_nil,
              .disconnect horig hlen hcells (by simp) (by simp [ReceiverEnv.writes])⟩
          · rw [if_neg hlen, readPstl_of_le (hplaced.length_le _ _ horig), ok_bind]
            by_cases hfail : env.write s.written.length elem.data = 0
            · -- the write fails, and the loop returns with the packet still stored
              rw [if_pos hfail]
              exact ⟨[], _, _, rfl, trivial, fun _ h => absurd h List.not_mem_nil,
                .write horig hlen hfail (by simp) (by simp [ReceiverEnv.writes, hfail])⟩
            · -- the packet is written and popped, and the loop goes on behind it
              rw [if_neg hfail]
              obtain ⟨window', hpop, hcells', hcounted', hptr', hocc⟩ :=
                pop_next hcells hcounted hj31 horig
              have hnum : s.waitedSeqnum + 1 = waited + UInt8.ofNat (k + 1 + 1) := by
                rw [hwaited, add_ofNat_succ waited (k + 1)]
              simp only [hpop, ok_bind]
              obtain ⟨elems, s', stop, hrun, hstored, hne, hend⟩ := ih (s := {
                  window := window'
                  waitedSeqnum := s.waitedSeqnum + 1
                  timestampAck := elem.timestamp
                  receivePkt := s.receivePkt + 1
                  written := s.written ++ [(elem.data, env.write s.written.length elem.data)] })
                hcells' hcounted' hptr' (by omega) hnum (by omega)
              refine ⟨elem :: elems, s', stop, hrun, ⟨horig, hstored⟩, ?_,
                hend.cons rfl rfl rfl⟩
              intro e he
              rcases List.mem_cons.mp he with rfl | he
              · exact hlen
              · exact hne e he
        · -- the first stored packet comes later
          have hother : ¬ s.waitedSeqnum = elem.seqnum := by
            rw [hwaited, hseq]
            intro heq
            -- places below 31 are different distances from the number expected
            have hplace := congrArg (distance waited) heq
            rw [distance_add (by omega), distance_add (by omega)] at hplace
            exact hnext hplace.symm
          rw [if_neg hother]
          refine ⟨[], _, none, rfl, trivial, fun _ h => absurd h List.not_mem_nil,
            .gap ?_ hcells hcounted (by simp) (by simp [ReceiverEnv.writes]) (by simp)⟩
          rw [List.length_nil, Nat.add_zero, ← above_gt cells (Nat.lt_succ_self k), ← hcells]
          exact hbefore (k + 1) (by omega)

end SelectiveRepeat
