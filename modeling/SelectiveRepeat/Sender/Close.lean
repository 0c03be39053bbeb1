/-
  SelectiveRepeat.Sender.Close

  When the sender closes the connection.  The end of the input is told by `nb`,
  which is 0 at the start and which the socket block overwrites, and the test is
  made at the end of every turn.  So the loop also closes when nothing was read
  yet, or when the last datagram was empty, if there is nothing in the window.
-/
import SelectiveRepeat.Sender.Acked
import Mathlib.Data.List.TakeWhile

namespace SelectiveRepeat

/-! ## Closing too early -/

/-- The reply is an ACK that `is_higher_or_equal` puts at or behind each of the numbers. -/
def AllAcked (reply : Option Pkt) (numbers : List UInt8) : Prop :=
  ∀ n ∈ numbers, ∃ q, reply = some q ∧ q.type = ptypeAck ∧
    Queue.seqnumHigherOrEqual (q.seqnum - 1).toNat n = true

theorem remaining_eq_nil_iff {reply : Option Pkt} {l : List Pkt} :
    remaining reply l = [] ↔ AllAcked reply (l.map Pkt.seqnum) := by
  rw [AllAcked, List.forall_mem_map]
  cases reply with
  | none => simp [remaining, List.eq_nil_iff_forall_not_mem]
  | some q =>
      by_cases hack : q.type = ptypeAck
      · simp [remaining, hack, unacked, List.dropWhile_eq_nil_iff]
      · simp [remaining, hack, List.eq_nil_iff_forall_not_mem]

/-- The input has not ended and is not read in this turn; `nb` is 0, from an empty datagram
    of this turn or from before; and nothing is in the window, or nothing but packets
    that the ACK found in `pkt_buffer` acknowledges. -/
structure Premature [Zlib] (steps : List SenderStep) (env : SenderEnv) (st : SenderState) :
    Prop where
  unended : ¬ Ended steps
  poll : env.pollFails = false
  unread : env.inputRead st = none
  nb : env.socketNb st.nb = 0
  acked : ∀ l, st.window.Holds l → AllAcked (env.reply st.pktBuffer) (l.map Pkt.seqnum)

section
variable [Zlib] {allowed : List SenderStep → SenderEnv → SenderState → Prop} {st : SenderState}
  {stop : Option SenderStop} {steps : List SenderStep}

/-- When the datagram is empty, `pkt_decode` finds what was in the buffer. -/
theorem SenderEnv.reply_of_empty {env : SenderEnv} {buf : Mem} {q : Pkt}
    (hreply : env.reply buf = some q) {r : ReadResult} (hsocket : env.socket = some r)
    (hnb : r.nb 12 = 0) : q.type = buf.typeField := by
  have hfill : r.fill 12 buf = buf := by
    cases r with
    | error => rfl
    | bytes data =>
        have hnil : data.take 12 = [] := by
          rw [ReadResult.nb, Int.natCast_eq_zero, List.length_eq_zero_iff] at hnb
          exact hnb
        rw [ReadResult.fill, hnil, Mem.blit_nil]
  simp only [SenderEnv.reply, hsocket, hfill] at hreply
  split at hreply
  next status socketPkt hdec =>
    split at hreply
    next hok =>
      cases hreply
      rw [hok.1] at hdec
      obtain ⟨-, -, hpayload⟩ := pktDecode_ok (by decide) hdec
      obtain ⟨payload, crc2, rfl⟩ := decodePayload_keeps hpayload
      rfl
    next => cases hreply
  next => cases hreply

/-- An empty datagram over a new DATA packet acknowledges nothing. -/
theorem SenderEnv.remaining_of_added {env : SenderEnv} {buf : Mem}
    (htype : buf.typeField = ptypeData) {nb : Int} (hzero : env.socketNb nb = 0) (l : List Pkt) :
    remaining (env.reply buf) l = l := by
  cases hreply : env.reply buf with
  | none => rfl
  | some q =>
      have hack : ¬ q.type = ptypeAck := by
        cases hsocket : env.socket with
        | none => exact absurd hreply (by simp [SenderEnv.reply, hsocket])
        | some r =>
            simp only [SenderEnv.socketNb, hsocket] at hzero
            rw [env.reply_of_empty hreply hsocket hzero, htype]
            decide
      rw [remaining, if_neg hack]

/-- The turn that closes the connection leaves an empty window, and it is premature unless
    the input has ended. -/
theorem Counted.closed {l : List Pkt} (h : Counted st l) {env : SenderEnv} {t : SenderTurn}
    (hturn : readWriteLoopSender env st = .ok t) (hstop : t.stop = some .closed) :
    t.state.window.Holds [] ∧
      (Ended (steps ++ [{ env := env, before := st, turn := t }]) ∨ Premature steps env st) := by
  obtain ⟨buf, added, l', st', hthrough⟩ := h.turn hturn (Or.inr hstop)
  obtain ⟨hzero, hcount, hwindow⟩ := hthrough.closes hstop
  -- the count is 0, so the ring is empty
  have hnil : l' = [] := by
    have hlen := hthrough.counted.count
    rw [hcount] at hlen
    exact List.eq_nil_of_length_eq_zero hlen.symm
  subst hnil
  have hleft : remaining (env.reply buf) (l ++ added) = [] :=
    List.eq_nil_of_length_eq_zero hthrough.left.length_eq
  have hnumbers := hthrough.numbers
  rw [hthrough.nb] at hzero
  refine ⟨?_, ?_⟩
  · rw [hwindow]
    exact hthrough.counted.holds
  cases hread : env.inputRead st with
  | none =>
      simp only [SenderEnv.numberAdded, hread, List.map_eq_nil_iff] at hnumbers
      simp only [SenderEnv.inputNb, hread] at hzero
      rw [hnumbers, List.append_nil, hthrough.unchanged hnumbers, remaining_eq_nil_iff] at hleft
      by_cases hended : Ended steps
      · exact Or.inl (ended_append.mpr (Or.inl hended))
      · refine Or.inr ⟨hended, hthrough.poll, hread, hzero, fun l' hl' => ?_⟩
        rwa [hl'.unique h.holds]
  | some r =>
      refine Or.inl (ended_append.mpr (Or.inr ⟨r, hread, ?_⟩))
      by_contra hne
      simp only [SenderEnv.numberAdded, hread, if_neg hne] at hnumbers
      simp only [SenderEnv.inputNb, hread] at hzero
      have hadded : added ≠ [] := by
        rintro rfl
        exact absurd hnumbers (by simp)
      rw [env.remaining_of_added (hthrough.data hadded) hzero, List.append_eq_nil_iff] at hleft
      exact hadded hleft.2

/-- At every loop boundary, and when the connection has been closed, the ring holds its
    packets; then it has none. -/
theorem SenderHistory.holds {stop : Option SenderStop} (h : SenderHistory allowed st stop steps)
    (hstop : stop = none ∨ stop = some .closed) :
    ∃ l, st.window.Holds l ∧ (stop = some .closed → l = []) := by
  rcases hstop with rfl | rfl
  · obtain ⟨l, hl⟩ := h.counted rfl
    exact ⟨l, hl.holds, fun hclosed => absurd hclosed (by simp)⟩
  · generalize hclosed : some SenderStop.closed = stop at h
    cases h with
    | init => cases hclosed
    | @turn before steps env t hbefore _ hturn =>
        obtain ⟨l, hl⟩ := hbefore.counted rfl
        exact ⟨[], (@Counted.closed _ _ steps _ hl _ _ hturn hclosed.symm).1, fun _ => rfl⟩

/-- A premature turn closes the connection before the end of the input, if it does not
    return for another reason. -/
theorem SenderHistory.closes_of_premature (h : SenderHistory allowed st none steps)
    {env : SenderEnv} (hpre : Premature steps env st) {t : SenderTurn}
    (hturn : readWriteLoopSender env st = .ok t) (hstop : t.stop = none ∨ t.stop = some .closed) :
    t.stop = some .closed ∧ ¬ Ended (steps ++ [{ env := env, before := st, turn := t }]) := by
  have hunended : ¬ Ended (steps ++ [{ env := env, before := st, turn := t }]) := by
    rw [ended_append]
    rintro (hended | ⟨r, hread, -⟩)
    · exact hpre.unended hended
    · exact absurd (hread.symm.trans hpre.unread) (by simp)
  refine ⟨?_, hunended⟩
  obtain ⟨l, hl⟩ := h.counted rfl
  obtain ⟨buf, added, l', st', hthrough⟩ := hl.turn hturn hstop
  rcases hstop with hgo | hclosed
  · -- nothing is added, and nothing is left
    have hnumbers := hthrough.numbers
    have hnb := hthrough.nb
    simp only [SenderEnv.numberAdded, SenderEnv.inputNb, hpre.unread, List.map_eq_nil_iff]
      at hnumbers hnb
    have hnil := remaining_eq_nil_iff.mpr (hpre.acked l hl.holds)
    have hlen := hthrough.left.length_eq
    rw [hnumbers, List.append_nil, hthrough.unchanged hnumbers, hnil] at hlen
    refine absurd ⟨hnb.trans hpre.nb, ?_⟩ (hthrough.goes hgo).2
    rw [← UInt8.toNat_inj, hthrough.counted.count, ← hlen]
    rfl
  · exact hclosed

/-- An ACK that goes astray takes out packets although it names none that is there. -/
theorem SenderHistory.takes_of_astray (h : SenderHistory allowed st none steps)
    {env : SenderEnv} (hastray : env.Astray st) {t : SenderTurn}
    (hturn : readWriteLoopSender env st = .ok t) (hstop : t.stop = none ∨ t.stop = some .closed) :
    ∃ l l', st.window.Holds l ∧ t.state.window.Holds l' ∧
      l'.length < l.length + (env.numberAdded st).length := by
  obtain ⟨l, hl⟩ := h.counted rfl
  obtain ⟨buf, added, l', st', hthrough⟩ := hl.turn hturn hstop
  obtain ⟨q, hheard, hack, hnamed⟩ := hastray
  obtain ⟨-, n, hn, hhigher⟩ := hnamed l hl.holds
  have hwindow : t.state.window = st'.window := by
    rcases hstop with hgo | hclosed
    · rw [(hthrough.goes hgo).1]
    · exact (hthrough.closes hclosed).2.2
  refine ⟨l, l', hl.holds, hwindow ▸ hthrough.counted.holds, ?_⟩
  have hlen := hthrough.left.length_eq
  rw [← hthrough.numbers, ← List.map_append] at hn
  rw [hthrough.heard] at hheard
  rw [hheard, remaining, if_pos hack] at hlen
  rw [← hthrough.numbers, List.length_map, ← List.length_append, ← hlen]
  cases hall : l ++ added with
  | nil => exact absurd hn (by simp [hall])
  | cons pkt rest =>
      have hhead : Queue.seqnumHigherOrEqual (q.seqnum - 1).toNat pkt.seqnum = true := by
        rw [hall, List.map_cons, List.head?_cons, Option.mem_some] at hn
        rw [hn]
        exact hhigher
      rw [unacked_cons_of_higher hhead, List.length_cons]
      exact Nat.lt_succ_of_le (unacked_length_le _ _)

end

end SelectiveRepeat
