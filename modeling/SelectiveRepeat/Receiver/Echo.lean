/-
  SelectiveRepeat.Receiver.Echo

  The timestamps of the replies.  An ACK or a NACK carries the timestamp of the
  packet it answers, or that of the last packet the window handed on behind it.  So
  what holds of every timestamp that arrives holds of every timestamp sent back.
-/
import SelectiveRepeat.Receiver.Run

namespace SelectiveRepeat

/-! ## The window -/

/-- `p` holds of the timestamps in the window. -/
def SortedList.Stamped (p : UInt32 → Prop) (list : SortedList) : Prop :=
  ∀ i elem, list.cells i = some elem → p elem.timestamp

section
variable {p : UInt32 → Prop} {list list' : SortedList} {elem : Pstl}

theorem SortedList.Stamped.peek (h : list.Stamped p) (hpeek : list.peek = .ok (some elem, list')) :
    p elem.timestamp ∧ list'.Stamped p := by
  obtain ⟨j, -, hj⟩ := SortedList.peek_some hpeek
  refine ⟨h j elem hj, ?_⟩
  -- `peek` moves the cursor only
  rw [SortedList.peek] at hpeek
  split at hpeek
  · cases hpeek
  · obtain ⟨r, -, hpeek⟩ := exists_ok_of_bind hpeek
    cases hpeek
    exact h

theorem SortedList.Stamped.pop (h : list.Stamped p) (hpop : list.pop = .ok list') :
    list'.Stamped p := by
  rw [SortedList.pop] at hpop
  obtain ⟨cleared, hset, hpop⟩ := exists_ok_of_bind hpop
  cases hpop
  by_cases hptr : list.ptr.toNat < 31
  · obtain ⟨list₁, hset₁, hcells, -⟩ := list.setSlot_eq hptr none
    rw [hset, Except.ok.injEq] at hset₁
    subst hset₁
    intro i elem hi
    have hcell : cleared.cells i = some elem := hi
    rw [hcells] at hcell
    by_cases heq : i = list.ptr.toNat
    · rw [heq, Function.update_self] at hcell
      cases hcell
    · rw [Function.update_of_ne heq] at hcell
      exact h i elem hcell
  · have hout : ¬ (0 ≤ (list.ptr.toNat : Int) ∧ (list.ptr.toNat : Int) < MAX_WINDOW_SIZE) := by
      simp only [MAX_WINDOW_SIZE]
      omega
    rw [SortedList.setSlot, dif_neg hout] at hset
    cases hset

end

/-- The window carries the timestamps of what is known from the gap on. -/
theorem Represents.stamped {st : ReceiverState} {W : Nat} {known : Nat → Option Item}
    (h : Represents st W known) {p : UInt32 → Prop}
    (hp : ∀ k x, W ≤ k → known k = some x → p x.2) :
    st.window.Stamped p := by
  intro i elem hi
  have hcell := h.cells i
  rw [hi] at hcell
  exact hp (W + i) elem.item (Nat.le_add_right W i) hcell.symm

/-- From the gap on, all that is known is in the window. -/
theorem Represents.known_stamped {st : ReceiverState} {W : Nat} {known : Nat → Option Item}
    (h : Represents st W known) {p : UInt32 → Prop} (hwindow : st.window.Stamped p) {k : Nat}
    {x : Item} (hk : W ≤ k) (hx : known k = some x) : p x.2 := by
  have hcell := h.cells (k - W)
  rw [Nat.add_sub_cancel' hk, hx, Option.map_eq_some_iff] at hcell
  obtain ⟨elem, helem, rfl⟩ := hcell
  exact hwindow _ elem helem

/-! ## The replies -/

/-- What is sent are ACKs and NACKs with timestamps of which `p` holds. -/
def Answers [Zlib] (p : UInt32 → Prop) (sent : List Bytes) : Prop :=
  ∀ d ∈ sent, ∃ pkt type seqnum timestamp, (type = ptypeAck ∨ type = ptypeNack) ∧
    Pkt.Reply pkt type seqnum timestamp ∧ p timestamp ∧ d = pkt.wire

section
variable [Zlib] {p : UInt32 → Prop} {env : ReceiverEnv} {st : ReceiverState} {t : ReceiverTurn}

theorem answers_nil : Answers p [] := fun _ hd => absurd hd List.not_mem_nil

theorem sendReply_answers (hsize : st.ackSize = 10) {written : List (Bytes × Int)}
    {timestamp type : UInt32} (hp : p timestamp) (htype : type = 2 ∨ type = 3)
    {count : Logger → Logger} (h : sendReply env st written timestamp type count = .ok t) :
    Answers p t.sent := by
  have hne : type ≠ 0 := by rcases htype with rfl | rfl <;> decide
  have hfield : BitVec.ofNat 2 type.toNat = ptypeAck ∨ BitVec.ofNat 2 type.toNat = ptypeNack := by
    rcases htype with rfl | rfl
    · exact Or.inl rfl
    · exact Or.inr rfl
  have hdata : BitVec.ofNat 2 type.toNat ≠ ptypeData := by
    rcases hfield with hf | hf <;> rw [hf] <;> decide
  obtain ⟨pkt, buffer, hreply, hrun⟩ := sendReply_spec env hsize written timestamp hne hdata count
  rw [h, Except.ok.injEq] at hrun
  have hsent : t.sent = [pkt.wire] := by
    rw [hrun]
    split <;> rfl
  intro d hd
  rw [hsent, List.mem_singleton] at hd
  exact ⟨pkt, _, _, timestamp, hfield, hreply, hp, hd⟩

omit [Zlib] in
/-- The timestamp of the ACK is that of the first packet or of one the loop has taken out. -/
theorem drainLoop_stamped {fuel : Nat} {s s' : DrainState} {stop : Option ReceiverStop}
    (hwindow : s.window.Stamped p) (hp : p s.timestampAck)
    (h : drainLoop env fuel s = .ok (s', stop)) : p s'.timestampAck := by
  induction fuel generalizing s with
  | zero => exact absurd h (by simp [drainLoop])
  | succ fuel ih =>
      simp only [drainLoop] at h
      split at h
      · cases h
        exact hp
      obtain ⟨⟨found, window⟩, hpeek, h⟩ := exists_ok_of_bind h
      cases found with
      | none => cases h
      | some elem =>
          obtain ⟨helem, hpeeked⟩ := hwindow.peek hpeek
          dsimp only at h
          split at h
          case isFalse =>
            cases h
            exact hp
          split at h
          · cases h
            exact hp
          obtain ⟨payload, -, h⟩ := exists_ok_of_bind h
          split at h
          · cases h
            exact hp
          · obtain ⟨popped, hpop, h⟩ := exists_ok_of_bind h
            have hrest : popped.Stamped p := hpeeked.pop hpop
            exact ih hrest helem h

theorem waitedCase_answers (hwindow : st.window.Stamped p) (hsize : st.ackSize = 10)
    (hp : p st.pkt.timestamp) (h : waitedCase env st = .ok t) : Answers p t.sent := by
  simp only [waitedCase] at h
  split at h
  · cases h
    exact answers_nil
  obtain ⟨payload, -, h⟩ := exists_ok_of_bind h
  split at h
  · cases h
    exact answers_nil
  obtain ⟨⟨s, stop⟩, hloop, h⟩ := exists_ok_of_bind h
  cases stop with
  | some reason =>
      cases h
      exact answers_nil
  | none =>
      obtain ⟨window, -, h⟩ := exists_ok_of_bind h
      have hlast := drainLoop_stamped (p := p) hwindow hp hloop
      exact sendReply_answers (by exact hsize) hlast (Or.inl rfl) h

omit [Zlib] in
theorem storeCase_keeps {st' : ReceiverState} {stop : Option ReceiverStop}
    (h : storeCase env st = .ok (st', stop)) : st'.pkt = st.pkt ∧ st'.ackSize = st.ackSize := by
  rw [storeCase] at h
  split at h
  case isFalse =>
    cases h
    exact ⟨rfl, rfl⟩
  obtain ⟨r, -, h⟩ := exists_ok_of_bind h
  dsimp only at h
  split at h
  · cases h
    exact ⟨rfl, rfl⟩
  · split at h
    · cases h
      exact ⟨rfl, rfl⟩
    · cases h
      exact ⟨rfl, rfl⟩

theorem unwaitedCase_answers (hsize : st.ackSize = 10) (hp : p st.pkt.timestamp)
    (h : unwaitedCase env st = .ok t) : Answers p t.sent := by
  rw [unwaitedCase] at h
  obtain ⟨⟨st', stop⟩, hstore, h⟩ := exists_ok_of_bind h
  obtain ⟨hpkt, hsize'⟩ := storeCase_keeps hstore
  dsimp only at h
  split at h
  · cases h
    exact answers_nil
  split at h
  · refine sendReply_answers (hsize'.trans hsize) ?_ (Or.inl rfl) h
    rw [hpkt]
    exact hp
  · cases h
    exact answers_nil

/-- A turn answers with the timestamp it got or with one from the window. -/
theorem readWriteLoopServer_answers (hwindow : st.window.Stamped p) (hsize : st.ackSize = 10)
    (hp : ∀ q, env.incoming st = some q → p q.timestamp)
    (h : readWriteLoopServer env st = .ok t) : Answers p t.sent := by
  cases hinc : env.incoming st with
  | none =>
      obtain ⟨t', hturn, -, hsent, -⟩ := readWriteLoopServer_of_none hinc
      rw [h, Except.ok.injEq] at hturn
      rw [hturn, hsent]
      exact answers_nil
  | some q =>
      have hq := hp q hinc
      obtain ⟨buf, hturn, -⟩ := readWriteLoopServer_of_incoming hinc
      rw [hturn, dataCase] at h
      dsimp only at h
      split at h
      · exact sendReply_answers (by exact hsize) (by exact hq) (Or.inr rfl) h
      split at h
      · exact waitedCase_answers (by exact hwindow) (by exact hsize) (by exact hq) h
      · exact unwaitedCase_answers (by exact hsize) (by exact hq) h

end

end SelectiveRepeat
