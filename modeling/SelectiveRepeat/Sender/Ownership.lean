/-
  SelectiveRepeat.Sender.Ownership

  Who owns the packets of the sender.  Every allocated packet is behind exactly one slot
  of the ring, or is on a list of the others, which grows by one with every datagram that
  is rejected.  So no pointer that is followed or freed dangles, and with its pointers the
  sender does what it does on the packets themselves.
-/
import SelectiveRepeat.Sender.Close
import SelectiveRepeat.Sender.Counters
import SelectiveRepeat.Sender.Pointers

namespace SelectiveRepeat.Pointers

/-! ## The queue -/

/-- The ring of the packets. -/
def Queue.value (list : Queue) (heap : Storage Pkt) : SelectiveRepeat.Queue where
  window := heap.seen list.window
  size := list.size
  ptrAdd := list.ptrAdd
  ptrPop := list.ptrPop

section
variable {list : Queue} {heap : Storage Pkt} {spare : Finset Nat}

theorem Queue.value_peek (list : Queue) (heap : Storage Pkt) :
    (list.value heap).peek = list.peek.map heap.content := by
  have hsize : (list.value heap).size = list.size := rfl
  rw [SelectiveRepeat.Queue.peek, Queue.peek, hsize, apply_ite (Option.map heap.content)]
  rfl

/-- What `peek` returns is in the ring. -/
theorem Queue.peek_cell {p : Nat} (h : list.peek = some p) : list.window list.ptrPop = some p := by
  rw [Queue.peek] at h
  split at h
  · exact h
  · cases h

theorem Queue.isHigherOrEqual_agrees (h : heap.Owns list.window spare) (seqnum : Int) :
    Agrees (· = ·) (list.isHigherOrEqual seqnum heap)
      ((list.value heap).isHigherOrEqual seqnum) := by
  have hempty : (list.value heap).isEmpty = list.isEmpty := rfl
  rw [Queue.isHigherOrEqual, SelectiveRepeat.Queue.isHigherOrEqual, hempty, list.value_peek heap]
  split
  · exact .ok rfl
  · cases hpeek : list.peek with
    | none => exact .error _
    | some p =>
        rw [load_live (h.live (Queue.peek_cell hpeek))]
        exact .ok rfl

theorem Queue.getLoop_agrees (h : heap.Owns list.window spare) (receive_seqnum : UInt8) (fuel : Nat)
    (firstTime : Bool) (index : Fin MAX_WINDOW_SIZE) :
    Agrees (· = ·) (list.getLoop heap receive_seqnum fuel firstTime index)
      ((list.value heap).getLoop receive_seqnum fuel firstTime index) := by
  induction fuel generalizing firstTime index with
  | zero => exact .error _
  | succ fuel ih =>
      rw [Queue.getLoop, SelectiveRepeat.Queue.getLoop]
      have hcell : (list.value heap).window index = (list.window index).map heap.content := rfl
      have hpop : (list.value heap).ptrPop = list.ptrPop := rfl
      rw [hcell, hpop]
      cases hindex : list.window index with
      | none => exact .ok rfl
      | some p =>
          simp only [Option.map_some, load_live (h.live hindex), ok_bind]
          split
          · split
            · exact .ok rfl
            · exact ih false (index + 1)
          · exact .ok rfl

/-- What `get` sets, for a slot it finds. -/
def Queue.gotAt (list : Queue) (got : SelectiveRepeat.Queue.Got) : Got where
  tmpPtk := list.window got.tmpPtk
  supportIt := got.supportIt

theorem Queue.get_agrees (h : heap.Owns list.window spare) (receive_seqnum : UInt8)
    (supportIt : Option (Fin MAX_WINDOW_SIZE)) :
    Agrees (fun got got' => got = got'.map list.gotAt) (list.get heap receive_seqnum supportIt)
      ((list.value heap).get receive_seqnum supportIt) := by
  rw [Queue.get, SelectiveRepeat.Queue.get]
  refine (Queue.getLoop_agrees h receive_seqnum _ true _).bind ?_
  rintro found - - rfl
  cases found with
  | none => exact .ok rfl
  | some index => exact .ok rfl

/-- Changing a packet of the ring through a pointer. -/
theorem Queue.modify_store (h : heap.Owns list.window spare) {i : Fin MAX_WINDOW_SIZE} {p : Nat}
    (hi : list.window i = some p) (f : Pkt → Pkt) :
    ∃ heap', modify heap (some p) f = .ok heap' ∧ heap'.Owns list.window spare ∧
      list.value heap' = (list.value heap).store i (f (heap.content p)) ∧
      load heap' (some p) = .ok (f (heap.content p)) := by
  obtain ⟨heap', hwrite, howns, hseen⟩ := h.write hi (f (heap.content p))
  refine ⟨heap', modify_eq (h.live hi) hwrite, howns, ?_, ?_⟩
  · simp only [Queue.value, SelectiveRepeat.Queue.store, hseen]
  · have hcell := congrFun hseen i
    rw [Storage.seen, hi, Function.update_self, Option.map_some, Option.some.injEq] at hcell
    rw [load_live (howns.live hi), hcell]

/-- `dequeue` frees the packet of the slot it clears. -/
theorem Queue.dequeue_owns (h : heap.Owns list.window spare) :
    ∃ list' heap', list.dequeue heap = .ok (list', heap') ∧ heap'.Owns list'.window spare ∧
      list'.value heap' = (list.value heap).dequeue ∧ heap'.content = heap.content := by
  cases hcell : list.window list.ptrPop with
  | none =>
      -- `free(NULL)`, and the slot is clear already
      have hclear : Function.update list.window list.ptrPop none = list.window := by
        rw [← hcell, Function.update_eq_self]
      have hseen : Function.update (heap.seen list.window) list.ptrPop none =
          heap.seen list.window := by
        have hnone : heap.seen list.window list.ptrPop = none := by
          rw [Storage.seen, hcell, Option.map_none]
        rw [← hnone, Function.update_eq_self]
      refine ⟨_, heap, by rw [Queue.dequeue, hcell]; rfl, by rwa [hclear], ?_, rfl⟩
      simp only [Queue.value, SelectiveRepeat.Queue.dequeue, hclear, hseen]
  | some p =>
      obtain ⟨heap', hfree, howns, hseen⟩ := h.free hcell
      refine ⟨{ list with
        window := Function.update list.window list.ptrPop none
        ptrPop := 1 + list.ptrPop
        size := list.size - 1 }, heap', ?_, howns, ?_, Storage.free_content hfree⟩
      · rw [Queue.dequeue, hcell, pktDel, free_eq hfree, ok_bind]
        rfl
      · simp only [Queue.value, SelectiveRepeat.Queue.dequeue, hseen]

end

namespace Sender

/-! ## The state -/

/-- The state without the pointers. -/
def State.value (st : State) : SenderState where
  pktBuffer := st.pktBuffer
  nb := st.nb
  seqnum := st.seqnum
  pktInWindow := st.pktInWindow
  window := st.window.value st.heap
  sendingWindowSize := st.sendingWindowSize
  startingTimestamp := st.startingTimestamp
  senderLogger := st.senderLogger

def Turn.value (t : Turn) : SenderTurn where
  state := t.state.value
  stop := t.stop
  sent := t.sent

/-- The allocated packets are those behind the slots, each in one, and those of `spare`. -/
def State.Owns (st : State) (spare : Finset Nat) : Prop := st.heap.Owns st.window.window spare

/-! ## The blocks of a turn -/

/-- The turn is `t'` on the packets, and the packets that are in no slot are those of
    `spare`. -/
structure Turn.Keeps (spare : Finset Nat) (t : Turn) (t' : SenderTurn) : Prop where
  value : t.value = t'
  owns : t.state.Owns spare

/-- The turn is `t'`, and `n` packets are in no slot. -/
structure Turn.Ends (n : Nat) (t : Turn) (t' : SenderTurn) : Prop where
  value : t.value = t'
  owns : ∃ spare, t.state.Owns spare ∧ (t.stop ≠ some .encode → spare.card = n)

section
variable [Zlib] (env : Env) {st : State} {spare : Finset Nat}

/-- The state of the ACK loop without the pointers. -/
def AckState.value (s : AckState) : SelectiveRepeat.AckState where
  window := s.window.value s.heap
  pktInWindow := s.pktInWindow
  isChanged := s.isChanged

omit [Zlib] in
theorem ackLoop_agrees (receive_seqnum : UInt8) (fuel : Nat) {s : AckState}
    (h : s.heap.Owns s.window.window spare) :
    Agrees (fun a a' => a.value = a' ∧ a.heap.Owns a.window.window spare ∧
        a.heap.content = s.heap.content)
      (ackLoop receive_seqnum fuel s) (SelectiveRepeat.ackLoop receive_seqnum fuel s.value) := by
  induction fuel generalizing s with
  | zero => exact .error _
  | succ fuel ih =>
      rw [ackLoop, SelectiveRepeat.ackLoop]
      refine (Queue.isHigherOrEqual_agrees h _).bind ?_
      rintro more - - rfl
      split
      · obtain ⟨window, heap, hdequeue, howns, hvalue, hcontent⟩ := Queue.dequeue_owns h
        rw [hdequeue, ok_bind]
        have hrest := ih (s := ⟨window, heap, s.pktInWindow - 1, true⟩) howns
        rw [AckState.value, hvalue] at hrest
        exact hrest.mono fun _ _ h => ⟨h.1, h.2.1, h.2.2.trans hcontent⟩
      · exact .ok ⟨rfl, h, rfl⟩

omit [Zlib] in
theorem ackCase_agrees (h : st.Owns spare) {p : Nat} (hp : p ∈ spare) (receive_seqnum : UInt8) :
    Agrees (Turn.Keeps spare) (ackCase env st p receive_seqnum)
      (SelectiveRepeat.ackCase env.toSenderEnv st.value (st.heap.content p) receive_seqnum) := by
  rw [ackCase, SelectiveRepeat.ackCase]
  refine (ackLoop_agrees receive_seqnum _
    (s := ⟨st.window, st.heap, st.pktInWindow, false⟩) h).bind ?_
  rintro s - - ⟨rfl, howns, hcontent⟩
  rw [load_live (howns.spare_live hp), hcontent, ok_bind]
  exact .ok ⟨rfl, howns⟩

theorem nackCase_agrees (h : st.Owns spare) (receive_seqnum : UInt8) :
    Agrees (Turn.Keeps spare) (nackCase env st receive_seqnum)
      (SelectiveRepeat.nackCase env.toSenderEnv st.value receive_seqnum) := by
  rw [nackCase, SelectiveRepeat.nackCase]
  refine (Queue.get_agrees h receive_seqnum none).bind ?_
  rintro - found - rfl
  cases found with
  | none => exact .ok ⟨rfl, h⟩
  | some got =>
      have hcell : st.value.window.window got.tmpPtk =
          (st.window.window got.tmpPtk).map st.heap.content := rfl
      simp only [Option.map_some, Queue.gotAt, hcell]
      cases hgot : st.window.window got.tmpPtk with
      | none => exact .error _
      | some p =>
          obtain ⟨heap, hmodify, howns, hvalue, hload⟩ := Queue.modify_store h hgot
            fun pkt => (pktSetTimestamp pkt (env.now .nack st)).2
          rw [hmodify, ok_bind, hload, ok_bind]
          refine (agrees_lift _).bind ?_
          rintro ⟨status, buf, size⟩ - - rfl
          dsimp only
          split
          · refine .ok ⟨?_, howns⟩
            simp only [Turn.value, State.value, hvalue]
            rfl
          · refine .ok ⟨?_, howns⟩
            simp only [Turn.value, State.value, hvalue]
            rfl

/-- The `switch` changes no packet that is in no slot. -/
theorem socketCase_agrees (h : st.Owns spare) {p : Nat} (hp : p ∈ spare) :
    Agrees (Turn.Keeps spare) (socketCase env st p)
      (SelectiveRepeat.socketCase env.toSenderEnv st.value (st.heap.content p)) := by
  rw [socketCase, SelectiveRepeat.socketCase, load_live (h.spare_live hp), ok_bind]
  split
  · split
    · exact .ok ⟨rfl, h⟩
    · split
      · exact ackCase_agrees env h hp _
      · split
        · exact nackCase_agrees env h _
        · exact .ok ⟨rfl, h⟩
  · exact .ok ⟨rfl, h⟩

theorem checkRtLoop_agrees (clock_time : UInt32) (first : UInt8) (fuel n : Nat) (firstTime : Bool)
    (receive_seqnum : UInt8) (supportInt : Option (Fin MAX_WINDOW_SIZE)) (h : st.Owns spare) :
    Agrees (Turn.Keeps spare)
      (checkRtLoop env clock_time first fuel n firstTime receive_seqnum supportInt st)
      (SelectiveRepeat.checkRtLoop env.toSenderEnv clock_time first fuel n firstTime receive_seqnum
        supportInt st.value) := by
  induction fuel generalizing n firstTime receive_seqnum supportInt st with
  | zero => exact .error _
  | succ fuel ih =>
      rw [checkRtLoop, SelectiveRepeat.checkRtLoop]
      refine (Queue.get_agrees h receive_seqnum supportInt).bind ?_
      rintro - found - rfl
      cases found with
      | none => exact .ok ⟨rfl, h⟩
      | some got =>
          have hcell : st.value.window.window got.tmpPtk =
              (st.window.window got.tmpPtk).map st.heap.content := rfl
          simp only [Option.map_some, Queue.gotAt, hcell]
          cases hgot : st.window.window got.tmpPtk with
          | none => exact .error _
          | some p =>
              rw [load_live (h.live hgot), ok_bind]
              dsimp only [Option.map_some]
              split
              · exact .ok ⟨rfl, h⟩
              · split
                · obtain ⟨heap, hmodify, howns, hvalue, hload⟩ := Queue.modify_store h hgot
                    fun pkt => (pktSetTimestamp pkt
                      (env.now (.resend n) { st with tmpPtk := some p })).2
                  rw [hmodify, ok_bind, hload, ok_bind]
                  refine (agrees_lift _).bind ?_
                  rintro ⟨status, buf, size⟩ - - rfl
                  dsimp only
                  split
                  · refine .ok ⟨?_, howns⟩
                    simp only [Turn.value, State.value, hvalue]
                    rfl
                  · have hresent : State.Owns { st with
                        heap := heap
                        tmpPtk := some p
                        pktBuffer := buf
                        senderLogger := st.senderLogger.addPacketRetransmitted } spare := howns
                    have hrest := ih (n + 1) false (nextScanned receive_seqnum)
                      (some got.supportIt) hresent
                    simp only [State.value, hvalue] at hrest
                    refine Agrees.bind hrest ?_
                    rintro t - - ⟨rfl, hkept⟩
                    exact .ok ⟨rfl, hkept⟩
                · have hfound : State.Owns { st with tmpPtk := some p } spare := h
                  exact ih (n + 1) false _ _ hfound

/-- `Check RT` leaves `tmpPtk` at `NULL` if the ring is empty. -/
theorem checkRt_agrees (h : st.Owns spare) :
    Agrees (fun t t' => t.Keeps spare t' ∧ (st.window.peek = none → t.state.tmpPtk = none))
      (checkRt env st) (SelectiveRepeat.checkRt env.toSenderEnv st.value) := by
  have hpeek : st.value.window.peek = st.window.peek.map st.heap.content :=
    st.window.value_peek st.heap
  rw [checkRt, SelectiveRepeat.checkRt, hpeek]
  dsimp only
  cases hp : st.window.peek with
  | none => exact .ok ⟨⟨rfl, h⟩, fun _ => rfl⟩
  | some p =>
      dsimp only [Option.map_some]
      rw [load_live (h.live (Queue.peek_cell hp)), ok_bind, ok_bind]
      have hpeeked : State.Owns { st with tmpPtk := some p } spare := h
      refine (checkRtLoop_agrees env _ _ _ 0 true _ none hpeeked).mono ?_
      exact fun t t' hkeeps => ⟨hkeeps, fun hnone => absurd hnone (by simp)⟩

/-! ## The packets that are built -/

omit [Zlib] in
/-- Where the window has room the slot that `add` writes is clear. -/
theorem State.slot_free {l : List Pkt} (hc : Counted st.value l)
    (hroom : st.pktInWindow < st.sendingWindowSize) :
    st.window.window st.window.ptrAdd = none := by
  have hlt := UInt8.lt_iff_toNat_lt.mp hroom
  have hcount : st.pktInWindow.toNat = l.length := hc.count
  have hsize : st.sendingWindowSize.toNat ≤ 31 := hc.windowSize
  have hfree : (st.window.window st.window.ptrAdd).map st.heap.content = none :=
    hc.holds.free (by omega)
  exact Option.map_eq_none_iff.mp hfree

/-- The new packet goes into the ring, and stays outside only where it cannot be encoded. -/
theorem inputBranch_agrees (h : st.Owns spare) {l : List Pkt} (hc : Counted st.value l) :
    Agrees (Turn.Ends spare.card) (inputBranch env st)
      (SelectiveRepeat.inputBranch env.toSenderEnv st.value) := by
  rw [inputBranch, SelectiveRepeat.inputBranch]
  cases env.input with
  | none => exact .ok ⟨rfl, spare, h, fun _ => rfl⟩
  | some r =>
      have hcount : st.value.pktInWindow = st.pktInWindow := rfl
      have hsize : st.value.sendingWindowSize = st.sendingWindowSize := rfl
      dsimp only
      rw [hcount, hsize]
      by_cases hroom : st.pktInWindow < st.sendingWindowSize
      case neg =>
        rw [if_neg hroom, if_neg hroom]
        exact .ok ⟨rfl, spare, h, fun _ => rfl⟩
      rw [if_pos hroom, if_pos hroom]
      split
      case isFalse => exact .ok ⟨rfl, spare, h, fun _ => rfl⟩
      obtain ⟨p, hp, heap, heap', hnew, hmodify, howns, hold, hcontent⟩ :=
        pktNew_build h (env.malloc .input) (env.fresh .input) fun pkt =>
          buildPkt pkt (st.sendingWindowSize - st.pktInWindow) st.seqnum
            (r.nb MAX_PAYLOAD_SIZE) r.payload
            (env.now .build { st with nb := r.nb MAX_PAYLOAD_SIZE })
      rw [hnew]
      dsimp only
      rw [hmodify, ok_bind, load_live (howns.spare_live (Finset.mem_insert_self p spare)), ok_bind,
        hcontent]
      refine (agrees_lift _).bind ?_
      rintro ⟨status, buf, size⟩ - - rfl
      have hcard : (insert p spare).erase p = spare := Finset.erase_insert hp
      -- the block goes from the spare ones to the slot
      obtain ⟨hgiven, hseen⟩ :=
        howns.give (Finset.mem_insert_self p spare) (st.slot_free hc hroom)
      rw [hcard] at hgiven
      dsimp only
      split
      · refine .ok ⟨?_, insert p spare, howns, fun hne => absurd rfl hne⟩
        simp only [Turn.value, State.value, Queue.value, hold]
      · rw [hold, hcontent] at hseen
        simp only [Queue.add, SelectiveRepeat.Queue.add, Int.lt_irrefl, if_false]
        split
        · refine .ok ⟨?_, spare, hgiven, fun _ => rfl⟩
          simp only [Turn.value, State.value, Queue.value, hseen]
          rfl
        · refine .ok ⟨?_, spare, hgiven, fun _ => rfl⟩
          simp only [Turn.value, State.value, Queue.value, hseen]
          rfl

/-- How many packets the socket block leaves allocated. -/
def leaks (v : Option Verdict) : Nat := if v.any (· = .rejected) then 1 else 0

omit [Zlib] in
theorem judges_ne_rejected (env : SenderEnv) (st : SenderState) (q : Pkt) :
    env.judges st q ≠ .rejected := by
  rw [SenderEnv.judges]
  split_ifs <;> simp

/-- Only a packet that is rejected is not freed. -/
theorem socketBranch_agrees (h : st.Owns spare) :
    Agrees (Turn.Ends (spare.card + leaks (env.verdict st.value))) (socketBranch env st)
      (SelectiveRepeat.socketBranch env.toSenderEnv st.value) := by
  rw [socketBranch, SelectiveRepeat.socketBranch, leaks, SenderEnv.verdict]
  cases env.socket with
  | none => exact .ok ⟨rfl, spare, h, fun _ => rfl⟩
  | some r =>
      obtain ⟨p, hp, heap, hnew, howns, hold, hcontent⟩ :=
        pktNew_owns h (env.malloc .socket) (env.fresh .socket)
      have hmem := Finset.mem_insert_self p spare
      dsimp only
      rw [hnew]
      dsimp only
      rw [load_live (howns.spare_live hmem), ok_bind, hcontent]
      refine (agrees_lift _).bind ?_
      rintro ⟨socketResp, pkt⟩ - hdec rfl
      obtain ⟨heap', hwrite, howns', hseen, hcontent'⟩ := howns.write_spare hmem pkt
      rw [store_eq hwrite, ok_bind]
      have hdec' : pktDecode (r.fill 12 st.value.pktBuffer) 12 (env.fresh .socket) =
          .ok (socketResp, pkt) := hdec
      have hvalue : st.window.value heap' = st.value.window := by
        simp only [Queue.value, State.value, hseen, hold]
      simp only [hdec']
      split
      · have hread : State.Owns { st with
            nb := r.nb 12
            pktBuffer := r.fill 12 st.pktBuffer
            heap := heap' } (insert p spare) := howns'
        have hcase := socketCase_agrees env hread hmem
        rw [hcontent'] at hcase
        simp only [State.value, hvalue] at hcase
        rw [if_neg (by simpa using judges_ne_rejected _ _ _)]
        refine Agrees.bind_left hcase ?_
        rintro t - hrun ⟨rfl, hkept⟩
        by_cases hgo : t.stop = none
        · -- the `switch` is left, and the packet freed
          obtain ⟨heap'', hfree, hfreed, hseen'⟩ := hkept.free_spare hmem
          rw [if_neg (not_not.mpr hgo), pktDel, free_eq hfree, ok_bind]
          rw [Finset.erase_insert hp] at hfreed
          refine .ok ⟨?_, spare, hfreed, fun _ => rfl⟩
          simp only [Turn.value, State.value, Queue.value, hseen']
        · rw [if_pos hgo]
          refine .ok ⟨rfl, insert p spare, hkept, fun hne => absurd ?_ hne⟩
          cases socketCase_cases hrun with
          | truncated _ ht | data _ _ ht | nackMissing _ _ _ ht | other _ _ _ _ ht =>
              exact absurd (congrArg SenderTurn.stop ht) hgo
          | ack _ _ _ _ ht => exact absurd (congrArg SenderTurn.stop ht) hgo
          | nackFound _ _ _ _ _ _ _ _ _ ht => exact absurd (congrArg SenderTurn.stop ht) hgo
          | nackRefused _ _ hstop => exact hstop
      · refine .ok ⟨?_, insert p spare, howns', fun _ => Finset.card_insert_of_notMem hp⟩
        simp only [Turn.value, State.value, hvalue]

/-- The packet of the end is freed, and `tmpPtk` leads to none. -/
theorem closeBranch_agrees (h : st.Owns spare)
    (hnull : st.pktInWindow = 0 → st.tmpPtk = none) :
    Agrees (Turn.Ends spare.card) (closeBranch env st)
      (SelectiveRepeat.closeBranch env.toSenderEnv st.value) := by
  have hnb : st.value.nb = st.nb := rfl
  have hcount : st.value.pktInWindow = st.pktInWindow := rfl
  rw [closeBranch, SelectiveRepeat.closeBranch, hnb, hcount]
  split
  case isFalse => exact .ok ⟨rfl, spare, h, fun _ => rfl⟩
  next hend =>
    obtain ⟨p, hp, heap, heap', hnew, hmodify, howns, hold, hcontent⟩ :=
      pktNew_build h (env.malloc .close) (env.fresh .close) fun pkt =>
        buildPkt pkt st.sendingWindowSize st.seqnum 0 [] (env.now .close st)
    have hmem := Finset.mem_insert_self p spare
    rw [hnew]
    dsimp only
    rw [hmodify, ok_bind, load_live (howns.spare_live hmem), ok_bind, hcontent]
    refine (agrees_lift _).bind ?_
    rintro ⟨status, buf, size⟩ - - rfl
    dsimp only
    split
    · refine .ok ⟨?_, insert p spare, howns, fun hne => absurd rfl hne⟩
      simp only [Turn.value, State.value, Queue.value, hold]
    · obtain ⟨heap'', hfree, hfreed, hseen⟩ := howns.free_spare hmem
      rw [pktDel, free_eq hfree, ok_bind, hnull hend.2]
      rw [Finset.erase_insert hp] at hfreed
      refine .ok ⟨?_, spare, hfreed, fun _ => rfl⟩
      simp only [Turn.value, State.value, Queue.value, hseen, hold]

/-! ## The turn -/

omit [Zlib] in
theorem andThen_agrees {S : Turn → SenderTurn → Prop} {t : Turn} {next : State → Exec Turn}
    {next' : SenderState → SelectiveRepeat.Exec SenderTurn} (hstop : t.stop ≠ none → S t t.value)
    (hgo : t.stop = none → Agrees (fun u u' => S { u with sent := t.sent ++ u.sent }
      { u' with sent := t.sent ++ u'.sent }) (next t.state) (next' t.state.value)) :
    Agrees S (t.andThen next) (t.value.andThen next') := by
  have hvalue : t.value.stop = t.stop := rfl
  rw [Turn.andThen, SenderTurn.andThen, hvalue]
  cases hs : t.stop with
  | some reason => exact .ok (hstop (by simp [hs]))
  | none => exact (hgo hs).bind fun u u' _ hu => .ok hu

omit [Zlib] in
/-- An empty ring has no oldest packet. -/
theorem State.peek_null {l : List Pkt} (hc : Counted st.value l) (hzero : st.pktInWindow = 0) :
    st.window.peek = none := by
  have hcount : st.pktInWindow.toNat = l.length := hc.count
  rw [hzero] at hcount
  have hpeek := hc.holds.peek
  rw [List.length_eq_zero_iff.mp hcount.symm] at hpeek
  have hnone : st.window.peek.map st.heap.content = none :=
    (st.window.value_peek st.heap).symm.trans hpeek
  exact Option.map_eq_none_iff.mp hnone

/-- What goes through a turn block by block. -/
theorem Turn.Ends.andThen_socket {t : Turn} {n : Nat} (h : t.Ends n t.value)
    (hc : t.stop = none → ∃ l, Counted t.state.value l) :
    Agrees (fun u u' =>
        u.Ends (n + leaks (if t.value.stop = none then env.verdict t.value.state else none)) u' ∧
        (u.stop = none → ∃ l, Counted u.state.value l))
      (t.andThen (socketBranch env))
      (t.value.andThen (SelectiveRepeat.socketBranch env.toSenderEnv)) := by
  have hvalue : t.value.stop = t.stop := rfl
  obtain ⟨-, spare, howns, hcard⟩ := h
  refine andThen_agrees (fun hstop => ?_) (fun hgo => ?_)
  · rw [hvalue, if_neg hstop]
    exact ⟨⟨rfl, spare, howns, hcard⟩, fun hgo => absurd hgo hstop⟩
  · obtain ⟨l, hl⟩ := hc hgo
    rw [hvalue, if_pos hgo, ← hcard (by simp [hgo])]
    refine (socketBranch_agrees env howns).and_run.mono ?_
    rintro u - ⟨⟨rfl, hends⟩, hrun⟩
    refine ⟨⟨rfl, hends⟩, fun hgo' => ?_⟩
    obtain ⟨-, -, l', hl', -⟩ := (hl.socket hrun).2 hgo'
    exact ⟨l', hl'⟩

theorem Turn.Ends.andThen_check {t : Turn} {n : Nat} (h : t.Ends n t.value)
    (hc : t.stop = none → ∃ l, Counted t.state.value l) :
    Agrees (fun u u' => u.Ends n u' ∧
        (u.stop = none → u.state.pktInWindow = 0 → u.state.tmpPtk = none))
      (t.andThen (checkRt env)) (t.value.andThen (SelectiveRepeat.checkRt env.toSenderEnv)) := by
  obtain ⟨-, spare, howns, hcard⟩ := h
  refine andThen_agrees (fun hstop => ?_) (fun hgo => ?_)
  · exact ⟨⟨rfl, spare, howns, hcard⟩, fun hgo => absurd hgo hstop⟩
  · obtain ⟨l, hl⟩ := hc hgo
    refine (checkRt_agrees env howns).and_run.mono ?_
    rintro u - ⟨⟨⟨rfl, hkept⟩, hnull⟩, hrun⟩
    refine ⟨⟨rfl, spare, hkept, fun _ => hcard (by simp [hgo])⟩, fun hgo' hzero => ?_⟩
    -- the number of packets is what it was before the block
    have hcount : u.state.pktInWindow = t.state.pktInWindow :=
      ((checkRt_restamped hrun).2 hgo').pktInWindow
    exact hnull (State.peek_null hl (hcount.symm.trans hzero))

theorem Turn.Ends.andThen_close {t : Turn} {n : Nat} (h : t.Ends n t.value)
    (hnull : t.stop = none → t.state.pktInWindow = 0 → t.state.tmpPtk = none) :
    Agrees (Turn.Ends n) (t.andThen (closeBranch env))
      (t.value.andThen (SelectiveRepeat.closeBranch env.toSenderEnv)) := by
  refine andThen_agrees (fun _ => h) (fun hgo => ?_)
  obtain ⟨-, spare, howns, hcard⟩ := h
  rw [← hcard (by simp [hgo])]
  refine (closeBranch_agrees env howns (hnull hgo)).mono ?_
  rintro u - ⟨rfl, hends⟩
  exact ⟨rfl, hends⟩

/-- With its pointers a turn does what it does on the packets, and leaves allocated what it
    rejects. -/
theorem readWriteLoopSender_agrees (h : st.Owns spare) {l : List Pkt} (hc : Counted st.value l)
    (turn : SenderTurn) :
    Agrees (Turn.Ends (spare.card + leaks
        ({ env := env.toSenderEnv, before := st.value, turn := turn } : SenderStep).verdict))
      (readWriteLoopSender env st) (SelectiveRepeat.readWriteLoopSender env.toSenderEnv st.value) := by
  rw [readWriteLoopSender, SelectiveRepeat.readWriteLoopSender, SenderStep.verdict]
  cases hpoll : env.pollFails with
  | true => exact .ok ⟨rfl, spare, h, fun _ => rfl⟩
  | false =>
      simp only [Bool.false_eq_true, if_false]
      refine (inputBranch_agrees env h hc).bind ?_
      rintro t₁ - h₁ ⟨rfl, hends₁⟩
      simp only [h₁]
      have hc₁ : t₁.stop = none → ∃ l, Counted t₁.state.value l := by
        intro hgo
        obtain ⟨-, added, -, hcounted, -⟩ := (hc.input hpoll h₁).2 hgo
        exact ⟨_, hcounted⟩
      refine (Turn.Ends.andThen_socket env ⟨rfl, hends₁⟩ hc₁).bind ?_
      rintro t₂ - - ⟨⟨rfl, hends₂⟩, hc₂⟩
      refine (Turn.Ends.andThen_check env ⟨rfl, hends₂⟩ hc₂).bind ?_
      rintro t₃ - - ⟨⟨rfl, hends₃⟩, hnull⟩
      exact Turn.Ends.andThen_close env ⟨rfl, hends₃⟩ hnull

end

/-! ## Whole runs -/

/-- A run of the sender with its pointers; the turns are recorded as they are on the packets. -/
inductive Run [Zlib] : State → Option SenderStop → List SenderStep → Prop where
  | init (content : Nat → Pkt) (buf : Mem) (mem : Logger) (tmpPtk : Option Nat) (statsFile : Bool)
      (start : Int) : Run (senderInit content buf mem tmpPtk statsFile start) none []
  | turn {st : State} {steps : List SenderStep} {env : Env} {t : Turn} :
      Run st none steps → readWriteLoopSender env st = .ok t →
      Run t.state t.stop
        (steps ++ [{ env := env.toSenderEnv, before := st.value, turn := t.value }])

section
variable [Zlib] {st : State} {stop : Option SenderStop} {steps : List SenderStep}

/-- The run lemma: a run on the packets, and as many packets in no slot as datagrams were
    rejected. -/
theorem Run.owns (h : Run st stop steps) :
    SenderHistory (fun _ _ _ => True) st.value stop steps ∧
      ∃ spare, st.Owns spare ∧
        (stop ≠ some .encode → spare.card = verdictCount (· = .rejected) steps) := by
  induction h with
  | init content buf mem tmpPtk statsFile start =>
      exact ⟨.init buf mem statsFile start, ∅, Storage.owns_empty content, fun _ => rfl⟩
  | @turn st steps env t _ hturn ih =>
      obtain ⟨hhistory, spare, howns, hcard⟩ := ih
      obtain ⟨l, hl⟩ := hhistory.counted rfl
      have hagrees := readWriteLoopSender_agrees env howns hl t.value
      rw [hturn] at hagrees
      obtain ⟨t', ht', hvalue, spare', howns', hcard'⟩ := hagrees.of_ok
      subst hvalue
      refine ⟨.turn hhistory trivial ht', spare', howns', fun hne => ?_⟩
      rw [hcard' hne, hcard (by simp), verdictCount_append, leaks]

/-- Where every read of the input succeeds, the next turn returns. -/
theorem Run.returns (h : Run st none steps) (hreads : ∀ step ∈ steps, step.env.InputReads)
    {env : Env} (hin : env.InputReads) : ∃ t, readWriteLoopSender env st = .ok t := by
  obtain ⟨hhistory, spare, howns, -⟩ := h.owns
  obtain ⟨l, hl⟩ := hhistory.counted rfl
  obtain ⟨chunks, sent, hrun⟩ := hhistory.senderRun hreads
  obtain ⟨w, -, href, -⟩ := hrun.log
  obtain ⟨t', -, -, -, hturn, -⟩ :=
    readWriteLoopSender_spec (href rfl) (hin.inputRead_ne st.value)
  have hagrees := readWriteLoopSender_agrees env howns hl t'
  rw [hturn] at hagrees
  obtain ⟨t, ht, -⟩ := hagrees.to_ok
  exact ⟨t, ht⟩

/-- The memory of the sender, in every run in which `malloc` has memory, whatever the reads
    return, the datagrams contain and the addresses are.  A turn with pointers is the turn on the packets, so it follows and frees
    no pointer that dangles; nor does it come to a fault where the reads of the input succeed.
    At every loop boundary, and when the connection has been closed, the allocated packets are
    those in the ring, each behind one slot, and one for each datagram that was rejected. -/
theorem senderRun_owns (h : Run st stop steps) :
    SenderHistory (fun _ _ _ => True) st.value stop steps ∧
      (stop = none → ∀ env : Env,
        (readWriteLoopSender env st).map Turn.value =
          lift (SelectiveRepeat.readWriteLoopSender env.toSenderEnv st.value) ∧
        (∀ p, readWriteLoopSender env st ≠ .error (.dangling p)) ∧
        ((∀ step ∈ steps, step.env.InputReads) → env.InputReads →
          ∃ t, readWriteLoopSender env st = .ok t)) ∧
      (stop = none ∨ stop = some .closed →
        ∃ leaked, st.Owns leaked ∧ leaked.card = verdictCount (· = .rejected) steps ∧
          (st.heap.live.card : Int) = st.window.size + leaked.card) ∧
      (stop = some .closed → st.heap.live.card = verdictCount (· = .rejected) steps) := by
  obtain ⟨hhistory, spare, howns, hcard⟩ := h.owns
  have hlive : ∀ l, st.value.window.Holds l → st.heap.live.card = spare.card + l.length :=
    fun l hl => howns.card.trans (congrArg (spare.card + ·) hl.ring.card)
  have hrejected : stop = none ∨ stop = some .closed →
      spare.card = verdictCount (· = .rejected) steps := by
    rintro (rfl | rfl)
    · exact hcard (by simp)
    · exact hcard (by simp)
  refine ⟨hhistory, ?_, fun hstop => ⟨spare, howns, hrejected hstop, ?_⟩, fun hclosed => ?_⟩
  · rintro rfl env
    obtain ⟨l, hl⟩ := hhistory.counted rfl
    have hagrees := readWriteLoopSender_agrees env howns hl { state := st.value }
    refine ⟨?_, hagrees.not_dangling, fun hreads hin => h.returns hreads hin⟩
    exact (hagrees.mono fun _ _ hends => hends.value).map_eq
  · obtain ⟨l, hl, -⟩ := hhistory.holds hstop
    have hsize : st.window.size = l.length := hl.size
    rw [hlive l hl, hsize]
    omega
  · obtain ⟨l, hl, hnil⟩ := hhistory.holds (Or.inr hclosed)
    rw [hlive l hl, hnil hclosed, hrejected (Or.inr hclosed), List.length_nil, Nat.add_zero]

end

/-- A chunk is read and put in the ring, and a datagram of one byte is rejected. -/
theorem senderRun_owns_rejected : letI := zlib
    let env : Env := { inputEnv [7] with socket := some (.bytes [7]), malloc := fun _ => .next }
    let st := senderInit (fun _ => bytePkt 0 0 0) (fun _ => 0) default none false 0
    ∃ t, readWriteLoopSender env st = .ok t ∧ t.state.heap.live.card = 2 ∧
      ∃ leaked, t.state.Owns leaked ∧ leaked.card = 1 ∧
        (t.state.heap.live.card : Int) = t.state.window.size + leaked.card := by
  let _ := zlib
  intro env st
  have hok : (readWriteLoopSender env st).map (fun t => (t.stop, t.state.heap.live.card,
      verdictCount (· = .rejected) [⟨env.toSenderEnv, st.value, t.value⟩])) =
        .ok (none, 2, 1) := by
    decide +kernel
  obtain ⟨t, hturn, ht⟩ := exists_ok_of_map hok
  rw [Prod.mk.injEq, Prod.mk.injEq] at ht
  obtain ⟨hgo, hlive, hcount⟩ := ht
  have hrun : Run t.state t.stop ([] ++ [⟨env.toSenderEnv, st.value, t.value⟩]) :=
    .turn (.init _ _ _ _ _ _) hturn
  obtain ⟨-, -, howns, -⟩ := senderRun_owns hrun
  obtain ⟨leaked, hleaked, hcard, htotal⟩ := howns (Or.inl hgo)
  exact ⟨t, hturn, hlive, leaked, hleaked, hcard.trans hcount, htotal⟩

end Sender

end SelectiveRepeat.Pointers
