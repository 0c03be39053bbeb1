/-
  SelectiveRepeat.Receiver.Ownership

  Who owns the blocks of the receiver.  Between two turns the one packet allocated is
  `pkt`, and the elements allocated are those of the window, each behind one slot.  So no
  pointer that is followed or freed dangles, and with its pointers the receiver does what
  it does on packets and elements.
-/
import SelectiveRepeat.Receiver.Counters
import SelectiveRepeat.Receiver.Pointers
import SelectiveRepeat.SortedList.Ownership

namespace SelectiveRepeat.Pointers.Receiver

/-! ## The state -/

/-- The state without the pointers. -/
def State.value (st : State) : ReceiverState where
  window := st.window.value st.elements
  dataBuffer := st.dataBuffer
  buffer := st.buffer
  ackSize := st.ackSize
  waitedSeqnum := st.waitedSeqnum
  receivePkt := st.receivePkt
  pkt := st.packets.content st.pkt
  receiverLogger := st.receiverLogger

def Turn.value (t : Turn) : ReceiverTurn where
  state := t.state.value
  stop := t.stop
  written := t.written
  sent := t.sent

/-- The one pointer to a packet that is kept. -/
def held (pkt : Nat) : Unit → Option Nat := fun _ => some pkt

/-- The blocks between two turns. -/
structure State.Owned (st : State) : Prop where
  packets : st.packets.Owns (held st.pkt) ∅
  elements : ∃ spare, st.elements.Owns st.window.window spare
  count : (st.elements.live.card : Int) = st.window.size

/-- How many packets a `return` leaves allocated. -/
def left : Option ReceiverStop → Nat
  | some .disconnect | some .storedDisconnect => 0
  -- the packet of the reply was not freed either
  | some .send => 2
  | _ => 1

/-- The turn is `t'` on packets and elements, and its blocks are accounted for. -/
structure Turn.Keeps (t : Turn) (t' : ReceiverTurn) : Prop where
  value : t.value = t'
  elements : ∃ spare, t.state.elements.Owns t.state.window.window spare
  count : (t.state.elements.live.card : Int) = t.state.window.size
  packets : t.state.packets.live.card = left t.stop
  goes : t.stop = none → t.state.packets.Owns (held t.state.pkt) ∅

section
variable {packets packets' : Storage Pkt} {pkt : Nat} {spare : Finset Nat}

theorem held_card (h : packets.Owns (held pkt) spare) : packets.live.card = spare.card + 1 := by
  rw [h.card]
  rfl

theorem held_content (h : packets'.seen (held pkt) = packets.seen (held pkt)) :
    packets'.content pkt = packets.content pkt := Option.some.inj (congrFun h ())

/-- Freeing the packet leaves none. -/
theorem held_freed (h : packets.Owns (held pkt) ∅) :
    ∃ packets', pktDel packets (some pkt) = .ok packets' ∧ packets'.live.card = 0 ∧
      packets'.content = packets.content := by
  obtain ⟨packets', hfree, -, -⟩ := h.free (i := ()) rfl
  have hcard := Storage.free_card hfree
  rw [held_card h, Finset.card_empty] at hcard
  exact ⟨packets', free_eq hfree, by omega, Storage.free_content hfree⟩

end

section
variable (env : Env) {st : State}

theorem State.Owned.load (h : st.Owned) : load st.packets (some st.pkt) = .ok st.value.pkt :=
  load_live (h.packets.live (i := ()) rfl)

/-- A turn that changes no block. -/
theorem State.Owned.keeps (h : st.Owned) {t : Turn} (hstate : t.state = st)
    (hleft : left t.stop = 1) : t.Keeps t.value := by
  subst hstate
  exact ⟨rfl, h.elements, h.count, by rw [held_card h.packets, hleft]; rfl, fun _ => h.packets⟩

/-! ## The replies -/

/-- The packet of a reply is freed, unless `send` answers 0. -/
theorem sendReply_agrees [Zlib] (h : st.Owned) (written : List (Bytes × Int)) (timestamp : UInt32)
    (type : UInt32) (count : Logger → Logger) :
    Agrees Turn.Keeps (sendReply env st written timestamp type count)
      (SelectiveRepeat.sendReply env.toReceiverEnv st.value written timestamp type count) := by
  rw [sendReply, SelectiveRepeat.sendReply]
  obtain ⟨p, hp, heap, heap', hnew, hmodify, howns, hold, hcontent⟩ :=
    pktNew_build h.packets env.pktNew env.fresh fun pkt =>
      buildAck pkt timestamp st.waitedSeqnum type
  have hmem := Finset.mem_insert_self p ∅
  rw [hnew]
  dsimp only
  rw [hmodify, ok_bind, load_live (howns.spare_live hmem), ok_bind, hcontent]
  refine (agrees_lift _).bind ?_
  rintro ⟨status, buffer, ackSize⟩ - - rfl
  dsimp only
  split
  · refine .ok ⟨?_, h.elements, h.count, ?_, fun hgo => absurd hgo (by simp)⟩
    · simp only [Turn.value, State.value, held_content hold]
    · rw [held_card howns]
      rfl
  · obtain ⟨heap'', hfree, hfreed, hold'⟩ := howns.free_spare hmem
    rw [pktDel, free_eq hfree, ok_bind]
    rw [Finset.erase_insert hp] at hfreed
    refine .ok ⟨?_, h.elements, h.count, ?_, fun _ => hfreed⟩
    · simp only [Turn.value, State.value, held_content (hold'.trans hold)]
    · rw [held_card hfreed]
      rfl

/-- The statistics are no block of a packet or an element. -/
theorem State.Owned.log (h : st.Owned) (l : Logger) :
    State.Owned { st with receiverLogger := l } := ⟨h.packets, h.elements, h.count⟩

theorem truncatedCase_agrees [Zlib] (h : st.Owned) :
    Agrees Turn.Keeps (truncatedCase env st)
      (SelectiveRepeat.truncatedCase env.toReceiverEnv st.value) := by
  rw [truncatedCase, SelectiveRepeat.truncatedCase]
  dsimp only
  rw [h.load, ok_bind]
  exact sendReply_agrees env (h.log st.receiverLogger.addDataTruncatedReceived) _ _ _ _

/-! ## The expected packet -/

/-- The state of the loop without the pointers. -/
def DrainState.value (s : DrainState) : SelectiveRepeat.DrainState where
  window := s.window.value s.elements
  waitedSeqnum := s.waitedSeqnum
  timestampAck := s.timestampAck
  receivePkt := s.receivePkt
  written := s.written

/-- What the loop leaves: the elements accounted for, and the packet, which a stored end of the
    transfer frees. -/
structure Drained (packets : Storage Pkt) (r : DrainState × Option ReceiverStop)
    (r' : SelectiveRepeat.DrainState × Option ReceiverStop) : Prop where
  value : (r.1.value, r.2) = r'
  elements : ∃ spare, r.1.elements.Owns r.1.window.window spare
  count : (r.1.elements.live.card : Int) = r.1.window.size
  content : r.1.packets.content = packets.content
  packets : r.1.packets = packets ∧ (r.2 = none ∨ r.2 = some .write) ∨
    r.1.packets.live.card = 0 ∧ r.2 = some .storedDisconnect

theorem drainLoop_agrees (fuel : Nat) {s : DrainState} {pkt : Nat}
    (hpackets : s.packets.Owns (held pkt) ∅)
    (helements : ∃ spare, s.elements.Owns s.window.window spare)
    (hcount : (s.elements.live.card : Int) = s.window.size) :
    Agrees (Drained s.packets) (drainLoop env pkt fuel s)
      (SelectiveRepeat.drainLoop env.toReceiverEnv fuel s.value) := by
  induction fuel generalizing s with
  | zero => exact .error _
  | succ fuel ih =>
      have hempty : s.value.window.isEmpty = s.window.isEmpty := rfl
      rw [drainLoop, SelectiveRepeat.drainLoop, hempty]
      split
      · exact .ok ⟨rfl, helements, hcount, rfl, Or.inl ⟨rfl, Or.inl rfl⟩⟩
      · refine (SortedList.peek_agrees s.window s.elements).bind ?_
        rintro ⟨first, window⟩ - - ⟨rfl, hwindow, hsize, hslot⟩
        cases first with
        | none => exact .error _
        | some p =>
            dsimp only [Option.map_some] at hwindow hsize hslot ⊢
            obtain ⟨spare, howns⟩ := helements
            rw [← hwindow] at howns
            rw [← hsize] at hcount
            have hwaited : s.value.waitedSeqnum = s.waitedSeqnum := rfl
            rw [load_live (SortedList.slot_live howns (hslot p rfl)), ok_bind, hwaited]
            split
            case isFalse => exact .ok ⟨rfl, ⟨spare, howns⟩, hcount, rfl, Or.inl ⟨rfl, Or.inl rfl⟩⟩
            split
            · -- the end of the transfer was stored: the packet is freed, the elements stay
              obtain ⟨packets', hfree, hnone, hcontent⟩ := held_freed hpackets
              rw [hfree, ok_bind]
              exact .ok ⟨rfl, ⟨spare, howns⟩, hcount, hcontent, Or.inr ⟨hnone, rfl⟩⟩
            · refine (agrees_lift _).bind ?_
              rintro payload - - rfl
              have hwritten : s.value.written = s.written := rfl
              rw [hwritten]
              split
              · exact .ok ⟨rfl, ⟨spare, howns⟩, hcount, rfl, Or.inl ⟨rfl, Or.inr rfl⟩⟩
              · refine (SortedList.pop_agrees howns (hslot p rfl)).bind ?_
                rintro ⟨window', elements'⟩ - - ⟨rfl, howns', hcount'⟩
                have hcount'' : (elements'.live.card : Int) = window'.size := by
                  dsimp only at hcount'
                  omega
                exact ih (s := {
                  packets := s.packets
                  elements := elements'
                  window := window'
                  waitedSeqnum := s.waitedSeqnum + 1
                  timestampAck := (s.elements.content p).timestamp
                  receivePkt := s.receivePkt + 1
                  written := _ }) hpackets howns' hcount''

theorem waitedCase_agrees [Zlib] (h : st.Owned) :
    Agrees Turn.Keeps (waitedCase env st)
      (SelectiveRepeat.waitedCase env.toReceiverEnv st.value) := by
  rw [waitedCase, SelectiveRepeat.waitedCase, h.load, ok_bind]
  split
  · obtain ⟨packets', hfree, hnone, hcontent⟩ := held_freed h.packets
    rw [hfree, ok_bind]
    refine .ok ⟨?_, h.elements, h.count, hnone, fun hgo => absurd hgo (by simp)⟩
    simp only [Turn.value, State.value, hcontent]
  · refine (agrees_lift _).bind ?_
    rintro payload - - rfl
    dsimp only
    split
    · exact .ok (h.keeps rfl rfl)
    · refine (drainLoop_agrees env _ (s := {
        packets := st.packets
        elements := st.elements
        window := st.window
        waitedSeqnum := st.waitedSeqnum + 1
        timestampAck := st.value.pkt.timestamp
        receivePkt := 1
        written := [(payload, env.write 0 payload)] }) h.packets h.elements h.count).bind ?_
      rintro ⟨s, stop⟩ - - ⟨rfl, helements, hcount, hcontent, hpackets⟩
      dsimp only at helements hcount hcontent hpackets ⊢
      have hvalue : st.value.pkt = s.packets.content st.pkt := by rw [hcontent]; rfl
      cases hstop : stop with
      | some reason =>
          refine .ok ⟨?_, helements, hcount, ?_, fun hgo => absurd hgo (by simp)⟩
          · simp only [Turn.value, State.value, hcontent]
            rfl
          · rw [hstop] at hpackets
            rcases hpackets with ⟨hsame, hnone | hwrite⟩ | ⟨hfreed, hend⟩
            · cases hnone
            · rw [hwrite]
              dsimp only
              rw [hsame, held_card h.packets]
              rfl
            · rw [hend]
              exact hfreed
      | none =>
          rw [hstop] at hpackets
          obtain ⟨hsame, -⟩ | ⟨-, hend⟩ := hpackets
          case inr => cases hend
          obtain ⟨spare, howns⟩ := helements
          refine (SortedList.reset_agrees howns _ _).bind ?_
          rintro window - - ⟨rfl, howns', hcount'⟩
          have howned : State.Owned { st with
              packets := s.packets
              elements := s.elements
              window := window
              waitedSeqnum := s.waitedSeqnum
              receivePkt := s.receivePkt } := by
            refine ⟨?_, howns', ?_⟩
            · dsimp only
              rw [hsame]
              exact h.packets
            · dsimp only
              omega
          have hreply := sendReply_agrees env howned s.written s.timestampAck 2
            Logger.addAckSent
          simp only [State.value, hcontent] at hreply
          exact hreply

/-! ## Any other number -/

theorem storeCase_agrees (h : st.Owned) :
    Agrees (fun r r' => (r.1.value, r.2) = r' ∧ r.1.Owned ∧ (r.2 = none ∨ r.2 = some .add))
      (storeCase env st) (SelectiveRepeat.storeCase env.toReceiverEnv st.value) := by
  have hwaited : st.value.waitedSeqnum = st.waitedSeqnum := rfl
  rw [storeCase, SelectiveRepeat.storeCase, h.load, ok_bind, hwaited]
  split
  case isFalse => exact .ok ⟨rfl, h.log _, Or.inl rfl⟩
  obtain ⟨spare, howns⟩ := h.elements
  refine (SortedList.add_agrees howns _ _ env.add env.malloc).bind ?_
  rintro ⟨res, window, elements⟩ ⟨-, -⟩ - ⟨rfl, rfl, howns', hcount⟩
  have howned : State.Owned { st with
      window := window
      elements := elements
      receiverLogger := st.receiverLogger.addDataReceived } := by
    have hbefore := h.count
    dsimp only at hcount
    exact ⟨h.packets, howns', by dsimp only; omega⟩
  dsimp only
  split
  · exact .ok ⟨rfl, howned, Or.inr rfl⟩
  · split
    · exact .ok ⟨rfl, howned.log _, Or.inl rfl⟩
    · exact .ok ⟨rfl, howned, Or.inl rfl⟩

theorem unwaitedCase_agrees [Zlib] (h : st.Owned) :
    Agrees Turn.Keeps (unwaitedCase env st)
      (SelectiveRepeat.unwaitedCase env.toReceiverEnv st.value) := by
  rw [unwaitedCase, SelectiveRepeat.unwaitedCase]
  refine (storeCase_agrees env h).bind ?_
  rintro ⟨st', stop⟩ - - ⟨rfl, howned, hstop⟩
  dsimp only at howned hstop ⊢
  split
  next hsome =>
    rcases hstop with rfl | rfl
    · cases hsome
    · exact .ok (howned.keeps rfl rfl)
  next =>
    have hreceive : st'.value.receivePkt = st'.receivePkt := rfl
    rw [hreceive]
    split
    · rw [howned.load, ok_bind]
      exact sendReply_agrees env howned _ _ _ _
    · exact .ok (howned.keeps rfl rfl)

/-! ## The turn -/

theorem dataCase_agrees [Zlib] (h : st.Owned) :
    Agrees Turn.Keeps (dataCase env st)
      (SelectiveRepeat.dataCase env.toReceiverEnv st.value) := by
  have hlogged := h.log st.receiverLogger.addDataReceived
  have hwaited : st.value.waitedSeqnum = st.waitedSeqnum := rfl
  rw [dataCase, SelectiveRepeat.dataCase]
  dsimp only
  rw [h.load, ok_bind, hwaited]
  split
  · exact truncatedCase_agrees env hlogged
  · split
    · exact waitedCase_agrees env hlogged
    · exact unwaitedCase_agrees env hlogged

theorem packetCase_agrees [Zlib] (h : st.Owned) :
    Agrees Turn.Keeps (packetCase env st)
      (SelectiveRepeat.packetCase env.toReceiverEnv st.value) := by
  rw [packetCase, SelectiveRepeat.packetCase, h.load, ok_bind]
  split
  · exact dataCase_agrees env h
  · split
    · exact .ok ((h.log st.receiverLogger.addAckReceived).keeps rfl rfl)
    · split
      · exact .ok ((h.log st.receiverLogger.addNackReceived).keeps rfl rfl)
      · exact .ok (h.keeps rfl rfl)

/-- With its pointers a turn does what it does on packets and elements. -/
theorem readWriteLoopServer_agrees [Zlib] (h : st.Owned) :
    Agrees Turn.Keeps (readWriteLoopServer env st)
      (SelectiveRepeat.readWriteLoopServer env.toReceiverEnv st.value) := by
  rw [readWriteLoopServer, SelectiveRepeat.readWriteLoopServer]
  cases env.poll with
  | timeout => exact .ok (h.keeps rfl rfl)
  | idle => exact .ok (h.keeps rfl rfl)
  | ready r =>
      dsimp only
      split
      · have hread : State.Owned { st with dataBuffer := r.fill dataBufferSize st.dataBuffer } :=
          ⟨h.packets, h.elements, h.count⟩
        exact .ok (hread.keeps rfl rfl)
      · rw [h.load, ok_bind]
        refine (agrees_lift _).bind ?_
        rintro ⟨resp, pkt⟩ - - rfl
        obtain ⟨packets', hwrite, howns, hseen⟩ := h.packets.write (i := ()) rfl pkt
        have hcontent : packets'.content st.pkt = pkt :=
          Option.some.inj ((congrFun hseen ()).trans (Function.update_self ..))
        have howned : State.Owned { st with
            dataBuffer := r.fill dataBufferSize st.dataBuffer
            packets := packets' } := ⟨howns, h.elements, h.count⟩
        rw [store_eq hwrite, ok_bind]
        dsimp only
        split
        · have hcase := packetCase_agrees env howned
          simp only [State.value, hcontent] at hcase
          exact hcase
        · have hkeeps := (howned.log st.receiverLogger.addPacketIgnored).keeps
            (t := { state := { st with
              dataBuffer := r.fill dataBufferSize st.dataBuffer
              packets := packets'
              receiverLogger := st.receiverLogger.addPacketIgnored } }) rfl rfl
          simp only [Turn.value, State.value, hcontent] at hkeeps
          exact .ok hkeeps

end

/-! ## Whole runs -/

/-- The memory without the pointers. -/
def Memory.value (mem : Memory) : ReceiverMemory where
  window := mem.window.value (Storage.empty mem.elements)
  dataBuffer := mem.dataBuffer
  buffer := mem.buffer
  pkt := mem.pkt
  receiverLogger := mem.receiverLogger

theorem Memory.value_null {mem : Memory} (hnull : ∀ i, mem.window.window i = none)
    (i : Fin MAX_WINDOW_SIZE) : mem.value.window.window i = none :=
  congrArg (Option.map mem.elements) (hnull i)

theorem receiverInit_value (mem : Memory) (statFile : Bool) :
    (receiverInit mem statFile).value = SelectiveRepeat.receiverInit mem.value statFile := by
  have hcontent : ((Storage.empty mem.packets).place (mem.pktNew.address ∅) mem.pkt).content
      (mem.pktNew.address ∅) = mem.pkt := Function.update_self ..
  simp only [State.value, receiverInit, pktNew, Storage.empty] at hcontent ⊢
  rw [hcontent]
  rfl

/-- At the start `pkt` is the one block there is. -/
theorem receiverInit_owned {mem : Memory} (hnull : ∀ i, mem.window.window i = none)
    (statFile : Bool) : (receiverInit mem statFile).Owned := by
  have hwindow : (receiverInit mem statFile).window.window = fun _ => none := funext hnull
  refine ⟨?_, ⟨∅, ?_⟩, rfl⟩
  · have hnone : (Storage.empty mem.packets).Owns (fun _ : Unit => none) ∅ :=
      Storage.owns_empty mem.packets
    obtain ⟨p, hp, heap, hnew, howns, -⟩ := pktNew_owns hnone mem.pktNew mem.pkt
    simp only [receiverInit, hnew]
    obtain ⟨hgiven, -⟩ := howns.give (Finset.mem_insert_self p ∅) (i := ()) rfl
    rw [Finset.erase_insert hp] at hgiven
    exact hgiven
  · rw [hwindow]
    exact Storage.owns_empty mem.elements

/-- `Run mem statFile steps st`: with its pointers, `read_write_loop_server` has made turns
    without returning and is in the state `st`; they are recorded as they are on packets and
    elements. -/
inductive Run [Zlib] (mem : Memory) (statFile : Bool) : List ReceiverStep → State → Prop where
  | init : Run mem statFile [] (receiverInit mem statFile)
  | turn {steps : List ReceiverStep} {st : State} {env : Env} {t : Turn} :
      Run mem statFile steps st → readWriteLoopServer env st = .ok t → t.stop = none →
      Run mem statFile
        (steps ++ [{ env := env.toReceiverEnv, before := st.value, turn := t.value }]) t.state

section
variable [Zlib] {mem : Memory} {statFile : Bool} {steps : List ReceiverStep} {st : State}

/-- The run lemma. -/
theorem Run.owned (hnull : ∀ i, mem.window.window i = none) (h : Run mem statFile steps st) :
    ReceiverHistory mem.value statFile steps st.value ∧ st.Owned := by
  induction h with
  | init =>
      refine ⟨?_, receiverInit_owned hnull statFile⟩
      rw [receiverInit_value]
      exact .init
  | @turn steps st env t _ hturn hgo ih =>
      obtain ⟨hhistory, howned⟩ := ih
      have hagrees := readWriteLoopServer_agrees env howned
      rw [hturn] at hagrees
      obtain ⟨t', ht', hkeeps⟩ := hagrees.of_ok
      obtain ⟨rfl, helements, hcount, -, hpackets⟩ := hkeeps
      exact ⟨.turn hhistory ht' hgo, hpackets hgo, helements, hcount⟩

/-- The memory of the receiver, in every run from a window of null slots in which `pkt_new` has
    memory, whatever arrives and wherever the blocks are.  A turn with pointers is the turn on packets and elements, so it
    follows and frees no pointer that dangles.  Between two turns one packet is allocated, and
    the elements allocated are those of the window, each behind one slot and as many as `size`;
    a `return` leaves the elements that were not written, and the packets that are not freed
    on that way out. -/
theorem receiverRun_owns (hnull : ∀ i, mem.window.window i = none) (h : Run mem statFile steps st) :
    ReceiverHistory mem.value statFile steps st.value ∧
      st.packets.live = {st.pkt} ∧
      st.elements.Owns st.window.window ∅ ∧
      (st.elements.live.card : Int) = st.window.size ∧
      ∀ env : Env,
        (readWriteLoopServer env st).map Turn.value =
          lift (SelectiveRepeat.readWriteLoopServer env.toReceiverEnv st.value) ∧
        (∀ p, readWriteLoopServer env st ≠ .error (.dangling p)) ∧
        ∀ t, readWriteLoopServer env st = .ok t →
          (t.state.elements.live.card : Int) = t.state.window.size ∧
          t.state.packets.live.card = left t.stop := by
  obtain ⟨hhistory, howned⟩ := h.owned hnull
  refine ⟨hhistory, ?_, ?_, howned.count, fun env => ?_⟩
  · ext p
    rw [howned.packets.live_iff]
    simp [held, eq_comm]
  · obtain ⟨spare, howns⟩ := howned.elements
    obtain ⟨W, known, hrep⟩ := hhistory.represents (Memory.value_null hnull)
    -- as many elements as occupied slots, so none is elsewhere
    have htable : ∀ i : Fin MAX_WINDOW_SIZE, st.value.window.cells i =
        st.elements.seen st.window.window i := fun i => dif_pos i.isLt
    have hcounted : st.window.size = SelectiveRepeat.Slots.occupied st.value.window.cells 31 :=
      hrep.counted
    have hcard := howns.card
    rw [← Slots.occupied_eq_card htable] at hcard
    have hcount := howned.count
    have hzero : spare.card = 0 := by
      simp only [MAX_WINDOW_SIZE] at hcard
      omega
    rwa [Finset.card_eq_zero.mp hzero] at howns
  · have hagrees := readWriteLoopServer_agrees env howned
    refine ⟨(hagrees.mono fun _ _ hkeeps => hkeeps.value).map_eq, hagrees.not_dangling,
      fun t ht => ?_⟩
    rw [ht] at hagrees
    obtain ⟨t', -, hkeeps⟩ := hagrees.of_ok
    exact ⟨hkeeps.count, hkeeps.packets⟩

end

/-- A window of null pointers, in a memory of zeros. -/
def nullPointers : Memory where
  window := { window := fun _ => none, size := 0, ptr := 0 }
  elements := fun _ => { payload := fun _ => 0, length := 0, seqnum := 0, timestamp := 0 }
  packets := fun _ => nullMemory.pkt
  dataBuffer := nullMemory.dataBuffer
  buffer := nullMemory.buffer
  pktNew := .next
  pkt := nullMemory.pkt
  receiverLogger := nullMemory.receiverLogger

/-- Packet 1 before packet 0: its payload is in an element of its own, and the packet serves the
    next datagram. -/
theorem receiverRun_owns_stored : letI := zlib
    let env : Env := { datagramEnv (bytePkt 1 0 7).wire with pktNew := .next, add := .next }
    ∃ t, readWriteLoopServer env (receiverInit nullPointers false) = .ok t ∧
      t.state.elements.live.card = 1 ∧ t.state.packets.live = {t.state.pkt} ∧
      t.state.elements.Owns t.state.window.window ∅ := by
  let _ := zlib
  intro env
  have hok : (readWriteLoopServer env (receiverInit nullPointers false)).map
      (fun t => (t.stop, t.state.elements.live.card)) = .ok (none, 1) := by
    decide +kernel
  obtain ⟨t, hturn, ht⟩ := exists_ok_of_map hok
  rw [Prod.mk.injEq] at ht
  obtain ⟨hgo, hcard⟩ := ht
  have hrun : Run nullPointers false ([] ++ [⟨env.toReceiverEnv, _, t.value⟩]) t.state :=
    .turn .init hturn hgo
  obtain ⟨-, hpackets, helements, -⟩ := receiverRun_owns (fun _ => rfl) hrun
  exact ⟨t, hturn, hcard, hpackets, helements⟩

end SelectiveRepeat.Pointers.Receiver
