/-
  SelectiveRepeat.Receiver.Window

  What the receiver's window is for: `known` is what has been accepted of the
  stream, position by position, and `W` how much of it was handed on.  Between two
  datagrams the cells of the window are the part of `known` from `W` on, and `W` is
  the first gap.  One datagram has one of the effects listed in `Effect`, whatever
  its content and whatever `write`, `send` and `malloc` return.
-/
import SelectiveRepeat.Receiver.Drain
import SelectiveRepeat.Segment.Total

namespace SelectiveRepeat

open Reassembly

/-! ## The invariant -/

/-- An item of the stream: the payload and the timestamp it was sent with. -/
abbrev Item := Bytes × UInt32

def Pstl.item (elem : Pstl) : Item := (elem.data, elem.timestamp)

def Pkt.item (pkt : Pkt) : Item := (pkt.data, pkt.timestamp)

/-- The window between two datagrams. -/
structure Ready (st : ReceiverState) : Prop where
  ptr : st.window.ptr = 0
  counted : st.window.Counted
  head : st.window.cells 0 = none
  placed : Placed st.window.cells st.waitedSeqnum
  ackSize : st.ackSize = 10

/-- The window as the part of a stream from its first gap on. -/
structure Represents (st : ReceiverState) (W : Nat) (known : Nat → Option Item) : Prop
    extends Ready st where
  waited : st.waitedSeqnum = UInt8.ofNat W
  cells : ∀ i, (st.window.cells i).map Pstl.item = known (W + i)
  below : ∀ k < W, ∃ x, known k = some x

theorem Represents.gap {st : ReceiverState} {W : Nat} {known : Nat → Option Item}
    (h : Represents st W known) : Gap known W := by
  refine ⟨h.below, ?_⟩
  have hcell := h.cells 0
  rw [h.head] at hcell
  exact hcell.symm

/-- The invariant looks at the window, the expected number and the size of a reply. -/
theorem Represents.congr {st st' : ReceiverState} {W : Nat} {known : Nat → Option Item}
    (h : Represents st W known) (hwindow : st'.window = st.window)
    (hwaited : st'.waitedSeqnum = st.waitedSeqnum) (hsize : st'.ackSize = 10) :
    Represents st' W known := by
  refine ⟨⟨?_, ?_, ?_, ?_, hsize⟩, hwaited.trans h.waited, ?_, h.below⟩
  · rw [hwindow]
    exact h.ptr
  · rw [hwindow]
    exact h.counted
  · rw [hwindow]
    exact h.head
  · rw [hwindow, hwaited]
    exact h.placed
  · rw [hwindow]
    exact h.cells

theorem Pstl.data_length (elem : Pstl) : elem.data.length = elem.length.toNat := by
  simp [Pstl.data]

theorem uint16_eq_zero {n : UInt16} : n = 0 ↔ n.toNat = 0 := by
  rw [← UInt16.toNat_inj, UInt16.toNat_zero]

theorem Pstl.data_eq_nil {elem : Pstl} : elem.data = [] ↔ elem.length = 0 := by
  rw [← List.length_eq_zero_iff, elem.data_length, uint16_eq_zero]

theorem Pkt.data_eq_nil {pkt : Pkt} : pkt.data = [] ↔ pkt.length = 0 := by
  rw [← List.length_eq_zero_iff, pkt.data_length, uint16_eq_zero]

/-- What `add` stores is the packet it was given. -/
theorem stored_item (packet : Pkt) (toAdd : Pstl) :
    (packet.stored packet.data toAdd).item = packet.item := by
  have hdata : (packet.stored packet.data toAdd).data = packet.data := by
    have hslice := Mem.slice_blit toAdd.payload 0 packet.data
    rwa [packet.data_length] at hslice
  rw [Pstl.item, hdata]
  rfl

/-! ## Distances -/

theorem inWindow_iff (waited received : UInt8) :
    inWindow waited received = true ↔ distance waited received ≤ 32 := by
  have hd := distance_def waited received
  have hw := waited.toNat_lt
  have hr := received.toNat_lt
  rw [inWindow]
  split <;> rw [decide_eq_true_iff] <;> omega

/-! ## The effect of a datagram -/

/-- The one reply sent is of this type and carries the number of `W`. -/
def Replies [Zlib] (type : BitVec 2) (W : Nat) (sent : List Bytes) : Prop :=
  ∃ pkt timestamp, Pkt.Reply pkt type (UInt8.ofNat W) timestamp ∧ sent = [pkt.wire]

/-- The last ACK is sent again once there was one. -/
def Reacks [Zlib] (st : ReceiverState) (W : Nat) (t : ReceiverTurn) : Prop :=
  if st.receivePkt = 0 then t.sent = [] else Replies ptypeAck W t.sent

/-- The turn goes on, or it returns because `send` returned 0. -/
def GoesOn (env : ReceiverEnv) (t : ReceiverTurn) : Prop :=
  t.stop = none ∨ t.stop = some .send ∧ env.send = 0

/-- What a DATA packet `q` does to a receiver that has handed on `W` items of
    `known`; `xs` are the items that follow the one it fills the gap with. -/
inductive Effect [Zlib] (env : ReceiverEnv) (st : ReceiverState) (W : Nat)
    (known : Nat → Option Item) (q : Pkt) (t : ReceiverTurn) : Prop where
  | truncated (htr : q.tr = 1) (hrep : Represents t.state W known)
      (hreceive : t.state.receivePkt = st.receivePkt) (hwritten : t.written = [])
      (hsent : Replies ptypeNack W t.sent) (hstop : GoesOn env t)
  | ignored (htr : q.tr = 0) (hd : 32 < distance st.waitedSeqnum q.seqnum)
      (hrep : Represents t.state W known) (hreceive : t.state.receivePkt = st.receivePkt)
      (hwritten : t.written = []) (hsent : Reacks st W t) (hstop : GoesOn env t)
  | stored (htr : q.tr = 0) (hpos : 0 < distance st.waitedSeqnum q.seqnum)
      (hd : distance st.waitedSeqnum q.seqnum < 31)
      (hrep : Represents t.state W
        (accept known (W + distance st.waitedSeqnum q.seqnum) q.item))
      (hreceive : t.state.receivePkt = st.receivePkt) (hwritten : t.written = [])
      (hsent : Reacks st W t) (hstop : GoesOn env t)
  | noMemory (htr : q.tr = 0) (hpos : 0 < distance st.waitedSeqnum q.seqnum)
      (hd : distance st.waitedSeqnum q.seqnum < 31) (hmalloc : env.malloc = none)
      (hwritten : t.written = []) (hsent : t.sent = []) (hstop : t.stop = some .add)
  | disconnect (htr : q.tr = 0) (hd : distance st.waitedSeqnum q.seqnum = 0)
      (hempty : q.data = []) (hwritten : t.written = []) (hsent : t.sent = [])
      (hstop : t.stop = some .disconnect)
  | delivered (xs : List Item) (htr : q.tr = 0) (hd : distance st.waitedSeqnum q.seqnum = 0)
      (hne : q.data ≠ []) (hrun : Run known (W + 1) xs) (hxs : ∀ x ∈ xs, x.1 ≠ [])
      (hend : known (W + 1 + xs.length) = none)
      (hcells : t.state.window.cells = Slots.shift st.window.cells (1 + xs.length))
      (hrep : Represents t.state (W + 1 + xs.length) (accept known W q.item))
      (hreceive : t.state.receivePkt = 1 + UInt64.ofNat xs.length)
      (hwritten : t.written = env.writes 0 (q.data :: xs.map Prod.fst))
      (hsent : Replies ptypeAck (W + 1 + xs.length) t.sent) (hstop : GoesOn env t)
  | storedDisconnect (xs : List Item) (timestamp : UInt32) (htr : q.tr = 0)
      (hd : distance st.waitedSeqnum q.seqnum = 0) (hne : q.data ≠ [])
      (hrun : Run known (W + 1) xs) (hxs : ∀ x ∈ xs, x.1 ≠ [])
      (hend : known (W + 1 + xs.length) = some ([], timestamp))
      (hcells : t.state.window.cells = above st.window.cells xs.length)
      (hwritten : t.written = env.writes 0 (q.data :: xs.map Prod.fst))
      (hsent : t.sent = []) (hstop : t.stop = some .storedDisconnect)
  | writeFailed (xs : List Item) (htr : q.tr = 0)
      (hd : distance st.waitedSeqnum q.seqnum = 0) (hne : q.data ≠ [])
      (hrun : Run known (W + 1) xs) (hxs : ∀ x ∈ xs, x.1 ≠ [])
      (hwritten : t.written = env.writes 0 (q.data :: xs.map Prod.fst))
      (hfail : ∃ n payload, payload ≠ [] ∧ env.write n payload = 0)
      (hsent : t.sent = []) (hstop : t.stop = some .write)

/-- A reply leaves the stream alone. -/
theorem sendReply_effect [Zlib] (env : ReceiverEnv) {st : ReceiverState} {W : Nat}
    {known : Nat → Option Item} (h : Represents st W known) (written : List (Bytes × Int))
    (timestamp : UInt32) {type : UInt32} (htype : type ≠ 0)
    (hdata : BitVec.ofNat 2 type.toNat ≠ ptypeData) (count : Logger → Logger) :
    ∃ t, sendReply env st written timestamp type count = .ok t ∧ Represents t.state W known ∧
      t.state.receivePkt = st.receivePkt ∧ t.state.window = st.window ∧ t.written = written ∧
      Replies (BitVec.ofNat 2 type.toNat) W t.sent ∧ GoesOn env t := by
  obtain ⟨pkt, buffer, hreply, hrun⟩ :=
    sendReply_spec env h.ackSize written timestamp htype hdata count
  rw [h.waited] at hreply
  by_cases hsend : env.send = 0
  · rw [if_pos hsend] at hrun
    exact ⟨_, hrun, h.congr rfl rfl rfl, rfl, rfl, rfl, ⟨pkt, timestamp, hreply, rfl⟩,
      Or.inr ⟨rfl, hsend⟩⟩
  · rw [if_neg hsend] at hrun
    exact ⟨_, hrun, h.congr rfl rfl rfl, rfl, rfl, rfl, ⟨pkt, timestamp, hreply, rfl⟩,
      Or.inl rfl⟩

/-! ## The expected packet -/

theorem ReceiverEnv.writes_append (env : ReceiverEnv) (n : Nat) (ps qs : List Bytes) :
    env.writes n (ps ++ qs) = env.writes n ps ++ env.writes (n + ps.length) qs := by
  induction ps generalizing n with
  | nil => rfl
  | cons p ps ih =>
      rw [List.cons_append, ReceiverEnv.writes, ReceiverEnv.writes, ih, List.cons_append,
        List.length_cons, show n + 1 + ps.length = n + (ps.length + 1) by omega]

theorem Run.length_le {cells : Nat → Option Pstl} (hbound : ∀ i, 31 ≤ i → cells i = none)
    {elems : List Pstl} (hrun : Run cells 1 elems) : elems.length ≤ 30 := by
  by_contra hlt
  obtain ⟨elem, helem⟩ := hrun.exists_item (k := 31) (by omega) (by omega)
  rw [hbound 31 (Nat.le_refl 31)] at helem
  exact absurd helem (by simp)

/-- Moving the window to the gap that follows a run keeps the invariant. -/
theorem Represents.advance {st st' : ReceiverState} {W : Nat} {known : Nat → Option Item}
    (h : Represents st W known) {elems : List Pstl} (hrun : Run st.window.cells 1 elems)
    (hgap : st.window.cells (elems.length + 1) = none) (x : Item)
    (hcells : st'.window.cells = Slots.shift st.window.cells (1 + elems.length))
    (hcounted : st'.window.Counted) (hptr : st'.window.ptr = 0) (hsize : st'.ackSize = 10)
    (hwaited : st'.waitedSeqnum = st.waitedSeqnum + UInt8.ofNat (1 + elems.length)) :
    Represents st' (W + 1 + elems.length) (accept known W x) := by
  have hknown : Run known (W + 1) (elems.map Pstl.item) := hrun.map fun i _ _ => h.cells i
  -- the free cell behind the run is the next gap of the stream
  have hend : known (W + 1 + elems.length) = none := by
    have hcell := h.cells (elems.length + 1)
    rw [hgap, show W + (elems.length + 1) = W + 1 + elems.length by omega] at hcell
    exact hcell.symm
  refine ⟨⟨hptr, hcounted, ?_, ⟨?_, ?_, ?_⟩, hsize⟩, ?_, ?_, ?_⟩
  · rw [hcells, Slots.shift, Nat.zero_add, Nat.add_comm]
    exact hgap
  · -- a packet moves down by as much as the expected number goes up
    intro i elem helem
    rw [hcells, Slots.shift] at helem
    rw [h.placed.seqnum _ elem helem, hwaited, Nat.add_comm i, UInt8.ofNat_add]
    grind
  · intro i elem helem
    rw [hcells, Slots.shift] at helem
    exact h.placed.length_le _ elem helem
  · intro i hi
    exact st'.window.cells_of_ge hi
  · rw [hwaited, h.waited, ← UInt8.ofNat_add, Nat.add_assoc]
  · intro i
    rw [hcells, Slots.shift, h.cells, accept_of_ne (by omega)]
    congr 1
    omega
  · have hmove := (h.gap.accept_at (x := x) hknown (by rw [List.length_map]; exact hend)).below
    rwa [List.length_map] at hmove

/-- The state the loop that empties the window starts in, when the packet is written. -/
def drainStart (env : ReceiverEnv) (st : ReceiverState) : DrainState where
  window := st.window
  waitedSeqnum := st.waitedSeqnum + 1
  timestampAck := st.pkt.timestamp
  receivePkt := 1
  written := [(st.pkt.data, env.write 0 st.pkt.data)]

theorem waitedCase_written [Zlib] (env : ReceiverEnv) {st : ReceiverState} (htr : st.pkt.tr = 0)
    (hlen : st.pkt.length.toNat ≤ 512) (hempty : st.pkt.length ≠ 0)
    (hwrite : env.write 0 st.pkt.data ≠ 0) {s : DrainState} {stop : Option ReceiverStop}
    (hloop : drainLoop env (st.window.size.toNat + 1) (drainStart env st) = .ok (s, stop)) :
    let st' := { st with
      window := s.window, waitedSeqnum := s.waitedSeqnum, receivePkt := s.receivePkt }
    waitedCase env st =
      (match stop with
      | some reason => .ok { state := st', stop := some reason, written := s.written }
      | none => do
          let window ← s.window.reset s.waitedSeqnum st.waitedSeqnum
          sendReply env { st' with window := window } s.written s.timestampAck 2
            Logger.addAckSent) := by
  have hread : readPayload st.pkt = .ok st.pkt.data := readPayload_of_le htr hlen
  rw [drainStart] at hloop
  simp only [waitedCase, if_neg hempty, hread, ok_bind, if_neg hwrite, hloop]
  cases stop <;> rfl

/-- What the loop does from a window between two datagrams. -/
theorem Ready.drain {st : ReceiverState} (h : Ready st) (env : ReceiverEnv) :
    ∃ elems s stop,
      drainLoop env (st.window.size.toNat + 1) (drainStart env st) = .ok (s, stop) ∧
      Run st.window.cells 1 elems ∧ (∀ elem ∈ elems, elem.length ≠ 0) ∧
      DrainEnd env st.window.cells (drainStart env st) 0 elems s stop := by
  -- slot 0 is free, so the loop starts as if place 0 was done with
  have habove : st.window.cells = above st.window.cells 0 := by
    funext i
    rcases Nat.eq_zero_or_pos i with rfl | hpos
    · rw [above_le _ (Nat.le_refl 0), h.head]
    · rw [above_gt _ hpos]
  have hcount : st.window.size = Slots.occupied st.window.cells 31 := h.counted
  have hptr : (drainStart env st).window.ptr.toNat ≤ 0 + 1 := by
    show st.window.ptr.toNat ≤ 1
    rw [h.ptr]
    decide
  have hfuel : Slots.occupied (above st.window.cells 0) 31 < st.window.size.toNat + 1 := by
    rw [← habove, hcount]
    omega
  exact drainLoop_spec env h.placed habove h.counted hptr (Nat.zero_le _) rfl hfuel

/-- The item behind `n` items that follow the expected one. -/
theorem Represents.behind {st : ReceiverState} {W : Nat} {known : Nat → Option Item}
    (h : Represents st W known) (n : Nat) :
    known (W + 1 + n) = (st.window.cells (0 + n + 1)).map Pstl.item := by
  rw [h.cells]
  congr 1
  omega

/-- The window after the loop has met a gap: `reset` moves what is left to the front. -/
theorem Represents.reset {st : ReceiverState} {W : Nat} {known : Nat → Option Item}
    (h : Represents st W known) {elems : List Pstl} (hrun : Run st.window.cells 1 elems)
    (hgap : st.window.cells (elems.length + 1) = none) {window : SortedList} {waited : UInt8}
    (hcells : window.cells = above st.window.cells elems.length) (hcounted : window.Counted)
    (hwaited : waited = st.waitedSeqnum + UInt8.ofNat (1 + elems.length)) (receivePkt : UInt64) :
    ∃ window', window.reset waited st.waitedSeqnum = .ok window' ∧
      window'.cells = Slots.shift st.window.cells (1 + elems.length) ∧
      Represents { st with
        window := window', waitedSeqnum := waited, receivePkt := receivePkt }
        (W + 1 + elems.length) (accept known W st.pkt.item) := by
  have hshort := Run.length_le h.placed.bound hrun
  -- `reset` finds out how far to move from the two expected numbers
  have hdist : distance st.waitedSeqnum waited = 1 + elems.length := by
    rw [hwaited]
    exact distance_add (by omega)
  have hlow : ∀ i < distance st.waitedSeqnum waited, window.cells i = none := by
    intro i hi
    rw [hcells, above_le _ (by omega)]
  obtain ⟨window', hreset, hcells', hcounted', hptr'⟩ :=
    SortedList.reset_spec hcounted (by omega) (by omega) hlow
  have hshift : window'.cells = Slots.shift st.window.cells (1 + elems.length) := by
    rw [hcells', hdist, hcells]
    funext i
    rw [Slots.shift, Slots.shift, above_gt _ (by omega)]
  exact ⟨window', hreset, hshift,
    h.advance hrun hgap st.pkt.item hshift hcounted' hptr' h.ackSize hwaited⟩

/-- What was written when a write behind `elems` failed. -/
theorem writes_failed (env : ReceiverEnv) (first : Bytes) (elems : List Pstl) {elem : Pstl}
    (hzero : env.write (1 + elems.length) elem.data = 0) :
    (first, env.write 0 first) :: (env.writes 1 (elems.map Pstl.data) ++ [(elem.data, 0)]) =
      env.writes 0 (first :: (elems.map Pstl.item ++ [elem.item]).map Prod.fst) := by
  have hpayloads : (elems.map Pstl.item ++ [elem.item]).map Prod.fst =
      elems.map Pstl.data ++ [elem.data] := by
    rw [List.map_append, List.map_map]
    rfl
  rw [hpayloads, ReceiverEnv.writes, env.writes_append, List.length_map, Nat.zero_add,
    ReceiverEnv.writes, ReceiverEnv.writes, hzero]

theorem waitedCase_effect [Zlib] (env : ReceiverEnv) {st : ReceiverState} {W : Nat}
    {known : Nat → Option Item} (h : Represents st W known) (htr : st.pkt.tr = 0)
    (hlen : st.pkt.length.toNat ≤ 512) (hseq : st.pkt.seqnum = st.waitedSeqnum) :
    ∃ t, waitedCase env st = .ok t ∧ Effect env st W known st.pkt t := by
  have hd : distance st.waitedSeqnum st.pkt.seqnum = 0 := by rw [hseq, distance_self]
  by_cases hempty : st.pkt.length = 0
  · exact ⟨_, by rw [waitedCase, if_pos hempty],
      .disconnect htr hd (Pkt.data_eq_nil.mpr hempty) rfl rfl rfl⟩
  have hne : st.pkt.data ≠ [] := fun hnil => hempty (Pkt.data_eq_nil.mp hnil)
  by_cases hfail : env.write 0 st.pkt.data = 0
  · -- the first write returns 0
    have hread : readPayload st.pkt = .ok st.pkt.data := readPayload_of_le htr hlen
    refine ⟨{ state := st, stop := some .write, written := [(st.pkt.data, 0)] }, ?_, ?_⟩
    · simp only [waitedCase, if_neg hempty, hread, ok_bind, hfail, if_true]
      rfl
    · refine .writeFailed [] htr hd hne trivial (fun _ hx => absurd hx List.not_mem_nil) ?_
        ⟨0, _, hne, hfail⟩ rfl rfl
      rw [List.map_nil, ReceiverEnv.writes, ReceiverEnv.writes, hfail]
  -- the packet is written; the loop hands on what follows it
  obtain ⟨elems, s, stop, hloop, hrun, hnonempty, hdrain⟩ := h.toReady.drain env
  have hknown : Run known (W + 1) (elems.map Pstl.item) := hrun.map fun i _ _ => h.cells i
  have hitems : ∀ x ∈ elems.map Pstl.item, x.1 ≠ [] := by
    intro x hx
    obtain ⟨elem, helem, rfl⟩ := List.mem_map.mp hx
    exact fun hnil => hnonempty elem helem (Pstl.data_eq_nil.mp hnil)
  have hpayloads : elems.map Pstl.data = (elems.map Pstl.item).map Prod.fst := by
    rw [List.map_map]
    rfl
  rw [waitedCase_written env htr hlen hempty hfail hloop]
  cases hdrain with
  | gap hgap hcells hcounted hwaited hwritten hreceive =>
      -- the window is moved to the gap and the ACK is sent from there
      have hend := h.behind elems.length
      rw [hgap] at hend
      rw [Nat.zero_add] at hgap hcells
      have hwaited' : s.waitedSeqnum = st.waitedSeqnum + UInt8.ofNat (1 + elems.length) := by
        rw [hwaited, add_ofNat_one_add]
        rfl
      obtain ⟨window', hreset, hshift, hadvance⟩ :=
        h.reset hrun hgap hcells hcounted hwaited' s.receivePkt
      obtain ⟨t, hsend, hrep, hrecv, hwin, hw, hs, hstop⟩ := sendReply_effect env hadvance
        s.written s.timestampAck (show (2 : UInt32) ≠ 0 by decide) (by decide) Logger.addAckSent
      simp only [hreset, ok_bind]
      refine ⟨t, hsend, .delivered (elems.map Pstl.item) htr hd hne hknown hitems ?_ ?_ ?_ ?_ ?_ ?_
        hstop⟩
      · rw [List.length_map]
        exact hend
      · rw [hwin, List.length_map]
        exact hshift
      · rwa [List.length_map]
      · rw [hrecv, hreceive, List.length_map]
        rfl
      · rw [hw, hwritten, hpayloads]
        rfl
      · rwa [List.length_map]
  | @disconnect elem hend hlength hcells hwaited hwritten =>
      -- the loop returns before `reset`, so the cells stay where they are
      refine ⟨_, rfl, .storedDisconnect (elems.map Pstl.item) elem.timestamp htr hd hne hknown
        hitems ?_ ?_ ?_ rfl rfl⟩
      · rw [List.length_map, h.behind, hend, Option.map_some, Pstl.item,
          Pstl.data_eq_nil.mpr hlength]
      · rw [hcells, Nat.zero_add, List.length_map]
      · rw [hwritten, hpayloads]
        rfl
  | @write elem hnext hlength hzero hwaited hwritten =>
      have hnonnil : elem.data ≠ [] := fun hnil => hlength (Pstl.data_eq_nil.mp hnil)
      refine ⟨_, rfl, .writeFailed (elems.map Pstl.item ++ [elem.item]) htr hd hne ?_ ?_ ?_
        ⟨_, _, hnonnil, hzero⟩ rfl rfl⟩
      · refine hknown.append ⟨?_, trivial⟩
        rw [List.length_map, h.behind, hnext, Option.map_some]
      · intro x hx
        rcases List.mem_append.mp hx with hx | hx
        · exact hitems x hx
        · rw [List.mem_singleton.mp hx]
          exact hnonnil
      · rw [← writes_failed env st.pkt.data elems hzero]
        exact hwritten

/-! ## Any other packet -/

theorem truncatedCase_effect [Zlib] (env : ReceiverEnv) {st : ReceiverState} {W : Nat}
    {known : Nat → Option Item} (h : Represents st W known) (htr : st.pkt.tr = 1) :
    ∃ t, truncatedCase env st = .ok t ∧ Effect env st W known st.pkt t := by
  have hlog : Represents { st with
      receiverLogger := st.receiverLogger.addDataTruncatedReceived } W known :=
    h.congr rfl rfl h.ackSize
  obtain ⟨t, hrun, hrep, hrecv, -, hw, hs, hstop⟩ := sendReply_effect env hlog [] st.pkt.timestamp
    (show (3 : UInt32) ≠ 0 by decide) (by decide) Logger.addNackSent
  exact ⟨t, hrun, .truncated htr hrep hrecv hw hs hstop⟩

/-- The end of the branch: the last ACK is sent again if there was one. -/
theorem reack_effect [Zlib] (env : ReceiverEnv) {st : ReceiverState} {W : Nat}
    {known : Nat → Option Item} (h : Represents st W known) :
    ∃ t, (if st.receivePkt ≠ 0 then sendReply env st [] st.pkt.timestamp 2 Logger.addAckSent
        else pure { state := st }) = Except.ok t ∧
      Represents t.state W known ∧ t.state.receivePkt = st.receivePkt ∧ t.written = [] ∧
      Reacks st W t ∧ GoesOn env t := by
  by_cases hfirst : st.receivePkt = 0
  · rw [if_neg (not_not.mpr hfirst)]
    exact ⟨_, rfl, h, rfl, rfl, by rw [Reacks, if_pos hfirst], Or.inl rfl⟩
  · rw [if_pos hfirst]
    obtain ⟨t, hrun, hrep, hrecv, -, hw, hs, hstop⟩ := sendReply_effect env h [] st.pkt.timestamp
      (show (2 : UInt32) ≠ 0 by decide) (by decide) Logger.addAckSent
    exact ⟨t, hrun, hrep, hrecv, hw, by rw [Reacks, if_neg hfirst]; exact hs, hstop⟩

theorem Represents.store {st st' : ReceiverState} {W d : Nat} {known : Nat → Option Item}
    (h : Represents st W known) (hpos : 0 < d) (hd : d < 31) {elem : Pstl}
    (hfree : st.window.cells d = none)
    (hcells : st'.window.cells = Function.update st.window.cells d (some elem))
    (hsize : st'.window.size = st.window.size + 1) (hptr : st'.window.ptr = st.window.ptr)
    (hseq : elem.seqnum = st.waitedSeqnum + UInt8.ofNat d) (hlen : elem.length.toNat ≤ 512)
    (hwaited : st'.waitedSeqnum = st.waitedSeqnum) (hack : st'.ackSize = 10) :
    Represents st' W (accept known (W + d) elem.item) := by
  have hnone : known (W + d) = none := by
    rw [← h.cells d, hfree]
    rfl
  have hcount : st.window.size = Slots.occupied st.window.cells 31 := h.counted
  refine ⟨⟨?_, ?_, ?_, ⟨?_, ?_, ?_⟩, hack⟩, hwaited.trans h.waited, ?_, ?_⟩
  · rw [hptr]
    exact h.ptr
  · -- one more packet, one more occupied cell
    rw [SortedList.Counted, hcells, hsize, hcount, Slots.occupied_fill hd hfree]
    omega
  · rw [hcells, Function.update_of_ne (Nat.ne_of_lt hpos)]
    exact h.head
  · rw [hwaited, hcells]
    apply Slots.forall_update h.placed.seqnum
    rintro e ⟨⟩
    exact hseq
  · rw [hcells]
    apply Slots.forall_update h.placed.length_le
    rintro e ⟨⟩
    exact hlen
  · exact fun i hi => st'.window.cells_of_ge hi
  · -- the cell that was filled is the position that was accepted
    intro i
    rw [hcells, accept_of_none hnone]
    by_cases hi : i = d
    · rw [hi, Function.update_self, Function.update_self]
      rfl
    · rw [Function.update_of_ne hi, Function.update_of_ne (by omega)]
      exact h.cells i
  · intro k hk
    rw [accept_of_ne (by omega)]
    exact h.below k hk

/-- Storing a packet with a slot: it is accepted, unless there is no memory left. -/
theorem storeCase_slot (env : ReceiverEnv) {st : ReceiverState} {W : Nat}
    {known : Nat → Option Item} (h : Represents st W known) (htr : st.pkt.tr = 0)
    (hlen : st.pkt.length.toNat ≤ 512) (hpos : 0 < distance st.waitedSeqnum st.pkt.seqnum)
    (hd : distance st.waitedSeqnum st.pkt.seqnum < 31) :
    ∃ st' stop, storeCase env st = .ok (st', stop) ∧ st'.receivePkt = st.receivePkt ∧
      st'.pkt = st.pkt ∧
      (stop = none ∧
          Represents st' W (accept known (W + distance st.waitedSeqnum st.pkt.seqnum) st.pkt.item) ∨
        stop = some .add ∧ env.malloc = none) := by
  have hin : inWindow st.waitedSeqnum st.pkt.seqnum = true := by
    rw [inWindow_iff]
    omega
  have hread : readPayload st.pkt = .ok st.pkt.data := readPayload_of_le htr hlen
  cases hcell : st.window.cells (distance st.waitedSeqnum st.pkt.seqnum) with
  | some elem =>
      -- a duplicate
      have hknown : known (W + distance st.waitedSeqnum st.pkt.seqnum) = some elem.item := by
        rw [← h.cells, hcell]
        rfl
      rw [accept_of_some hknown]
      have hone : ¬ (1 : Int) = -1 := by decide
      simp only [storeCase, if_pos hin, SortedList.add_of_some hcell, ok_bind, if_neg hone, if_true]
      exact ⟨_, none, rfl, rfl, rfl, Or.inl ⟨rfl, h.congr rfl rfl h.ackSize⟩⟩
  | none =>
      cases hmalloc : env.malloc with
      | none =>
          simp only [storeCase, if_pos hin, hmalloc, SortedList.add_of_malloc_none hd hcell, ok_bind,
            if_true]
          exact ⟨_, some .add, rfl, rfl, rfl, Or.inr ⟨rfl, trivial⟩⟩
      | some toAdd =>
          obtain ⟨window', hadd, hcells, hsize, hptr⟩ :=
            SortedList.add_of_none hd hcell hread toAdd
          have hzero : ¬ (0 : Int) = -1 := by decide
          have hzero' : ¬ (0 : Int) = 1 := by decide
          simp only [storeCase, if_pos hin, hmalloc, hadd, ok_bind, if_neg hzero, if_neg hzero']
          refine ⟨_, none, rfl, rfl, rfl, Or.inl ⟨rfl, ?_⟩⟩
          rw [← stored_item st.pkt toAdd]
          exact h.store hpos hd hcell hcells hsize hptr (seqnum_of_distance rfl) hlen rfl h.ackSize

/-- A number outside the acceptance window is ignored. -/
theorem storeCase_outside (env : ReceiverEnv) {st : ReceiverState} {W : Nat}
    {known : Nat → Option Item} (h : Represents st W known)
    (hd : 32 < distance st.waitedSeqnum st.pkt.seqnum) :
    ∃ st', storeCase env st = .ok (st', none) ∧ st'.receivePkt = st.receivePkt ∧
      st'.pkt = st.pkt ∧ Represents st' W known := by
  have hout : ¬ inWindow st.waitedSeqnum st.pkt.seqnum = true := by
    rw [inWindow_iff]
    omega
  simp only [storeCase, if_neg hout]
  exact ⟨_, rfl, rfl, rfl, h.congr rfl rfl h.ackSize⟩

/-- A number at one of the two distances that `in_window` accepts but the array has
    no slot for makes `add` leave the array. -/
theorem storeCase_overrun (env : ReceiverEnv) (st : ReceiverState)
    (hd : 31 ≤ distance st.waitedSeqnum st.pkt.seqnum)
    (hd' : distance st.waitedSeqnum st.pkt.seqnum ≤ 32) :
    storeCase env st = .error (.window (distance st.waitedSeqnum st.pkt.seqnum)) := by
  have hin : inWindow st.waitedSeqnum st.pkt.seqnum = true := (inWindow_iff _ _).mpr hd'
  simp only [storeCase, if_pos hin, SortedList.add_of_ge _ _ _ _ hd, error_bind]

/-- A number that is not the expected one and not at those two distances. -/
theorem unwaitedCase_effect [Zlib] (env : ReceiverEnv) {st : ReceiverState} {W : Nat}
    {known : Nat → Option Item} (h : Represents st W known) (htr : st.pkt.tr = 0)
    (hlen : st.pkt.length.toNat ≤ 512) (hpos : 0 < distance st.waitedSeqnum st.pkt.seqnum)
    (hslot : distance st.waitedSeqnum st.pkt.seqnum < 31 ∨
      32 < distance st.waitedSeqnum st.pkt.seqnum) :
    ∃ t, unwaitedCase env st = .ok t ∧ Effect env st W known st.pkt t := by
  rcases hslot with hd | hd
  · obtain ⟨st', stop, hstore, hrecv, hpkt, hcase⟩ := storeCase_slot env h htr hlen hpos hd
    rcases hcase with ⟨rfl, hrep⟩ | ⟨rfl, hmalloc⟩
    · obtain ⟨t, hrun, hrep', hrecv', hw, hs, hstop⟩ := reack_effect env hrep
      have hs' : Reacks st W t := by rwa [Reacks, hrecv] at hs
      refine ⟨t, ?_, .stored htr hpos hd hrep' (hrecv'.trans hrecv) hw hs' hstop⟩
      simpa [unwaitedCase, hstore, hpkt] using hrun
    · refine ⟨{ state := st', stop := some .add }, ?_,
        .noMemory htr hpos hd hmalloc rfl rfl rfl⟩
      simp only [unwaitedCase, hstore, ok_bind, Option.isSome_some, if_true]
      rfl
  · obtain ⟨st', hstore, hrecv, hpkt, hrep⟩ := storeCase_outside env h hd
    obtain ⟨t, hrun, hrep', hrecv', hw, hs, hstop⟩ := reack_effect env hrep
    have hs' : Reacks st W t := by rwa [Reacks, hrecv] at hs
    refine ⟨t, ?_, .ignored htr hd hrep' (hrecv'.trans hrecv) hw hs' hstop⟩
    simpa [unwaitedCase, hstore, hpkt] using hrun

/-! ## A turn of the loop -/

/-- The DATA packet a turn handles, if it receives one that is accepted. -/
def ReceiverEnv.incoming [Zlib] (env : ReceiverEnv) (st : ReceiverState) : Option Pkt :=
  match env.poll with
  | .ready r =>
      if r.nb dataBufferSize = 0 then none
      else
        match pktDecode (r.fill dataBufferSize st.dataBuffer) (sizeOfInt (r.nb dataBufferSize))
            st.pkt with
        | .ok (resp, pkt) => if resp = .pktOk ∧ pkt.type = ptypeData then some pkt else none
        | .error _ => none
  | _ => none

/-- The effect depends on the window, the expected number and `receivePkt`. -/
theorem Effect.congr [Zlib] {env : ReceiverEnv} {st st' : ReceiverState} {W : Nat}
    {known : Nat → Option Item} {q : Pkt} {t : ReceiverTurn} (h : Effect env st W known q t)
    (hwindow : st'.window = st.window) (hwaited : st'.waitedSeqnum = st.waitedSeqnum)
    (hreceive : st'.receivePkt = st.receivePkt) : Effect env st' W known q t := by
  have hreack : Reacks st' W t = Reacks st W t := by rw [Reacks, Reacks, hreceive]
  cases h with
  | truncated htr hrep hrecv hw hs hstop =>
      exact .truncated htr hrep (hrecv.trans hreceive.symm) hw hs hstop
  | ignored htr hd hrep hrecv hw hs hstop =>
      rw [← hwaited] at hd
      exact .ignored htr hd hrep (hrecv.trans hreceive.symm) hw (hreack ▸ hs) hstop
  | stored htr hpos hd hrep hrecv hw hs hstop =>
      rw [← hwaited] at hpos hd hrep
      exact .stored htr hpos hd hrep (hrecv.trans hreceive.symm) hw (hreack ▸ hs) hstop
  | noMemory htr hpos hd hmalloc hw hs hstop =>
      rw [← hwaited] at hpos hd
      exact .noMemory htr hpos hd hmalloc hw hs hstop
  | disconnect htr hd hempty hw hs hstop =>
      rw [← hwaited] at hd
      exact .disconnect htr hd hempty hw hs hstop
  | delivered xs htr hd hne hrun hxs hend hcells hrep hrecv hw hs hstop =>
      rw [← hwaited] at hd
      rw [← hwindow] at hcells
      exact .delivered xs htr hd hne hrun hxs hend hcells hrep hrecv hw hs hstop
  | storedDisconnect xs ts htr hd hne hrun hxs hend hcells hw hs hstop =>
      rw [← hwaited] at hd
      rw [← hwindow] at hcells
      exact .storedDisconnect xs ts htr hd hne hrun hxs hend hcells hw hs hstop
  | writeFailed xs htr hd hne hrun hxs hw hfail hs hstop =>
      rw [← hwaited] at hd
      exact .writeFailed xs htr hd hne hrun hxs hw hfail hs hstop

theorem pktDecode_of_error [Zlib] (m : Mem) (prior : Pkt) :
    pktDecode m (sizeOfInt (-1)) prior = .ok (.eNomem, prior) := by
  have hlen : intOfSize (sizeOfInt (-1)) = -1 := by decide
  have hroom : intOfSize (sizeOfInt (-1)) < decodeBase m := by
    rw [hlen]
    omega
  rw [pktDecode, if_pos hroom]

theorem length_take_dataBufferSize (data : Bytes) : (data.take dataBufferSize).length ≤ 528 := by
  rw [List.length_take]
  exact Nat.min_le_left _ _

/-- Whatever is received, the decoder returns; what it accepts without TR has a
    legal length. -/
theorem recv_decode [Zlib] (r : ReadResult) (m : Mem) (prior : Pkt) :
    ∃ resp pkt, pktDecode m (sizeOfInt (r.nb dataBufferSize)) prior = .ok (resp, pkt) ∧
      (resp = .pktOk → pkt.tr = 0 → pkt.length.toNat ≤ 512) := by
  cases r with
  | error => exact ⟨_, _, pktDecode_of_error m prior, fun h => absurd h (by decide)⟩
  | bytes data =>
      have hlen := length_take_dataBufferSize data
      rw [ReadResult.nb, sizeOfInt_natCast (by omega)]
      exact pktDecode_total m hlen prior

/-- The `return` of a turn that handles no packet. -/
def ReceiverEnv.idleStop (env : ReceiverEnv) : Option ReceiverStop :=
  match env.poll with
  | .timeout => some .timeout
  | .idle => none
  | .ready r => if r.nb dataBufferSize = 0 then some .empty else none

theorem ReceiverEnv.idleStop_cases (env : ReceiverEnv) :
    env.idleStop = none ∨ env.idleStop = some .timeout ∨ env.idleStop = some .empty := by
  rw [ReceiverEnv.idleStop]
  split
  · exact Or.inr (Or.inl rfl)
  · exact Or.inl rfl
  · split
    · exact Or.inr (Or.inr rfl)
    · exact Or.inl rfl

/-- Without an accepted DATA packet a turn sends and writes nothing, and leaves the
    window alone. -/
theorem readWriteLoopServer_of_none [Zlib] {env : ReceiverEnv} {st : ReceiverState}
    (hinc : env.incoming st = none) :
    ∃ t, readWriteLoopServer env st = .ok t ∧ t.written = [] ∧ t.sent = [] ∧
      t.state.window = st.window ∧ t.state.waitedSeqnum = st.waitedSeqnum ∧
      t.state.receivePkt = st.receivePkt ∧ t.state.ackSize = st.ackSize ∧
      t.stop = env.idleStop := by
  cases hpoll : env.poll with
  | timeout =>
      exact ⟨{ state := st, stop := some .timeout }, by simp only [readWriteLoopServer, hpoll],
        rfl, rfl, rfl, rfl, rfl, rfl, by rw [ReceiverEnv.idleStop, hpoll]⟩
  | idle =>
      exact ⟨{ state := st }, by simp only [readWriteLoopServer, hpoll],
        rfl, rfl, rfl, rfl, rfl, rfl, by rw [ReceiverEnv.idleStop, hpoll]⟩
  | ready r =>
      simp only [readWriteLoopServer, ReceiverEnv.idleStop, hpoll]
      by_cases hzero : r.nb dataBufferSize = 0
      · rw [if_pos hzero, if_pos hzero]
        exact ⟨_, rfl, rfl, rfl, rfl, rfl, rfl, rfl, rfl⟩
      · obtain ⟨resp, pkt, hdec, -⟩ :=
          recv_decode r (r.fill dataBufferSize st.dataBuffer) st.pkt
        simp only [ReceiverEnv.incoming, hpoll, if_neg hzero, hdec] at hinc
        rw [if_neg hzero, if_neg hzero]
        simp only [hdec, ok_bind]
        by_cases hok : resp = .pktOk
        · -- an ACK, a NACK or another type: only a counter changes
          have hdata : ¬ pkt.type = ptypeData := by
            intro hd
            rw [if_pos ⟨hok, hd⟩] at hinc
            exact absurd hinc (by simp)
          rw [if_pos hok]
          simp only [packetCase, if_neg hdata]
          split
          · exact ⟨_, rfl, rfl, rfl, rfl, rfl, rfl, rfl, rfl⟩
          · split
            · exact ⟨_, rfl, rfl, rfl, rfl, rfl, rfl, rfl, rfl⟩
            · exact ⟨_, rfl, rfl, rfl, rfl, rfl, rfl, rfl, rfl⟩
        · rw [if_neg hok]
          exact ⟨_, rfl, rfl, rfl, rfl, rfl, rfl, rfl, rfl⟩

/-- With one, it is the DATA case on that packet. -/
theorem readWriteLoopServer_of_incoming [Zlib] {env : ReceiverEnv} {st : ReceiverState} {q : Pkt}
    (hinc : env.incoming st = some q) :
    ∃ buf, readWriteLoopServer env st = dataCase env { st with dataBuffer := buf, pkt := q } ∧
      q.type = ptypeData ∧ (q.tr = 0 → q.length.toNat ≤ 512) := by
  cases hpoll : env.poll with
  | timeout => exact absurd hinc (by simp [ReceiverEnv.incoming, hpoll])
  | idle => exact absurd hinc (by simp [ReceiverEnv.incoming, hpoll])
  | ready r =>
      by_cases hzero : r.nb dataBufferSize = 0
      · exact absurd hinc (by simp [ReceiverEnv.incoming, hpoll, hzero])
      · obtain ⟨resp, pkt, hdec, hlen⟩ :=
          recv_decode r (r.fill dataBufferSize st.dataBuffer) st.pkt
        simp only [ReceiverEnv.incoming, hpoll, if_neg hzero, hdec] at hinc
        by_cases haccept : resp = .pktOk ∧ pkt.type = ptypeData
        · rw [if_pos haccept, Option.some.injEq] at hinc
          subst hinc
          refine ⟨r.fill dataBufferSize st.dataBuffer, ?_, haccept.2, hlen haccept.1⟩
          simp only [readWriteLoopServer, hpoll, if_neg hzero, hdec, ok_bind, if_pos haccept.1,
            packetCase, if_pos haccept.2]
        · rw [if_neg haccept] at hinc
          exact absurd hinc (by simp)

/-- The effect of a turn that receives a DATA packet with a slot, or none to store. -/
theorem readWriteLoopServer_effect [Zlib] {env : ReceiverEnv} {st : ReceiverState} {W : Nat}
    {known : Nat → Option Item} (h : Represents st W known) {q : Pkt}
    (hinc : env.incoming st = some q)
    (hslot : q.tr = 1 ∨ distance st.waitedSeqnum q.seqnum < 31 ∨
      32 < distance st.waitedSeqnum q.seqnum) :
    ∃ t, readWriteLoopServer env st = .ok t ∧ Effect env st W known q t := by
  obtain ⟨buf, hrun, -, hlen⟩ := readWriteLoopServer_of_incoming hinc
  have hst : Represents { st with
      dataBuffer := buf
      pkt := q
      receiverLogger := st.receiverLogger.addDataReceived } W known := h.congr rfl rfl h.ackSize
  have hcase : ∃ t, dataCase env { st with dataBuffer := buf, pkt := q } = .ok t ∧
      Effect env { st with
        dataBuffer := buf
        pkt := q
        receiverLogger := st.receiverLogger.addDataReceived } W known q t := by
    by_cases htr : q.tr = 1
    · simp only [dataCase, if_pos htr]
      exact truncatedCase_effect env hst htr
    · have htr0 : q.tr = 0 := (bitVec1_cases q.tr).resolve_right htr
      simp only [dataCase, if_neg htr]
      by_cases hseq : q.seqnum = st.waitedSeqnum
      · rw [if_pos hseq]
        exact waitedCase_effect env hst htr0 (hlen htr0) hseq
      · -- not the expected number, so some way ahead of it modulo 256
        rw [if_neg hseq]
        have hpos : 0 < distance st.waitedSeqnum q.seqnum := by
          rw [Nat.pos_iff_ne_zero, Ne, distance_eq_zero]
          exact hseq
        exact unwaitedCase_effect env hst htr0 (hlen htr0) hpos (hslot.resolve_left htr)
  obtain ⟨t, ht, heffect⟩ := hcase
  exact ⟨t, hrun.trans ht, heffect.congr rfl rfl rfl⟩

/-- A DATA packet at distance 31 or 32 makes the receiver access the cell with that
    index. -/
theorem readWriteLoopServer_overrun [Zlib] {env : ReceiverEnv} {st : ReceiverState} {q : Pkt}
    (hinc : env.incoming st = some q) (htr : q.tr ≠ 1)
    (hd : 31 ≤ distance st.waitedSeqnum q.seqnum) (hd' : distance st.waitedSeqnum q.seqnum ≤ 32) :
    readWriteLoopServer env st = .error (.window (distance st.waitedSeqnum q.seqnum)) := by
  obtain ⟨buf, hrun, -, -⟩ := readWriteLoopServer_of_incoming hinc
  have hseq : ¬ q.seqnum = st.waitedSeqnum := by
    intro heq
    rw [heq, distance_self] at hd
    omega
  have hstore := storeCase_overrun env { st with
    dataBuffer := buf, pkt := q, receiverLogger := st.receiverLogger.addDataReceived } hd hd'
  rw [hrun]
  simp only [dataCase, if_neg htr, if_neg hseq, unwaitedCase, hstore, error_bind]

end SelectiveRepeat
