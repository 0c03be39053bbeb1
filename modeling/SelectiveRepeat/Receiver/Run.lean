/-
  SelectiveRepeat.Receiver.Run

  Whole runs of the receiver, from a window of null slots, over any list of turns.
  The window always is the part of what was accepted from its first gap on, and
  what was written is the part below it.  The only way to leave the array is a
  DATA packet at distance 31 or 32, which `in_window` lets through.
-/
import SelectiveRepeat.Lib.FoldM
import SelectiveRepeat.Receiver.Window

namespace SelectiveRepeat

open Reassembly

/-! ## Runs -/

/-- What a run has come to: the state, the `return` taken if any, what was written
    and sent, and the items accepted, each with its position in the stream. -/
structure ReceiverRun where
  state : ReceiverState
  stop : Option ReceiverStop := none
  written : List (Bytes × Int) := []
  sent : List Bytes := []
  accepted : List (Nat × Item) := []

/-- What a turn accepts after `W` packets were written: an untruncated DATA packet
    whose number is at a distance that has a slot. -/
def ReceiverEnv.accepts [Zlib] (env : ReceiverEnv) (st : ReceiverState) (W : Nat) :
    List (Nat × Item) :=
  match env.incoming st with
  | some q =>
      if q.tr = 0 ∧ distance st.waitedSeqnum q.seqnum < 31 then
        [(W + distance st.waitedSeqnum q.seqnum, q.item)]
      else []
  | none => []

/-- One more turn, if the loop has not returned. -/
def ReceiverRun.turn [Zlib] (run : ReceiverRun) (env : ReceiverEnv) : Exec ReceiverRun :=
  if run.stop.isSome then .ok run
  else do
    let t ← readWriteLoopServer env run.state
    return {
      state := t.state
      stop := t.stop
      written := run.written ++ t.written
      sent := run.sent ++ t.sent
      accepted := run.accepted ++ env.accepts run.state run.written.length }

def receiverTurns [Zlib] (envs : List ReceiverEnv) (run : ReceiverRun) : Exec ReceiverRun :=
  envs.foldlM ReceiverRun.turn run

/-- The run from the start of `read_write_loop_server`. -/
def receiverRun [Zlib] (mem : ReceiverMemory) (statFile : Bool) (envs : List ReceiverEnv) :
    Exec ReceiverRun :=
  receiverTurns envs { state := receiverInit mem statFile }

/-! ## One turn -/

/-- What is known after a DATA packet. -/
def arrive (st : ReceiverState) (W : Nat) (known : Nat → Option Item) (q : Pkt) :
    Nat → Option Item :=
  if q.tr = 0 ∧ distance st.waitedSeqnum q.seqnum < 31 then
    accept known (W + distance st.waitedSeqnum q.seqnum) q.item
  else known

/-- The packet `num`, if it is at most 30 ahead of the expected one and at most 223
    behind, is taken for position `num`, or that position is below the gap already. -/
theorem Represents.arrive_near {st : ReceiverState} {W num : Nat} {known : Nat → Option Item}
    (h : Represents st W known) (hle : num ≤ W + 30) (hge : W ≤ num + 223) {q : Pkt}
    (htr : q.tr = 0) (hseq : q.seqnum = UInt8.ofNat num) :
    (distance st.waitedSeqnum q.seqnum < 31 ∨ 32 < distance st.waitedSeqnum q.seqnum) ∧
      arrive st W known q = accept known num q.item := by
  rw [arrive, h.waited, hseq]
  by_cases hahead : W ≤ num
  · have hdist := distance_ofNat hahead (by omega)
    refine ⟨Or.inl (by omega), ?_⟩
    rw [if_pos ⟨htr, by omega⟩, hdist, Nat.add_sub_cancel' hahead]
  · -- a number at most 223 behind is at least 33 ahead modulo 256
    have hdist := distance_ofNat_back (Nat.lt_of_not_le hahead) (by omega)
    refine ⟨Or.inr (by omega), ?_⟩
    rw [if_neg (fun hc => by omega), h.gap.accept_below (by omega)]

theorem first_accepts [Zlib] {env : ReceiverEnv} {st : ReceiverState} {q : Pkt}
    (hinc : env.incoming st = some q) (accepted : List (Nat × Item)) (W : Nat) :
    first (accepted ++ env.accepts st W) = arrive st W (first accepted) q := by
  rw [ReceiverEnv.accepts, hinc, arrive]
  dsimp only
  split
  · exact first_append _ _ _
  · rw [List.append_nil]

/-- The inversion of a turn: it leaves everything alone, or it handles a packet. -/
theorem readWriteLoopServer_cases [Zlib] {env : ReceiverEnv} {st : ReceiverState} {W : Nat}
    {known : Nat → Option Item} (h : Represents st W known) {t : ReceiverTurn}
    (hrun : readWriteLoopServer env st = .ok t) :
    (env.incoming st = none ∧ Represents t.state W known ∧ t.state.receivePkt = st.receivePkt ∧
        t.written = [] ∧ t.sent = [] ∧
        (t.stop = none ∨ t.stop = some .timeout ∨ t.stop = some .empty)) ∨
      ∃ q, env.incoming st = some q ∧ Effect env st W known q t := by
  cases hinc : env.incoming st with
  | none =>
      obtain ⟨t', hrun', hw, hs, hwindow, hwaited, hrecv, hsize, hstop⟩ :=
        readWriteLoopServer_of_none hinc
      rw [hrun, Except.ok.injEq] at hrun'
      subst hrun'
      exact Or.inl ⟨rfl, h.congr hwindow hwaited (hsize.trans h.ackSize), hrecv, hw, hs,
        hstop ▸ env.idleStop_cases⟩
  | some q =>
      by_cases hslot : q.tr = 1 ∨ distance st.waitedSeqnum q.seqnum < 31 ∨
          32 < distance st.waitedSeqnum q.seqnum
      · obtain ⟨t', hrun', heffect⟩ := readWriteLoopServer_effect h hinc hslot
        rw [hrun, Except.ok.injEq] at hrun'
        subst hrun'
        exact Or.inr ⟨q, rfl, heffect⟩
      · -- a packet without a slot is no turn at all
        have hfault := readWriteLoopServer_overrun hinc (fun htr => hslot (Or.inl htr))
          (by omega) (by omega)
        rw [hrun] at hfault
        exact absurd hfault (by simp)

/-- As long as the loop goes on, the window represents what has arrived. -/
theorem Effect.represents [Zlib] {env : ReceiverEnv} {st : ReceiverState} {W : Nat}
    {known : Nat → Option Item} {q : Pkt} {t : ReceiverTurn}
    (heffect : Effect env st W known q t) (hgo : t.stop = none) :
    Represents t.state (W + t.written.length) (arrive st W known q) := by
  -- the effects with which the loop returns
  have hreturned {reason : ReceiverStop} (hstop : t.stop = some reason) :
      Represents t.state (W + t.written.length) (arrive st W known q) := by
    rw [hgo] at hstop
    exact absurd hstop (by simp)
  cases heffect with
  | truncated htr hrep _ hwritten =>
      rw [hwritten, arrive, if_neg (fun hc => by rw [htr] at hc; exact absurd hc.1 (by decide))]
      exact hrep
  | ignored _ hd hrep _ hwritten =>
      rw [hwritten, arrive, if_neg (fun hc => by omega)]
      exact hrep
  | stored htr _ hd hrep _ hwritten =>
      rw [hwritten, arrive, if_pos ⟨htr, hd⟩]
      exact hrep
  | noMemory _ _ _ _ _ _ hstop => exact hreturned hstop
  | disconnect _ _ _ _ _ hstop => exact hreturned hstop
  | delivered xs htr hd _ _ _ _ _ hrep _ hwritten =>
      rw [arrive, if_pos ⟨htr, by omega⟩, hd, hwritten, env.writes_length, List.length_cons,
        List.length_map, Nat.add_zero, show W + (xs.length + 1) = W + 1 + xs.length by omega]
      exact hrep
  | storedDisconnect _ _ _ _ _ _ _ _ _ _ _ hstop => exact hreturned hstop
  | writeFailed _ _ _ _ _ _ _ _ _ hstop => exact hreturned hstop

/-- A turn writes nothing, or the expected packet and a run stored behind it. -/
theorem Effect.writes [Zlib] {env : ReceiverEnv} {st : ReceiverState} {W : Nat}
    {known : Nat → Option Item} {q : Pkt} {t : ReceiverTurn} (heffect : Effect env st W known q t) :
    t.written = [] ∨ ∃ xs, q.tr = 0 ∧ distance st.waitedSeqnum q.seqnum = 0 ∧ q.data ≠ [] ∧
      Run known (W + 1) xs ∧ t.written = env.writes 0 (q.data :: xs.map Prod.fst) := by
  cases heffect with
  | truncated _ _ _ hwritten => exact Or.inl hwritten
  | ignored _ _ _ _ hwritten => exact Or.inl hwritten
  | stored _ _ _ _ _ hwritten => exact Or.inl hwritten
  | noMemory _ _ _ _ hwritten => exact Or.inl hwritten
  | disconnect _ _ _ hwritten => exact Or.inl hwritten
  | delivered xs htr hd hne hrun _ _ _ _ _ hwritten =>
      exact Or.inr ⟨xs, htr, hd, hne, hrun, hwritten⟩
  | storedDisconnect xs _ htr hd hne hrun _ _ _ hwritten =>
      exact Or.inr ⟨xs, htr, hd, hne, hrun, hwritten⟩
  | writeFailed xs htr hd hne hrun _ hwritten =>
      exact Or.inr ⟨xs, htr, hd, hne, hrun, hwritten⟩

/-- The payloads written are those that the packet lets the window hand on. -/
theorem Effect.written [Zlib] {env : ReceiverEnv} {st : ReceiverState} {W : Nat}
    {known : Nat → Option Item} {q : Pkt} {t : ReceiverTurn} (h : Represents st W known)
    (heffect : Effect env st W known q t) :
    (assembled (arrive st W known q) (W + t.written.length)).map Prod.fst =
      (assembled known W).map Prod.fst ++ t.written.map Prod.fst := by
  rcases heffect.writes with hwritten | ⟨xs, htr, hd, -, hrun, hwritten⟩
  · -- what is known from `W` on may have changed, what was handed on has not
    have hlow : ∀ k < W, arrive st W known q k = known k := by
      intro k hk
      rw [arrive]
      split
      · exact accept_of_ne (by omega) _
      · rfl
    rw [hwritten, List.map_nil, List.append_nil, List.length_nil, Nat.add_zero,
      assembled_congr hlow]
  · -- the packet fills the gap, and the run behind it follows
    rw [arrive, if_pos ⟨htr, by omega⟩, hd, hwritten, env.writes_fst, env.writes_length,
      List.length_cons, List.length_map, Nat.add_zero,
      show W + (xs.length + 1) = W + 1 + xs.length by omega, h.gap.assembled_accept hrun,
      List.map_append, List.map_cons]
    rfl

/-- Whatever the turn ends with, a reply carries the number of packets written. -/
theorem Effect.replies [Zlib] {env : ReceiverEnv} {st : ReceiverState} {W : Nat}
    {known : Nat → Option Item} {q : Pkt} {t : ReceiverTurn} (heffect : Effect env st W known q t) :
    t.sent = [] ∨ ∃ type, (type = ptypeAck ∨ type = ptypeNack ∧ q.tr = 1) ∧
      Replies type (W + t.written.length) t.sent := by
  -- a duplicate or an early packet is answered with the last ACK, nothing being written
  have hreack (hsent : Reacks st W t) (hwritten : t.written = []) : t.sent = [] ∨
      ∃ type, (type = ptypeAck ∨ type = ptypeNack ∧ q.tr = 1) ∧
        Replies type (W + t.written.length) t.sent := by
    rw [Reacks] at hsent
    split at hsent
    · exact Or.inl hsent
    · refine Or.inr ⟨ptypeAck, Or.inl rfl, ?_⟩
      rwa [hwritten]
  cases heffect with
  | truncated htr _ _ hwritten hsent =>
      refine Or.inr ⟨ptypeNack, Or.inr ⟨rfl, htr⟩, ?_⟩
      rwa [hwritten]
  | ignored _ _ _ _ hwritten hsent => exact hreack hsent hwritten
  | stored _ _ _ _ _ hwritten hsent => exact hreack hsent hwritten
  | noMemory _ _ _ _ _ hsent => exact Or.inl hsent
  | disconnect _ _ _ _ hsent => exact Or.inl hsent
  | delivered xs _ _ _ _ _ _ _ _ _ hwritten hsent =>
      refine Or.inr ⟨ptypeAck, Or.inl rfl, ?_⟩
      rwa [hwritten, env.writes_length, List.length_cons, List.length_map,
        show W + (xs.length + 1) = W + 1 + xs.length by omega]
  | storedDisconnect _ _ _ _ _ _ _ _ _ _ hsent => exact Or.inl hsent
  | writeFailed _ _ _ _ _ _ _ _ hsent => exact Or.inl hsent

/-- Why the loop returns after a packet, if it does: it returns for an empty packet only
    if that is the expected one, or if one is stored. -/
inductive Returns (known : Nat → Option Item) (q : Pkt) (t : ReceiverTurn) :
    Option ReceiverStop → Prop where
  | goesOn : Returns known q t none
  | send : Returns known q t (some .send)
  | add : Returns known q t (some .add)
  | write : Returns known q t (some .write)
  | disconnect (htr : q.tr = 0) (hempty : q.data = []) (hwritten : t.written = []) :
      Returns known q t (some .disconnect)
  | storedDisconnect {k : Nat} {timestamp : UInt32} (hend : known k = some ([], timestamp)) :
      Returns known q t (some .storedDisconnect)

theorem GoesOn.returns {env : ReceiverEnv} {t : ReceiverTurn} (h : GoesOn env t)
    (known : Nat → Option Item) (q : Pkt) : Returns known q t t.stop := by
  rcases h with hstop | ⟨hstop, -⟩
  · rw [hstop]
    exact .goesOn
  · rw [hstop]
    exact .send

theorem Effect.returns [Zlib] {env : ReceiverEnv} {st : ReceiverState} {W : Nat}
    {known : Nat → Option Item} {q : Pkt} {t : ReceiverTurn} (heffect : Effect env st W known q t) :
    Returns known q t t.stop := by
  cases heffect with
  | truncated _ _ _ _ _ hstop => exact hstop.returns known q
  | ignored _ _ _ _ _ _ hstop => exact hstop.returns known q
  | stored _ _ _ _ _ _ _ hstop => exact hstop.returns known q
  | noMemory _ _ _ _ _ _ hstop =>
      rw [hstop]
      exact .add
  | disconnect htr _ hempty hwritten _ hstop =>
      rw [hstop]
      exact .disconnect htr hempty hwritten
  | delivered _ _ _ _ _ _ _ _ _ _ _ _ hstop => exact hstop.returns known q
  | storedDisconnect _ _ _ _ _ _ _ hend _ _ _ hstop =>
      rw [hstop]
      exact .storedDisconnect hend
  | writeFailed _ _ _ _ _ _ _ _ _ hstop =>
      rw [hstop]
      exact .write

/-- The expected packet ends the loop if it is empty. -/
theorem Effect.stop_of_empty [Zlib] {env : ReceiverEnv} {st : ReceiverState} {W : Nat}
    {known : Nat → Option Item} {q : Pkt} {t : ReceiverTurn} (heffect : Effect env st W known q t)
    (htr : q.tr = 0) (hd : distance st.waitedSeqnum q.seqnum = 0) (hempty : q.data = []) :
    t.stop = some .disconnect := by
  cases heffect with
  | truncated htr' => exact absurd (htr.symm.trans htr') (by decide)
  | ignored _ hd' => omega
  | stored _ hpos => omega
  | noMemory _ hpos => omega
  | disconnect _ _ _ _ _ hstop => exact hstop
  | delivered _ _ _ hne => exact absurd hempty hne
  | storedDisconnect _ _ _ _ hne => exact absurd hempty hne
  | writeFailed _ _ _ hne => exact absurd hempty hne

/-- The datagram of a DATA packet brings that packet. -/
theorem ReceiverEnv.incoming_wire [Zlib] {env : ReceiverEnv} (st : ReceiverState) {pkt : Pkt}
    (hpoll : env.poll = .ready (.bytes pkt.wire)) (hs : pkt.Sized) (htype : pkt.type = ptypeData) :
    ∃ q, env.incoming st = some q ∧ q.SameHeader pkt ∧ q.tr = pkt.tr ∧
      (pkt.tr = 0 → q.data = pkt.data) := by
  have hle := hs.length_le
  have hsize : pkt.wire.length = pkt.size := pkt.wire_length_eq_size
  rw [Pkt.size, if_pos htype] at hsize
  have hfit : pkt.wire.length ≤ dataBufferSize := by
    rw [hsize]
    simp only [dataBufferSize, MAX_PAYLOAD_SIZE]
    split <;> omega
  have hpos : 12 ≤ pkt.wire.length := by
    rw [hsize]
    split <;> omega
  have htake : pkt.wire.take dataBufferSize = pkt.wire := List.take_of_length_le hfit
  have hbound : dataBufferSize = 528 := rfl
  have hnb : (ReadResult.bytes pkt.wire).nb dataBufferSize = (pkt.wire.length : Nat) := by
    rw [ReadResult.nb, htake]
  -- the buffer holds the datagram, and something older behind it
  have hmem : ((ReadResult.bytes pkt.wire).fill dataBufferSize st.dataBuffer).slice 0
      pkt.wire.length = pkt.wire := by
    rw [ReadResult.fill, htake]
    exact Mem.slice_blit _ 0 pkt.wire
  have hlen : sizeOfInt (pkt.wire.length : Nat) = pkt.wire.length := sizeOfInt_natCast (by omega)
  obtain ⟨q, hdec, hsame, htr, hdata⟩ := pktDecode_wire hs hmem (Nat.le_refl _) (by omega) st.pkt
  rw [Pkt.decodedTr, if_pos htype] at htr
  refine ⟨q, ?_, hsame, htr, hdata⟩
  have hzero : ¬ ((pkt.wire.length : Nat) : Int) = 0 := by omega
  simp only [ReceiverEnv.incoming, hpoll, hnb, if_neg hzero, hlen, hdec]
  rw [if_pos ⟨trivial, hsame.type.trans htype⟩]

/-! ## The invariant of a run -/

/-- The window of a run against what the run has accepted and written. -/
structure ReceiverRun.Tracks (run : ReceiverRun) : Prop where
  represents : Represents run.state run.written.length (first run.accepted)
  written : run.written.map Prod.fst =
    (assembled (first run.accepted) run.written.length).map Prod.fst

theorem receiverInit_cells (mem : ReceiverMemory) (statFile : Bool)
    (hnull : ∀ i, mem.window.window i = none) (i : Nat) :
    (receiverInit mem statFile).window.cells i = none := by
  rw [SortedList.cells]
  split
  · exact hnull _
  · rfl

/-- The start: the window is empty, since its slots are null. -/
theorem receiverInit_tracks (mem : ReceiverMemory) (statFile : Bool)
    (hnull : ∀ i, mem.window.window i = none) :
    ReceiverRun.Tracks { state := receiverInit mem statFile } := by
  have hcells := receiverInit_cells mem statFile hnull
  have hcounted : (receiverInit mem statFile).window.Counted := by
    have hzero := Slots.occupied_eq_zero.mpr fun i (_ : i < 31) => hcells i
    rw [SortedList.Counted, hzero]
    rfl
  have hplaced : Placed (receiverInit mem statFile).window.cells
      (receiverInit mem statFile).waitedSeqnum :=
    ⟨fun i elem h => by rw [hcells] at h; exact absurd h (by simp),
      fun i elem h => by rw [hcells] at h; exact absurd h (by simp), fun i _ => hcells i⟩
  refine ⟨⟨⟨rfl, hcounted, hcells 0, hplaced, rfl⟩, rfl, fun i => ?_, ?_⟩, rfl⟩
  · rw [hcells]
    rfl
  · exact fun k hk => absurd hk (Nat.not_lt_zero k)

/-- One more datagram is one more turn. -/
theorem receiverRun_last [Zlib] {mem : ReceiverMemory} {statFile : Bool} {envs : List ReceiverEnv}
    {run : ReceiverRun} (hrun : receiverRun mem statFile envs = .ok run) (env : ReceiverEnv) :
    receiverRun mem statFile (envs ++ [env]) = run.turn env := by
  rw [receiverRun, receiverTurns, List.foldlM_append]
  rw [receiverRun, receiverTurns] at hrun
  simp only [hrun, ok_bind, List.foldlM_cons, List.foldlM_nil, bind_pure]

theorem ReceiverRun.turn_of_stop [Zlib] {run : ReceiverRun} (hstop : run.stop ≠ none)
    (env : ReceiverEnv) : run.turn env = .ok run := by
  rw [ReceiverRun.turn, if_pos (Option.isSome_iff_ne_none.mpr hstop)]

theorem ReceiverRun.turn_of_ok [Zlib] {run : ReceiverRun} (hgo : run.stop = none)
    {env : ReceiverEnv} {t : ReceiverTurn} (hrun : readWriteLoopServer env run.state = .ok t) :
    run.turn env = .ok {
      state := t.state
      stop := t.stop
      written := run.written ++ t.written
      sent := run.sent ++ t.sent
      accepted := run.accepted ++ env.accepts run.state run.written.length } := by
  simp only [ReceiverRun.turn, hgo, Option.isSome_none, Bool.false_eq_true, if_false, hrun, ok_bind]
  rfl

/-- The turn of a run is one turn of the loop. -/
theorem ReceiverRun.turn_inv [Zlib] {run run' : ReceiverRun} {env : ReceiverEnv}
    (hgo : run.stop = none) (hturn : run.turn env = .ok run') :
    ∃ t, readWriteLoopServer env run.state = .ok t ∧ run' = {
      state := t.state
      stop := t.stop
      written := run.written ++ t.written
      sent := run.sent ++ t.sent
      accepted := run.accepted ++ env.accepts run.state run.written.length } := by
  cases hrun : readWriteLoopServer env run.state with
  | error fault =>
      simp only [ReceiverRun.turn, hgo, Option.isSome_none, Bool.false_eq_true, if_false, hrun,
        error_bind] at hturn
      exact absurd hturn (by simp)
  | ok t =>
      rw [ReceiverRun.turn_of_ok hgo hrun, Except.ok.injEq] at hturn
      exact ⟨t, rfl, hturn.symm⟩

/-- What is written stays the stream that was accepted, also in the turn the loop returns in. -/
theorem ReceiverRun.turn_written [Zlib] {run run' : ReceiverRun} {env : ReceiverEnv}
    (h : run.Tracks) (hgo : run.stop = none) (hturn : run.turn env = .ok run') :
    run'.written.map Prod.fst =
      (assembled (first run'.accepted) run'.written.length).map Prod.fst := by
  obtain ⟨t, hrun, rfl⟩ := ReceiverRun.turn_inv hgo hturn
  obtain ⟨hrep, hwritten⟩ := h
  rcases readWriteLoopServer_cases hrep hrun with ⟨hinc, -, -, hw, -, -⟩ | ⟨q, hinc, heffect⟩
  · -- nothing accepted, nothing written
    have hnone : env.accepts run.state run.written.length = [] := by
      rw [ReceiverEnv.accepts, hinc]
    simpa only [hnone, hw, List.append_nil] using hwritten
  · rw [List.length_append, first_accepts hinc, heffect.written hrep, List.map_append, hwritten]

/-- What one turn preserves. -/
theorem ReceiverRun.turn_tracks [Zlib] {run run' : ReceiverRun} {env : ReceiverEnv}
    (h : run.stop = none → run.Tracks) (hturn : run.turn env = .ok run') :
    run'.stop = none → run'.Tracks := by
  intro hgo'
  by_cases hgo : run.stop = none
  · refine ⟨?_, ReceiverRun.turn_written (h hgo) hgo hturn⟩
    obtain ⟨t, hrun, rfl⟩ := ReceiverRun.turn_inv hgo hturn
    have hrep := (h hgo).represents
    rcases readWriteLoopServer_cases hrep hrun with ⟨hinc, hrep', -, hw, -, -⟩ | ⟨q, hinc, heffect⟩
    · have hnone : env.accepts run.state run.written.length = [] := by
        rw [ReceiverEnv.accepts, hinc]
      simpa only [hnone, hw, List.append_nil] using hrep'
    · rw [List.length_append, first_accepts hinc]
      exact heffect.represents hgo'
  · -- a run that has returned does not change
    rw [ReceiverRun.turn_of_stop hgo, Except.ok.injEq] at hturn
    subst hturn
    exact absurd hgo' hgo

/-- What a whole run preserves. -/
theorem receiverTurns_tracks [Zlib] {envs : List ReceiverEnv} {run run' : ReceiverRun}
    (h : run.stop = none → run.Tracks) (hturns : receiverTurns envs run = .ok run') :
    run'.stop = none → run'.Tracks := by
  refine FoldM.foldlM_preserves (p := fun run => run.stop = none → run.Tracks) ?_ h hturns
  exact fun _ _ _ hacc hturn => ReceiverRun.turn_tracks hacc hturn

theorem receiverRun_tracks [Zlib] {mem : ReceiverMemory} {statFile : Bool}
    (hnull : ∀ i, mem.window.window i = none) {envs : List ReceiverEnv} {run : ReceiverRun}
    (hrun : receiverRun mem statFile envs = .ok run) (hgo : run.stop = none) : run.Tracks :=
  receiverTurns_tracks (fun _ => receiverInit_tracks mem statFile hnull) hrun hgo

/-! ## The window representation and delivery -/

/-- The window before a datagram, when `W` packets were written. -/
structure WindowInvariant (st : ReceiverState) (W : Nat) (accepted : List (Nat × Item)) : Prop where
  ptr : st.window.ptr = 0
  size : st.window.size = Slots.occupied st.window.cells 31
  head : st.window.cells 0 = none
  waited : st.waitedSeqnum = UInt8.ofNat W
  seqnum : ∀ i elem, st.window.cells i = some elem → elem.seqnum = st.waitedSeqnum + UInt8.ofNat i
  first : ∀ i, (st.window.cells i).map Pstl.item = first accepted (W + i)

/-- Every write takes all it is given. -/
def ReceiverEnv.WritesWhole (env : ReceiverEnv) : Prop :=
  ∀ n payload, env.write n payload = (payload.length : Nat)

/-- A write that is taken whole returns the length, which is not 0. -/
theorem ReceiverEnv.WritesWhole.ne_zero {env : ReceiverEnv} (h : env.WritesWhole) (n : Nat)
    {payload : Bytes} (hne : payload ≠ []) : env.write n payload ≠ 0 := by
  rw [h n payload, Ne, Int.natCast_eq_zero, List.length_eq_zero_iff]
  exact hne

/-- A turn writes the packet `q` and the maximal run `elems` stored behind it. -/
structure DeliversRun (st : ReceiverState) (q : Pkt) (elems : List Pstl) (t : ReceiverTurn) :
    Prop where
  run : Run st.window.cells 1 elems
  nonempty : ∀ elem ∈ elems, elem.data ≠ []
  written : t.written.map Prod.fst = q.data :: elems.map Pstl.data
  stop :
    -- the run ends at a free slot, and the rest of the window moves to the front
    st.window.cells (1 + elems.length) = none ∧
        t.state.window.cells = Slots.shift st.window.cells (1 + elems.length) ∧
        (t.stop = none ∨ t.stop = some .send) ∨
      -- or at an empty packet, which ends the loop
      (∃ elem, st.window.cells (1 + elems.length) = some elem ∧ elem.data = []) ∧
        t.state.window.cells = above st.window.cells elems.length ∧
        t.stop = some .storedDisconnect

/-- What the expected packet does when writes are taken whole. -/
theorem Effect.deliversRun [Zlib] {env : ReceiverEnv} {st : ReceiverState} {W : Nat}
    {known : Nat → Option Item} {q : Pkt} {t : ReceiverTurn} (h : Represents st W known)
    (heffect : Effect env st W known q t) (htr : q.tr = 0)
    (hd : distance st.waitedSeqnum q.seqnum = 0) (hne : q.data ≠ []) (hwhole : env.WritesWhole) :
    ∃ elems, DeliversRun st q elems t := by
  -- the items of the stream are what the slots hold
  have hlift {xs : List Item} (hrun : Run known (W + 1) xs) (hxs : ∀ x ∈ xs, x.1 ≠ []) :
      ∃ elems, Run st.window.cells 1 elems ∧ elems.map Pstl.item = xs ∧
        (∀ elem ∈ elems, elem.data ≠ []) ∧ xs.map Prod.fst = elems.map Pstl.data := by
    obtain ⟨elems, helems, rfl⟩ := hrun.lift (p := 1) h.cells
    refine ⟨elems, helems, rfl, fun elem he => hxs elem.item (List.mem_map_of_mem he), ?_⟩
    rw [List.map_map]
    rfl
  cases heffect with
  | truncated htr' => exact absurd (htr.symm.trans htr') (by decide)
  | ignored _ hd' => omega
  | stored _ hpos => omega
  | noMemory _ hpos => omega
  | disconnect _ _ hempty => exact absurd hempty hne
  | delivered xs _ _ _ hrun hxs hend hcells _ _ hwritten _ hstop =>
      obtain ⟨elems, helems, rfl, hnonempty, hpayloads⟩ := hlift hrun hxs
      rw [List.length_map] at hend hcells
      refine ⟨elems, helems, hnonempty, ?_, Or.inl ⟨?_, hcells, hstop.imp_right And.left⟩⟩
      · rw [hwritten, env.writes_fst, hpayloads]
      · have hcell := h.cells (1 + elems.length)
        rwa [show W + (1 + elems.length) = W + 1 + elems.length by omega, hend,
          Option.map_eq_none_iff] at hcell
  | storedDisconnect xs ts _ _ _ hrun hxs hend hcells hwritten _ hstop =>
      obtain ⟨elems, helems, rfl, hnonempty, hpayloads⟩ := hlift hrun hxs
      rw [List.length_map] at hend hcells
      refine ⟨elems, helems, hnonempty, ?_, Or.inr ⟨?_, hcells, hstop⟩⟩
      · rw [hwritten, env.writes_fst, hpayloads]
      · have hcell := h.cells (1 + elems.length)
        rw [show W + (1 + elems.length) = W + 1 + elems.length by omega, hend,
          Option.map_eq_some_iff] at hcell
        obtain ⟨elem, helem, hitem⟩ := hcell
        exact ⟨elem, helem, congrArg Prod.fst hitem⟩
  | writeFailed _ _ _ _ _ _ _ hfail =>
      obtain ⟨n, payload, hpayload, hzero⟩ := hfail
      exact absurd hzero (hwhole.ne_zero n hpayload)

/-- In every run from a window of null slots, whatever arrives: before each datagram
    the window is the part of what was accepted that starts at the first gap.  The
    next turn is defined unless its packet is at distance 31 or 32; its replies carry
    the number of packets written; and the expected packet is written together with
    the maximal run stored behind it. -/
theorem receiverRun_window [Zlib] {mem : ReceiverMemory} {statFile : Bool}
    (hnull : ∀ i, mem.window.window i = none) {envs : List ReceiverEnv} {run : ReceiverRun}
    (hrun : receiverRun mem statFile envs = .ok run) (hgo : run.stop = none) :
    WindowInvariant run.state run.written.length run.accepted ∧
      ∀ env : ReceiverEnv,
        (∀ q, env.incoming run.state = some q → q.tr = 0 →
          distance run.state.waitedSeqnum q.seqnum ≠ 31 ∧
          distance run.state.waitedSeqnum q.seqnum ≠ 32) →
        ∃ t, readWriteLoopServer env run.state = .ok t ∧
          (∀ d ∈ t.sent, ∃ pkt type timestamp, (type = ptypeAck ∨ type = ptypeNack) ∧
            Pkt.Reply pkt type (UInt8.ofNat (run.written.length + t.written.length)) timestamp ∧
            d = pkt.wire) ∧
          ∀ q, env.incoming run.state = some q → q.tr = 0 → q.seqnum = run.state.waitedSeqnum →
            q.data ≠ [] → env.WritesWhole → ∃ elems, DeliversRun run.state q elems t := by
  obtain ⟨hrep, -⟩ := receiverRun_tracks hnull hrun hgo
  refine ⟨⟨hrep.ptr, hrep.counted, hrep.head, hrep.waited, hrep.placed.seqnum, hrep.cells⟩, ?_⟩
  intro env hslot
  cases hinc : env.incoming run.state with
  | none =>
      obtain ⟨t, hturn, -, hsent, -⟩ := readWriteLoopServer_of_none hinc
      refine ⟨t, hturn, fun d hd => ?_, fun q hq => absurd hq (by simp)⟩
      rw [hsent] at hd
      exact absurd hd List.not_mem_nil
  | some q =>
      have hcase : q.tr = 1 ∨ distance run.state.waitedSeqnum q.seqnum < 31 ∨
          32 < distance run.state.waitedSeqnum q.seqnum := by
        rcases bitVec1_cases q.tr with htr | htr
        · have hfar := hslot q hinc htr
          omega
        · exact Or.inl htr
      obtain ⟨t, hturn, heffect⟩ := readWriteLoopServer_effect hrep hinc hcase
      refine ⟨t, hturn, fun d hd => ?_, fun q' hq' htr hseq hne hwhole => ?_⟩
      · rcases heffect.replies with hnone | ⟨type, htype, pkt, ts, hreply, hsent⟩
        · rw [hnone] at hd
          exact absurd hd List.not_mem_nil
        · rw [hsent, List.mem_singleton] at hd
          exact ⟨pkt, type, ts, htype.imp_right And.left, hreply, hd⟩
      · rw [Option.some.injEq] at hq'
        subst hq'
        have hd : distance run.state.waitedSeqnum q.seqnum = 0 := by rw [hseq, distance_self]
        exact heffect.deliversRun hrep htr hd hne hwhole

/-! ### Two packets in the wrong order -/

/-- Null slots; the rest of the memory is zero. -/
def nullMemory : ReceiverMemory where
  window := { window := fun _ => none, size := 0, ptr := 0 }
  dataBuffer := fun _ => 0
  buffer := fun _ => 0
  pkt := replyPkt 0 0 0
  receiverLogger := default

theorem nullMemory_null (i : Fin MAX_WINDOW_SIZE) : nullMemory.window.window i = none := rfl

/-- A turn that receives `datagram`; every write is taken whole. -/
def datagramEnv (datagram : Bytes) : ReceiverEnv where
  poll := .ready (.bytes datagram)
  write := fun _ payload => (payload.length : Nat)
  send := 10
  fresh := replyPkt 0 0 0
  malloc := some { payload := fun _ => 0, length := 0, seqnum := 0, timestamp := 0 }

/-- The packet 1 and then the packet 0: both are written, and the window is empty
    again with the number 2 expected. -/
theorem receiverRun_window_swap : letI := zlib
    ∃ run, receiverRun nullMemory false
        [datagramEnv (bytePkt 1 0 8).wire, datagramEnv (bytePkt 0 0 7).wire] = .ok run ∧
      run.written.map Prod.fst = [[7], [8]] ∧
      WindowInvariant run.state run.written.length run.accepted := by
  let _ := zlib
  have hturns : (receiverRun nullMemory false
      [datagramEnv (bytePkt 1 0 8).wire, datagramEnv (bytePkt 0 0 7).wire]).map
        (fun run => (run.stop, run.written.map Prod.fst)) = .ok (none, [[7], [8]]) := by
    decide +kernel
  obtain ⟨run, hrun, hresult⟩ := exists_ok_of_map hturns
  rw [Prod.mk.injEq] at hresult
  obtain ⟨hgo, hwritten⟩ := hresult
  exact ⟨run, hrun, hwritten, (receiverRun_window (fun _ => rfl) hrun hgo).1⟩

end SelectiveRepeat
