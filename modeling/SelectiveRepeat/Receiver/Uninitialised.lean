/-
  SelectiveRepeat.Receiver.Uninitialised

  Whether a run depends on what was in memory before it.  With null slots it does
  not: a run writes and sends what a run from an empty window does.  With any other
  slot it does, and two or more datagrams show it: a slot that is not null is a
  packet that `add` takes for a duplicate, and that `peek` finds.
-/
import SelectiveRepeat.Receiver.Bounds
import SelectiveRepeat.Receiver.Memory
import SelectiveRepeat.Receiver.Order
import SelectiveRepeat.Receiver.Writes

namespace SelectiveRepeat

open Reassembly

/-! ## Two runs -/

/-- What is seen of a run from outside. -/
def ReceiverRun.observed (run : ReceiverRun) : List (Bytes × Int) × List Bytes :=
  (run.written, run.sent)

/-- From an empty window, no packet arrives at distance 31 or 32, for which `add` leaves the
    array. -/
def StaysInside [Zlib] (statFile : Bool) (envs : List ReceiverEnv) : Prop :=
  ∀ n env run, envs[n]? = some env → receiverRun nullMemory statFile (envs.take n) = .ok run →
    run.stop = none → ¬ env.Overruns run.state

/-- The writes and the datagrams do not depend on the memory, nor on that of the blocks which
    `pkt_new` and `malloc` return later: they are those of a run from an empty window. -/
def ReceiverMemory.Independent [Zlib] (mem : ReceiverMemory) : Prop :=
  ∀ (statFile : Bool) (envs envs' : List ReceiverEnv),
    List.Forall₂ ReceiverEnv.SameOutside envs envs' → StaysInside statFile envs' →
    ∃ run run', receiverRun mem statFile envs = .ok run ∧
      receiverRun nullMemory statFile envs' = .ok run' ∧ run.observed = run'.observed

/-- Two runs that look the same from outside and go on alike. -/
structure ReceiverRun.Alike (run run' : ReceiverRun) : Prop where
  state : run.state.Alike run'.state
  stop : run.stop = run'.stop
  written : run.written = run'.written
  sent : run.sent = run'.sent

theorem ReceiverRun.turn_alike [Zlib] {env env' : ReceiverEnv} (henv : env.SameOutside env')
    {run run' : ReceiverRun} (h : run.Alike run') :
    Agree ReceiverRun.Alike (run.turn env) (run'.turn env') := by
  simp only [ReceiverRun.turn, ← h.stop]
  split
  · exact .ok h
  · refine (readWriteLoopServer_alike henv h.state).bind fun t t' ht => .ok ?_
    refine ⟨ht.state, ht.stop, ?_, ?_⟩
    · rw [h.written, ht.written]
    · rw [h.sent, ht.sent]

theorem receiverTurns_alike [Zlib] {envs envs' : List ReceiverEnv}
    (henvs : List.Forall₂ ReceiverEnv.SameOutside envs envs') {run run' : ReceiverRun}
    (h : run.Alike run') :
    Agree ReceiverRun.Alike (receiverTurns envs run) (receiverTurns envs' run') := by
  induction henvs generalizing run run' with
  | nil => exact .ok h
  | @cons env env' envs envs' henv _ ih =>
      simp only [receiverTurns, List.foldlM_cons]
      exact (ReceiverRun.turn_alike henv h).bind fun _ _ hnext => ih hnext

/-- Null slots make the start alike. -/
theorem receiverInit_alike {mem mem' : ReceiverMemory} (hnull : ∀ i, mem.window.window i = none)
    (hnull' : ∀ i, mem'.window.window i = none) (statFile : Bool) :
    (receiverInit mem statFile).Alike (receiverInit mem' statFile) := by
  have hsame : mem.window.window = mem'.window.window := by
    funext i
    rw [hnull, hnull']
  have hwindow : SortedList.newList mem.window = SortedList.newList mem'.window := by
    simp only [SortedList.newList, hsame]
  refine ⟨?_, rfl, rfl, rfl, rfl⟩
  show (SortedList.newList mem.window).map Pstl.clean =
    (SortedList.newList mem'.window).map Pstl.clean
  rw [hwindow]

/-- So whatever arrives, also where a run is not defined. -/
theorem receiverRun_alike [Zlib] {mem mem' : ReceiverMemory}
    (hnull : ∀ i, mem.window.window i = none) (hnull' : ∀ i, mem'.window.window i = none)
    (statFile : Bool) {envs envs' : List ReceiverEnv}
    (henvs : List.Forall₂ ReceiverEnv.SameOutside envs envs') :
    Agree ReceiverRun.Alike (receiverRun mem statFile envs) (receiverRun mem' statFile envs') :=
  receiverTurns_alike henvs ⟨receiverInit_alike hnull hnull' statFile, rfl, rfl, rfl⟩

/-- Runs from an empty window are defined as long as they stay inside. -/
theorem staysInside_iff [Zlib] (statFile : Bool) (envs : List ReceiverEnv) :
    StaysInside statFile envs ↔ ∃ run, receiverRun nullMemory statFile envs = .ok run := by
  refine ⟨?_, ?_⟩
  · intro hinside
    cases hrun : receiverRun nullMemory statFile envs with
    | ok run => exact ⟨run, rfl⟩
    | error e =>
        obtain ⟨n, env, mid, henv, hmid, hturn⟩ := FoldM.foldlM_error_iff.mp hrun
        by_cases hgo : mid.stop = none
        · have htracks := receiverRun_tracks nullMemory_null hmid hgo
          obtain ⟨next, hnext⟩ :=
            ReceiverRun.exists_turn_of_inside htracks hgo (hinside n env mid henv hmid hgo)
          rw [hnext] at hturn
          exact absurd hturn (by simp)
        · rw [ReceiverRun.turn_of_stop hgo] at hturn
          exact absurd hturn (by simp)
  · rintro ⟨run, hrun⟩ n env mid henv hmid hgo hover
    have htracks := receiverRun_tracks nullMemory_null hmid hgo
    obtain ⟨i, hturn⟩ := (ReceiverRun.turn_window_iff htracks hgo env).mpr hover
    have hfault := FoldM.foldlM_error_iff.mpr ⟨n, env, mid, henv, hmid, hturn⟩
    rw [receiverRun, receiverTurns, hfault] at hrun
    exact absurd hrun (by simp)

theorem independent_of_null [Zlib] {mem : ReceiverMemory}
    (hnull : ∀ i, mem.window.window i = none) : mem.Independent := by
  intro statFile envs envs' henvs hinside
  obtain ⟨run', hrun'⟩ := (staysInside_iff statFile envs').mp hinside
  have hagree := receiverRun_alike hnull nullMemory_null statFile henvs
  rw [hrun'] at hagree
  generalize hx : receiverRun mem statFile envs = x at hagree
  cases hagree with
  | @ok run _ h =>
      refine ⟨run, run', rfl, hrun', ?_⟩
      rw [ReceiverRun.observed, ReceiverRun.observed, h.written, h.sent]

/-! ## The packets that show a difference -/

/-- Packets of these numbers arrive, with one byte each, and nothing fails. -/
def numberEnvs [Zlib] (order : List Nat) (byte : UInt8) : List ReceiverEnv :=
  order.map fun k => datagramEnv (bytePkt (UInt8.ofNat k) 0 byte).wire

theorem numberEnvs_delivers [Zlib] (order : List Nat) (byte : UInt8) :
    List.Forall₂ (fun p env => ReceiverEnv.Delivers env p)
      (order.map fun k => bytePkt (UInt8.ofNat k) 0 byte) (numberEnvs order byte) := by
  rw [numberEnvs, List.forall₂_map_left_iff, List.forall₂_map_right_iff, List.forall₂_same]
  exact fun k _ => datagramEnv_delivers _

/-- From an empty window, whatever the order: a packet is written at its place once all
    packets before it are there. -/
theorem nullMemory_written [Zlib] {order : List Nat} (hnear : ∀ k ∈ order, k ≤ 30)
    (byte : UInt8) :
    ∃ run, receiverRun nullMemory false (numberEnvs order byte) = .ok run ∧
      ∀ k, (∀ j ≤ k, j ∈ order) → (run.written.map Prod.fst)[k]? = some [byte] := by
  have hready : Ready (receiverInit nullMemory false) :=
    (receiverInit_tracks nullMemory false nullMemory_null).represents.toReady
  have hcells := receiverInit_cells nullMemory false nullMemory_null
  have hdist : ∀ k ∈ order, distance (receiverInit nullMemory false).waitedSeqnum
      (UInt8.ofNat k) = k := by
    intro k hk
    exact distance_ofNat (Nat.zero_le k) (by have := hnear k hk; omega)
  have hP : Offered (receiverInit nullMemory false)
      (order.map fun k => bytePkt (UInt8.ofNat k) 0 byte) := by
    refine ⟨?_, ?_, ?_, fun p _ i elem h => absurd h (by simp [hcells])⟩
    · exact List.forall_mem_map.mpr fun k _ => bytePkt_queued _ _ _
    · rw [List.forall_mem_map]
      intro k hk
      exact (hdist k hk).le.trans (hnear k hk)
    · refine List.forall_mem_map.mpr fun k _ => List.forall_mem_map.mpr fun k' _ _ => rfl
  obtain ⟨run, hrun, habsorbs⟩ :=
    Absorbs.run hP (fun i elem h => absurd h (by simp [hcells])) (numberEnvs_delivers order byte)
      (fun _ hp => hp) (fun _ hp => absurd hp List.not_mem_nil) (absorbs_start hready)
  rw [List.nil_append] at habsorbs
  refine ⟨run, hrun, fun k hk => ?_⟩
  -- the union has every packet up to `k`
  have hunion : ∀ j ≤ k, union (receiverInit nullMemory false)
      (order.map fun k => bytePkt (UInt8.ofNat k) 0 byte) j = some [byte] := by
    intro j hj
    rw [union_eq_some hready hP]
    exact .inr ⟨_, List.mem_map_of_mem (hk j hj), hdist j (hk j hj), rfl⟩
  -- so the gap is behind it
  have hgap := habsorbs.gap
  have hlt : k < run.written.length := by
    by_contra hle
    have hnone := hgap.gap
    rw [hunion _ (Nat.le_of_not_lt hle)] at hnone
    exact absurd hnone (by simp)
  rw [habsorbs.written, assembled_getElem hgap.below hlt, hunion k (Nat.le_refl k)]

theorem ReceiverEnv.SameOutside.refl (env : ReceiverEnv) : env.SameOutside env :=
  ⟨rfl, rfl, rfl, rfl⟩

/-- A memory on which nothing depends gives a run that writes the same. -/
theorem ReceiverMemory.Independent.written [Zlib] {mem : ReceiverMemory} (h : mem.Independent)
    {order : List Nat} (hnear : ∀ k ∈ order, k ≤ 30) (byte : UInt8) :
    ∃ run, receiverRun mem false (numberEnvs order byte) = .ok run ∧
      ∀ k, (∀ j ≤ k, j ∈ order) → (run.written.map Prod.fst)[k]? = some [byte] := by
  obtain ⟨run', hrun', hall⟩ := nullMemory_written hnear byte
  obtain ⟨run, ref, hrun, href, hobserved⟩ := h false (numberEnvs order byte)
    (numberEnvs order byte) (List.forall₂_same.mpr fun env _ => .refl env)
    ((staysInside_iff false _).mpr ⟨run', hrun'⟩)
  rw [hrun', Except.ok.injEq] at href
  subst href
  rw [ReceiverRun.observed, ReceiverRun.observed, Prod.mk.injEq] at hobserved
  exact ⟨run, hrun, by rwa [hobserved.1]⟩

/-! ## A slot that is not null -/

/-- A DATA packet that arrives with some bytes is handled with its number. -/
theorem ReceiverEnv.Delivers.turn [Zlib] {env : ReceiverEnv} {p : Pkt} (h : env.Delivers p)
    (hp : p.Queued) (st : ReceiverState) :
    ∃ buf q, readWriteLoopServer env st = dataCase env { st with dataBuffer := buf, pkt := q } ∧
      q.Queued ∧ q.seqnum = p.seqnum := by
  obtain ⟨q, hinc, hsame, htr, hdata⟩ := ReceiverEnv.incoming_wire st h.poll hp.sized hp.type
  obtain ⟨buf, hrun, htype, hlen⟩ := readWriteLoopServer_of_incoming hinc
  have hq : q.tr = 0 := htr.trans hp.tr
  have hlength := congrArg List.length (hdata hp.tr)
  rw [q.data_length, p.data_length] at hlength
  exact ⟨buf, q, hrun, ⟨htype, hq, hlength ▸ hp.length_pos, hlen hq⟩, hsame.seqnum⟩

/-- Before anything was received in order, another number than the expected one comes to
    `add` and no further. -/
theorem dataCase_of_add [Zlib] {env : ReceiverEnv} {st : ReceiverState} (hq : st.pkt.Queued)
    (hpos : 0 < distance st.waitedSeqnum st.pkt.seqnum)
    (hd : distance st.waitedSeqnum st.pkt.seqnum < 31) (hreceive : st.receivePkt = 0) {res : Int}
    {window : SortedList} (hadd : st.window.add st.pkt st.waitedSeqnum env.malloc = .ok (res, window))
    (hres : res ≠ -1) :
    ∃ t, dataCase env st = .ok t ∧ t.stop = none ∧ t.written = [] ∧ t.state.window = window ∧
      t.state.waitedSeqnum = st.waitedSeqnum ∧ t.state.ackSize = st.ackSize := by
  have htr : ¬ st.pkt.tr = 1 := bitVec1_ne_one hq.tr
  have hseq : ¬ st.pkt.seqnum = st.waitedSeqnum := by
    rw [← distance_eq_zero]
    omega
  have hin : inWindow st.waitedSeqnum st.pkt.seqnum = true := by
    rw [inWindow_iff]
    omega
  have hfirst : ¬ st.receivePkt ≠ 0 := not_not.mpr hreceive
  simp only [dataCase, if_neg htr, if_neg hseq, unwaitedCase, storeCase, if_pos hin, hadd, ok_bind,
    if_neg hres]
  by_cases hone : res = 1
  · simp only [if_pos hone]
    exact ⟨_, if_neg hfirst, rfl, rfl, rfl, rfl, rfl⟩
  · simp only [if_neg hone]
    exact ⟨_, if_neg hfirst, rfl, rfl, rfl, rfl, rfl⟩

/-- What a run of one more turn has of it. -/
theorem ReceiverRun.exists_turn [Zlib] {run : ReceiverRun} (hgo : run.stop = none)
    {env : ReceiverEnv} {t : ReceiverTurn} (hrun : readWriteLoopServer env run.state = .ok t) :
    ∃ run', run.turn env = .ok run' ∧ run'.state = t.state ∧ run'.stop = t.stop ∧
      run'.written = run.written ++ t.written :=
  ⟨_, ReceiverRun.turn_of_ok hgo hrun, rfl, rfl, rfl⟩

/-- The packet `W` is expected, and the count says that none is stored. -/
structure Uncounted (st : ReceiverState) (W : Nat) : Prop where
  size : st.window.size = 0
  ackSize : st.ackSize = 10
  waited : st.waitedSeqnum = UInt8.ofNat W

/-- Then the expected packet is all that is written, whatever the slots hold. -/
theorem Uncounted.dataCase [Zlib] {env : ReceiverEnv} {st : ReceiverState} {W : Nat}
    (h : Uncounted st W) (hq : st.pkt.Queued) (hseq : st.pkt.seqnum = UInt8.ofNat W)
    (hwhole : env.WritesWhole) (hsend : env.send ≠ 0) :
    ∃ t, dataCase env st = .ok t ∧ t.stop = none ∧ t.written.length = 1 ∧
      Uncounted t.state (W + 1) := by
  have htr : ¬ st.pkt.tr = 1 := bitVec1_ne_one hq.tr
  have hexpected : st.pkt.seqnum = st.waitedSeqnum := hseq.trans h.waited.symm
  have hne : st.pkt.length ≠ 0 := by
    rw [Ne, uint16_eq_zero]
    exact Nat.ne_of_gt hq.length_pos
  have hwrite : env.write 0 st.pkt.data ≠ 0 := hwhole.ne_zero 0 hq.data_ne_nil
  -- the loop that empties the window does nothing, and neither does `reset`
  have hloop : drainLoop env (st.window.size.toNat + 1) (drainStart env st) =
      .ok (drainStart env st, none) := by
    have hempty : (drainStart env st).window.isEmpty = true := by
      simp only [drainStart, SortedList.isEmpty, h.size, decide_true]
    rw [drainLoop, if_pos hempty]
  have hcase := @waitedCase_written _ env
    { st with receiverLogger := st.receiverLogger.addDataReceived } hq.tr hq.length_le hne hwrite
    _ _ hloop
  have hreset := SortedList.reset_of_size h.size (st.waitedSeqnum + 1) st.waitedSeqnum
  obtain ⟨pkt, buffer, -, hreply⟩ := @sendReply_spec _ env
    { st with
      receiverLogger := st.receiverLogger.addDataReceived
      window := { st.window with ptr := 0 }
      waitedSeqnum := st.waitedSeqnum + 1
      receivePkt := 1 } h.ackSize [(st.pkt.data, env.write 0 st.pkt.data)] st.pkt.timestamp 2
    (by decide) (by decide) Logger.addAckSent
  simp only [drainStart, hreset, ok_bind, hreply, if_neg hsend] at hcase
  simp only [SelectiveRepeat.dataCase, if_neg htr, if_pos hexpected, hcase]
  refine ⟨_, rfl, rfl, rfl, h.size, rfl, ?_⟩
  show st.waitedSeqnum + 1 = UInt8.ofNat (W + 1)
  rw [ofNat_succ, ← h.waited]

/-- So it is for the packets from `W` on, in their order. -/
theorem Uncounted.turns [Zlib] {run : ReceiverRun} {W : Nat} (h : Uncounted run.state W)
    (hgo : run.stop = none) (m : Nat) (byte : UInt8) :
    ∃ run', receiverTurns (numberEnvs (List.range' W m) byte) run = .ok run' ∧
      run'.written.length = run.written.length + m := by
  induction m generalizing run W with
  | zero => exact ⟨run, rfl, rfl⟩
  | succ m ih =>
      have hd := datagramEnv_delivers (bytePkt (UInt8.ofNat W) 0 byte)
      obtain ⟨buf, q, hturn, hq, hseq⟩ := hd.turn (bytePkt_queued _ _ _) run.state
      have hst : Uncounted { run.state with dataBuffer := buf, pkt := q } W :=
        ⟨h.size, h.ackSize, h.waited⟩
      obtain ⟨t, hcase, hstop, hone, hnext⟩ := hst.dataCase hq hseq hd.whole hd.send
      obtain ⟨mid, hmid, hstate, hgo', hwritten⟩ := ReceiverRun.exists_turn hgo (hturn.trans hcase)
      rw [← hstate] at hnext
      obtain ⟨run', hruns, hlen⟩ := ih hnext (hgo'.trans hstop)
      refine ⟨run', (FoldM.foldlM_cons_ok hmid).trans hruns, ?_⟩
      rw [hlen, hwritten, List.length_append, hone]
      omega

/-- The packet `k` as the first one, which is not the expected one. -/
theorem receiverInit_early [Zlib] (mem : ReceiverMemory) {k : Nat} (hpos : 0 < k) (hk : k < 31)
    (byte : UInt8) :
    ∃ q : Pkt, q.Queued ∧ distance 0 q.seqnum = k ∧
      ∀ res window, (receiverInit mem false).window.add q 0
          (datagramEnv (bytePkt (UInt8.ofNat k) 0 byte).wire).malloc = .ok (res, window) →
        res ≠ -1 →
        ∃ t, readWriteLoopServer (datagramEnv (bytePkt (UInt8.ofNat k) 0 byte).wire)
            (receiverInit mem false) = .ok t ∧
          t.stop = none ∧ t.written = [] ∧ t.state.window = window ∧ t.state.waitedSeqnum = 0 ∧
          t.state.ackSize = 10 := by
  have hd := datagramEnv_delivers (bytePkt (UInt8.ofNat k) 0 byte)
  obtain ⟨buf, q, hturn, hq, hseq⟩ := hd.turn (bytePkt_queued _ _ _) (receiverInit mem false)
  have hdist : distance 0 q.seqnum = k := by
    rw [hseq]
    exact distance_ofNat (Nat.zero_le k) (by omega)
  have hpos' : 0 < distance 0 q.seqnum := by omega
  have hk' : distance 0 q.seqnum < 31 := by omega
  refine ⟨q, hq, hdist, fun res window hadd hres => ?_⟩
  obtain ⟨t, hcase, ht⟩ := @dataCase_of_add _ _
    { receiverInit mem false with dataBuffer := buf, pkt := q } hq hpos' hk' rfl _ _ hadd hres
  exact ⟨t, hturn.trans hcase, ht⟩

/-- A slot that is not null makes its packet a duplicate: sent before those in front of it, it
    is never written. -/
theorem written_of_slot [Zlib] {mem : ReceiverMemory} {k : Nat} {elem : Pstl} (hpos : 0 < k)
    (hcell : (receiverInit mem false).window.cells k = some elem) (byte : UInt8) :
    ∃ run, receiverRun mem false (numberEnvs (k :: List.range k) byte) = .ok run ∧
      run.written.length = k := by
  have hk := SortedList.lt_of_cells hcell
  obtain ⟨q, -, hdist, hearly⟩ := receiverInit_early mem hpos hk byte
  have hshadow : (receiverInit mem false).window.cells (distance 0 q.seqnum) = some elem := by
    rwa [hdist]
  have hadd := SortedList.add_of_some hshadow
    (datagramEnv (bytePkt (UInt8.ofNat k) 0 byte).wire).malloc
  obtain ⟨t, hturn, hstop, hw, hwindow, hwaited, hack⟩ := hearly _ _ hadd (by decide)
  obtain ⟨mid, hmid, hstate, hgo, hwritten⟩ :=
    @ReceiverRun.exists_turn _ { state := receiverInit mem false } rfl _ _ hturn
  -- nothing was stored, so the count is still 0
  have hstart : Uncounted mid.state 0 := by
    rw [hstate]
    refine ⟨?_, hack, hwaited⟩
    rw [hwindow]
    rfl
  obtain ⟨run, hruns, hlen⟩ := hstart.turns (hgo.trans hstop) k byte
  rw [← List.range_eq_range'] at hruns
  refine ⟨run, (FoldM.foldlM_cons_ok hmid).trans hruns, ?_⟩
  rw [hlen, hwritten, hw]
  exact Nat.zero_add k

/-- What the expected packet writes behind itself is what `peek` finds. -/
theorem waitedCase_second [Zlib] {env : ReceiverEnv} {st : ReceiverState} {t : ReceiverTurn}
    (h : waitedCase env st = .ok t) {elem : Pstl} {list : SortedList}
    (hpeek : st.window.peek = .ok (some elem, list)) {x : Bytes}
    (hx : (t.written.map Prod.fst)[1]? = some x) : x = elem.data := by
  rcases waitedCase_inv h with ⟨hw, -⟩ | ⟨payload, hw, -, -⟩ |
    ⟨start, s, stop, hloop, hwindow, -, ⟨payload, nb, -, hfirst⟩, hw, -, -⟩
  · simp [hw] at hx
  · simp [hw] at hx
  rw [hw] at hx
  rcases drainLoop_inv hloop with ⟨hs, -⟩ |
    ⟨elem', list', nb', hpeek', ⟨-, -, hs, -⟩ | ⟨-, next, hs, -, hnext⟩⟩
  · simp [hs, hfirst] at hx
  all_goals
    have hsame : elem' = elem := by
      rw [hwindow, hpeek, Except.ok.injEq, Prod.mk.injEq, Option.some.injEq] at hpeek'
      exact hpeek'.1.symm
  · rw [hs, hfirst] at hx
    simpa [hsame] using hx.symm
  · obtain ⟨ws, -, hws, -⟩ := drainLoop_passed hnext
    rw [hws, hs, hfirst] at hx
    simpa [hsame] using hx.symm

/-- A first slot that is not null is found in front of the packet 1. -/
theorem written_of_first_slot [Zlib] {mem : ReceiverMemory} {elem : Pstl}
    (hcell : (receiverInit mem false).window.cells 0 = some elem)
    (hfree : (receiverInit mem false).window.cells 1 = none) {byte : UInt8} {run : ReceiverRun}
    (hrun : receiverRun mem false (numberEnvs [1, 0] byte) = .ok run) {x : Bytes}
    (hx : (run.written.map Prod.fst)[1]? = some x) : x = elem.data := by
  obtain ⟨q, hq, hdist, hearly⟩ := receiverInit_early mem Nat.one_pos (by omega) byte
  have hslot : (receiverInit mem false).window.cells (distance 0 q.seqnum) = none := by
    rwa [hdist]
  have hlt : distance 0 q.seqnum < 31 := by omega
  obtain ⟨window, hadd, hcells, hsize, hptr⟩ :=
    SortedList.add_of_none hlt hslot (readPayload_of_le hq.tr hq.length_le)
      { payload := fun _ => 0, length := 0, seqnum := 0, timestamp := 0 }
  obtain ⟨t, hturn, hstop, hw, hwindow, hwaited, hack⟩ := hearly _ _ hadd (by decide)
  obtain ⟨mid, hmid, hstate, hgo, hwritten⟩ :=
    @ReceiverRun.exists_turn _ { state := receiverInit mem false } rfl _ _ hturn
  -- slot 0 is what the cursor is on
  have hpeek : mid.state.window.peek = .ok (some elem, { window with ptr := 0 }) := by
    rw [hstate, hwindow]
    have hcell0 : window.cells 0 = some elem := by
      rw [hcells, hdist, Function.update_of_ne (by decide)]
      exact hcell
    have hne : window.size ≠ 0 := by
      rw [hsize]
      exact one_ne_zero
    exact SortedList.peek_of_size hne hcell0 (fun i hi => absurd hi (Nat.not_lt_zero i))
      (by rw [hptr]; exact Nat.le_refl 0)
  -- the second turn writes the packet 0 and what it finds
  have hrest := (FoldM.foldlM_cons_ok hmid).symm.trans hrun
  obtain ⟨last, hlast, hend⟩ := exists_ok_of_bind hrest
  cases hend
  obtain ⟨t₂, hturn₂, rfl⟩ := ReceiverRun.turn_inv (hgo.trans hstop) hlast
  have hd := datagramEnv_delivers (bytePkt (UInt8.ofNat 0) 0 byte)
  obtain ⟨buf, q₂, hcase, hq₂, hseq₂⟩ := hd.turn (bytePkt_queued _ _ _) mid.state
  have htr : ¬ q₂.tr = 1 := bitVec1_ne_one hq₂.tr
  have hexpected : q₂.seqnum = mid.state.waitedSeqnum := by
    rw [hstate, hwaited]
    exact hseq₂
  rw [hcase] at hturn₂
  simp only [dataCase, if_neg htr, if_pos hexpected] at hturn₂
  refine waitedCase_second hturn₂ hpeek ?_
  rwa [hwritten, hw] at hx

/-! ## Independence -/

theorem null_of_independent [Zlib] {mem : ReceiverMemory} (h : mem.Independent) (k : Nat) :
    (receiverInit mem false).window.cells k = none := by
  have hrest : ∀ k, 0 < k → (receiverInit mem false).window.cells k = none := by
    intro k hpos
    by_contra hsome
    obtain ⟨elem, hcell⟩ := Option.ne_none_iff_exists'.mp hsome
    have hk := SortedList.lt_of_cells hcell
    -- the packet `k` would be written behind `k` others
    obtain ⟨run, hrun, hlen⟩ := written_of_slot hpos hcell 7
    have hnear : ∀ j ∈ k :: List.range k, j ≤ 30 := by
      simp only [List.mem_cons, List.mem_range]
      omega
    obtain ⟨run', hrun', hall⟩ := h.written hnear 7
    have hlast := hall k fun j hj => by
      simp only [List.mem_cons, List.mem_range]
      omega
    rw [hrun, Except.ok.injEq] at hrun'
    subst hrun'
    rw [List.getElem?_eq_none (by rw [List.length_map, hlen])] at hlast
    exact absurd hlast (by simp)
  rcases Nat.eq_zero_or_pos k with rfl | hpos
  · by_contra hsome
    obtain ⟨elem, hcell⟩ := Option.ne_none_iff_exists'.mp hsome
    -- a byte that is not what slot 0 holds would be written second
    obtain ⟨byte, hbyte⟩ : ∃ byte : UInt8, [byte] ≠ elem.data := by
      by_cases hdata : elem.data = [7]
      · exact ⟨8, by rw [hdata]; decide⟩
      · exact ⟨7, Ne.symm hdata⟩
    have hnear : ∀ j ∈ [1, 0], j ≤ 30 := by simp
    obtain ⟨run, hrun, hall⟩ := h.written hnear byte
    have hsecond := hall 1 fun j hj => by
      simp only [List.mem_cons, List.not_mem_nil, or_false]
      omega
    exact hbyte (written_of_first_slot hcell (hrest 1 Nat.one_pos) hrun hsecond)
  · exact hrest k hpos

/-- What the receiver writes and sends, whatever arrives with a place in the array and whatever
    every block of memory held, is what it does from an empty window, exactly when the slots
    of the block that `new_list` gets are null already. -/
theorem receiverRun_independent_iff [Zlib] (mem : ReceiverMemory) :
    mem.Independent ↔ ∀ i, mem.window.window i = none := by
  refine ⟨fun h i => ?_, independent_of_null⟩
  have hcell := null_of_independent h i
  rwa [SortedList.cells, dif_pos i.isLt] at hcell

/-- Memory in which no slot of the window is null. -/
def dirtyMemory : ReceiverMemory :=
  let elem : Pstl := { payload := fun _ => 0, length := 0, seqnum := 0, timestamp := 0 }
  { nullMemory with window := { window := fun _ => some elem, size := 0, ptr := 0 } }

/-- The packet 1 and then the packet 0: the packet 1 is taken for a duplicate, and only the
    packet 0 is written. -/
theorem receiverRun_not_independent : ¬ ∀ [Zlib] (mem : ReceiverMemory) (statFile : Bool)
    (envs envs' : List ReceiverEnv), List.Forall₂ ReceiverEnv.SameOutside envs envs' →
    (receiverRun mem statFile envs).map ReceiverRun.observed =
      (receiverRun nullMemory statFile envs').map ReceiverRun.observed := by
  intro hall
  let _ := zlib
  have hsame := hall dirtyMemory false (numberEnvs [1, 0] 7) (numberEnvs [1, 0] 7)
    (List.forall₂_same.mpr fun env _ => .refl env)
  have hdirty : (receiverRun dirtyMemory false (numberEnvs [1, 0] 7)).map
      ReceiverRun.written = .ok [([7], 1)] := by
    decide +kernel
  have hclean : (receiverRun nullMemory false (numberEnvs [1, 0] 7)).map
      ReceiverRun.written = .ok [([7], 1), ([7], 1)] := by
    decide +kernel
  obtain ⟨run, hrun, hwritten⟩ := exists_ok_of_map hdirty
  obtain ⟨run', hrun', hwritten'⟩ := exists_ok_of_map hclean
  rw [hrun, hrun'] at hsame
  have hobserved : run.observed = run'.observed := Except.ok.inj hsame
  rw [ReceiverRun.observed, ReceiverRun.observed, Prod.mk.injEq, hwritten, hwritten'] at hobserved
  exact absurd hobserved.1 (by simp)

end SelectiveRepeat
