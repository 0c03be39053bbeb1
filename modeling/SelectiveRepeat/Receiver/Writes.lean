/-
  SelectiveRepeat.Receiver.Writes

  What `write` answers against what is acknowledged.  The loop looks for a result
  of 0 only, so the expected number moves past every packet whose write returned
  anything else, an error or a short count included.  This is read off the code
  alone: no invariant of the window is used.
-/
import SelectiveRepeat.Receiver.Run
import Mathlib.Data.List.Infix

namespace SelectiveRepeat

open Reassembly

/-! ## What the output accepted -/

/-- The bytes a write took of the payload it was given: none when it failed. -/
def takenBytes (w : Bytes × Int) : Bytes := w.1.take w.2.toNat

/-- What `outfd` has accepted after these writes. -/
def acceptedBytes (ws : List (Bytes × Int)) : Bytes := (ws.map takenBytes).flatten

/-- The write took all it was given. -/
def WrittenWhole (w : Bytes × Int) : Prop := w.2 = (w.1.length : Nat)

theorem takenBytes_of_whole {w : Bytes × Int} (h : WrittenWhole w) : takenBytes w = w.1 := by
  have hlen : w.2.toNat = w.1.length := by
    rw [h]
    rfl
  rw [takenBytes, hlen, List.take_length]

theorem takenBytes_zero {w : Bytes × Int} (h : w.2 = 0) : takenBytes w = [] := by
  rw [takenBytes, h]
  exact List.take_zero

theorem acceptedBytes_whole {ws : List (Bytes × Int)} (h : ∀ w ∈ ws, WrittenWhole w) :
    acceptedBytes ws = (ws.map Prod.fst).flatten := by
  rw [acceptedBytes, List.map_congr_left fun w hw => takenBytes_of_whole (h w hw)]

theorem acceptedBytes_append (ws ws' : List (Bytes × Int)) :
    acceptedBytes (ws ++ ws') = acceptedBytes ws ++ acceptedBytes ws' := by
  simp [acceptedBytes]

/-! ## What is passed -/

/-- Of the packets written the first `n` are passed: all of them, or all but the last one, whose
    write returned 0 and ended the loop. -/
structure Passed (ws : List (Bytes × Int)) (n : Nat) (stop : Option ReceiverStop) : Prop where
  nonzero : ∀ w ∈ ws.take n, w.2 ≠ 0
  all : n = ws.length ∨ ∃ w, ws.drop n = [w] ∧ w.2 = 0 ∧ stop ≠ none

theorem passed_nil (stop : Option ReceiverStop) : Passed [] 0 stop :=
  ⟨fun _ hw => absurd hw List.not_mem_nil, .inl rfl⟩

theorem passed_zero {w : Bytes × Int} (h : w.2 = 0) {stop : Option ReceiverStop}
    (hstop : stop ≠ none) : Passed [w] 0 stop :=
  ⟨fun _ hw => absurd hw List.not_mem_nil, .inr ⟨w, rfl, h, hstop⟩⟩

/-- Without a `return` all that was written is passed. -/
theorem Passed.eq_length {ws : List (Bytes × Int)} {n : Nat} (h : Passed ws n none) :
    n = ws.length := by
  rcases h.all with heq | ⟨w, -, -, hne⟩
  · exact heq
  · exact absurd rfl hne

theorem Passed.of_none {ws : List (Bytes × Int)} {n : Nat} (h : Passed ws n none)
    (stop : Option ReceiverStop) : Passed ws n stop :=
  ⟨h.nonzero, .inl h.eq_length⟩

/-- What is written later is passed later. -/
theorem Passed.append {ws ws' : List (Bytes × Int)} {n n' : Nat} {stop : Option ReceiverStop}
    (h : Passed ws n none) (h' : Passed ws' n' stop) : Passed (ws ++ ws') (n + n') stop := by
  have hn := h.eq_length
  subst hn
  refine ⟨?_, ?_⟩
  · intro w hw
    rw [List.take_length_add_append, List.mem_append] at hw
    rcases hw with hw | hw
    · exact h.nonzero w (by rwa [List.take_length])
    · exact h'.nonzero w hw
  · rcases h'.all with heq | ⟨w, hdrop, hzero, hstop⟩
    · exact .inl (by rw [List.length_append, heq])
    · exact .inr ⟨w, by rw [List.drop_length_add_append, hdrop], hzero, hstop⟩

theorem Passed.le_length {ws : List (Bytes × Int)} {n : Nat} {stop : Option ReceiverStop}
    (h : Passed ws n stop) : n ≤ ws.length := by
  rcases h.all with heq | ⟨w, hdrop, -, -⟩
  · exact heq.le
  · have hlen := congrArg List.length hdrop
    rw [List.length_drop, List.length_singleton] at hlen
    omega

/-- What is behind the packets passed is a write that returned 0, or nothing. -/
theorem Passed.rest {ws : List (Bytes × Int)} {n : Nat} {stop : Option ReceiverStop}
    (h : Passed ws n stop) : ∀ w ∈ ws.drop n, w.2 = 0 := by
  intro w hw
  rcases h.all with heq | ⟨w', hdrop, hzero, -⟩
  · rw [heq, List.drop_length] at hw
    exact absurd hw List.not_mem_nil
  · rw [hdrop, List.mem_singleton] at hw
    rwa [hw]

/-- If nothing but whole writes and results of 0 came back, the packets passed were taken whole. -/
theorem Passed.whole {ws : List (Bytes × Int)} {n : Nat} {stop : Option ReceiverStop}
    (h : Passed ws n stop) (hresults : ∀ w ∈ ws, WrittenWhole w ∨ w.2 = 0) :
    ∀ w ∈ ws.take n, WrittenWhole w := fun w hw =>
  (hresults w (List.mem_of_mem_take hw)).resolve_right (h.nonzero w hw)

/-- And then what was taken is, at any time, a prefix of what was to be written. -/
theorem Passed.accepted_prefix {ws : List (Bytes × Int)} {n : Nat} {stop : Option ReceiverStop}
    (h : Passed ws n stop) (hresults : ∀ w ∈ ws, WrittenWhole w ∨ w.2 = 0) (m : Nat) :
    acceptedBytes (ws.take m) <+: (ws.map Prod.fst).flatten := by
  -- a result of 0 adds nothing to the bytes of the packets passed
  have hlast : acceptedBytes (ws.drop n) = [] := by
    rw [acceptedBytes, List.flatten_eq_nil_iff]
    intro bs hbs
    obtain ⟨w, hw, rfl⟩ := List.mem_map.mp hbs
    exact takenBytes_zero (h.rest w hw)
  have hall : acceptedBytes ws = ((ws.take n).map Prod.fst).flatten :=
    calc acceptedBytes ws
        = acceptedBytes (ws.take n ++ ws.drop n) := by rw [List.take_append_drop]
      _ = ((ws.take n).map Prod.fst).flatten := by
          rw [acceptedBytes_append, hlast, List.append_nil, acceptedBytes_whole (h.whole hresults)]
  have hprefix : acceptedBytes (ws.take m) <+: acceptedBytes ws :=
    ((List.take_prefix m ws).map takenBytes).flatten
  have hfirst : ((ws.take n).map Prod.fst).flatten <+: (ws.map Prod.fst).flatten :=
    ((List.take_prefix n ws).map Prod.fst).flatten
  rw [hall] at hprefix
  exact hprefix.trans hfirst

/-- A single write with another result than 0. -/
theorem passed_one {w : Bytes × Int} (h : w.2 ≠ 0) : Passed [w] 1 none :=
  ⟨fun w' hw' => by rwa [List.mem_singleton.mp hw'], .inl rfl⟩

theorem data_of_readPstl {elem : Pstl} {payload : Bytes} (h : readPstl elem = .ok payload) :
    payload = elem.data := by
  rw [readPstl] at h
  split at h
  · cases h
  · cases h
    rfl

/-- What one turn of the loop that empties the window can do to what was written and to the
    expected number: nothing, a write of what `peek` finds that returns 0 and ends it, or one
    that goes on. -/
theorem drainLoop_inv {env : ReceiverEnv} {fuel : Nat} {s s' : DrainState}
    {stop : Option ReceiverStop} (h : drainLoop env (fuel + 1) s = .ok (s', stop)) :
    (s'.written = s.written ∧ s'.waitedSeqnum = s.waitedSeqnum) ∨
      ∃ elem list nb, s.window.peek = .ok (some elem, list) ∧
        ((nb = 0 ∧ stop = some .write ∧ s'.written = s.written ++ [(elem.data, nb)] ∧
          s'.waitedSeqnum = s.waitedSeqnum) ∨
        (nb ≠ 0 ∧ ∃ next, next.written = s.written ++ [(elem.data, nb)] ∧
          next.waitedSeqnum = s.waitedSeqnum + 1 ∧ drainLoop env fuel next = .ok (s', stop))) := by
  rw [drainLoop] at h
  split at h
  · -- the window is empty
    cases h
    exact .inl ⟨rfl, rfl⟩
  obtain ⟨⟨elem, window⟩, hpeek, h⟩ := exists_ok_of_bind h
  cases elem with
  | none => cases h
  | some elem =>
      simp only at h
      split at h
      case isFalse =>
        cases h
        exact .inl ⟨rfl, rfl⟩
      split at h
      · -- the end of the transfer was stored
        cases h
        exact .inl ⟨rfl, rfl⟩
      obtain ⟨payload, hread, h⟩ := exists_ok_of_bind h
      rw [data_of_readPstl hread] at h
      refine .inr ⟨elem, window, env.write s.written.length elem.data, hpeek, ?_⟩
      split at h
      · rename_i hzero
        cases h
        exact .inl ⟨hzero, rfl, rfl, rfl⟩
      · rename_i hne
        obtain ⟨window', -, h⟩ := exists_ok_of_bind h
        exact .inr ⟨hne, _, rfl, rfl, h⟩

/-- The whole loop passes what it writes. -/
theorem drainLoop_passed {env : ReceiverEnv} {fuel : Nat} {s s' : DrainState}
    {stop : Option ReceiverStop} (h : drainLoop env fuel s = .ok (s', stop)) :
    ∃ ws n, s'.written = s.written ++ ws ∧ Passed ws n stop ∧
      s'.waitedSeqnum = s.waitedSeqnum + UInt8.ofNat n := by
  induction fuel generalizing s with
  | zero => cases h
  | succ fuel ih =>
      rcases drainLoop_inv h with ⟨hw, hq⟩ |
        ⟨elem, -, nb, -, ⟨hzero, rfl, hw, hq⟩ | ⟨hne, next, hw, hq, hnext⟩⟩
      · exact ⟨[], 0, by rw [hw, List.append_nil], passed_nil _, by rw [hq]; simp⟩
      · exact ⟨[(elem.data, nb)], 0, hw, passed_zero hzero (by simp), by rw [hq]; simp⟩
      · obtain ⟨ws, n, hws, hpassed, hwaited⟩ := ih hnext
        refine ⟨(elem.data, nb) :: ws, 1 + n, ?_, (passed_one hne).append hpassed, ?_⟩
        · rw [hws, hw, List.append_assoc, List.singleton_append]
        · rw [hwaited, hq, add_ofNat_one_add]

/-! ## One turn -/

/-- What a turn writes is what it passes. -/
def PassesWritten (st : ReceiverState) (t : ReceiverTurn) : Prop :=
  ∃ n, Passed t.written n t.stop ∧ t.state.waitedSeqnum = st.waitedSeqnum + UInt8.ofNat n

theorem passesWritten_nil {st : ReceiverState} {t : ReceiverTurn} (hw : t.written = [])
    (hq : t.state.waitedSeqnum = st.waitedSeqnum) : PassesWritten st t :=
  ⟨0, by rw [hw]; exact passed_nil _, by rw [hq]; simp⟩

/-- A reply changes neither what was written nor the expected number. -/
theorem sendReply_inv [Zlib] {env : ReceiverEnv} {st : ReceiverState} {written : List (Bytes × Int)}
    {timestamp : UInt32} {type : UInt32} {count : Logger → Logger} {t : ReceiverTurn}
    (h : sendReply env st written timestamp type count = .ok t) :
    t.written = written ∧ t.state.waitedSeqnum = st.waitedSeqnum := by
  rw [sendReply] at h
  obtain ⟨r, -, h⟩ := exists_ok_of_bind h
  simp only at h
  split at h
  · cases h
    exact ⟨rfl, rfl⟩
  · cases h
    exact ⟨rfl, rfl⟩

/-- What the expected packet can do: end the loop, be written with the result 0, or be written
    in front of what the window hands on. -/
theorem waitedCase_inv [Zlib] {env : ReceiverEnv} {st : ReceiverState} {t : ReceiverTurn}
    (h : waitedCase env st = .ok t) :
    (t.written = [] ∧ t.state.waitedSeqnum = st.waitedSeqnum) ∨
      (∃ payload, t.written = [(payload, 0)] ∧ t.stop ≠ none ∧
        t.state.waitedSeqnum = st.waitedSeqnum) ∨
      ∃ start s stop, drainLoop env (st.window.size.toNat + 1) start = .ok (s, stop) ∧
        start.window = st.window ∧ start.waitedSeqnum = st.waitedSeqnum + 1 ∧
        (∃ payload nb, nb ≠ 0 ∧ start.written = [(payload, nb)]) ∧
        t.written = s.written ∧ t.state.waitedSeqnum = s.waitedSeqnum ∧
        (stop = none ∨ t.stop = stop) := by
  rw [waitedCase] at h
  split at h
  · -- the end of the transfer
    cases h
    exact .inl ⟨rfl, rfl⟩
  obtain ⟨payload, -, h⟩ := exists_ok_of_bind h
  simp only at h
  split at h
  · rename_i hzero
    cases h
    exact .inr (.inl ⟨payload, by rw [hzero], by simp, rfl⟩)
  rename_i hne
  obtain ⟨⟨s, stop⟩, hloop, h⟩ := exists_ok_of_bind h
  refine .inr (.inr ⟨_, s, stop, hloop, rfl, rfl, ⟨payload, _, hne, rfl⟩, ?_⟩)
  cases stop with
  | some reason =>
      cases h
      exact ⟨rfl, rfl, .inr rfl⟩
  | none =>
      obtain ⟨window, -, h⟩ := exists_ok_of_bind h
      obtain ⟨hwritten, hsame⟩ := sendReply_inv h
      exact ⟨hwritten, hsame, .inl rfl⟩

theorem waitedCase_passes [Zlib] {env : ReceiverEnv} {st : ReceiverState} {t : ReceiverTurn}
    (h : waitedCase env st = .ok t) : PassesWritten st t := by
  rcases waitedCase_inv h with ⟨hw, hq⟩ | ⟨payload, hw, hstop, hq⟩ |
    ⟨start, s, stop, hloop, -, hstart, ⟨payload, nb, hne, hfirst⟩, hw, hq, hstop⟩
  · exact passesWritten_nil hw hq
  · exact ⟨0, by rw [hw]; exact passed_zero rfl hstop, by rw [hq]; simp⟩
  obtain ⟨ws, n, hws, hpassed, hwaited⟩ := drainLoop_passed hloop
  -- the first write is passed, and what the loop writes comes behind it
  have hall : Passed s.written (1 + n) stop := by
    rw [hws, hfirst]
    exact (passed_one hne).append hpassed
  have hnumber : s.waitedSeqnum = st.waitedSeqnum + UInt8.ofNat (1 + n) := by
    rw [hwaited, hstart, add_ofNat_one_add]
  refine ⟨1 + n, ?_, hq.trans hnumber⟩
  rw [hw]
  rcases hstop with rfl | hstop
  · exact hall.of_none _
  · rwa [hstop]

theorem storeCase_waited {env : ReceiverEnv} {st st' : ReceiverState} {stop : Option ReceiverStop}
    (h : storeCase env st = .ok (st', stop)) : st'.waitedSeqnum = st.waitedSeqnum := by
  rw [storeCase] at h
  split at h
  case isFalse =>
    cases h
    rfl
  obtain ⟨r, -, h⟩ := exists_ok_of_bind h
  simp only at h
  split at h
  · cases h
    rfl
  · split at h
    · cases h
      rfl
    · cases h
      rfl

theorem unwaitedCase_passes [Zlib] {env : ReceiverEnv} {st : ReceiverState} {t : ReceiverTurn}
    (h : unwaitedCase env st = .ok t) : PassesWritten st t := by
  rw [unwaitedCase] at h
  obtain ⟨⟨st', stop⟩, hstore, h⟩ := exists_ok_of_bind h
  have hwaited := storeCase_waited hstore
  simp only at h
  split at h
  · cases h
    exact passesWritten_nil rfl hwaited
  · split at h
    · -- the last ACK again
      obtain ⟨hwritten, hsame⟩ := sendReply_inv h
      exact passesWritten_nil hwritten (hsame.trans hwaited)
    · cases h
      exact passesWritten_nil rfl hwaited

theorem packetCase_passes [Zlib] {env : ReceiverEnv} {st : ReceiverState} {t : ReceiverTurn}
    (h : packetCase env st = .ok t) : PassesWritten st t := by
  rw [packetCase] at h
  split at h
  · rw [dataCase] at h
    split at h
    · obtain ⟨hwritten, hsame⟩ := sendReply_inv h
      exact passesWritten_nil hwritten hsame
    · split at h
      · have hpassed := waitedCase_passes h
        exact hpassed
      · have hpassed := unwaitedCase_passes h
        exact hpassed
  · -- an ACK, a NACK or another type
    split at h
    · cases h
      exact passesWritten_nil rfl rfl
    · split at h
      · cases h
        exact passesWritten_nil rfl rfl
      · cases h
        exact passesWritten_nil rfl rfl

theorem readWriteLoopServer_passes [Zlib] {env : ReceiverEnv} {st : ReceiverState}
    {t : ReceiverTurn} (h : readWriteLoopServer env st = .ok t) : PassesWritten st t := by
  rw [readWriteLoopServer] at h
  split at h
  · cases h
    exact passesWritten_nil rfl rfl
  · cases h
    exact passesWritten_nil rfl rfl
  · simp only at h
    split at h
    · cases h
      exact passesWritten_nil rfl rfl
    obtain ⟨d, -, h⟩ := exists_ok_of_bind h
    split at h
    · have hpassed := packetCase_passes h
      exact hpassed
    · cases h
      exact passesWritten_nil rfl rfl

/-! ## Runs -/

/-- What a run has passed is counted by its expected number. -/
def ReceiverRun.PassesWritten (run : ReceiverRun) : Prop :=
  ∃ n, Passed run.written n run.stop ∧ run.state.waitedSeqnum = UInt8.ofNat n

theorem ReceiverRun.turn_passes [Zlib] {run run' : ReceiverRun} {env : ReceiverEnv}
    (h : run.PassesWritten) (hturn : run.turn env = .ok run') : run'.PassesWritten := by
  by_cases hgo : run.stop = none
  · obtain ⟨t, hrun, rfl⟩ := ReceiverRun.turn_inv hgo hturn
    obtain ⟨n, hpassed, hnumber⟩ := h
    obtain ⟨k, hpassed', hnumber'⟩ := readWriteLoopServer_passes hrun
    rw [hgo] at hpassed
    refine ⟨n + k, hpassed.append hpassed', ?_⟩
    rw [hnumber', hnumber, UInt8.ofNat_add]
  · rw [ReceiverRun.turn_of_stop hgo, Except.ok.injEq] at hturn
    rwa [← hturn]

theorem receiverRun_passes [Zlib] {mem : ReceiverMemory} {statFile : Bool}
    {envs : List ReceiverEnv} {run : ReceiverRun}
    (hrun : receiverRun mem statFile envs = .ok run) : run.PassesWritten := by
  refine FoldM.foldlM_preserves (p := ReceiverRun.PassesWritten) ?_ ⟨0, passed_nil _, rfl⟩ hrun
  exact fun _ _ _ hacc hturn => ReceiverRun.turn_passes hacc hturn

/-- From null slots, what is written is the stream of the packets accepted, in their order. -/
theorem receiverRun_stream [Zlib] {mem : ReceiverMemory} {statFile : Bool}
    (hnull : ∀ i, mem.window.window i = none) {envs : List ReceiverEnv} {run : ReceiverRun}
    (hrun : receiverRun mem statFile envs = .ok run) :
    run.written.map Prod.fst = (assembled (first run.accepted) run.written.length).map Prod.fst := by
  have hstart := receiverInit_tracks mem statFile hnull
  have hboth : (run.stop = none → run.Tracks) ∧
      run.written.map Prod.fst =
        (assembled (first run.accepted) run.written.length).map Prod.fst := by
    refine FoldM.foldlM_preserves (p := fun run : ReceiverRun => (run.stop = none → run.Tracks) ∧
      run.written.map Prod.fst =
        (assembled (first run.accepted) run.written.length).map Prod.fst)
      ?_ ⟨fun _ => hstart, hstart.written⟩ hrun
    rintro run env run' ⟨htracks, hwritten⟩ hturn
    refine ⟨ReceiverRun.turn_tracks htracks hturn, ?_⟩
    by_cases hgo : run.stop = none
    · exact ReceiverRun.turn_written (htracks hgo) hgo hturn
    · rw [ReceiverRun.turn_of_stop hgo, Except.ok.injEq] at hturn
      rwa [← hturn]
  exact hboth.2

/-- Only what the output accepted is acknowledged: after each write the bytes accepted are a
    prefix of the payloads in order, and when `k` is expected the first `k` payloads were
    accepted to the last byte. -/
structure ReceiverRun.AcknowledgesAccepted (run : ReceiverRun) : Prop where
  accepted : ∀ m, acceptedBytes (run.written.take m) <+: (run.written.map Prod.fst).flatten
  passed : ∀ k ≤ run.written.length, run.state.waitedSeqnum = UInt8.ofNat k →
    ∀ w ∈ run.written.take k, WrittenWhole w

/-- A number that is congruent to what was passed and not beyond what was written is no more
    than what was passed. -/
theorem Passed.le_of_number {ws : List (Bytes × Int)} {n k : Nat} {stop : Option ReceiverStop}
    (h : Passed ws n stop) (hk : k ≤ ws.length) (hnumber : UInt8.ofNat n = UInt8.ofNat k) : k ≤ n := by
  rcases h.all with rfl | ⟨w, hdrop, -, -⟩
  · exact hk
  · have hlen := congrArg List.length hdrop
    rw [List.length_drop, List.length_singleton] at hlen
    have hmod := congrArg UInt8.toNat hnumber
    rw [UInt8.toNat_ofNat', UInt8.toNat_ofNat'] at hmod
    omega

/-- In every run, whatever the memory held: what is written is the accepted stream in order, and
    only what the output accepted is acknowledged exactly when each write that was made took all
    it was given or returned 0. -/
theorem receiverRun_accepted_iff [Zlib] {mem : ReceiverMemory} {statFile : Bool}
    {envs : List ReceiverEnv} {run : ReceiverRun}
    (hrun : receiverRun mem statFile envs = .ok run) :
    ((∀ i, mem.window.window i = none) → run.written.map Prod.fst =
        (assembled (first run.accepted) run.written.length).map Prod.fst) ∧
      (run.AcknowledgesAccepted ↔ ∀ w ∈ run.written, WrittenWhole w ∨ w.2 = 0) := by
  refine ⟨fun hnull => receiverRun_stream hnull hrun, ?_⟩
  obtain ⟨n, hpassed, hnumber⟩ := receiverRun_passes hrun
  refine ⟨?_, ?_⟩
  · intro hack w hw
    rw [← List.take_append_drop n run.written, List.mem_append] at hw
    rcases hw with hw | hw
    · exact .inl (hack.passed n hpassed.le_length hnumber w hw)
    · exact .inr (hpassed.rest w hw)
  · intro hresults
    refine ⟨hpassed.accepted_prefix hresults, fun k hk hk' w hw => ?_⟩
    have hle := hpassed.le_of_number hk (hnumber.symm.trans hk')
    apply hpassed.whole hresults w
    rw [← Nat.min_eq_left hle, ← List.take_take] at hw
    exact List.mem_of_mem_take hw

/-- One packet, written whole. -/
theorem receiverRun_accepted_iff_whole : letI := zlib
    ∃ run, receiverRun nullMemory false [datagramEnv (bytePkt 0 0 7).wire] = .ok run ∧
      run.written = [([7], 1)] ∧ run.AcknowledgesAccepted := by
  have hturns : letI := zlib
      (receiverRun nullMemory false [datagramEnv (bytePkt 0 0 7).wire]).map
        ReceiverRun.written = .ok [([7], 1)] := by
    decide +kernel
  obtain ⟨run, hrun, hwritten⟩ := exists_ok_of_map hturns
  refine ⟨run, hrun, hwritten, (@receiverRun_accepted_iff zlib _ _ _ _ hrun).2.mpr ?_⟩
  rw [hwritten]
  exact fun w hw => .inl (by rw [List.mem_singleton.mp hw]; rfl)

/-- The output fails on every write. -/
def failingEnv (datagram : Bytes) : ReceiverEnv :=
  { datagramEnv datagram with write := fun _ _ => -1 }

/-- The first write returns -1, and the ACK says that the packet 1 is expected. -/
theorem receiverRun_not_accepted : ¬ ∀ [Zlib] (mem : ReceiverMemory) (statFile : Bool)
    (envs : List ReceiverEnv) (run : ReceiverRun), receiverRun mem statFile envs = .ok run →
    run.AcknowledgesAccepted := by
  intro hall
  have hturns : letI := zlib
      (receiverRun nullMemory false [failingEnv (bytePkt 0 0 7).wire]).map
        (fun run => (run.written, run.state.waitedSeqnum)) = .ok ([([7], -1)], 1) := by
    decide +kernel
  obtain ⟨run, hrun, hresult⟩ := exists_ok_of_map hturns
  rw [Prod.mk.injEq] at hresult
  have hack := @hall zlib nullMemory false _ run hrun
  have hfull := hack.passed 1 (by rw [hresult.1]; decide) hresult.2 ([7], -1)
    (by rw [hresult.1]; decide)
  exact absurd hfull (by rw [WrittenWhole]; decide)

end SelectiveRepeat
