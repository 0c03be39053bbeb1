/-
  SelectiveRepeat.Receiver.Bounds

  The accesses to the receiver's array.  `in_window` accepts the distances up to
  32, the array has cells for those below 31, and nothing else can leave it: in a
  run from null slots `peek` always finds a packet, `pop` and `reset` stay inside,
  and `add` leaves the array for a DATA packet at distance 31 or 32 only.
-/
import SelectiveRepeat.Receiver.Run

namespace SelectiveRepeat

/-- No access of the run is outside `list->window`. -/
def WindowInBounds [Zlib] (mem : ReceiverMemory) (statFile : Bool) (envs : List ReceiverEnv) :
    Prop :=
  ∀ i, receiverRun mem statFile envs ≠ .error (.window i)

/-- The turn receives an untruncated DATA packet at distance 31 or 32. -/
def ReceiverEnv.Overruns [Zlib] (env : ReceiverEnv) (st : ReceiverState) : Prop :=
  ∃ q, env.incoming st = some q ∧ q.tr = 0 ∧ 31 ≤ distance st.waitedSeqnum q.seqnum ∧
    distance st.waitedSeqnum q.seqnum ≤ 32

/-- A turn that receives no such packet comes to its end. -/
theorem ReceiverRun.exists_turn_of_inside [Zlib] {run : ReceiverRun} (h : run.Tracks)
    (hgo : run.stop = none) {env : ReceiverEnv} (hinside : ¬ env.Overruns run.state) :
    ∃ run', run.turn env = .ok run' := by
  cases hinc : env.incoming run.state with
  | none =>
      obtain ⟨t, hrun, -⟩ := readWriteLoopServer_of_none hinc
      exact ⟨_, ReceiverRun.turn_of_ok hgo hrun⟩
  | some q =>
      have hslot : q.tr = 1 ∨ distance run.state.waitedSeqnum q.seqnum < 31 ∨
          32 < distance run.state.waitedSeqnum q.seqnum := by
        rcases bitVec1_cases q.tr with htr | htr
        · by_contra hd
          exact hinside ⟨q, hinc, htr, by omega, by omega⟩
        · exact Or.inl htr
      obtain ⟨t, hrun, -⟩ := readWriteLoopServer_effect h.represents hinc hslot
      exact ⟨_, ReceiverRun.turn_of_ok hgo hrun⟩

/-- A turn leaves the array exactly when it receives such a packet. -/
theorem ReceiverRun.turn_window_iff [Zlib] {run : ReceiverRun} (h : run.Tracks)
    (hgo : run.stop = none) (env : ReceiverEnv) :
    (∃ i, run.turn env = .error (.window i)) ↔ env.Overruns run.state := by
  refine ⟨?_, ?_⟩
  · rintro ⟨i, hfault⟩
    by_contra hinside
    obtain ⟨run', hturn⟩ := ReceiverRun.exists_turn_of_inside h hgo hinside
    rw [hturn] at hfault
    exact absurd hfault (by simp)
  · rintro ⟨q, hinc, htr, hd, hd'⟩
    have hfault := readWriteLoopServer_overrun hinc (bitVec1_ne_one htr) hd hd'
    refine ⟨distance run.state.waitedSeqnum q.seqnum, ?_⟩
    simp only [ReceiverRun.turn, hgo, Option.isSome_none, Bool.false_eq_true, if_false, hfault,
      error_bind]

/-- The accesses of a run are in bounds exactly when none of its turns, up to the
    one it returns in, receives an untruncated DATA packet at distance 31 or 32. -/
theorem receiverRun_inBounds_iff [Zlib] {mem : ReceiverMemory} {statFile : Bool}
    (hnull : ∀ i, mem.window.window i = none) (envs : List ReceiverEnv) :
    WindowInBounds mem statFile envs ↔
      ∀ n env run, envs[n]? = some env → receiverRun mem statFile (envs.take n) = .ok run →
        run.stop = none → ¬ env.Overruns run.state := by
  refine ⟨?_, ?_⟩
  · intro hbounds n env run henv hrun hgo hover
    obtain ⟨i, hfault⟩ :=
      (ReceiverRun.turn_window_iff (receiverRun_tracks hnull hrun hgo) hgo env).mpr hover
    exact hbounds i (FoldM.foldlM_error_iff.mpr ⟨n, env, run, henv, hrun, hfault⟩)
  · intro hnever i hfault
    obtain ⟨n, env, run, henv, hrun, hturn⟩ := FoldM.foldlM_error_iff.mp hfault
    by_cases hgo : run.stop = none
    · exact hnever n env run henv hrun hgo
        ((ReceiverRun.turn_window_iff (receiverRun_tracks hnull hrun hgo) hgo env).mp ⟨i, hturn⟩)
    · rw [ReceiverRun.turn_of_stop hgo] at hturn
      exact absurd hturn (by simp)

/-- A run of one packet, at distance 30, stays in the array. -/
theorem receiverRun_inBounds_iff_last : letI := zlib
    WindowInBounds nullMemory false [datagramEnv (bytePkt 30 0 7).wire] := by
  let _ := zlib
  refine (receiverRun_inBounds_iff (fun _ => rfl) _).mpr fun n env run henv hrun _ => ?_
  rw [List.getElem?_singleton] at henv
  split at henv
  next hzero =>
    subst hzero
    cases henv
    cases hrun
    -- what is received is the packet 30, which is 30 ahead
    have hsized : (bytePkt 30 0 7).Sized := ⟨by decide, fun h => absurd rfl h⟩
    have hpoll : (datagramEnv (bytePkt 30 0 7).wire).poll =
        .ready (.bytes (bytePkt 30 0 7).wire) := rfl
    obtain ⟨q, hinc, hsame, -⟩ :=
      ReceiverEnv.incoming_wire (receiverInit nullMemory false) hpoll hsized rfl
    rintro ⟨q', hinc', -, hfar, -⟩
    have hq : q = q' := Option.some.inj (hinc.symm.trans hinc')
    rw [← hq, hsame.seqnum] at hfar
    exact absurd hfar (by decide)
  next => cases henv

/-- The packet 31 is the first one to arrive: `in_window` accepts it, and `add`
    accesses `window[31]`. -/
theorem receiverRun_not_inBounds : ¬ ∀ [Zlib] (mem : ReceiverMemory) (statFile : Bool)
    (envs : List ReceiverEnv), (∀ i, mem.window.window i = none) →
    WindowInBounds mem statFile envs := by
  intro hall
  let _ := zlib
  apply hall nullMemory false [datagramEnv (bytePkt 31 0 7).wire] (fun _ => rfl) 31
  have hsized : (bytePkt 31 0 7).Sized := ⟨by decide, fun h => absurd rfl h⟩
  have hpoll : (datagramEnv (bytePkt 31 0 7).wire).poll = .ready (.bytes (bytePkt 31 0 7).wire) := rfl
  obtain ⟨q, hinc, hsame, htr, -⟩ :=
    ReceiverEnv.incoming_wire (receiverInit nullMemory false) hpoll hsized rfl
  have hne : q.tr ≠ 1 := bitVec1_ne_one htr
  have hd : distance (receiverInit nullMemory false).waitedSeqnum q.seqnum = 31 := by
    rw [hsame.seqnum]
    rfl
  have hfault := readWriteLoopServer_overrun hinc hne (by omega) (by omega)
  rw [hd] at hfault
  rw [receiverRun, receiverTurns, FoldM.foldlM_cons_error]
  simp only [ReceiverRun.turn, Option.isSome_none, Bool.false_eq_true, if_false, hfault, error_bind]

end SelectiveRepeat
