/-
  SelectiveRepeat.Sender.Input

  What the sender sends against what it read.  `build_pkt` hands the result of `read`
  to two setters; they refuse the -1 of a read that failed, so that the length and
  the payload are what `pkt_new` found in memory.  Only if that length is over
  512 does `pkt_encode` refuse the packet.  In a run where it always does, a
  packet is made of what was read and of nothing else.
-/
import SelectiveRepeat.Sender.History
import SelectiveRepeat.Sender.Run

namespace SelectiveRepeat

/-! ## New packets -/

/-- What a new packet is made of: the arguments of `build_pkt`. -/
structure NewPkt where
  window : BitVec 5
  seqnum : UInt8
  payload : Bytes
  timestamp : UInt32

/-- `pkt` is made of `m`, in whatever block. -/
def NewPkt.Makes (m : NewPkt) (pkt : Pkt) : Prop :=
  pkt.Built m.window m.seqnum m.payload m.timestamp

/-- The same packet at another time. -/
def NewPkt.restamp (m : NewPkt) (ts : UInt32) : NewPkt := { m with timestamp := ts }

/-- The packet made of `m`, in a block that is all zero. -/
def NewPkt.pkt (m : NewPkt) : Pkt where
  type := ptypeData
  tr := 0
  window := m.window
  length := UInt16.ofNat m.payload.length
  seqnum := m.seqnum
  timestamp := m.timestamp
  crc1 := 0
  payload := Mem.blit (fun _ => 0) 0 m.payload
  crc2 := 0

theorem NewPkt.Makes.length_eq {m : NewPkt} {pkt : Pkt} (h : m.Makes pkt) :
    pkt.length = m.pkt.length := by
  rw [NewPkt.pkt, ← h.length, UInt16.ofNat_toNat]

theorem NewPkt.Makes.data_eq {m : NewPkt} {pkt : Pkt} (h : m.Makes pkt) :
    m.pkt.data = m.payload := by
  rw [Pkt.data, ← h.length_eq, h.length]
  exact Mem.slice_blit _ 0 m.payload

/-- The datagram of a packet has nothing from its block. -/
theorem NewPkt.Makes.wire_eq [Zlib] {m : NewPkt} {pkt : Pkt} (h : m.Makes pkt) :
    pkt.wire = m.pkt.wire := by
  have hdata : pkt.data = m.pkt.data := h.data.trans h.data_eq.symm
  have hheader (tr : BitVec 1) : pkt.headerBytes tr = m.pkt.headerBytes tr := by
    simp only [Pkt.headerBytes, h.length_eq, h.type, h.window, h.seqnum, h.timestamp]
    rfl
  rw [Pkt.wire, Pkt.wire, hheader, hheader, hdata, h.length_eq, h.tr]
  rfl

theorem NewPkt.Makes.restamp {m : NewPkt} {pkt : Pkt} (h : m.Makes pkt) (ts : UInt32) :
    (m.restamp ts).Makes (pkt.restamp ts) :=
  ⟨h.type, h.tr, h.window, h.seqnum, rfl, h.length, h.data⟩

/-- The packet a turn builds of what it reads: it advertises the room left in the window,
    and carries the next number and the time. -/
def SenderEnv.made (env : SenderEnv) (st : SenderState) : List NewPkt :=
  (env.chunkRead st).map fun chunk =>
    { window := BitVec.ofNat 5 (st.sendingWindowSize - st.pktInWindow).toNat
      seqnum := st.seqnum
      payload := chunk
      timestamp := env.now .build st }

/-- The packets the turns build. -/
def madeOf (steps : List SenderStep) : List NewPkt :=
  steps.flatMap fun step => step.env.made step.before

/-- The empty packet a turn sends when it closes the connection: it advertises the window
    size, and carries the next number and the time. -/
def SenderStep.closing (step : SenderStep) : NewPkt where
  window := BitVec.ofNat 5 step.turn.state.sendingWindowSize.toNat
  seqnum := step.turn.state.seqnum
  payload := []
  timestamp := step.env.now .close step.before

theorem SenderEnv.chunkRead_eq (env : SenderEnv) (st : SenderState) :
    env.chunkRead st =
      ((env.inputRead st).toList.map ReadResult.payload).filter (· ≠ []) := by
  rw [SenderEnv.chunkRead, SenderEnv.inputRead]
  split
  · rfl
  · by_cases hlt : st.pktInWindow < st.sendingWindowSize
    · rw [if_pos hlt]
      cases env.input with
      | none => rfl
      | some r =>
          cases r with
          | error => rfl
          | bytes data =>
              by_cases hne : data.take MAX_PAYLOAD_SIZE = [] <;>
                simp [ReadResult.payload, hlt, hne]
    · rw [if_neg hlt]
      cases env.input with
      | none => rfl
      | some r => cases r <;> simp [hlt]

/-- One packet for each read that found something, with just that. -/
theorem madeOf_payload (steps : List SenderStep) :
    (madeOf steps).map NewPkt.payload =
      ((readsOf steps).map ReadResult.payload).filter (· ≠ []) := by
  induction steps with
  | nil => rfl
  | cons step steps ih =>
      have hstep : (step.env.made step.before).map NewPkt.payload =
          step.env.chunkRead step.before := by
        rw [SenderEnv.made, List.map_map]
        exact List.map_id _
      have hreads : readsOf (step :: steps) =
          (step.env.inputRead step.before).toList ++ readsOf steps := by
        rw [readsOf, List.filterMap_cons]
        cases step.env.inputRead step.before <;> rfl
      rw [hreads, List.map_append, List.filter_append, ← ih, ← step.env.chunkRead_eq, ← hstep,
        ← List.map_append]
      rfl

/-! ## A read that fails -/

theorem SenderEnv.inputRead_some {env : SenderEnv} {st : SenderState} {r : ReadResult}
    (h : env.inputRead st = some r) :
    env.pollFails = false ∧ env.input = some r ∧ st.pktInWindow < st.sendingWindowSize := by
  rw [SenderEnv.inputRead] at h
  split at h
  · cases h
  next hpoll =>
    split at h
    next hlt => exact ⟨Bool.not_eq_true _ ▸ hpoll, h, hlt⟩
    next => cases h

/-- 65535 is refused twice, and the length stays what it was. -/
theorem buildPkt_failed (pkt : Pkt) (windowSize seqnum : UInt8) (payload : Bytes)
    (timestamp : UInt32) :
    (buildPkt pkt windowSize seqnum (-1) payload timestamp).type = ptypeData ∧
      (buildPkt pkt windowSize seqnum (-1) payload timestamp).tr = 0 ∧
      (buildPkt pkt windowSize seqnum (-1) payload timestamp).length = pkt.length := by
  have hmax : ¬ (UInt16.ofInt (-1)).toNat ≤ 512 := by decide
  have hlength (pkt : Pkt) : (pktSetLength pkt (UInt16.ofInt (-1))).2 = pkt := by
    rw [pktSetLength, if_pos (Nat.lt_of_not_le hmax)]
  have hpayload (pkt : Pkt) : (pktSetPayload pkt payload (UInt16.ofInt (-1))).2 = pkt := by
    rw [pktSetPayload, if_pos (Nat.lt_of_not_le hmax)]
  simp only [buildPkt, hlength, hpayload, pktSetTimestamp, pktSetSeqnum, pktSetTr_zero,
    pktSetWindow_type, pktSetWindow_tr, pktSetWindow_length]
  exact ⟨rfl, trivial, rfl⟩

/-- So the loop returns, or sends what was in memory. -/
theorem inputBranch_failed [Zlib] {env : SenderEnv} {st : SenderState}
    (hread : env.inputRead st = some .error) :
    (512 < (env.fresh .input).length.toNat →
        inputBranch env st = .ok { state := { st with nb := -1 }, stop := some .encode }) ∧
      ((env.fresh .input).length.toNat ≤ 512 → ∀ t, inputBranch env st = .ok t → t.sent ≠ []) := by
  obtain ⟨-, hinput, hlt⟩ := env.inputRead_some hread
  obtain ⟨htype, htr, hlength⟩ := buildPkt_failed (env.fresh .input)
    (st.sendingWindowSize - st.pktInWindow) st.seqnum [] (env.now .build st)
  obtain ⟨hlong, hshort⟩ := pktEncode_failed htype htr st.pktBuffer
  rw [hlength] at hlong hshort
  have hnb : (-1 : Int) ≠ 0 := by decide
  have hnow : env.now .build { st with nb := -1 } = env.now .build st := rfl
  refine ⟨?_, ?_⟩
  · intro hover
    simp only [inputBranch, hinput, if_pos hlt, ReadResult.nb, ReadResult.payload, if_pos hnb, hnow,
      hlong hover, ok_bind]
    rfl
  · intro hle t hrun
    obtain ⟨buf, size, henc⟩ := hshort hle
    simp only [inputBranch, hinput, if_pos hlt, ReadResult.nb, ReadResult.payload, if_pos hnb, hnow,
      henc, ok_bind, ne_eq, not_true_eq_false, if_false, Queue.add, Int.lt_irrefl] at hrun
    split at hrun <;>
      · cases hrun
        exact List.cons_ne_nil _ _

/-- If the read fails, the length in the block of the new packet is over 512. -/
def SenderEnv.ReadsSafely (env : SenderEnv) (st : SenderState) : Prop :=
  env.inputRead st = some .error → 512 < (env.fresh .input).length.toNat

/-- The turn sends nothing and leaves the window, the count and the number alone. -/
def SenderEnv.LeavesWindow [Zlib] (env : SenderEnv) (st : SenderState) : Prop :=
  ∃ t, readWriteLoopSender env st = .ok t ∧ t.sent = [] ∧ t.state.window = st.window ∧
    t.state.pktInWindow = st.pktInWindow ∧ t.state.seqnum = st.seqnum

theorem SenderTurn.andThen_sent {t t' : SenderTurn} {next : SenderState → Exec SenderTurn}
    (h : t.andThen next = .ok t') : t.sent <+: t'.sent := by
  cases hstop : t.stop with
  | some reason =>
      rw [SenderTurn.andThen_of_stop (by simp [hstop])] at h
      cases h
      exact List.prefix_refl _
  | none =>
      simp only [SenderTurn.andThen, hstop] at h
      obtain ⟨u, -, h⟩ := exists_ok_of_bind h
      cases h
      exact List.prefix_append _ _

/-- A turn sends what its input block sends, and then the rest. -/
theorem inputBranch_sent [Zlib] {env : SenderEnv} {st : SenderState} {t : SenderTurn}
    (hpoll : env.pollFails = false) (hrun : readWriteLoopSender env st = .ok t) :
    ∃ t₁, inputBranch env st = .ok t₁ ∧ t₁.sent <+: t.sent := by
  simp only [readWriteLoopSender, hpoll, Bool.false_eq_true, if_false] at hrun
  obtain ⟨t₁, h₁, hrun⟩ := exists_ok_of_bind hrun
  obtain ⟨t₂, h₂, hrun⟩ := exists_ok_of_bind hrun
  obtain ⟨t₃, h₃, h₄⟩ := exists_ok_of_bind hrun
  exact ⟨t₁, h₁, (t₁.andThen_sent h₂).trans ((t₂.andThen_sent h₃).trans (t₃.andThen_sent h₄))⟩

/-- The turn of a read that fails. -/
theorem readWriteLoopSender_failed [Zlib] {env : SenderEnv} {st : SenderState}
    (hread : env.inputRead st = some .error) (hlong : 512 < (env.fresh .input).length.toNat) :
    readWriteLoopSender env st = .ok { state := { st with nb := -1 }, stop := some .encode } := by
  obtain ⟨hpoll, -, -⟩ := env.inputRead_some hread
  have hrun := (inputBranch_failed hread).1 hlong
  have hstop : some SenderStop.encode ≠ none := by simp
  simp only [readWriteLoopSender, hpoll, Bool.false_eq_true, if_false, hrun, ok_bind]
  rw [SenderTurn.andThen_of_stop hstop, ok_bind, SenderTurn.andThen_of_stop hstop, ok_bind,
    SenderTurn.andThen_of_stop hstop]

theorem leavesWindow_iff [Zlib] {env : SenderEnv} {st : SenderState}
    (hread : env.inputRead st = some .error) :
    env.LeavesWindow st ↔ 512 < (env.fresh .input).length.toNat := by
  refine ⟨?_, ?_⟩
  · rintro ⟨t, hrun, hsent, -⟩
    by_contra hle
    obtain ⟨hpoll, -, -⟩ := env.inputRead_some hread
    obtain ⟨t₁, h₁, hprefix⟩ := inputBranch_sent hpoll hrun
    rw [hsent, List.prefix_nil] at hprefix
    exact (inputBranch_failed hread).2 (Nat.le_of_not_lt hle) t₁ h₁ hprefix
  · intro hlong
    exact ⟨_, readWriteLoopSender_failed hread hlong, rfl, rfl, rfl, rfl⟩

/-! ## Runs -/

/-- `d` is the packet `k` of the log `w`, sent at a time that the turn `step` reads from its
    clock. -/
def SenderStep.Copies [Zlib] (step : SenderStep) (w : SendLog) (d : Bytes) : Prop :=
  ∃ (k : Nat) (pkt : Pkt) (site : ClockSite), w.log[k]? = some pkt ∧
    d = (pkt.restamp (step.env.now site step.before)).wire

/-- `d` is the empty packet of the turn `step`, which closes the connection. -/
def SenderStep.Closes [Zlib] (step : SenderStep) (d : Bytes) : Prop :=
  step.turn.stop = some .closed ∧ d = step.closing.pkt.wire

/-- The log `w` explains the turns: its packets are the ones they built, each was sent
    when it was new, and everything sent is a copy of one of them or the empty packet. -/
structure SendLog.Explains [Zlib] (w : SendLog) (steps : List SenderStep) : Prop where
  made : List.Forall₂ NewPkt.Makes (madeOf steps) w.log
  news : newsOf steps = w.log.map Pkt.wire
  sent : ∀ step ∈ steps, ∀ d ∈ step.turn.sent, step.Copies w d ∨ step.Closes d

theorem SendLog.empty_explains [Zlib] : SendLog.empty.Explains [] :=
  ⟨List.Forall₂.nil, rfl, fun _ hstep => absurd hstep List.not_mem_nil⟩

/-- What a turn builds is made of what it read. -/
theorem SenderEnv.Makes.made [Zlib] {env : SenderEnv} {st : SenderState} {built : List Pkt}
    (h : env.Makes st built) (hread : built.map Pkt.data = env.chunkRead st) :
    List.Forall₂ NewPkt.Makes (env.made st) built := by
  rw [SenderEnv.made, ← hread, List.map_map, List.forall₂_map_left_iff, List.forall₂_same]
  exact h.fields

section
variable [Zlib]

/-- A copy stays a copy when the log grows. -/
theorem SenderStep.Copies.mono {step : SenderStep} {w w' : SendLog} {d : Bytes}
    (h : step.Copies w d) {built : List Pkt} (hlog : w'.log = w.log ++ built) :
    step.Copies w' d := by
  obtain ⟨k, pkt, site, hpkt, hd⟩ := h
  obtain ⟨hk, -⟩ := List.getElem?_eq_some_iff.mp hpkt
  exact ⟨k, pkt, site, by rw [hlog, List.getElem?_append_left hk, hpkt], hd⟩

/-- What a turn sends. -/
theorem SendLog.Turn.explains {w w' : SendLog} {env : SenderEnv} {st : SenderState}
    {t : SenderTurn} {built : List Pkt} {reply : Option Pkt}
    (h : w.Turn env st t w' built reply) {d : Bytes} (hd : d ∈ t.sent) :
    let step : SenderStep := { env := env, before := st, turn := t }
    step.Copies (w'.receive reply) d ∨ step.Closes d := by
  intro step
  obtain ⟨copies, closing, heq, hcopies, hclosing⟩ := h.sent
  rw [heq] at hd
  rcases List.mem_append.mp hd with hd | hd
  · obtain ⟨k, pkt, site, -, hpkt, hd⟩ := hcopies d hd
    refine Or.inl ⟨k, pkt, site, ?_, hd⟩
    rwa [SendLog.receive_log]
  · obtain ⟨-, hclosed, pkt, hbuilt, rfl⟩ := hclosing d hd
    have hmakes : step.closing.Makes pkt := hbuilt
    exact Or.inr ⟨hclosed, hmakes.wire_eq⟩

/-- The step lemma: one more turn, in which a read of the input may fail. -/
theorem SendLog.Explains.turn {w : SendLog} {steps : List SenderStep} (h : w.Explains steps)
    {env : SenderEnv} {st : SenderState} (hr : Refines st w) (hsafe : env.ReadsSafely st)
    {t : SenderTurn} (hturn : readWriteLoopSender env st = .ok t) :
    ∃ w' : SendLog, w'.Explains (steps ++ [{ env := env, before := st, turn := t }]) ∧
      (t.stop = none → Refines t.state w') := by
  have hmade : madeOf (steps ++ [{ env := env, before := st, turn := t }]) =
      madeOf steps ++ env.made st := by
    rw [madeOf, List.flatMap_append, List.flatMap_singleton]
    rfl
  have hnews : newsOf (steps ++ [{ env := env, before := st, turn := t }]) =
      newsOf steps ++ env.newSent st := by
    rw [newsOf, List.flatMap_append, List.flatMap_singleton]
    rfl
  by_cases hread : env.inputRead st = some .error
  · -- the loop returns, with nothing built and nothing sent
    have hfailed := readWriteLoopSender_failed hread (hsafe hread)
    rw [hturn, Except.ok.injEq] at hfailed
    subst hfailed
    obtain ⟨hpoll, -, -⟩ := env.inputRead_some hread
    have hnone : env.made st = [] := by
      rw [SenderEnv.made, env.chunkRead_eq, hread]
      rfl
    have hquiet : env.newSent st = [] := by
      simp only [SenderEnv.newSent, hpoll, Bool.false_eq_true, if_false,
        (inputBranch_failed hread).1 (hsafe hread)]
    refine ⟨w, ⟨?_, ?_, ?_⟩, fun hgo => absurd hgo (by simp)⟩
    · rw [hmade, hnone, List.append_nil]
      exact h.made
    · rw [hnews, hquiet, List.append_nil]
      exact h.news
    · rw [List.forall_mem_append, List.forall_mem_singleton]
      exact ⟨h.sent, fun d hd => absurd hd List.not_mem_nil⟩
  · obtain ⟨t', w', built, reply, hturn', hstep, hmakes⟩ := readWriteLoopSender_spec hr hread
    rw [hturn, Except.ok.injEq] at hturn'
    subst hturn'
    have hlog : (w'.receive reply).log = w.log ++ built := by
      rw [SendLog.receive_log, hstep.log]
    refine ⟨w'.receive reply, ⟨?_, ?_, ?_⟩, hstep.refines⟩
    · rw [hmade, hlog]
      exact List.rel_append h.made (hmakes.made hstep.read)
    · rw [hnews, hlog, List.map_append, h.news, hmakes.sent]
    · rw [List.forall_mem_append, List.forall_mem_singleton]
      exact ⟨fun step hmem d hd => (h.sent step hmem d hd).imp_left fun hk => hk.mono hlog,
        fun d hd => hstep.explains hd⟩

/-- The run lemma. -/
theorem SenderHistory.explained {st : SenderState} {stop : Option SenderStop}
    {steps : List SenderStep}
    (h : SenderHistory (fun _ env st => env.ReadsSafely st) st stop steps) :
    ∃ w : SendLog, w.Explains steps ∧ (stop = none → Refines st w) := by
  induction h with
  | init buf mem statsFile start =>
      exact ⟨_, SendLog.empty_explains, fun _ => senderInit_refines buf mem statsFile start⟩
  | turn _ hsafe hturn ih =>
      obtain ⟨w, hw, href⟩ := ih
      exact hw.turn (href rfl) hsafe hturn

/-- What the turns send is what they read: a new packet for each read that found
    something, with the bytes it found; and every datagram of a turn is that of one of these
    packets, with a time that the turn reads from its clock, or the empty packet it closes
    the connection with. -/
structure SentAsRead (steps : List SenderStep) : Prop where
  news : newsOf steps = (madeOf steps).map fun m => m.pkt.wire
  data : ∀ m ∈ madeOf steps, m.pkt.data = m.payload
  chunks : (madeOf steps).map NewPkt.payload =
    ((readsOf steps).map ReadResult.payload).filter (· ≠ [])
  bytes : ((madeOf steps).map NewPkt.payload).flatten =
    ((readsOf steps).map ReadResult.payload).flatten
  sent : ∀ step ∈ steps, ∀ d ∈ step.turn.sent,
    (∃ m ∈ madeOf steps, ∃ site,
      d = (m.restamp (step.env.now site step.before)).pkt.wire) ∨ step.Closes d

theorem SendLog.Explains.sentAsRead {w : SendLog} {steps : List SenderStep}
    (h : w.Explains steps) : SentAsRead steps where
  news := by
    have hwires : List.Forall₂ Eq ((madeOf steps).map fun m => m.pkt.wire) (w.log.map Pkt.wire) :=
      List.rel_map (fun _ _ hm => hm.wire_eq.symm) h.made
    rw [List.forall₂_eq_eq_eq] at hwires
    rw [hwires, h.news]
  data := ((List.forall₂_and_left _ _).mp (h.made.imp fun _ _ hm => ⟨hm.data_eq, hm⟩)).1
  chunks := madeOf_payload steps
  bytes := by rw [madeOf_payload, List.flatten_filter_ne_nil]
  sent := by
    intro step hstep d hd
    refine (h.sent step hstep d hd).imp_left ?_
    rintro ⟨k, pkt, site, hpkt, rfl⟩
    -- the packet of the log is made of the one built in its place
    obtain ⟨hk, rfl⟩ := List.getElem?_eq_some_iff.mp hpkt
    have hk' : k < (madeOf steps).length := by rwa [h.made.length_eq]
    have hm : (madeOf steps)[k].Makes w.log[k] := h.made.get hk' hk
    exact ⟨_, List.getElem_mem hk', site, (hm.restamp _).wire_eq⟩

/-- In every run in which a failed read finds a length over 512 in its block, whatever else
    happens: what is sent is what was read, no turn is undefined, and from each state the
    loop comes to a failing read leaves the window as it is if and only if that holds. -/
theorem senderHistory_transmits {st : SenderState} {stop : Option SenderStop}
    {steps : List SenderStep}
    (h : SenderHistory (fun _ env st => env.ReadsSafely st) st stop steps) :
    SentAsRead steps ∧ (stop = none → ∀ env : SenderEnv,
      (env.ReadsSafely st → ∃ t, readWriteLoopSender env st = .ok t) ∧
      (env.inputRead st = some .error →
        (env.LeavesWindow st ↔ 512 < (env.fresh .input).length.toNat))) := by
  obtain ⟨w, hw, href⟩ := h.explained
  refine ⟨hw.sentAsRead, fun hgo env => ⟨fun hsafe => ?_, leavesWindow_iff⟩⟩
  by_cases hread : env.inputRead st = some .error
  · exact ⟨_, readWriteLoopSender_failed hread (hsafe hread)⟩
  · obtain ⟨t, _, _, _, hturn, -⟩ := readWriteLoopSender_spec (href hgo) hread
    exact ⟨t, hturn⟩

end

/-- A turn in which the read of the input fails, with `length` in the block of the packet. -/
def failedReadEnv (length : UInt16) : SenderEnv :=
  { quietEnv 0 with
    input := some .error
    fresh := fun _ => { bytePkt 0 0 7 with length := length } }

theorem failedReadEnv_inputRead (length : UInt16) :
    (failedReadEnv length).inputRead (senderInit (fun _ => 0) default false 0) = some .error := by
  simp [SenderEnv.inputRead, failedReadEnv, quietEnv, senderInit]

/-- A chunk is sent; where the first read fails instead, the loop returns. -/
theorem senderHistory_transmits_chunk : letI := zlib
    let st := senderInit (fun _ => 0) default false 0
    (∃ t, readWriteLoopSender (inputEnv [1, 2, 3]) st = .ok t ∧
      SentAsRead [{ env := inputEnv [1, 2, 3], before := st, turn := t }]) ∧
      (failedReadEnv 600).LeavesWindow st := by
  let _ := zlib
  intro st
  have hinit : SenderHistory (fun _ env st => env.ReadsSafely st) st none [] := .init _ _ _ _
  have hsafe : (inputEnv [1, 2, 3]).ReadsSafely st := by
    intro hread
    exact absurd hread (by simp [SenderEnv.inputRead, inputEnv, quietEnv, st, senderInit])
  obtain ⟨-, hturns⟩ := senderHistory_transmits hinit
  obtain ⟨t, hturn⟩ := (hturns rfl (inputEnv [1, 2, 3])).1 hsafe
  refine ⟨⟨t, hturn, (senderHistory_transmits (.turn hinit hsafe hturn)).1⟩, ?_⟩
  exact ((hturns rfl (failedReadEnv 600)).2 (failedReadEnv_inputRead 600)).mpr (by decide)

/-- With a length of 1 in the block, the byte in memory is sent. -/
theorem senderHistory_not_transmits : ¬ ∀ [Zlib] (st : SenderState) (stop : Option SenderStop)
    (steps : List SenderStep), SenderHistory (fun _ _ _ => True) st stop steps →
    SentAsRead steps ∧ (stop = none → ∀ env : SenderEnv, env.inputRead st = some .error →
      env.LeavesWindow st) := by
  intro hall
  let _ := zlib
  have hinit : SenderHistory (fun _ _ _ => True) (senderInit (fun _ => 0) default false 0)
    none [] := .init _ _ _ _
  have hleaves := (hall _ _ _ hinit).2 rfl _ (failedReadEnv_inputRead 1)
  exact absurd ((leavesWindow_iff (failedReadEnv_inputRead 1)).mp hleaves) (by decide)

end SelectiveRepeat
