/-
  SelectiveRepeat.System.Rtt

  The round-trip times of the sender's statistics.  A useful ACK sends back the time a
  DATA packet was stamped with, of whatever packet that was and however often it was
  sent.  So while the clock does not go back, a time that is measured is the time between
  two readings of it.
-/
import SelectiveRepeat.Sender.Clock
import SelectiveRepeat.Sender.Counters
import SelectiveRepeat.System.Echo
import SelectiveRepeat.System.Safety
import Mathlib.Data.Set.Image

namespace SelectiveRepeat

/-! ## Runs with a clock -/

/-- The runs in which the sender's clock, which shows `start` at first, never goes back, with
    the times it has shown, in milliseconds, and the turns of the sender. -/
inductive ClockedRun [Zlib] (start : Int) : World → Set Int → List SenderStep → Prop where
  | start (buf : Mem) (logger : Logger) (statsFile : Bool) (mem : ReceiverMemory) (statFile : Bool)
      (hnull : ∀ i, mem.window.window i = none) :
      ClockedRun start (World.start buf logger statsFile start mem statFile) {start} []
  | other {w w' : World} {shown : Set Int} {steps : List SenderStep} {e : Event}
      (hrun : ClockedRun start w shown steps) (hother : ∀ env r, e ≠ .sender env r)
      (hstep : Step w e w') : ClockedRun start w' shown steps
  | sender {w w' : World} {shown : Set Int} {steps : List SenderStep} {env : SenderEnv}
      {r : Option Datagram} {t : SenderTurn} (hrun : ClockedRun start w shown steps)
      (hclock : ∀ x ∈ shown, ∀ site, x ≤ env.milliseconds site)
      (hstep : Step w (.sender env r) w') (hturn : readWriteLoopSender env w.sender = .ok t) :
      ClockedRun start w' (shown ∪ Set.range env.milliseconds)
        (steps ++ [{ env := env, before := w.sender, turn := t }])

/-- A timestamp of one of these times. -/
def Shown (start : Int) (shown : Set Int) (timestamp : UInt32) : Prop :=
  ∃ x ∈ shown, timestamp = currentTimestamp x start

/-- The time between two readings of the clock. -/
def Between (shown : Set Int) (rtt : Int) : Prop :=
  ∃ sent ∈ shown, ∃ heard ∈ shown, sent ≤ heard ∧ rtt = heard - sent

/-- What the statistics say of the times `rtts` that were measured: the least and the greatest
    of them, and what `new_logger` has set if there are none. -/
structure Logger.Measured (l : Logger) (rtts : List Int) : Prop where
  nothing : rtts = [] → l.min_rtt = 2147483647 ∧ l.max_rtt = 0
  least : rtts ≠ [] → l.min_rtt ∈ rtts ∧ ∀ rtt ∈ rtts, l.min_rtt ≤ rtt
  greatest : rtts ≠ [] → l.max_rtt ∈ rtts ∧ ∀ rtt ∈ rtts, rtt ≤ l.max_rtt

section
variable {start : Int} {shown shown' : Set Int}

theorem Shown.mono {ts : UInt32} (h : Shown start shown ts) (hsub : shown ⊆ shown') :
    Shown start shown' ts := by
  obtain ⟨x, hx, hts⟩ := h
  exact ⟨x, hsub hx, hts⟩

theorem Between.mono {rtt : Int} (h : Between shown rtt) (hsub : shown ⊆ shown') :
    Between shown' rtt := by
  obtain ⟨sent, hsent, heard, hheard, hle⟩ := h
  exact ⟨sent, hsub hsent, heard, hsub hheard, hle⟩

/-- The folds of the statistics, for times that an `int` holds and none of which is negative. -/
theorem SenderConserved.measured [Zlib] {steps : List SenderStep} {l : Logger}
    (h : SenderConserved steps l) (hint : ∀ rtt ∈ rttsOf steps, 0 ≤ rtt ∧ rtt ≤ 2147483647) :
    l.Measured (rttsOf steps) := by
  refine ⟨fun hnil => ?_, fun hne => ?_, fun hne => ?_⟩
  · rw [h.min_rtt, h.max_rtt, hnil]
    exact ⟨rfl, rfl⟩
  · obtain ⟨x, hx⟩ := Option.isSome_iff_exists.mp (List.isSome_min?_of_ne_nil hne)
    have hmin : l.min_rtt = x := by
      rw [h.min_rtt, List.foldl_min, hx, Option.getD_some]
      exact Int.min_eq_right (hint x (List.min?_eq_some_iff.mp hx).1).2
    rw [hmin]
    exact List.min?_eq_some_iff.mp hx
  · obtain ⟨x, hx⟩ := Option.isSome_iff_exists.mp (List.isSome_max?_of_ne_nil hne)
    have hmax : l.max_rtt = x := by
      rw [h.max_rtt, List.foldl_max, hx, Option.getD_some]
      exact Int.max_eq_right (hint x (List.max?_eq_some_iff.mp hx).1).1
    rw [hmax]
    exact List.max?_eq_some_iff.mp hx

/-- What the sender computes of two readings of less than 2^31 ms between them. -/
theorem currentTimestamp_rtt {sent heard : Int} (hle : sent ≤ heard)
    (hlt : heard - sent < 2 ^ 31) :
    (currentTimestamp heard start - currentTimestamp sent start).toInt32.toInt = heard - sent := by
  have hsub := @currentTimestamp_sub start sent heard hle (by omega)
  generalize currentTimestamp heard start - currentTimestamp sent start = rtt at hsub
  have hint : rtt.toInt32.toInt = (rtt.toNat : Int) := by
    rw [Int32.toInt, UInt32.toBitVec_toInt32, BitVec.toInt_eq_toNat_of_lt]
    · rfl
    · rw [UInt32.toNat_toBitVec]
      omega
  rw [hint, hsub]

end

/-! ## A useful ACK -/

section
variable [Zlib] {start : Int} {p : UInt32 → Prop} {w w' : World} {shown : Set Int}

omit [Zlib] in
theorem SenderEnv.judges_useful {env : SenderEnv} {st : SenderState} {q : Pkt} {rtt : Int}
    (h : env.judges st q = .useful rtt) :
    q.tr ≠ 1 ∧ rtt = (env.now .rtt st - q.timestamp).toInt32.toInt := by
  rw [SenderEnv.judges] at h
  split at h
  case isTrue => cases h
  next htr =>
    split at h
    case isTrue => cases h
    split at h
    case isFalse =>
      split at h
      · split at h <;> cases h
      · cases h
    split at h
    case isFalse => cases h
    cases h
    exact ⟨htr, rfl⟩

/-- The ACK behind a time that is measured. -/
theorem SenderStep.verdict_useful {step : SenderStep} {rtt : Int}
    (h : step.verdict = some (.useful rtt)) :
    ∃ t₁ r q, step.env.pollFails = false ∧ inputBranch step.env step.before = .ok t₁ ∧
      t₁.stop = none ∧ step.env.socket = some r ∧
      pktDecode (r.fill 12 t₁.state.pktBuffer) 12 (step.env.fresh .socket) = .ok (.pktOk, q) ∧
      q.tr ≠ 1 ∧ rtt = (step.env.now .rtt t₁.state - q.timestamp).toInt32.toInt := by
  cases hpoll : step.env.pollFails with
  | true => exact absurd h (by simp [SenderStep.verdict, hpoll])
  | false =>
      simp only [SenderStep.verdict, hpoll, Bool.false_eq_true, if_false] at h
      cases hinput : inputBranch step.env step.before with
      | error e =>
          rw [hinput] at h
          cases h
      | ok t₁ =>
          simp only [hinput] at h
          split at h
          case isFalse => cases h
          next hgo =>
            cases hsocket : step.env.socket with
            | none => exact absurd h (by simp [SenderEnv.verdict, hsocket])
            | some r =>
                cases hdec : pktDecode (r.fill 12 t₁.state.pktBuffer) 12
                    (step.env.fresh .socket) with
                | error e => exact absurd h (by simp [SenderEnv.verdict, hsocket, hdec])
                | ok decoded =>
                    obtain ⟨resp, q⟩ := decoded
                    simp only [SenderEnv.verdict, hsocket, hdec] at h
                    split at h
                    case isFalse => cases h
                    next hok =>
                      subst hok
                      rw [Option.some.injEq] at h
                      obtain ⟨htr, hrtt⟩ := SenderEnv.judges_useful h
                      exact ⟨t₁, r, q, rfl, rfl, hgo, rfl, hdec, htr, hrtt⟩

/-- A time is measured from a timestamp that was in flight. -/
theorem Echoes.rtt (h : Echoes start p w) {env : SenderEnv} {r : Option Datagram}
    (hstep : Step w (.sender env r) w') {turn : SenderTurn} {rtt : Int}
    (hverdict : SenderStep.verdict { env := env, before := w.sender, turn := turn } =
      some (.useful rtt)) :
    ∃ ts, p ts ∧
      rtt = (currentTimestamp (env.milliseconds .rtt) start - ts).toInt32.toInt := by
  obtain ⟨t₁, read, q, hpoll, h₁, hgo₁, hsocket, hdec, htr, hrtt⟩ :=
    SenderStep.verdict_useful hverdict
  dsimp only at hpoll h₁ hsocket hdec hrtt
  cases hstep with
  | sender hgo hin hnone hturn =>
      -- an accepted ACK would have been heard
      have hheard : env.heard w.sender = some q := by
        simp only [SenderEnv.heard, hpoll, h₁, hgo₁, if_true, Bool.false_eq_true, if_false,
          SenderEnv.reply, hsocket, hdec]
        exact if_pos ⟨trivial, htr⟩
      rw [hnone] at hheard
      cases hheard
  | senderReceives hgo hin hacks hbytes hturn =>
      rw [hsocket, Option.some.injEq] at hbytes
      subst hbytes
      have hq := (h.take_ack hacks).1.decoded _ _ hdec
      have hstamped : Stamped start (fun _ => True) env w.sender :=
        ⟨h.begins hgo, fun _ => trivial, fun _ _ _ => trivial⟩
      refine ⟨q.timestamp, hq, ?_⟩
      rw [hrtt, SenderEnv.now, (hstamped.input h₁ hgo₁).begins]

/-! ## Whole runs -/

theorem Step.sender_turn {env : SenderEnv} {r : Option Datagram}
    (hstep : Step w (.sender env r) w') :
    ∃ t, w.senderStop = none ∧ readWriteLoopSender env w.sender = .ok t ∧ w'.sender = t.state ∧
      w'.senderStop = t.stop := by
  cases hstep with
  | sender hgo _ _ hturn => exact ⟨_, hgo, hturn, rfl, rfl⟩
  | senderReceives hgo _ _ _ hturn => exact ⟨_, hgo, hturn, rfl, rfl⟩

theorem Step.sender_unchanged {e : Event} (hother : ∀ env r, e ≠ .sender env r)
    (hstep : Step w e w') : w'.sender = w.sender ∧ w'.senderStop = w.senderStop := by
  cases hstep with
  | data | acks | receiver | receiverReceives => exact ⟨rfl, rfl⟩
  | sender | senderReceives => exact absurd rfl (hother _ _)

/-- The statistics are written when the connection is closed, and are right until then. -/
def World.Counts (w : World) : Prop := w.senderStop = none ∨ w.senderStop = some .closed

/-- What a run with a clock keeps. -/
structure Measures [Zlib] (start : Int) (shown : Set Int) (steps : List SenderStep) (w : World) :
    Prop where
  parties : ∃ log known, Parties w log known
  history : SenderHistory (fun _ _ _ => True) w.sender w.senderStop steps
  begins : start ∈ shown
  later : ∀ x ∈ shown, start ≤ x
  echoes : Echoes start (Shown start shown) w
  real : (∀ x ∈ shown, x < start + 2 ^ 31) → ∀ rtt ∈ rttsOf steps, Between shown rtt

/-- Nothing but a turn of the sender touches its statistics. -/
theorem Measures.other {steps : List SenderStep} (h : Measures start shown steps w) {e : Event}
    (hother : ∀ env r, e ≠ .sender env r) (hstep : Step w e w') :
    Measures start shown steps w' := by
  obtain ⟨log, known, hparties⟩ := h.parties
  obtain ⟨hsender, hstop⟩ := hstep.sender_unchanged hother
  refine ⟨hparties.step hstep, ?_, h.begins, h.later,
    h.echoes.step hparties (fun env r he => absurd he (hother env r)) hstep, h.real⟩
  rw [hsender, hstop]
  exact h.history

/-- A turn of the sender measures at most one time. -/
theorem Measures.sender {steps : List SenderStep} (h : Measures start shown steps w)
    {env : SenderEnv} {r : Option Datagram} {t : SenderTurn}
    (hclock : ∀ x ∈ shown, ∀ site, x ≤ env.milliseconds site)
    (hstep : Step w (.sender env r) w') (hturn : readWriteLoopSender env w.sender = .ok t) :
    Measures start (shown ∪ Set.range env.milliseconds)
      (steps ++ [{ env := env, before := w.sender, turn := t }]) w' := by
  obtain ⟨log, known, hparties⟩ := h.parties
  obtain ⟨t', hgo, hturn', hsender, hstop⟩ := hstep.sender_turn
  rw [hturn, Except.ok.injEq] at hturn'
  subst hturn'
  have hleft : shown ⊆ shown ∪ Set.range env.milliseconds := Set.subset_union_left
  have hread (site : ClockSite) : env.milliseconds site ∈ shown ∪ Set.range env.milliseconds :=
    Or.inr ⟨site, rfl⟩
  have hhistory : SenderHistory (fun _ _ _ => True) w.sender none steps := hgo ▸ h.history
  refine ⟨hparties.step hstep, ?_, Or.inl h.begins, ?_, ?_, fun hshort => ?_⟩
  · rw [hsender, hstop]
    exact .turn hhistory trivial hturn
  · rintro x (hx | ⟨site, rfl⟩)
    · exact h.later x hx
    · exact hclock start h.begins site
  · refine (h.echoes.mono fun ts hts => hts.mono hleft).step hparties ?_ hstep
    intro env' r' he site
    cases he
    exact ⟨_, hread site, rfl⟩
  · rw [rttsOf_append, List.forall_mem_append]
    refine ⟨fun rtt hmem => (h.real (fun x hx => hshort x (hleft hx)) rtt hmem).mono hleft, ?_⟩
    intro rtt hmem
    obtain ⟨v, hverdict, hv⟩ := Option.bind_eq_some_iff.mp (Option.mem_toList.mp hmem)
    cases v <;> cases hv
    -- the ACK sends back a time that the clock has shown
    obtain ⟨ts, ⟨x, hx, rfl⟩, hrtt⟩ := h.echoes.rtt hstep hverdict
    have hle := hclock x hx .rtt
    have hlate := hshort _ (hread .rtt)
    have hfirst := h.later x hx
    rw [currentTimestamp_rtt hle (by omega)] at hrtt
    exact ⟨x, hleft hx, _, hread .rtt, hle, hrtt⟩

theorem ClockedRun.measures {steps : List SenderStep} (h : ClockedRun start w shown steps) :
    Measures start shown steps w := by
  induction h with
  | start buf logger statsFile mem statFile hnull =>
      exact ⟨⟨_, _, parties_start buf logger statsFile start hnull statFile⟩,
        .init buf logger statsFile start, rfl, fun x hx => Int.le_of_eq hx.symm,
        echoes_start buf logger statsFile hnull statFile,
        fun _ rtt hmem => absurd hmem List.not_mem_nil⟩
  | other _ hother hstep ih => exact ih.other hother hstep
  | sender _ hclock hstep hturn ih => exact ih.sender hclock hstep hturn

/-- The round-trip times are real.  In every run over a link that loses, duplicates, truncates
    and reorders, with datagrams arriving however late, in which the sender's clock does not go
    back: whatever is in flight carries a time that this clock has shown; and if fewer than
    2^31 ms pass, then every useful ACK has measured the time between two readings of it, and,
    as long as the sender is running and when it has closed the connection, its statistics
    have the least and the greatest of these times, or what they began with if there was no
    useful ACK. -/
theorem clockedRun_rtts {steps : List SenderStep} (h : ClockedRun start w shown steps) :
    (∀ d ∈ w.data, Bears (Shown start shown) True d.bytes) ∧
      (∀ d ∈ w.acks, Bears (Shown start shown) False d.bytes) ∧
      ((∀ x ∈ shown, x < start + 2 ^ 31) →
        (∀ rtt ∈ rttsOf steps, Between shown rtt) ∧
        (w.Counts → w.sender.senderLogger.activated = true →
          w.sender.senderLogger.Measured (rttsOf steps))) := by
  have hm := h.measures
  refine ⟨hm.echoes.data, hm.echoes.acks, fun hshort => ⟨hm.real hshort, fun hcounts hact => ?_⟩⟩
  apply ((hm.history.logger hcounts).2 hact).measured
  intro rtt hmem
  obtain ⟨sent, hsent, heard, hheard, hle, rfl⟩ := hm.real hshort rtt hmem
  have hfirst := hm.later sent hsent
  have hlast := hshort heard hheard
  omega

end

/-- A chunk is sent at the time 0 and acknowledged at 5. -/
theorem clockedRun_rtts_acked : letI := zlib
    ∃ (w : World) (shown : Set Int) (steps : List SenderStep), rttsOf steps ≠ [] ∧
      (∀ rtt ∈ rttsOf steps, Between shown rtt) ∧ w.sender.senderLogger.min_rtt = 5 ∧
      w.sender.senderLogger.Measured (rttsOf steps) := by
  let _ := zlib
  obtain ⟨w₁, w₂, w₃, d, a, hstep₁, hstep₂, hstep₃, h⟩ := exists_acked_steps
  have h₀ : ClockedRun 0 (World.start (fun _ => 0) default true 0 nullMemory false) {0} [] :=
    .start _ _ _ _ _ fun _ => rfl
  obtain ⟨t, -, hturn, -⟩ := hstep₁.sender_turn
  obtain ⟨t', -, hturn', -⟩ := hstep₃.sender_turn
  have h₁ : ClockedRun 0 w₁ ({0} ∪ Set.range (inputEnv [7]).milliseconds) _ :=
    .sender h₀ (fun x hx _ => Int.le_of_eq hx) hstep₁ hturn
  have h₂ := h₁.other (fun _ _ he => Event.noConfusion he) hstep₂
  have hzero : (0 : Int) ≤ 5 := by decide
  have hclock : ∀ x ∈ {0} ∪ Set.range (inputEnv [7]).milliseconds, ∀ site,
      x ≤ ackedEnv.milliseconds site := by
    rintro x (hx | ⟨_, rfl⟩) _
    · rw [hx]
      exact hzero
    · exact hzero
  have h₃ := ClockedRun.sender h₂ hclock hstep₃ hturn'
  have hshort : (0 : Int) < 0 + 2 ^ 31 ∧ (5 : Int) < 0 + 2 ^ 31 := by decide
  obtain ⟨hreal, hmeasured⟩ := (clockedRun_rtts h₃).2.2 <| by
    rintro x ((hx | ⟨_, rfl⟩) | ⟨_, rfl⟩)
    · rw [hx]
      exact hshort.1
    · exact hshort.1
    · exact hshort.2
  have hresult := hmeasured (Or.inl h.sender) h.activated
  refine ⟨w₃, _, _, fun hnil => ?_, hreal, h.min_rtt, hresult⟩
  have hmin := (hresult.nothing hnil).1
  rw [h.min_rtt] at hmin
  exact absurd hmin (by decide)

end SelectiveRepeat
