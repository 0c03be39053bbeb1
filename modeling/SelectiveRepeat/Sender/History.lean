/-
  SelectiveRepeat.Sender.History

  A run of the sender as the list of its turns, each with what it took from outside,
  the state it found and what came of it.  What the run read, what it built and what
  it sent are read off that list.  Any read of the input may fail.
-/
import SelectiveRepeat.Sender.Run
import SelectiveRepeat.Sender.Turn

namespace SelectiveRepeat

/-- A turn that was made. -/
structure SenderStep where
  env : SenderEnv
  before : SenderState
  turn : SenderTurn

/-- `SenderHistory allowed st stop steps`: a run of `read_write_loop_sender` makes the
    turns `steps`, each `allowed` after the ones before it, and comes to the state `st`;
    `stop` is the `return` it took, if any. -/
inductive SenderHistory [Zlib] (allowed : List SenderStep → SenderEnv → SenderState → Prop) :
    SenderState → Option SenderStop → List SenderStep → Prop where
  | init (buf : Mem) (mem : Logger) (statsFile : Bool) (start : Int) :
      SenderHistory allowed (senderInit buf mem statsFile start) none []
  | turn {st : SenderState} {steps : List SenderStep} {env : SenderEnv} {t : SenderTurn} :
      SenderHistory allowed st none steps → allowed steps env st →
      readWriteLoopSender env st = .ok t →
      SenderHistory allowed t.state t.stop (steps ++ [{ env := env, before := st, turn := t }])

/-- Whatever the reads return and the packets contain, the ring is counted right. -/
theorem SenderHistory.counted [Zlib] {allowed : List SenderStep → SenderEnv → SenderState → Prop}
    {st : SenderState} {stop : Option SenderStop} {steps : List SenderStep}
    (h : SenderHistory allowed st stop steps) : stop = none → ∃ l, Counted st l := by
  induction h with
  | init buf mem statsFile start => exact fun _ => ⟨[], senderInit_counted buf mem statsFile start⟩
  | turn _ _ hturn ih =>
      intro hgo
      obtain ⟨l, hl⟩ := ih rfl
      obtain ⟨_, _, l', _, hthrough⟩ := hl.turn hturn (Or.inl hgo)
      rw [(hthrough.goes hgo).1]
      exact ⟨l', hthrough.counted⟩

/-- A run in which no read of the input failed. -/
theorem SenderHistory.senderRun [Zlib]
    {allowed : List SenderStep → SenderEnv → SenderState → Prop} {st : SenderState}
    {stop : Option SenderStop} {steps : List SenderStep} (h : SenderHistory allowed st stop steps)
    (hreads : ∀ step ∈ steps, step.env.InputReads) : ∃ chunks sent, SenderRun st stop chunks sent := by
  induction h with
  | init buf mem statsFile start => exact ⟨[], [], .init buf mem statsFile start⟩
  | turn _ _ hturn ih =>
      obtain ⟨chunks, sent, hrun⟩ := ih fun step hstep => hreads step (List.mem_append_left _ hstep)
      have hin := hreads _ (List.mem_append_right _ (List.mem_singleton_self _))
      exact ⟨_, _, .turn hrun hin hturn⟩

/-! ## What is seen of a run -/

/-- What the reads of the input found. -/
def readsOf (steps : List SenderStep) : List ReadResult :=
  steps.filterMap fun step => step.env.inputRead step.before

theorem readsOf_append (steps : List SenderStep) (step : SenderStep) :
    readsOf (steps ++ [step]) = readsOf steps ++ (step.env.inputRead step.before).toList := by
  rw [readsOf, List.filterMap_append, List.filterMap_cons]
  cases step.env.inputRead step.before <;> rfl

/-- All that was handed to `send`. -/
def sentOf (steps : List SenderStep) : List Bytes :=
  steps.flatMap fun step => step.turn.sent

/-- The part of it that the input blocks sent: the packets that were new. -/
def newsOf [Zlib] (steps : List SenderStep) : List Bytes :=
  steps.flatMap fun step => step.env.newSent step.before

/-- Some read of the input has met its end. -/
def Ended (steps : List SenderStep) : Prop := ∃ r ∈ readsOf steps, r.nb MAX_PAYLOAD_SIZE = 0

theorem ended_append {steps : List SenderStep} {step : SenderStep} :
    Ended (steps ++ [step]) ↔ Ended steps ∨
      ∃ r, step.env.inputRead step.before = some r ∧ r.nb MAX_PAYLOAD_SIZE = 0 := by
  simp only [Ended, readsOf_append, List.mem_append, Option.mem_toList, or_and_right, exists_or]

end SelectiveRepeat
