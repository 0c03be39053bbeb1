/-
  SelectiveRepeat.System.Parties

  What each party keeps to on its own, whatever the link does and however late a
  datagram arrives: the sender's window refines the log of what it has built, and
  the receiver's window represents what it has accepted.
-/
import SelectiveRepeat.System.World

namespace SelectiveRepeat

open Channel Reassembly

/-- `log` is what the sender has built and `known` what the receiver has accepted. -/
structure Parties [Zlib] (w : World) (log : SendLog) (known : Nat → Option Item) : Prop where
  chunks : w.chunks = log.log.map Pkt.data
  window : ∃ l, w.sender.window.Holds l ∧ SameButTimestamp log.outstanding l
  sender : w.senderStop = none → Refines w.sender log
  receiver : w.receiverStop = none → Represents w.receiver w.delivered known

section
variable [Zlib] {w w' : World} {log : SendLog} {known : Nat → Option Item}

/-! ## The numbers of the sender -/

theorem Parties.built_eq (h : Parties w log known) : w.built = log.log.length := by
  rw [World.built, h.chunks, List.length_map]

theorem Parties.acked_eq (h : Parties w log known) : w.acked = log.acked := by
  obtain ⟨l, hl, hsame⟩ := h.window
  have hle := log.acked_le
  have hlen := log.outstanding_length
  rw [World.acked, h.chunks, List.length_map, hl.size, ← hsame.length_eq]
  omega

/-- No payload of the log is empty. -/
theorem Parties.chunk_ne_nil (h : Parties w log known) {k : Nat} {chunk : Bytes}
    (hk : w.chunks[k]? = some chunk) : chunk ≠ [] := by
  rw [h.chunks, List.getElem?_map, Option.map_eq_some_iff] at hk
  obtain ⟨p, hp, rfl⟩ := hk
  exact (log.queued p (List.mem_of_getElem? hp)).data_ne_nil

/-! ## Steps -/

theorem parties_start (buf : Mem) (logger : Logger) (statsFile : Bool) (clock : Int)
    {mem : ReceiverMemory} (hnull : ∀ i, mem.window.window i = none) (statFile : Bool) :
    Parties (World.start buf logger statsFile clock mem statFile) SendLog.empty
      (fun _ => none) := by
  have href := senderInit_refines buf logger statsFile clock
  have hrep := (receiverInit_tracks mem statFile hnull).represents
  exact ⟨rfl, href.holds, fun _ => href, fun _ => hrep⟩

/-- A turn of the sender. -/
theorem Parties.sends (h : Parties w log known) {env : SenderEnv} {t : SenderTurn}
    {mid : SendLog} {built : List Pkt} {reply : Option Pkt}
    (hturn : log.Turn env w.sender t mid built reply) :
    Parties (w.sends env t) (mid.receive reply) known := by
  refine ⟨?_, hturn.holds, hturn.refines, h.receiver⟩
  rw [SendLog.receive_log, hturn.log, List.map_append, hturn.read, ← h.chunks]
  rfl

/-- A turn of the receiver that accepts nothing. -/
theorem Parties.replies_none (h : Parties w log known) {t : ReceiverTurn}
    (hrep : Represents t.state w.delivered known) (hwritten : t.written = []) :
    Parties (w.replies t) log known := by
  refine ⟨h.chunks, h.window, h.sender, fun _ => ?_⟩
  rw [World.replies_delivered, hwritten]
  exact hrep

/-- A turn of the receiver that handles `q`; nothing is said of `known'` when the loop
    returned. -/
theorem Parties.replies (h : Parties w log known) {env : ReceiverEnv} {q : Pkt} {t : ReceiverTurn}
    (heffect : Effect env w.receiver w.delivered known q t) {known' : Nat → Option Item}
    (hknown : t.stop = none → known' = arrive w.receiver w.delivered known q) :
    Parties (w.replies t) log known' := by
  refine ⟨h.chunks, h.window, h.sender, fun hgo => ?_⟩
  rw [hknown hgo, World.replies_delivered]
  exact heffect.represents hgo

theorem Parties.replies_of_ok (h : Parties w log known) (hgo : w.receiverStop = none)
    {env : ReceiverEnv} {t : ReceiverTurn} (hturn : readWriteLoopServer env w.receiver = .ok t) :
    ∃ known', Parties (w.replies t) log known' := by
  rcases readWriteLoopServer_cases (h.receiver hgo) hturn with
    ⟨-, hrep, -, hwritten, -⟩ | ⟨q, -, heffect⟩
  · exact ⟨known, h.replies_none hrep hwritten⟩
  · exact ⟨_, h.replies heffect fun _ => rfl⟩

theorem Parties.sends_of_ok (h : Parties w log known) (hgo : w.senderStop = none)
    {env : SenderEnv} (hin : env.InputReads) {t : SenderTurn}
    (hturn : readWriteLoopSender env w.sender = .ok t) :
    ∃ log', Parties (w.sends env t) log' known := by
  obtain ⟨t', mid, built, reply, hturn', hstep, -⟩ :=
    readWriteLoopSender_spec (h.sender hgo) (hin.inputRead_ne w.sender)
  rw [hturn, Except.ok.injEq] at hturn'
  subst hturn'
  exact ⟨_, h.sends hstep⟩

/-- What one step preserves. -/
theorem Parties.step (h : Parties w log known) {e : Event} (hstep : Step w e w') :
    ∃ log' known', Parties w' log' known' := by
  -- the parties do not see what is in flight
  have hlink (data' acks' : List Datagram) :
      Parties { w with data := data', acks := acks' } log known :=
    ⟨h.chunks, h.window, h.sender, h.receiver⟩
  cases hstep with
  | data => exact ⟨log, known, hlink _ _⟩
  | acks => exact ⟨log, known, hlink _ _⟩
  | sender hgo hin _ hturn =>
      obtain ⟨log', h'⟩ := h.sends_of_ok hgo hin hturn
      exact ⟨log', known, h'⟩
  | @senderReceives env t d acks' hgo hin _ _ hturn =>
      obtain ⟨log', h'⟩ := (hlink w.data acks').sends_of_ok hgo hin hturn
      exact ⟨log', known, h'⟩
  | receiver hgo _ hturn =>
      obtain ⟨known', h'⟩ := h.replies_of_ok hgo hturn
      exact ⟨log, known', h'⟩
  | @receiverReceives env t d data' hgo _ _ hturn =>
      obtain ⟨known', h'⟩ := (hlink data' w.acks).replies_of_ok hgo hturn
      exact ⟨log, known', h'⟩

/-- What every run preserves. -/
theorem reachable_parties {allowed : World → Event → Prop} (h : Reachable allowed w) :
    ∃ log known, Parties w log known := by
  refine h.invariant (fun w => ∃ log known, Parties w log known) ?_ ?_
  · intro buf logger statsFile clock mem statFile hnull
    exact ⟨_, _, parties_start buf logger statsFile clock hnull statFile⟩
  · rintro w e w' ⟨log, known, hparties⟩ - hstep
    exact hparties.step hstep

end

end SelectiveRepeat
