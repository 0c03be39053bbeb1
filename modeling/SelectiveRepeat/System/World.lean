/-
  SelectiveRepeat.System.World

  The sender and the receiver joined by two channels.  One step is a turn of one of
  the two loops, or something the link does to the datagrams in flight.  A turn
  may take the oldest datagram of the channel it reads; what it hands to `send` goes
  to the end of the other one.
-/
import SelectiveRepeat.Lib.Channel
import SelectiveRepeat.Sender.Run
import SelectiveRepeat.System.Datagram
import Mathlib.Logic.Relation

namespace SelectiveRepeat

open Channel

/-! ## The state of the system -/

/-- Both parties, the datagrams in flight, the chunks the sender has read and what
    the receiver has written so far. -/
structure World where
  sender : SenderState
  senderStop : Option SenderStop
  receiver : ReceiverState
  receiverStop : Option ReceiverStop
  chunks : List Bytes
  written : List (Bytes × Int)
  data : List Datagram
  acks : List Datagram

namespace World

/-- How many payload packets were built: the next absolute number of the sender. -/
def built (w : World) : Nat := w.chunks.length

/-- How many of them left the sender's window: the absolute number of the oldest
    unacknowledged packet. -/
def acked (w : World) : Nat := w.chunks.length - w.sender.window.size.toNat

/-- How many packets were written: the absolute number the receiver expects next. -/
def delivered (w : World) : Nat := w.written.length

/-- The bytes that came out of the receiver. -/
def output (w : World) : Bytes := (w.written.map fun p => p.1.take p.2.toNat).flatten

/-- The two parties as they are started, with nothing in flight. -/
def start (buf : Mem) (logger : Logger) (statsFile : Bool) (clock : Int) (mem : ReceiverMemory)
    (statFile : Bool) : World where
  sender := senderInit buf logger statsFile clock
  senderStop := none
  receiver := receiverInit mem statFile
  receiverStop := none
  chunks := []
  written := []
  data := []
  acks := []

/-- After a turn of the sender. -/
def sends (w : World) (env : SenderEnv) (t : SenderTurn) : World :=
  { w with
    sender := t.state
    senderStop := t.stop
    chunks := w.chunks ++ env.chunkRead w.sender
    data := w.data ++ t.sent.map (Datagram.sent w.acked) }

/-- After a turn of the receiver.  A reply gets the number of packets written. -/
def replies (w : World) (t : ReceiverTurn) : World :=
  { w with
    receiver := t.state
    receiverStop := t.stop
    written := w.written ++ t.written
    acks := w.acks ++ t.sent.map fun d => { num := (w.written ++ t.written).length, bytes := d } }

theorem replies_delivered (w : World) (t : ReceiverTurn) :
    (w.replies t).delivered = w.delivered + t.written.length := List.length_append

end World

/-! ## Steps -/

/-- What happens: the link disturbs one of the channels, or one of the parties takes a
    turn, with the datagram it receives if it does. -/
inductive Event where
  | data (kind : Disturbance)
  | acks (kind : Disturbance)
  | sender (env : SenderEnv) (received : Option Datagram)
  | receiver (env : ReceiverEnv) (received : Option Datagram)

/-- A party that receives nothing either hears nothing or hears a datagram its decoder
    rejects, such as a corrupted one. -/
inductive Step [Zlib] : World → Event → World → Prop where
  | data {w : World} {kind : Disturbance} {data' : List Datagram} :
      Disturbs Datagram.truncate kind w.data data' →
      Step w (.data kind) { w with data := data' }
  | acks {w : World} {kind : Disturbance} {acks' : List Datagram} :
      Disturbs Datagram.truncate kind w.acks acks' →
      Step w (.acks kind) { w with acks := acks' }
  | sender {w : World} {env : SenderEnv} {t : SenderTurn} :
      w.senderStop = none → env.InputReads → env.heard w.sender = none →
      readWriteLoopSender env w.sender = .ok t →
      Step w (.sender env none) (w.sends env t)
  | senderReceives {w : World} {env : SenderEnv} {t : SenderTurn} {d : Datagram}
      {acks' : List Datagram} :
      w.senderStop = none → env.InputReads → w.acks = d :: acks' →
      env.socket = some (.bytes d.bytes) → readWriteLoopSender env w.sender = .ok t →
      Step w (.sender env (some d)) ({ w with acks := acks' }.sends env t)
  | receiver {w : World} {env : ReceiverEnv} {t : ReceiverTurn} :
      w.receiverStop = none → env.incoming w.receiver = none →
      readWriteLoopServer env w.receiver = .ok t →
      Step w (.receiver env none) (w.replies t)
  | receiverReceives {w : World} {env : ReceiverEnv} {t : ReceiverTurn} {d : Datagram}
      {data' : List Datagram} :
      w.receiverStop = none → w.data = d :: data' → env.poll = .ready (.bytes d.bytes) →
      readWriteLoopServer env w.receiver = .ok t →
      Step w (.receiver env (some d)) ({ w with data := data' }.replies t)

/-- Runs all of whose events are `allowed` where they happen. -/
def Steps [Zlib] (allowed : World → Event → Prop) : World → World → Prop :=
  Relation.ReflTransGen fun w w' => ∃ e, allowed w e ∧ Step w e w'

/-- The states of the runs from a start in which the slots of the window are null. -/
def Reachable [Zlib] (allowed : World → Event → Prop) (w : World) : Prop :=
  ∃ buf logger statsFile clock mem statFile, (∀ i, mem.window.window i = none) ∧
    Steps allowed (World.start buf logger statsFile clock mem statFile) w

section
variable [Zlib] {allowed allowed' : World → Event → Prop} {w w' : World}

theorem Steps.mono (h : Steps allowed w w') (himp : ∀ w e, allowed w e → allowed' w e) :
    Steps allowed' w w' :=
  Relation.ReflTransGen.mono (fun w _ ⟨e, he, hstep⟩ => ⟨e, himp w e he, hstep⟩) _ _ h

theorem Reachable.mono (h : Reachable allowed w) (himp : ∀ w e, allowed w e → allowed' w e) :
    Reachable allowed' w := by
  obtain ⟨buf, logger, statsFile, clock, mem, statFile, hnull, hsteps⟩ := h
  exact ⟨buf, logger, statsFile, clock, mem, statFile, hnull, hsteps.mono himp⟩

theorem Reachable.steps (h : Reachable allowed w) (hsteps : Steps allowed w w') :
    Reachable allowed w' := by
  obtain ⟨buf, logger, statsFile, clock, mem, statFile, hnull, hfirst⟩ := h
  exact ⟨buf, logger, statsFile, clock, mem, statFile, hnull,
    Relation.ReflTransGen.trans hfirst hsteps⟩

theorem Reachable.step (h : Reachable allowed w) {e : Event} (he : allowed w e)
    (hstep : Step w e w') : Reachable allowed w' :=
  h.steps (Relation.ReflTransGen.single ⟨e, he, hstep⟩)

/-- What holds at the start and is kept by every allowed step holds in every state. -/
theorem Reachable.invariant (h : Reachable allowed w) (p : World → Prop)
    (hstart : ∀ buf logger statsFile clock (mem : ReceiverMemory) statFile,
      (∀ i, mem.window.window i = none) →
      p (World.start buf logger statsFile clock mem statFile))
    (hstep : ∀ w e w', p w → allowed w e → Step w e w' → p w') : p w := by
  obtain ⟨buf, logger, statsFile, clock, mem, statFile, hnull, hsteps⟩ := h
  induction hsteps with
  | refl => exact hstart buf logger statsFile clock mem statFile hnull
  | tail _ hlast ih =>
      obtain ⟨e, he, hs⟩ := hlast
      exact hstep _ e _ ih he hs

end

/-! ## Networks -/

/-- No DATA packet is delivered more than 223 below the number the receiver expects,
    and no ACK more than 99 below the oldest unacknowledged one. -/
def Fresh (w : World) : Event → Prop
  | .sender _ (some d) => d.type = ptypeAck → w.acked ≤ d.num + 99
  | .receiver _ (some d) => w.delivered ≤ d.num + 223
  | _ => True

/-- The link keeps the order. -/
def Fifo (_ : World) : Event → Prop
  | .data kind => kind ≠ .reorder
  | .acks kind => kind ≠ .reorder
  | _ => True

/-- Whatever the receiver hands to `write` is taken whole. -/
def TakenWhole : Event → Prop
  | .receiver env _ => env.WritesWhole
  | _ => True

end SelectiveRepeat
