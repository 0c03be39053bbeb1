/-
  SelectiveRepeat.System.Safety

  End-to-end safety over a link that loses, duplicates, truncates, corrupts and
  reorders.  Every step of such a run keeps the joint invariant, as long as nothing
  is delivered so late that its 8-bit number has come round again; the invariant
  says that what was written is the beginning of what was read.
-/
import SelectiveRepeat.System.Joint

namespace SelectiveRepeat

open Channel Reassembly

/-- The runs of the safety theorem. -/
def Reordering (w : World) (e : Event) : Prop := Fresh w e ∧ TakenWhole e

/-! ## The invariant along a run -/

section
variable [Zlib] {w w' : World} {log : SendLog} {known : Nat → Option Item}

theorem hears_of_none {env : SenderEnv} {st : SenderState} (h : env.heard st = none)
    (base A : Nat) : Hears env st base A := by
  intro q hq
  rw [h] at hq
  exact absurd hq (by simp)

theorem hears_of_reply {env : SenderEnv} {delivered base : Nat} {d : Datagram}
    (hd : Acknowledges delivered d) (hsocket : env.socket = some (.bytes d.bytes))
    (hfresh : d.type = ptypeAck → base ≤ d.num + 99) (st : SenderState) :
    Hears env st base d.num := by
  obtain ⟨-, pkt, hspells, htype⟩ := hd
  have hne : pkt.type ≠ ptypeData := by
    rcases htype with htype | htype <;> rw [htype] <;> decide
  intro q hq
  obtain ⟨buf, hq⟩ := SenderEnv.exists_reply hq
  obtain ⟨q', hq', htype', hseq, -⟩ := hspells.reply hne hsocket buf
  rw [hq, Option.some.injEq] at hq'
  subst hq'
  rw [htype', ← hspells.type]
  exact ⟨hseq, hfresh⟩

theorem Joint.take_ack (h : Joint w log known) {d : Datagram} {acks' : List Datagram}
    (hacks : w.acks = d :: acks') :
    Acknowledges w.delivered d ∧ Joint { w with acks := acks' } log known := by
  have hall := h.acks
  rw [hacks, List.forall_mem_cons] at hall
  exact ⟨hall.1, { h with acks := hall.2 }⟩

theorem Joint.take_data (h : Joint w log known) {d : Datagram} {data' : List Datagram}
    (hdata : w.data = d :: data') :
    Carries log (w.Closed log) d ∧ Joint { w with data := data' } log known := by
  have hall := h.data
  rw [hdata, List.forall_mem_cons] at hall
  exact ⟨hall.1, { h with data := hall.2 }⟩

/-- What one step preserves. -/
theorem Joint.step (h : Joint w log known) {e : Event} (hfresh : Fresh w e)
    (hstep : Step w e w') : ∃ log' known', Joint w' log' known' := by
  cases hstep with
  | data hd => exact ⟨log, known, h.disturb_data hd⟩
  | acks hd => exact ⟨log, known, h.disturb_acks hd⟩
  | sender hgo hin hnone hturn =>
      obtain ⟨log', -, -, h', -⟩ :=
        h.sends hgo hin (hears_of_none hnone log.acked log.acked) h.acked_le hturn
      exact ⟨log', known, h'⟩
  | senderReceives hgo hin hacks hsocket hturn =>
      obtain ⟨hd, hrest⟩ := h.take_ack hacks
      rw [Fresh, h.acked_eq] at hfresh
      obtain ⟨log', -, -, h', -⟩ :=
        hrest.sends hgo hin (hears_of_reply hd hsocket hfresh w.sender) hd.1 hturn
      exact ⟨log', known, h'⟩
  | receiver hgo hinc hturn => exact ⟨log, known, (h.replies_none hgo hinc hturn).1⟩
  | receiverReceives hgo hdata hpoll hturn =>
      obtain ⟨hd, hrest⟩ := h.take_data hdata
      obtain ⟨known', -, h', -⟩ := hrest.replies hgo hd hfresh hpoll hturn
      exact ⟨log, known', h'⟩

/-- What every run preserves. -/
theorem reachable_joint (h : Reachable Fresh w) : ∃ log known, Joint w log known := by
  refine h.invariant (fun w => ∃ log known, Joint w log known) ?_ ?_
  · intro buf logger statsFile clock mem statFile hnull
    exact ⟨_, _, joint_start buf logger statsFile clock hnull statFile⟩
  · rintro w e w' ⟨log, known, hjoint⟩ hfresh hstep
    exact hjoint.step hfresh hstep

/-- Every write of a turn was taken whole. -/
theorem written_whole {env : ReceiverEnv} (hwhole : env.WritesWhole) {st : ReceiverState} {W : Nat}
    {known : Nat → Option Item} (hrep : Represents st W known) {t : ReceiverTurn}
    (hturn : readWriteLoopServer env st = .ok t) :
    ∀ p ∈ t.written, p.2 = (p.1.length : Nat) := by
  have hwrites (n : Nat) (payloads : List Bytes) :
      ∀ p ∈ env.writes n payloads, p.2 = (p.1.length : Nat) := by
    induction payloads generalizing n with
    | nil => exact fun p hp => absurd hp List.not_mem_nil
    | cons payload payloads ih =>
        rw [ReceiverEnv.writes, List.forall_mem_cons]
        exact ⟨hwhole n payload, ih (n + 1)⟩
  rcases readWriteLoopServer_cases hrep hturn with ⟨-, -, -, hnil, -⟩ | ⟨q, -, heffect⟩
  · rw [hnil]
    exact fun p hp => absurd hp List.not_mem_nil
  · rcases heffect.writes with hnil | ⟨xs, -, -, -, -, hwr⟩
    · rw [hnil]
      exact fun p hp => absurd hp List.not_mem_nil
    · rw [hwr]
      exact hwrites 0 _

theorem Step.written_whole (hstep : Step w e w') (hjoint : Joint w log known)
    (hwhole : TakenWhole e) (h : ∀ p ∈ w.written, p.2 = (p.1.length : Nat)) :
    ∀ p ∈ w'.written, p.2 = (p.1.length : Nat) := by
  cases hstep with
  | data => exact h
  | acks => exact h
  | sender => exact h
  | senderReceives => exact h
  | receiver hgo _ hturn =>
      rw [World.replies, List.forall_mem_append]
      exact ⟨h, SelectiveRepeat.written_whole hwhole (hjoint.receiver hgo) hturn⟩
  | receiverReceives hgo _ _ hturn =>
      rw [World.replies, List.forall_mem_append]
      exact ⟨h, SelectiveRepeat.written_whole hwhole (hjoint.receiver hgo) hturn⟩

theorem reachable_written_whole (h : Reachable Reordering w) :
    ∀ p ∈ w.written, p.2 = (p.1.length : Nat) := by
  -- together with the joint invariant, which says what a turn of the receiver writes
  have hboth : (∃ log known, Joint w log known) ∧ ∀ p ∈ w.written, p.2 = (p.1.length : Nat) := by
    refine h.invariant (fun w => (∃ log known, Joint w log known) ∧
      ∀ p ∈ w.written, p.2 = (p.1.length : Nat)) ?_ ?_
    · intro buf logger statsFile clock mem statFile hnull
      exact ⟨⟨_, _, joint_start buf logger statsFile clock hnull statFile⟩,
        fun p hp => absurd hp List.not_mem_nil⟩
    · rintro w e w' ⟨⟨log, known, hjoint⟩, hw⟩ ⟨hfresh, hwhole⟩ hstep
      exact ⟨hjoint.step hfresh hstep, hstep.written_whole hjoint hwhole hw⟩
  exact hboth.2

/-- A turn of the running sender returns. -/
theorem Parties.sender_ok (h : Parties w log known) (hgo : w.senderStop = none) {env : SenderEnv}
    (hin : env.InputReads) : ∃ t, readWriteLoopSender env w.sender = .ok t := by
  obtain ⟨t, -, -, -, hturn, -⟩ :=
    readWriteLoopSender_spec (h.sender hgo) (hin.inputRead_ne w.sender)
  exact ⟨t, hturn⟩

/-- A turn of the running receiver with a datagram in flight returns. -/
theorem Joint.receiver_ok (h : Joint w log known) (hgo : w.receiverStop = none) {d : Datagram}
    (hd : d ∈ w.data) (hfresh : w.delivered ≤ d.num + 223) {env : ReceiverEnv}
    (hpoll : env.poll = .ready (.bytes d.bytes)) :
    ∃ t, readWriteLoopServer env w.receiver = .ok t := by
  obtain ⟨q, hinc, hq⟩ := h.heard (h.data d hd) hfresh hpoll
  have hrep := h.receiver hgo
  -- a packet of the run has a slot, or comes after the window
  have hslot : q.tr = 1 ∨ distance w.receiver.waitedSeqnum q.seqnum < 31 ∨
      32 < distance w.receiver.waitedSeqnum q.seqnum := by
    rcases bitVec1_cases q.tr with htr | htr
    · exact Or.inr (hrep.arrive_near hq.ahead hq.behind htr hq.seqnum).1
    · exact Or.inl htr
  obtain ⟨t, hturn, -⟩ := readWriteLoopServer_effect hrep hinc hslot
  exact ⟨t, hturn⟩

/-- No turn of such a run is undefined: whatever an allowed step brings to a party that
    is running, its next turn returns. -/
theorem reachable_defined (h : Reachable Fresh w) :
    (w.senderStop = none → ∀ env : SenderEnv, env.InputReads →
      ∃ t, readWriteLoopSender env w.sender = .ok t) ∧
    (w.receiverStop = none → ∀ env : ReceiverEnv,
      env.incoming w.receiver = none ∨
        (∃ d ∈ w.data, env.poll = .ready (.bytes d.bytes) ∧ Fresh w (.receiver env (some d))) →
      ∃ t, readWriteLoopServer env w.receiver = .ok t) := by
  obtain ⟨log, known, hj⟩ := reachable_joint h
  refine ⟨fun hgo env hin => hj.sender_ok hgo hin, fun hgo env hincoming => ?_⟩
  rcases hincoming with hnone | ⟨d, hd, hpoll, hfresh⟩
  · obtain ⟨t, hturn, -⟩ := readWriteLoopServer_of_none hnone
    exact ⟨t, hturn⟩
  · exact hj.receiver_ok hgo hd hfresh hpoll

/-- End-to-end safety.  In every run over a link that loses, duplicates, truncates and
    reorders: what came out is the first `delivered` chunks, in order and each once;
    the packets that left the sender's window are written, and the window holds the
    others; and a receiver that was told the end has written every chunk. -/
theorem reachable_safety (h : Reachable Reordering w) :
    w.delivered ≤ w.built ∧
      w.written.map Prod.fst = w.chunks.take w.delivered ∧
      w.output = (w.chunks.take w.delivered).flatten ∧
      w.acked ≤ w.delivered ∧
      (∃ l, w.sender.window.Holds l ∧ l.map Pkt.data = w.chunks.drop w.acked) ∧
      (w.receiverStop = some .disconnect ∨ w.receiverStop = some .storedDisconnect →
        w.output = w.chunks.flatten) := by
  obtain ⟨log, known, hjoint⟩ := reachable_joint (h.mono fun _ _ he => he.1)
  have hwhole := reachable_written_whole h
  have houtput : w.output = (w.chunks.take w.delivered).flatten := by
    rw [World.output, ← hjoint.written]
    congr 1
    apply List.map_congr_left
    intro p hp
    rw [hwhole p hp, Int.toNat_natCast, List.take_length]
  have hle := hjoint.delivered_le
  have hbuilt := hjoint.built_eq
  refine ⟨by omega, hjoint.written, houtput, ?_, ?_, ?_⟩
  · rw [hjoint.acked_eq]
    exact hjoint.acked_le
  · obtain ⟨l, hl, hsame⟩ := hjoint.window
    refine ⟨l, hl, ?_⟩
    rw [hjoint.acked_eq, hjoint.chunks, ← List.map_drop]
    exact hsame.datas
  · intro hstop
    have hall := (hjoint.disconnect hstop).2
    rw [houtput, List.take_of_length_le]
    rw [hall, ← hbuilt]
    exact Nat.le_refl _

end

/-! ## A run of one packet -/

/-- The first packet of the sender, with the payload 7. -/
def firstPkt : Pkt := { bytePkt 0 0 7 with window := 1 }

/-- What all the networks allow. -/
def Orderly (w : World) (e : Event) : Prop := Reordering w e ∧ Fifo w e

/-- A state in which the sender has read one chunk and sent it, and `delivered` packets are
    written. -/
structure OneSent [Zlib] (w : World) (delivered : Nat) : Prop where
  reachable : Reachable Orderly w
  sender : w.senderStop = none
  receiver : w.receiverStop = none
  chunks : w.chunks = [[7]]
  acked : w.acked = 0
  delivered : w.delivered = delivered
  data : w.data = [Datagram.sent 0 firstPkt.wire]

/-- The sender reads one chunk and sends it. -/
theorem exists_firstPkt_sent : letI := zlib
    ∃ t, readWriteLoopSender (inputEnv [7]) (senderInit (fun _ => 0) default false 0) = .ok t ∧
      t.stop = none ∧ t.sent = [firstPkt.wire] ∧ t.state.window.size = 1 := by
  let _ := zlib
  have hturn : (readWriteLoopSender (inputEnv [7]) (senderInit (fun _ => 0) default false 0)).map
      (fun t => (t.stop, t.sent, t.state.window.size)) = .ok (none, [firstPkt.wire], 1) := by
    decide +kernel
  obtain ⟨t, hok, ht⟩ := exists_ok_of_map hturn
  simp only [Prod.mk.injEq] at ht
  exact ⟨t, hok, ht⟩

theorem inputEnv_reads (chunk : Bytes) : (inputEnv chunk).InputReads := by
  rintro r hr rfl
  exact absurd hr (by simp [inputEnv])

theorem SenderEnv.heard_of_silent [Zlib] {env : SenderEnv} (h : env.socket = none)
    (st : SenderState) : env.heard st = none := by
  by_contra hsome
  obtain ⟨q, hq⟩ := Option.ne_none_iff_exists'.mp hsome
  obtain ⟨buf, hreply⟩ := SenderEnv.exists_reply hq
  exact absurd hreply (by simp [SenderEnv.reply, h])

/-- The receiver writes it. -/
theorem exists_firstPkt_written : letI := zlib
    ∃ t, readWriteLoopServer (datagramEnv firstPkt.wire) (receiverInit nullMemory false) = .ok t ∧
      t.stop = none ∧ t.written = [([7], 1)] := by
  let _ := zlib
  have hturn : (readWriteLoopServer (datagramEnv firstPkt.wire) (receiverInit nullMemory false)).map
      (fun t => (t.stop, t.written)) = .ok (none, [([7], 1)]) := by
    decide +kernel
  obtain ⟨t, hok, ht⟩ := exists_ok_of_map hturn
  simp only [Prod.mk.injEq] at ht
  exact ⟨t, hok, ht⟩

/-- A packet is in flight, sent in the first turn. -/
theorem exists_sent_first : letI := zlib
    ∃ w t, OneSent w 0 ∧ w.receiver = receiverInit nullMemory false ∧
      readWriteLoopSender (inputEnv [7]) (senderInit (fun _ => 0) default false 0) = .ok t ∧
      t.stop = none ∧ w.sender = t.state := by
  let _ := zlib
  obtain ⟨t, hok, hstop, hsent, hsize⟩ := exists_firstPkt_sent
  let start : World := World.start (fun _ => 0) default false 0 nullMemory false
  have hstep : Step start (.sender (inputEnv [7]) none) (start.sends (inputEnv [7]) t) :=
    .sender rfl (inputEnv_reads [7]) ((inputEnv [7]).heard_of_silent rfl start.sender) hok
  have hstart : Reachable Orderly start :=
    ⟨_, _, _, _, _, _, fun _ => rfl, Relation.ReflTransGen.refl⟩
  refine ⟨start.sends (inputEnv [7]) t, t, ⟨?_, hstop, rfl, rfl, ?_, rfl, ?_⟩, rfl, hok, hstop, rfl⟩
  · exact hstart.step (e := .sender (inputEnv [7]) none) ⟨⟨trivial, trivial⟩, trivial⟩ hstep
  · show 1 - t.state.window.size.toNat = 0
    rw [hsize]
    rfl
  · show [] ++ t.sent.map (Datagram.sent 0) = _
    rw [hsent]
    rfl

theorem exists_sent : letI := zlib
    ∃ w, OneSent w 0 ∧ w.receiver = receiverInit nullMemory false := by
  let _ := zlib
  obtain ⟨w, -, h, hreceiver, -⟩ := exists_sent_first
  exact ⟨w, h, hreceiver⟩

/-- Then the packet is duplicated, and one copy of it is written. -/
theorem exists_written : letI := zlib
    ∃ w, OneSent w 1 := by
  let _ := zlib
  obtain ⟨w, h, hreceiver⟩ := exists_sent
  let d := Datagram.sent 0 firstPkt.wire
  obtain ⟨t, hok, hstop, hwritten⟩ := exists_firstPkt_written
  have hdouble : Disturbs Datagram.truncate .duplicate w.data [d, d] := by
    rw [h.data]
    exact .duplicate [] d []
  have hlink := h.reachable.step (e := .data .duplicate)
    ⟨⟨trivial, trivial⟩, fun hkind => Disturbance.noConfusion hkind⟩ (.data hdouble)
  have hstep : Step { w with data := [d, d] } (.receiver (datagramEnv firstPkt.wire) (some d))
      (World.replies { w with data := [d] } t) :=
    .receiverReceives h.receiver rfl rfl (by rw [← hok, ← hreceiver])
  have hwhole : (datagramEnv firstPkt.wire).WritesWhole := fun _ _ => rfl
  have hlate : w.delivered ≤ d.num + 223 := by
    rw [h.delivered]
    exact Nat.zero_le _
  refine ⟨_, hlink.step (e := .receiver (datagramEnv firstPkt.wire) (some d))
    ⟨⟨hlate, hwhole⟩, trivial⟩ hstep, h.sender, hstop, h.chunks, h.acked, ?_, rfl⟩
  have hdel := h.delivered
  rw [World.replies_delivered, hwritten]
  show w.delivered + 1 = 1
  omega

/-- The turn in which the ACK of the first packet arrives, 5 ms after the start. -/
def ackedEnv [Zlib] : SenderEnv :=
  { quietEnv 5 with socket := some (.bytes (replyPkt ptypeAck 31 1).wire) }

/-- The sender with a statistics file sends a chunk at the time 0, and gets the ACK. -/
theorem exists_firstPkt_acked : letI := zlib
    ∃ t t', readWriteLoopSender (inputEnv [7]) (senderInit (fun _ => 0) default true 0) = .ok t ∧
      t.stop = none ∧ t.sent = [firstPkt.wire] ∧
      readWriteLoopSender ackedEnv t.state = .ok t' ∧ t'.stop = none ∧
      t'.state.window.size = 0 ∧ t'.state.senderLogger.activated = true ∧
      t'.state.senderLogger.min_rtt = 5 := by
  let _ := zlib
  have hrun : (do
      let t ← readWriteLoopSender (inputEnv [7]) (senderInit (fun _ => 0) default true 0)
      let t' ← readWriteLoopSender ackedEnv t.state
      return (t.stop, t.sent, decide (t'.stop = none ∧ t'.state.window.size = 0 ∧
        t'.state.senderLogger.activated = true ∧ t'.state.senderLogger.min_rtt = 5)) : Exec _) =
      .ok (none, [firstPkt.wire], true) := by
    decide +kernel
  obtain ⟨t, hturn, hrun⟩ := exists_ok_of_bind hrun
  obtain ⟨t', hturn', hrun⟩ := exists_ok_of_bind hrun
  have heq := Except.ok.inj hrun
  simp only [Prod.mk.injEq, decide_eq_true_eq] at heq
  obtain ⟨hgo, hsent, hlast⟩ := heq
  exact ⟨t, t', hturn, hgo, hsent, hturn', hlast⟩

/-- The ACK with which the receiver answers the first packet. -/
theorem exists_firstPkt_answered : letI := zlib
    ∃ t, readWriteLoopServer (datagramEnv firstPkt.wire) (receiverInit nullMemory false) = .ok t ∧
      t.sent = [(replyPkt ptypeAck 31 1).wire] := by
  let _ := zlib
  have hturn : (readWriteLoopServer (datagramEnv firstPkt.wire) (receiverInit nullMemory false)).map
      ReceiverTurn.sent = .ok [(replyPkt ptypeAck 31 1).wire] := by
    decide +kernel
  exact exists_ok_of_map hturn

/-- A state in which the sender has taken the ACK of its only packet. -/
structure OneAcked (w : World) : Prop where
  sender : w.senderStop = none
  chunks : w.chunks = [[7]]
  acked : w.acked = w.built
  activated : w.sender.senderLogger.activated = true
  min_rtt : w.sender.senderLogger.min_rtt = 5

/-- The sender sends the packet, the receiver answers it, and the sender takes the answer. -/
theorem exists_acked_steps : letI := zlib
    ∃ (w₁ w₂ w₃ : World) (d a : Datagram),
      Step (World.start (fun _ => 0) default true 0 nullMemory false) (.sender (inputEnv [7]) none)
        w₁ ∧
      Step w₁ (.receiver (datagramEnv firstPkt.wire) (some d)) w₂ ∧
      Step w₂ (.sender ackedEnv (some a)) w₃ ∧ OneAcked w₃ := by
  let _ := zlib
  obtain ⟨t, t', hturn, hgo, hsent, hturn', hgo', hempty, hact, hmin⟩ := exists_firstPkt_acked
  obtain ⟨u, hanswer, hack⟩ := exists_firstPkt_answered
  let w₀ : World := World.start (fun _ => 0) default true 0 nullMemory false
  let w₁ := w₀.sends (inputEnv [7]) t
  have hstep₁ : Step w₀ (.sender (inputEnv [7]) none) w₁ :=
    .sender rfl (inputEnv_reads [7]) ((inputEnv [7]).heard_of_silent rfl w₀.sender) hturn
  let d : Datagram := Datagram.sent 0 firstPkt.wire
  have hdata : w₁.data = [d] := by
    show [] ++ t.sent.map (Datagram.sent 0) = _
    rw [hsent]
    rfl
  let w₂ := World.replies { w₁ with data := [] } u
  have hstep₂ : Step w₁ (.receiver (datagramEnv firstPkt.wire) (some d)) w₂ :=
    .receiverReceives rfl hdata rfl hanswer
  let a : Datagram := { num := ([] ++ u.written).length, bytes := (replyPkt ptypeAck 31 1).wire }
  have hacks : w₂.acks = [a] := by
    show [] ++ u.sent.map _ = _
    rw [hack]
    rfl
  let w₃ := World.sends { w₂ with acks := [] } ackedEnv t'
  have hstep₃ : Step w₂ (.sender ackedEnv (some a)) w₃ :=
    .senderReceives hgo (fun r hr => absurd hr (by simp [ackedEnv, quietEnv])) hacks rfl hturn'
  refine ⟨w₁, w₂, w₃, d, a, hstep₁, hstep₂, hstep₃, hgo', rfl, ?_, hact, hmin⟩
  show w₃.built - t'.state.window.size.toNat = w₃.built
  rw [hempty]
  rfl

/-- A run in which a packet arrives twice. -/
theorem reachable_safety_one : letI := zlib
    ∃ w : World, w.delivered = 1 ∧ w.chunks = [[7]] ∧ w.output = [7] := by
  let _ := zlib
  obtain ⟨w, h⟩ := exists_written
  obtain ⟨-, -, houtput, -⟩ := reachable_safety (h.reachable.mono fun _ _ he => he.1)
  refine ⟨w, h.delivered, h.chunks, ?_⟩
  rw [houtput, h.delivered, h.chunks]
  rfl

end SelectiveRepeat
