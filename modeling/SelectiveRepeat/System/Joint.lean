/-
  SelectiveRepeat.System.Joint

  The invariant of the two parties and the two channels together.  `log` is what
  the sender has built and `known` what the receiver has accepted; the receiver
  knows nothing but packets of the log, everything in flight is a copy of one, the
  empty packet of the end, or a reply with a number of packets written, and the
  numbers of the two parties keep the order acknowledged, written, built.
-/
import SelectiveRepeat.System.Parties

namespace SelectiveRepeat

open Channel Reassembly

/-! ## The invariant -/

/-- A DATA datagram: a copy of a packet of the log, truncated or not, or the empty
    packet that follows the last one once all are acknowledged. -/
def Carries [Zlib] (log : SendLog) (closed : Prop) (d : Datagram) : Prop :=
  ∃ pkt, d.Spells pkt ∧ pkt.type = ptypeData ∧
    ((∃ p, log.log[d.num]? = some p ∧ pkt.data = p.data) ∨
      closed ∧ d.num = log.log.length ∧ pkt.data = [])

/-- An ACK or a NACK with a number that was written by now. -/
def Acknowledges [Zlib] (delivered : Nat) (d : Datagram) : Prop :=
  d.num ≤ delivered ∧ ∃ pkt, d.Spells pkt ∧ (pkt.type = ptypeAck ∨ pkt.type = ptypeNack)

/-- The sender has sent the empty packet. -/
def World.Closed (w : World) (log : SendLog) : Prop :=
  w.senderStop = some .closed ∧ log.acked = log.log.length

/-- While the sender runs, it has not sent the empty packet. -/
theorem not_closed {w : World} {log : SendLog} (hgo : w.senderStop = none) : ¬ w.Closed log := by
  intro hclosed
  have hstop := hclosed.1
  rw [hgo] at hstop
  exact absurd hstop (by simp)

structure Joint [Zlib] (w : World) (log : SendLog) (known : Nat → Option Item) : Prop
    extends Parties w log known where
  honest : ∀ k x, known k = some x → w.chunks[k]? = some x.1
  written : w.written.map Prod.fst = w.chunks.take w.delivered
  acked_le : log.acked ≤ w.delivered
  delivered_le : w.delivered ≤ log.log.length
  data : ∀ d ∈ w.data, Carries log (w.Closed log) d
  acks : ∀ d ∈ w.acks, Acknowledges w.delivered d
  disconnect : w.receiverStop = some .disconnect ∨ w.receiverStop = some .storedDisconnect →
    w.Closed log ∧ w.delivered = log.log.length

section
variable [Zlib] {w : World} {log : SendLog} {known : Nat → Option Item}

theorem joint_start (buf : Mem) (logger : Logger) (statsFile : Bool) (clock : Int)
    {mem : ReceiverMemory} (hnull : ∀ i, mem.window.window i = none) (statFile : Bool) :
    Joint (World.start buf logger statsFile clock mem statFile) SendLog.empty (fun _ => none) := by
  refine ⟨parties_start buf logger statsFile clock hnull statFile, fun k x hx => absurd hx (by simp),
    rfl, Nat.le_refl 0, Nat.le_refl 0, fun d hd => absurd hd List.not_mem_nil,
    fun d hd => absurd hd List.not_mem_nil, ?_⟩
  rintro (hstop | hstop)
  · exact absurd hstop (by simp [World.start])
  · exact absurd hstop (by simp [World.start])

/-! ## The link -/

theorem Carries.truncate {closed : Prop} {d : Datagram} (h : Carries log closed d) :
    Carries log closed d.truncate := by
  obtain ⟨pkt, hspells, htype, hcase⟩ := h
  exact ⟨pkt.truncated, hspells.truncate, htype, hcase⟩

theorem Acknowledges.truncate {delivered : Nat} {d : Datagram} (h : Acknowledges delivered d) :
    Acknowledges delivered d.truncate := by
  obtain ⟨hle, pkt, hspells, htype⟩ := h
  exact ⟨hle, pkt.truncated, hspells.truncate, htype⟩

theorem Joint.disturb_data (h : Joint w log known) {kind : Disturbance} {data' : List Datagram}
    (hd : Disturbs Datagram.truncate kind w.data data') :
    Joint { w with data := data' } log known :=
  { h with data := hd.forall (fun _ => Carries.truncate) h.data }

theorem Joint.disturb_acks (h : Joint w log known) {kind : Disturbance} {acks' : List Datagram}
    (hd : Disturbs Datagram.truncate kind w.acks acks') :
    Joint { w with acks := acks' } log known :=
  { h with acks := hd.forall (fun _ => Acknowledges.truncate) h.acks }

/-! ## A turn of the sender -/

/-- What the sender hears, if it is anything, is a reply with the number `A`, and an ACK
    is not too late. -/
def Hears (env : SenderEnv) (st : SenderState) (base A : Nat) : Prop :=
  ∀ q, env.heard st = some q → q.seqnum = UInt8.ofNat A ∧ (q.type = ptypeAck → base ≤ A + 99)

theorem Hears.acked_le {env : SenderEnv} {st : SenderState} {log : SendLog} {A : Nat}
    (h : Hears env st log.acked A) (hle : A ≤ log.log.length) :
    (log.receive (env.heard st)).acked ≤ max log.acked A := by
  cases hq : env.heard st with
  | none => exact Nat.le_max_left _ _
  | some q =>
      by_cases htype : q.type = ptypeAck
      · obtain ⟨hseq, hfresh⟩ := h q hq
        exact Nat.le_of_eq (log.receive_acked htype hseq hle (hfresh htype))
      · rw [log.receive_of_not_ack htype]
        exact Nat.le_max_left _ _

/-- The datagrams a turn sends, each with its number: copies of packets from the
    window, and the empty packet of the end. -/
structure Numbered (base : Nat) (log : SendLog) (closed : Prop) (copies closing : List Datagram) :
    Prop where
  copies : ∀ d ∈ copies, base ≤ d.num ∧ d.num < log.log.length ∧ Carries log closed d
  closing : ∀ d ∈ closing, d.num = log.log.length ∧ Carries log closed d

/-- The number a copy of packet `k` gets is `k`. -/
theorem SendLog.Copy.carries {log : SendLog} {k : Nat} {d : Bytes} (h : log.Copy k d)
    {base : Nat} (hbase : base ≤ k) (hroom : log.log.length ≤ base + 31) (closed : Prop) :
    (Datagram.sent base d).num = k ∧ k < log.log.length ∧
      Carries log closed (Datagram.sent base d) := by
  obtain ⟨pkt, ts, hpkt, rfl⟩ := h
  obtain ⟨hk, hget⟩ := List.getElem?_eq_some_iff.mp hpkt
  have hnum : pkt.seqnum = UInt8.ofNat k := by
    rw [← hget]
    exact log.numbered k hk
  have hq := log.queued pkt (List.mem_of_getElem? hpkt)
  have hseq : (pkt.restamp ts).wire[3]? = some pkt.seqnum := Pkt.wire_seqnum hq.type
  have hsent : (Datagram.sent base (pkt.restamp ts).wire).num = k := by
    rw [Datagram.sent, List.getD_eq_getElem?_getD, hseq, Option.getD_some, hnum]
    exact absolute_ofNat hbase (by omega)
  refine ⟨hsent, hk, pkt.restamp ts, ⟨rfl, (hq.restamp ts).sized, ?_⟩, hq.type, Or.inl ⟨pkt, ?_, rfl⟩⟩
  · rw [hsent]
    exact hnum
  · rw [hsent]
    exact hpkt

/-- The number the empty packet gets is the next one. -/
theorem SendLog.Closes.carries {log : SendLog} {d : Bytes} (h : log.Closes d) {base : Nat}
    (hbase : base ≤ log.log.length) (hroom : log.log.length ≤ base + 31) {closed : Prop}
    (hclosed : closed) :
    (Datagram.sent base d).num = log.log.length ∧ Carries log closed (Datagram.sent base d) := by
  obtain ⟨-, pkt, window, ts, hbuilt, rfl⟩ := h
  have hlen : pkt.length.toNat = 0 := hbuilt.length
  have hseq : pkt.wire[3]? = some pkt.seqnum := Pkt.wire_seqnum hbuilt.type
  have hsent : (Datagram.sent base pkt.wire).num = log.log.length := by
    rw [Datagram.sent, List.getD_eq_getElem?_getD, hseq, Option.getD_some, hbuilt.seqnum]
    exact absolute_ofNat hbase (by omega)
  refine ⟨hsent, pkt, ⟨rfl, ⟨by omega, fun hne => absurd hbuilt.type hne⟩, ?_⟩, hbuilt.type,
    Or.inr ⟨hclosed, hsent, hbuilt.data⟩⟩
  rw [hsent]
  exact hbuilt.seqnum

/-- The log only grows, and what is not in the window is not in it any more. -/
theorem SendLog.Turn.grows {log mid : SendLog} {env : SenderEnv} {st : SenderState}
    {t : SenderTurn} {built : List Pkt} {reply : Option Pkt}
    (h : log.Turn env st t mid built reply) :
    (mid.receive reply).log = log.log ++ built ∧
      log.log.length ≤ (mid.receive reply).log.length ∧
      (mid.receive reply).log.length ≤ log.acked + 31 := by
  have hlog : (mid.receive reply).log = log.log ++ built :=
    (mid.receive_log reply).trans h.log
  refine ⟨hlog, ?_, ?_⟩
  · rw [hlog, List.length_append]
    omega
  · rw [mid.receive_log, ← h.acked]
    exact mid.room

theorem SendLog.Turn.numbered {log mid : SendLog} {env : SenderEnv} {st : SenderState}
    {t : SenderTurn} {built : List Pkt} {reply : Option Pkt}
    (h : log.Turn env st t mid built reply) {closed : Prop}
    (hclosed : t.stop = some .closed →
      (mid.receive reply).acked = (mid.receive reply).log.length → closed) :
    ∃ copies closing, t.sent.map (Datagram.sent log.acked) = copies ++ closing ∧
      Numbered log.acked (mid.receive reply) closed copies closing := by
  obtain ⟨-, hgrow, hroom⟩ := h.grows
  have hle := log.acked_le
  obtain ⟨copies, closing, hsent, hcopies, hclosing⟩ := h.sent
  refine ⟨copies.map (Datagram.sent log.acked), closing.map (Datagram.sent log.acked), ?_, ?_, ?_⟩
  · rw [hsent, List.map_append]
  · intro x hx
    obtain ⟨d, hd, rfl⟩ := List.mem_map.mp hx
    obtain ⟨k, hk, hcopy⟩ := (hcopies d hd).copy
    have hcopy' : (mid.receive reply).Copy k d :=
      hcopy.mono (by rw [mid.receive_log, List.append_nil])
    rw [h.acked] at hk
    obtain ⟨hnum, hlt, hcarries⟩ := hcopy'.carries hk hroom closed
    rw [hnum]
    exact ⟨hk, hlt, hcarries⟩
  · intro x hx
    obtain ⟨d, hd, rfl⟩ := List.mem_map.mp hx
    obtain ⟨hcloses, hstop, -⟩ := hclosing d hd
    -- nothing is outstanding when the empty packet is sent
    have hall : (mid.receive reply).acked = (mid.receive reply).log.length := by
      have hnil := (mid.receive reply).outstanding_length
      have hacked := (mid.receive reply).acked_le
      rw [hcloses.1, List.length_nil] at hnil
      omega
    exact hcloses.carries (Nat.le_trans hle hgrow) hroom (hclosed hstop hall)

/-- The step of the invariant for a turn of the sender. -/
theorem Joint.sends (h : Joint w log known) (hgo : w.senderStop = none) {env : SenderEnv}
    (hin : env.InputReads) {A : Nat} (hears : Hears env w.sender log.acked A) (hA : A ≤ w.delivered)
    {t : SenderTurn} (hturn : readWriteLoopSender env w.sender = .ok t) :
    ∃ (log' : SendLog) (copies closing : List Datagram), Joint (w.sends env t) log' known ∧
      (w.sends env t).data = w.data ++ (copies ++ closing) ∧
      Numbered log.acked log' ((w.sends env t).Closed log') copies closing ∧
      log.log.length ≤ log'.log.length ∧ log'.log.length ≤ log.acked + 31 ∧
      log'.acked ≤ max log.acked A := by
  obtain ⟨t', mid, built, reply, hturn', hstep, -⟩ :=
    readWriteLoopSender_spec (h.sender hgo) (hin.inputRead_ne w.sender)
  rw [hturn, Except.ok.injEq] at hturn'
  subst hturn'
  obtain ⟨hlog, hgrow, hroom⟩ := hstep.grows
  have hdel := h.delivered_le
  -- a number that was written by now was built by now, so the reply acknowledges no more
  have hacked : (mid.receive reply).acked ≤ max log.acked A := by
    have hmid : log.log.length ≤ mid.log.length := by
      rw [← mid.receive_log reply]
      exact hgrow
    rw [← hstep.acked] at hears ⊢
    rw [hstep.received]
    exact hears.acked_le (by omega)
  obtain ⟨copies, closing, hsent, hnumbered⟩ :=
    hstep.numbered fun hstop hall =>
      show (w.sends env t).Closed (mid.receive reply) from ⟨hstop, hall⟩
  have hdata : (w.sends env t).data = w.data ++ (copies ++ closing) := by
    rw [World.sends, h.acked_eq, hsent]
  refine ⟨mid.receive reply, copies, closing,
    ⟨h.toParties.sends hstep, ?_, ?_, ?_, Nat.le_trans hdel hgrow, ?_, h.acks,
      fun hstop => absurd (h.disconnect hstop).1 (not_closed hgo)⟩,
    hdata, hnumbered, hgrow, hroom, hacked⟩
  · -- the chunks only grow, so what the receiver knows stays true of them
    intro k x hx
    have hk := h.honest k x hx
    exact (List.getElem?_append_left (List.getElem?_eq_some_iff.mp hk).1).trans hk
  · have hchunks : w.delivered ≤ w.chunks.length := by
      rw [h.chunks, List.length_map]
      exact hdel
    exact h.written.trans (List.take_append_of_le_length hchunks).symm
  · exact Nat.le_trans hacked (Nat.max_le.mpr ⟨h.acked_le, hA⟩)
  · -- what was in flight is still a copy of a packet of the log
    intro x hx
    rw [hdata] at hx
    rcases List.mem_append.mp hx with hx | hx
    · obtain ⟨pkt, hspells, htype, ⟨p, hp, hsame⟩ | ⟨hc, -⟩⟩ := h.data x hx
      · refine ⟨pkt, hspells, htype, Or.inl ⟨p, ?_, hsame⟩⟩
        rw [hlog, List.getElem?_append_left (List.getElem?_eq_some_iff.mp hp).1]
        exact hp
      · exact absurd hc (not_closed hgo)
    · rcases List.mem_append.mp hx with hx | hx
      · exact (hnumbered.copies x hx).2.2
      · exact (hnumbered.closing x hx).2

/-! ## A turn of the receiver -/

/-- A DATA packet in flight is at most 30 ahead of the expected one. -/
theorem Joint.num_le (h : Joint w log known) {d : Datagram} (hd : Carries log (w.Closed log) d) :
    d.num ≤ w.delivered + 30 := by
  have hacked := h.acked_le
  have hroom := log.room
  obtain ⟨pkt, -, -, ⟨p, hp, -⟩ | ⟨hclosed, hnum, -⟩⟩ := hd
  · have hlt := (List.getElem?_eq_some_iff.mp hp).1
    omega
  · have hall := hclosed.2
    omega

/-- What the receiver hears is nothing. -/
theorem Joint.replies_none (h : Joint w log known) (hgo : w.receiverStop = none)
    {env : ReceiverEnv} (hinc : env.incoming w.receiver = none) {t : ReceiverTurn}
    (hturn : readWriteLoopServer env w.receiver = .ok t) :
    Joint (w.replies t) log known ∧ (w.replies t).delivered = w.delivered ∧
      (w.replies t).acks = w.acks := by
  rcases readWriteLoopServer_cases (h.receiver hgo) hturn with
    ⟨-, hrep, -, hwritten, hsent, hstop⟩ | ⟨q, hq, -⟩
  · have hdel : (w.replies t).delivered = w.delivered := by
      rw [World.replies_delivered, hwritten, List.length_nil, Nat.add_zero]
    have hacks : (w.replies t).acks = w.acks := by
      rw [World.replies, hsent, List.map_nil, List.append_nil]
    refine ⟨⟨h.toParties.replies_none hrep hwritten, h.honest, ?_, ?_, ?_, h.data, ?_, ?_⟩, hdel,
      hacks⟩
    · rw [hdel, World.replies, hwritten, List.append_nil]
      exact h.written
    · rw [hdel]
      exact h.acked_le
    · rw [hdel]
      exact h.delivered_le
    · rw [hdel, hacks]
      exact h.acks
    · intro hdisc
      have hst : (w.replies t).receiverStop = t.stop := rfl
      rw [hst] at hdisc
      rcases hstop with hs | hs | hs <;> rw [hs] at hdisc <;> simp at hdisc
  · rw [hinc] at hq
    exact absurd hq (by simp)

/-- What the run written in a turn is: the next chunks. -/
theorem Joint.written_step (h : Joint w log known) {q : Pkt} {xs : List Item}
    (hq : w.chunks[w.delivered]? = some q.data) (hrun : Run known (w.delivered + 1) xs) :
    w.chunks.take (w.delivered + (1 + xs.length)) =
        w.chunks.take w.delivered ++ (q.data :: xs.map Prod.fst) ∧
      w.delivered + (1 + xs.length) ≤ w.chunks.length := by
  have himage := hrun.image h.honest
  have hall : Run (fun k => w.chunks[k]?) w.delivered (q.data :: xs.map Prod.fst) := ⟨hq, himage⟩
  have htake := hall.take
  rw [List.length_cons, List.length_map, Nat.add_comm xs.length 1] at htake
  refine ⟨htake, ?_⟩
  have hlen := congrArg List.length htake
  have hpos := (List.getElem?_eq_some_iff.mp hq).1
  rw [List.length_append, List.length_take, List.length_take, List.length_cons,
    List.length_map] at hlen
  omega

/-- `q` is what the receiver makes of `d`. -/
structure Heard (w : World) (log : SendLog) (d : Datagram) (q : Pkt) : Prop where
  seqnum : q.seqnum = UInt8.ofNat d.num
  payload : q.tr = 0 → (∃ p, log.log[d.num]? = some p ∧ q.data = p.data) ∨
    w.Closed log ∧ d.num = log.log.length ∧ q.data = []
  ahead : d.num ≤ w.delivered + 30
  behind : w.delivered ≤ d.num + 223

/-- The payload of a DATA packet that is not empty is its chunk. -/
theorem Heard.chunk {d : Datagram} {q : Pkt} (hq : Heard w log d q) (h : Joint w log known)
    (htr : q.tr = 0) (hne : q.data ≠ []) : w.chunks[d.num]? = some q.data := by
  rcases hq.payload htr with ⟨p, hp, hsame⟩ | ⟨-, -, hnil⟩
  · rw [h.chunks, List.getElem?_map, hp, hsame]
    rfl
  · exact absurd hnil hne

/-- An empty packet is the one of the end, and the expected one. -/
theorem Heard.closed {d : Datagram} {q : Pkt} (hq : Heard w log d q) (h : Joint w log known)
    (htr : q.tr = 0) (hempty : q.data = []) :
    w.Closed log ∧ d.num = w.delivered ∧ w.delivered = log.log.length := by
  have hacked := h.acked_le
  have hle := h.delivered_le
  rcases hq.payload htr with ⟨p, hp, hsame⟩ | ⟨hclosed, hnum, -⟩
  · -- no chunk is empty
    have hnil : w.chunks[d.num]? = some [] := by
      rw [h.chunks, List.getElem?_map, hp, ← hempty, hsame]
      rfl
    exact absurd rfl (h.chunk_ne_nil hnil)
  · have hall := hclosed.2
    exact ⟨hclosed, by omega, by omega⟩

omit [Zlib] in
/-- The packet with the expected sequence number is the expected packet. -/
theorem Heard.distance_eq_zero {d : Datagram} {q : Pkt} (hq : Heard w log d q)
    (hrep : Represents w.receiver w.delivered known) :
    distance w.receiver.waitedSeqnum q.seqnum = 0 ↔ d.num = w.delivered := by
  have hahead := hq.ahead
  have hbehind := hq.behind
  rw [hrep.waited, hq.seqnum]
  by_cases hge : w.delivered ≤ d.num
  · rw [distance_ofNat hge (by omega)]
    omega
  · rw [distance_ofNat_back (Nat.lt_of_not_le hge) (by omega)]
    omega

/-- What is written when the receiver handles `q` continues the chunks. -/
theorem Heard.written {d : Datagram} {q : Pkt} (hq : Heard w log d q) (h : Joint w log known)
    (hgo : w.receiverStop = none) {env : ReceiverEnv} {t : ReceiverTurn}
    (heffect : Effect env w.receiver w.delivered known q t) :
    (w.written ++ t.written).map Prod.fst = w.chunks.take (w.delivered + t.written.length) ∧
      w.delivered + t.written.length ≤ w.chunks.length := by
  rw [List.map_append, h.written]
  rcases heffect.writes with hnil | ⟨xs, htr, hzero, hne, hrun, hwr⟩
  · rw [hnil, List.map_nil, List.append_nil]
    refine ⟨rfl, ?_⟩
    rw [h.chunks, List.length_map]
    exact h.delivered_le
  · -- the first of the payloads is the chunk that was expected
    have hat := hq.chunk h htr hne
    rw [(hq.distance_eq_zero (h.receiver hgo)).mp hzero] at hat
    obtain ⟨htake, hle⟩ := h.written_step hat hrun
    rw [hwr, env.writes_fst, env.writes_length, List.length_cons, List.length_map,
      Nat.add_comm xs.length 1]
    exact ⟨htake.symm, hle⟩

/-- What is known after the receiver has handled `q`; nothing is asked of it when the
    loop returned. -/
theorem Heard.learns {d : Datagram} {q : Pkt} (hq : Heard w log d q) (h : Joint w log known)
    (hgo : w.receiverStop = none) {env : ReceiverEnv} {t : ReceiverTurn}
    (heffect : Effect env w.receiver w.delivered known q t) :
    ∃ known', (t.stop = none → known' = arrive w.receiver w.delivered known q) ∧
      (∀ k x, known' k = some x → w.chunks[k]? = some x.1) ∧
      ∀ k x, known' k = some x → (∃ y, known k = some y) ∨ k = d.num := by
  have hrep := h.receiver hgo
  by_cases hstop : t.stop = none
  · refine ⟨_, fun _ => rfl, ?_⟩
    rcases bitVec1_cases q.tr with htr | htr
    · obtain ⟨-, harrive⟩ := hrep.arrive_near hq.ahead hq.behind htr hq.seqnum
      -- an empty packet would have ended the loop
      have hne : q.data ≠ [] := by
        intro hempty
        have hzero := (hq.distance_eq_zero hrep).mpr (hq.closed h htr hempty).2.1
        have hstop' := heffect.stop_of_empty htr hzero hempty
        rw [hstop] at hstop'
        exact absurd hstop' (by simp)
      rw [harrive]
      refine ⟨fun k x hx => ?_, fun k x hx => ?_⟩
      · by_cases hk : k = d.num
        · subst hk
          cases hold : known d.num with
          | some y =>
              -- a duplicate: the first copy is kept
              rw [accept_of_some hold] at hx
              exact h.honest _ x hx
          | none =>
              rw [accept_of_none hold, Function.update_self, Option.some.injEq] at hx
              rw [← hx]
              exact hq.chunk h htr hne
        · rw [accept_of_ne hk] at hx
          exact h.honest k x hx
      · by_cases hk : k = d.num
        · exact Or.inr hk
        · rw [accept_of_ne hk] at hx
          exact Or.inl ⟨x, hx⟩
    · -- nothing is learnt from a truncated packet
      rw [arrive, if_neg (fun hc => absurd (hc.1.symm.trans htr) (by decide))]
      exact ⟨h.honest, fun k x hx => Or.inl ⟨x, hx⟩⟩
  · exact ⟨known, fun hs => absurd hs hstop, h.honest, fun k x hx => Or.inl ⟨x, hx⟩⟩

/-- The replies carry the number of packets written. -/
theorem Effect.acknowledges {env : ReceiverEnv} {st : ReceiverState} {W : Nat} {q : Pkt}
    {t : ReceiverTurn} (heffect : Effect env st W known q t) :
    ∀ d ∈ t.sent, Acknowledges (W + t.written.length) { num := W + t.written.length, bytes := d } := by
  intro d hd
  refine ⟨Nat.le_refl _, ?_⟩
  rcases heffect.replies with hnil | ⟨type, hor, reply, ts, hreply, hsent⟩
  · rw [hnil] at hd
    exact absurd hd List.not_mem_nil
  · rw [hsent, List.mem_singleton] at hd
    refine ⟨reply, ⟨hd, hreply.sized, hreply.seqnum⟩, ?_⟩
    rw [hreply.type]
    exact hor.imp_right And.left

/-- The receiver returned for an empty packet: everything is written. -/
theorem Heard.disconnect {d : Datagram} {q : Pkt} (hq : Heard w log d q) (h : Joint w log known)
    {env : ReceiverEnv} {t : ReceiverTurn}
    (heffect : Effect env w.receiver w.delivered known q t)
    (hstop : t.stop = some .disconnect ∨ t.stop = some .storedDisconnect) :
    w.Closed log ∧ w.delivered + t.written.length = log.log.length := by
  have hreturns := heffect.returns
  rcases hstop with hstop | hstop
  · rw [hstop] at hreturns
    cases hreturns with
    | disconnect htr hempty hwritten =>
        obtain ⟨hclosed, -, hall⟩ := hq.closed h htr hempty
        refine ⟨hclosed, ?_⟩
        rw [hwritten, List.length_nil, Nat.add_zero, hall]
  · rw [hstop] at hreturns
    cases hreturns with
    | storedDisconnect hend =>
        -- no stored packet is empty
        exact absurd rfl (h.chunk_ne_nil (h.honest _ _ hend))

/-- What the receiver makes of a datagram in flight. -/
theorem Joint.heard (h : Joint w log known) {d : Datagram} (hd : Carries log (w.Closed log) d)
    (hguard : w.delivered ≤ d.num + 223) {env : ReceiverEnv}
    (hpoll : env.poll = .ready (.bytes d.bytes)) :
    ∃ q, env.incoming w.receiver = some q ∧ Heard w log d q := by
  have hahead := h.num_le hd
  obtain ⟨pkt, hspells, htype, hcase⟩ := hd
  obtain ⟨q, hinc, hseq, htr, hdata⟩ := hspells.incoming htype hpoll w.receiver
  refine ⟨q, hinc, hseq, fun hq => ?_, hahead, hguard⟩
  rw [hdata (htr.symm.trans hq)]
  exact hcase

/-- The step of the invariant for a turn of the receiver that takes the datagram `d`. -/
theorem Joint.replies (h : Joint w log known) (hgo : w.receiverStop = none) {d : Datagram}
    (hd : Carries log (w.Closed log) d) (hguard : w.delivered ≤ d.num + 223) {env : ReceiverEnv}
    (hpoll : env.poll = .ready (.bytes d.bytes)) {t : ReceiverTurn}
    (hturn : readWriteLoopServer env w.receiver = .ok t) :
    ∃ known' new, Joint (w.replies t) log known' ∧
      (∀ k x, known' k = some x → (∃ y, known k = some y) ∨ k = d.num) ∧
      (w.replies t).acks = w.acks ++ new ∧ ∀ a ∈ new, a.num = (w.replies t).delivered := by
  obtain ⟨q, hinc, hq⟩ := h.heard hd hguard hpoll
  rcases readWriteLoopServer_cases (h.receiver hgo) hturn with ⟨hnone, -⟩ | ⟨q', hinc', heffect⟩
  · rw [hinc] at hnone
    exact absurd hnone (by simp)
  rw [hinc, Option.some.injEq] at hinc'
  subst hinc'
  obtain ⟨known', hknown, hhonest, hsub⟩ := hq.learns h hgo heffect
  obtain ⟨hout, hle⟩ := hq.written h hgo heffect
  have hdel := w.replies_delivered t
  have hmono : w.delivered ≤ (w.replies t).delivered := by omega
  -- the new replies carry the number written after the turn, those in flight a lower one
  refine ⟨known', _, ⟨h.toParties.replies heffect hknown, hhonest, ?_, ?_, ?_, h.data, ?_, ?_⟩, hsub,
    rfl, ?_⟩
  · rw [hdel]
    exact hout
  · exact Nat.le_trans h.acked_le hmono
  · rw [hdel, ← h.built_eq]
    exact hle
  · intro a ha
    rcases List.mem_append.mp ha with ha | ha
    · obtain ⟨hnum, hpkt⟩ := h.acks a ha
      exact ⟨Nat.le_trans hnum hmono, hpkt⟩
    · obtain ⟨b, hb, rfl⟩ := List.mem_map.mp ha
      rw [List.length_append]
      exact hdel ▸ heffect.acknowledges b hb
  · rw [hdel]
    exact hq.disconnect h heffect
  · intro a ha
    obtain ⟨b, hb, rfl⟩ := List.mem_map.mp ha
    rfl

end

end SelectiveRepeat
