/-
  SelectiveRepeat.System.Echo

  Where the timestamps come from.  The sender stamps what it sends with its clock, a
  link cannot change a timestamp without the decoder noticing, and the receiver sends
  back what it got.  So what holds of every time the clock shows holds of every timestamp
  in the windows and in flight, over any link and however late a datagram arrives.
-/
import SelectiveRepeat.Receiver.Echo
import SelectiveRepeat.Sender.Blocks
import SelectiveRepeat.System.Parties

namespace SelectiveRepeat

open Channel Reassembly

/-! ## The datagrams -/

/-- The datagram is the encoding of a packet, DATA or a reply, with a timestamp of which `p`
    holds. -/
def Bears [Zlib] (p : UInt32 → Prop) (data : Prop) (d : Bytes) : Prop :=
  ∃ pkt : Pkt, d = pkt.wire ∧ pkt.Sized ∧ (pkt.type = ptypeData ↔ data) ∧ p pkt.timestamp

section
variable [Zlib] {p p' : UInt32 → Prop} {data : Prop} {d : Bytes}

theorem Bears.mono (h : Bears p data d) (hp : ∀ ts, p ts → p' ts) : Bears p' data d := by
  obtain ⟨pkt, hd, hs, htype, hts⟩ := h
  exact ⟨pkt, hd, hs, htype, hp _ hts⟩

/-- Truncation leaves the timestamp alone. -/
theorem Bears.truncate (h : Bears p data d) : Bears p data (truncate d) := by
  obtain ⟨pkt, rfl, hs, htype, hts⟩ := h
  exact ⟨pkt.truncated, truncate_wire hs, hs.truncated, htype, hts⟩

theorem Pkt.Queued.bears {pkt : Pkt} (hq : pkt.Queued) (hts : p pkt.timestamp) :
    Bears p True pkt.wire :=
  ⟨pkt, rfl, hq.sized, iff_true_intro hq.type, hts⟩

/-- What the receiver makes of a DATA datagram. -/
theorem Bears.incoming (h : Bears p True d) {env : ReceiverEnv} {st : ReceiverState}
    (hpoll : env.poll = .ready (.bytes d)) {q : Pkt} (hinc : env.incoming st = some q) :
    p q.timestamp := by
  obtain ⟨pkt, rfl, hs, htype, hts⟩ := h
  obtain ⟨q', hinc', hsame, -⟩ := ReceiverEnv.incoming_wire st hpoll hs (htype.mpr trivial)
  rw [hinc, Option.some.injEq] at hinc'
  rw [hinc', hsame.timestamp]
  exact hts

/-- What the sender makes of a reply, whatever was in its buffer. -/
theorem Bears.decoded (h : Bears p False d) (buf : Mem) (prior : Pkt) {status : PktStatusCode}
    {q : Pkt} (hdec : pktDecode ((ReadResult.bytes d).fill 12 buf) 12 prior = .ok (status, q)) :
    p q.timestamp := by
  obtain ⟨pkt, rfl, hs, htype, hts⟩ := h
  have hne : pkt.type ≠ ptypeData := fun hdata => htype.mp hdata
  have hlen : pkt.wire.length = 10 := by
    rw [pkt.wire_length_eq_size, Pkt.size, if_neg hne, hs.length_zero hne]
    simp
  have hmem : ((ReadResult.bytes pkt.wire).fill 12 buf).slice 0 pkt.wire.length = pkt.wire := by
    rw [ReadResult.fill, List.take_of_length_le (by omega)]
    exact Mem.slice_blit _ 0 pkt.wire
  obtain ⟨q', hdec', hsame, -⟩ :=
    pktDecode_wire hs hmem (show pkt.wire.length ≤ 12 by omega) (by decide) prior
  rw [hdec, Except.ok.injEq, Prod.mk.injEq] at hdec'
  rw [hdec'.2, hsame.timestamp]
  exact hts

theorem Answers.bears {sent : List Bytes} (h : Answers p sent) : ∀ d ∈ sent, Bears p False d := by
  intro d hd
  obtain ⟨pkt, type, seqnum, timestamp, htype, hreply, hp, rfl⟩ := h d hd
  refine ⟨pkt, rfl, hreply.sized, ?_, by rwa [hreply.timestamp]⟩
  rw [hreply.type]
  rcases htype with rfl | rfl <;> decide

end

/-! ## What the sender sends -/

section
variable [Zlib] {start : Int} {p : UInt32 → Prop} {env : SenderEnv} {st : SenderState}
  {t : SenderTurn} {log : SendLog}

/-- Everything a turn sends is DATA, stamped with a time the clock shows. -/
theorem Stamped.turn_bears (h : Stamped start p env st) (hr : Refines st log)
    (hin : env.InputReads) (hrun : readWriteLoopSender env st = .ok t) :
    ∀ d ∈ t.sent, Bears p True d := by
  obtain ⟨t', log', built, reply, hrun', hstep, -⟩ :=
    readWriteLoopSender_spec hr (hin.inputRead_ne st)
  rw [hrun, Except.ok.injEq] at hrun'
  subst hrun'
  obtain ⟨copies, closing, hsent, hcopies, hclosing⟩ := hstep.sent
  rw [hsent, List.forall_mem_append]
  refine ⟨fun d hd => ?_, fun d hd => ?_⟩
  · obtain ⟨k, pkt, site, -, hpkt, rfl⟩ := hcopies d hd
    have hqueued := (log'.queued pkt (List.mem_of_getElem? hpkt)).restamp (env.now site st)
    exact hqueued.bears (h.now site)
  · -- the empty packet
    obtain ⟨-, -, pkt, hbuilt, rfl⟩ := hclosing d hd
    have hlength : pkt.length.toNat = 0 := hbuilt.length
    refine ⟨pkt, rfl, ⟨by omega, fun hne => absurd hbuilt.type hne⟩, iff_true_intro hbuilt.type, ?_⟩
    rw [hbuilt.timestamp]
    exact h.now .close

end

/-! ## The system -/

/-- The sender's clock counts from `start`, and `p` holds of every timestamp in the windows of
    the running parties and in flight. -/
structure Echoes [Zlib] (start : Int) (p : UInt32 → Prop) (w : World) : Prop where
  begins : w.senderStop = none → w.sender.startingTimestamp = start
  sender : w.senderStop = none → ∀ i pkt, w.sender.window.window i = some pkt → p pkt.timestamp
  receiver : w.receiverStop = none → w.receiver.window.Stamped p
  data : ∀ d ∈ w.data, Bears p True d.bytes
  acks : ∀ d ∈ w.acks, Bears p False d.bytes

section
variable [Zlib] {start : Int} {p p' : UInt32 → Prop} {w w' : World} {log : SendLog}
  {known : Nat → Option Item}

theorem Echoes.mono (h : Echoes start p w) (hp : ∀ ts, p ts → p' ts) : Echoes start p' w where
  begins := h.begins
  sender := fun hgo i pkt hcell => hp _ (h.sender hgo i pkt hcell)
  receiver := fun hgo i elem hcell => hp _ (h.receiver hgo i elem hcell)
  data := fun d hd => (h.data d hd).mono hp
  acks := fun d hd => (h.acks d hd).mono hp

theorem echoes_start (buf : Mem) (logger : Logger) (statsFile : Bool) {mem : ReceiverMemory}
    (hnull : ∀ i, mem.window.window i = none) (statFile : Bool) :
    Echoes start p (World.start buf logger statsFile start mem statFile) where
  begins := fun _ => rfl
  sender := fun _ i pkt hcell =>
    absurd hcell (by simp [World.start, senderInit, Queue.newList])
  receiver := by
    have hrep := (receiverInit_tracks mem statFile hnull).represents
    exact fun _ => hrep.stamped fun k x _ hx => absurd hx (by simp)
  data := fun d hd => absurd hd List.not_mem_nil
  acks := fun d hd => absurd hd List.not_mem_nil

theorem Echoes.take_data (h : Echoes start p w) {d : Datagram} {data' : List Datagram}
    (hdata : w.data = d :: data') :
    Bears p True d.bytes ∧ Echoes start p { w with data := data' } := by
  have hall := h.data
  rw [hdata, List.forall_mem_cons] at hall
  exact ⟨hall.1, { h with data := hall.2 }⟩

theorem Echoes.take_ack (h : Echoes start p w) {d : Datagram} {acks' : List Datagram}
    (hacks : w.acks = d :: acks') :
    Bears p False d.bytes ∧ Echoes start p { w with acks := acks' } := by
  have hall := h.acks
  rw [hacks, List.forall_mem_cons] at hall
  exact ⟨hall.1, { h with acks := hall.2 }⟩

/-- A turn of the sender, in which the clock shows such times. -/
theorem Echoes.sends (h : Echoes start p w) (hparties : Parties w log known)
    (hgo : w.senderStop = none) {env : SenderEnv} (hin : env.InputReads)
    (hclock : ∀ site, p (currentTimestamp (env.milliseconds site) start)) {t : SenderTurn}
    (hturn : readWriteLoopSender env w.sender = .ok t) : Echoes start p (w.sends env t) := by
  have hs : Stamped start p env w.sender := ⟨h.begins hgo, hclock, h.sender hgo⟩
  refine
    { begins := fun hgo' => (hs.turn hturn hgo').begins
      sender := fun hgo' => (hs.turn hturn hgo').cells
      receiver := h.receiver
      data := ?_
      acks := h.acks }
  rw [World.sends, List.forall_mem_append, List.forall_mem_map]
  exact ⟨h.data, hs.turn_bears (hparties.sender hgo) hin hturn⟩

/-- The window after a packet came in. -/
theorem Effect.stamped {env : ReceiverEnv} {st : ReceiverState} {W : Nat} {q : Pkt}
    {t : ReceiverTurn} (heffect : Effect env st W known q t) (hrep : Represents st W known)
    (hwindow : st.window.Stamped p) (hq : p q.timestamp) (hgo : t.stop = none) :
    t.state.window.Stamped p := by
  refine (heffect.represents hgo).stamped fun k x hk hx => ?_
  rw [arrive] at hx
  split at hx
  · rcases accept_cases hx with hx | rfl
    · exact hrep.known_stamped hwindow (by omega) hx
    · exact hq
  · exact hrep.known_stamped hwindow (by omega) hx

/-- A turn of the receiver, in which such a timestamp arrives, if any. -/
theorem Echoes.replies (h : Echoes start p w) (hparties : Parties w log known)
    (hgo : w.receiverStop = none) {env : ReceiverEnv}
    (hinc : ∀ q, env.incoming w.receiver = some q → p q.timestamp) {t : ReceiverTurn}
    (hturn : readWriteLoopServer env w.receiver = .ok t) : Echoes start p (w.replies t) := by
  have hrep := hparties.receiver hgo
  refine
    { begins := h.begins
      sender := h.sender
      receiver := fun hgo' => ?_
      data := h.data
      acks := ?_ }
  · rcases readWriteLoopServer_cases hrep hturn with ⟨-, hrep', -⟩ | ⟨q, hq, heffect⟩
    · exact hrep'.stamped fun k x hk hx => hrep.known_stamped (h.receiver hgo) hk hx
    · exact heffect.stamped hrep (h.receiver hgo) (hinc q hq) hgo'
  · rw [World.replies, List.forall_mem_append, List.forall_mem_map]
    have hsent := readWriteLoopServer_answers (h.receiver hgo) hrep.ackSize hinc hturn
    exact ⟨h.acks, hsent.bears⟩

/-- What one step preserves, when the clock shows such times in a turn of the sender. -/
theorem Echoes.step (h : Echoes start p w) (hparties : Parties w log known) {e : Event}
    (hclock : ∀ env r, e = .sender env r →
      ∀ site, p (currentTimestamp (env.milliseconds site) start))
    (hstep : Step w e w') : Echoes start p w' := by
  -- the parties do not see what is in flight
  have hlink (data' acks' : List Datagram) :
      Parties { w with data := data', acks := acks' } log known :=
    ⟨hparties.chunks, hparties.window, hparties.sender, hparties.receiver⟩
  cases hstep with
  | data hd => exact { h with data := hd.forall (fun _ => Bears.truncate) h.data }
  | acks hd => exact { h with acks := hd.forall (fun _ => Bears.truncate) h.acks }
  | sender hgo hin _ hturn => exact h.sends hparties hgo hin (hclock _ _ rfl) hturn
  | senderReceives hgo hin hacks _ hturn =>
      exact (h.take_ack hacks).2.sends (hlink w.data _) hgo hin (hclock _ _ rfl) hturn
  | receiver hgo hinc hturn =>
      refine h.replies hparties hgo (fun q hq => ?_) hturn
      rw [hinc] at hq
      cases hq
  | receiverReceives hgo hdata hpoll hturn =>
      obtain ⟨hd, hrest⟩ := h.take_data hdata
      exact hrest.replies (hlink _ w.acks) hgo (fun q hq => hd.incoming hpoll hq) hturn

end

end SelectiveRepeat
