/-
  SelectiveRepeat.System.Progress

  No state of a run is a dead end.  Whatever is in flight can be lost; then the
  oldest packet of the window times out, and one exchange of a copy of it and an ACK
  takes packets out of the window.  When none is left, the sender reads on, since
  its sending window is never empty, and closes the connection at the end of the
  input.  Only a packet stamped at one instant in 2^32 is never sent again.
-/
import SelectiveRepeat.Sender.Blocks
import SelectiveRepeat.Sender.Clock
import SelectiveRepeat.System.Recover

namespace SelectiveRepeat

open Channel Reassembly

/-! ## The sending window stays open -/

/-- An ACK or a NACK with the window the receiver puts in each of them. -/
def Datagram.Advertises [Zlib] (d : Datagram) : Prop :=
  ∃ pkt, d.Spells pkt ∧ pkt.type ≠ ptypeData ∧ pkt.window = 31

/-- The sender may have a packet outstanding, and what is on its way to it says so too. -/
structure World.Open [Zlib] (w : World) : Prop where
  sender : w.senderStop = none → 0 < w.sender.sendingWindowSize
  acks : ∀ d ∈ w.acks, d.Advertises

section
variable [Zlib] {w w' : World} {log : SendLog} {known : Nat → Option Item}

theorem Datagram.Advertises.truncate {d : Datagram} (h : d.Advertises) : d.truncate.Advertises := by
  obtain ⟨pkt, hspells, htype, hwindow⟩ := h
  exact ⟨pkt.truncated, hspells.truncate, htype, hwindow⟩

/-- The window of an ACK that is heard is not empty. -/
theorem Datagram.Advertises.heard {d : Datagram} (h : d.Advertises) {env : SenderEnv}
    (hsocket : env.socket = some (.bytes d.bytes)) {st : SenderState} {q : Pkt}
    (hq : env.heard st = some q) : q.window ≠ 0 := by
  obtain ⟨pkt, hspells, htype, hwindow⟩ := h
  obtain ⟨buf, hreply⟩ := SenderEnv.exists_reply hq
  obtain ⟨q', hreply', -, -, hsame⟩ := hspells.reply htype hsocket buf
  rw [hreply, Option.some.injEq] at hreply'
  subst hreply'
  rw [hsame, hwindow]
  decide

/-- The replies of a turn of the receiver. -/
theorem Parties.advertises (hp : Parties w log known) (hgo : w.receiverStop = none)
    {env : ReceiverEnv} {t : ReceiverTurn} (hturn : readWriteLoopServer env w.receiver = .ok t) :
    ∀ d ∈ t.sent, Datagram.Advertises
      { num := (w.written ++ t.written).length, bytes := d } := by
  intro d hd
  rcases readWriteLoopServer_cases (hp.receiver hgo) hturn with
    ⟨-, -, -, -, hsent, -⟩ | ⟨q, -, heffect⟩
  · rw [hsent] at hd
    exact absurd hd List.not_mem_nil
  · rcases heffect.replies with hnil | ⟨type, hor, reply, ts, hreply, hsent⟩
    · rw [hnil] at hd
      exact absurd hd List.not_mem_nil
    · rw [hsent, List.mem_singleton] at hd
      refine ⟨reply, ⟨hd, hreply.sized, ?_⟩, ?_, hreply.window⟩
      · rw [List.length_append]
        exact hreply.seqnum
      · rw [hreply.type]
        rcases hor with hack | ⟨hnack, -⟩
        · rw [hack]
          decide
        · rw [hnack]
          decide

theorem World.Open.replies (h : w.Open) (hp : Parties w log known) (hgo : w.receiverStop = none)
    {env : ReceiverEnv} {t : ReceiverTurn} (hturn : readWriteLoopServer env w.receiver = .ok t) :
    (w.replies t).Open := by
  refine ⟨h.sender, ?_⟩
  rw [World.replies, List.forall_mem_append, List.forall_mem_map]
  exact ⟨h.acks, hp.advertises hgo hturn⟩

/-- What one step preserves. -/
theorem World.Open.step (h : w.Open) (hp : Parties w log known) {e : Event}
    (hstep : Step w e w') : w'.Open := by
  cases hstep with
  | data => exact ⟨h.sender, h.acks⟩
  | acks hd => exact ⟨h.sender, hd.forall (fun _ => Datagram.Advertises.truncate) h.acks⟩
  | sender hgo _ hnone hturn =>
      refine ⟨readWriteLoopSender_open (h.sender hgo) (fun q hq => ?_) hturn, h.acks⟩
      rw [hnone] at hq
      exact absurd hq (by simp)
  | senderReceives hgo _ hacks hsocket hturn =>
      have hall := h.acks
      rw [hacks, List.forall_mem_cons] at hall
      exact ⟨readWriteLoopSender_open (h.sender hgo) (fun q hq _ => hall.1.heard hsocket hq) hturn,
        hall.2⟩
  | receiver hgo _ hturn => exact h.replies hp hgo hturn
  | @receiverReceives env t d data' hgo _ _ hturn =>
      have hrest : World.Open { w with data := data' } := ⟨h.sender, h.acks⟩
      exact hrest.replies ⟨hp.chunks, hp.window, hp.sender, hp.receiver⟩ hgo hturn

theorem reachable_open {allowed : World → Event → Prop} (h : Reachable allowed w) : w.Open := by
  have hboth : (∃ log known, Parties w log known) ∧ w.Open := by
    refine h.invariant (fun w => (∃ log known, Parties w log known) ∧ w.Open) ?_ ?_
    · intro buf logger statsFile clock mem statFile hnull
      exact ⟨⟨_, _, parties_start buf logger statsFile clock hnull statFile⟩,
        fun _ => (by decide : (0 : UInt8) < 1), fun d hd => absurd hd List.not_mem_nil⟩
    · rintro w e w' ⟨⟨log, known, hp⟩, hopen⟩ - hstep
      exact ⟨hp.step hstep, hopen.step hp hstep⟩
  exact hboth.2

/-- With room in the window, what the input brings is read and, unless it is the end, sent. -/
theorem Refines.reads {st : SenderState} (hr : Refines st log)
    (hroom : st.pktInWindow < st.sendingWindowSize) {env : SenderEnv} {data : Bytes}
    (hinput : env.input = some (.bytes data)) :
    ∃ t, inputBranch env st = .ok t ∧ t.state.nb = (data.take MAX_PAYLOAD_SIZE).length ∧
      (data ≠ [] → ∃ pkt : Pkt, pkt.data = data.take MAX_PAYLOAD_SIZE ∧ t.sent = [pkt.wire]) := by
  by_cases hne : data.take MAX_PAYLOAD_SIZE = []
  · have hend : data = [] := (List.take_eq_nil_iff.mp hne).resolve_left (by decide)
    subst hend
    have hrun : inputBranch env st = .ok { state := { st with nb := 0 } } := by
      simp only [inputBranch, hinput, if_pos hroom]
      rfl
    exact ⟨_, hrun, rfl, fun hdata => absurd rfl hdata⟩
  · obtain ⟨pkt, buf, hbuilt, hrun⟩ := inputBranch_send hinput hroom hr.windowSize hne
    refine ⟨_, hrun, ?_, fun _ => ⟨pkt, hbuilt.data, ?_⟩⟩
    · split <;> rfl
    · split <;> rfl

/-- The sender's window never closes.  In every run over any link, as long as the sender is
    running, its sending window is between 1 and 31, whatever ACKs and NACKs have done to
    it; and when everything is acknowledged, the next turn reads the input if it is ready, and
    sends what it has read. -/
theorem reachable_window_open {allowed : World → Event → Prop} (h : Reachable allowed w)
    (hgo : w.senderStop = none) :
    (1 ≤ w.sender.sendingWindowSize.toNat ∧ w.sender.sendingWindowSize.toNat ≤ 31) ∧
      (w.acked = w.built → ∀ env : SenderEnv, env.pollFails = false →
        env.inputRead w.sender = env.input ∧
        ∀ data, env.input = some (.bytes data) → ∃ t, inputBranch env w.sender = .ok t ∧
          t.state.nb = (data.take MAX_PAYLOAD_SIZE).length ∧
          (data ≠ [] →
            ∃ pkt : Pkt, pkt.data = data.take MAX_PAYLOAD_SIZE ∧ t.sent = [pkt.wire])) := by
  obtain ⟨log, known, hp⟩ := reachable_parties h
  have hr := hp.sender hgo
  have hopen := (reachable_open h).sender hgo
  refine ⟨⟨uint8_pos_iff.mp hopen, hr.windowSize⟩, fun hall env hpoll => ?_⟩
  -- nothing is counted in the window, so there is room
  have hcount := hr.count
  rw [log.outstanding_length, ← hp.built_eq, ← hp.acked_eq, hall, Nat.sub_self] at hcount
  have hroom : w.sender.pktInWindow < w.sender.sendingWindowSize := by
    rw [UInt8.lt_iff_toNat_lt, hcount]
    exact uint8_pos_iff.mp hopen
  refine ⟨?_, fun data hinput => hr.reads hroom hinput⟩
  simp only [SenderEnv.inputRead, hpoll, Bool.false_eq_true, if_false, if_pos hroom]

end

/-- The ACK of the only packet was taken; what is read next is sent. -/
theorem reachable_window_open_acked : letI := zlib
    ∃ w : World, w.chunks = [[7]] ∧ w.acked = 1 ∧
      (1 ≤ w.sender.sendingWindowSize.toNat ∧ w.sender.sendingWindowSize.toNat ≤ 31) ∧
      ∃ (t : SenderTurn) (pkt : Pkt), inputBranch (inputEnv [8]) w.sender = .ok t ∧
        pkt.data = [8] ∧ t.sent = [pkt.wire] := by
  let _ := zlib
  obtain ⟨w₁, w₂, w, d, a, hstep₁, hstep₂, hstep₃, h⟩ := exists_acked_steps
  have hstart : Reachable (fun _ _ => True)
      (World.start (fun _ => 0) default true 0 nullMemory false) :=
    ⟨_, _, _, _, _, _, fun _ => rfl, Relation.ReflTransGen.refl⟩
  have hreach : Reachable (fun _ _ => True) w :=
    ((hstart.step trivial hstep₁).step trivial hstep₂).step trivial hstep₃
  obtain ⟨hsize, hreads⟩ := reachable_window_open hreach h.sender
  obtain ⟨t, hrun, -, hsends⟩ := (hreads h.acked (inputEnv [8]) rfl).2 [8] rfl
  obtain ⟨pkt, hdata, hsent⟩ := hsends (by simp)
  refine ⟨w, h.chunks, ?_, hsize, t, pkt, hrun, hdata, hsent⟩
  rw [h.acked, World.built, h.chunks]
  rfl

/-! ## Losing what is in flight -/

/-- The clock of the sender shows at least `late`. -/
def After (late : Int) : Event → Prop
  | .sender env _ => ∀ site, late ≤ env.milliseconds site
  | _ => True

/-- What the continuations below are made of: what all the networks allow, and not before
    `late`. -/
def Continues (late : Int) (w : World) (e : Event) : Prop := Orderly w e ∧ After late e

section
variable [Zlib] {w w' : World} {log : SendLog} {known : Nat → Option Item} {late : Int}

theorem Steps.one {allowed : World → Event → Prop} {e : Event} (he : allowed w e)
    (hstep : Step w e w') : Steps allowed w w' :=
  Relation.ReflTransGen.single ⟨e, he, hstep⟩

theorem steps_lose_data (w : World) {data' : List Datagram} (h : data'.Sublist w.data) :
    Steps (Continues late) w { w with data := data' } := by
  have hone (c c' : List Datagram) (hd : Disturbs Datagram.truncate .lose c c') :
      ∃ e, Continues late { w with data := c } e ∧
        Step { w with data := c } e { w with data := c' } :=
    ⟨.data .lose, ⟨⟨⟨trivial, trivial⟩, fun hkind => Disturbance.noConfusion hkind⟩, trivial⟩,
      .data hd⟩
  exact Relation.ReflTransGen.lift (p := fun w w' => ∃ e, Continues late w e ∧ Step w e w')
    (fun c => { w with data := c }) hone _ _ (loses_of_sublist h)

theorem steps_lose_acks (w : World) {acks' : List Datagram} (h : acks'.Sublist w.acks) :
    Steps (Continues late) w { w with acks := acks' } := by
  have hone (c c' : List Datagram) (hd : Disturbs Datagram.truncate .lose c c') :
      ∃ e, Continues late { w with acks := c } e ∧
        Step { w with acks := c } e { w with acks := c' } :=
    ⟨.acks .lose, ⟨⟨⟨trivial, trivial⟩, fun hkind => Disturbance.noConfusion hkind⟩, trivial⟩,
      .acks hd⟩
  exact Relation.ReflTransGen.lift (p := fun w w' => ∃ e, Continues late w e ∧ Step w e w')
    (fun c => { w with acks := c }) hone _ _ (loses_of_sublist h)

/-- Everything in flight is lost. -/
theorem steps_lose_all (w : World) : Steps (Continues late) w { w with data := [], acks := [] } :=
  Relation.ReflTransGen.trans (steps_lose_data w (List.nil_sublist _))
    (steps_lose_acks { w with data := [] } (List.nil_sublist _))

/-! ## The timeout -/

/-- Some time of the clock finds the packet timed out. -/
def Pkt.Expires (pkt : Pkt) : Prop := ∃ clock_time, timedOut pkt clock_time = true

omit [Zlib] in
/-- There is one instant in 2^32 that no time comes after. -/
theorem Pkt.expires_iff {pkt : Pkt} : pkt.Expires ↔ pkt.timestamp ≠ 4294967235 := by
  have hstamp := pkt.timestamp.toNat_lt
  have hbad : (4294967235 : UInt32).toNat = 4294967235 := rfl
  refine ⟨?_, fun hne => ⟨4294967295, ?_⟩⟩
  · rintro ⟨clock_time, hout⟩ heq
    have hclock := clock_time.toNat_lt
    rw [timedOut_toNat, heq, hbad] at hout
    omega
  · have hmax : (4294967295 : UInt32).toNat = 4294967295 := rfl
    rw [Ne, ← UInt32.toNat_inj, hbad] at hne
    rw [timedOut_toNat, hmax]
    omega

omit [Zlib] in
/-- The last time before the counter wraps finds every such packet timed out. -/
theorem Pkt.Expires.timedOut {pkt : Pkt} (h : pkt.Expires) :
    timedOut pkt 4294967295 = true := by
  obtain ⟨clock_time, hout⟩ := h
  have hclock := clock_time.toNat_lt
  have hmax : (4294967295 : UInt32).toNat = 4294967295 := rfl
  rw [timedOut_toNat] at hout ⊢
  omega

omit [Zlib] in
/-- The clock shows it again and again. -/
theorem exists_late (late start : Int) :
    ∃ ms, late ≤ ms ∧ currentTimestamp ms start = 4294967295 := by
  refine ⟨start + 4294967295 + 4294967296 * (late - start).toNat, by omega, ?_⟩
  have hread := currentTimestamp_toNat
    (start + 4294967295 + 4294967296 * (late - start).toNat) start
  have hmax : (4294967295 : UInt32).toNat = 4294967295 := rfl
  rw [← UInt32.toNat_inj, hmax]
  omega

/-- Every packet of the window can time out. -/
def World.Expires (w : World) : Prop :=
  ∀ i pkt, w.sender.window.window i = some pkt → pkt.Expires

/-- Every turn in which the clock shows that time keeps it so. -/
theorem Stamped.expires {env : SenderEnv} {st : SenderState}
    (hcells : ∀ i pkt, st.window.window i = some pkt → pkt.Expires)
    {t : SenderTurn} (hturn : readWriteLoopSender env st = .ok t) (hgo : t.stop = none)
    (hclock : ∀ site, env.now site st = 4294967295) :
    ∀ i pkt, t.state.window.window i = some pkt → pkt.Expires := by
  have hstamped : Stamped st.startingTimestamp (· ≠ 4294967235) env st := by
    refine ⟨rfl, fun site => ?_, fun i pkt hcell => Pkt.expires_iff.mp (hcells i pkt hcell)⟩
    have hnow : env.now site st ≠ 4294967235 := by
      rw [hclock site]
      decide
    exact hnow
  exact fun i pkt hcell => Pkt.expires_iff.mpr ((hstamped.turn hturn hgo).cells i pkt hcell)

/-! ## One exchange -/

/-- Both parties run, and every packet of the window can be sent again. -/
structure World.Resumable (w : World) : Prop where
  reachable : Reachable Fresh w
  sender : w.senderStop = none
  receiver : w.receiverStop = none
  expires : w.Expires

/-- A copy of the oldest packet of the window, whatever its timestamp, with its number. -/
def World.CopyOfOldest (w : World) (d : Datagram) : Prop :=
  ∃ pkt l ts, w.sender.window.Holds (pkt :: l) ∧ d = Datagram.sent w.acked (pkt.restamp ts).wire

theorem Reachable.continues (h : Reachable Fresh w) (hsteps : Steps (Continues late) w w') :
    Reachable Fresh w' :=
  h.steps (hsteps.mono fun _ _ he => he.1.1.1)

/-- A pass starts with the oldest packet, and sends it when it has timed out. -/
theorem rescan_oldest {clock_time : UInt32} {now : Nat → UInt32} {head : UInt8} {pkt : Pkt}
    {l : List Pkt} (hlen : (pkt :: l).length ≤ 31) (hout : timedOut pkt clock_time = true) :
    ∃ pkt' l' ts,
      (rescan clock_time now 0 (visited head (pkt :: l).length) (pkt :: l)).1 = pkt' :: l' ∧
      (pkt'.restamp ts).wire ∈
        (rescan clock_time now 0 (visited head (pkt :: l).length) (pkt :: l)).2 := by
  have hfirst : 0 ∈ visited head (pkt :: l).length :=
    (mem_visited hlen (Nat.succ_pos _)).mpr (Or.inl rfl)
  have hnodup := visited_nodup head (pkt :: l).length
  generalize visited head (pkt :: l).length = places at *
  obtain ⟨ts, hsent⟩ : ∃ ts, (pkt.restamp ts).wire ∈ (rescan clock_time now 0 places (pkt :: l)).2 :=
    rescan_complete hnodup hfirst List.getElem?_cons_zero hout
  have hscan : SameButTimestamp (pkt :: l) (rescan clock_time now 0 places (pkt :: l)).1 :=
    rescan_same 0 places (pkt :: l)
  generalize rescan clock_time now 0 places (pkt :: l) = pass at *
  obtain ⟨left, sent⟩ := pass
  cases hscan with
  | cons hd htl =>
      obtain ⟨ts', rfl⟩ := hd
      exact ⟨pkt.restamp ts', _, ts, rfl, hsent⟩

/-- A turn with nothing to read sends the oldest packet again, when it has timed out. -/
theorem Refines.resends {st : SenderState} (hr : Refines st log) (hlt : log.acked < log.log.length)
    (hexp : ∀ i pkt, st.window.window i = some pkt → pkt.Expires) {ms : Int}
    (hms : currentTimestamp ms st.startingTimestamp = 4294967295) :
    ∃ t pkt l ts, readWriteLoopSender (quietEnv ms) st = .ok t ∧ t.stop = none ∧
      t.state.window.size = st.window.size ∧ t.state.window.Holds (pkt :: l) ∧
      (pkt.restamp ts).wire ∈ t.sent := by
  obtain ⟨l, hl, hsame⟩ := hr.holds
  have hlen := hsame.length_eq
  rw [log.outstanding_length] at hlen
  obtain ⟨buf, window', lg, hholds, -, hrun⟩ := checkRt_spec (quietEnv ms) hl
    (log.outstanding_consecutive.congr hsame.seqnums) (hsame.queued log.outstanding_queued)
  cases l with
  | nil => exact absurd hlen (by rw [List.length_nil]; omega)
  | cons pkt l =>
      rw [if_neg (List.cons_ne_nil pkt l)] at hholds hrun
      have hnow : (quietEnv ms).now .check st = 4294967295 := hms
      have hout : timedOut pkt ((quietEnv ms).now .check st) = true := by
        rw [hnow]
        exact (hexp _ _ (hl.cell (Nat.succ_pos _))).timedOut
      have hsize : window'.size = st.window.size := by
        rw [hholds.size, hl.size, ← (rescan_same _ _ _).length_eq]
      obtain ⟨pkt', l', ts, hleft, hsent⟩ := rescan_oldest hl.length_le hout
      rw [hleft] at hholds
      -- the window holds packets, so this is not the end of the transfer
      have hclose : ¬ (st.nb = 0 ∧ st.pktInWindow = 0) := by
        rintro ⟨-, hzero⟩
        have hcount := hr.count
        have hz : (0 : UInt8).toNat = 0 := rfl
        rw [hzero, log.outstanding_length] at hcount
        omega
      have h₁ : inputBranch (quietEnv ms) st = .ok { state := st } := rfl
      have h₂ : socketBranch (quietEnv ms) st = .ok { state := st } := rfl
      have hturn := readWriteLoopSender_of_go rfl h₁ rfl h₂ rfl hrun rfl
        (by rw [closeBranch, if_neg hclose])
      refine ⟨_, pkt', l', ts, hturn, rfl, hsize, hholds, ?_⟩
      rw [List.append_nil]
      exact hsent

/-- Everything in flight can be lost. -/
theorem World.Resumable.loses (h : w.Resumable) (late : Int) :
    ∃ w', Steps (Continues late) w w' ∧ w'.Resumable ∧ w'.chunks = w.chunks ∧
      w'.acked = w.acked ∧ w'.data = [] ∧ w'.acks = [] := by
  have hsteps : Steps (Continues late) w { w with data := [], acks := [] } := steps_lose_all w
  exact ⟨_, hsteps, ⟨h.reachable.continues hsteps, h.sender, h.receiver, h.expires⟩, rfl, rfl, rfl,
    rfl⟩

omit [Zlib] in
/-- After a turn of the sender that reads no chunk. -/
theorem World.sends_acked {env : SenderEnv} (hread : env.chunkRead w.sender = []) (t : SenderTurn) :
    (w.sends env t).chunks = w.chunks ∧
      (w.sends env t).acked = w.built - t.state.window.size.toNat := by
  have hchunks : (w.sends env t).chunks = w.chunks := by
    rw [World.sends, hread, List.append_nil]
  refine ⟨hchunks, ?_⟩
  rw [World.acked, hchunks]
  rfl

/-- The timeout: a copy of the oldest packet is sent, and the other copies are lost. -/
theorem World.Resumable.resends (h : w.Resumable) (hlt : w.acked < w.built) (hdata : w.data = [])
    (hacks : w.acks = []) (late : Int) :
    ∃ w' d, Steps (Continues late) w w' ∧ w'.Resumable ∧ w'.chunks = w.chunks ∧
      w'.acked = w.acked ∧ w'.CopyOfOldest d ∧ w'.data = [d] ∧ w'.acks = [] := by
  obtain ⟨log, known, hj⟩ := reachable_joint h.reachable
  obtain ⟨ms, hlate, hms⟩ := exists_late late w.sender.startingTimestamp
  obtain ⟨t, pkt, l, ts, hturn, hgo, hsize, hholds, hsent⟩ :=
    (hj.sender h.sender).resends (hj.acked_eq ▸ hj.built_eq ▸ hlt) h.expires hms
  have hstep : Step w (.sender (quietEnv ms) none) (w.sends (quietEnv ms) t) :=
    .sender h.sender (fun r hr => absurd hr (by simp [quietEnv]))
      ((quietEnv ms).heard_of_silent rfl w.sender) hturn
  have hread : (quietEnv ms).chunkRead w.sender = [] := rfl
  obtain ⟨hchunks, hacked⟩ := w.sends_acked hread t
  rw [hsize] at hacked
  have hcopy : [Datagram.sent w.acked (pkt.restamp ts).wire].Sublist
      (w.sends (quietEnv ms) t).data := by
    rw [List.singleton_sublist, World.sends, hdata]
    exact List.mem_map_of_mem hsent
  have hallowed : Continues late w (.sender (quietEnv ms) none) :=
    ⟨⟨⟨trivial, trivial⟩, trivial⟩, fun _ => hlate⟩
  have hsteps : Steps (Continues late) w { w.sends (quietEnv ms) t with
      data := [Datagram.sent w.acked (pkt.restamp ts).wire] } :=
    (Steps.one hallowed hstep).trans (steps_lose_data _ hcopy)
  have hexpires : ∀ i pkt, t.state.window.window i = some pkt → pkt.Expires :=
    Stamped.expires h.expires hturn hgo fun _ => hms
  refine ⟨_, _, hsteps, ⟨h.reachable.continues hsteps, hgo, h.receiver, hexpires⟩, hchunks, hacked,
    ⟨pkt, l, ts, hholds, ?_⟩, rfl, hacks⟩
  exact congrArg (Datagram.sent · _) hacked.symm

/-- A copy of the oldest packet of the window is one of the packet of the log. -/
theorem Parties.copy_oldest (hp : Parties w log known) {d : Datagram} (hd : w.CopyOfOldest d) :
    log.Copy log.acked d.bytes ∧ d = Datagram.sent log.acked d.bytes := by
  obtain ⟨pkt, l, ts, hl, rfl⟩ := hd
  obtain ⟨l', hl', hsame⟩ := hp.window
  rw [hl'.unique hl] at hsame
  obtain ⟨pkt₀, ts₀, hpkt₀, rfl⟩ := hsame.getElem? (j := 0) List.getElem?_cons_zero
  rw [SendLog.outstanding, List.getElem?_drop, Nat.add_zero] at hpkt₀
  rw [hp.acked_eq]
  exact ⟨⟨pkt₀, ts, hpkt₀, rfl⟩, rfl⟩

/-- The receiver returns for no datagram it answers, since it can send. -/
theorem Effect.goes_on_of_sent {env : ReceiverEnv} {st : ReceiverState} {W : Nat} {q : Pkt}
    {t : ReceiverTurn} (heffect : Effect env st W known q t) (hsend : env.send ≠ 0)
    (hsent : t.sent ≠ []) : t.stop = none := by
  have hgo (hstop : GoesOn env t) : t.stop = none :=
    hstop.resolve_right fun hfail => hsend hfail.2
  cases heffect with
  | truncated _ _ _ _ _ hstop | ignored _ _ _ _ _ _ hstop | stored _ _ _ _ _ _ _ hstop =>
      exact hgo hstop
  | delivered _ _ _ _ _ _ _ _ _ _ _ _ hstop => exact hgo hstop
  | noMemory _ _ _ _ _ hnil => exact absurd hnil hsent
  | disconnect _ _ _ _ hnil => exact absurd hnil hsent
  | storedDisconnect _ _ _ _ _ _ _ _ _ _ hnil => exact absurd hnil hsent
  | writeFailed _ _ _ _ _ _ _ _ hnil => exact absurd hnil hsent

/-- The ACK with the number of packets written. -/
def World.AckOfAll (w : World) (a : Datagram) : Prop :=
  a.num = w.delivered ∧ ∃ (reply : Pkt) (ts : UInt32), reply.Reply ptypeAck (UInt8.ofNat w.delivered) ts ∧
    a.bytes = reply.wire

/-- The answer: the receiver takes the copy and acknowledges it. -/
theorem World.Resumable.answers (h : w.Resumable) {d : Datagram} (hd : w.CopyOfOldest d)
    (hdata : w.data = [d]) (hacks : w.acks = []) (late : Int) :
    ∃ w' a, Steps (Continues late) w w' ∧ w'.Resumable ∧ w'.chunks = w.chunks ∧
      w'.acked = w.acked ∧ w.acked < w'.delivered ∧ w'.AckOfAll a ∧ w'.acks = [a] := by
  obtain ⟨log, known, hj⟩ := reachable_joint h.reachable
  obtain ⟨hcopy, hnum⟩ := hj.copy_oldest hd
  obtain ⟨t, hturn, ⟨reply, ts, hreply, hsent⟩, -, hlt, -⟩ :=
    hj.answers_oldest h.receiver (reachable_acks h.reachable) hcopy
      (show (datagramEnv d.bytes).poll = .ready (.bytes d.bytes) from rfl) fun _ _ => rfl
  have hne : t.sent ≠ [] := by
    rw [hsent]
    exact List.cons_ne_nil _ _
  have hgo : t.stop = none := by
    rcases readWriteLoopServer_cases (hj.receiver h.receiver) hturn with
      ⟨-, -, -, -, hnil, -⟩ | ⟨q, -, heffect⟩
    · exact absurd hnil hne
    · exact heffect.goes_on_of_sent (show (10 : Int) ≠ 0 by decide) hne
  have hfresh : w.delivered ≤ d.num + 223 := by
    obtain ⟨hat, -⟩ := hcopy.carries (Nat.le_refl _) log.room True
    have hdel := hj.delivered_le
    have hroom := log.room
    rw [hnum, hat]
    omega
  have hstep : Step w (.receiver (datagramEnv d.bytes) (some d))
      (World.replies { w with data := [] } t) :=
    .receiverReceives h.receiver hdata rfl hturn
  have hallowed : Continues late w (.receiver (datagramEnv d.bytes) (some d)) :=
    ⟨⟨⟨hfresh, fun _ _ => rfl⟩, trivial⟩, trivial⟩
  have hsteps : Steps (Continues late) w (World.replies { w with data := [] } t) :=
    .one hallowed hstep
  have hdelivered : World.delivered (World.replies { w with data := [] } t) =
      w.delivered + t.written.length := World.replies_delivered _ t
  refine ⟨_, { num := (w.written ++ t.written).length, bytes := reply.wire }, hsteps,
    ⟨h.reachable.continues hsteps, h.sender, hgo, h.expires⟩, rfl, rfl, ?_,
    ⟨rfl, reply, ts, ?_, rfl⟩, ?_⟩
  · rw [hdelivered, hj.acked_eq]
    exact hlt
  · rw [hdelivered]
    exact hreply
  · show w.acks ++ t.sent.map _ = _
    rw [hacks, hsent]
    rfl

/-- The acknowledgement: the sender takes the ACK, and with it what it names out of its window. -/
theorem World.Resumable.acknowledged (h : w.Resumable) {a : Datagram} (ha : w.AckOfAll a)
    (hlt : w.acked < w.delivered) (hacks : w.acks = [a]) (late : Int) :
    ∃ w', Steps (Continues late) w w' ∧ w'.Resumable ∧ w'.chunks = w.chunks ∧
      w'.acked = w.delivered := by
  obtain ⟨log, known, hj⟩ := reachable_joint h.reachable
  obtain ⟨hnum, reply, ts, hreply, hbytes⟩ := ha
  obtain ⟨ms, hlate, hms⟩ := exists_late late w.sender.startingTimestamp
  let env : SenderEnv := { quietEnv ms with socket := some (.bytes reply.wire) }
  have hin : env.InputReads := fun r hr => absurd hr (by simp [env, quietEnv])
  have hread : env.chunkRead w.sender = [] := rfl
  obtain ⟨t, log', built, q, hturn, hgo, hacked, hlog, hbuilt, hqtype, hqseq, hr, -⟩ :=
    readWriteLoopSender_ack (hj.sender h.sender) (show env.pollFails = false from rfl) hin
      (fun hne => absurd hread hne) hreply (show env.socket = some (.bytes reply.wire) from rfl)
  rw [hread, List.map_eq_nil_iff] at hbuilt
  rw [hbuilt, List.append_nil] at hlog
  -- the ACK moves the log to what the receiver has written
  have hle := hj.delivered_le
  have hmax : (log'.receive (some q)).acked = w.delivered := by
    rw [← hj.acked_eq] at hacked
    rw [log'.receive_acked hqtype hqseq (by rw [hlog]; exact hle) (by omega), hacked]
    exact Nat.max_eq_right (Nat.le_of_lt hlt)
  have hstep : Step w (.sender env (some a)) (World.sends { w with acks := [] } env t) :=
    .senderReceives h.sender hin hacks (by rw [hbytes]) hturn
  have hfresh : w.acked ≤ a.num + 99 := by omega
  have hallowed : Continues late w (.sender env (some a)) :=
    ⟨⟨⟨fun _ => hfresh, trivial⟩, trivial⟩, fun _ => hlate⟩
  have hsteps : Steps (Continues late) w (World.sends { w with acks := [] } env t) :=
    .one hallowed hstep
  refine ⟨_, hsteps, ⟨h.reachable.continues hsteps, hgo, h.receiver, ?_⟩, List.append_nil _, ?_⟩
  · exact Stamped.expires h.expires hturn hgo fun _ => hms
  · show (w.chunks ++ env.chunkRead w.sender).length - t.state.window.size.toNat = _
    have hsize := hr.size
    have hcount := hr.count
    have hbuilt := hj.built_eq
    rw [SendLog.outstanding_length, hmax, SendLog.receive_log, hlog] at hcount
    rw [World.built] at hbuilt
    rw [hread, List.append_nil, hsize, hbuilt]
    omega

/-- One exchange takes packets out of the window. -/
theorem World.Resumable.exchange (h : w.Resumable) (hlt : w.acked < w.built) (late : Int) :
    ∃ w', Steps (Continues late) w w' ∧ w'.Resumable ∧ w'.chunks = w.chunks ∧
      w.acked < w'.acked := by
  obtain ⟨w₀, hsteps₀, h₀, hchunks₀, hacked₀, hdata₀, hacks₀⟩ := h.loses late
  have hbuilt₀ : w₀.built = w.built := congrArg List.length hchunks₀
  obtain ⟨w₁, d, hsteps₁, h₁, hchunks₁, hacked₁, hd, hdata₁, hacks₁⟩ :=
    h₀.resends (by omega) hdata₀ hacks₀ late
  obtain ⟨w₂, a, hsteps₂, h₂, hchunks₂, hacked₂, hlt₂, ha, hacks₂⟩ :=
    h₁.answers hd hdata₁ hacks₁ late
  obtain ⟨w₃, hsteps₃, h₃, hchunks₃, hacked₃⟩ := h₂.acknowledged ha (by omega) hacks₂ late
  exact ⟨w₃, ((hsteps₀.trans hsteps₁).trans hsteps₂).trans hsteps₃, h₃,
    ((hchunks₃.trans hchunks₂).trans hchunks₁).trans hchunks₀, by omega⟩

/-- Exchange after exchange, everything gets acknowledged. -/
theorem World.Resumable.drains (h : w.Resumable) (late : Int) :
    ∃ w', Steps (Continues late) w w' ∧ w'.Resumable ∧ w'.chunks = w.chunks ∧
      w'.acked = w'.built := by
  -- by induction on the number of packets that are not acknowledged
  induction hn : w.built - w.acked using Nat.strong_induction_on generalizing w with
  | _ n ih =>
      by_cases hlt : w.acked < w.built
      · obtain ⟨w₁, hsteps₁, h₁, hchunks₁, hacked₁⟩ := h.exchange hlt late
        have hbuilt : w₁.built = w.built := congrArg List.length hchunks₁
        obtain ⟨w₂, hsteps₂, h₂, hchunks₂, hall⟩ := ih (w₁.built - w₁.acked) (by omega) h₁ rfl
        exact ⟨w₂, hsteps₁.trans hsteps₂, h₂, hchunks₂.trans hchunks₁, hall⟩
      · have hle : w.acked ≤ w.built := Nat.sub_le _ _
        exact ⟨w, .refl, h, rfl, by omega⟩

/-! ## The end -/

/-- A turn that meets the end of the input, at `ms` milliseconds. -/
def endEnv (ms : Int) : SenderEnv := { quietEnv ms with input := some (.bytes []) }

omit [Zlib] in
theorem endEnv_chunkRead (ms : Int) (st : SenderState) : (endEnv ms).chunkRead st = [] := by
  simp [SenderEnv.chunkRead, endEnv, quietEnv]

/-- With nothing outstanding, and the window open, it closes the connection. -/
theorem Refines.closes {st : SenderState} (hr : Refines st log) (hall : log.acked = log.log.length)
    (hopen : 0 < st.sendingWindowSize) (ms : Int) :
    ∃ (t : SenderTurn) (pkt : Pkt) (window : BitVec 5) (ts : UInt32),
      readWriteLoopSender (endEnv ms) st = .ok t ∧ t.stop = some .closed ∧
      t.sent = [pkt.wire] ∧ pkt.Built window (UInt8.ofNat log.log.length) [] ts := by
  have hnone : log.outstanding.length = 0 := by
    rw [log.outstanding_length, hall, Nat.sub_self]
  have hroom : st.pktInWindow < st.sendingWindowSize := by
    rw [UInt8.lt_iff_toNat_lt, hr.count, hnone]
    exact uint8_pos_iff.mp hopen
  have h₁ : inputBranch (endEnv ms) st = .ok { state := { st with nb := 0 } } := by
    simp only [inputBranch, endEnv, if_pos hroom]
    rfl
  have h₂ : socketBranch (endEnv ms) { st with nb := 0 } = .ok { state := { st with nb := 0 } } := rfl
  have hread : Refines { st with nb := 0 } log := ⟨hr.holds, hr.count, hr.seqnum, hr.windowSize⟩
  obtain ⟨t₃, h₃, hgo₃, hr₃, ⟨hnb, -⟩, -, hsent₃⟩ := checkRt_refines (endEnv ms) hread
  -- nothing is outstanding, so the scan sends nothing
  have hnil : t₃.sent = [] := by
    rw [List.eq_nil_iff_forall_not_mem]
    intro d hd
    obtain ⟨k, pkt, -, hk, hpkt, -⟩ := hsent₃ d hd
    obtain ⟨hlt, -⟩ := List.getElem?_eq_some_iff.mp hpkt
    omega
  have hcount : t₃.state.pktInWindow = 0 := by
    rw [← UInt8.toNat_inj, hr₃.count, hnone]
    rfl
  obtain ⟨t₄, pkt, h₄, hstop, -, -, -, hbuilt, hsent₄⟩ :=
    closeBranch_closes (endEnv ms) hr₃.windowSize ⟨hnb, hcount⟩
  rw [hr₃.seqnum] at hbuilt
  refine ⟨_, pkt, _, _, readWriteLoopSender_of_go rfl h₁ rfl h₂ rfl h₃ hgo₃ h₄, hstop, ?_,
    hbuilt⟩
  rw [hnil, hsent₄]
  rfl

/-- The empty packet, with the number after the last chunk. -/
def World.EmptyPacket (w : World) (d : Datagram) : Prop :=
  d.num = w.built ∧ ∃ (pkt : Pkt) (window : BitVec 5) (ts : UInt32),
    pkt.Built window (UInt8.ofNat w.built) [] ts ∧ d.bytes = pkt.wire

/-- The end of the input: the empty packet is sent. -/
theorem World.Resumable.closes (h : w.Resumable) (hall : w.acked = w.built) (hdata : w.data = [])
    (late : Int) :
    ∃ w' d, Steps (Continues late) w w' ∧ w'.chunks = w.chunks ∧ w'.senderStop = some .closed ∧
      w'.receiverStop = none ∧ w'.EmptyPacket d ∧ w'.data = [d] := by
  obtain ⟨log, known, hj⟩ := reachable_joint h.reachable
  have hacked := hj.acked_eq
  have hbuilt := hj.built_eq
  obtain ⟨t, pkt, window, ts, hturn, hstop, hsent, hpkt⟩ :=
    (hj.sender h.sender).closes (by omega) ((reachable_open h.reachable).sender h.sender) late
  have hin : (endEnv late).InputReads := by
    rintro r hr rfl
    exact absurd hr (by simp [endEnv])
  have hstep : Step w (.sender (endEnv late) none) (w.sends (endEnv late) t) :=
    .sender h.sender hin ((endEnv late).heard_of_silent rfl w.sender) hturn
  have hallowed : Continues late w (.sender (endEnv late) none) :=
    ⟨⟨⟨trivial, trivial⟩, trivial⟩, fun _ => Int.le_refl late⟩
  obtain ⟨hchunks, -⟩ := w.sends_acked (endEnv_chunkRead late w.sender) t
  have hbuilt' : (w.sends (endEnv late) t).built = log.log.length := by
    rw [World.built, hchunks]
    exact hbuilt
  have hcloses : log.Closes pkt.wire := by
    refine ⟨List.eq_nil_of_length_eq_zero ?_, pkt, window, ts, hpkt, rfl⟩
    rw [log.outstanding_length]
    omega
  refine ⟨_, Datagram.sent w.acked pkt.wire, .one hallowed hstep, hchunks, hstop, h.receiver,
    ⟨?_, pkt, window, ts, ?_, rfl⟩, ?_⟩
  · rw [hbuilt', hacked]
    exact (hcloses.carries log.acked_le log.room trivial).1
  · rw [hbuilt']
    exact hpkt
  · rw [World.sends, hdata, hsent]
    rfl

/-- The receiver takes the empty packet for the end. -/
theorem Joint.disconnects (hj : Joint w log known) (hgo : w.receiverStop = none) {d : Datagram}
    (hmem : d ∈ w.data) (hd : w.EmptyPacket d) :
    ∃ t, readWriteLoopServer (datagramEnv d.bytes) w.receiver = .ok t ∧
      t.stop = some .disconnect := by
  obtain ⟨hnum, pkt, window, ts, hpkt, hbytes⟩ := hd
  have hdel := hj.delivered_le
  have hbuilt := hj.built_eq
  have hpoll : (datagramEnv d.bytes).poll = .ready (.bytes d.bytes) := rfl
  have hlen : pkt.length.toNat = 0 := hpkt.length
  obtain ⟨q, hinc, hq⟩ := hj.heard (hj.data d hmem) (by omega) hpoll
  -- what is decoded is not truncated, and has no payload
  rw [hbytes] at hpoll hinc ⊢
  obtain ⟨q', hinc', -, htr, hdata⟩ := ReceiverEnv.incoming_wire w.receiver hpoll
    ⟨by omega, fun hne => absurd hpkt.type hne⟩ hpkt.type
  rw [hinc, Option.some.injEq] at hinc'
  subst hinc'
  replace htr : q.tr = 0 := htr.trans hpkt.tr
  have hempty : q.data = [] := (hdata hpkt.tr).trans hpkt.data
  have hrep := hj.receiver hgo
  have hzero := (hq.distance_eq_zero hrep).mpr (hq.closed hj htr hempty).2.1
  obtain ⟨t, hturn, heffect⟩ := readWriteLoopServer_effect hrep hinc (Or.inr (Or.inl (by omega)))
  exact ⟨t, hturn, heffect.stop_of_empty htr hzero hempty⟩

/-- The last two turns. -/
theorem World.Resumable.ends (h : w.Resumable) (hall : w.acked = w.built) (late : Int) :
    ∃ w', Steps (Continues late) w w' ∧ w'.chunks = w.chunks ∧
      w'.written.map Prod.fst = w.chunks ∧ w'.senderStop = some .closed ∧
      w'.receiverStop = some .disconnect := by
  obtain ⟨w₀, hsteps₀, h₀, hchunks₀, hacked₀, hdata₀, -⟩ := h.loses late
  have hbuilt₀ : w₀.built = w.built := congrArg List.length hchunks₀
  obtain ⟨w₁, d, hsteps₁, hchunks₁, hstop, hgo, hd, hdata⟩ := h₀.closes (by omega) hdata₀ late
  obtain ⟨log, known, hj⟩ := reachable_joint (h₀.reachable.continues hsteps₁)
  have hmem : d ∈ w₁.data := by
    rw [hdata]
    exact List.mem_singleton_self d
  obtain ⟨t, hturn, hstop'⟩ := hj.disconnects hgo hmem hd
  have hdel := hj.delivered_le
  have hbuilt := hj.built_eq
  have hnum := hd.1
  have hallowed : Continues late w₁ (.receiver (datagramEnv d.bytes) (some d)) :=
    ⟨⟨⟨(show w₁.delivered ≤ d.num + 223 by omega), fun _ _ => rfl⟩, trivial⟩, trivial⟩
  have hsteps := (hsteps₀.trans hsteps₁).trans
    (Steps.one hallowed (.receiverReceives hgo hdata rfl hturn))
  -- a receiver that was told the end has written everything
  obtain ⟨log', known', hj'⟩ := reachable_joint (h.reachable.continues hsteps)
  have hwritten := hj'.written
  rw [(hj'.disconnect (Or.inl hstop')).2, ← hj'.built_eq] at hwritten
  have hchunks := hchunks₁.trans hchunks₀
  refine ⟨_, hsteps, hchunks, ?_, hstop, hstop'⟩
  rw [hwritten, ← hchunks]
  exact List.take_length

/-- No state is a dead end.  From every state of a run over a link that loses, duplicates,
    truncates and reorders, in which both parties are running and every packet of the
    sender's window can time out, and at any later time: there is a continuation, over a
    link that even keeps the order, in which the input ends, the receiver writes every chunk
    the sender has read and nothing else, and both parties return, the sender having closed
    the connection and the receiver having been told. -/
theorem reachable_completes (h : Reachable Fresh w) (hgo : w.senderStop = none)
    (hgo' : w.receiverStop = none)
    (hstamps : ∀ l, w.sender.window.Holds l → ∀ pkt ∈ l, pkt.timestamp ≠ 4294967235) (late : Int) :
    ∃ w', Steps (fun w e => Orderly w e ∧ After late e) w w' ∧ w'.chunks = w.chunks ∧
      w'.written.map Prod.fst = w.chunks ∧ w'.senderStop = some .closed ∧
      w'.receiverStop = some .disconnect := by
  obtain ⟨log, known, hj⟩ := reachable_joint h
  obtain ⟨l, hl, -⟩ := hj.window
  have hexpires : w.Expires := by
    intro i pkt hcell
    obtain ⟨j, hj, -, rfl⟩ := hl.place hcell
    exact Pkt.expires_iff.mpr (hstamps l hl _ (List.getElem_mem hj))
  have hresumable : w.Resumable := ⟨h, hgo, hgo', hexpires⟩
  obtain ⟨w₁, hsteps₁, h₁, hchunks₁, hall⟩ := hresumable.drains late
  obtain ⟨w₂, hsteps₂, hchunks₂, hwritten, hstop, hstop'⟩ := h₁.ends hall late
  exact ⟨w₂, hsteps₁.trans hsteps₂, hchunks₂.trans hchunks₁, hwritten.trans hchunks₁, hstop, hstop'⟩

end

/-- From the state in which the first packet is in flight. -/
theorem reachable_completes_one : letI := zlib
    ∃ w w' : World, w.chunks = [[7]] ∧ w.delivered = 0 ∧
      Steps (fun w e => Orderly w e ∧ After 1000 e) w w' ∧ w'.written.map Prod.fst = [[7]] ∧
      w'.senderStop = some .closed := by
  let _ := zlib
  obtain ⟨w, t, h, -, hturn, hgo, hsender⟩ := exists_sent_first
  -- it is stamped with the time of that turn, which is 0
  have hinit : Stamped 0 (· = 0) (inputEnv [7]) (senderInit (fun _ => 0) default false 0) :=
    ⟨rfl, fun _ => rfl, fun _ _ hcell => absurd hcell (by simp [senderInit, Queue.newList])⟩
  have hstamped := hinit.turn hturn hgo
  have hstamps : ∀ l, w.sender.window.Holds l → ∀ pkt ∈ l, pkt.timestamp ≠ 4294967235 := by
    intro l hl pkt hpkt
    obtain ⟨j, hj, rfl⟩ := List.getElem_of_mem hpkt
    rw [hsender] at hl
    rw [hstamped.cells _ _ (hl.cell hj)]
    decide
  obtain ⟨w', hsteps, -, hwritten, hclosed, -⟩ :=
    reachable_completes (h.reachable.mono fun _ _ he => he.1.1) h.sender h.receiver hstamps 1000
  exact ⟨w, w', h.chunks, h.delivered, hsteps, hwritten.trans h.chunks, hclosed⟩

end SelectiveRepeat
