/-
  SelectiveRepeat.System.Fifo

  Links that lose, duplicate in place and truncate, but keep the order.  A DATA
  packet is overtaken by none, so it is at most 31 behind whatever the receiver has
  accepted, and the numbers of the replies in flight never decrease.  This keeps
  every number that reaches a party so close to its own that the comparisons on 8
  bits decide those on the absolute numbers.
-/
import SelectiveRepeat.System.Safety

namespace SelectiveRepeat

open Channel Reassembly

/-! ## The order in the channels -/

/-- The datagrams in flight, the oldest first, against each other, against what is
    known to the receiver and against what is acknowledged. -/
structure InOrder (w : World) (log : SendLog) (known : Nat → Option Item) : Prop where
  data : w.data.Pairwise fun a b => a.num ≤ b.num + 30
  near : ∀ d ∈ w.data, ∀ k x, known k = some x → k ≤ d.num + 30
  acks : w.acks.Pairwise fun a b => a.num ≤ b.num
  acked : ∀ a ∈ w.acks, log.acked ≤ a.num

theorem inOrder_start (buf : Mem) (logger : Logger) (statsFile : Bool) (clock : Int)
    (mem : ReceiverMemory) (statFile : Bool) (log : SendLog) (known : Nat → Option Item) :
    InOrder (World.start buf logger statsFile clock mem statFile) log known :=
  ⟨List.Pairwise.nil, fun _ hd => absurd hd List.not_mem_nil, List.Pairwise.nil,
    fun _ ha => absurd ha List.not_mem_nil⟩

/-! ## The comparisons -/

/-- What 8-bit arithmetic at the receiver says of a DATA packet is what the absolute
    numbers say. -/
structure ReceiverDecides (w : World) (num : Nat) : Prop where
  inWindow : inWindow w.receiver.waitedSeqnum (UInt8.ofNat num) = true ↔ w.delivered ≤ num
  expected : UInt8.ofNat num = w.receiver.waitedSeqnum ↔ num = w.delivered
  ind : w.delivered ≤ num →
    SortedList.ind (UInt8.ofNat num) w.receiver.waitedSeqnum = (num - w.delivered : Nat) ∧
      num - w.delivered < 31

/-- What the sender's comparison of an ACK with the packets of its window says. -/
structure SenderDecides (w : World) (num : Nat) : Prop where
  higherOrEqual : ∀ k, w.acked ≤ k → k < w.built →
    (Queue.seqnumHigherOrEqual (previousSeqnum (UInt8.ofNat num)).toNat (UInt8.ofNat k) = true ↔
      k < num)

theorem receiverDecides {st : ReceiverState} {W num : Nat} (hwaited : st.waitedSeqnum = UInt8.ofNat W)
    (hle : num ≤ W + 30) (hge : W ≤ num + 223) :
    (inWindow st.waitedSeqnum (UInt8.ofNat num) = true ↔ W ≤ num) ∧
      (UInt8.ofNat num = st.waitedSeqnum ↔ num = W) ∧
      (W ≤ num → SortedList.ind (UInt8.ofNat num) st.waitedSeqnum = (num - W : Nat) ∧
        num - W < 31) := by
  rw [inWindow_iff, ← distance_eq_zero, SortedList.ind_eq, hwaited]
  by_cases hahead : W ≤ num
  · rw [distance_ofNat hahead (by omega)]
    omega
  · rw [distance_ofNat_back (Nat.lt_of_not_le hahead) (by omega)]
    omega

theorem senderDecides {num k : Nat} (hle : num ≤ k + 101) (hge : k ≤ num + 99) :
    Queue.seqnumHigherOrEqual (previousSeqnum (UInt8.ofNat num)).toNat (UInt8.ofNat k) = true ↔
      k < num := by
  rw [previousSeqnum_eq]
  by_cases hlt : k < num
  · -- at most 100 ahead
    have hd := distance_pred hlt (by omega)
    exact ⟨fun _ => hlt, fun _ => seqnumHigherOrEqual_of_distance (by omega)⟩
  · -- at most 100 behind, which is at least 156 ahead
    have hd := distance_pred_back (Nat.le_of_not_lt hlt) (by omega)
    rw [not_seqnumHigherOrEqual_of_distance (by omega)]
    exact ⟨fun h => absurd h (by decide), fun h => absurd h hlt⟩

/-! ## The order along a run -/

section
variable [Zlib] {w w' : World} {log : SendLog} {known : Nat → Option Item}

/-- A DATA packet in flight is at most 31 behind the expected one. -/
theorem InOrder.delivered_le (ho : InOrder w log known) (hj : Joint w log known)
    (hgo : w.receiverStop = none) {d : Datagram} (hd : d ∈ w.data) :
    w.delivered ≤ d.num + 31 := by
  rcases Nat.eq_zero_or_pos w.delivered with hzero | hpos
  · omega
  · -- the last packet written is known, and the packets behind it are near to it
    obtain ⟨x, hx⟩ := (hj.receiver hgo).below (w.delivered - 1) (by omega)
    have hnear := ho.near d hd _ x hx
    omega

/-- While the sender runs, what is in flight was built. -/
theorem Joint.num_lt (hj : Joint w log known) (hgo : w.senderStop = none) {d : Datagram}
    (hd : d ∈ w.data) : d.num < log.log.length := by
  obtain ⟨pkt, -, -, ⟨p, hp, -⟩ | ⟨hclosed, -⟩⟩ := hj.data d hd
  · exact (List.getElem?_eq_some_iff.mp hp).1
  · exact absurd hclosed (not_closed hgo)

/-- What the sender puts behind the DATA packets in flight keeps their order. -/
theorem InOrder.sends (ho : InOrder w log known) (hj : Joint w log known)
    (hgo : w.senderStop = none) {w' : World} {log' : SendLog} {closed : Prop}
    {copies closing : List Datagram} (hdata : w'.data = w.data ++ (copies ++ closing))
    (hnum : Numbered log.acked log' closed copies closing)
    (hgrow : log.log.length ≤ log'.log.length) (hroom : log'.log.length ≤ log.acked + 31)
    (hacks : w'.acks.Pairwise fun a b => a.num ≤ b.num)
    (hacked : ∀ a ∈ w'.acks, log'.acked ≤ a.num) : InOrder w' log' known := by
  -- what is sent is from the window, hence at most 31 below the next number
  have hbase : ∀ b ∈ copies ++ closing, log'.log.length ≤ b.num + 31 := by
    intro b hb
    rcases List.mem_append.mp hb with hb | hb
    · have hlow := (hnum.copies b hb).1
      omega
    · have hlow := (hnum.closing b hb).1
      omega
  refine ⟨?_, ?_, hacks, hacked⟩
  · rw [hdata, List.pairwise_append, List.pairwise_append]
    refine ⟨ho.data, ⟨?_, ?_, ?_⟩, ?_⟩
    · apply List.pairwise_of_forall_mem_list
      intro a ha b hb
      have ha' := (hnum.copies a ha).2.1
      have hb' := hbase b (List.mem_append_left _ hb)
      omega
    · apply List.pairwise_of_forall_mem_list
      intro a ha b hb
      have ha' := (hnum.closing a ha).1
      have hb' := (hnum.closing b hb).1
      omega
    · intro a ha b hb
      have ha' := (hnum.copies a ha).2.1
      have hb' := (hnum.closing b hb).1
      omega
    · -- a packet in flight was built before the turn
      intro a ha b hb
      have ha' := hj.num_lt hgo ha
      have hb' := hbase b hb
      omega
  · rw [hdata]
    intro d hd k x hx
    rcases List.mem_append.mp hd with hd | hd
    · exact ho.near d hd k x hx
    · have hk := (List.getElem?_eq_some_iff.mp (hj.honest k x hx)).1
      have hlen : w.chunks.length = log.log.length := hj.built_eq
      have hd' := hbase d hd
      omega

/-- A turn of the receiver that takes the oldest DATA packet keeps the order. -/
theorem InOrder.replies (ho : InOrder w log known) (hj : Joint w log known)
    (hgo : w.receiverStop = none) {d : Datagram} {data' : List Datagram}
    (hdata : w.data = d :: data') {env : ReceiverEnv} (hpoll : env.poll = .ready (.bytes d.bytes))
    {t : ReceiverTurn} (hturn : readWriteLoopServer env w.receiver = .ok t) :
    ∃ known', Joint ({ w with data := data' }.replies t) log known' ∧
      InOrder ({ w with data := data' }.replies t) log known' := by
  obtain ⟨hd, hrest⟩ := hj.take_data hdata
  have hguard : w.delivered ≤ d.num + 31 :=
    ho.delivered_le hj hgo (by rw [hdata]; exact List.mem_cons_self)
  have hpair := ho.data
  have hnear := ho.near
  rw [hdata, List.pairwise_cons] at hpair
  rw [hdata, List.forall_mem_cons] at hnear
  have hdel : w.delivered ≤ ({ w with data := data' }.replies t).delivered := by
    rw [World.replies_delivered]
    exact Nat.le_add_right _ _
  have hlate : World.delivered { w with data := data' } ≤ d.num + 223 := by
    have hsame : World.delivered { w with data := data' } = w.delivered := rfl
    omega
  obtain ⟨known', new, hj', hsub, hacks, hnew⟩ := hrest.replies hgo hd hlate hpoll hturn
  refine ⟨known', hj', hpair.2, ?_, ?_, ?_⟩
  · -- what is new to the receiver is `d`, which the packets behind it are near to
    intro b hb k x hx
    rcases hsub k x hx with ⟨y, hy⟩ | rfl
    · exact hnear.2 b hb k y hy
    · exact hpair.1 b hb
  · -- the new replies have the highest number so far
    rw [hacks, List.pairwise_append]
    refine ⟨ho.acks, List.pairwise_of_forall_mem_list fun a ha b hb => ?_, fun a ha b hb => ?_⟩
    · rw [hnew a ha, hnew b hb]
    · rw [hnew b hb]
      exact Nat.le_trans (hj.acks a ha).1 hdel
  · rw [hacks, List.forall_mem_append]
    refine ⟨ho.acked, fun a ha => ?_⟩
    rw [hnew a ha]
    exact Nat.le_trans hj.acked_le hdel

/-- What one step preserves. -/
theorem InOrder.step (ho : InOrder w log known) (hj : Joint w log known) {e : Event}
    (hfifo : Fifo w e) (hstep : Step w e w') :
    ∃ log' known', Joint w' log' known' ∧ InOrder w' log' known' := by
  cases hstep with
  | data hd =>
      refine ⟨log, known, hj.disturb_data hd, ?_, ?_, ho.acks, ho.acked⟩
      · exact hd.pairwise hfifo (fun m _ => Nat.le_add_right _ _) (fun _ _ h => h) (fun _ _ h => h)
          ho.data
      · exact hd.forall (fun _ h => h) ho.near
  | acks hd =>
      refine ⟨log, known, hj.disturb_acks hd, ho.data, ho.near, ?_, ?_⟩
      · exact hd.pairwise hfifo (fun m _ => Nat.le_refl _) (fun _ _ h => h) (fun _ _ h => h) ho.acks
      · exact hd.forall (fun _ h => h) ho.acked
  | sender hgo hin hnone hturn =>
      -- no reply, so the window does not move
      obtain ⟨log', copies, closing, hj', hdata, hnum, hgrow, hroom, hacked⟩ :=
        hj.sends hgo hin (hears_of_none hnone log.acked log.acked) hj.acked_le hturn
      refine ⟨log', known, hj', ho.sends hj hgo hdata hnum hgrow hroom ho.acks ?_⟩
      intro a ha
      have hlow := ho.acked a ha
      omega
  | @senderReceives env t d acks' hgo hin hacks hsocket hturn =>
      obtain ⟨hd, hrest⟩ := hj.take_ack hacks
      have hpair := ho.acks
      have hlow := ho.acked
      rw [hacks, List.pairwise_cons] at hpair
      rw [hacks, List.forall_mem_cons] at hlow
      obtain ⟨log', copies, closing, hj', hdata, hnum, hgrow, hroom, hacked⟩ :=
        hrest.sends hgo hin (hears_of_reply hd hsocket (fun _ => by omega) w.sender) hd.1 hturn
      have hrest' : InOrder { w with acks := acks' } log known :=
        ⟨ho.data, ho.near, hpair.2, hlow.2⟩
      refine ⟨log', known, hj', hrest'.sends hrest hgo hdata hnum hgrow hroom hpair.2 ?_⟩
      -- the window moves to the number of the ACK, and those behind it carry no less
      intro a ha
      have hbehind := hpair.1 a ha
      omega
  | receiver hgo hinc hturn =>
      obtain ⟨hj', -, hacks⟩ := hj.replies_none hgo hinc hturn
      refine ⟨log, known, hj', ho.data, ho.near, ?_, ?_⟩
      · rw [hacks]
        exact ho.acks
      · rw [hacks]
        exact ho.acked
  | receiverReceives hgo hdata hpoll hturn =>
      obtain ⟨known', hj', ho'⟩ := ho.replies hj hgo hdata hpoll hturn
      exact ⟨log, known', hj', ho'⟩

/-- What every run preserves. -/
theorem reachable_inOrder (h : Reachable Fifo w) :
    ∃ log known, Joint w log known ∧ InOrder w log known := by
  refine h.invariant (fun w => ∃ log known, Joint w log known ∧ InOrder w log known) ?_ ?_
  · intro buf logger statsFile clock mem statFile hnull
    exact ⟨_, _, joint_start buf logger statsFile clock hnull statFile,
      inOrder_start buf logger statsFile clock mem statFile _ _⟩
  · rintro w e w' ⟨log, known, hj, ho⟩ hfifo hstep
    exact ho.step hj hfifo hstep

/-- No ambiguity over links that keep the order.  In every run the numbers acknowledged,
    written and built stay within 31 of each other; a DATA packet in flight to a
    running receiver is between 31 behind and 30 ahead of the expected one, and a reply
    in flight to a running sender acknowledges up to a packet that is at most the last
    one built and at least the one before the window; and there both parties decide
    on 8 bits what the absolute numbers say. -/
theorem reachable_unambiguous (h : Reachable Fifo w) :
    (w.acked ≤ w.delivered ∧ w.delivered ≤ w.built ∧ w.built ≤ w.acked + 31) ∧
      (w.receiverStop = none → ∀ d ∈ w.data,
        (∃ pkt, d.Spells pkt ∧ pkt.type = ptypeData) ∧
        w.delivered ≤ d.num + 31 ∧ d.num ≤ w.delivered + 30 ∧ ReceiverDecides w d.num) ∧
      (w.senderStop = none → ∀ a ∈ w.acks,
        (∃ pkt, a.Spells pkt ∧ (pkt.type = ptypeAck ∨ pkt.type = ptypeNack)) ∧
        w.acked ≤ a.num ∧ a.num ≤ w.built ∧ SenderDecides w a.num) := by
  obtain ⟨log, known, hj, ho⟩ := reachable_inOrder h
  have hacked := hj.acked_eq
  have hbuilt := hj.built_eq
  have hacked_le := hj.acked_le
  have hdelivered := hj.delivered_le
  have hroom := log.room
  refine ⟨⟨by omega, by omega, by omega⟩, fun hgo d hd => ?_, fun _ a ha => ?_⟩
  · have hcarries := hj.data d hd
    have hlow := ho.delivered_le hj hgo hd
    have hhigh := hj.num_le hcarries
    obtain ⟨pkt, hspells, htype, -⟩ := hcarries
    obtain ⟨hin, hexpected, hind⟩ :=
      receiverDecides (hj.receiver hgo).waited hhigh (show w.delivered ≤ d.num + 223 by omega)
    exact ⟨⟨pkt, hspells, htype⟩, hlow, hhigh, hin, hexpected, hind⟩
  · obtain ⟨hle, hpkt⟩ := hj.acks a ha
    have hlow := ho.acked a ha
    exact ⟨hpkt, by omega, by omega, ⟨fun k hk hlt => senderDecides (by omega) (by omega)⟩⟩

end

/-- A run in which a packet arrives twice: the second copy is one behind. -/
theorem reachable_unambiguous_one : letI := zlib
    ∃ w : World, w.delivered = 1 ∧ w.built = 1 ∧ ∃ d ∈ w.data, w.delivered ≤ d.num + 31 ∧
      d.num ≤ w.delivered + 30 ∧ ReceiverDecides w d.num := by
  let _ := zlib
  obtain ⟨w, h⟩ := exists_written
  obtain ⟨-, hdata, -⟩ := reachable_unambiguous (h.reachable.mono fun _ _ he => he.2)
  have hmem : Datagram.sent 0 firstPkt.wire ∈ w.data := by
    rw [h.data]
    exact List.mem_singleton.mpr rfl
  obtain ⟨-, hlow, hhigh, hdecides⟩ := hdata h.receiver _ hmem
  refine ⟨w, h.delivered, ?_, _, hmem, hlow, hhigh, hdecides⟩
  rw [World.built, h.chunks]
  rfl

end SelectiveRepeat
