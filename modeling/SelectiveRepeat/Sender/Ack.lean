/-
  SelectiveRepeat.Sender.Ack

  The ACK case of the sender.  The loop takes packets out as long as
  `is_higher_or_equal` says that the number received is not older than the one
  at the head; on the list of packets that is `dropWhile`.  The comparison is
  exact for a number in the window, and for a number outside it decides by the
  distance: 100 without a wrap between the two, 155 across one.
-/
import SelectiveRepeat.Queue.Search
import SelectiveRepeat.Sender.Loop
import SelectiveRepeat.Segment.RoundTrip

namespace SelectiveRepeat

/-! ## The comparison -/

theorem previousSeqnum_eq (seqnum : UInt8) : previousSeqnum seqnum = seqnum - 1 := by
  by_cases h : seqnum = 0
  · rw [h]
    rfl
  · rw [previousSeqnum, if_pos h]

/-- `is_higher_or_equal` as a bound on how far the number is ahead of the head. -/
theorem seqnumHigherOrEqual_iff (s ref : UInt8) :
    Queue.seqnumHigherOrEqual s.toNat ref = true ↔
      distance ref s ≤ if ref ≤ s then 100 else 155 := by
  have hd := distance_def ref s
  have hs := s.toNat_lt
  have hr := ref.toNat_lt
  have hle : ref ≤ s ↔ ref.toNat ≤ s.toNat := UInt8.le_iff_toNat_le
  simp only [Queue.seqnumHigherOrEqual, hle]
  by_cases hwrap : (s.toNat : Int) < ref.toNat ∧ (ref.toNat : Int) - s.toNat > 100
  · rw [if_pos hwrap, if_neg (by omega)]
    simp only [true_iff]
    omega
  · rw [if_neg hwrap]
    by_cases hfar : (ref.toNat : Int) < s.toNat ∧ (s.toNat : Int) - ref.toNat > 100
    · rw [if_pos hfar, if_pos (by omega)]
      simp only [Bool.false_eq_true, false_iff]
      omega
    · rw [if_neg hfar, decide_eq_true_iff]
      split <;> omega

/-- A number at most 100 ahead is ahead. -/
theorem seqnumHigherOrEqual_of_distance {s ref : UInt8} (h : distance ref s ≤ 100) :
    Queue.seqnumHigherOrEqual s.toNat ref = true := by
  rw [seqnumHigherOrEqual_iff]
  split <;> omega

/-- A number more than 155 ahead, that is less than 101 behind, is not. -/
theorem not_seqnumHigherOrEqual_of_distance {s ref : UInt8} (h : 155 < distance ref s) :
    Queue.seqnumHigherOrEqual s.toNat ref = false := by
  rw [← Bool.not_eq_true, seqnumHigherOrEqual_iff]
  split <;> omega

/-! ## The loop -/

/-- What the loop leaves of the window. -/
def unacked (s : UInt8) (l : List Pkt) : List Pkt :=
  l.dropWhile fun pkt => Queue.seqnumHigherOrEqual s.toNat pkt.seqnum

theorem unacked_suffix (s : UInt8) (l : List Pkt) : unacked s l <:+ l :=
  List.dropWhile_suffix _

theorem unacked_length_le (s : UInt8) (l : List Pkt) : (unacked s l).length ≤ l.length :=
  (unacked_suffix s l).length_le

theorem unacked_cons_of_higher {s : UInt8} {pkt : Pkt} {l : List Pkt}
    (h : Queue.seqnumHigherOrEqual s.toNat pkt.seqnum = true) :
    unacked s (pkt :: l) = unacked s l :=
  List.dropWhile_cons_of_pos h

theorem unacked_cons_of_not_higher {s : UInt8} {pkt : Pkt} {l : List Pkt}
    (h : Queue.seqnumHigherOrEqual s.toNat pkt.seqnum = false) :
    unacked s (pkt :: l) = pkt :: l :=
  List.dropWhile_cons_of_neg (by simp [h])

/-- The loop refines `unacked`, keeps the two counts together and ends. -/
theorem ackLoop_spec (s : UInt8) {window : Queue} {l : List Pkt} (hl : window.Holds l)
    {fuel : Nat} (hfuel : l.length < fuel) (n : UInt8) (c : Bool) :
    ∃ window' c', ackLoop s fuel { window := window, pktInWindow := n, isChanged := c } =
        .ok { window := window'
              pktInWindow := n - UInt8.ofNat (l.length - (unacked s l).length)
              isChanged := c' } ∧
      window'.Holds (unacked s l) := by
  induction fuel generalizing window l n c with
  | zero => exact absurd hfuel (Nat.not_lt_zero _)
  | succ fuel ih =>
      cases l with
      | nil =>
          have hcmp : window.isHigherOrEqual s.toNat = .ok false := hl.isHigherOrEqual _
          simp only [ackLoop, hcmp, ok_bind]
          exact ⟨window, c, by simp [pure, Except.pure], hl⟩
      | cons pkt l =>
          have hcmp : window.isHigherOrEqual s.toNat =
              .ok (Queue.seqnumHigherOrEqual s.toNat pkt.seqnum) := hl.isHigherOrEqual _
          simp only [ackLoop, hcmp, ok_bind]
          cases h : Queue.seqnumHigherOrEqual s.toNat pkt.seqnum with
          | true =>
              rw [if_pos rfl, unacked_cons_of_higher h]
              obtain ⟨window', c', hrun, hholds⟩ :=
                ih hl.dequeue (Nat.lt_of_succ_lt_succ hfuel) (n - 1) true
              refine ⟨window', c', ?_, hholds⟩
              have hle := unacked_length_le s l
              have hcount : (pkt :: l).length - (unacked s l).length =
                  (l.length - (unacked s l).length) + 1 := by
                rw [List.length_cons]
                omega
              -- `pkt_in_window` is 8-bit and goes down by one here and by `k` in the rest
              have hsub (k : UInt8) : n - 1 - k = n - (k + 1) := by grind
              rw [hrun, hcount, ofNat_succ, hsub]
          | false =>
              rw [unacked_cons_of_not_higher h]
              exact ⟨window, c, by simp [pure, Except.pure], hl⟩

/-- The ACK case: only the window, its count, its size and the statistics change,
    and nothing is sent. -/
theorem ackCase_spec (env : SenderEnv) {st : SenderState} {l : List Pkt} (hl : st.window.Holds l)
    (socketPkt : Pkt) (s : UInt8) :
    ∃ window' senderLogger', ackCase env st socketPkt s =
        .ok { state := { st with
          window := window'
          pktInWindow := st.pktInWindow - UInt8.ofNat (l.length - (unacked s l).length)
          sendingWindowSize := UInt8.ofNat socketPkt.window.toNat
          senderLogger := senderLogger' } } ∧
      window'.Holds (unacked s l) := by
  -- every pass takes out a packet, so `size` passes are enough
  have hfuel : l.length < st.window.size.toNat + 1 := by
    rw [hl.size]
    omega
  obtain ⟨window', c', hrun, hholds⟩ := ackLoop_spec s hl hfuel st.pktInWindow false
  simp only [ackCase, hrun, ok_bind]
  exact ⟨window', _, rfl, hholds⟩

/-! ## What is taken out of a window of consecutive numbers -/

/-- A number in the window takes out the packets up to it. -/
theorem unacked_of_lt {h s : UInt8} {l : List Pkt} (hc : Consecutive h l) (hlen : l.length ≤ 31)
    (hd : distance h s < l.length) : unacked s l = l.drop (distance h s + 1) := by
  induction l generalizing h with
  | nil => exact absurd hd (Nat.not_lt_zero _)
  | cons pkt l ih =>
      rw [List.length_cons] at hlen hd
      have hhead : Queue.seqnumHigherOrEqual s.toNat pkt.seqnum = true := by
        rw [hc.1]
        exact seqnumHigherOrEqual_of_distance (by omega)
      rw [unacked_cons_of_higher hhead]
      by_cases hs : s = h
      · subst hs
        rw [distance_self, List.drop_succ_cons, List.drop_zero]
        -- the next packet is 255 ahead of the number, so the loop stops there
        cases l with
        | nil => rfl
        | cons next l =>
            apply unacked_cons_of_not_higher
            rw [hc.2.1]
            exact not_seqnumHigherOrEqual_of_distance (by rw [distance_succ_self]; omega)
      · -- one step closer, seen from the packet behind
        have hsucc := distance_succ hs
        rw [ih hc.tail (by omega) (by omega), hsucc, List.drop_succ_cons]

/-- A number the comparison does not place ahead of the head takes out nothing. -/
theorem unacked_of_not_higher {h s : UInt8} {l : List Pkt} (hc : Consecutive h l)
    (hs : Queue.seqnumHigherOrEqual s.toNat h = false) : unacked s l = l := by
  cases l with
  | nil => rfl
  | cons pkt l =>
      apply unacked_cons_of_not_higher
      rwa [hc.1]

/-- A number it does place ahead of the head takes out at least the head. -/
theorem unacked_of_higher {h s : UInt8} {l : List Pkt} (hc : Consecutive h l) (hne : l ≠ [])
    (hs : Queue.seqnumHigherOrEqual s.toNat h = true) : (unacked s l).length < l.length := by
  cases l with
  | nil => exact absurd rfl hne
  | cons pkt l =>
      rw [unacked_cons_of_higher (by rwa [hc.1]), List.length_cons]
      exact Nat.lt_succ_of_le (unacked_length_le s l)

/-! ## Exact acknowledgement -/

/-- How many packets of a window of `n` numbers from `h` the ACK `a` names: those
    up to `a - 1`. -/
def acknowledged (h a : UInt8) (n : Nat) : Nat :=
  if distance h (a - 1) < n then distance h (a - 1) + 1 else 0

/-- Processing the ACK takes out the packets it names and no others. -/
def AckExact [Zlib] (env : SenderEnv) (st : SenderState) (socketPkt : Pkt) (h : UInt8)
    (l : List Pkt) : Prop :=
  ∃ t, socketCase env st socketPkt = .ok t ∧ t.stop = none ∧
    t.state.window.Holds (l.drop (acknowledged h socketPkt.seqnum l.length)) ∧
    t.state.pktInWindow =
      st.pktInWindow - UInt8.ofNat (acknowledged h socketPkt.seqnum l.length)

theorem socketCase_ack [Zlib] (env : SenderEnv) (st : SenderState) {socketPkt : Pkt}
    (htype : socketPkt.type = ptypeAck) (htr : socketPkt.tr ≠ 1) :
    socketCase env st socketPkt = ackCase env st socketPkt (socketPkt.seqnum - 1) := by
  have hdata : ptypeAck ≠ ptypeData := by decide
  simp only [socketCase, if_pos htr, htype, if_neg hdata, if_pos, previousSeqnum_eq]

/-- The acknowledgement is exact if and only if it is one of a packet in the window
    or one the comparison does not take for newer than the head. -/
theorem ack_exact_iff [Zlib] (env : SenderEnv) (st : SenderState) (h : UInt8) (l : List Pkt)
    (hl : st.window.Holds l) (hc : Consecutive h l) (socketPkt : Pkt)
    (htype : socketPkt.type = ptypeAck) (htr : socketPkt.tr ≠ 1) :
    AckExact env st socketPkt h l ↔
      l = [] ∨ distance h (socketPkt.seqnum - 1) < l.length ∨
        (if h ≤ socketPkt.seqnum - 1 then 100 else 155) < distance h (socketPkt.seqnum - 1) := by
  have hlen := hl.length_le
  obtain ⟨window', lg, hrun, hholds⟩ := ackCase_spec env hl socketPkt (socketPkt.seqnum - 1)
  rw [← socketCase_ack env st htype htr] at hrun
  have hcmp := seqnumHigherOrEqual_iff (socketPkt.seqnum - 1) h
  generalize hs : socketPkt.seqnum - 1 = s at *
  by_cases hd : distance h s < l.length
  · -- the number of a packet in the window
    have hack : acknowledged h socketPkt.seqnum l.length = distance h s + 1 := by
      rw [acknowledged, hs, if_pos hd]
    rw [unacked_of_lt hc hlen hd] at hrun hholds
    refine ⟨fun _ => Or.inr (Or.inl hd), fun _ => ⟨_, hrun, rfl, ?_, ?_⟩⟩
    · rwa [hack]
    · rw [hack, List.length_drop, Nat.sub_sub_self hd]
  · -- a number outside the window: exact means that nothing is taken out
    have hack : acknowledged h socketPkt.seqnum l.length = 0 := by
      rw [acknowledged, hs, if_neg hd]
    refine ⟨?_, ?_⟩
    · -- the comparison takes such a number for newer up to 100 ahead, or 155 across the wrap
      rintro ⟨t, ht, -, hexact, -⟩
      rw [hrun, Except.ok.injEq] at ht
      subst ht
      rw [hack, List.drop_zero] at hexact
      by_cases hne : l = []
      · exact Or.inl hne
      · refine Or.inr (Or.inr ?_)
        by_contra hfar
        have hlt := unacked_of_higher hc hne (hcmp.mpr (Nat.le_of_not_lt hfar))
        have hsize := hexact.size.symm.trans hholds.size
        omega
    · intro hcond
      have hkeep : unacked s l = l := by
        rcases hcond with rfl | hin | hfar
        · rfl
        · exact absurd hin hd
        · apply unacked_of_not_higher hc
          rw [← Bool.not_eq_true, hcmp]
          omega
      rw [hkeep] at hrun hholds
      refine ⟨_, hrun, rfl, ?_, ?_⟩
      · rwa [hack, List.drop_zero]
      · rw [hack, Nat.sub_self]

/-! ### Two acknowledgements -/

/-- A sender that has sent `l` and then runs undisturbed. -/
def senderHolding (l : List Pkt) : SenderState where
  pktBuffer := fun _ => 0
  nb := 1
  seqnum := l.getLast?.elim 0 fun pkt => pkt.seqnum + 1
  pktInWindow := UInt8.ofNat l.length
  window := Queue.newList.addAll l
  sendingWindowSize := 31
  startingTimestamp := 0
  senderLogger := Logger.newLogger true false default

/-- A turn with nothing to read, at `clock` milliseconds. -/
def quietEnv (clock : Int) : SenderEnv where
  pollFails := false
  input := none
  socket := none
  milliseconds := fun _ => clock
  fresh := fun _ => replyPkt 0 0 0
  send := 0

/-- The window 254, 255, 0 and the ACK 0, which names the first two. -/
theorem ack_exact_iff_wrap : letI := zlib
    let l := [bytePkt 254 0 1, bytePkt 255 0 2, bytePkt 0 0 3]
    AckExact (quietEnv 0) (senderHolding l) (replyPkt ptypeAck 31 0) 254 l ↔
      l = [] ∨ distance 254 (0 - 1) < 3 ∨
        (if (254 : UInt8) ≤ 0 - 1 then 100 else 155) < distance 254 (0 - 1) :=
  letI := zlib
  ack_exact_iff (quietEnv 0) (senderHolding [bytePkt 254 0 1, bytePkt 255 0 2, bytePkt 0 0 3]) 254
    [bytePkt 254 0 1, bytePkt 255 0 2, bytePkt 0 0 3] (Queue.newList_holds.addAll (by decide))
    ⟨rfl, rfl, rfl, trivial⟩ (replyPkt ptypeAck 31 0) rfl (by decide)

/-- The ACK 51 empties the window that holds the packet 200 only: 50 comes 106
    after 200, and 150 below it. -/
theorem ack_not_exact : ¬ ∀ [Zlib] (env : SenderEnv) (st : SenderState) (h : UInt8) (l : List Pkt)
    (socketPkt : Pkt), st.window.Holds l → Consecutive h l → socketPkt.type = ptypeAck →
    socketPkt.tr ≠ 1 → AckExact env st socketPkt h l := by
  intro hall
  let _ := zlib
  obtain ⟨t, ht, -, hholds, -⟩ := hall (quietEnv 0) (senderHolding [bytePkt 200 0 1]) 200
    [bytePkt 200 0 1] (replyPkt ptypeAck 31 51) (Queue.newList_holds.addAll (by decide)) ⟨rfl, trivial⟩ rfl
    (by decide)
  have hempty : (socketCase (quietEnv 0) (senderHolding [bytePkt 200 0 1])
      (replyPkt ptypeAck 31 51)).map (fun t => t.state.window.size) = .ok 0 := by decide
  rw [ht] at hempty
  have hone : t.state.window.size = 1 := hholds.size
  rw [Except.map, hone] at hempty
  exact absurd hempty (by decide)

end SelectiveRepeat
