/-
  SelectiveRepeat.Sender.Acked

  Which packets of a run were acknowledged.  The ring holds the packets made last, in
  order, and only an ACK takes any out.  Those before the packet that it names are then
  acknowledged with it; but `is_higher_or_equal` also accepts an ACK that comes more than
  100 numbers late, and takes out packets for it that nobody has acknowledged.
-/
import SelectiveRepeat.Sender.History

namespace SelectiveRepeat

/-- The reads that made a packet: all that did not meet the end of the input. -/
def packetsOf (steps : List SenderStep) : List ReadResult :=
  (readsOf steps).filter fun r => r.nb MAX_PAYLOAD_SIZE ≠ 0

theorem packetsOf_append (steps : List SenderStep) (step : SenderStep) :
    (packetsOf (steps ++ [step])).length =
      (packetsOf steps).length + (step.env.numberAdded step.before).length := by
  rw [packetsOf, readsOf_append, List.filter_append, List.length_append, SenderEnv.numberAdded]
  congr 1
  cases step.env.inputRead step.before with
  | none => rfl
  | some r =>
      by_cases hzero : r.nb MAX_PAYLOAD_SIZE = 0
      · simp [hzero]
      · simp [hzero]

section
variable [Zlib]

/-- The ACK of the turn names no packet of the window, and `is_higher_or_equal` puts it at or
    behind the oldest one all the same. -/
def SenderEnv.Astray (env : SenderEnv) (st : SenderState) : Prop :=
  ∃ q, env.heard st = some q ∧ q.type = ptypeAck ∧ ∀ l, st.window.Holds l →
    q.seqnum - 1 ∉ l.map Pkt.seqnum ++ env.numberAdded st ∧
      ∃ n ∈ (l.map Pkt.seqnum ++ env.numberAdded st).head?,
        Queue.seqnumHigherOrEqual (q.seqnum - 1).toNat n = true

/-- The turn `step`, after the turns `before`, finds packet `k` of the run in the window and
    takes it out, for an ACK that names it or a later one. -/
structure TakesOut (before : List SenderStep) (step : SenderStep) (k : Nat) : Prop where
  queued : ∀ l, step.before.window.Holds l → (packetsOf before).length ≤ k + l.length
  named : ∃ q j, step.env.heard step.before = some q ∧ q.type = ptypeAck ∧
    q.seqnum = UInt8.ofNat (j + 1) ∧ k ≤ j ∧ j < (packetsOf (before ++ [step])).length
  removed : ∀ l, step.turn.state.window.Holds l →
    k + l.length < (packetsOf (before ++ [step])).length

/-- Some turn has done so. -/
def Acknowledged (steps : List SenderStep) (k : Nat) : Prop :=
  ∃ before step after, steps = before ++ step :: after ∧ TakesOut before step k

theorem Acknowledged.append {steps : List SenderStep} {k : Nat} (h : Acknowledged steps k)
    (step : SenderStep) : Acknowledged (steps ++ [step]) k := by
  obtain ⟨before, step', after, rfl, htakes⟩ := h
  exact ⟨before, step', after ++ [step], by simp, htakes⟩

end

/-! ## The numbers in the window -/

/-- The packets carry the numbers from `lo` on. -/
def NumberedFrom (lo : Nat) (l : List Pkt) : Prop :=
  l.map Pkt.seqnum = (List.range' lo l.length).map UInt8.ofNat

section
variable {lo : Nat} {l l' : List Pkt}

theorem NumberedFrom.getElem (h : NumberedFrom lo l) {i : Nat} (hi : i < l.length) :
    l[i].seqnum = UInt8.ofNat (lo + i) := by
  have hget := congrArg (fun numbers => numbers[i]?) h
  simpa [hi] using hget

theorem NumberedFrom.consecutive (h : NumberedFrom lo l) : Consecutive (UInt8.ofNat lo) l :=
  SendLog.consecutive_of_numbered fun _ hj => h.getElem hj

theorem NumberedFrom.append (h : NumberedFrom lo l) (h' : NumberedFrom (lo + l.length) l') :
    NumberedFrom lo (l ++ l') := by
  rw [NumberedFrom, List.map_append, h, h', List.length_append, ← List.map_append,
    List.range'_append_1]

theorem NumberedFrom.drop (h : NumberedFrom lo l) (n : Nat) : NumberedFrom (lo + n) (l.drop n) := by
  rw [NumberedFrom, List.map_drop, h, ← List.map_drop, List.drop_range', List.length_drop,
    Nat.mul_one]

theorem NumberedFrom.congr (h : NumberedFrom lo l) (hsame : SameButTimestamp l l') :
    NumberedFrom lo l' := by
  rw [NumberedFrom, hsame.seqnums, ← hsame.length_eq]
  exact h

/-- An ACK that does not go astray takes out the packets up to the one it names. -/
theorem remaining_numbered {reply : Option Pkt} (h : NumberedFrom lo l) (hlen : l.length ≤ 31)
    (hastray : ∀ q, reply = some q → q.type = ptypeAck → q.seqnum - 1 ∉ l.map Pkt.seqnum →
      ∀ n ∈ (l.map Pkt.seqnum).head?, Queue.seqnumHigherOrEqual (q.seqnum - 1).toNat n = false) :
    remaining reply l = l ∨ ∃ q i, reply = some q ∧ q.type = ptypeAck ∧
      q.seqnum = UInt8.ofNat (lo + i + 1) ∧ i < l.length ∧ remaining reply l = l.drop (i + 1) := by
  cases reply with
  | none => exact Or.inl rfl
  | some q =>
      by_cases hack : q.type = ptypeAck
      case neg => exact Or.inl (if_neg hack)
      rw [remaining, if_pos hack]
      by_cases hmem : q.seqnum - 1 ∈ l.map Pkt.seqnum
      · -- the place of the packet it names
        obtain ⟨pkt, hpkt, hseq⟩ := List.mem_map.mp hmem
        obtain ⟨i, hi, rfl⟩ := List.getElem_of_mem hpkt
        have hd := h.consecutive.distance_getElem (by omega) hi
        rw [hseq] at hd
        refine Or.inr ⟨q, i, rfl, hack, ?_, hi, ?_⟩
        · rw [ofNat_succ, ← h.getElem hi, hseq, UInt8.sub_add_cancel]
        · rw [unacked_of_lt h.consecutive hlen (by omega), hd]
      · left
        cases l with
        | nil => rfl
        | cons pkt l => exact unacked_cons_of_not_higher (hastray q rfl hack hmem _ rfl)

end

/-! ## Runs -/

/-- The account of a run: the packets in the ring are those made last, in order, and the ones
    before them were acknowledged. -/
structure Accounted [Zlib] (steps : List SenderStep) (st : SenderState) (l : List Pkt) : Prop where
  seqnum : st.seqnum = UInt8.ofNat (packetsOf steps).length
  le : l.length ≤ (packetsOf steps).length
  numbered : NumberedFrom ((packetsOf steps).length - l.length) l
  acked : ∀ k, k + l.length < (packetsOf steps).length → Acknowledged steps k

section
variable [Zlib] {allowed : List SenderStep → SenderEnv → SenderState → Prop}
  {steps : List SenderStep} {st st' : SenderState} {env : SenderEnv} {t : SenderTurn} {buf : Mem}
  {l added l' : List Pkt}

/-- The window when the datagram is looked at. -/
theorem WentThrough.numbered (h : WentThrough env st l t buf added l' st')
    (ha : Accounted steps st l) :
    NumberedFrom ((packetsOf steps).length - l.length) (l ++ added) := by
  refine ha.numbered.append ?_
  have hle := ha.le
  have hadded : added.length = (env.numberAdded st).length := by
    rw [← h.numbers, List.length_map]
  rw [Nat.sub_add_cancel hle, NumberedFrom, h.numbers, hadded, SenderEnv.numberAdded]
  split
  · rfl
  · split
    · rfl
    · rw [ha.seqnum]
      rfl

/-- An ACK that does not go astray names a packet of the window, or takes none out. -/
theorem WentThrough.named (h : WentThrough env st l t buf added l' st') (hl : Counted st l)
    (hastray : ¬ env.Astray st) {q : Pkt} (hq : env.reply buf = some q) (hack : q.type = ptypeAck)
    (hmem : q.seqnum - 1 ∉ (l ++ added).map Pkt.seqnum) :
    ∀ n ∈ ((l ++ added).map Pkt.seqnum).head?,
      Queue.seqnumHigherOrEqual (q.seqnum - 1).toNat n = false := by
  intro n hn
  rw [List.map_append, h.numbers] at hmem hn
  by_contra hhigher
  refine hastray ⟨q, h.heard.trans hq, hack, fun l₀ hl₀ => ?_⟩
  rw [hl₀.unique hl.holds]
  exact ⟨hmem, n, hn, Bool.eq_true_of_not_eq_false hhigher⟩

/-- What a turn keeps in which no ACK goes astray. -/
theorem Accounted.turn (h : Accounted steps st l) (hl : Counted st l) (hastray : ¬ env.Astray st)
    (hthrough : WentThrough env st l t buf added l' st') (hwindow : t.state.window = st'.window) :
    Accounted (steps ++ [{ env := env, before := st, turn := t }]) st' l' := by
  have hle := h.le
  have hnumbers := hthrough.numbers
  have hcount : (packetsOf (steps ++ [{ env := env, before := st, turn := t }])).length =
      (packetsOf steps).length + added.length := by
    rw [packetsOf_append, ← hnumbers, List.length_map]
  have hseq : st'.seqnum =
      UInt8.ofNat (packetsOf (steps ++ [{ env := env, before := st, turn := t }])).length := by
    rw [hthrough.seqnum, h.seqnum, hcount, UInt8.ofNat_add]
  have hnumbered := hthrough.numbered h
  have hlen := hthrough.left.length_eq
  have hmade : (l ++ added).length = l.length + added.length := List.length_append
  have hold : ∀ k, k + l.length < (packetsOf steps).length →
      Acknowledged (steps ++ [{ env := env, before := st, turn := t }]) k :=
    fun k hk => (h.acked k hk).append _
  rcases remaining_numbered hnumbered hthrough.room (fun _ => hthrough.named hl hastray) with
    hall | ⟨q, i, hq, hack, hqseq, hi, hleft⟩
  · -- nothing is taken out
    have hsame := hthrough.left
    rw [hall] at hsame hlen
    refine ⟨hseq, by omega, ?_, fun k hk => hold k (by omega)⟩
    rw [hcount, show (packetsOf steps).length + added.length - l'.length =
      (packetsOf steps).length - l.length by omega]
    exact hnumbered.congr hsame
  · have hsame := hthrough.left
    rw [hleft] at hsame hlen
    rw [List.length_drop] at hlen
    refine ⟨hseq, by omega, ?_, fun k hk => ?_⟩
    · rw [hcount, show (packetsOf steps).length + added.length - l'.length =
        (packetsOf steps).length - l.length + (i + 1) by omega]
      exact (hnumbered.drop (i + 1)).congr hsame
    · by_cases hk' : k + l.length < (packetsOf steps).length
      · exact hold k hk'
      · -- in the window until now
        refine ⟨steps, _, [], rfl, ⟨fun l₀ hl₀ => ?_, ?_, fun l₀ hl₀ => ?_⟩⟩
        · rw [hl₀.unique hl.holds]
          omega
        · exact ⟨q, _, hthrough.heard.trans hq, hack, hqseq, by omega, by omega⟩
        · dsimp only at hl₀
          rw [hwindow] at hl₀
          rw [hl₀.unique hthrough.counted.holds]
          exact hk

end

end SelectiveRepeat
