/-
  SelectiveRepeat.Receiver.Order

  The order in which packets arrive does not matter to the receiver.  After any
  sequence of packets from a set, with or without repetitions, what is known of
  the stream is the union of what was stored and what arrived, and the union
  alone determines what is written, the expected number and what is left.
-/
import SelectiveRepeat.Receiver.Run
import SelectiveRepeat.Sender.Queued

namespace SelectiveRepeat

open Reassembly

/-! ## The packets that arrive -/

/-- Packets with a place in the window, which agree on the payload of a number with
    each other and with what is stored. -/
structure Offered (st : ReceiverState) (P : List Pkt) : Prop where
  queued : ∀ p ∈ P, p.Queued
  near : ∀ p ∈ P, distance st.waitedSeqnum p.seqnum ≤ 30
  agree : ∀ p ∈ P, ∀ p' ∈ P, p.seqnum = p'.seqnum → p.data = p'.data
  stored : ∀ p ∈ P, ∀ i elem, st.window.cells i = some elem → elem.seqnum = p.seqnum →
    elem.data = p.data

/-- A turn that receives `p` and in which nothing fails. -/
structure ReceiverEnv.Delivers [Zlib] (env : ReceiverEnv) (p : Pkt) : Prop where
  poll : env.poll = .ready (.bytes p.wire)
  whole : env.WritesWhole
  send : env.send ≠ 0
  malloc : env.malloc ≠ none

/-- The payloads stored in `st` and those of `P`, by their position from the expected
    number on. -/
def union (st : ReceiverState) (P : List Pkt) : Nat → Option Bytes := fun i =>
  ((st.window.cells i).map Pstl.data).or
    (first (P.map fun p => (distance st.waitedSeqnum p.seqnum, p.data)) i)

theorem union_append (st : ReceiverState) (P : List Pkt) (p : Pkt) (i : Nat) :
    union st (P ++ [p]) i =
      accept (union st P) (distance st.waitedSeqnum p.seqnum) p.data i := by
  have hboth : ∀ j, ((st.window.cells j).map Pstl.data).or
      (first (P.map fun p => (distance st.waitedSeqnum p.seqnum, p.data)) j) = union st P j :=
    fun _ => rfl
  rw [union, List.map_append, List.map_singleton, first_append]
  exact accept_or hboth _ _ i

section
variable {st : ReceiverState} {P : List Pkt}

/-- What the union holds comes from one of the two. -/
theorem union_source {i : Nat} {x : Bytes} (h : union st P i = some x) :
    (∃ elem, st.window.cells i = some elem ∧ elem.data = x) ∨
      ∃ p ∈ P, distance st.waitedSeqnum p.seqnum = i ∧ p.data = x := by
  rw [union, Option.or_eq_some_iff] at h
  rcases h with hstored | ⟨-, hfirst⟩
  · exact Or.inl (by simpa using hstored)
  · obtain ⟨p, hp, heq⟩ := List.mem_map.mp (mem_of_first hfirst)
    rw [Prod.mk.injEq] at heq
    exact Or.inr ⟨p, hp, heq.1, heq.2⟩

/-- Agreement makes it a function of the set of packets. -/
theorem union_eq_some (hready : Ready st) (hP : Offered st P) {i : Nat} {x : Bytes} :
    union st P i = some x ↔
      (∃ elem, st.window.cells i = some elem ∧ elem.data = x) ∨
        ∃ p ∈ P, distance st.waitedSeqnum p.seqnum = i ∧ p.data = x := by
  refine ⟨union_source, ?_⟩
  rintro (⟨elem, helem, rfl⟩ | ⟨p, hp, hi, rfl⟩)
  · rw [union, helem]
    rfl
  · cases hcell : st.window.cells i with
    | some elem =>
        -- a stored packet has the same number, and hence the same payload
        have hnum : elem.seqnum = p.seqnum :=
          (hready.placed.seqnum i elem hcell).trans (seqnum_of_distance hi).symm
        rw [union, hcell, ← hP.stored p hp i elem hcell hnum]
        rfl
    | none =>
        -- the first packet of `P` for the place has the payload of every other one
        have hmem : (i, p.data) ∈ P.map fun p => (distance st.waitedSeqnum p.seqnum, p.data) :=
          List.mem_map.mpr ⟨p, hp, by rw [hi]⟩
        obtain ⟨y, hy⟩ := first_of_mem hmem
        obtain ⟨p', hp', heq⟩ := List.mem_map.mp (mem_of_first hy)
        rw [Prod.mk.injEq] at heq
        have hnum : p'.seqnum = p.seqnum :=
          (seqnum_of_distance heq.1).trans (seqnum_of_distance hi).symm
        rw [union, hcell, Option.map_none, Option.none_or, hy, ← heq.2,
          hP.agree p' hp' p hp hnum]

theorem Offered.subset (hP : Offered st P) {l : List Pkt} (hl : ∀ p ∈ l, p ∈ P) :
    Offered st l where
  queued := fun p hp => hP.queued p (hl p hp)
  near := fun p hp => hP.near p (hl p hp)
  agree := fun p hp p' hp' => hP.agree p (hl p hp) p' (hl p' hp')
  stored := fun p hp => hP.stored p (hl p hp)

theorem union_congr (hready : Ready st) (hP : Offered st P) {order : List Pkt}
    (hsame : ∀ p, p ∈ order ↔ p ∈ P) : union st order = union st P := by
  have horder : Offered st order := hP.subset fun p hp => (hsame p).mp hp
  funext i
  apply Option.ext
  intro x
  rw [union_eq_some hready horder, union_eq_some hready hP]
  simp only [hsame]

theorem union_above (hP : Offered st P) {i : Nat} (hi : 31 ≤ i) : union st P i = none := by
  cases h : union st P i with
  | none => rfl
  | some x =>
      rcases union_source h with ⟨elem, helem, -⟩ | ⟨p, hp, hd, -⟩
      · rw [st.window.cells_of_ge hi] at helem
        exact absurd helem (by simp)
      · have hnear := hP.near p hp
        omega

theorem union_ne_nil (hP : Offered st P)
    (hfull : ∀ i elem, st.window.cells i = some elem → elem.data ≠ []) {i : Nat} {x : Bytes}
    (h : union st P i = some x) : x ≠ [] := by
  rcases union_source h with ⟨elem, helem, rfl⟩ | ⟨p, hp, -, rfl⟩
  · exact hfull i elem helem
  · exact (hP.queued p hp).data_ne_nil

end

/-! ## What a prefix of the arrivals has done -/

/-- The window as the part of some stream from the expected number on. -/
theorem Ready.represents {st : ReceiverState} (h : Ready st) :
    ∃ known, Represents st st.waitedSeqnum.toNat known ∧
      ∀ i, (known (st.waitedSeqnum.toNat + i)).map Prod.fst =
        (st.window.cells i).map Pstl.data := by
  refine ⟨fun k => if k < st.waitedSeqnum.toNat then some ([], 0) else
    (st.window.cells (k - st.waitedSeqnum.toNat)).map Pstl.item, ⟨h, ?_, ?_, ?_⟩, ?_⟩
  · rw [UInt8.ofNat_toNat]
  · intro i
    rw [if_neg (by omega), Nat.add_sub_cancel_left]
  · intro k hk
    exact ⟨([], 0), if_pos hk⟩
  · intro i
    dsimp only
    rw [if_neg (by omega), Nat.add_sub_cancel_left, Option.map_map]
    rfl

/-- The run after the packets `seen`, started in `st`. -/
structure Absorbs (st : ReceiverState) (seen : List Pkt) (run : ReceiverRun) : Prop where
  stop : run.stop = none
  represents : ∃ known,
    Represents run.state (st.waitedSeqnum.toNat + run.written.length) known ∧
      ∀ i, (known (st.waitedSeqnum.toNat + i)).map Prod.fst = union st seen i
  written : run.written.map Prod.fst = assembled (union st seen) run.written.length

/-- What was written ends where the union has its first gap. -/
theorem Absorbs.gap {st : ReceiverState} {seen : List Pkt} {run : ReceiverRun}
    (h : Absorbs st seen run) : Gap (union st seen) run.written.length := by
  obtain ⟨known, hrep, hknown⟩ := h.represents
  refine ⟨fun k hk => ?_, ?_⟩
  · obtain ⟨x, hx⟩ := hrep.below (st.waitedSeqnum.toNat + k) (by omega)
    exact ⟨x.1, by rw [← hknown, hx]; rfl⟩
  · rw [← hknown, hrep.gap.gap]
    rfl

theorem absorbs_start {st : ReceiverState} (h : Ready st) : Absorbs st [] { state := st } := by
  obtain ⟨known, hrep, hknown⟩ := h.represents
  refine ⟨rfl, ⟨known, hrep, fun i => ?_⟩, rfl⟩
  rw [hknown, union, List.map_nil, first_nil, Option.or_none]

/-- In a turn in which nothing fails, a non-empty packet does not end the loop. -/
theorem Effect.goes_on [Zlib] {env : ReceiverEnv} {st : ReceiverState} {W : Nat}
    {known : Nat → Option Item} {q : Pkt} {t : ReceiverTurn} (heffect : Effect env st W known q t)
    (hne : q.data ≠ []) (hfull : ∀ k, W ≤ k → ∀ x, known k = some x → x.1 ≠ [])
    (hwhole : env.WritesWhole) (hsend : env.send ≠ 0) (hmalloc : env.malloc ≠ none) :
    t.stop = none := by
  have hgo (hstop : GoesOn env t) : t.stop = none :=
    hstop.resolve_right fun h => hsend h.2
  cases heffect with
  | truncated _ _ _ _ _ hstop => exact hgo hstop
  | ignored _ _ _ _ _ _ hstop => exact hgo hstop
  | stored _ _ _ _ _ _ _ hstop => exact hgo hstop
  | noMemory _ _ _ hnone => exact absurd hnone hmalloc
  | disconnect _ _ hempty => exact absurd hempty hne
  | delivered _ _ _ _ _ _ _ _ _ _ _ _ hstop => exact hgo hstop
  | storedDisconnect xs _ _ _ _ _ _ hend =>
      exact absurd rfl (hfull (W + 1 + xs.length) (by omega) _ hend)
  | writeFailed _ _ _ _ _ _ _ hfail =>
      obtain ⟨n, payload, hpayload, hzero⟩ := hfail
      exact absurd hzero (hwhole.ne_zero n hpayload)

/-- What one arrival preserves. -/
theorem Absorbs.step [Zlib] {st : ReceiverState} {P seen : List Pkt} {run : ReceiverRun}
    (h : Absorbs st seen run) (hP : Offered st P)
    (hfull : ∀ i elem, st.window.cells i = some elem → elem.data ≠ [])
    (hseen : ∀ p ∈ seen, p ∈ P) {p : Pkt} (hp : p ∈ P) {env : ReceiverEnv}
    (henv : env.Delivers p) :
    ∃ run', run.turn env = .ok run' ∧ Absorbs st (seen ++ [p]) run' := by
  obtain ⟨hgo, ⟨known, hrep, hknown⟩, hwritten⟩ := h
  have hoffered := hP.subset hseen
  have hq := hP.queued p hp
  obtain ⟨q, hinc, hsame, htr, hdata⟩ :=
    ReceiverEnv.incoming_wire run.state henv.poll hq.sized hq.type
  replace htr : q.tr = 0 := htr.trans hq.tr
  replace hdata : q.data = p.data := hdata hq.tr
  -- the gap is at most 31 places away
  have hm : run.written.length ≤ 31 := by
    by_contra hlt
    obtain ⟨x, hx⟩ := hrep.below (st.waitedSeqnum.toNat + 31) (by omega)
    have hnone := union_above hoffered (Nat.le_refl 31)
    rw [← hknown, hx] at hnone
    exact absurd hnone (by simp)
  -- `p` has an absolute number, which places it wherever the window has moved to
  have hseq : q.seqnum = UInt8.ofNat (st.waitedSeqnum.toNat + distance st.waitedSeqnum p.seqnum) := by
    rw [hsame.seqnum, UInt8.ofNat_add, UInt8.ofNat_toNat]
    exact seqnum_of_distance rfl
  have hd := hP.near p hp
  obtain ⟨hslot, harrive⟩ := hrep.arrive_near (by omega) (by omega) htr hseq
  obtain ⟨t, hturn, heffect⟩ := readWriteLoopServer_effect hrep hinc (Or.inr hslot)
  -- nothing stored is empty, so the loop cannot end here
  have hne : ∀ k, st.waitedSeqnum.toNat + run.written.length ≤ k →
      ∀ x, known k = some x → x.1 ≠ [] := by
    intro k hk x hx
    apply union_ne_nil (i := k - st.waitedSeqnum.toNat) hoffered hfull
    rw [← hknown, show st.waitedSeqnum.toNat + (k - st.waitedSeqnum.toNat) = k by omega, hx]
    rfl
  have hstop := heffect.goes_on (by rw [hdata]; exact hq.data_ne_nil) hne henv.whole henv.send
    henv.malloc
  have hunion : ∀ i, (arrive run.state (st.waitedSeqnum.toNat + run.written.length) known q
      (st.waitedSeqnum.toNat + i)).map Prod.fst = union st (seen ++ [p]) i := by
    intro i
    rw [harrive, union_append, accept_map hknown, Pkt.item, hdata]
  have hout := heffect.written hrep
  refine ⟨_, ReceiverRun.turn_of_ok hgo hturn, hstop, ⟨_, ?_, hunion⟩, ?_⟩
  · have hrep' := heffect.represents hstop
    rwa [Nat.add_assoc, ← List.length_append] at hrep'
  · -- what was written before is the part of the stream below the old gap
    have hlow : assembled (arrive run.state (st.waitedSeqnum.toNat + run.written.length) known q)
        st.waitedSeqnum.toNat = assembled known st.waitedSeqnum.toNat := by
      apply assembled_congr
      intro k hk
      rw [harrive, accept_of_ne (by omega)]
    rw [Nat.add_assoc, assembled_from hunion, assembled_from hknown, hlow, List.append_assoc,
      List.append_cancel_left_eq] at hout
    rw [List.map_append, List.length_append, hwritten]
    exact hout.symm

/-- What the whole sequence of arrivals has done. -/
theorem Absorbs.run [Zlib] {st : ReceiverState} {P : List Pkt} (hP : Offered st P)
    (hfull : ∀ i elem, st.window.cells i = some elem → elem.data ≠ [])
    {order : List Pkt} {envs : List ReceiverEnv}
    (henvs : List.Forall₂ (fun p env => ReceiverEnv.Delivers env p) order envs)
    (horder : ∀ p ∈ order, p ∈ P) {seen : List Pkt} (hseen : ∀ p ∈ seen, p ∈ P)
    {run : ReceiverRun} (h : Absorbs st seen run) :
    ∃ run', receiverTurns envs run = .ok run' ∧ Absorbs st (seen ++ order) run' := by
  induction henvs generalizing seen run with
  | nil => exact ⟨run, rfl, by rwa [List.append_nil]⟩
  | @cons p env order envs hd _ ih =>
      rw [List.forall_mem_cons] at horder
      obtain ⟨mid, hturn, hmid⟩ := h.step hP hfull hseen horder.1 hd
      have hseen' : ∀ p' ∈ seen ++ [p], p' ∈ P := by
        intro p' hp'
        rcases List.mem_append.mp hp' with hp' | hp'
        · exact hseen p' hp'
        · rw [List.mem_singleton.mp hp']
          exact horder.1
      obtain ⟨run', hruns, hrun'⟩ := ih horder.2 hseen' hmid
      rw [List.append_assoc, List.singleton_append] at hrun'
      exact ⟨run', (FoldM.foldlM_cons_ok hturn).trans hruns, hrun'⟩

/-! ## Independence of the order -/

/-- Whatever the order and the repetitions: the bytes written are the maximal run of
    the union from the expected number on, the expected number moves to its end, and
    the slots hold the rest of the union. -/
theorem receiverTurns_order [Zlib] {st : ReceiverState} (hready : Ready st)
    (hfull : ∀ i elem, st.window.cells i = some elem → elem.data ≠ [])
    {P : List Pkt} (hP : Offered st P) :
    ∃ xs, Run (union st P) 0 xs ∧ union st P xs.length = none ∧
      ∀ order envs, (∀ p, p ∈ order ↔ p ∈ P) →
        List.Forall₂ (fun p env => ReceiverEnv.Delivers env p) order envs →
        ∃ run, receiverTurns envs { state := st } = .ok run ∧ run.stop = none ∧
          run.written.map Prod.fst = xs ∧
          run.state.waitedSeqnum = st.waitedSeqnum + UInt8.ofNat xs.length ∧
          ∀ i, (run.state.window.cells i).map (fun elem => (elem.seqnum, elem.data)) =
            (union st P (xs.length + i)).map
              (fun payload => (st.waitedSeqnum + UInt8.ofNat (xs.length + i), payload)) := by
  obtain ⟨n, -, hgap⟩ := Gap.exists_le (union_above hP (Nat.le_refl 31))
  have hlen := assembled_length hgap.below
  refine ⟨assembled (union st P) n, run_assembled hgap.below, by rw [hlen]; exact hgap.gap, ?_⟩
  intro order envs hsame henvs
  obtain ⟨run, hruns, habsorbs⟩ :=
    Absorbs.run hP hfull henvs (fun p hp => (hsame p).mp hp) (fun _ hp => absurd hp List.not_mem_nil)
      (absorbs_start hready)
  rw [List.nil_append] at habsorbs
  -- the gap of the union is where the run is
  have hm : run.written.length = n := by
    have hgap' := habsorbs.gap
    rw [union_congr hready hP hsame] at hgap'
    exact hgap'.unique hgap
  obtain ⟨hgo, ⟨known, hrep, hknown⟩, hwritten⟩ := habsorbs
  rw [union_congr hready hP hsame] at hknown hwritten
  rw [hm] at hrep hwritten
  have hwaited : run.state.waitedSeqnum = st.waitedSeqnum + UInt8.ofNat n := by
    rw [hrep.waited, UInt8.ofNat_add, UInt8.ofNat_toNat]
  refine ⟨run, hruns, hgo, hwritten, by rw [hlen]; exact hwaited, fun i => ?_⟩
  rw [hlen, ← hknown, ← Nat.add_assoc, ← hrep.cells i]
  cases hcell : run.state.window.cells i with
  | none => rfl
  | some elem =>
      have hnum := hrep.placed.seqnum i elem hcell
      rw [hwaited, UInt8.add_assoc, ← UInt8.ofNat_add] at hnum
      rw [Option.map_some, Option.map_some, Option.map_some, Option.map_some, hnum]
      rfl

theorem bytePkt_queued (seqnum : UInt8) (timestamp : UInt32) (byte : UInt8) :
    (bytePkt seqnum timestamp byte).Queued :=
  ⟨rfl, rfl, Nat.one_pos, show (1 : Nat) ≤ 512 by omega⟩

theorem datagramEnv_delivers [Zlib] (p : Pkt) : (datagramEnv p.wire).Delivers p :=
  ⟨rfl, fun _ _ => rfl, show (10 : Int) ≠ 0 by omega, by simp [datagramEnv]⟩

/-- Two packets, the second one first and repeated. -/
theorem receiverTurns_order_repeat : letI := zlib
    ∃ xs, Run (union (receiverInit nullMemory false) [bytePkt 0 0 7, bytePkt 1 0 8]) 0 xs ∧
      union (receiverInit nullMemory false) [bytePkt 0 0 7, bytePkt 1 0 8] xs.length = none ∧
      ∃ run, receiverTurns [datagramEnv (bytePkt 1 0 8).wire, datagramEnv (bytePkt 0 0 7).wire,
          datagramEnv (bytePkt 1 0 8).wire] { state := receiverInit nullMemory false } = .ok run ∧
        run.written.map Prod.fst = xs := by
  let _ := zlib
  have hready : Ready (receiverInit nullMemory false) :=
    (receiverInit_tracks nullMemory false nullMemory_null).represents.toReady
  have hcells := receiverInit_cells nullMemory false nullMemory_null
  have hP : Offered (receiverInit nullMemory false) [bytePkt 0 0 7, bytePkt 1 0 8] := by
    refine ⟨?_, ?_, ?_, fun p _ i elem h => absurd h (by simp [hcells])⟩
    · simp only [List.forall_mem_cons, bytePkt_queued, List.not_mem_nil, false_implies,
        implies_true, and_self]
    · simp only [List.forall_mem_cons]
      exact ⟨by decide, by decide, fun _ h => absurd h List.not_mem_nil⟩
    · simp [bytePkt]
  obtain ⟨xs, hxs, hend, hall⟩ :=
    receiverTurns_order hready (fun i elem h => absurd h (by simp [hcells])) hP
  obtain ⟨run, hruns, -, hwritten, -⟩ := hall
    [bytePkt 1 0 8, bytePkt 0 0 7, bytePkt 1 0 8] _ (by simp)
    (.cons (datagramEnv_delivers _) (.cons (datagramEnv_delivers _)
      (.cons (datagramEnv_delivers _) .nil)))
  exact ⟨xs, hxs, hend, run, hruns, hwritten⟩

end SelectiveRepeat
