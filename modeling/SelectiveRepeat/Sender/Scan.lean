/-
  SelectiveRepeat.Sender.Scan

  What the `Check RT` loop sends again.  On the list of packets a pass is `rescan`
  over the places the loop comes to.  Where the numbers wrap, at 30 and at 256,
  it leaves packets out, and these are not sent again however long they wait.
-/
import SelectiveRepeat.Sender.Ack
import SelectiveRepeat.Sender.Pass

namespace SelectiveRepeat

/-! ## One pass over given places -/

/-- The window after a pass over the places `js`, and what the pass sends; `now n`
    is the time its `n`-th step reads. -/
def rescan [Zlib] (clock_time : UInt32) (now : Nat → UInt32) :
    Nat → List Nat → List Pkt → List Pkt × List Bytes
  | _, [], l => (l, [])
  | n, j :: js, l =>
      match l[j]? with
      | none => rescan clock_time now (n + 1) js l
      | some pkt =>
          if timedOut pkt clock_time then
            let r := rescan clock_time now (n + 1) js (l.set j (pkt.restamp (now n)))
            (r.1, (pkt.restamp (now n)).wire :: r.2)
          else rescan clock_time now (n + 1) js l

section
variable [Zlib] {clock_time : UInt32} {now : Nat → UInt32}

theorem rescan_of_timedOut {n j : Nat} {js : List Nat} {l : List Pkt} {pkt : Pkt}
    (hpkt : l[j]? = some pkt) (ht : timedOut pkt clock_time = true) :
    rescan clock_time now n (j :: js) l =
      ((rescan clock_time now (n + 1) js (l.set j (pkt.restamp (now n)))).1,
        (pkt.restamp (now n)).wire ::
          (rescan clock_time now (n + 1) js (l.set j (pkt.restamp (now n)))).2) := by
  simp only [rescan, hpkt, if_pos ht]

theorem rescan_of_not_timedOut {n j : Nat} {js : List Nat} {l : List Pkt} {pkt : Pkt}
    (hpkt : l[j]? = some pkt) (ht : timedOut pkt clock_time = false) :
    rescan clock_time now n (j :: js) l = rescan clock_time now (n + 1) js l := by
  simp [rescan, hpkt, ht]

/-- A pass changes nothing but timestamps. -/
theorem rescan_same (n : Nat) (js : List Nat) (l : List Pkt) :
    SameButTimestamp l (rescan clock_time now n js l).1 := by
  induction js generalizing n l with
  | nil => exact sameButTimestamp_refl l
  | cons j js ih =>
      cases hpkt : l[j]? with
      | none =>
          -- the window has no such place
          simp only [rescan, hpkt]
          exact ih (n + 1) l
      | some pkt =>
          cases ht : timedOut pkt clock_time with
          | true =>
              rw [rescan_of_timedOut hpkt ht]
              exact (sameButTimestamp_set hpkt (now n)).trans (ih (n + 1) _)
          | false =>
              rw [rescan_of_not_timedOut hpkt ht]
              exact ih (n + 1) l

/-- Whatever a pass sends is a packet from one of its places, restamped with the time that
    one of its steps reads. -/
theorem rescan_sent {n : Nat} {js : List Nat} {l : List Pkt} {d : Bytes}
    (hd : d ∈ (rescan clock_time now n js l).2) :
    ∃ j ∈ js, ∃ pkt m, l[j]? = some pkt ∧ d = (pkt.restamp (now m)).wire := by
  induction js generalizing n l with
  | nil => exact absurd hd List.not_mem_nil
  | cons j js ih =>
      cases hpkt : l[j]? with
      | none =>
          simp only [rescan, hpkt] at hd
          obtain ⟨i, hi, h⟩ := ih hd
          exact ⟨i, List.mem_cons_of_mem j hi, h⟩
      | some pkt =>
          cases ht : timedOut pkt clock_time with
          | true =>
              rw [rescan_of_timedOut hpkt ht, List.mem_cons] at hd
              rcases hd with rfl | hd
              · exact ⟨j, List.mem_cons_self, pkt, n, hpkt, rfl⟩
              · -- sent later in the pass, so taken from the window with `j` restamped
                obtain ⟨i, hi, pkt', m, hpkt', rfl⟩ := ih hd
                obtain ⟨pkt₀, ts, hpkt₀, rfl⟩ :=
                  (sameButTimestamp_set hpkt (now n)).getElem? hpkt'
                exact ⟨i, List.mem_cons_of_mem j hi, pkt₀, m, hpkt₀, rfl⟩
          | false =>
              rw [rescan_of_not_timedOut hpkt ht] at hd
              obtain ⟨i, hi, h⟩ := ih hd
              exact ⟨i, List.mem_cons_of_mem j hi, h⟩

/-- It sends every packet that has timed out at one of its places. -/
theorem rescan_complete {n : Nat} {js : List Nat} {l : List Pkt} (hnodup : js.Nodup) {j : Nat}
    (hj : j ∈ js) {pkt : Pkt} (hpkt : l[j]? = some pkt) (ht : timedOut pkt clock_time = true) :
    ∃ ts, (pkt.restamp ts).wire ∈ (rescan clock_time now n js l).2 := by
  induction js generalizing n l with
  | nil => exact absurd hj List.not_mem_nil
  | cons i js ih =>
      rw [List.nodup_cons] at hnodup
      by_cases hij : j = i
      · subst hij
        rw [rescan_of_timedOut hpkt ht]
        exact ⟨now n, List.mem_cons_self⟩
      · have hmem : j ∈ js := List.mem_of_ne_of_mem hij hj
        cases hpkt' : l[i]? with
        | none =>
            simp only [rescan, hpkt']
            exact ih hnodup.2 hmem hpkt
        | some pkt' =>
            cases ht' : timedOut pkt' clock_time with
            | true =>
                rw [rescan_of_timedOut hpkt' ht']
                -- another place is restamped, so `pkt` is still expired when its turn comes
                have hset : (l.set i (pkt'.restamp (now n)))[j]? = some pkt := by
                  rw [List.getElem?_set_ne (Ne.symm hij), hpkt]
                obtain ⟨ts, hts⟩ := ih (n := n + 1) hnodup.2 hmem hset
                exact ⟨ts, List.mem_cons_of_mem _ hts⟩
            | false =>
                rw [rescan_of_not_timedOut hpkt' ht']
                exact ih hnodup.2 hmem hpkt

end

/-! ## The loop is a pass -/

/-- The outcome of a pass: the window holds `l'`, and `sent` was sent. -/
def ScanResult (st : SenderState) (l' : List Pkt) (sent : List Bytes) (r : Exec SenderTurn) :
    Prop :=
  ∃ buf window' senderLogger', window'.Holds l' ∧ window'.ptrPop = st.window.ptrPop ∧
    r = .ok { state := { st with
                pktBuffer := buf
                window := window'
                senderLogger := senderLogger' },
              sent := sent }

theorem scanResult_same {st : SenderState} {l : List Pkt} (hl : st.window.Holds l) :
    ScanResult st l [] (.ok { state := st }) :=
  ⟨st.pktBuffer, st.window, st.senderLogger, hl, rfl, rfl⟩

/-- A pass over places of a window whose packets can be sent. -/
theorem scanPlaces_rescan [Zlib] {env : SenderEnv} {clock_time : UInt32} {st : SenderState}
    {l : List Pkt} (hl : st.window.Holds l) (hq : ∀ pkt ∈ l, pkt.Queued) {js : List Nat}
    (hjs : ∀ j ∈ js, j < l.length) (n : Nat) :
    let now := fun i => env.now (.resend i) st
    ScanResult st (rescan clock_time now n js l).1 (rescan clock_time now n js l).2
      (scanPlaces env clock_time n js st) := by
  intro now
  induction js generalizing st l n with
  | nil => exact scanResult_same hl
  | cons j js ih =>
      obtain ⟨hj, hjs⟩ := List.forall_mem_cons.mp hjs
      have hpkt : l[j]? = some l[j] := List.getElem?_eq_getElem hj
      rw [scanPlaces_cons hl hj, scanSlot]
      cases ht : timedOut l[j] clock_time with
      | true =>
          -- encoded with a new timestamp, stored back and sent; then the pass goes on
          have hqj : (l[j].restamp (now n)).Queued := (hq _ (List.getElem_mem hj)).restamp _
          obtain ⟨buf, henc, hbuf⟩ := hqj.encode st.pktBuffer
          have hsame := sameButTimestamp_set hpkt (now n)
          have hholds : (st.window.store (Ring.slot st.window.ptrPop j) (l[j].restamp (now n))).Holds
              (l.set j (l[j].restamp (now n))) := hl.store hj _
          rw [rescan_of_timedOut hpkt ht]
          simp only [now, henc, ok_bind, ne_eq, not_true_eq_false, if_false, if_true]
          obtain ⟨buf', window', lg', hwin, hptr, hrun⟩ := @ih
            { st with
              pktBuffer := buf
              window := st.window.store (Ring.slot st.window.ptrPop j) (l[j].restamp (now n))
              senderLogger := st.senderLogger.addPacketRetransmitted }
            _ hholds (hsame.queued hq) (by rwa [← hsame.length_eq]) (n + 1)
          rw [hrun, hbuf]
          exact ⟨buf', window', lg', hwin, hptr, rfl⟩
      | false =>
          rw [rescan_of_not_timedOut hpkt ht]
          exact ih hl hq hjs (n + 1)

/-- One pass of the `Check RT` block over a window of consecutive numbers. -/
theorem checkRt_spec [Zlib] (env : SenderEnv) {st : SenderState} {h : UInt8} {l : List Pkt}
    (hl : st.window.Holds l) (hc : Consecutive h l) (hq : ∀ pkt ∈ l, pkt.Queued) :
    let now := fun i => env.now (.resend i) st
    let pass := rescan (env.now .check st) now 0 (if l = [] then [] else visited h l.length) l
    ScanResult st pass.1 pass.2 (checkRt env st) := by
  intro now pass
  rw [checkRt_eq_scan env hl hc]
  apply scanPlaces_rescan hl hq
  intro j hj
  split at hj
  · exact absurd hj List.not_mem_nil
  next hne => exact lt_of_mem_visited (List.length_pos_iff.mpr hne) hj

/-! ## Which packets a pass sends again -/

/-- The packet has waited longer than `TIMEOUT/20`. -/
def Expired (pkt : Pkt) (clock_time : UInt32) : Prop :=
  pkt.timestamp.toNat + 60 < clock_time.toNat

theorem timedOut_iff {pkt : Pkt} {clock_time : UInt32} (h : pkt.timestamp.toNat + 60 < 2 ^ 32) :
    timedOut pkt clock_time = true ↔ Expired pkt clock_time := by
  have hadd : (pkt.timestamp + TIMEOUT / 20).toNat = pkt.timestamp.toNat + 60 := by
    rw [UInt32.toNat_add, show (TIMEOUT / 20).toNat = 60 from rfl, Nat.mod_eq_of_lt h]
  rw [timedOut, decide_eq_true_iff, UInt32.lt_iff_toNat_lt, hadd, Expired]

/-- A copy of the packet, with some timestamp, was sent. -/
def Resent [Zlib] (pkt : Pkt) (sent : List Bytes) : Prop :=
  ∃ ts, (pkt.restamp ts).wire ∈ sent

/-- One pass sends every expired packet of the window again. -/
def ScanComplete [Zlib] (env : SenderEnv) (st : SenderState) (l : List Pkt) : Prop :=
  ∃ t, checkRt env st = .ok t ∧ t.stop = none ∧
    ∀ pkt ∈ l, Expired pkt (env.now .check st) → Resent pkt t.sent

/-- Only packets at visited places are sent. -/
theorem resent_visited [Zlib] {h : UInt8} {l : List Pkt} (hc : Consecutive h l)
    (hlen : l.length ≤ 31) (hq : ∀ pkt ∈ l, pkt.Queued) {clock_time : UInt32}
    {now : Nat → UInt32} {n : Nat} {js : List Nat} {j : Nat} (hj : j < l.length)
    (hr : Resent l[j] (rescan clock_time now n js l).2) : j ∈ js := by
  obtain ⟨ts, hsent⟩ := hr
  obtain ⟨i, hi, pkt, m, hpkt, heq⟩ := rescan_sent hsent
  obtain ⟨hil, rfl⟩ := List.getElem?_eq_some_iff.mp hpkt
  -- equal datagrams have equal numbers, and a number is at one place of the window
  have hnum := congrArg (fun d => d[3]?) heq
  rw [Pkt.wire_seqnum ((hq _ (List.getElem_mem hj)).restamp ts).type,
    Pkt.wire_seqnum ((hq _ (List.getElem_mem hil)).restamp (now m)).type] at hnum
  simp only [Pkt.restamp_seqnum, Option.some.injEq] at hnum
  have hplace : j = i := by
    rw [hc.seqnum_eq_iff (by omega) hj, hc.distance_getElem (by omega) hil] at hnum
    exact hnum
  rwa [hplace]

/-- A pass resends every expired packet if and only if every expired packet is the
    head, has a number up to 30 reached without a wrap at 256, or comes after that
    wrap with a number of at least `(h + 1) % 31`. -/
theorem checkRt_complete_iff [Zlib] (env : SenderEnv) (st : SenderState) (h : UInt8)
    (l : List Pkt) (hl : st.window.Holds l) (hc : Consecutive h l) (hq : ∀ pkt ∈ l, pkt.Queued)
    (hts : ∀ pkt ∈ l, pkt.timestamp.toNat + 60 < 2 ^ 32) :
    ScanComplete env st l ↔
      ∀ j (hj : j < l.length), Expired l[j] (env.now .check st) →
        j = 0 ∨ h.toNat + j ≤ 30 ∨ 256 + (h.toNat + 1) % 31 ≤ h.toNat + j := by
  have hlen := hl.length_le
  obtain ⟨buf, window', lg, -, -, hrun⟩ := checkRt_spec env hl hc hq
  refine ⟨?_, ?_⟩
  · rintro ⟨t, ht, -, hall⟩ j hj hexp
    rw [hrun, Except.ok.injEq] at ht
    subst ht
    have hin := resent_visited hc hlen hq hj (hall _ (List.getElem_mem hj) hexp)
    rw [if_neg (by rintro rfl; exact Nat.not_lt_zero j hj)] at hin
    exact (mem_visited hlen hj).mp hin
  · intro hall
    refine ⟨_, hrun, rfl, fun pkt hpkt hexp => ?_⟩
    obtain ⟨j, hj, rfl⟩ := List.getElem_of_mem hpkt
    have hin := (mem_visited hlen hj).mpr (hall j hj hexp)
    rw [if_neg (by rintro rfl; exact Nat.not_lt_zero j hj)]
    exact rescan_complete (visited_nodup h l.length) hin (List.getElem?_eq_getElem hj)
      ((timedOut_iff (hts _ hpkt)).mpr hexp)

/-- The window 29, 30, 31 in which 31 is not expired. -/
theorem checkRt_complete_iff_wrap : letI := zlib
    let l := [bytePkt 29 0 1, bytePkt 30 0 2, bytePkt 31 90 3]
    ScanComplete (quietEnv 100) (senderHolding l) l ↔
      ∀ j (hj : j < l.length), Expired l[j] ((quietEnv 100).now .check (senderHolding l)) →
        j = 0 ∨ 29 + j ≤ 30 ∨ 256 + (29 + 1) % 31 ≤ 29 + j :=
  let _ := zlib
  checkRt_complete_iff (quietEnv 100)
    (senderHolding [bytePkt 29 0 1, bytePkt 30 0 2, bytePkt 31 90 3]) 29
    [bytePkt 29 0 1, bytePkt 30 0 2, bytePkt 31 90 3] (Queue.newList_holds.addAll (by decide))
    ⟨rfl, rfl, rfl, trivial⟩
    (by
      simp only [List.forall_mem_cons]
      exact ⟨⟨rfl, rfl, by decide, by decide⟩, ⟨rfl, rfl, by decide, by decide⟩,
        ⟨rfl, rfl, by decide, by decide⟩, fun _ h => absurd h List.not_mem_nil⟩)
    (by
      simp only [List.forall_mem_cons]
      exact ⟨by decide, by decide, by decide, fun _ h => absurd h List.not_mem_nil⟩)

/-- Of the window 40, 41 with both packets expired, one pass sends 40 only. -/
theorem checkRt_not_complete : ¬ ∀ [Zlib] (env : SenderEnv) (st : SenderState) (h : UInt8)
    (l : List Pkt), st.window.Holds l → Consecutive h l → (∀ pkt ∈ l, pkt.Queued) →
    (∀ pkt ∈ l, pkt.timestamp.toNat + 60 < 2 ^ 32) → ScanComplete env st l := by
  intro hall
  let _ := zlib
  obtain ⟨t, ht, -, hresent⟩ := hall (quietEnv 100) (senderHolding [bytePkt 40 0 1, bytePkt 41 0 2])
    40 [bytePkt 40 0 1, bytePkt 41 0 2] (Queue.newList_holds.addAll (by decide))
    ⟨rfl, rfl, trivial⟩
    (by
      simp only [List.forall_mem_cons]
      exact ⟨⟨rfl, rfl, by decide, by decide⟩, ⟨rfl, rfl, by decide, by decide⟩,
        fun _ h => absurd h List.not_mem_nil⟩)
    (by
      simp only [List.forall_mem_cons]
      exact ⟨by decide, by decide, fun _ h => absurd h List.not_mem_nil⟩)
  have hsent : (checkRt (quietEnv 100) (senderHolding [bytePkt 40 0 1, bytePkt 41 0 2])).map
      (fun t => t.sent.map (fun d => d[3]?)) = .ok [some 40] := by decide +kernel
  rw [ht, Except.map, Except.ok.injEq] at hsent
  obtain ⟨ts, hmem⟩ := hresent (bytePkt 41 0 2) (by simp) (by unfold Expired; decide)
  have hnum := List.mem_map_of_mem (f := fun d : Bytes => d[3]?) hmem
  rw [hsent, Pkt.wire_seqnum rfl, List.mem_singleton, Pkt.restamp_seqnum] at hnum
  exact absurd hnum (by decide)

end SelectiveRepeat
