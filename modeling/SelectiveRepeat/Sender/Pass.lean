/-
  SelectiveRepeat.Sender.Pass

  Where the `Check RT` loop goes.  It walks the window by sequence number, but
  counts the numbers modulo the size of the window instead of modulo 256: after
  the oldest packet it goes on at `(h + 1) % 31`, and it stops at the first
  number that the window does not hold.  `visited` are the places it comes to.
  Whatever the packets are, the loop is `scanPlaces` over these places, and 32
  calls of `get` are enough for it.
-/
import SelectiveRepeat.Queue.Search
import SelectiveRepeat.Sender.Queued
import Mathlib.Data.List.Range

namespace SelectiveRepeat

/-! ## One pass over given places of the ring -/

/-- What the body of the loop does with the packet `get` found, when the walk is not back at the
    head; `next` is the rest of the pass. -/
def scanSlot [Zlib] (env : SenderEnv) (clock_time : UInt32) (n : Nat)
    (index : Fin MAX_WINDOW_SIZE) (tmpPtk : Pkt) (st : SenderState)
    (next : SenderState → Exec SenderTurn) : Exec SenderTurn :=
  if timedOut tmpPtk clock_time then do
    let tmpPtk := tmpPtk.restamp (env.now (.resend n) st)
    let (status, buf, size) ← pktEncode tmpPtk st.pktBuffer pktBufferSize
    let st := { st with window := st.window.store index tmpPtk, pktBuffer := buf }
    if status ≠ .pktOk then return { state := st, stop := some .encode }
    else
      let t ← next { st with senderLogger := st.senderLogger.addPacketRetransmitted }
      return { t with sent := buf.slice 0 size :: t.sent }
  else next st

/-- A pass over the places `js`, counted from the head; `n` steps of it are done. -/
def scanPlaces [Zlib] (env : SenderEnv) (clock_time : UInt32) :
    Nat → List Nat → SenderState → Exec SenderTurn
  | _, [], st => .ok { state := st }
  | n, j :: js, st =>
      match st.window.window (Ring.slot st.window.ptrPop j) with
      | none => .error .null
      | some tmpPtk =>
          scanSlot env clock_time n (Ring.slot st.window.ptrPop j) tmpPtk st
            (scanPlaces env clock_time (n + 1) js)

section
variable [Zlib] {env : SenderEnv} {clock_time : UInt32}

/-- The rest of a pass is entered with a window that differs in timestamps only. -/
theorem scanSlot_congr {st : SenderState} {l : List Pkt} (hl : st.window.Holds l) {o n : Nat}
    (ho : o < l.length) {next next' : SenderState → Exec SenderTurn}
    (hnext : ∀ st' l', st'.window.Holds l' → SameButTimestamp l l' →
      st'.window.ptrPop = st.window.ptrPop → next st' = next' st') :
    scanSlot env clock_time n (Ring.slot st.window.ptrPop o) l[o] st next =
      scanSlot env clock_time n (Ring.slot st.window.ptrPop o) l[o] st next' := by
  rw [scanSlot, scanSlot]
  split
  · -- entered with the packet stored back under its new timestamp
    have hsame : SameButTimestamp l (l.set o (l[o].restamp (env.now (.resend n) st))) :=
      sameButTimestamp_set (List.getElem?_eq_getElem ho) _
    have hrest (buf : Mem) (lg : Logger) := hnext
      { st with
        pktBuffer := buf
        window := st.window.store (Ring.slot st.window.ptrPop o)
          (l[o].restamp (env.now (.resend n) st))
        senderLogger := lg }
      _ (hl.store ho _) hsame rfl
    simp only [hrest]
  · exact hnext st l hl (sameButTimestamp_refl l) rfl

theorem scanPlaces_cons {st : SenderState} {l : List Pkt} (hl : st.window.Holds l) {o n : Nat}
    (ho : o < l.length) (js : List Nat) :
    scanPlaces env clock_time n (o :: js) st =
      scanSlot env clock_time n (Ring.slot st.window.ptrPop o) l[o] st
        (scanPlaces env clock_time (n + 1) js) := by
  simp only [scanPlaces, hl.cell ho]

end

/-! ## The loop, one number at a time -/

theorem nextScanned_toNat (r : UInt8) : (nextScanned r).toNat = (r.toNat + 1) % 31 := by
  have hlt : (r.toNat + 1) % 31 < 31 := Nat.mod_lt _ (by decide)
  rw [nextScanned, MAX_WINDOW_SIZE, UInt8.toNat_ofNat', Nat.mod_eq_of_lt (by omega)]

section
variable [Zlib] {env : SenderEnv} {clock_time : UInt32}

/-- A number the window holds at place `o`: one call of `get`, and the loop goes on. -/
theorem checkRtLoop_visit {st : SenderState} {h r : UInt8} {l : List Pkt}
    (hl : st.window.Holds l) (hc : Consecutive h l) {p o n calls : Nat} {firstTime : Bool}
    (hr : distance h r = o) (hp : p ≤ o) (ho : o < l.length) (hfirst : o = 0 → firstTime = true) :
    checkRtLoop env clock_time h (calls + 1) n firstTime r (some (Ring.slot st.window.ptrPop p)) st =
      scanSlot env clock_time n (Ring.slot st.window.ptrPop o) l[o] st
        (checkRtLoop env clock_time h calls (n + 1) false (nextScanned r)
          (some (Ring.slot st.window.ptrPop (o + 1)))) := by
  have hlen := hl.length_le
  have hget : st.window.get r (some (Ring.slot st.window.ptrPop p)) =
      .ok (some { tmpPtk := Ring.slot st.window.ptrPop o,
                  supportIt := Ring.slot st.window.ptrPop (o + 1) }) := by
    subst hr
    exact hl.get_found hc hp ho
  -- the number at `o` is the first one again only at the head
  have hgo : ¬ (h = l[o].seqnum ∧ ¬ firstTime = true) := by
    rintro ⟨heq, hf⟩
    rw [eq_comm, hc.seqnum_eq_iff (by omega) ho, distance_self] at heq
    exact hf (hfirst heq)
  simp only [checkRtLoop, hget, hl.cell ho, ok_bind, if_neg hgo]
  rfl

/-- The pass ends at a number the window does not hold. -/
theorem checkRtLoop_miss {st : SenderState} {h r : UInt8} {l : List Pkt}
    (hl : st.window.Holds l) (hc : Consecutive h l) (hr : l.length ≤ distance h r) (calls n : Nat)
    (firstTime : Bool) (supportInt : Option (Fin MAX_WINDOW_SIZE)) :
    checkRtLoop env clock_time h (calls + 1) n firstTime r supportInt st =
      .ok { state := st } := by
  simp only [checkRtLoop, hl.get_none hc hr supportInt, ok_bind]
  rfl

/-- It ends when it comes back to the head. -/
theorem checkRtLoop_head {st : SenderState} {h : UInt8} {l : List Pkt}
    (hl : st.window.Holds l) (hc : Consecutive h l) (hne : 0 < l.length) (calls n : Nat) :
    checkRtLoop env clock_time h (calls + 1) n false h (some st.window.ptrPop) st =
      .ok { state := st } := by
  have hget : st.window.get h (some (Ring.slot st.window.ptrPop 0)) =
      .ok (some { tmpPtk := Ring.slot st.window.ptrPop 0,
                  supportIt := Ring.slot st.window.ptrPop 1 }) := by
    have hfound := hl.get_found (s := h) hc (p := 0) (Nat.zero_le _) (by simpa using hne)
    simpa using hfound
  have hcell := hl.cell hne
  have hseq : h = l[0].seqnum := by
    have hlen := hl.length_le
    rw [eq_comm, hc.seqnum_eq_iff (by omega) hne, distance_self]
  -- the head is found again, no longer for the first time
  rw [Ring.slot_zero] at hget hcell
  simp only [checkRtLoop, hget, hcell, ok_bind]
  rw [if_pos ⟨hseq, by simp⟩]
  rfl

/-- After the number 30 comes 0, which the window holds at its head or not at all. -/
theorem checkRtLoop_wrap {st : SenderState} {h r : UInt8} {l : List Pkt}
    (hl : st.window.Holds l) (hc : Consecutive h l) (hr : r.toNat = 30)
    (ho : distance h r < l.length) (calls n : Nat) :
    checkRtLoop env clock_time h (calls + 1) n false (nextScanned r)
      (some (Ring.slot st.window.ptrPop (distance h r + 1))) st = .ok { state := st } := by
  have hlen := hl.length_le
  have hnext : nextScanned r = 0 := by
    rw [← UInt8.toNat_inj, nextScanned_toNat, hr]
    rfl
  have hd := distance_def h r
  have hz := distance_def h 0
  have hh := h.toNat_lt
  rw [UInt8.toNat_zero] at hz
  rw [hnext]
  by_cases h0 : h = 0
  · -- a full window from 0 on: the ring has come round to the head
    have hslot : Ring.slot st.window.ptrPop (distance h r + 1) = st.window.ptrPop := by
      rw [h0] at hd
      rw [UInt8.toNat_zero] at hd
      rw [h0, show distance 0 r + 1 = MAX_WINDOW_SIZE by simp only [MAX_WINDOW_SIZE]; omega]
      exact Ring.slot_self _
    rw [hslot, ← h0]
    exact checkRtLoop_head hl hc (by omega) calls n
  · -- a window with 30 in it that starts after 0 ends long before 0 comes again
    have hne : h.toNat ≠ 0 := by
      intro heq
      exact h0 (UInt8.toNat_inj.mp heq)
    exact checkRtLoop_miss hl hc (by omega) calls n false _

/-- From a number up to 30 on, the pass takes the places one after the other until the window or
    the numbers up to 30 are exhausted, and needs one more call of `get` to see that. -/
theorem checkRtLoop_block {m : Nat} {st : SenderState} {h r : UInt8} {l : List Pkt}
    (hl : st.window.Holds l) (hc : Consecutive h l) {p n calls : Nat} {firstTime : Bool}
    (hr : r.toNat ≤ 30) (hp : p ≤ distance h r) (hpos : 0 < distance h r)
    (hm : m = min (l.length - distance h r) (31 - r.toNat)) (hcalls : m + 1 ≤ calls) :
    checkRtLoop env clock_time h calls n firstTime r (some (Ring.slot st.window.ptrPop p)) st =
      scanPlaces env clock_time n (List.range' (distance h r) m) st := by
  have hlen := hl.length_le
  -- on the number of places still to come; each step may change the window's timestamps
  induction m generalizing st r l p n calls firstTime with
  | zero =>
      obtain ⟨calls, rfl⟩ : ∃ k, calls = k + 1 := ⟨calls - 1, by omega⟩
      rw [List.range'_zero, checkRtLoop_miss hl hc (by omega)]
      rfl
  | succ m ih =>
      obtain ⟨calls, rfl⟩ : ∃ k, calls = k + 1 := ⟨calls - 1, by omega⟩
      have ho : distance h r < l.length := by omega
      rw [List.range'_succ, scanPlaces_cons hl ho, checkRtLoop_visit hl hc rfl hp ho (by omega)]
      apply scanSlot_congr hl ho
      intro st' l' hl' hsame hptr
      have hc' : Consecutive h l' := hc.congr hsame.seqnums
      have hlen' : l'.length = l.length := hsame.length_eq.symm
      rw [← hptr]
      by_cases h30 : r.toNat = 30
      · -- the last number before the wrap
        have hm0 : m = 0 := by omega
        obtain ⟨calls, rfl⟩ : ∃ k, calls = k + 1 := ⟨calls - 1, by omega⟩
        rw [hm0, List.range'_zero, checkRtLoop_wrap hl' hc' h30 (by omega)]
        rfl
      · -- below 30 the next number modulo 31 is the next number
        have hnext : (nextScanned r).toNat = r.toNat + 1 := by
          rw [nextScanned_toNat]
          omega
        have hd := distance_def h r
        have hd' := distance_def h (nextScanned r)
        have hsucc : distance h (nextScanned r) = distance h r + 1 := by omega
        rw [← hsucc]
        exact ih hl' hc' (by omega) (Nat.le_refl _) (by omega) (by omega) (by omega) (by omega)

end

/-! ## The places one pass comes to -/

/-- The head, then the places from the number `(h + 1) % 31` on. -/
def visited (h : UInt8) (n : Nat) : List Nat :=
  0 :: List.range' (distance h (nextScanned h))
    (min (n - distance h (nextScanned h)) (31 - (nextScanned h).toNat))

theorem distance_nextScanned (h : UInt8) :
    distance h (nextScanned h) =
      if h.toNat < 30 then 1 else 256 + (h.toNat + 1) % 31 - h.toNat := by
  have hd := distance_def h (nextScanned h)
  have hh := h.toNat_lt
  rw [nextScanned_toNat] at hd
  split <;> omega

theorem distance_nextScanned_pos (h : UInt8) : 0 < distance h (nextScanned h) := by
  have hh := h.toNat_lt
  rw [distance_nextScanned]
  split <;> omega

theorem mem_visited {h : UInt8} {n j : Nat} (hn : n ≤ 31) (hj : j < n) :
    j ∈ visited h n ↔
      j = 0 ∨ h.toNat + j ≤ 30 ∨ 256 + (h.toNat + 1) % 31 ≤ h.toNat + j := by
  have hh := h.toNat_lt
  rw [visited, List.mem_cons, List.mem_range'_1, distance_nextScanned, nextScanned_toNat]
  split <;> omega

theorem lt_of_mem_visited {h : UInt8} {n j : Nat} (hn : 0 < n) (hj : j ∈ visited h n) : j < n := by
  rw [visited, List.mem_cons, List.mem_range'_1] at hj
  omega

theorem visited_nodup (h : UInt8) (n : Nat) : (visited h n).Nodup := by
  have hpos := distance_nextScanned_pos h
  rw [visited, List.nodup_cons]
  refine ⟨?_, List.nodup_range'⟩
  rw [List.mem_range'_1]
  omega

/-! ## The whole pass -/

section
variable [Zlib] (env : SenderEnv) {st : SenderState} {h : UInt8} {l : List Pkt}

/-- With 32 calls of `get`, or any larger number, the loop takes the places of `visited`. -/
theorem checkRtLoop_eq_scan (clock_time : UInt32) (hl : st.window.Holds l) (hc : Consecutive h l)
    (hne : l ≠ []) {calls : Nat} (hcalls : 32 ≤ calls) :
    checkRtLoop env clock_time h calls 0 true h none st =
      scanPlaces env clock_time 0 (visited h l.length) st := by
  have hh := h.toNat_lt
  have hlen := hl.length_le
  have hpos : 0 < l.length := List.length_pos_iff.mpr hne
  obtain ⟨calls, rfl⟩ : ∃ k, calls = k + 1 := ⟨calls - 1, by omega⟩
  -- the first `get` has no index to resume from, which means the head
  have hstart : checkRtLoop env clock_time h (calls + 1) 0 true h none st =
      checkRtLoop env clock_time h (calls + 1) 0 true h (some (Ring.slot st.window.ptrPop 0)) st := by
    simp only [checkRtLoop, Queue.get_head]
  rw [hstart, visited, scanPlaces_cons hl hpos,
    checkRtLoop_visit hl hc (distance_self h) (Nat.le_refl 0) hpos (fun _ => rfl)]
  apply scanSlot_congr hl hpos
  intro st' l' hl' hsame hptr
  have hlen' : l'.length = l.length := hsame.length_eq.symm
  have hd := distance_nextScanned_pos h
  rw [← hptr, ← hlen']
  apply checkRtLoop_block hl' (hc.congr hsame.seqnums) _ hd hd rfl
  · omega
  · rw [nextScanned_toNat]
    omega

theorem checkRt_eq_scan (hl : st.window.Holds l) (hc : Consecutive h l) :
    checkRt env st = scanPlaces env (env.now .check st) 0
      (if l = [] then [] else visited h l.length) st := by
  cases l with
  | nil =>
      simp only [checkRt, hl.peek, List.head?_nil, if_true]
      rfl
  | cons pkt l =>
      have hne := List.cons_ne_nil pkt l
      simp only [checkRt, hl.peek, List.head?_cons, hc.1, if_neg hne]
      exact checkRtLoop_eq_scan env _ hl hc hne (by decide)

end

end SelectiveRepeat
