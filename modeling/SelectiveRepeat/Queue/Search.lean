/-
  SelectiveRepeat.Queue.Search

  Searching a window of consecutive numbers.  The numbers of the packets the
  sender holds count up modulo 256, so a number is at most at one place of the
  window, its distance from the oldest one, and the loops of queue.c that walk
  the ring (`get`, and the dequeue loop of the ACK case) can be read off that
  distance.
-/
import SelectiveRepeat.Queue.Queue
import Mathlib.Data.List.Basic

namespace SelectiveRepeat

/-- The numbers of `l` are `h`, `h + 1`, ... modulo 256. -/
def Consecutive : UInt8 → List Pkt → Prop
  | _, [] => True
  | h, pkt :: l => pkt.seqnum = h ∧ Consecutive (h + 1) l

/-- How far after `h` the number `s` comes, modulo 256. -/
def distance (h s : UInt8) : Nat := (s - h).toNat

theorem distance_def (h s : UInt8) : distance h s = (256 - h.toNat + s.toNat) % 256 :=
  UInt8.toNat_sub s h

@[simp] theorem distance_self (h : UInt8) : distance h h = 0 := by
  simp [distance]

theorem distance_eq_zero {h s : UInt8} : distance h s = 0 ↔ s = h := by
  have hd := distance_def h s
  have hh := h.toNat_lt
  have hs := s.toNat_lt
  rw [← UInt8.toNat_inj]
  omega

theorem distance_inj {h s s' : UInt8} : distance h s = distance h s' ↔ s = s' := by
  refine ⟨?_, ?_⟩
  · intro heq
    have hsub : s - h = s' - h := UInt8.toNat_inj.mp heq
    rw [← UInt8.sub_add_cancel s h, hsub, UInt8.sub_add_cancel]
  · intro heq
    rw [heq]

theorem distance_succ {h s : UInt8} (hne : s ≠ h) : distance (h + 1) s + 1 = distance h s := by
  have h1 := distance_def h s
  have h2 := distance_def (h + 1) s
  have hadd : (h + 1).toNat = (h.toNat + 1) % 256 := UInt8.toNat_add h 1
  have hh := h.toNat_lt
  have hs := s.toNat_lt
  rw [Ne, ← UInt8.toNat_inj] at hne
  omega

theorem distance_succ_self (h : UInt8) : distance (h + 1) h = 255 := by
  have h2 := distance_def (h + 1) h
  have hadd : (h + 1).toNat = (h.toNat + 1) % 256 := UInt8.toNat_add h 1
  have hh := h.toNat_lt
  omega

/-- The distance between two counts taken modulo 256. -/
theorem distance_ofNat {a b : Nat} (h : a ≤ b) (hlt : b - a < 256) :
    distance (UInt8.ofNat a) (UInt8.ofNat b) = b - a := by
  rw [distance_def, UInt8.toNat_ofNat', UInt8.toNat_ofNat']
  omega

theorem distance_ofNat_back {a b : Nat} (h : b < a) (hlt : a - b < 256) :
    distance (UInt8.ofNat a) (UInt8.ofNat b) = 256 - (a - b) := by
  rw [distance_def, UInt8.toNat_ofNat', UInt8.toNat_ofNat']
  omega

/-- The distance to the number before a count. -/
theorem distance_pred {a b : Nat} (h : a < b) (hlt : b - a ≤ 256) :
    distance (UInt8.ofNat a) (UInt8.ofNat b - 1) = b - 1 - a := by
  rw [distance_def, UInt8.toNat_ofNat', UInt8.toNat_sub, UInt8.toNat_ofNat', UInt8.toNat_one]
  omega

theorem distance_pred_back {a b : Nat} (h : b ≤ a) (hlt : a - b < 256) :
    distance (UInt8.ofNat a) (UInt8.ofNat b - 1) = 255 - (a - b) := by
  rw [distance_def, UInt8.toNat_ofNat', UInt8.toNat_sub, UInt8.toNat_ofNat', UInt8.toNat_one]
  omega

/-- A number at distance `d` is `waited + d`. -/
theorem seqnum_of_distance {waited seqnum : UInt8} {d : Nat} (h : distance waited seqnum = d) :
    seqnum = waited + UInt8.ofNat d := by
  have hd : seqnum - waited = UInt8.ofNat d := by
    rw [← h, distance, UInt8.ofNat_toNat]
  rw [← hd]
  grind

theorem distance_add {waited : UInt8} {n : Nat} (hn : n < 256) :
    distance waited (waited + UInt8.ofNat n) = n := by
  have hsub : waited + UInt8.ofNat n - waited = UInt8.ofNat n := by grind
  rw [distance, hsub, UInt8.toNat_ofNat', Nat.mod_eq_of_lt hn]

/-! ## Counting on -/

theorem ofNat_succ (n : Nat) : UInt8.ofNat (n + 1) = UInt8.ofNat n + 1 :=
  UInt8.ofNat_add n 1

theorem add_ofNat_succ (a : UInt8) (n : Nat) :
    a + UInt8.ofNat (n + 1) = a + UInt8.ofNat n + 1 := by
  rw [ofNat_succ, UInt8.add_assoc]

/-- Behind `a`, the first step taken on its own. -/
theorem add_ofNat_one_add (a : UInt8) (n : Nat) :
    a + UInt8.ofNat (1 + n) = a + 1 + UInt8.ofNat n := by
  rw [UInt8.ofNat_add, ← UInt8.add_assoc]
  rfl

/-! ## Consecutive numbers -/

theorem Consecutive.tail {h : UInt8} {pkt : Pkt} {l : List Pkt} (hc : Consecutive h (pkt :: l)) :
    Consecutive (h + 1) l := hc.2

/-- The place of a packet is the distance of its number from the oldest one. -/
theorem Consecutive.distance_getElem {h : UInt8} {l : List Pkt} (hc : Consecutive h l)
    (hlen : l.length ≤ 256) {j : Nat} (hj : j < l.length) : distance h l[j].seqnum = j := by
  induction l generalizing h j with
  | nil => exact absurd hj (Nat.not_lt_zero j)
  | cons pkt l ih =>
      simp only [List.length_cons] at hlen hj
      cases j with
      | zero => simp [hc.1]
      | succ j =>
          have hrest : distance (h + 1) l[j].seqnum = j := ih hc.tail (by omega) (by omega)
          -- the number `h` itself is 255 ahead of the rest
          have hne : l[j].seqnum ≠ h := by
            intro heq
            rw [heq, distance_succ_self] at hrest
            omega
          rw [List.getElem_cons_succ, ← distance_succ hne, hrest]

theorem Consecutive.seqnum_eq_iff {h : UInt8} {l : List Pkt} (hc : Consecutive h l)
    (hlen : l.length ≤ 256) {j : Nat} (hj : j < l.length) (s : UInt8) :
    l[j].seqnum = s ↔ j = distance h s := by
  have hd := hc.distance_getElem hlen hj
  refine ⟨?_, ?_⟩
  · rintro rfl
    exact hd.symm
  · intro heq
    have h1 := distance_def h l[j].seqnum
    have h2 := distance_def h s
    have hl := l[j].seqnum.toNat_lt
    have hh := h.toNat_lt
    have hs := s.toNat_lt
    rw [← UInt8.toNat_inj]
    omega

/-- Consecutive numbers depend on the numbers only. -/
theorem Consecutive.congr {h : UInt8} {l l' : List Pkt} (hc : Consecutive h l)
    (heq : l'.map Pkt.seqnum = l.map Pkt.seqnum) : Consecutive h l' := by
  induction l generalizing h l' with
  | nil =>
      rw [List.map_nil, List.map_eq_nil_iff] at heq
      rw [heq]
      trivial
  | cons pkt l ih =>
      cases l' with
      | nil => trivial
      | cons pkt' l' =>
          rw [List.map_cons, List.map_cons, List.cons.injEq] at heq
          exact ⟨heq.1.trans hc.1, ih hc.2 heq.2⟩

namespace Queue

/-! ## `get` -/

variable {list : Queue} {l : List Pkt}

/-- The walk of `get` passes the packets with other numbers and stops at the first one
    with the number, if there is no `NULL` on the way and it comes round once at most. -/
theorem getLoop_stops_at {list : Queue} {s : UInt8} {p o fuel : Nat} {firstTime : Bool} {pkt : Pkt}
    (hpo : p ≤ o) (ho : o ≤ 31) (hcell : list.window (Ring.slot list.ptrPop o) = some pkt)
    (hs : pkt.seqnum = s)
    (hbefore : ∀ j, p ≤ j → j < o → ∃ other,
      list.window (Ring.slot list.ptrPop j) = some other ∧ other.seqnum ≠ s)
    (hfirst : p = 0 → firstTime = true) (hfuel : o - p < fuel) :
    getLoop list s fuel firstTime (Ring.slot list.ptrPop p) =
      .ok (some (Ring.slot list.ptrPop o)) := by
  induction fuel generalizing p firstTime with
  | zero => exact absurd hfuel (Nat.not_lt_zero _)
  | succ fuel ih =>
      by_cases heq : p = o
      · subst heq
        simp only [getLoop, hcell]
        rw [if_neg (not_not.mpr hs)]
      · have hlt : p < o := by omega
        obtain ⟨other, hother, hne⟩ := hbefore p (Nat.le_refl p) hlt
        -- the walk is not back at the head: it is there at place 0 only, the first time
        have hgo : ¬ (¬ firstTime = true ∧ Ring.slot list.ptrPop p = list.ptrPop) := by
          rintro ⟨hf, hslot⟩
          have hp31 : p < MAX_WINDOW_SIZE := Nat.lt_of_lt_of_le hlt ho
          exact hf (hfirst ((Ring.slot_eq_head hp31).mp hslot))
        simp only [getLoop, hother]
        rw [if_pos hne, if_neg hgo, ← Ring.slot_succ]
        exact ih (by omega) (fun j hj => hbefore j (by omega)) (by omega) (by omega)

/-- Whatever the ring holds, the walk ends: after 31 steps it is back at the head. -/
theorem getLoop_returns (list : Queue) (s : UInt8) {p fuel : Nat} {firstTime : Bool} (hp : p ≤ 31)
    (hfirst : p = 31 → firstTime = false) (hfuel : 31 - p < fuel) :
    ∃ r, getLoop list s fuel firstTime (Ring.slot list.ptrPop p) = .ok r := by
  induction fuel generalizing p firstTime with
  | zero => exact absurd hfuel (Nat.not_lt_zero _)
  | succ fuel ih =>
      simp only [getLoop]
      cases hcell : list.window (Ring.slot list.ptrPop p) with
      | none => exact ⟨none, rfl⟩
      | some pkt =>
          by_cases hne : pkt.seqnum = s
          · exact ⟨some (Ring.slot list.ptrPop p), if_neg (not_not.mpr hne)⟩
          simp only [ne_eq, hne, not_false_eq_true, if_true]
          by_cases hback : ¬ firstTime = true ∧ Ring.slot list.ptrPop p = list.ptrPop
          · exact ⟨none, if_pos hback⟩
          · -- it is not back at the head, so it has not made 31 steps yet
            have hp31 : p ≠ 31 := by
              intro h31
              refine hback ⟨by simp [hfirst h31], ?_⟩
              rw [h31]
              exact Ring.slot_self list.ptrPop
            rw [if_neg hback, ← Ring.slot_succ]
            exact ih (by omega) (fun _ => rfl) (by omega)

/-- One round of a walk that stops at a packet: it is at it, or goes on behind a packet
    with another number. -/
theorem getLoop_step {list : Queue} {s : UInt8} {fuel : Nat} {firstTime : Bool}
    {index i : Fin MAX_WINDOW_SIZE}
    (h : getLoop list s (fuel + 1) firstTime index = .ok (some i)) :
    ∃ pkt, list.window index = some pkt ∧
      (pkt.seqnum = s ∧ i = index ∨
        pkt.seqnum ≠ s ∧ (firstTime = false → index ≠ list.ptrPop) ∧
          getLoop list s fuel false (index + 1) = .ok (some i)) := by
  simp only [getLoop] at h
  cases hcell : list.window index with
  | none =>
      rw [hcell] at h
      cases h
  | some pkt =>
      refine ⟨pkt, rfl, ?_⟩
      simp only [hcell] at h
      by_cases hne : pkt.seqnum = s
      · rw [if_neg (not_not.mpr hne)] at h
        cases h
        exact .inl ⟨hne, rfl⟩
      · rw [if_pos hne] at h
        by_cases hback : ¬ firstTime = true ∧ index = list.ptrPop
        · rw [if_pos hback] at h
          cases h
        · rw [if_neg hback] at h
          exact .inr ⟨hne, fun hf hindex => hback ⟨by simp [hf], hindex⟩, h⟩

/-- The slot the walk stops at holds a packet with the number. -/
theorem getLoop_some {list : Queue} {s : UInt8} {fuel : Nat} {firstTime : Bool}
    {index i : Fin MAX_WINDOW_SIZE} (h : getLoop list s fuel firstTime index = .ok (some i)) :
    ∃ pkt, list.window i = some pkt ∧ pkt.seqnum = s := by
  induction fuel generalizing firstTime index with
  | zero => cases h
  | succ fuel ih =>
      obtain ⟨pkt, hcell, ⟨hs, rfl⟩ | ⟨-, -, hrest⟩⟩ := getLoop_step h
      · exact ⟨pkt, hcell, hs⟩
      · exact ih hrest

/-- `get` returns, from any slot of any ring. -/
theorem get_returns (list : Queue) (s : UInt8) (supportIt : Option (Fin MAX_WINDOW_SIZE)) :
    ∃ r, list.get s supportIt = .ok r := by
  obtain ⟨p, hp, hslot⟩ := Ring.exists_slot list.ptrPop (supportIt.getD list.ptrPop)
  have hp31 : p < 31 := hp
  have hfuel : 31 - p < MAX_WINDOW_SIZE + 1 := by
    simp only [MAX_WINDOW_SIZE]
    omega
  have hfirst : p = 31 → true = false := fun h => absurd h (Nat.ne_of_lt hp31)
  obtain ⟨r, hr⟩ := getLoop_returns list s (Nat.le_of_lt hp31) hfirst hfuel
  rw [hslot] at hr
  simp only [get, hr, ok_bind]
  cases r with
  | none => exact ⟨none, rfl⟩
  | some index => exact ⟨_, rfl⟩

/-- A search that succeeds is at a packet with the number, and `*supportIt` is the
    slot after it. -/
theorem get_some {list : Queue} {s : UInt8} {supportIt : Option (Fin MAX_WINDOW_SIZE)} {got : Got}
    (h : list.get s supportIt = .ok (some got)) :
    ∃ pkt, list.window got.tmpPtk = some pkt ∧ pkt.seqnum = s ∧
      got.supportIt = got.tmpPtk + 1 := by
  rw [get] at h
  obtain ⟨r, hloop, hr⟩ := exists_ok_of_bind h
  cases r with
  | none => cases hr
  | some index =>
      cases hr
      obtain ⟨pkt, hcell, hseq⟩ := getLoop_some hloop
      exact ⟨pkt, hcell, hseq, rfl⟩

/-- So does `get`, from any place on. -/
theorem get_stops_at {list : Queue} {s : UInt8} {p o : Nat} {pkt : Pkt} (hpo : p ≤ o) (ho : o ≤ 31)
    (hcell : list.window (Ring.slot list.ptrPop o) = some pkt) (hs : pkt.seqnum = s)
    (hbefore : ∀ j, p ≤ j → j < o → ∃ other,
      list.window (Ring.slot list.ptrPop j) = some other ∧ other.seqnum ≠ s) :
    list.get s (some (Ring.slot list.ptrPop p)) =
      .ok (some { tmpPtk := Ring.slot list.ptrPop o,
                  supportIt := Ring.slot list.ptrPop (o + 1) }) := by
  have hfuel : o - p < MAX_WINDOW_SIZE + 1 := by
    simp only [MAX_WINDOW_SIZE]
    omega
  have hloop := getLoop_stops_at hpo ho hcell hs hbefore (fun _ => rfl) hfuel
  simp only [get, Option.getD_some, hloop, ok_bind, ← Ring.slot_succ]
  rfl

/-- The packets of the queue are on the way, so it finds the first one with the number. -/
theorem Holds.get_stops (h : list.Holds l) {s : UInt8} {p o : Nat} (hpo : p ≤ o)
    (ho : o < l.length) (hs : l[o].seqnum = s)
    (hbefore : ∀ j (hj : j < l.length), p ≤ j → j < o → l[j].seqnum ≠ s) :
    list.get s (some (Ring.slot list.ptrPop p)) =
      .ok (some { tmpPtk := Ring.slot list.ptrPop o,
                  supportIt := Ring.slot list.ptrPop (o + 1) }) := by
  have hlen := h.length_le
  apply get_stops_at hpo (by omega) (h.cell ho) hs
  intro j hpj hjo
  have hj : j < l.length := Nat.lt_trans hjo ho
  exact ⟨l[j], h.cell hj, hbefore j hj hpj hjo⟩

/-- From any slot, it finds nothing when no packet of the queue has the number. -/
theorem Holds.get_missing (h : list.Holds l) {s : UInt8} (hs : ∀ pkt ∈ l, pkt.seqnum ≠ s)
    (supportIt : Option (Fin MAX_WINDOW_SIZE)) : list.get s supportIt = .ok none := by
  obtain ⟨r, hr⟩ := list.get_returns s supportIt
  cases r with
  | none => exact hr
  | some got =>
      obtain ⟨pkt, hcell, hseq, -⟩ := get_some hr
      obtain ⟨j, hj, -, rfl⟩ := h.place hcell
      exact absurd hseq (hs _ (List.getElem_mem hj))

/-- `get` from place `p` on, for a number that comes at or after it. -/
theorem Holds.get_found (h : list.Holds l) {head s : UInt8} (hc : Consecutive head l) {p : Nat}
    (hp : p ≤ distance head s) (hlt : distance head s < l.length) :
    list.get s (some (Ring.slot list.ptrPop p)) =
      .ok (some { tmpPtk := Ring.slot list.ptrPop (distance head s),
                  supportIt := Ring.slot list.ptrPop (distance head s + 1) }) := by
  have hlen := h.length_le
  apply h.get_stops hp hlt ((hc.seqnum_eq_iff (by omega) hlt s).mpr rfl)
  intro j hj _ hjo heq
  rw [hc.seqnum_eq_iff (by omega) hj s] at heq
  omega

/-- `get` from any slot, for a number the queue does not hold. -/
theorem Holds.get_none (h : list.Holds l) {head s : UInt8} (hc : Consecutive head l)
    (hs : l.length ≤ distance head s) (supportIt : Option (Fin MAX_WINDOW_SIZE)) :
    list.get s supportIt = .ok none := by
  have hlen := h.length_le
  apply h.get_missing
  intro pkt hpkt heq
  obtain ⟨j, hj, rfl⟩ := List.mem_iff_getElem.mp hpkt
  rw [hc.seqnum_eq_iff (by omega) hj s] at heq
  omega

/-- Starting at the head is starting at place 0. -/
theorem get_head (list : Queue) (s : UInt8) :
    list.get s none = list.get s (some (Ring.slot list.ptrPop 0)) := by
  rw [Ring.slot_zero]
  rfl

end Queue

end SelectiveRepeat
