/-
  SelectiveRepeat.Queue.Lookup

  `get` on a queue whose numbers are distinct.  A search from the head finds
  exactly the numbers that are queued; a search that goes on after the last one
  finds those that come later, and nothing that is not queued.  Both return on
  every ring, the full one included, where no `NULL` ends the walk.
-/
import SelectiveRepeat.Queue.Search
import Mathlib.Data.List.Nodup

namespace SelectiveRepeat.Queue

variable {list : Queue} {l : List Pkt}

/-- A queued packet with the number, in the slot behind `*tmpPtk`, and `*supportIt`
    at the slot after that one. -/
def Hit (list : Queue) (l : List Pkt) (s : UInt8) (got : Got) : Prop :=
  ∃ pkt ∈ l, pkt.seqnum = s ∧ list.window got.tmpPtk = some pkt ∧ got.supportIt = got.tmpPtk + 1

theorem Holds.hit (h : list.Holds l) {s : UInt8} {supportIt : Option (Fin MAX_WINDOW_SIZE)}
    {got : Got} (hgot : list.get s supportIt = .ok (some got)) : Hit list l s got := by
  obtain ⟨pkt, hcell, hseq, hnext⟩ := get_some hgot
  obtain ⟨j, hj, -, rfl⟩ := h.place hcell
  exact ⟨l[j], List.getElem_mem hj, hseq, hcell, hnext⟩

/-! ## Distinct numbers -/

/-- A packet is determined by its number. -/
theorem eq_of_seqnum_eq (hdistinct : (l.map Pkt.seqnum).Nodup) {pkt pkt' : Pkt} (hmem : pkt ∈ l)
    (hmem' : pkt' ∈ l) (heq : pkt.seqnum = pkt'.seqnum) : pkt = pkt' :=
  List.inj_on_of_nodup_map hdistinct hmem hmem' heq

/-- And so is its place. -/
theorem place_eq_of_seqnum_eq (hdistinct : (l.map Pkt.seqnum).Nodup) {j k : Nat}
    (hj : j < l.length) (hk : k < l.length) (heq : l[j].seqnum = l[k].seqnum) : j = k := by
  have hjm : j < (l.map Pkt.seqnum).length := by rwa [List.length_map]
  have hkm : k < (l.map Pkt.seqnum).length := by rwa [List.length_map]
  have hmap : (l.map Pkt.seqnum)[j] = (l.map Pkt.seqnum)[k] := by
    rw [List.getElem_map, List.getElem_map, heq]
  exact hdistinct.getElem_inj_iff.mp hmap

/-- A search from place `p` on finds the packet at any place `k` from there on. -/
theorem Holds.get_reaches (h : list.Holds l) (hdistinct : (l.map Pkt.seqnum).Nodup) {p k : Nat}
    (hpk : p ≤ k) (hk : k < l.length) :
    list.get l[k].seqnum (some (Ring.slot list.ptrPop p)) =
      .ok (some { tmpPtk := Ring.slot list.ptrPop k,
                  supportIt := Ring.slot list.ptrPop (k + 1) }) := by
  apply h.get_stops hpk hk rfl
  intro j hj _ hjk heq
  have hplace := place_eq_of_seqnum_eq hdistinct hj hk heq
  omega

/-! ## The two kinds of search -/

/-- With `*supportIt == -1` a number is found exactly when it is queued. -/
theorem Holds.get_isSome_iff (h : list.Holds l) (hdistinct : (l.map Pkt.seqnum).Nodup) {s : UInt8}
    {r : Option Got} (hr : list.get s none = .ok r) :
    r.isSome ↔ ∃ pkt ∈ l, pkt.seqnum = s := by
  refine ⟨?_, ?_⟩
  · intro hsome
    obtain ⟨got, rfl⟩ := Option.isSome_iff_exists.mp hsome
    obtain ⟨pkt, hmem, hseq, -, -⟩ := h.hit hr
    exact ⟨pkt, hmem, hseq⟩
  · rintro ⟨pkt, hmem, rfl⟩
    obtain ⟨k, hk, rfl⟩ := List.mem_iff_getElem.mp hmem
    have hfound := h.get_reaches hdistinct (Nat.zero_le k) hk
    rw [← get_head, hr] at hfound
    cases hfound
    rfl

/-- The packet it returns is the one with the number. -/
theorem Holds.get_returns_packet (h : list.Holds l) (hdistinct : (l.map Pkt.seqnum).Nodup)
    {s : UInt8} {supportIt : Option (Fin MAX_WINDOW_SIZE)} {got : Got}
    (hgot : list.get s supportIt = .ok (some got)) {pkt : Pkt} (hmem : pkt ∈ l)
    (hs : pkt.seqnum = s) : list.window got.tmpPtk = some pkt := by
  obtain ⟨pkt', hmem', hseq, hcell, -⟩ := h.hit hgot
  rw [hcell, eq_of_seqnum_eq hdistinct hmem' hmem (hseq.trans hs.symm)]

/-- Where a search goes on: after the packet that the one before it returned. -/
theorem Holds.get_leaves (h : list.Holds l) {s : UInt8} {supportIt : Option (Fin MAX_WINDOW_SIZE)}
    {prev : Got} (hprev : list.get s supportIt = .ok (some prev)) :
    ∃ j < l.length, prev.tmpPtk = Ring.slot list.ptrPop j ∧
      prev.supportIt = Ring.slot list.ptrPop (j + 1) := by
  obtain ⟨pkt, hcell, -, hnext⟩ := get_some hprev
  obtain ⟨j, hj, hslot, -⟩ := h.place hcell
  refine ⟨j, hj, hslot.symm, ?_⟩
  rw [hnext, Ring.slot_succ, hslot]

/-- What a caller of `get` relies on, for one number.  `*supportIt` is -1 in the first
    part, and left by a call that returned the packet at place `j` in the second. -/
structure Finds (list : Queue) (l : List Pkt) (s : UInt8) : Prop where
  head : ∃ r, list.get s none = .ok r ∧ (r.isSome ↔ ∃ pkt ∈ l, pkt.seqnum = s) ∧
    ∀ got, r = some got → ∀ pkt ∈ l, pkt.seqnum = s → list.window got.tmpPtk = some pkt
  resumed : ∀ s₀ supportIt₀ prev, list.get s₀ supportIt₀ = .ok (some prev) →
    ∃ j r, j < l.length ∧ prev.tmpPtk = Ring.slot list.ptrPop j ∧
      list.get s (some prev.supportIt) = .ok r ∧
      (∀ k (hk : k < l.length), j < k → l[k].seqnum = s →
        ∃ got, r = some got ∧ got.tmpPtk = Ring.slot list.ptrPop k) ∧
      ∀ got, r = some got → Hit list l s got

/-- `get` finds exactly what is queued and always stops: from the head the numbers
    queued and no other, after a call that succeeded every number queued behind the
    packet it returned, and never a packet that is not queued under the number. -/
theorem get_finds_queued (list : Queue) (l : List Pkt) (h : list.Holds l)
    (hdistinct : (l.map Pkt.seqnum).Nodup) (s : UInt8) : Finds list l s := by
  constructor
  · obtain ⟨r, hr⟩ := list.get_returns s none
    refine ⟨r, hr, h.get_isSome_iff hdistinct hr, ?_⟩
    rintro got rfl pkt hmem hs
    exact h.get_returns_packet hdistinct hr hmem hs
  · intro s₀ supportIt₀ prev hprev
    obtain ⟨j, hj, hslot, hnext⟩ := h.get_leaves hprev
    obtain ⟨r, hr⟩ := list.get_returns s (some prev.supportIt)
    refine ⟨j, r, hj, hslot, hr, ?_, ?_⟩
    · rintro k hk hjk rfl
      rw [hnext, h.get_reaches hdistinct hjk hk] at hr
      cases hr
      exact ⟨_, rfl, rfl⟩
    · rintro got rfl
      exact h.hit hr

/-- Three packets, of numbers that are not in order. -/
theorem get_finds_queued_three :
    Finds (newList.addAll [bytePkt 4 0 7, bytePkt 9 0 8, bytePkt 6 0 9])
      [bytePkt 4 0 7, bytePkt 9 0 8, bytePkt 6 0 9] 9 :=
  get_finds_queued _ _ (newList_holds.addAll (by simp)) (by simp [bytePkt]) 9

/-! ## What a resumed search misses -/

/-- The place of an occupied slot is the place of a packet. -/
theorem Holds.lt_of_cell (h : list.Holds l) {p : Nat} (hp : p < 31) {pkt : Pkt}
    (hcell : list.window (Ring.slot list.ptrPop p) = some pkt) : p < l.length := by
  obtain ⟨j, hj, hslot, -⟩ := h.place hcell
  have hjp : j = p := (Ring.slot_inj (Nat.lt_of_lt_of_le hj h.length_le) hp).mp hslot
  rwa [← hjp]

/-- A whole turn from the head is the head. -/
theorem slot_turn (list : Queue) : Ring.slot list.ptrPop 31 = Ring.slot list.ptrPop 0 := by
  rw [Ring.slot_zero]
  exact Ring.slot_self list.ptrPop

/-- Back at the head, the walk looks at the packet there and no further. -/
theorem getLoop_back {list : Queue} {s : UInt8} {fuel : Nat} {i : Fin MAX_WINDOW_SIZE}
    (h : getLoop list s fuel false list.ptrPop = .ok (some i)) : i = list.ptrPop := by
  cases fuel with
  | zero => cases h
  | succ fuel =>
      obtain ⟨-, -, ⟨-, hi⟩ | ⟨-, hback, -⟩⟩ := getLoop_step h
      · exact hi
      · exact absurd rfl (hback rfl)

/-- A walk that starts at place `p` and stops at a packet has not passed the head,
    unless the ring is full, and then it is at the head. -/
theorem Holds.getLoop_wraps (h : list.Holds l) {s : UInt8} {p fuel : Nat} {firstTime : Bool}
    {i : Fin MAX_WINDOW_SIZE} (hp : p < 31)
    (hloop : getLoop list s fuel firstTime (Ring.slot list.ptrPop p) = .ok (some i)) :
    ∃ k < l.length, Ring.slot list.ptrPop k = i ∧ (p ≤ k ∨ l.length = 31 ∧ k = 0) := by
  have hlen := h.length_le
  induction fuel generalizing p firstTime with
  | zero => cases hloop
  | succ fuel ih =>
      obtain ⟨pkt, hcell, hround⟩ := getLoop_step hloop
      have hpl : p < l.length := h.lt_of_cell hp hcell
      obtain ⟨-, hi⟩ | ⟨-, -, hrest⟩ := hround
      · exact ⟨p, hpl, hi.symm, .inl (Nat.le_refl p)⟩
      · rw [← Ring.slot_succ] at hrest
        by_cases hlast : p + 1 < 31
        · obtain ⟨k, hk, hki, hplace⟩ := ih hlast hrest
          exact ⟨k, hk, hki, by omega⟩
        · -- the step off the last slot, so there was no `NULL` on the way to it
          have hturn : p + 1 = 31 := by omega
          rw [hturn, slot_turn, Ring.slot_zero] at hrest
          have hi : i = list.ptrPop := getLoop_back hrest
          have hfull : l.length = 31 := by omega
          exact ⟨0, by omega, by rw [hi, Ring.slot_zero], .inr ⟨hfull, rfl⟩⟩

/-- Past the last slot of a full ring it finds the packet at the head. -/
theorem Holds.get_head_again (h : list.Holds l) (hdistinct : (l.map Pkt.seqnum).Nodup)
    (hfull : l.length = 31) {p : Nat} (hp : 0 < p) (hp31 : p ≤ 31) :
    list.get l[0].seqnum (some (Ring.slot list.ptrPop p)) =
      .ok (some { tmpPtk := Ring.slot list.ptrPop 31,
                  supportIt := Ring.slot list.ptrPop 32 }) := by
  have hcell : list.window (Ring.slot list.ptrPop 31) = some l[0] := by
    rw [slot_turn, h.cell (by omega)]
  apply get_stops_at hp31 (Nat.le_refl 31) hcell rfl
  intro j hpj hj31
  have hj : j < l.length := by omega
  refine ⟨l[j], h.cell hj, ?_⟩
  intro heq
  have hplace := place_eq_of_seqnum_eq hdistinct hj (by omega) heq
  omega

/-- After the packet at place `j`, a search finds the numbers queued behind it.  In a
    full ring it also finds the one at the head, and behind the last place it is a
    search of the whole queue again. -/
theorem Holds.get_resumed_iff (h : list.Holds l) (hdistinct : (l.map Pkt.seqnum).Nodup)
    {j : Nat} (hj : j < l.length) (s : UInt8) :
    (∃ got, list.get s (some (Ring.slot list.ptrPop (j + 1))) = .ok (some got)) ↔
      ∃ k, ∃ hk : k < l.length, l[k].seqnum = s ∧
        (j < k ∨ l.length = 31 ∧ (k = 0 ∨ j = 30)) := by
  have hlen := h.length_le
  refine ⟨?_, ?_⟩
  · rintro ⟨got, hgot⟩
    rw [get] at hgot
    obtain ⟨r, hloop, hr⟩ := exists_ok_of_bind hgot
    cases r with
    | none => cases hr
    | some index =>
        obtain ⟨pkt, hcell, hseq⟩ := getLoop_some hloop
        obtain ⟨k, hk, rfl, rfl⟩ := h.place hcell
        refine ⟨k, hk, hseq, ?_⟩
        by_cases hj31 : j + 1 < 31
        · obtain ⟨k', hk', hslot, hplace⟩ := h.getLoop_wraps hj31 hloop
          have hkn : k < MAX_WINDOW_SIZE := Nat.lt_of_lt_of_le hk hlen
          have hkk : k' = k := (Ring.slot_inj (Nat.lt_of_lt_of_le hk' hlen) hkn).mp hslot
          omega
        · omega
  · rintro ⟨k, hk, rfl, hbehind | ⟨hfull, hhead | hlast⟩⟩
    · exact ⟨_, h.get_reaches hdistinct hbehind hk⟩
    · subst hhead
      exact ⟨_, h.get_head_again hdistinct hfull (Nat.succ_pos j) (by omega)⟩
    · -- the search starts at the head, and has not been there before
      subst hlast
      rw [slot_turn]
      exact ⟨_, h.get_reaches hdistinct (Nat.zero_le k) hk⟩

end SelectiveRepeat.Queue
