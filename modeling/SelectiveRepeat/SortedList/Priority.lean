/-
  SelectiveRepeat.SortedList.Priority

  The window as a priority structure: the packets stored in it, the one nearest to
  the expected number first.  `add`, `peek` and `pop` are what the interface says as
  long as no `peek` is made with a packet stored below the cursor: `peek` only ever
  moves it forward, and `add` does not move it back.
-/
import SelectiveRepeat.Segment.RoundTrip
import SelectiveRepeat.SortedList.SortedList

namespace SelectiveRepeat

namespace SortedList

/-- The element is in some slot. -/
def Stores (list : SortedList) (elem : Pstl) : Prop := ∃ i, list.cells i = some elem

/-- The stored element nearest to `waited`, `none` if nothing is stored. -/
def IsFirst (list : SortedList) (waited : UInt8) : Option Pstl → Prop
  | none => ∀ elem, ¬ list.Stores elem
  | some first => list.Stores first ∧
      ∀ elem, list.Stores elem → distance waited first.seqnum ≤ distance waited elem.seqnum

end SortedList

/-- A call of `add`, with the block `malloc` returns in it, of `peek` or of `pop`. -/
inductive ListCall where
  | add (packet : Pkt) (toAdd : Pstl)
  | peek
  | pop

/-- The list between two calls, and what the last call returned if that was a `peek`. -/
structure ListState where
  list : SortedList
  peeked : Option Pstl

namespace ListCall

variable (waited : UInt8)

def run (s : ListState) : ListCall → Exec ListState
  | add packet toAdd => do
      let (_, list) ← s.list.add packet waited (some toAdd)
      return { list := list, peeked := none }
  | peek => do
      let (elem, list) ← s.list.peek
      return { list := list, peeked := elem }
  | pop => do
      let list ← s.list.pop
      return { list := list, peeked := none }

/-- A packet with a payload to copy is added within 31 numbers of the expected one, and
    only the element that `peek` has just returned is popped. -/
def Allowed (s : ListState) : ListCall → Prop
  | add packet _ =>
      packet.tr = 0 ∧ packet.length.toNat ≤ 512 ∧ distance waited packet.seqnum < 31
  | peek => True
  | pop => s.peeked ≠ none

/-- The call does what the interface says, and `size` is the number of stored elements
    afterwards. -/
def Right (s : ListState) : ListCall → Prop
  | add packet toAdd => ∃ res list', s.list.add packet waited (some toAdd) = .ok (res, list') ∧
      list'.Counted ∧
      ((∃ elem, s.list.Stores elem ∧ elem.seqnum = packet.seqnum) ∧ res = 1 ∧ list' = s.list ∨
        (∀ elem, s.list.Stores elem → elem.seqnum ≠ packet.seqnum) ∧ res = 0 ∧
          ∀ elem, list'.Stores elem ↔
            elem = packet.stored packet.data toAdd ∨ s.list.Stores elem)
  | peek => ∃ elem list', s.list.peek = .ok (elem, list') ∧ list'.Counted ∧
      s.list.IsFirst waited elem ∧ ∀ elem, list'.Stores elem ↔ s.list.Stores elem
  | pop => ∃ first list', s.list.pop = .ok list' ∧ list'.Counted ∧ s.peeked = some first ∧
      s.list.IsFirst waited first ∧
      ∀ elem, list'.Stores elem ↔ s.list.Stores elem ∧ elem ≠ first

/-- A `peek` is made with nothing stored below the cursor. -/
def Ahead (s : ListState) : ListCall → Prop
  | peek => ∀ i < s.list.ptr.toNat, s.list.cells i = none
  | _ => True

end ListCall

section
variable (waited : UInt8)

/-- Every call of the sequence is allowed where it is made. -/
def ListCallsAllowed : ListState → List ListCall → Prop
  | _, [] => True
  | s, call :: calls => call.Allowed waited s ∧
      ∀ s', call.run waited s = .ok s' → ListCallsAllowed s' calls

/-- Every call of the sequence is right. -/
def ListCallsRight : ListState → List ListCall → Prop
  | _, [] => True
  | s, call :: calls => call.Right waited s ∧
      ∀ s', call.run waited s = .ok s' → ListCallsRight s' calls

/-- Every `peek` of the sequence is made with nothing stored below the cursor. -/
def ListCallsAhead : ListState → List ListCall → Prop
  | _, [] => True
  | s, call :: calls => call.Ahead s ∧
      ∀ s', call.run waited s = .ok s' → ListCallsAhead s' calls

end

/-! ## Between two calls -/

/-- Elements are in the slots of their numbers and counted; what was just peeked is at the
    cursor, with nothing below it. -/
structure ListState.Sound (s : ListState) (waited : UInt8) : Prop where
  placed : ∀ i elem, s.list.cells i = some elem → elem.seqnum = waited + UInt8.ofNat i
  counted : s.list.Counted
  peeked : ∀ elem, s.peeked = some elem → s.list.cells s.list.ptr.toNat = some elem ∧
    ∀ i < s.list.ptr.toNat, s.list.cells i = none

section
variable {s : ListState} {waited : UInt8} (h : s.Sound waited)
include h

theorem ListState.Sound.distance_eq {i : Nat} {elem : Pstl} (hi : s.list.cells i = some elem) :
    distance waited elem.seqnum = i := by
  have hlt := SortedList.lt_of_cells hi
  rw [h.placed i elem hi]
  exact distance_add (by omega)

/-- The first occupied slot holds the nearest element. -/
theorem ListState.Sound.isFirst {j : Nat} {first : Pstl} (hj : s.list.cells j = some first)
    (hbefore : ∀ i < j, s.list.cells i = none) : s.list.IsFirst waited (some first) := by
  refine ⟨⟨j, hj⟩, ?_⟩
  rintro elem ⟨i, hi⟩
  rw [h.distance_eq hj, h.distance_eq hi]
  by_contra hlt
  rw [hbefore i (Nat.lt_of_not_le hlt)] at hi
  cases hi

/-! ## `add` -/

theorem ListState.Sound.add {packet : Pkt} {toAdd : Pstl}
    (hallowed : ListCall.Allowed waited s (.add packet toAdd)) :
    ListCall.Right waited s (.add packet toAdd) ∧
      ∃ s', ListCall.run waited s (.add packet toAdd) = .ok s' ∧ s'.Sound waited := by
  obtain ⟨htr, hle, hlt⟩ := hallowed
  cases hcell : s.list.cells (distance waited packet.seqnum) with
  | some elem =>
      have hadd := SortedList.add_of_some hcell (some toAdd)
      have hseq : elem.seqnum = packet.seqnum := by
        rw [h.placed _ elem hcell]
        exact (seqnum_of_distance rfl).symm
      refine ⟨⟨1, s.list, hadd, h.counted, Or.inl ⟨⟨elem, ⟨_, hcell⟩, hseq⟩, rfl, rfl⟩⟩,
        { list := s.list, peeked := none }, ?_, ⟨h.placed, h.counted, fun _ hp => by cases hp⟩⟩
      simp only [ListCall.run, hadd, ok_bind]
      rfl
  | none =>
      obtain ⟨list', hadd, hcells, hsize, -⟩ :=
        SortedList.add_of_none hlt hcell (readPayload_of_le htr hle) toAdd
      have hcounted : list'.Counted := by
        have hcount : s.list.size = Slots.occupied s.list.cells 31 := h.counted
        rw [SortedList.Counted, hsize, hcells, Slots.occupied_fill hlt hcell, hcount]
        rfl
      refine ⟨⟨0, list', hadd, hcounted, Or.inr ⟨?_, rfl, ?_⟩⟩,
        { list := list', peeked := none }, ?_, ?_, hcounted, fun _ hp => by cases hp⟩
      · -- an element with the number would be in that slot
        rintro elem ⟨i, hi⟩ hseq
        rw [← hseq, h.distance_eq hi, hi] at hcell
        cases hcell
      · intro elem
        rw [SortedList.Stores, hcells]
        exact Slots.exists_fill hcell _ elem
      · simp only [ListCall.run, hadd, ok_bind]
        rfl
      · rw [hcells]
        apply Slots.forall_update h.placed
        rintro elem ⟨⟩
        exact seqnum_of_distance rfl

/-! ## `peek` -/

/-- With nothing below the cursor, `peek` finds the nearest element and leaves the cursor at it. -/
theorem ListState.Sound.peek (hahead : ListCall.Ahead s .peek) :
    ListCall.Right waited s .peek ∧
      ∃ s', ListCall.run waited s .peek = .ok s' ∧ s'.Sound waited := by
  have hlow : ∀ i < s.list.ptr.toNat, s.list.cells i = none := hahead
  have hcount : s.list.size = Slots.occupied s.list.cells 31 := h.counted
  by_cases hsize : s.list.size = 0
  · have hnone := h.counted.isEmpty.mp (decide_eq_true hsize)
    have hpeek : s.list.peek = .ok (none, s.list) := if_pos hsize
    refine ⟨⟨none, s.list, hpeek, h.counted, ?_, fun _ => Iff.rfl⟩,
      { list := s.list, peeked := none }, ?_, ⟨h.placed, h.counted, fun _ hp => by cases hp⟩⟩
    · rintro elem ⟨i, hi⟩
      rw [hnone i] at hi
      cases hi
    · simp only [ListCall.run, hpeek, ok_bind]
      rfl
  · have hsome : Slots.occupied s.list.cells 31 ≠ 0 := by
      intro hzero
      rw [hzero] at hcount
      exact hsize hcount
    obtain ⟨j, first, hpj, hj31, hj, hbefore⟩ := Slots.exists_first hlow hsome
    have hpeek := SortedList.peek_of_first h.counted hj hbefore hpj
    have hptr : (UInt8.ofNat j).toNat = j := by
      rw [UInt8.toNat_ofNat']
      omega
    refine ⟨⟨some first, _, hpeek, h.counted, h.isFirst hj hbefore, fun _ => Iff.rfl⟩,
      { list := { s.list with ptr := UInt8.ofNat j }, peeked := some first }, ?_,
      ⟨h.placed, h.counted, fun elem helem => ?_⟩⟩
    · simp only [ListCall.run, hpeek, ok_bind]
      rfl
    · cases helem
      show s.list.cells (UInt8.ofNat j).toNat = _ ∧ ∀ i < (UInt8.ofNat j).toNat, _
      rw [hptr]
      exact ⟨hj, hbefore⟩

/-- Otherwise it goes past an element that is nearer than all it can return. -/
theorem ListState.Sound.ahead_of_right (hright : ListCall.Right waited s .peek) :
    ListCall.Ahead s .peek := by
  obtain ⟨elem, list', hpeek, -, hfirst, -⟩ := hright
  intro i hi
  cases hcell : s.list.cells i with
  | none => rfl
  | some lower =>
      exfalso
      cases elem with
      | none => exact hfirst lower ⟨i, hcell⟩
      | some elem =>
          obtain ⟨j, hle, hj⟩ := SortedList.peek_some hpeek
          have hnear := hfirst.2 lower ⟨i, hcell⟩
          rw [h.distance_eq hj, h.distance_eq hcell] at hnear
          omega

/-! ## `pop` -/

theorem ListState.Sound.pop (hallowed : ListCall.Allowed waited s .pop) :
    ListCall.Right waited s .pop ∧
      ∃ s', ListCall.run waited s .pop = .ok s' ∧ s'.Sound waited := by
  obtain ⟨first, hfirst⟩ := Option.ne_none_iff_exists'.mp hallowed
  obtain ⟨hptr, hbefore⟩ := h.peeked first hfirst
  obtain ⟨list', hpop, hcells, hcounted, -⟩ := SortedList.pop_spec h.counted hptr rfl
  refine ⟨⟨first, list', hpop, hcounted, hfirst, h.isFirst hptr hbefore, fun elem => ?_⟩,
    { list := list', peeked := none }, ?_, ?_, hcounted, fun _ hp => by cases hp⟩
  · rw [SortedList.Stores, hcells, Slots.exists_clear]
    refine ⟨?_, ?_⟩
    · rintro ⟨i, hip, hi⟩
      refine ⟨⟨i, hi⟩, ?_⟩
      -- an equal element would have the same number, and so the same slot
      rintro rfl
      exact hip ((h.distance_eq hi).symm.trans (h.distance_eq hptr))
    · rintro ⟨⟨i, hi⟩, hne⟩
      refine ⟨i, ?_, hi⟩
      rintro rfl
      rw [hptr, Option.some.injEq] at hi
      exact hne hi.symm
  · simp only [ListCall.run, hpop, ok_bind]
    rfl
  · rw [hcells]
    apply Slots.forall_update h.placed
    rintro elem ⟨⟩

/-! ## Every sequence of calls -/

/-- One call. -/
theorem ListState.Sound.right_iff {call : ListCall} (hallowed : call.Allowed waited s) :
    (call.Right waited s ↔ call.Ahead s) ∧
      (call.Ahead s → ∃ s', call.run waited s = .ok s' ∧ s'.Sound waited) := by
  cases call with
  | add packet toAdd =>
      obtain ⟨hright, hnext⟩ := h.add hallowed
      exact ⟨iff_of_true hright trivial, fun _ => hnext⟩
  | peek => exact ⟨⟨h.ahead_of_right, fun hahead => (h.peek hahead).1⟩, fun hahead =>
      (h.peek hahead).2⟩
  | pop =>
      obtain ⟨hright, hnext⟩ := h.pop hallowed
      exact ⟨iff_of_true hright trivial, fun _ => hnext⟩

end

theorem ListState.Sound.callsRight_iff {s : ListState} {waited : UInt8} (h : s.Sound waited)
    {calls : List ListCall} (hallowed : ListCallsAllowed waited s calls) :
    ListCallsRight waited s calls ↔ ListCallsAhead waited s calls := by
  induction calls generalizing s with
  | nil => exact Iff.rfl
  | cons call calls ih =>
      obtain ⟨hstep, hnext⟩ := h.right_iff hallowed.1
      have hrest (hahead : call.Ahead s) (s' : ListState) (hrun : call.run waited s = .ok s') :
          ListCallsRight waited s' calls ↔ ListCallsAhead waited s' calls := by
        obtain ⟨s₁, hrun₁, hsound⟩ := hnext hahead
        rw [hrun, Except.ok.injEq] at hrun₁
        exact ih (hrun₁ ▸ hsound) (hallowed.2 s' hrun)
      refine ⟨?_, ?_⟩
      · rintro ⟨hright, hcalls⟩
        have hahead := hstep.mp hright
        exact ⟨hahead, fun s' hrun => (hrest hahead s' hrun).mp (hcalls s' hrun)⟩
      · rintro ⟨hahead, hcalls⟩
        exact ⟨hstep.mpr hahead, fun s' hrun => (hrest hahead s' hrun).mpr (hcalls s' hrun)⟩

/-- An empty window: null slots, nothing counted, the cursor at the start. -/
structure SortedList.Empty (list : SortedList) : Prop where
  window : ∀ i, list.window i = none
  size : list.size = 0
  ptr : list.ptr = 0

theorem SortedList.Empty.sound {list : SortedList} (h : list.Empty) (waited : UInt8) :
    ListState.Sound { list := list, peeked := none } waited := by
  have hcells : ∀ i, list.cells i = none := by
    intro i
    rw [SortedList.cells]
    split
    · exact h.window _
    · rfl
  refine ⟨fun i elem hi => ?_, ?_, fun _ hp => by cases hp⟩
  · have hnone : list.cells i = some elem := hi
    rw [hcells] at hnone
    cases hnone
  · have hzero := Slots.occupied_eq_zero.mpr fun i (_ : i < 31) => hcells i
    rw [SortedList.Counted, hzero]
    exact h.size

/-- From an empty window and with a fixed expected number, `add`, `peek` and `pop` are right in
    a sequence of calls exactly when no `peek` of it is made with an element stored below
    the cursor. -/
theorem listCallsRight_iff (waited : UInt8) (list : SortedList) (hempty : list.Empty)
    (calls : List ListCall)
    (hallowed : ListCallsAllowed waited { list := list, peeked := none } calls) :
    ListCallsRight waited { list := list, peeked := none } calls ↔
      ListCallsAhead waited { list := list, peeked := none } calls :=
  (hempty.sound waited).callsRight_iff hallowed

/-! ## Two sequences -/

theorem listCallsAllowed_cons {waited : UInt8} {s s' : ListState} {call : ListCall}
    {calls : List ListCall} (hallowed : call.Allowed waited s) (hrun : call.run waited s = .ok s')
    (hrest : ListCallsAllowed waited s' calls) : ListCallsAllowed waited s (call :: calls) := by
  refine ⟨hallowed, fun s₁ hrun₁ => ?_⟩
  rw [hrun, Except.ok.injEq] at hrun₁
  rwa [← hrun₁]

/-- An empty window and a fresh block. -/
def emptyWindow : SortedList where
  window := fun _ => none
  size := 0
  ptr := 0

theorem emptyWindow_empty : emptyWindow.Empty := ⟨fun _ => rfl, rfl, rfl⟩

def freshPstl : Pstl where
  payload := fun _ => 0
  length := 0
  seqnum := 0
  timestamp := 0

theorem bytePkt_allowed (seqnum : UInt8) (hlt : distance 0 seqnum < 31) (s : ListState) :
    ListCall.Allowed 0 s (.add (bytePkt seqnum 0 7) freshPstl) :=
  ⟨rfl, show (1 : UInt16).toNat ≤ 512 by decide, hlt⟩

/-- Increasing numbers, each removed before the next. -/
theorem listCallsRight_iff_increasing :
    ListCallsRight 0 { list := emptyWindow, peeked := none }
      [.add (bytePkt 2 0 7) freshPstl, .peek, .pop, .add (bytePkt 5 0 7) freshPstl] := by
  refine (listCallsRight_iff 0 emptyWindow emptyWindow_empty _ ?_).mpr ?_
  · exact listCallsAllowed_cons (bytePkt_allowed 2 (by decide) _) rfl
      (listCallsAllowed_cons trivial rfl (listCallsAllowed_cons (Option.some_ne_none _) rfl
        (listCallsAllowed_cons (bytePkt_allowed 5 (by decide) _) rfl trivial)))
  · refine ⟨trivial, fun s₁ hrun₁ => ⟨fun i hi => ?_, fun s₂ _ => ⟨trivial, fun s₃ _ =>
      ⟨trivial, fun _ _ => trivial⟩⟩⟩⟩
    cases hrun₁
    exact absurd hi (Nat.not_lt_zero i)

/-- After packet 5 was looked at, packet 2 is stored below the cursor, and `peek` returns
    packet 5 again. -/
theorem listCallsRight_not_below : ¬ ∀ (waited : UInt8) (list : SortedList), list.Empty →
    ∀ calls : List ListCall, ListCallsAllowed waited { list := list, peeked := none } calls →
      ListCallsRight waited { list := list, peeked := none } calls := by
  intro hall
  have hallowed : ListCallsAllowed 0 { list := emptyWindow, peeked := none }
      [.add (bytePkt 5 0 7) freshPstl, .peek, .add (bytePkt 2 0 7) freshPstl, .peek] :=
    listCallsAllowed_cons (bytePkt_allowed 5 (by decide) _) rfl
      (listCallsAllowed_cons trivial rfl
        (listCallsAllowed_cons (bytePkt_allowed 2 (by decide) _) rfl
          (listCallsAllowed_cons trivial rfl trivial)))
  have hright := hall 0 emptyWindow emptyWindow_empty _ hallowed
  have hahead := ((emptyWindow_empty.sound 0).callsRight_iff hallowed).mp hright
  have hlast := (((hahead.2 _ rfl).2 _ rfl).2 _ rfl).1
  have hnone := hlast 2 (by decide)
  cases hnone

end SelectiveRepeat
