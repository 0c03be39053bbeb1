/-
  SelectiveRepeat.Queue.Queue

  The sender's window (queue.c): a ring of packets with a cursor to add at, a
  cursor to pop at and a separate count.  The cursors are only ever set to 0 or
  to something modulo `MAX_WINDOW_SIZE`, which is what `Fin` says of them.  A
  `pkt_t *` is the slot the packet sits in: every queued packet is allocated
  once and added once.
-/
import SelectiveRepeat.Lib.Ring
import SelectiveRepeat.Segment.Packet
import Mathlib.Tactic.Common

namespace SelectiveRepeat

/-- `queue`; `none` is `NULL`. -/
structure Queue where
  window : Fin MAX_WINDOW_SIZE → Option Pkt
  size : Int
  ptrAdd : Fin MAX_WINDOW_SIZE
  ptrPop : Fin MAX_WINDOW_SIZE

instance : NeZero MAX_WINDOW_SIZE := ⟨by decide⟩

namespace Queue

def newList : Queue where
  size := 0
  ptrAdd := 0
  ptrPop := 0
  window := fun _ => none

/-- The value returned, always 0, and the queue. -/
def add (list : Queue) (packet : Pkt) : Int × Queue :=
  -- whatever is in the slot is overwritten: nothing asks whether the ring is full
  (0, { list with
    window := Function.update list.window list.ptrAdd (some packet)
    ptrAdd := list.ptrAdd + 1
    size := list.size + 1 })

def peek (list : Queue) : Option Pkt :=
  if list.size ≠ 0 then list.window list.ptrPop else none

def dequeue (list : Queue) : Queue :=
  { list with
    window := Function.update list.window list.ptrPop none
    ptrPop := 1 + list.ptrPop
    size := list.size - 1 }

def isEmpty (list : Queue) : Bool := list.size = 0

/-- The comparison in `is_higher_or_equal`, on the number at the head. -/
def seqnumHigherOrEqual (seqnum : Int) (refSeqnum : UInt8) : Bool :=
  -- far below: taken for a number after the wrap; far above: for one before it
  if seqnum < refSeqnum.toNat ∧ refSeqnum.toNat - seqnum > 100 then true
  else if refSeqnum.toNat < seqnum ∧ seqnum - refSeqnum.toNat > 100 then false
  else seqnum ≥ refSeqnum.toNat

def isHigherOrEqual (seqnum : Int) (list : Queue) : Exec Bool :=
  if isEmpty list then .ok false
  else
    match peek list with
    | none => .error .null
    | some ref => .ok (seqnumHigherOrEqual seqnum ref.seqnum)

/-- The `while` of `get`: the slot it stops at, if that slot is not `NULL`. -/
def getLoop (list : Queue) (receive_seqnum : UInt8) :
    Nat → Bool → Fin MAX_WINDOW_SIZE → Exec (Option (Fin MAX_WINDOW_SIZE))
  | 0, _, _ => .error .loop
  | fuel + 1, firstTime, index =>
      match list.window index with
      | none => .ok none
      | some pkt =>
          if pkt.seqnum ≠ receive_seqnum then
            -- the walk has come round to the head
            if ¬ firstTime ∧ index = list.ptrPop then .ok none
            else getLoop list receive_seqnum fuel false (index + 1)
          else .ok (some index)

/-- What a successful `get` sets: the slot behind `*tmpPtk`, and `*supportIt`. -/
structure Got where
  tmpPtk : Fin MAX_WINDOW_SIZE
  supportIt : Fin MAX_WINDOW_SIZE
  deriving DecidableEq

/-- `get`: `supportIt = none` is `*supportIt == -1`, and the result is `none`
    where the source returns 0.  No search takes more than a turn and a step. -/
def get (list : Queue) (receive_seqnum : UInt8) (supportIt : Option (Fin MAX_WINDOW_SIZE)) :
    Exec (Option Got) := do
  let index := supportIt.getD list.ptrPop
  match ← getLoop list receive_seqnum (MAX_WINDOW_SIZE + 1) true index with
  | none => return none
  | some index => return some { tmpPtk := index, supportIt := index + 1 }

/-- Storing through the pointer `get` or `peek` returned. -/
def store (list : Queue) (tmpPtk : Fin MAX_WINDOW_SIZE) (pkt : Pkt) : Queue :=
  { list with window := Function.update list.window tmpPtk (some pkt) }

/-! ## The queue as a list -/

/-- The ring invariant: the queue holds the packets `l`, oldest first. -/
structure Holds (list : Queue) (l : List Pkt) : Prop where
  ring : Ring.Holds list.window list.ptrPop l
  size : list.size = l.length
  ptrAdd : list.ptrAdd = Ring.slot list.ptrPop l.length

theorem Holds.length_le {list : Queue} {l : List Pkt} (h : list.Holds l) : l.length ≤ 31 :=
  h.ring.length_le

/-- The slot of a place holds the packet there. -/
theorem Holds.cell {list : Queue} {l : List Pkt} (h : list.Holds l) {j : Nat} (hj : j < l.length) :
    list.window (Ring.slot list.ptrPop j) = some l[j] := by
  have hlen : l.length ≤ MAX_WINDOW_SIZE := h.length_le
  rw [h.ring.at_slot (Nat.lt_of_lt_of_le hj hlen), List.getElem?_eq_getElem hj]

/-- An occupied slot is the place of a packet of the list. -/
theorem Holds.place {list : Queue} {l : List Pkt} (h : list.Holds l) {i : Fin MAX_WINDOW_SIZE}
    {pkt : Pkt} (hcell : list.window i = some pkt) :
    ∃ j, ∃ hj : j < l.length, Ring.slot list.ptrPop j = i ∧ l[j] = pkt := by
  obtain ⟨j, hj, rfl⟩ := Ring.exists_slot list.ptrPop i
  rw [h.ring.at_slot hj] at hcell
  obtain ⟨hjl, hpkt⟩ := List.getElem?_eq_some_iff.mp hcell
  exact ⟨j, hjl, rfl, hpkt⟩

/-- A queue holds one list only. -/
theorem Holds.unique {list : Queue} {l l' : List Pkt} (h : list.Holds l) (h' : list.Holds l') :
    l = l' := by
  have hlen : l.length = l'.length := by
    have hsize := h.size.symm.trans h'.size
    omega
  apply List.ext_getElem?
  intro j
  by_cases hj : j < MAX_WINDOW_SIZE
  · rw [← h.ring.at_slot hj, ← h'.ring.at_slot hj]
  · have hle : l.length ≤ MAX_WINDOW_SIZE := h.length_le
    rw [List.getElem?_eq_none (by omega), List.getElem?_eq_none (by omega)]

theorem newList_holds : newList.Holds [] :=
  ⟨Ring.holds_empty _, rfl, by simp [newList]⟩

theorem Holds.add {list : Queue} {l : List Pkt} (h : list.Holds l) (hroom : l.length < 31)
    (packet : Pkt) : (list.add packet).2.Holds (l ++ [packet]) := by
  refine ⟨?_, ?_, ?_⟩
  · -- the cursor is at the first free slot
    have hpush := h.ring.push hroom packet
    rwa [← h.ptrAdd] at hpush
  · simp [Queue.add, h.size]
  · simp only [Queue.add, h.ptrAdd, List.length_append, List.length_singleton, Ring.slot_succ]

/-- The queue after adding the packets of `l` one by one. -/
def addAll (list : Queue) (l : List Pkt) : Queue :=
  l.foldl (fun list packet => (list.add packet).2) list

theorem Holds.addAll {list : Queue} {l l' : List Pkt} (h : list.Holds l)
    (hroom : l.length + l'.length ≤ 31) : (list.addAll l').Holds (l ++ l') := by
  induction l' generalizing list l with
  | nil => simpa [Queue.addAll] using h
  | cons packet l' ih =>
      rw [List.length_cons] at hroom
      have hadd := h.add (by omega) packet
      have hrest := ih hadd (by rw [List.length_append, List.length_singleton]; omega)
      rwa [List.append_assoc, List.singleton_append] at hrest

/-- The slot `add` writes is free. -/
theorem Holds.free {list : Queue} {l : List Pkt} (h : list.Holds l) (hroom : l.length < 31) :
    list.window list.ptrAdd = none := by
  rw [h.ptrAdd]
  exact h.ring.free hroom

theorem Holds.dequeue {list : Queue} {pkt : Pkt} {l : List Pkt} (h : list.Holds (pkt :: l)) :
    list.dequeue.Holds l := by
  have hadd : (1 : Fin MAX_WINDOW_SIZE) + list.ptrPop = list.ptrPop + 1 := add_comm _ _
  refine ⟨?_, ?_, ?_⟩
  · rw [Queue.dequeue, hadd]
    exact h.ring.pop
  · simp [Queue.dequeue, h.size]
  · rw [Queue.dequeue, hadd, Ring.slot_add_one]
    exact h.ptrAdd

theorem Holds.store {list : Queue} {l : List Pkt} (h : list.Holds l) {j : Nat} (hj : j < l.length)
    (pkt : Pkt) : (list.store (Ring.slot list.ptrPop j) pkt).Holds (l.set j pkt) :=
  ⟨h.ring.set hj pkt, by simp [Queue.store, h.size], by simp [Queue.store, h.ptrAdd]⟩

theorem Holds.isEmpty {list : Queue} {l : List Pkt} (h : list.Holds l) :
    list.isEmpty = l.isEmpty := by
  cases l with
  | nil => simp [Queue.isEmpty, h.size]
  | cons pkt l =>
      have hne : ((l.length : Int) + 1 ≠ 0) := by omega
      simp [Queue.isEmpty, h.size, hne]

theorem Holds.peek {list : Queue} {l : List Pkt} (h : list.Holds l) : list.peek = l.head? := by
  cases l with
  | nil => simp [Queue.peek, h.size]
  | cons pkt l =>
      have hne : ((l.length : Int) + 1 ≠ 0) := by omega
      simp [Queue.peek, h.size, hne, h.ring.at_head]

theorem Holds.isHigherOrEqual {list : Queue} {l : List Pkt} (h : list.Holds l) (seqnum : Int) :
    list.isHigherOrEqual seqnum =
      .ok (l.head?.elim false fun pkt => seqnumHigherOrEqual seqnum pkt.seqnum) := by
  cases l with
  | nil => simp [Queue.isHigherOrEqual, h.isEmpty]
  | cons pkt l => simp [Queue.isHigherOrEqual, h.isEmpty, h.peek]

end Queue

end SelectiveRepeat
