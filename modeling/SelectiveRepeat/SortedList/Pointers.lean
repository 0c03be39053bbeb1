/-
  SelectiveRepeat.SortedList.Pointers

  The receiver's window (sorted_list.c) with its pointers.  An element is a block that
  `add` allocates and `pop` frees; `reset` moves addresses from slot to slot and copies
  no element.
-/
import SelectiveRepeat.Segment.Pointer
import SelectiveRepeat.SortedList.SortedList

namespace SelectiveRepeat.Pointers

/-- `list_t`; `none` is `NULL`. -/
structure SortedList where
  window : Fin MAX_WINDOW_SIZE → Option Nat
  size : Int
  ptr : UInt8

namespace SortedList

theorem toNat_lt_window {index : Int} (h : 0 ≤ index ∧ index < MAX_WINDOW_SIZE) :
    index.toNat < MAX_WINDOW_SIZE := by omega

/-- Reading `list->window[index]`. -/
def slot (list : SortedList) (index : Int) : Exec (Option Nat) :=
  if h : 0 ≤ index ∧ index < MAX_WINDOW_SIZE then
    .ok (list.window ⟨index.toNat, toNat_lt_window h⟩)
  else .error (.code (.window index.toNat))

/-- Storing to `list->window[index]`. -/
def setSlot (list : SortedList) (index : Int) (elem : Option Nat) : Exec SortedList :=
  if h : 0 ≤ index ∧ index < MAX_WINDOW_SIZE then
    .ok { list with window := Function.update list.window ⟨index.toNat, toNat_lt_window h⟩ elem }
  else .error (.code (.window index.toNat))

/-- `new_list`; `mem` is the block `malloc` returned. -/
def newList (mem : SortedList) : SortedList := { mem with size := 0, ptr := 0 }

/-- `add`; the block `malloc` returns contains `content`, and there may be none. -/
def add (list : SortedList) (elements : Storage Pstl) (packet : Pkt) (waited : UInt8)
    (malloc : Allocator) (content : Option Pstl) : Exec (Int × SortedList × Storage Pstl) := do
  let index := SelectiveRepeat.SortedList.ind packet.seqnum waited
  match ← list.slot index with
  | some _ => return (1, list, elements)
  | none =>
      match content with
      | none => return (-1, list, elements)
      | some content =>
          let toAdd := malloc.address elements.live
          let elements := elements.place toAdd content
          let payload ← lift (readPayload packet)
          let elements ← modify elements (some toAdd) fun elem => packet.stored payload elem
          let list ← list.setSlot index (some toAdd)
          return (0, { list with size := list.size + 1 }, elements)

def peekLoop (list : SortedList) : Nat → UInt8 → Exec (Nat × UInt8)
  | 0, _ => .error (.code .loop)
  | fuel + 1, ptr => do
      match ← list.slot ptr.toNat with
      | none => peekLoop list fuel (ptr + 1)
      | some elem => return (elem, ptr)

def peek (list : SortedList) : Exec (Option Nat × SortedList) :=
  if list.size = 0 then .ok (none, list)
  else do
    let (elem, ptr) ← peekLoop list (MAX_WINDOW_SIZE + 1) list.ptr
    return (some elem, { list with ptr := ptr })

def pop (list : SortedList) (elements : Storage Pstl) : Exec (SortedList × Storage Pstl) := do
  let elem ← list.slot list.ptr.toNat
  let elements ← free elements elem
  let list ← list.setSlot list.ptr.toNat none
  return ({ list with size := list.size - 1 }, elements)

def resetLoop (shift : Int) : Nat → Int → Int → SortedList → Exec SortedList
  | 0, _, _, _ => .error (.code .loop)
  | fuel + 1, i, nb, list =>
      if i < MAX_WINDOW_SIZE ∧ nb < list.size then do
        match ← list.slot i with
        | none => resetLoop shift fuel (i + 1) nb list
        | some elem =>
            -- the address is in both slots until the second is cleared
            let list ← list.setSlot (i - shift) (some elem)
            let list ← list.setSlot i none
            resetLoop shift fuel (i + 1) (nb + 1) list
      else .ok list

def reset (list : SortedList) (newWaited oldWaited : UInt8) : Exec SortedList := do
  let shift := SelectiveRepeat.SortedList.ind newWaited oldWaited
  let list ← resetLoop shift (MAX_WINDOW_SIZE + 1) shift 0 list
  return { list with ptr := 0 }

def isEmpty (list : SortedList) : Bool := list.size = 0

end SortedList

end SelectiveRepeat.Pointers
