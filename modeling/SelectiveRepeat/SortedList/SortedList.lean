/-
  SelectiveRepeat.SortedList.SortedList

  The receiver's window (sorted_list.c): an array of stored packets indexed by
  their distance from the expected number, a separate count, and a cursor that
  `peek` moves.  Nothing in the source bounds an index, so every access to the
  array is checked here, and one outside it is a fault.
-/
import SelectiveRepeat.Lib.Slots
import SelectiveRepeat.Queue.Search

namespace SelectiveRepeat

/-- `pstl_t`; only the first `MAX_PAYLOAD_SIZE` cells of `payload` exist. -/
structure Pstl where
  payload : Mem
  length : UInt16
  seqnum : UInt8
  timestamp : UInt32

/-- `list_t`; `none` is `NULL`. -/
structure SortedList where
  window : Fin MAX_WINDOW_SIZE → Option Pstl
  size : Int
  ptr : UInt8

/-- The bytes of a stored packet. -/
def Pstl.data (elem : Pstl) : Bytes := elem.payload.slice 0 elem.length.toNat

/-- Reading `length` bytes of `payload`. -/
def readPstl (elem : Pstl) : Exec Bytes :=
  if MAX_PAYLOAD_SIZE < elem.length.toNat then .error (.payload elem.length.toNat)
  else .ok elem.data

/-- What `add` stores of a packet, in the block `toAdd`. -/
def Pkt.stored (packet : Pkt) (payload : Bytes) (toAdd : Pstl) : Pstl where
  payload := toAdd.payload.blit 0 payload
  length := packet.length
  seqnum := packet.seqnum
  timestamp := packet.timestamp

namespace SortedList

def ind (toPlace waited : UInt8) : Int :=
  let diff : Int := toPlace.toNat - waited.toNat
  if diff < 0 then diff + 256 else diff

/-- Reading `list->window[index]`. -/
def slot (list : SortedList) (index : Int) : Exec (Option Pstl) :=
  if h : 0 ≤ index ∧ index < MAX_WINDOW_SIZE then
    .ok (list.window ⟨index.toNat, by omega⟩)
  else .error (.window index.toNat)

/-- Storing to `list->window[index]`. -/
def setSlot (list : SortedList) (index : Int) (elem : Option Pstl) : Exec SortedList :=
  if h : 0 ≤ index ∧ index < MAX_WINDOW_SIZE then
    .ok { list with window := Function.update list.window ⟨index.toNat, by omega⟩ elem }
  else .error (.window index.toNat)

/-- `new_list`; `mem` is the block `malloc` returned. -/
def newList (mem : SortedList) : SortedList := { mem with size := 0, ptr := 0 }

/-- `malloc` is the block for a new element, `none` when there is none left. -/
def add (list : SortedList) (packet : Pkt) (waited : UInt8) (malloc : Option Pstl) :
    Exec (Int × SortedList) := do
  let index := ind packet.seqnum waited
  match ← list.slot index with
  | some _ =>
      -- a duplicate: the packet stored first is kept
      return (1, list)
  | none =>
      match malloc with
      | none => return (-1, list)
      | some toAdd =>
          let payload ← readPayload packet
          let list ← list.setSlot index (some (packet.stored payload toAdd))
          return (0, { list with size := list.size + 1 })

/-- The `while` of `peek`: what the cursor stops at, and the cursor. -/
def peekLoop (list : SortedList) : Nat → UInt8 → Exec (Pstl × UInt8)
  | 0, _ => .error .loop
  | fuel + 1, ptr => do
      -- only a stored packet stops the scan, not the end of the array
      match ← list.slot ptr.toNat with
      | none => peekLoop list fuel (ptr + 1)
      | some elem => return (elem, ptr)

/-- A scan that goes past the array is a fault, so it has no more steps than cells. -/
def peek (list : SortedList) : Exec (Option Pstl × SortedList) :=
  if list.size = 0 then .ok (none, list)
  else do
    let (elem, ptr) ← peekLoop list (MAX_WINDOW_SIZE + 1) list.ptr
    return (some elem, { list with ptr := ptr })

def pop (list : SortedList) : Exec SortedList := do
  let list ← list.setSlot list.ptr.toNat none
  return { list with size := list.size - 1 }

/-- The `for` of `reset`, from `i` on. -/
def resetLoop (shift : Int) : Nat → Int → Int → SortedList → Exec SortedList
  | 0, _, _, _ => .error .loop
  | fuel + 1, i, nb, list =>
      -- `nb` packets were moved; the loop stops early when that is all of them
      if i < MAX_WINDOW_SIZE ∧ nb < list.size then do
        match ← list.slot i with
        | none => resetLoop shift fuel (i + 1) nb list
        | some elem =>
            let list ← list.setSlot (i - shift) (some elem)
            let list ← list.setSlot i none
            resetLoop shift fuel (i + 1) (nb + 1) list
      else .ok list

def reset (list : SortedList) (newWaited oldWaited : UInt8) : Exec SortedList := do
  let shift := ind newWaited oldWaited
  let list ← resetLoop shift (MAX_WINDOW_SIZE + 1) shift 0 list
  return { list with ptr := 0 }

def isEmpty (list : SortedList) : Bool := list.size = 0

/-! ## The cells -/

/-- The array as a function on all numbers, empty outside its bounds. -/
def cells (list : SortedList) (i : Nat) : Option Pstl :=
  if h : i < MAX_WINDOW_SIZE then list.window ⟨i, h⟩ else none

theorem cells_of_ge (list : SortedList) {i : Nat} (h : 31 ≤ i) : list.cells i = none :=
  dif_neg (Nat.not_lt.mpr h)

theorem lt_of_cells {list : SortedList} {i : Nat} {elem : Pstl} (h : list.cells i = some elem) :
    i < 31 := by
  by_contra hge
  rw [list.cells_of_ge (Nat.le_of_not_lt hge)] at h
  exact absurd h (by simp)

theorem slot_eq (list : SortedList) {i : Nat} (h : i < 31) :
    list.slot i = .ok (list.cells i) := by
  have hi : 0 ≤ (i : Int) ∧ (i : Int) < MAX_WINDOW_SIZE := by
    simp only [MAX_WINDOW_SIZE]
    omega
  rw [slot, dif_pos hi, cells, dif_pos (show i < MAX_WINDOW_SIZE from h)]
  rfl

theorem slot_of_ge (list : SortedList) {i : Nat} (h : 31 ≤ i) :
    list.slot i = .error (.window i) := by
  have hi : ¬ (0 ≤ (i : Int) ∧ (i : Int) < MAX_WINDOW_SIZE) := by
    simp only [MAX_WINDOW_SIZE]
    omega
  rw [slot, dif_neg hi]
  rfl

theorem setSlot_eq (list : SortedList) {i : Nat} (h : i < 31) (elem : Option Pstl) :
    ∃ list', list.setSlot i elem = .ok list' ∧ list'.cells = Function.update list.cells i elem ∧
      list'.size = list.size ∧ list'.ptr = list.ptr := by
  have hi : 0 ≤ (i : Int) ∧ (i : Int) < MAX_WINDOW_SIZE := by
    simp only [MAX_WINDOW_SIZE]
    omega
  refine ⟨_, dif_pos hi, ?_, rfl, rfl⟩
  funext j
  by_cases hj : j < MAX_WINDOW_SIZE
  · rw [cells, dif_pos hj]
    by_cases hji : j = i
    · subst hji
      rw [Function.update_self]
      exact Function.update_self _ _ _
    · rw [Function.update_of_ne hji, cells, dif_pos hj]
      refine Function.update_of_ne (fun heq => hji ?_) _ _
      simpa using congrArg Fin.val heq
  · have hji : j ≠ i := by
      rintro rfl
      exact hj h
    rw [Function.update_of_ne hji, cells, cells, dif_neg hj, dif_neg hj]

/-- The index of a packet is its distance from the expected number. -/
theorem ind_eq (toPlace waited : UInt8) : ind toPlace waited = distance waited toPlace := by
  have hd := distance_def waited toPlace
  have hp := toPlace.toNat_lt
  have hw := waited.toNat_lt
  simp only [ind]
  split <;> omega

/-! ## The operations on the cells -/

/-- The count is kept: `size` is the number of stored packets. -/
def Counted (list : SortedList) : Prop := list.size = Slots.occupied list.cells 31

theorem Counted.isEmpty {list : SortedList} (h : list.Counted) :
    list.isEmpty = true ↔ ∀ i, list.cells i = none := by
  rw [SortedList.isEmpty, decide_eq_true_iff, h]
  refine ⟨?_, ?_⟩
  · intro hz i
    by_cases hi : i < 31
    · exact Slots.occupied_eq_zero.mp (by omega) i hi
    · exact list.cells_of_ge (Nat.le_of_not_lt hi)
  · intro hnone
    have hz := Slots.occupied_eq_zero.mpr fun i (_ : i < 31) => hnone i
    omega

theorem add_of_ge (list : SortedList) (packet : Pkt) (waited : UInt8) (malloc : Option Pstl)
    (h : 31 ≤ distance waited packet.seqnum) :
    list.add packet waited malloc = .error (.window (distance waited packet.seqnum)) := by
  simp only [add, ind_eq, list.slot_of_ge h, error_bind]

theorem add_of_some {list : SortedList} {packet : Pkt} {waited : UInt8} {elem : Pstl}
    (h : list.cells (distance waited packet.seqnum) = some elem) (malloc : Option Pstl) :
    list.add packet waited malloc = .ok (1, list) := by
  simp only [add, ind_eq, list.slot_eq (lt_of_cells h), h, ok_bind]
  rfl

theorem add_of_malloc_none {list : SortedList} {packet : Pkt} {waited : UInt8}
    (hlt : distance waited packet.seqnum < 31)
    (h : list.cells (distance waited packet.seqnum) = none) :
    list.add packet waited none = .ok (-1, list) := by
  simp only [add, ind_eq, list.slot_eq hlt, h, ok_bind]
  rfl

/-- A packet with room for it is stored at its distance. -/
theorem add_of_none {list : SortedList} {packet : Pkt} {waited : UInt8}
    (hlt : distance waited packet.seqnum < 31)
    (h : list.cells (distance waited packet.seqnum) = none) {payload : Bytes}
    (hread : readPayload packet = .ok payload) (toAdd : Pstl) :
    ∃ list', list.add packet waited (some toAdd) = .ok (0, list') ∧
      list'.cells = Function.update list.cells (distance waited packet.seqnum)
        (some (packet.stored payload toAdd)) ∧
      list'.size = list.size + 1 ∧ list'.ptr = list.ptr := by
  obtain ⟨list', hset, hcells, hsize, hptr⟩ :=
    list.setSlot_eq hlt (some (packet.stored payload toAdd))
  refine ⟨{ list' with size := list'.size + 1 }, ?_, hcells, ?_, hptr⟩
  · simp only [add, ind_eq, list.slot_eq hlt, h, hread, hset, ok_bind]
    rfl
  · rw [hsize]

/-- `add` answers 1 exactly when the slot of the packet is taken. -/
theorem add_result {list list' : SortedList} {packet : Pkt} {waited : UInt8}
    {malloc : Option Pstl} {res : Int} (h : list.add packet waited malloc = .ok (res, list')) :
    res = 1 ↔ (list.cells (distance waited packet.seqnum)).isSome = true := by
  cases hcell : list.cells (distance waited packet.seqnum) with
  | some elem =>
      rw [add_of_some hcell] at h
      cases h
      exact iff_of_true rfl rfl
  | none =>
      refine iff_of_false ?_ (by simp)
      by_cases hlt : distance waited packet.seqnum < 31
      · simp only [add, ind_eq, list.slot_eq hlt, hcell, ok_bind] at h
        cases malloc with
        | none =>
            cases h
            decide
        | some toAdd =>
            obtain ⟨payload, -, h⟩ := exists_ok_of_bind h
            obtain ⟨list₁, -, h⟩ := exists_ok_of_bind h
            cases h
            decide
      · rw [list.add_of_ge packet waited malloc (Nat.le_of_not_lt hlt)] at h
        cases h

/-- The scan stops at the first stored packet at or after the cursor. -/
theorem peekLoop_spec {list : SortedList} {j : Nat} {elem : Pstl} (hj : list.cells j = some elem)
    {fuel p : Nat} {ptr : UInt8} (hptr : ptr.toNat = p) (hpj : p ≤ j)
    (hbefore : ∀ i, p ≤ i → i < j → list.cells i = none) (hfuel : j - p < fuel) :
    peekLoop list fuel ptr = .ok (elem, UInt8.ofNat j) := by
  have hj31 := lt_of_cells hj
  -- on the cells between the cursor and the first packet
  induction fuel generalizing p ptr with
  | zero => exact absurd hfuel (Nat.not_lt_zero _)
  | succ fuel ih =>
      simp only [peekLoop, hptr, list.slot_eq (show p < 31 by omega), ok_bind]
      by_cases heq : p = j
      · subst heq
        have hofnat : UInt8.ofNat p = ptr := by rw [← hptr, UInt8.ofNat_toNat]
        simp only [hj, hofnat]
        rfl
      · rw [hbefore p (Nat.le_refl p) (by omega)]
        have hnext : (ptr + 1).toNat = p + 1 := by
          rw [UInt8.toNat_add, hptr, UInt8.toNat_one]
          omega
        exact ih hnext (by omega) (fun i hi => hbefore i (by omega)) (by omega)

/-- Unless the count is 0, `peek` finds the first slot that is not null, if the cursor is not
    past it. -/
theorem peek_of_size {list : SortedList} (hsize : list.size ≠ 0) {j : Nat} {elem : Pstl}
    (hj : list.cells j = some elem) (hbefore : ∀ i < j, list.cells i = none)
    (hptr : list.ptr.toNat ≤ j) :
    list.peek = .ok (some elem, { list with ptr := UInt8.ofNat j }) := by
  have hj31 := lt_of_cells hj
  have hloop := peekLoop_spec hj rfl hptr (fun i _ hi => hbefore i hi)
    (show j - list.ptr.toNat < MAX_WINDOW_SIZE + 1 by simp only [MAX_WINDOW_SIZE]; omega)
  rw [peek, if_neg hsize, hloop]
  rfl

/-- So it finds the first stored packet when the count is kept. -/
theorem peek_of_first {list : SortedList} (h : list.Counted) {j : Nat} {elem : Pstl}
    (hj : list.cells j = some elem) (hbefore : ∀ i < j, list.cells i = none)
    (hptr : list.ptr.toNat ≤ j) :
    list.peek = .ok (some elem, { list with ptr := UInt8.ofNat j }) := by
  refine peek_of_size (fun hz => ?_) hj hbefore hptr
  have hall := h.isEmpty.mp (by simp [SortedList.isEmpty, hz])
  rw [hall j] at hj
  exact absurd hj (by simp)

/-- What the scan stops at is stored at or after the cursor. -/
theorem peekLoop_some {list : SortedList} {fuel : Nat} {ptr ptr' : UInt8} {elem : Pstl}
    (h : peekLoop list fuel ptr = .ok (elem, ptr')) :
    ∃ j, ptr.toNat ≤ j ∧ list.cells j = some elem := by
  induction fuel generalizing ptr with
  | zero => cases h
  | succ fuel ih =>
      by_cases hptr : ptr.toNat < 31
      · simp only [peekLoop, list.slot_eq hptr, ok_bind] at h
        cases hcell : list.cells ptr.toNat with
        | none =>
            rw [hcell] at h
            obtain ⟨j, hle, hj⟩ := ih h
            have hnext : (ptr + 1).toNat = ptr.toNat + 1 := by
              rw [UInt8.toNat_add, UInt8.toNat_one]
              omega
            exact ⟨j, by omega, hj⟩
        | some first =>
            rw [hcell] at h
            cases h
            exact ⟨_, Nat.le_refl _, hcell⟩
      · -- the cursor has left the array
        simp only [peekLoop, list.slot_of_ge (Nat.le_of_not_lt hptr), error_bind] at h
        cases h

theorem peek_some {list list' : SortedList} {elem : Pstl}
    (h : list.peek = .ok (some elem, list')) :
    ∃ j, list.ptr.toNat ≤ j ∧ list.cells j = some elem := by
  rw [peek] at h
  split at h
  · cases h
  · obtain ⟨⟨first, ptr⟩, hloop, h⟩ := exists_ok_of_bind h
    cases h
    exact peekLoop_some hloop

/-- A second `peek` finds the same packet and moves nothing, so the loop of the
    receiver may be read with one `peek` for each packet. -/
theorem peek_again {list list' : SortedList} {elem : Pstl} (h : list.Counted) {j : Nat}
    (hj : list.cells j = some elem) (hbefore : ∀ i < j, list.cells i = none)
    (hptr : list.ptr.toNat ≤ j) (hpeek : list.peek = .ok (some elem, list')) :
    list'.peek = .ok (some elem, list') := by
  rw [peek_of_first h hj hbefore hptr, Except.ok.injEq, Prod.mk.injEq] at hpeek
  obtain ⟨-, rfl⟩ := hpeek
  have hj31 := lt_of_cells hj
  apply @peek_of_first { list with ptr := UInt8.ofNat j } h j elem hj hbefore
  rw [UInt8.toNat_ofNat']
  omega

/-- `pop` empties the cell at the cursor. -/
theorem pop_spec {list : SortedList} (h : list.Counted) {j : Nat} {elem : Pstl}
    (hj : list.cells j = some elem) (hptr : list.ptr.toNat = j) :
    ∃ list', list.pop = .ok list' ∧ list'.cells = Function.update list.cells j none ∧
      list'.Counted ∧ list'.ptr = list.ptr := by
  have hj31 := lt_of_cells hj
  obtain ⟨list', hset, hcells, hsize, hptr'⟩ := list.setSlot_eq hj31 none
  refine ⟨{ list' with size := list'.size - 1 }, ?_, hcells, ?_, hptr'⟩
  · simp only [pop, hptr, hset, ok_bind]
    rfl
  · have hclear := Slots.occupied_clear hj31 hj
    have hcount : list.size = Slots.occupied list.cells 31 := h
    show list'.size - 1 = Slots.occupied list'.cells 31
    rw [hcells, hsize]
    omega

/-- The cells when the loop of `reset` has come to `i`. -/
def moved (orig : Nat → Option Pstl) (s i : Nat) : Nat → Option Pstl := fun j =>
  if j + s < i then orig (j + s) else if j < i then none else orig j

theorem moved_succ_none {orig : Nat → Option Pstl} {s i : Nat} (h : orig i = none) :
    moved orig s (i + 1) = moved orig s i := by
  funext j
  simp only [moved]
  by_cases h1 : j + s = i
  · rw [if_pos (by omega), if_neg (by omega), h1, h]
    split
    · rfl
    · rw [show j = i by omega, h]
  · by_cases h2 : j = i
    · subst h2
      rw [if_neg (by omega), if_pos (by omega), if_neg (by omega), if_neg (by omega), h]
    · congr 1
      · simp only [eq_iff_iff]
        omega
      · congr 1
        simp only [eq_iff_iff]
        omega

theorem moved_succ_some {orig : Nat → Option Pstl} {s i : Nat} {elem : Pstl} (hs : 0 < s)
    (hsi : s ≤ i) (h : orig i = some elem) :
    moved orig s (i + 1) =
      Function.update (Function.update (moved orig s i) (i - s) (some elem)) i none := by
  funext j
  by_cases h2 : j = i
  · subst h2
    rw [Function.update_self, moved, if_neg (by omega), if_pos (by omega)]
  · rw [Function.update_of_ne h2]
    by_cases h1 : j = i - s
    · rw [h1, Function.update_self, moved, if_pos (by omega), Nat.sub_add_cancel hsi, h]
    · rw [Function.update_of_ne h1]
      simp only [moved]
      congr 1
      · simp only [eq_iff_iff]
        omega
      · congr 1
        simp only [eq_iff_iff]
        omega

/-- When nothing is stored from `i` on, everything has been moved. -/
theorem moved_last {orig : Nat → Option Pstl} {s i : Nat} (h : ∀ j, i ≤ j → orig j = none) :
    moved orig s i = Slots.shift orig s := by
  funext j
  simp only [moved, Slots.shift]
  split
  · rfl
  · rw [h (j + s) (by omega)]
    split
    · rfl
    · exact h j (by omega)

/-- The loop moves every stored packet down by `s`, though it stops early. -/
theorem resetLoop_spec {orig : Nat → Option Pstl} (hhigh : ∀ i, 31 ≤ i → orig i = none) {s : Nat}
    (hs : 0 < s) {fuel i : Nat} (list : SortedList) (hsi : s ≤ i) (hi : i ≤ 31)
    (hcells : list.cells = moved orig s i) (hsize : list.size = Slots.occupied orig 31)
    (hfuel : 31 - i < fuel) :
    ∃ list', resetLoop s fuel i (Slots.occupied orig i) list = .ok list' ∧
      list'.cells = Slots.shift orig s ∧ list'.size = list.size := by
  -- on the cells not reached; `moved` is the invariant, and `nb` counts those below `i`
  induction fuel generalizing i list with
  | zero => exact absurd hfuel (Nat.not_lt_zero _)
  | succ fuel ih =>
      have hcond : ((i : Int) < MAX_WINDOW_SIZE ∧ (Slots.occupied orig i : Int) < list.size) ↔
          i < 31 ∧ Slots.occupied orig i < Slots.occupied orig 31 := by
        simp only [MAX_WINDOW_SIZE]
        omega
      by_cases hgo : i < 31 ∧ Slots.occupied orig i < Slots.occupied orig 31
      · have hat : list.cells i = orig i := by
          rw [hcells, moved, if_neg (by omega), if_neg (by omega)]
        simp only [resetLoop, if_pos (hcond.mpr hgo), list.slot_eq hgo.1, ok_bind, hat]
        cases helem : orig i with
        | none =>
            have hnb := Slots.occupied_succ_none helem
            have hrest := ih (i := i + 1) list (by omega) (by omega)
              (hcells.trans (moved_succ_none helem).symm) hsize (by omega)
            rwa [hnb] at hrest
        | some elem =>
            -- the packet moves down by `s`, to a cell that is empty by now
            have hnb := Slots.occupied_succ_some helem
            obtain ⟨list₁, hset₁, hcells₁, hsize₁, -⟩ :=
              list.setSlot_eq (show i - s < 31 by omega) (some elem)
            obtain ⟨list₂, hset₂, hcells₂, hsize₂, -⟩ := list₁.setSlot_eq hgo.1 none
            have hcells' : list₂.cells = moved orig s (i + 1) := by
              rw [hcells₂, hcells₁, hcells, moved_succ_some hs hsi helem]
            have hsize' : list₂.size = list.size := hsize₂.trans hsize₁
            have hsub : ((i : Int) - s) = ((i - s : Nat) : Int) := by omega
            obtain ⟨list', hrun, hfinal, hfsize⟩ := ih (i := i + 1) list₂ (by omega)
              (by omega) hcells' (hsize'.trans hsize) (by omega)
            rw [hnb] at hrun
            simp only [hsub, hset₁, hset₂, ok_bind]
            exact ⟨list', hrun, hfinal, hfsize.trans hsize'⟩
      · -- everything stored lies below `i`
        have hrest : ∀ j, i ≤ j → orig j = none := by
          intro j hj
          by_cases hj31 : j < 31
          · exact Slots.none_of_occupied (by omega) hj hj31
          · exact hhigh j (Nat.le_of_not_lt hj31)
        have hstop : resetLoop s (fuel + 1) i (Slots.occupied orig i) list = .ok list := by
          rw [resetLoop, if_neg (mt hcond.mp hgo)]
        exact ⟨list, hstop, hcells.trans (moved_last hrest), rfl⟩

/-- `reset` moves nothing when the count is 0. -/
theorem reset_of_size {list : SortedList} (hsize : list.size = 0) (newWaited oldWaited : UInt8) :
    list.reset newWaited oldWaited = .ok { list with ptr := 0 } := by
  have hgo : ¬ (ind newWaited oldWaited < MAX_WINDOW_SIZE ∧ (0 : Int) < list.size) := by
    rw [hsize]
    omega
  simp only [reset, resetLoop, if_neg hgo, ok_bind]
  rfl

/-- `reset` past the popped cells. -/
theorem reset_spec {list : SortedList} (h : list.Counted) {newWaited oldWaited : UInt8}
    (hpos : 0 < distance oldWaited newWaited) (hle : distance oldWaited newWaited ≤ 31)
    (hlow : ∀ i < distance oldWaited newWaited, list.cells i = none) :
    ∃ list', list.reset newWaited oldWaited = .ok list' ∧
      list'.cells = Slots.shift list.cells (distance oldWaited newWaited) ∧ list'.Counted ∧
      list'.ptr = 0 := by
  generalize hs : distance oldWaited newWaited = s at *
  have hstart : list.cells = moved list.cells s s := by
    funext j
    simp only [moved]
    rw [if_neg (by omega)]
    split
    · exact hlow j ‹_›
    · rfl
  have hzero : Slots.occupied list.cells s = 0 := Slots.occupied_eq_zero.mpr hlow
  have hhigh : ∀ i, 31 ≤ i → list.cells i = none := fun i hi => list.cells_of_ge hi
  obtain ⟨list', hrun, hcells, hsize⟩ := resetLoop_spec hhigh hpos list
    (Nat.le_refl s) hle hstart h (show 31 - s < MAX_WINDOW_SIZE + 1 by
      simp only [MAX_WINDOW_SIZE]; omega)
  rw [hzero] at hrun
  refine ⟨{ list' with ptr := 0 }, ?_, hcells, ?_, rfl⟩
  · have hind : ind newWaited oldWaited = (s : Int) := by rw [ind_eq, hs]
    have hnil : ((0 : Nat) : Int) = 0 := rfl
    rw [hnil] at hrun
    simp only [reset, hind, hrun, ok_bind]
    rfl
  · have hcount : list.size = Slots.occupied list.cells 31 := h
    show list'.size = Slots.occupied list'.cells 31
    rw [hcells, Slots.occupied_shift hlow hhigh, hsize, hcount]

end SortedList

end SelectiveRepeat
