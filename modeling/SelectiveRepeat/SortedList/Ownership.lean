/-
  SelectiveRepeat.SortedList.Ownership

  Who owns the elements of the receiver's window: a slot that is not null leads to an
  allocated element, and no two lead to one.  `reset` keeps this although it works in
  place.  With its pointers the list does what it does on the elements themselves.
-/
import SelectiveRepeat.SortedList.Pointers

namespace SelectiveRepeat.Pointers.SortedList

/-- The list of the elements. -/
def value (list : SortedList) (elements : Storage Pstl) : SelectiveRepeat.SortedList where
  window := elements.seen list.window
  size := list.size
  ptr := list.ptr

/-- An index is that of a slot, for reading and storing alike, or outside the array. -/
theorem index_cases (index : Int) :
    (∃ i : Fin MAX_WINDOW_SIZE, (∀ list, slot list index = .ok (list.window i)) ∧
        (∀ list p, setSlot list index p =
          .ok { list with window := Function.update list.window i p }) ∧
        (∀ list, SelectiveRepeat.SortedList.slot list index = .ok (list.window i)) ∧
        ∀ list e, SelectiveRepeat.SortedList.setSlot list index e =
          .ok { list with window := Function.update list.window i e }) ∨
      (∀ list, slot list index = .error (.code (.window index.toNat))) ∧
        (∀ list p, setSlot list index p = .error (.code (.window index.toNat))) ∧
        (∀ list, SelectiveRepeat.SortedList.slot list index = .error (.window index.toNat)) ∧
        ∀ list e, SelectiveRepeat.SortedList.setSlot list index e =
          .error (.window index.toNat) := by
  by_cases h : 0 ≤ index ∧ index < MAX_WINDOW_SIZE
  · exact Or.inl ⟨⟨index.toNat, toNat_lt_window h⟩, fun _ => dif_pos h, fun _ _ => dif_pos h,
      fun _ => dif_pos h, fun _ _ => dif_pos h⟩
  · exact Or.inr ⟨fun _ => dif_neg h, fun _ _ => dif_neg h, fun _ => dif_neg h, fun _ _ => dif_neg h⟩

section
variable {list : SortedList} {elements : Storage Pstl} {spare : Finset Nat}

/-! ## Searching -/

theorem peekLoop_agrees (list : SortedList) (elements : Storage Pstl) (fuel : Nat) (ptr : UInt8) :
    Agrees (fun r r' => (elements.content r.1, r.2) = r' ∧ list.slot r.2.toNat = .ok (some r.1))
      (list.peekLoop fuel ptr) ((list.value elements).peekLoop fuel ptr) := by
  induction fuel generalizing ptr with
  | zero => exact .error _
  | succ fuel ih =>
      rw [peekLoop, SelectiveRepeat.SortedList.peekLoop]
      rcases index_cases ptr.toNat with ⟨i, hslot, -, hslot', -⟩ | ⟨hslot, -, hslot', -⟩
      · have hcell : (list.value elements).window i = (list.window i).map elements.content := rfl
        rw [hslot, hslot', hcell]
        simp only [ok_bind, SelectiveRepeat.ok_bind]
        cases hi : list.window i with
        | none => exact ih (ptr + 1)
        | some p => exact .ok ⟨rfl, (hslot list).trans (by rw [hi])⟩
      · rw [hslot, hslot']
        exact .error _

/-- `peek` moves the cursor to the slot of what it returns. -/
theorem peek_agrees (list : SortedList) (elements : Storage Pstl) :
    Agrees (fun r r' => (r.1.map elements.content, r.2.value elements) = r' ∧
        r.2.window = list.window ∧ r.2.size = list.size ∧
        ∀ p, r.1 = some p → r.2.slot r.2.ptr.toNat = .ok (some p))
      list.peek (list.value elements).peek := by
  have hsize : (list.value elements).size = list.size := rfl
  rw [peek, SelectiveRepeat.SortedList.peek, hsize]
  split
  · refine .ok ⟨rfl, rfl, rfl, ?_⟩
    intro p hp
    cases hp
  · refine (peekLoop_agrees list elements _ _).bind ?_
    rintro ⟨p, ptr⟩ - - ⟨rfl, hslot⟩
    refine .ok ⟨rfl, rfl, rfl, fun q hq => ?_⟩
    rw [← hq]
    exact hslot

/-- A slot leads to an allocated element. -/
theorem slot_live (h : elements.Owns list.window spare) {index : Int} {p : Nat}
    (hp : list.slot index = .ok (some p)) : p ∈ elements.live := by
  rcases index_cases index with ⟨i, hslot, -⟩ | ⟨hslot, -⟩
  · rw [hslot, Except.ok.injEq] at hp
    exact h.live hp
  · rw [hslot] at hp
    cases hp

/-! ## Storing and removing -/

/-- What an operation on the window leaves: the elements as before but for what it did to the
    list, and the same difference between the elements and the count. -/
structure Kept (list : SortedList) (elements : Storage Pstl) (list' : SortedList)
    (elements' : Storage Pstl) (value : SelectiveRepeat.SortedList) : Prop where
  value : list'.value elements' = value
  owns : ∃ spare, elements'.Owns list'.window spare
  count : (elements'.live.card : Int) - list'.size = elements.live.card - list.size

/-- `add` allocates the element it stores. -/
theorem add_agrees (h : elements.Owns list.window spare) (packet : Pkt) (waited : UInt8)
    (malloc : Allocator) (content : Option Pstl) :
    Agrees (fun r r' => r.1 = r'.1 ∧ list.Kept elements r.2.1 r.2.2 r'.2)
      (list.add elements packet waited malloc content)
      ((list.value elements).add packet waited content) := by
  simp only [add, SelectiveRepeat.SortedList.add]
  rcases index_cases (SelectiveRepeat.SortedList.ind packet.seqnum waited) with
    ⟨i, hslot, hset, hslot', hset'⟩ | ⟨hslot, -, hslot', -⟩
  · have hcell : (list.value elements).window i = (list.window i).map elements.content := rfl
    rw [hslot, hslot', hcell]
    simp only [ok_bind, SelectiveRepeat.ok_bind]
    cases hi : list.window i with
    | some p => exact .ok ⟨rfl, rfl, ⟨spare, h⟩, rfl⟩
    | none =>
        cases content with
        | none => exact .ok ⟨rfl, rfl, ⟨spare, h⟩, rfl⟩
        | some content =>
            refine (agrees_lift _).bind ?_
            rintro payload - - rfl
            -- the element is allocated and filled in, and then stored
            have hfresh := malloc.fresh elements.live
            generalize malloc.address elements.live = p at hfresh ⊢
            obtain ⟨hplaced, hseen⟩ := h.place hfresh content
            have hmem := Finset.mem_insert_self p spare
            have hcontent : (elements.place p content).content p = content :=
              Function.update_self ..
            obtain ⟨elements', hwrite, howns, hseen', hwritten⟩ :=
              hplaced.write_spare hmem (packet.stored payload ((elements.place p content).content p))
            rw [modify_eq (hplaced.spare_live hmem) hwrite, hset, hset']
            obtain ⟨hgiven, hseen''⟩ := howns.give hmem hi
            refine .ok ⟨rfl, ?_, ⟨_, hgiven⟩, ?_⟩
            · rw [hwritten, hcontent, hseen', hseen] at hseen''
              simp only [value, hseen'']
            · dsimp only
              rw [Storage.write_live hwrite, Storage.place_card hfresh]
              omega
  · rw [hslot, hslot']
    exact .error _

/-- `pop` frees the element `peek` returned. -/
theorem pop_agrees (h : elements.Owns list.window spare) {p : Nat}
    (hp : list.slot list.ptr.toNat = .ok (some p)) :
    Agrees (fun r list' => list.Kept elements r.1 r.2 list') (list.pop elements)
      (list.value elements).pop := by
  have hptr : (list.value elements).ptr = list.ptr := rfl
  rw [pop, SelectiveRepeat.SortedList.pop, hptr, hp]
  rcases index_cases list.ptr.toNat with ⟨i, hslot, hset, -, hset'⟩ | ⟨hslot, -⟩
  · rw [hslot, Except.ok.injEq] at hp
    obtain ⟨elements', hfree, howns, hseen⟩ := h.free hp
    rw [ok_bind, free_eq hfree, hset, hset']
    refine .ok ⟨?_, ⟨spare, howns⟩, ?_⟩
    · simp only [value, hseen]
    · have hcard := Storage.free_card hfree
      dsimp only
      omega
  · rw [hslot] at hp
    cases hp

/-! ## Moving -/

/-- Between the two stores of a round an element is in two slots, and after it in one. -/
theorem resetLoop_agrees (shift : Int) (fuel : Nat) (i nb : Int)
    (h : elements.Owns list.window spare) :
    Agrees (fun list' value => list.Kept elements list' elements value)
      (resetLoop shift fuel i nb list)
      (SelectiveRepeat.SortedList.resetLoop shift fuel i nb (list.value elements)) := by
  induction fuel generalizing i nb list spare with
  | zero => exact .error _
  | succ fuel ih =>
      have hsize : (list.value elements).size = list.size := rfl
      rw [resetLoop, SelectiveRepeat.SortedList.resetLoop, hsize]
      split
      case isFalse => exact .ok ⟨rfl, ⟨spare, h⟩, rfl⟩
      rcases index_cases i with ⟨a, hslot, hset, hslot', hset'⟩ | ⟨hslot, -, hslot', -⟩
      case inr =>
        rw [hslot, hslot']
        exact .error _
      have hcell : (list.value elements).window a = (list.window a).map elements.content := rfl
      rw [hslot, hslot', hcell]
      simp only [ok_bind, SelectiveRepeat.ok_bind]
      cases ha : list.window a with
      | none => exact ih (i + 1) nb h
      | some p =>
          dsimp only [Option.map_some]
          rcases index_cases (i - shift) with ⟨b, -, hset₁, -, hset₁'⟩ | ⟨-, hset₁, -, hset₁'⟩
          · obtain ⟨spare', howns⟩ := h.move ha b
            simp only [hset₁, hset₁', hset, hset', ok_bind, SelectiveRepeat.ok_bind]
            have hrest := @ih { list with
              window := Function.update (Function.update list.window b (some p)) a none } spare'
              (i + 1) (nb + 1) howns
            simp only [value, Storage.seen_store, Option.map_some, Option.map_none] at hrest
            exact hrest.mono fun _ _ hkept => ⟨hkept.value, hkept.owns, hkept.count⟩
          · rw [hset₁, hset₁']
            exact .error _

theorem reset_agrees (h : elements.Owns list.window spare) (newWaited oldWaited : UInt8) :
    Agrees (fun list' value => list.Kept elements list' elements value)
      (list.reset newWaited oldWaited) ((list.value elements).reset newWaited oldWaited) := by
  rw [reset, SelectiveRepeat.SortedList.reset]
  refine (resetLoop_agrees _ _ _ _ h).bind ?_
  rintro list' - - ⟨rfl, howns, hcount⟩
  exact .ok ⟨rfl, howns, hcount⟩

end

end SelectiveRepeat.Pointers.SortedList
