/-
  SelectiveRepeat.SortedList.Map

  The operations of the window on a window whose elements were replaced by others.
  They look at which slots are null, and at an element only to hand it on, so each
  of them does the same to both.
-/
import SelectiveRepeat.SortedList.SortedList

namespace SelectiveRepeat

namespace SortedList

/-- The window with `g elem` in place of every `elem`. -/
def map (g : Pstl → Pstl) (list : SortedList) : SortedList :=
  { list with window := fun i => (list.window i).map g }

section
variable (g : Pstl → Pstl) (list : SortedList)

@[simp] theorem map_size : (list.map g).size = list.size := rfl

@[simp] theorem map_ptr : (list.map g).ptr = list.ptr := rfl

theorem slot_map (index : Int) : (list.map g).slot index = (list.slot index).map (Option.map g) := by
  simp only [slot]
  split <;> rfl

theorem setSlot_map (index : Int) (elem : Option Pstl) :
    (list.map g).setSlot index (elem.map g) = (list.setSlot index elem).map (map g) := by
  simp only [setSlot]
  split
  · -- replacing and storing commute, slot by slot
    simp only [Except.map, map, Except.ok.injEq, mk.injEq, and_true]
    funext i
    exact (Function.apply_update (fun _ => Option.map g) list.window _ elem i).symm
  · rfl

theorem peekLoop_map (fuel : Nat) (ptr : UInt8) :
    peekLoop (list.map g) fuel ptr = (peekLoop list fuel ptr).map (Prod.map g id) := by
  induction fuel generalizing ptr with
  | zero => rfl
  | succ fuel ih =>
      simp only [peekLoop, slot_map]
      cases list.slot ptr.toNat with
      | error e => rfl
      | ok found =>
          cases found with
          | none => exact ih (ptr + 1)
          | some elem => rfl

theorem peek_map : (list.map g).peek = list.peek.map (Prod.map (Option.map g) (map g)) := by
  simp only [peek, map_size, map_ptr, peekLoop_map]
  split
  · rfl
  · cases peekLoop list (MAX_WINDOW_SIZE + 1) list.ptr <;> rfl

theorem pop_map : (list.map g).pop = list.pop.map (map g) := by
  have hset := setSlot_map g list list.ptr.toNat none
  rw [Option.map_none] at hset
  simp only [pop, map_ptr, hset]
  cases list.setSlot list.ptr.toNat none <;> rfl

theorem resetLoop_map (shift : Int) (fuel : Nat) (i nb : Int) :
    resetLoop shift fuel i nb (list.map g) = (resetLoop shift fuel i nb list).map (map g) := by
  induction fuel generalizing list i nb with
  | zero => rfl
  | succ fuel ih =>
      simp only [resetLoop, map_size, slot_map]
      split
      · cases list.slot i with
        | error e => rfl
        | ok found =>
            cases found with
            | none => exact ih list (i + 1) nb
            | some elem =>
                -- the element goes to its new place, and its old place becomes null
                have hset := setSlot_map g list (i - shift) (some elem)
                simp only [Except.map, ok_bind, Option.map_some] at hset ⊢
                rw [hset]
                cases list.setSlot (i - shift) (some elem) with
                | error e => rfl
                | ok list₁ =>
                    have hnull := setSlot_map g list₁ i none
                    simp only [Except.map, ok_bind, Option.map_none] at hnull ⊢
                    rw [hnull]
                    cases list₁.setSlot i none with
                    | error e => rfl
                    | ok list₂ => exact ih list₂ (i + 1) (nb + 1)
      · rfl

theorem reset_map (newWaited oldWaited : UInt8) :
    (list.map g).reset newWaited oldWaited = (list.reset newWaited oldWaited).map (map g) := by
  simp only [reset, resetLoop_map]
  cases resetLoop (ind newWaited oldWaited) (MAX_WINDOW_SIZE + 1) (ind newWaited oldWaited) 0 list <;>
    rfl

end

end SortedList

end SelectiveRepeat
