/-
  SelectiveRepeat.Lib.Ring

  A ring of `n` cells as a bounded queue.  `Ring.Holds cells head l` says that the
  cells, read cyclically from `head`, spell the list `l` and are empty after it;
  each operation on the cells is an operation on `l`.
-/
import Mathlib.Algebra.Group.Fin.Basic
import Mathlib.Algebra.Ring.Nat
import Mathlib.Data.Fintype.Card
import Mathlib.Logic.Function.Basic

namespace SelectiveRepeat.Ring

variable {n : Nat} [NeZero n] {α : Type}

/-- The cells from `head` on are the elements of `l`, then empty. -/
structure Holds (cells : Fin n → Option α) (head : Fin n) (l : List α) : Prop where
  length_le : l.length ≤ n
  cell : ∀ j : Fin n, cells (head + j) = l[j.val]?

/-- The cell `j` places after `head`. -/
def slot (head : Fin n) (j : Nat) : Fin n := head + Fin.ofNat n j

@[simp] theorem slot_zero (head : Fin n) : slot head 0 = head := by
  simp [slot]

theorem slot_succ (head : Fin n) (j : Nat) : slot head (j + 1) = slot head j + 1 := by
  simp only [slot, add_assoc]
  congr 1
  apply Fin.ext
  simp [Fin.val_add, Fin.ofNat, Nat.add_mod]

theorem slot_add_one (head : Fin n) (j : Nat) : slot (head + 1) j = slot head (j + 1) := by
  rw [slot_succ, slot, slot, add_right_comm]

theorem slot_val (head : Fin n) (j : Nat) : (slot head j).val = (head.val + j) % n := by
  simp [slot, Fin.val_add, Fin.ofNat]

/-- A whole turn comes back to the same cell. -/
theorem slot_self (head : Fin n) : slot head n = head := by
  simp [slot, Fin.ofNat]

/-- Places less than a turn apart are different cells. -/
theorem slot_inj {head : Fin n} {i j : Nat} (hi : i < n) (hj : j < n) :
    slot head i = slot head j ↔ i = j := by
  refine ⟨?_, ?_⟩
  · intro h
    have h' := congrArg Fin.val (add_left_cancel h)
    simpa [Fin.ofNat, Nat.mod_eq_of_lt hi, Nat.mod_eq_of_lt hj] using h'
  · rintro rfl
    rfl

theorem slot_eq_head {head : Fin n} {j : Nat} (hj : j < n) : slot head j = head ↔ j = 0 := by
  have hz : slot head j = slot head 0 ↔ j = 0 := slot_inj hj (Nat.pos_of_ne_zero (NeZero.ne n))
  rwa [slot_zero] at hz

/-- Every cell is some place after `head`. -/
theorem exists_slot (head i : Fin n) : ∃ j, j < n ∧ slot head j = i := by
  refine ⟨(i - head).val, (i - head).isLt, ?_⟩
  simp [slot]

/-! ## Reading -/

section
variable {cells : Fin n → Option α} {head : Fin n} {l : List α}

theorem Holds.at_slot (h : Holds cells head l) {j : Nat} (hj : j < n) :
    cells (slot head j) = l[j]? := by
  have hcell := h.cell (Fin.ofNat n j)
  simpa [slot, Fin.ofNat, Nat.mod_eq_of_lt hj] using hcell

theorem Holds.at_head (h : Holds cells head l) : cells head = l.head? := by
  have hfirst := h.at_slot (Nat.pos_of_ne_zero (NeZero.ne n))
  rwa [slot_zero, ← List.head?_eq_getElem?] at hfirst

/-- The cell an element is added to is free while there is room. -/
theorem Holds.free (h : Holds cells head l) (hroom : l.length < n) :
    cells (slot head l.length) = none := by
  rw [h.at_slot hroom]
  exact List.getElem?_eq_none (Nat.le_refl _)

/-- As many cells are occupied as the ring has elements. -/
theorem Holds.card (h : Holds cells head l) :
    (Finset.univ.filter fun i => (cells i).isSome).card = l.length := by
  have hocc : (Finset.univ.filter fun i => (cells i).isSome) =
      (Finset.range l.length).image (slot head) := by
    ext i
    obtain ⟨j, hj, rfl⟩ := exists_slot head i
    simp only [Finset.mem_filter, Finset.mem_univ, true_and, Finset.mem_image, Finset.mem_range,
      h.at_slot hj, isSome_getElem?]
    refine ⟨fun hjl => ⟨j, hjl, rfl⟩, ?_⟩
    rintro ⟨k, hk, heq⟩
    rwa [← (slot_inj (Nat.lt_of_lt_of_le hk h.length_le) hj).mp heq]
  rw [hocc, Finset.card_image_of_injOn, Finset.card_range]
  intro j hj k hk heq
  rw [Finset.coe_range, Set.mem_Iio] at hj hk
  exact (slot_inj (Nat.lt_of_lt_of_le hj h.length_le)
    (Nat.lt_of_lt_of_le hk h.length_le)).mp heq

/-- The contents of a ring are determined by its cells and its head. -/
theorem Holds.of_slots (hlen : l.length ≤ n) (h : ∀ j, j < n → cells (slot head j) = l[j]?) :
    Holds cells head l := by
  refine ⟨hlen, fun j => ?_⟩
  have hcell := h j.val j.isLt
  simpa [slot] using hcell

/-! ## The operations -/

omit [NeZero n] in
theorem holds_empty (head : Fin n) : Holds (fun _ => (none : Option α)) head [] :=
  ⟨Nat.zero_le n, fun _ => by simp⟩

theorem Holds.push (h : Holds cells head l) (hroom : l.length < n) (x : α) :
    Holds (Function.update cells (slot head l.length) (some x)) head (l ++ [x]) := by
  apply Holds.of_slots
  · rw [List.length_append, List.length_singleton]
    exact hroom
  · intro j hj
    by_cases hjl : j = l.length
    · subst hjl
      simp
    · -- another cell, which is not the one behind the last element
      rw [Function.update_of_ne (by rwa [Ne, slot_inj hj hroom]), h.at_slot hj]
      by_cases hlt : j < l.length
      · rw [List.getElem?_append_left hlt]
      · rw [List.getElem?_eq_none (by omega), List.getElem?_eq_none (by simp; omega)]

theorem Holds.pop {x : α} (h : Holds cells head (x :: l)) :
    Holds (Function.update cells head none) (head + 1) l := by
  have hlen : l.length + 1 ≤ n := by simpa using h.length_le
  apply Holds.of_slots (by omega)
  intro j hj
  rw [slot_add_one]
  by_cases hwrap : j + 1 = n
  · -- the last place of the new ring is the cell that was emptied
    rw [hwrap, slot_self, Function.update_self]
    exact (List.getElem?_eq_none (by omega)).symm
  · have hne : slot head (j + 1) ≠ head := by
      rw [Ne, slot_eq_head (by omega)]
      omega
    rw [Function.update_of_ne hne, h.at_slot (by omega)]
    simp

theorem Holds.set (h : Holds cells head l) {j : Nat} (hj : j < l.length) (x : α) :
    Holds (Function.update cells (slot head j) (some x)) head (l.set j x) := by
  have hjn : j < n := Nat.lt_of_lt_of_le hj h.length_le
  apply Holds.of_slots
  · simpa using h.length_le
  · intro i hi
    by_cases hij : i = j
    · subst hij
      simp [hj]
    · rw [Function.update_of_ne (by rwa [Ne, slot_inj hi hjn]), h.at_slot hi,
        List.getElem?_set_ne (Ne.symm hij)]

end

end SelectiveRepeat.Ring
