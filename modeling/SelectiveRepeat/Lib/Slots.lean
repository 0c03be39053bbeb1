/-
  SelectiveRepeat.Lib.Slots

  Cells that may be empty, seen as a function on the natural numbers, and how many
  of the first `n` are occupied.  The count is what a program keeps next to such
  an array; the lemmas say how it moves with one cell and with a shift of all.
-/
import Mathlib.Data.Fintype.Card
import Mathlib.Logic.Function.Basic

namespace SelectiveRepeat.Slots

variable {α : Type} {cells cells' : Nat → Option α}

/-- How many of the first `n` cells are occupied. -/
def occupied (cells : Nat → Option α) : Nat → Nat
  | 0 => 0
  | n + 1 => occupied cells n + if (cells n).isSome then 1 else 0

theorem occupied_succ_none {n : Nat} (h : cells n = none) :
    occupied cells (n + 1) = occupied cells n := by
  simp [occupied, h]

theorem occupied_succ_some {n : Nat} {x : α} (h : cells n = some x) :
    occupied cells (n + 1) = occupied cells n + 1 := by
  simp [occupied, h]

/-- The count of a table with `n` cells. -/
theorem occupied_eq_card {n : Nat} {table : Fin n → Option α}
    (h : ∀ i : Fin n, cells i = table i) :
    occupied cells n = (Finset.univ.filter fun i => (table i).isSome).card := by
  have hcount : ∀ k, occupied cells k = ((Finset.range k).filter fun i => (cells i).isSome).card := by
    intro k
    induction k with
    | zero => rfl
    | succ k ih =>
        rw [occupied, ih, Finset.range_add_one, Finset.filter_insert]
        split
        · rw [Finset.card_insert_of_notMem (by simp)]
        · rfl
  have hmap : (Finset.range n).filter (fun i => (cells i).isSome) =
      (Finset.univ.filter fun i => (table i).isSome).map Fin.valEmbedding := by
    ext i
    simp only [Finset.mem_filter, Finset.mem_range, Finset.mem_map, Finset.mem_univ, true_and]
    refine ⟨?_, ?_⟩
    · rintro ⟨hi, hsome⟩
      exact ⟨⟨i, hi⟩, by rwa [← h ⟨i, hi⟩], rfl⟩
    · rintro ⟨j, hsome, rfl⟩
      exact ⟨j.isLt, by rwa [← h j] at hsome⟩
  rw [hcount, hmap, Finset.card_map]

theorem occupied_congr {n : Nat} (h : ∀ i < n, cells i = cells' i) :
    occupied cells n = occupied cells' n := by
  induction n with
  | zero => rfl
  | succ n ih =>
      have hn := h n (Nat.lt_succ_self n)
      rw [occupied, occupied, hn, ih fun i hi => h i (Nat.lt_succ_of_lt hi)]

theorem occupied_eq_zero {n : Nat} : occupied cells n = 0 ↔ ∀ i < n, cells i = none := by
  induction n with
  | zero => exact ⟨fun _ i hi => absurd hi (Nat.not_lt_zero i), fun _ => rfl⟩
  | succ n ih =>
      cases hn : cells n with
      | none =>
          rw [occupied_succ_none hn, ih]
          refine ⟨?_, ?_⟩
          · intro h i hi
            rcases Nat.lt_succ_iff_lt_or_eq.mp hi with hlt | rfl
            · exact h i hlt
            · exact hn
          · exact fun h i hi => h i (Nat.lt_succ_of_lt hi)
      | some x =>
          rw [occupied_succ_some hn]
          refine ⟨?_, ?_⟩
          · exact fun h => absurd h (Nat.succ_ne_zero _)
          · intro h
            have hnone := h n (Nat.lt_succ_self n)
            rw [hn] at hnone
            exact absurd hnone (by simp)

/-! ## One cell -/

theorem occupied_update (cells : Nat → Option α) {n i : Nat} (hi : i < n) (x : Option α) :
    occupied (Function.update cells i x) n + (if (cells i).isSome then 1 else 0) =
      occupied cells n + if x.isSome then 1 else 0 := by
  induction n with
  | zero => exact absurd hi (Nat.not_lt_zero i)
  | succ n ih =>
      rw [occupied, occupied]
      rcases Nat.lt_succ_iff_lt_or_eq.mp hi with hlt | rfl
      · rw [Function.update_of_ne (Nat.ne_of_gt hlt)]
        have hcount := ih hlt
        omega
      · -- the last cell changes, those below it do not
        have hsame : occupied (Function.update cells i x) i = occupied cells i :=
          occupied_congr fun j hj => Function.update_of_ne (Nat.ne_of_lt hj) _ _
        rw [Function.update_self, hsame]
        omega

/-- Filling an empty cell. -/
theorem occupied_fill {n i : Nat} (hi : i < n) (h : cells i = none) (x : α) :
    occupied (Function.update cells i (some x)) n = occupied cells n + 1 := by
  have hcount := occupied_update cells hi (some x)
  simpa [h] using hcount

/-- Emptying an occupied one. -/
theorem occupied_clear {n i : Nat} (hi : i < n) {x : α} (h : cells i = some x) :
    occupied (Function.update cells i none) n + 1 = occupied cells n := by
  have hcount := occupied_update cells hi none
  simpa [h] using hcount

/-- A fact about all occupied cells stays true when it is true of what is written. -/
theorem forall_update {P : Nat → α → Prop} (h : ∀ i x, cells i = some x → P i x) {k : Nat}
    {y : Option α} (hk : ∀ x, y = some x → P k x) :
    ∀ i x, Function.update cells k y i = some x → P i x := by
  intro i x hi
  by_cases hik : i = k
  · subst hik
    rw [Function.update_self] at hi
    exact hk x hi
  · rw [Function.update_of_ne hik] at hi
    exact h i x hi

/-- Filling an empty cell adds what is written. -/
theorem exists_fill {k : Nat} (h : cells k = none) (x y : α) :
    (∃ i, Function.update cells k (some x) i = some y) ↔ y = x ∨ ∃ i, cells i = some y := by
  refine ⟨?_, ?_⟩
  · rintro ⟨i, hi⟩
    by_cases hik : i = k
    · rw [hik, Function.update_self, Option.some.injEq] at hi
      exact Or.inl hi.symm
    · rw [Function.update_of_ne hik] at hi
      exact Or.inr ⟨i, hi⟩
  · rintro (rfl | ⟨i, hi⟩)
    · exact ⟨k, Function.update_self _ _ _⟩
    · have hik : i ≠ k := by
        rintro rfl
        rw [h] at hi
        cases hi
      exact ⟨i, by rw [Function.update_of_ne hik, hi]⟩

/-- Emptying a cell leaves what is in the others. -/
theorem exists_clear (cells : Nat → Option α) (k : Nat) (y : α) :
    (∃ i, Function.update cells k none i = some y) ↔ ∃ i, i ≠ k ∧ cells i = some y := by
  refine ⟨?_, ?_⟩
  · rintro ⟨i, hi⟩
    by_cases hik : i = k
    · rw [hik, Function.update_self] at hi
      cases hi
    · rw [Function.update_of_ne hik] at hi
      exact ⟨i, hik, hi⟩
  · rintro ⟨i, hik, hi⟩
    exact ⟨i, by rw [Function.update_of_ne hik, hi]⟩

/-! ## All cells moved down -/

/-- The cells moved down by `s`. -/
def shift (cells : Nat → Option α) (s : Nat) : Nat → Option α := fun i => cells (i + s)

theorem occupied_add (cells : Nat → Option α) (s n : Nat) :
    occupied cells (s + n) = occupied cells s + occupied (shift cells s) n := by
  induction n with
  | zero => rfl
  | succ n ih =>
      rw [← Nat.add_assoc, occupied, occupied, ih, shift, Nat.add_comm n s, Nat.add_assoc]

/-- Where the cells below `i` count for all of the first `n`, the rest are empty. -/
theorem none_of_occupied {i n j : Nat} (h : occupied cells n ≤ occupied cells i) (hij : i ≤ j)
    (hjn : j < n) : cells j = none := by
  have hadd := occupied_add cells i (n - i)
  rw [Nat.add_sub_cancel' (by omega)] at hadd
  have hrest : occupied (shift cells i) (n - i) = 0 := by omega
  have hnone := occupied_eq_zero.mp hrest (j - i) (by omega)
  rwa [shift, Nat.sub_add_cancel hij] at hnone

/-- Moving down past empty cells loses nothing when there is nothing above. -/
theorem occupied_shift {s n : Nat} (hlow : ∀ i < s, cells i = none)
    (hhigh : ∀ i, n ≤ i → cells i = none) :
    occupied (shift cells s) n = occupied cells n := by
  have hs : occupied cells s = 0 := occupied_eq_zero.mpr hlow
  have hup : occupied (shift cells n) s = 0 :=
    occupied_eq_zero.mpr fun i _ => hhigh (i + n) (Nat.le_add_left n i)
  -- the first `s + n` cells, cut at `s` and cut at `n`
  have h1 := occupied_add cells s n
  have h2 := occupied_add cells n s
  rw [Nat.add_comm n s] at h2
  omega

/-! ## The first occupied cell -/

/-- With something in the first `n` cells from `p` on, there is a first such cell. -/
theorem exists_first {n p : Nat} (hlow : ∀ i < p, cells i = none) (h : occupied cells n ≠ 0) :
    ∃ j x, p ≤ j ∧ j < n ∧ cells j = some x ∧ ∀ i < j, cells i = none := by
  induction n with
  | zero => exact absurd rfl h
  | succ n ih =>
      by_cases hz : occupied cells n = 0
      · -- then it is the last one that is counted
        cases hn : cells n with
        | none => exact absurd (by rw [occupied_succ_none hn, hz]) h
        | some x =>
            refine ⟨n, x, ?_, Nat.lt_succ_self n, hn, occupied_eq_zero.mp hz⟩
            by_contra hlt
            rw [hlow n (Nat.lt_of_not_le hlt)] at hn
            exact absurd hn (by simp)
      · obtain ⟨j, x, hpj, hjn, hj, hbefore⟩ := ih hz
        exact ⟨j, x, hpj, Nat.lt_succ_of_lt hjn, hj, hbefore⟩

end SelectiveRepeat.Slots
