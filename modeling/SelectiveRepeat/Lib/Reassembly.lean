/-
  SelectiveRepeat.Lib.Reassembly

  Putting a numbered stream together again.  Items arrive for positions, in any
  order and more than once; `known` is the first item that came for each position.
  What can be handed on in order is the contiguous part of `known`, up to its
  first gap, and both the gap and the part below it depend on `known` alone, not
  on the order in which it was filled.
-/
import Mathlib.Data.List.Basic
import Mathlib.Data.Nat.Find
import Mathlib.Logic.Function.Basic

namespace SelectiveRepeat.Reassembly

variable {α β : Type} {known : Nat → Option α}

/-! ## Items that follow each other -/

/-- `xs` are the items at `p`, `p + 1`, ... -/
def Run (known : Nat → Option α) : Nat → List α → Prop
  | _, [] => True
  | p, x :: xs => known p = some x ∧ Run known (p + 1) xs

theorem Run.append {p : Nat} {xs ys : List α} (h : Run known p xs)
    (h' : Run known (p + xs.length) ys) : Run known p (xs ++ ys) := by
  induction xs generalizing p with
  | nil => exact h'
  | cons x xs ih =>
      refine ⟨h.1, ih h.2 ?_⟩
      rw [List.length_cons] at h'
      rwa [show p + 1 + xs.length = p + (xs.length + 1) by omega]

theorem Run.exists_item {p : Nat} {xs : List α} (h : Run known p xs) {k : Nat} (hp : p ≤ k)
    (hk : k < p + xs.length) : ∃ x, known k = some x := by
  induction xs generalizing p with
  | nil =>
      rw [List.length_nil] at hk
      omega
  | cons x xs ih =>
      by_cases heq : k = p
      · exact ⟨x, by rw [heq]; exact h.1⟩
      · rw [List.length_cons] at hk
        exact ih h.2 (by omega) (by omega)

theorem Run.congr {known' : Nat → Option α} {p : Nat} {xs : List α} (h : Run known p xs)
    (heq : ∀ k, p ≤ k → known' k = known k) : Run known' p xs := by
  induction xs generalizing p with
  | nil => trivial
  | cons x xs ih =>
      exact ⟨(heq p (Nat.le_refl p)).trans h.1, ih h.2 fun k hk => heq k (by omega)⟩

/-- A run seen through a map of the items and a change of origin. -/
theorem Run.map {known' : Nat → Option β} {f : α → β} {n p : Nat} {xs : List α}
    (h : Run known p xs) (heq : ∀ i, p ≤ i → i < p + xs.length → (known i).map f = known' (n + i)) :
    Run known' (n + p) (xs.map f) := by
  induction xs generalizing p with
  | nil => trivial
  | cons x xs ih =>
      rw [List.length_cons] at heq
      refine ⟨?_, ih h.2 fun i hi hlt => heq i (by omega) (by omega)⟩
      rw [← heq p (Nat.le_refl p) (by omega), h.1]
      rfl

/-- A run of items that another stream has images of. -/
theorem Run.image {known' : Nat → Option β} {f : α → β} {p : Nat} {xs : List α}
    (h : Run known p xs) (himp : ∀ k x, known k = some x → known' k = some (f x)) :
    Run known' p (xs.map f) := by
  induction xs generalizing p with
  | nil => trivial
  | cons x xs ih => exact ⟨himp p x h.1, ih h.2⟩

/-- A run of the items of a list. -/
theorem Run.take {l : List α} {p : Nat} {xs : List α} (h : Run (fun k => l[k]?) p xs) :
    l.take (p + xs.length) = l.take p ++ xs := by
  induction xs generalizing p with
  | nil => rw [List.length_nil, Nat.add_zero, List.append_nil]
  | cons x xs ih =>
      have hx : l[p]? = some x := h.1
      rw [List.length_cons, show p + (xs.length + 1) = p + 1 + xs.length by omega, ih h.2,
        List.take_add_one, hx, List.append_assoc]
      rfl

/-- A run of images comes from a run. -/
theorem Run.lift {known' : Nat → Option β} {f : α → β} {n p : Nat} {ys : List β}
    (h : Run known' (n + p) ys) (heq : ∀ i, (known i).map f = known' (n + i)) :
    ∃ xs, Run known p xs ∧ xs.map f = ys := by
  induction ys generalizing p with
  | nil => exact ⟨[], trivial, rfl⟩
  | cons y ys ih =>
      have hy := h.1
      rw [← heq p, Option.map_eq_some_iff] at hy
      obtain ⟨x, hx, rfl⟩ := hy
      obtain ⟨xs, hrun, rfl⟩ := ih (p := p + 1) h.2
      exact ⟨x :: xs, ⟨hx, hrun⟩, rfl⟩

/-! ## The contiguous part -/

/-- `n` is the first position nothing is known for. -/
structure Gap (known : Nat → Option α) (n : Nat) : Prop where
  below : ∀ k < n, ∃ x, known k = some x
  gap : known n = none

theorem Gap.unique {n m : Nat} (hn : Gap known n) (hm : Gap known m) : n = m := by
  rcases Nat.lt_trichotomy n m with h | h | h
  · obtain ⟨x, hx⟩ := hm.below n h
    rw [hn.gap] at hx
    exact absurd hx (by simp)
  · exact h
  · obtain ⟨x, hx⟩ := hn.below m h
    rw [hm.gap] at hx
    exact absurd hx (by simp)

/-- The items below `n`, in order. -/
def assembled (known : Nat → Option α) (n : Nat) : List α := (List.range n).filterMap known

theorem assembled_succ {n : Nat} {x : α} (h : known n = some x) :
    assembled known (n + 1) = assembled known n ++ [x] := by
  simp [assembled, List.range_succ, h]

theorem assembled_congr {known' : Nat → Option α} {n : Nat} (h : ∀ k < n, known k = known' k) :
    assembled known n = assembled known' n :=
  List.filterMap_congr fun k hk => h k (List.mem_range.mp hk)

/-- A run at the end of the contiguous part prolongs it. -/
theorem Run.assembled {n : Nat} {xs : List α} (h : Run known n xs) :
    assembled known (n + xs.length) = assembled known n ++ xs := by
  induction xs generalizing n with
  | nil => simp
  | cons x xs ih =>
      rw [List.length_cons, show n + (xs.length + 1) = n + 1 + xs.length by omega, ih h.2,
        assembled_succ h.1, List.append_assoc, List.singleton_append]

/-- The contiguous part cut at `n`. -/
theorem assembled_add (known : Nat → Option α) (n m : Nat) :
    assembled known (n + m) = assembled known n ++ assembled (fun i => known (n + i)) m := by
  rw [assembled, List.range_add, List.filterMap_append, List.filterMap_map]
  rfl

/-- The part behind `n`, seen through a map of the items and a change of origin. -/
theorem assembled_from {known' : Nat → Option β} {f : α → β} {n : Nat}
    (h : ∀ i, (known (n + i)).map f = known' i) (m : Nat) :
    (assembled known (n + m)).map f = (assembled known n).map f ++ assembled known' m := by
  rw [assembled_add, List.map_append]
  congr 1
  rw [assembled, List.map_filterMap]
  exact List.filterMap_congr fun i _ => h i

theorem assembled_length {n : Nat} (h : ∀ k < n, ∃ x, known k = some x) :
    (assembled known n).length = n := by
  induction n with
  | zero => rfl
  | succ n ih =>
      obtain ⟨x, hx⟩ := h n (Nat.lt_succ_self n)
      rw [assembled_succ hx, List.length_append, List.length_singleton,
        ih fun k hk => h k (Nat.lt_succ_of_lt hk)]

/-- The contiguous part is the run from the start. -/
theorem run_assembled {n : Nat} (h : ∀ k < n, ∃ x, known k = some x) :
    Run known 0 (assembled known n) := by
  induction n with
  | zero => trivial
  | succ n ih =>
      have hlow : ∀ k < n, ∃ x, known k = some x := fun k hk => h k (Nat.lt_succ_of_lt hk)
      obtain ⟨x, hx⟩ := h n (Nat.lt_succ_self n)
      rw [assembled_succ hx]
      refine (ih hlow).append ⟨?_, trivial⟩
      rw [Nat.zero_add, assembled_length hlow]
      exact hx

theorem assembled_getElem {n : Nat} (h : ∀ k < n, ∃ x, known k = some x) {k : Nat} (hk : k < n) :
    (assembled known n)[k]? = known k := by
  induction n with
  | zero => exact absurd hk (Nat.not_lt_zero k)
  | succ n ih =>
      have hlow : ∀ k < n, ∃ x, known k = some x := fun k hk => h k (Nat.lt_succ_of_lt hk)
      have hlen := assembled_length hlow
      obtain ⟨x, hx⟩ := h n (Nat.lt_succ_self n)
      rw [assembled_succ hx]
      rcases Nat.lt_succ_iff_lt_or_eq.mp hk with hlt | rfl
      · rw [List.getElem?_append_left (by omega), ih hlow hlt]
      · rw [List.getElem?_append_right (by omega), hlen, Nat.sub_self, hx]
        rfl

/-- Where something is free, there is a first gap. -/
theorem Gap.exists_le {n : Nat} (h : known n = none) : ∃ m ≤ n, Gap known m := by
  have hfree : ∃ k, known k = none := ⟨n, h⟩
  refine ⟨Nat.find hfree, Nat.find_le h, fun k hk => ?_, Nat.find_spec hfree⟩
  exact Option.ne_none_iff_exists'.mp (Nat.find_min hfree hk)

/-! ## Accepting an item -/

/-- An item for a position that already has one is dropped. -/
def accept (known : Nat → Option α) (p : Nat) (x : α) : Nat → Option α :=
  if known p = none then Function.update known p (some x) else known

theorem accept_of_some {p : Nat} {y : α} (h : known p = some y) (x : α) :
    accept known p x = known := by
  rw [accept, if_neg (by rw [h]; simp)]

theorem accept_of_none {p : Nat} (h : known p = none) (x : α) :
    accept known p x = Function.update known p (some x) :=
  if_pos h

theorem accept_of_ne {p k : Nat} (h : k ≠ p) (x : α) : accept known p x k = known k := by
  rw [accept]
  split
  · exact Function.update_of_ne h _ _
  · rfl

/-- What is known afterwards was known, or is what came in. -/
theorem accept_cases {p k : Nat} {x y : α} (h : accept known p x k = some y) :
    known k = some y ∨ y = x := by
  by_cases hkp : k = p
  · subst hkp
    cases hk : known k with
    | none =>
        rw [accept_of_none hk, Function.update_self, Option.some.injEq] at h
        exact Or.inr h.symm
    | some z =>
        rw [accept_of_some hk, hk] at h
        exact Or.inl h
  · rw [accept_of_ne hkp] at h
    exact Or.inl h

/-- Nothing that was known changes. -/
theorem accept_mono {p k : Nat} {x y : α} (h : known k = some y) :
    accept known p x k = some y := by
  by_cases hkp : k = p
  · subst hkp
    rw [accept_of_some h, h]
  · rw [accept_of_ne hkp, h]

theorem accept_self (known : Nat → Option α) (p : Nat) (x : α) :
    ∃ y, accept known p x p = some y := by
  cases h : known p with
  | none => exact ⟨x, by rw [accept_of_none h, Function.update_self]⟩
  | some y => exact ⟨y, by rw [accept_of_some h, h]⟩

/-- Accepting, seen through a map of the items and a change of origin. -/
theorem accept_map {known' : Nat → Option β} {f : α → β} {n p : Nat}
    (h : ∀ i, (known (n + i)).map f = known' i) (x : α) (i : Nat) :
    (accept known (n + p) x (n + i)).map f = accept known' p (f x) i := by
  have hp := h p
  cases hk : known (n + p) with
  | some y =>
      rw [hk] at hp
      rw [accept_of_some hk, accept_of_some hp.symm, h]
  | none =>
      rw [hk] at hp
      rw [accept_of_none hk, accept_of_none hp.symm]
      by_cases hi : i = p
      · rw [hi, Function.update_self, Function.update_self]
        rfl
      · rw [Function.update_of_ne hi, Function.update_of_ne (by omega), h]

/-- Accepting into one of two sources, where the other one goes first. -/
theorem accept_or {fixed known both : Nat → Option α}
    (hboth : ∀ i, (fixed i).or (known i) = both i) (p : Nat) (x : α) (i : Nat) :
    (fixed i).or (accept known p x i) = accept both p x i := by
  have hp := hboth p
  by_cases hi : i = p
  · subst hi
    cases hf : fixed i with
    | some y =>
        rw [hf, Option.some_or] at hp
        rw [accept_of_some hp.symm, ← hp, Option.some_or]
    | none =>
        -- the other source has nothing, so both accept or both drop
        rw [hf, Option.none_or] at hp
        rw [Option.none_or]
        cases hk : known i with
        | some y =>
            rw [hk] at hp
            rw [accept_of_some hk, accept_of_some hp.symm, hk, hp]
        | none =>
            rw [hk] at hp
            rw [accept_of_none hk, accept_of_none hp.symm, Function.update_self,
              Function.update_self]
  · rw [accept_of_ne hi, accept_of_ne hi, hboth]

/-- Below the gap, accepting changes nothing. -/
theorem Gap.accept_below {n p : Nat} (h : Gap known n) (hp : p < n) (x : α) :
    accept known p x = known := by
  obtain ⟨y, hy⟩ := h.below p hp
  exact accept_of_some hy x

/-- At the gap, the gap moves to the end of the run that starts there. -/
theorem Gap.accept_at {n : Nat} (h : Gap known n) {x : α} {xs : List α}
    (hrun : Run known (n + 1) xs) (hend : known (n + 1 + xs.length) = none) :
    Gap (accept known n x) (n + 1 + xs.length) := by
  refine ⟨fun k hk => ?_, by rw [accept_of_ne (by omega), hend]⟩
  -- below the old gap, at it, and in the run behind it
  rcases Nat.lt_trichotomy k n with hlt | rfl | hgt
  · rw [accept_of_ne (by omega)]
    exact h.below k hlt
  · exact accept_self known k x
  · rw [accept_of_ne (by omega)]
    exact hrun.exists_item hgt hk

/-- The items handed on when the gap is filled. -/
theorem Gap.assembled_accept {n : Nat} (h : Gap known n) {x : α} {xs : List α}
    (hrun : Run known (n + 1) xs) :
    assembled (accept known n x) (n + 1 + xs.length) = assembled known n ++ x :: xs := by
  have hat : accept known n x n = some x := by
    rw [accept_of_none h.gap, Function.update_self]
  have hrun' : Run (accept known n x) n (x :: xs) :=
    ⟨hat, hrun.congr fun k hk => accept_of_ne (by omega) x⟩
  have hlow : assembled (accept known n x) n = assembled known n :=
    assembled_congr fun k hk => accept_of_ne (by omega) x
  have happ := hrun'.assembled
  rw [List.length_cons, hlow] at happ
  rw [← happ]
  congr 1
  omega

/-! ## A list of arrivals -/

/-- The first item that came for each position. -/
def first (arrivals : List (Nat × α)) : Nat → Option α := fun p =>
  (arrivals.find? fun a => a.1 = p).map Prod.snd

@[simp] theorem first_nil : first ([] : List (Nat × α)) = fun _ => none := rfl

/-- One more arrival is accepted. -/
theorem first_append (arrivals : List (Nat × α)) (p : Nat) (x : α) :
    first (arrivals ++ [(p, x)]) = accept (first arrivals) p x := by
  funext k
  cases hk : first arrivals k with
  | some y =>
      -- the search stops before the new arrival
      rw [accept_mono hk]
      rw [first, Option.map_eq_some_iff] at hk
      obtain ⟨a, ha, rfl⟩ := hk
      rw [first, List.find?_append, ha]
      rfl
  | none =>
      have hfind : (arrivals.find? fun a => a.1 = k) = none := by
        rw [first, Option.map_eq_none_iff] at hk
        exact hk
      rw [first, List.find?_append, hfind, Option.none_or]
      by_cases hpk : k = p
      · subst hpk
        rw [accept_of_none hk, Function.update_self]
        simp
      · rw [accept_of_ne hpk, hk]
        simp [Ne.symm hpk]

theorem mem_of_first {arrivals : List (Nat × α)} {k : Nat} {x : α}
    (h : first arrivals k = some x) : (k, x) ∈ arrivals := by
  rw [first, Option.map_eq_some_iff] at h
  obtain ⟨⟨p, y⟩, hfind, rfl⟩ := h
  have hp : p = k := by simpa using List.find?_some hfind
  rw [← hp]
  exact List.mem_of_find?_eq_some hfind

theorem first_of_mem {arrivals : List (Nat × α)} {k : Nat} {x : α} (h : (k, x) ∈ arrivals) :
    ∃ y, first arrivals k = some y := by
  cases hfirst : first arrivals k with
  | some y => exact ⟨y, rfl⟩
  | none =>
      rw [first, Option.map_eq_none_iff, List.find?_eq_none] at hfirst
      exact absurd (hfirst (k, x) h) (by simp)

end SelectiveRepeat.Reassembly
