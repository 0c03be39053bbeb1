/-
  SelectiveRepeat.Lib.Heap

  A tree laid out in an array and kept as a heap.  The tree is given by the parent
  of each place, which only has to come before it; place 0 is the root.  One place
  may be out of order while a value is on its way up or down: `UpTo` and `DownTo`
  say what holds meanwhile, and a swap along an edge moves that place.
-/
import Mathlib.Data.Multiset.Range
import Mathlib.Logic.Equiv.Basic
import Mathlib.Order.Defs.LinearOrder

namespace SelectiveRepeat.Heap

variable {α κ : Type}

/-! ## The content of an array -/

/-- What the first `n` cells hold, in no order. -/
def bag (e : Nat → α) (n : Nat) : Multiset α := (Multiset.range n).map e

@[simp] theorem bag_zero (e : Nat → α) : bag e 0 = 0 := rfl

theorem bag_succ (e : Nat → α) (n : Nat) : bag e (n + 1) = e n ::ₘ bag e n := by
  rw [bag, Multiset.range_succ, Multiset.map_cons]
  rfl

theorem mem_bag {e : Nat → α} {n : Nat} {x : α} : x ∈ bag e n ↔ ∃ i < n, e i = x := by
  simp only [bag, Multiset.mem_map, Multiset.mem_range]

@[simp] theorem card_bag (e : Nat → α) (n : Nat) : (bag e n).card = n := by
  rw [bag, Multiset.card_map, Multiset.card_range]

theorem bag_congr {e e' : Nat → α} {n : Nat} (h : ∀ i < n, e i = e' i) : bag e n = bag e' n :=
  Multiset.map_congr rfl fun i hi => h i (Multiset.mem_range.mp hi)

/-- Two cells exchanged. -/
def swap (e : Nat → α) (i j : Nat) : Nat → α := e ∘ Equiv.swap i j

@[simp] theorem swap_left (e : Nat → α) (i j : Nat) : swap e i j i = e j := by
  simp [swap]

@[simp] theorem swap_right (e : Nat → α) (i j : Nat) : swap e i j j = e i := by
  simp [swap]

theorem swap_of_ne (e : Nat → α) {i j k : Nat} (hi : k ≠ i) (hj : k ≠ j) : swap e i j k = e k := by
  rw [swap, Function.comp_apply, Equiv.swap_apply_of_ne_of_ne hi hj]

theorem bag_swap (e : Nat → α) {i j n : Nat} (hi : i < n) (hj : j < n) :
    bag (swap e i j) n = bag e n := by
  have hrange : (Multiset.range n).map (Equiv.swap i j) = Multiset.range n := by
    have hnodup := (Multiset.nodup_range n).map (Equiv.swap i j).injective
    rw [hnodup.ext (Multiset.nodup_range n)]
    intro k
    rw [Multiset.mem_map, Multiset.mem_range]
    refine ⟨?_, ?_⟩
    · rintro ⟨m, hm, rfl⟩
      rw [Multiset.mem_range] at hm
      rw [Equiv.swap_apply_def]
      split
      · exact hj
      · split
        · exact hi
        · exact hm
    · intro hk
      refine ⟨Equiv.swap i j k, ?_, Equiv.swap_apply_self i j k⟩
      rw [Multiset.mem_range, Equiv.swap_apply_def]
      split
      · exact hj
      · split
        · exact hi
        · exact hk
  rw [bag, swap, ← Multiset.map_map, hrange]
  rfl

/-- The exchange of two cells, written cell by cell. -/
theorem update_update (e : Nat → α) (i j : Nat) :
    Function.update (Function.update e i (e j)) j (e i) = swap e i j := by
  funext k
  by_cases hj : k = j
  · rw [hj, Function.update_self, swap_right]
  · rw [Function.update_of_ne hj]
    by_cases hi : k = i
    · rw [hi, Function.update_self, swap_left]
    · rw [Function.update_of_ne hi, swap_of_ne e hi hj]

/-- A value on its way from cell `i` to cell `j`, which is moved the other way. -/
theorem update_move (e : Nat → α) {i j : Nat} (hij : j ≠ i) (v : α) :
    Function.update (Function.update e i (e j)) j v = swap (Function.update e i v) i j := by
  rw [← update_update, Function.update_of_ne hij, Function.update_self, Function.update_idem]

/-- Taking the last cell's content to the first one, in place of what was there. -/
theorem bag_replace (e : Nat → α) (n : Nat) :
    bag e (n + 1) = e 0 ::ₘ bag (Function.update e 0 (e n)) n := by
  rw [← bag_swap e (Nat.succ_pos n) (Nat.lt_succ_self n), bag_succ, swap_right]
  congr 1
  apply bag_congr
  intro i hi
  by_cases hz : i = 0
  · rw [hz, swap_left, Function.update_self]
  · rw [Function.update_of_ne hz, swap_of_ne e hz (Nat.ne_of_lt hi)]

/-! ## Order along the edges -/

variable [LinearOrder κ] (key : α → κ) (parent : Nat → Nat)

/-- No key is below that of the parent. -/
def Ordered (e : Nat → α) (n : Nat) : Prop :=
  ∀ j, 0 < j → j < n → key (e (parent j)) ≤ key (e j)

/-- In order but for the edge above place `i`; what is below `i` is in order with what is
    above it. -/
structure UpTo (e : Nat → α) (n i : Nat) : Prop where
  edge : ∀ j, 0 < j → j < n → j ≠ i → key (e (parent j)) ≤ key (e j)
  across : 0 < i → ∀ j, 0 < j → j < n → parent j = i → key (e (parent i)) ≤ key (e j)

/-- In order but for the edges below place `i`; what is below `i` is in order with what is
    above it. -/
structure DownTo (e : Nat → α) (n i : Nat) : Prop where
  edge : ∀ j, 0 < j → j < n → parent j ≠ i → key (e (parent j)) ≤ key (e j)
  across : 0 < i → ∀ j, 0 < j → j < n → parent j = i → key (e (parent i)) ≤ key (e j)

variable {key parent} {e : Nat → α} {n : Nat}

/-- The root has the least key. -/
theorem Ordered.root_le (h : Ordered key parent e n) (hparent : ∀ j, 0 < j → parent j < j) {j : Nat}
    (hj : j < n) : key (e 0) ≤ key (e j) := by
  induction j using Nat.strong_induction_on with
  | _ j ih =>
      rcases Nat.eq_zero_or_pos j with rfl | hpos
      · exact le_refl _
      · have hlt := hparent j hpos
        exact le_trans (ih (parent j) hlt (Nat.lt_trans hlt hj)) (h j hpos hj)

theorem Ordered.congr (h : Ordered key parent e n) (hparent : ∀ j, 0 < j → parent j < j)
    {e' : Nat → α} (heq : ∀ i < n, e i = e' i) : Ordered key parent e' n := by
  intro j hpos hj
  rw [← heq j hj, ← heq (parent j) (Nat.lt_trans (hparent j hpos) hj)]
  exact h j hpos hj

/-! ## A value on its way up -/

/-- A new value behind the last place. -/
theorem Ordered.upTo (h : Ordered key parent e n) (hparent : ∀ j, 0 < j → parent j < j) (v : α) :
    UpTo key parent (Function.update e n v) (n + 1) n := by
  constructor
  · intro j hpos hj hne
    have hjn : j < n := by omega
    rw [Function.update_of_ne hne,
      Function.update_of_ne (Nat.ne_of_lt (Nat.lt_trans (hparent j hpos) hjn))]
    exact h j hpos hjn
  · -- nothing is below it
    intro _ j hpos hj hchild
    have hlt := hparent j hpos
    omega

theorem UpTo.ordered {i : Nat} (h : UpTo key parent e n i)
    (hstop : 0 < i → key (e (parent i)) ≤ key (e i)) : Ordered key parent e n := by
  intro j hpos hj
  by_cases hji : j = i
  · subst hji
    exact hstop hpos
  · exact h.edge j hpos hj hji

theorem UpTo.swap {i : Nat} (h : UpTo key parent e n i) (hparent : ∀ j, 0 < j → parent j < j)
    (hpos : 0 < i) (hi : i < n) (hlt : key (e i) < key (e (parent i))) :
    UpTo key parent (swap e i (parent i)) n (parent i) := by
  have hpi := hparent i hpos
  constructor
  · intro j hj0 hj hjp
    have hpj := hparent j hj0
    by_cases hji : j = i
    · subst hji
      rw [swap_left, swap_right]
      exact le_of_lt hlt
    · rw [swap_of_ne e hji hjp]
      by_cases hci : parent j = i
      · rw [hci, swap_left]
        exact h.across hpos j hj0 hj hci
      · by_cases hcp : parent j = parent i
        · -- a child of the old parent, which is below it and so below the value
          rw [hcp, swap_right]
          have hedge := h.edge j hj0 hj hji
          rw [hcp] at hedge
          exact le_trans (le_of_lt hlt) hedge
        · rw [swap_of_ne e hci hcp]
          exact h.edge j hj0 hj hji
  · intro hp0 j hj0 hj hjp
    have hpp := hparent (parent i) hp0
    have hpj := hparent j hj0
    have htop := h.edge (parent i) hp0 (Nat.lt_trans hpi hi) (Nat.ne_of_lt hpi)
    rw [swap_of_ne e (by omega) (by omega)]
    by_cases hji : j = i
    · rw [hji, swap_left]
      exact htop
    · rw [swap_of_ne e hji (by omega)]
      have hedge := h.edge j hj0 hj hji
      rw [hjp] at hedge
      exact le_trans htop hedge

/-! ## A value on its way down -/

/-- Any value at the root. -/
theorem Ordered.downTo (h : Ordered key parent e n) (v : α) :
    DownTo key parent (Function.update e 0 v) n 0 := by
  constructor
  · intro j hpos hj hne
    rw [Function.update_of_ne hne, Function.update_of_ne (Nat.pos_iff_ne_zero.mp hpos)]
    exact h j hpos hj
  · exact fun hzero => absurd hzero (Nat.lt_irrefl 0)

theorem DownTo.ordered {i : Nat} (h : DownTo key parent e n i)
    (hstop : ∀ j, 0 < j → j < n → parent j = i → key (e i) ≤ key (e j)) :
    Ordered key parent e n := by
  intro j hpos hj
  by_cases hji : parent j = i
  · rw [hji]
    exact hstop j hpos hj hji
  · exact h.edge j hpos hj hji

/-- The value goes down in exchange for the least of its children. -/
theorem DownTo.swap {i c : Nat} (h : DownTo key parent e n i) (hparent : ∀ j, 0 < j → parent j < j)
    (hpos : 0 < c) (hc : c < n) (hchild : parent c = i)
    (hleast : ∀ j, 0 < j → j < n → parent j = i → key (e c) ≤ key (e j))
    (hlt : key (e c) < key (e i)) : DownTo key parent (swap e i c) n c := by
  have hic : i < c := by
    have hpc := hparent c hpos
    omega
  constructor
  · intro j hj0 hj hjc
    have hpj := hparent j hj0
    by_cases hj' : j = c
    · rw [hj', hchild, swap_left, swap_right]
      exact le_of_lt hlt
    · by_cases hji : j = i
      · subst hji
        rw [swap_left, swap_of_ne e (by omega) hjc]
        exact h.across hj0 c hpos hc hchild
      · rw [swap_of_ne e hji hj']
        by_cases hsibling : parent j = i
        · rw [hsibling, swap_left]
          exact hleast j hj0 hj hsibling
        · rw [swap_of_ne e hsibling hjc]
          exact h.edge j hj0 hj hsibling
  · intro _ j hj0 hj hjc
    have hpj := hparent j hj0
    rw [hchild, swap_left, swap_of_ne e (by omega) (by omega), ← hjc]
    exact h.edge j hj0 hj (by omega)

end SelectiveRepeat.Heap
