/-
  SelectiveRepeat.Link.MinQueue

  The priority queue of the link simulator (min_queue.c): a heap in an array that
  grows by 20 slots at a time.  The children of place `x` are `2x` and `2x + 1`,
  counted from 0, so the root is its own left child and has one other child; the
  rest is the usual tree below place 1.  Every access to the array is checked
  against the slots allocated.
-/
import SelectiveRepeat.Lib.Heap
import Mathlib.Data.Multiset.AddSub

namespace SelectiveRepeat

/-- Why a run of the simulator has no defined continuation. -/
inductive LinkFault where
  /-- `q->e[i]` with `i` outside the slots allocated -/
  | slot (i : Nat)
  /-- a remainder by 0 -/
  | modulo
  /-- the bound the model puts on a loop of the source ran out -/
  | loop
  deriving Repr, DecidableEq

abbrev LinkExec := Except LinkFault

@[simp] theorem link_ok_bind {α β : Type} (a : α) (f : α → LinkExec β) :
    ((.ok a : LinkExec α) >>= f) = f a := rfl

/-- `minqueue`; what is behind the slots in use is whatever the memory holds. -/
structure MinQueue (α : Type) where
  cmp : α → α → Bool
  size : Nat
  alloc : Nat
  e : Nat → α

def SLOTS_PER_MALLOC : Nat := 20

def lchild (x : Nat) : Nat := 2 * x
def parent (x : Nat) : Nat := x / 2

section
variable {α : Type}

/-- Reading `q->e[i]`. -/
def MinQueue.slot (q : MinQueue α) (i : Nat) : LinkExec α :=
  if i < q.alloc then .ok (q.e i) else .error (.slot i)

/-- Storing to `q->e[i]`. -/
def MinQueue.setSlot (q : MinQueue α) (i : Nat) (v : α) : LinkExec (MinQueue α) :=
  if i < q.alloc then .ok { q with e := Function.update q.e i v } else .error (.slot i)

/-- `minq_new`; `block` is what `malloc` returned for the slots. -/
def minqNew (cmp : α → α → Bool) (block : Nat → α) : MinQueue α where
  cmp := cmp
  size := 0
  alloc := SLOTS_PER_MALLOC
  e := block

def minqEmpty (q : MinQueue α) : Bool := q.size = 0

/-- The block of `minq_push` that makes room; `block` is what `realloc` returned, which
    keeps the slots there were. -/
def MinQueue.grow (q : MinQueue α) (block : Option (Nat → α)) : Option (MinQueue α) :=
  if q.size = q.alloc then
    block.map fun block => { q with
      e := fun i => if i < q.alloc then q.e i else block i
      alloc := q.size + SLOTS_PER_MALLOC }
  else some q

/-- The `while` of `minq_push` and the insertion after it: parents move down into the
    place `i` until `v` fits there. -/
def pushLoop (v : α) : Nat → Nat → MinQueue α → LinkExec (MinQueue α)
  | 0, _, _ => .error .loop
  | fuel + 1, i, q =>
      if i ≠ 0 then do
        let above ← q.slot (parent i)
        if q.cmp above v then
          let q ← q.setSlot i above
          pushLoop v fuel (parent i) q
        else q.setSlot i v
      else q.setSlot i v

/-- `minq_push`: the value returned, and the queue. -/
def minqPush (q : MinQueue α) (block : Option (Nat → α)) (v : α) : LinkExec (Int × MinQueue α) :=
  match q.grow block with
  | none => .ok (-1, q)
  | some q => do
      let i := q.size
      let q ← pushLoop v (i + 1) i { q with size := q.size + 1 }
      return (0, q)

/-- The smaller child of `i`, or 0 if there is none to go down to. -/
def hasChild (q : MinQueue α) (i : Nat) : LinkExec Nat :=
  let left := lchild i
  if left ≥ q.size then .ok 0
  else
    let right := left + 1
    if right < q.size then do
      let a ← q.slot left
      let b ← q.slot right
      if q.cmp a b then return right else return left
    else .ok left

/-- The `while` of `minq_pop`, from place `current` on. -/
def popLoop : Nat → Nat → MinQueue α → LinkExec (MinQueue α)
  | 0, _, _ => .error .loop
  | fuel + 1, current, q => do
      let min_child ← hasChild q current
      -- the root is no child, so 0 stands for none
      if min_child = 0 then return q
      else
        let a ← q.slot current
        let b ← q.slot min_child
        if q.cmp a b then
          let q ← q.setSlot current b
          let q ← q.setSlot min_child a
          popLoop fuel min_child q
        else return q

def minqPop (q : MinQueue α) : LinkExec (MinQueue α) :=
  if minqEmpty q then .ok q
  else do
    let q := { q with size := q.size - 1 }
    let last ← q.slot q.size
    let q ← q.setSlot 0 last
    popLoop (q.size + 1) 0 q

def minqPeek (q : MinQueue α) : LinkExec (Option α) :=
  if minqEmpty q then .ok none
  else do
    let root ← q.slot 0
    return some root

end

/-! ## The heap -/

theorem parent_lt (j : Nat) (hpos : 0 < j) : parent j < j := by
  rw [parent]
  omega

/-- The children of `i` are the two places `has_child` looks at. -/
theorem eq_child_of_parent {i j : Nat} (hpos : 0 < j) (h : parent j = i) :
    (j = lchild i ∧ i ≠ 0) ∨ j = lchild i + 1 := by
  rw [parent] at h
  rw [lchild]
  omega

section
variable {α κ : Type} [LinearOrder κ] {key : α → κ} {q : MinQueue α}

/-- What the queue keeps to: `cmp` compares keys, the slots in use are allocated, and no
    key is below that of the place above it. -/
structure MinQueue.Valid (key : α → κ) (q : MinQueue α) : Prop where
  cmp : ∀ a b, q.cmp a b = true ↔ key b < key a
  size_le : q.size ≤ q.alloc
  ordered : Heap.Ordered key parent q.e q.size

/-- The elements in the queue. -/
def MinQueue.held (q : MinQueue α) : Multiset α := Heap.bag q.e q.size

omit [LinearOrder κ] in
theorem MinQueue.slot_eq {i : Nat} (hi : i < q.alloc) : q.slot i = .ok (q.e i) := if_pos hi

omit [LinearOrder κ] in
theorem MinQueue.setSlot_eq {i : Nat} (hi : i < q.alloc) (v : α) :
    q.setSlot i v = .ok { q with e := Function.update q.e i v } := if_pos hi

/-- The new value moves up; `update q.e i v` is the array as it would be if it stopped
    at once. -/
theorem pushLoop_spec (hcmp : ∀ a b, q.cmp a b = true ↔ key b < key a) {v : α} {fuel i : Nat}
    (hle : q.size ≤ q.alloc) (hi : i < q.size)
    (hup : Heap.UpTo key parent (Function.update q.e i v) q.size i) (hfuel : i < fuel) :
    ∃ e, pushLoop v fuel i q = .ok { q with e := e } ∧ Heap.Ordered key parent e q.size ∧
      Heap.bag e q.size = Heap.bag (Function.update q.e i v) q.size := by
  induction fuel generalizing i q with
  | zero => exact absurd hfuel (Nat.not_lt_zero i)
  | succ fuel ih =>
      have hset := q.setSlot_eq (Nat.lt_of_lt_of_le hi hle)
      by_cases hz : i = 0
      · refine ⟨_, ?_, hup.ordered fun hpos => absurd hz (Nat.pos_iff_ne_zero.mp hpos), rfl⟩
        rw [pushLoop, if_neg (not_not.mpr hz), hset]
      · have hpos : 0 < i := Nat.pos_of_ne_zero hz
        have hlt := parent_lt i hpos
        have hslot := q.slot_eq (show parent i < q.alloc by omega)
        simp only [pushLoop, if_pos hz, hslot, link_ok_bind]
        by_cases habove : q.cmp (q.e (parent i)) v = true
        · -- the parent moves down, and the value is to go where it was
          have hswap := Heap.update_move q.e (Nat.ne_of_lt hlt) v
          have hkey : key (Function.update q.e i v i) <
              key (Function.update q.e i v (parent i)) := by
            rw [Function.update_self, Function.update_of_ne (Nat.ne_of_lt hlt)]
            exact (hcmp _ _).mp habove
          have hmoved := hup.swap parent_lt hpos hi hkey
          rw [← hswap] at hmoved
          obtain ⟨e, hrun, hordered, hbag⟩ :=
            @ih { q with e := Function.update q.e i (q.e (parent i)) } hcmp (parent i) hle
              (Nat.lt_trans hlt hi) hmoved (by omega)
          refine ⟨e, ?_, hordered, ?_⟩
          · rw [if_pos habove, hset]
            exact hrun
          · rw [hbag, hswap]
            exact Heap.bag_swap _ hi (Nat.lt_trans hlt hi)
        · refine ⟨_, ?_, hup.ordered fun _ => ?_, rfl⟩
          · rw [if_neg habove, hset]
          · rw [Function.update_self, Function.update_of_ne (Nat.ne_of_lt hlt)]
            exact le_of_not_gt fun hkey => habove ((hcmp _ _).mpr hkey)

/-- A push that finds room adds the element; one that does not leaves the queue as it is. -/
theorem MinQueue.Valid.push (h : q.Valid key) (block : Option (Nat → α)) (v : α) :
    (∃ q', minqPush q block v = .ok (0, q') ∧ q'.Valid key ∧ q'.held = v ::ₘ q.held) ∨
      block = none ∧ minqPush q block v = .ok (-1, q) := by
  cases hgrow : q.grow block with
  | none =>
      refine Or.inr ⟨?_, by rw [minqPush, hgrow]⟩
      rw [MinQueue.grow] at hgrow
      split at hgrow
      · exact Option.map_eq_none_iff.mp hgrow
      · cases hgrow
  | some grown =>
      -- the slots in use are the same, and there is a free one
      have hsame : grown.cmp = q.cmp ∧ grown.size = q.size ∧ q.size < grown.alloc ∧
          ∀ i < q.size, q.e i = grown.e i := by
        have hle := h.size_le
        rw [MinQueue.grow] at hgrow
        split at hgrow
        · obtain ⟨new, -, rfl⟩ := Option.map_eq_some_iff.mp hgrow
          refine ⟨rfl, rfl, by simp [SLOTS_PER_MALLOC], fun i hi => ?_⟩
          simp [Nat.lt_of_lt_of_le hi hle]
        · cases hgrow
          exact ⟨rfl, rfl, by omega, fun _ _ => rfl⟩
      obtain ⟨hcmp, hsize, hroom, hcells⟩ := hsame
      have hup := (h.ordered.congr parent_lt hcells).upTo parent_lt v
      rw [← hsize] at hup hcells
      obtain ⟨e, hrun, hordered, hbag⟩ :=
        @pushLoop_spec α κ _ key { grown with size := grown.size + 1 } (by rw [hcmp]; exact h.cmp) v
          (grown.size + 1) grown.size (show grown.size + 1 ≤ grown.alloc by omega)
          (Nat.lt_succ_self _) hup (Nat.lt_succ_self _)
      refine Or.inl ⟨_, by simp only [minqPush, hgrow, hrun, link_ok_bind]; rfl, ⟨?_, ?_, hordered⟩, ?_⟩
      · show ∀ a b, grown.cmp a b = true ↔ key b < key a
        rw [hcmp]
        exact h.cmp
      · show grown.size + 1 ≤ grown.alloc
        omega
      · refine hbag.trans ?_
        show Heap.bag (Function.update grown.e grown.size v) (grown.size + 1) = v ::ₘ q.held
        rw [Heap.bag_succ, Function.update_self, MinQueue.held, ← hsize]
        congr 1
        apply Heap.bag_congr
        intro i hi
        rw [Function.update_of_ne (Nat.ne_of_lt hi), hcells i hi]

/-- `c` is the least of the children of `i`, or 0 and none of them is below `i`. -/
def MinQueue.Least (key : α → κ) (q : MinQueue α) (i c : Nat) : Prop :=
  c = 0 ∧ (∀ j, 0 < j → j < q.size → parent j = i → key (q.e i) ≤ key (q.e j)) ∨
    0 < c ∧ c < q.size ∧ parent c = i ∧
      ∀ j, 0 < j → j < q.size → parent j = i → key (q.e c) ≤ key (q.e j)

/-- The left child, where the right one is not smaller.  The left child of the root is the
    root. -/
theorem MinQueue.least_left {i : Nat} (hleft : lchild i < q.size)
    (hright : lchild i + 1 < q.size → key (q.e (lchild i)) ≤ key (q.e (lchild i + 1))) :
    q.Least key i (lchild i) := by
  by_cases hroot : i = 0
  · subst hroot
    refine Or.inl ⟨rfl, ?_⟩
    intro j hpos hj hchild
    rcases eq_child_of_parent hpos hchild with ⟨-, hne⟩ | rfl
    · exact absurd rfl hne
    · exact hright hj
  · refine Or.inr ⟨?_, hleft, ?_, ?_⟩
    · rw [lchild]
      omega
    · rw [parent, lchild]
      omega
    · intro j hpos hj hchild
      rcases eq_child_of_parent hpos hchild with ⟨rfl, -⟩ | rfl
      · exact le_refl _
      · exact hright hj

theorem hasChild_spec (hcmp : ∀ a b, q.cmp a b = true ↔ key b < key a) (hle : q.size ≤ q.alloc)
    (i : Nat) : ∃ c, hasChild q i = .ok c ∧ q.Least key i c := by
  by_cases hleft : lchild i ≥ q.size
  · refine ⟨0, by simp only [hasChild, if_pos hleft], Or.inl ⟨rfl, ?_⟩⟩
    intro j hpos hj hchild
    have hplace := eq_child_of_parent hpos hchild
    omega
  have hslot := q.slot_eq (show lchild i < q.alloc by omega)
  by_cases hright : lchild i + 1 < q.size
  · have hslot' := q.slot_eq (show lchild i + 1 < q.alloc by omega)
    simp only [hasChild, if_neg hleft, if_pos hright, hslot, hslot', link_ok_bind]
    by_cases hsmaller : q.cmp (q.e (lchild i)) (q.e (lchild i + 1)) = true
    · have hkey := (hcmp _ _).mp hsmaller
      refine ⟨lchild i + 1, by rw [if_pos hsmaller]; rfl, Or.inr ⟨Nat.succ_pos _, hright, ?_, ?_⟩⟩
      · rw [parent, lchild]
        omega
      · intro j hpos hj hchild
        rcases eq_child_of_parent hpos hchild with ⟨rfl, -⟩ | rfl
        · exact le_of_lt hkey
        · exact le_refl _
    · have hkey := le_of_not_gt fun hlt => hsmaller ((hcmp _ _).mpr hlt)
      exact ⟨lchild i, by rw [if_neg hsmaller]; rfl, q.least_left (Nat.lt_of_not_le hleft) fun _ => hkey⟩
  · exact ⟨lchild i, by simp only [hasChild, if_neg hleft, if_neg hright],
      q.least_left (Nat.lt_of_not_le hleft) fun hlt => absurd hlt hright⟩

/-- The value at `current` moves down until both children are as large. -/
theorem popLoop_spec (hcmp : ∀ a b, q.cmp a b = true ↔ key b < key a) {fuel current : Nat}
    (hle : q.size ≤ q.alloc) (hdown : Heap.DownTo key parent q.e q.size current)
    (hfuel : q.size - current < fuel) :
    ∃ e, popLoop fuel current q = .ok { q with e := e } ∧ Heap.Ordered key parent e q.size ∧
      Heap.bag e q.size = Heap.bag q.e q.size := by
  induction fuel generalizing current q with
  | zero => exact absurd hfuel (Nat.not_lt_zero _)
  | succ fuel ih =>
      obtain ⟨c, hchild, ⟨rfl, hleast⟩ | ⟨hpos, hc, hparent, hleast⟩⟩ := hasChild_spec hcmp hle current
      · exact ⟨q.e, by simp only [popLoop, hchild, link_ok_bind]; rfl, hdown.ordered hleast, rfl⟩
      · have hlt : current < c := by
          have hpc := parent_lt c hpos
          omega
        have hcurrent : current < q.size := Nat.lt_trans hlt hc
        have hslot := q.slot_eq (Nat.lt_of_lt_of_le hcurrent hle)
        have hslot' := q.slot_eq (Nat.lt_of_lt_of_le hc hle)
        simp only [popLoop, hchild, link_ok_bind, if_neg (Nat.pos_iff_ne_zero.mp hpos), hslot, hslot']
        by_cases hbelow : q.cmp (q.e current) (q.e c) = true
        · have hset := q.setSlot_eq (Nat.lt_of_lt_of_le hcurrent hle) (q.e c)
          have hset' := @MinQueue.setSlot_eq α { q with e := Function.update q.e current (q.e c) } c
            (Nat.lt_of_lt_of_le hc hle) (q.e current)
          have hmoved := hdown.swap parent_lt hpos hc hparent hleast ((hcmp _ _).mp hbelow)
          rw [← Heap.update_update] at hmoved
          obtain ⟨e, hrun, hordered, hbag⟩ := @ih
            { q with e := Function.update (Function.update q.e current (q.e c)) c (q.e current) }
            hcmp c hle hmoved (show q.size - c < fuel by omega)
          refine ⟨e, ?_, hordered, ?_⟩
          · rw [if_pos hbelow, hset, link_ok_bind, hset', link_ok_bind]
            exact hrun
          · refine hbag.trans ?_
            rw [Heap.update_update]
            exact Heap.bag_swap q.e hcurrent hc
        · have hstop := le_of_not_gt fun hkey => hbelow ((hcmp _ _).mpr hkey)
          refine ⟨q.e, by rw [if_neg hbelow]; rfl, hdown.ordered ?_, rfl⟩
          intro j hj0 hj hjc
          exact le_trans hstop (hleast j hj0 hj hjc)

/-- A pop takes the root out; from an empty queue it takes nothing. -/
theorem MinQueue.Valid.pop (h : q.Valid key) :
    ∃ q', minqPop q = .ok q' ∧ q'.Valid key ∧
      (q.size = 0 ∧ q' = q ∨ 0 < q.size ∧ q.held = q.e 0 ::ₘ q'.held) := by
  by_cases hempty : minqEmpty q = true
  · have hsize : q.size = 0 := of_decide_eq_true hempty
    exact ⟨q, by rw [minqPop, if_pos hempty], h, Or.inl ⟨hsize, rfl⟩⟩
  have hpos : 0 < q.size := Nat.pos_of_ne_zero fun hzero => hempty (decide_eq_true hzero)
  have hle := h.size_le
  have hslot := q.slot_eq (show q.size - 1 < q.alloc by omega)
  have hset := @MinQueue.setSlot_eq α { q with size := q.size - 1 } 0
    (show 0 < q.alloc by omega) (q.e (q.size - 1))
  have hordered : Heap.Ordered key parent q.e (q.size - 1) :=
    fun j hj0 hj => h.ordered j hj0 (by omega)
  obtain ⟨e, hrun, hordered', hbag⟩ := @popLoop_spec α κ _ key
    { q with size := q.size - 1, e := Function.update q.e 0 (q.e (q.size - 1)) } h.cmp
    (q.size - 1 + 1) 0 (show q.size - 1 ≤ q.alloc by omega) (hordered.downTo _)
    (Nat.lt_succ_self _)
  refine ⟨{ q with size := q.size - 1, e := e }, ?_,
    ⟨h.cmp, show q.size - 1 ≤ q.alloc by omega, hordered'⟩, Or.inr ⟨hpos, ?_⟩⟩
  · rw [minqPop, if_neg hempty]
    simp only [MinQueue.slot, MinQueue.setSlot] at hslot hset ⊢
    simp only [hslot, link_ok_bind, hset]
    exact hrun
  · have hreplace := Heap.bag_replace q.e (q.size - 1)
    rw [Nat.sub_add_cancel hpos] at hreplace
    rw [MinQueue.held, hreplace]
    congr 1
    exact hbag.symm

/-- `minq_peek` returns the root, which has the least key. -/
theorem MinQueue.Valid.peek (h : q.Valid key) :
    q.size = 0 ∧ minqPeek q = .ok none ∨
      0 < q.size ∧ minqPeek q = .ok (some (q.e 0)) ∧ q.e 0 ∈ q.held ∧
        ∀ x ∈ q.held, key (q.e 0) ≤ key x := by
  by_cases hempty : minqEmpty q = true
  · exact Or.inl ⟨of_decide_eq_true hempty, by rw [minqPeek, if_pos hempty]⟩
  · have hpos : 0 < q.size := Nat.pos_of_ne_zero fun hzero => hempty (decide_eq_true hzero)
    have hslot := q.slot_eq (Nat.lt_of_lt_of_le hpos h.size_le)
    refine Or.inr ⟨hpos, ?_, Heap.mem_bag.mpr ⟨0, hpos, rfl⟩, ?_⟩
    · rw [minqPeek, if_neg hempty, hslot]
      rfl
    · intro x hx
      obtain ⟨i, hi, rfl⟩ := Heap.mem_bag.mp hx
      exact h.ordered.root_le parent_lt hi

end

/-! ## A sequence of calls -/

/-- A call of a function of min_queue.h; `block` is what `realloc` returns in it. -/
inductive MinqCall (α : Type) where
  | push (block : Option (Nat → α)) (v : α)
  | pop
  | peek

/-- What a call returns. -/
inductive MinqAnswer (α : Type) where
  | status (n : Int)
  | none
  | entry (v : Option α)
  deriving DecidableEq

section
variable {α : Type}

/-- What a call returns, and the queue after it. -/
def MinqCall.run (q : MinQueue α) : MinqCall α → LinkExec (MinqAnswer α × MinQueue α)
  | push block v => do
      let (status, q) ← minqPush q block v
      return (.status status, q)
  | pop => do
      let q ← minqPop q
      return (.none, q)
  | peek => do
      let v ← minqPeek q
      return (.entry v, q)

def runMinq (q : MinQueue α) : List (MinqCall α) → LinkExec (List (MinqAnswer α) × MinQueue α)
  | [] => .ok ([], q)
  | call :: calls => do
      let (answer, q) ← call.run q
      let (answers, q) ← runMinq q calls
      return (answer :: answers, q)

end

section
variable {α κ : Type} [LinearOrder κ] {key : α → κ} {q : MinQueue α}

variable (key) in
/-- A priority queue: the elements in it, and the one it shows, which has the least key. -/
structure PriorityQueue where
  bag : Multiset α
  front : Option α
  shown : front = none ∧ bag = 0 ∨
    ∃ x ∈ bag, front = some x ∧ ∀ y ∈ bag, key x ≤ key y

/-- Nothing in it. -/
def PriorityQueue.empty : PriorityQueue key := ⟨0, none, Or.inl ⟨rfl, rfl⟩⟩

/-- What a priority queue makes of a call, and the answer it gives.  A push adds the element
    and says so, or there is no memory for it, and it says that; a pop takes out the element
    that was shown; a peek tells which one it is. -/
inductive MinqCall.Serves : PriorityQueue key → MinqCall α → MinqAnswer α → PriorityQueue key →
    Prop where
  | push {c c' : PriorityQueue key} (block : Option (Nat → α)) {v : α}
      (hbag : c'.bag = v ::ₘ c.bag) : Serves c (.push block v) (.status 0) c'
  | refused (c : PriorityQueue key) (v : α) : Serves c (.push none v) (.status (-1)) c
  | pop {c c' : PriorityQueue key} {x : α} (hfront : c.front = some x)
      (hbag : c.bag = x ::ₘ c'.bag) : Serves c .pop .none c'
  | popEmpty {c : PriorityQueue key} (hempty : c.bag = 0) : Serves c .pop .none c
  | peek (c : PriorityQueue key) : Serves c .peek (.entry c.front) c

/-- The priority queue and its answers along a sequence of calls. -/
inductive Serving : PriorityQueue key → List (MinqCall α) → List (MinqAnswer α) →
    PriorityQueue key → Prop where
  | nil (c : PriorityQueue key) : Serving c [] [] c
  | cons {c mid c' : PriorityQueue key} {call : MinqCall α} {calls : List (MinqCall α)}
      {answer : MinqAnswer α} {answers : List (MinqAnswer α)} :
      call.Serves c answer mid → Serving mid calls answers c' →
        Serving c (call :: calls) (answer :: answers) c'

theorem minqNew_valid {cmp : α → α → Bool} (hcmp : ∀ a b, cmp a b = true ↔ key b < key a)
    (block : Nat → α) : (minqNew cmp block).Valid key :=
  ⟨hcmp, Nat.zero_le _, fun j _ hj => absurd hj (Nat.not_lt_zero j)⟩

/-- `q` holds what is in the priority queue `c`, and `minq_peek` gives what `c` shows. -/
structure MinQueue.Refines (q : MinQueue α) (c : PriorityQueue key) : Prop where
  valid : q.Valid key
  held : q.held = c.bag
  peek : minqPeek q = .ok c.front

/-- A valid heap is a priority queue. -/
theorem MinQueue.Valid.refines (h : q.Valid key) : ∃ c : PriorityQueue key, q.Refines c := by
  rcases h.peek with ⟨hsize, hpeek⟩ | ⟨-, hpeek, hmem, hleast⟩
  · have hempty : q.held = 0 := by
      rw [MinQueue.held, hsize]
      rfl
    exact ⟨⟨q.held, none, Or.inl ⟨rfl, hempty⟩⟩, h, rfl, hpeek⟩
  · exact ⟨⟨q.held, some (q.e 0), Or.inr ⟨q.e 0, hmem, rfl, hleast⟩⟩, h, rfl, hpeek⟩

/-- What one call does. -/
theorem MinqCall.run_serves {c : PriorityQueue key} (h : q.Refines c) (call : MinqCall α) :
    ∃ (answer : MinqAnswer α) (q' : MinQueue α) (c' : PriorityQueue key),
      call.run q = .ok (answer, q') ∧ q'.Refines c' ∧ call.Serves c answer c' := by
  cases call with
  | push block v =>
      rcases h.valid.push block v with ⟨q', hpush, hvalid, hheld⟩ | ⟨rfl, hpush⟩
      · obtain ⟨c', hc'⟩ := hvalid.refines
        refine ⟨.status 0, q', c', ?_, hc', .push block ?_⟩
        · simp only [run, hpush, link_ok_bind]
          rfl
        · rw [← hc'.held, hheld, h.held]
      · refine ⟨.status (-1), q, c, ?_, h, .refused c v⟩
        simp only [run, hpush, link_ok_bind]
        rfl
  | pop =>
      obtain ⟨q', hpop, hvalid, ⟨hsize, rfl⟩ | ⟨hpos, hheld⟩⟩ := h.valid.pop
      · refine ⟨.none, q', c, ?_, h, .popEmpty ?_⟩
        · simp only [run, hpop, link_ok_bind]
          rfl
        · rw [← h.held, MinQueue.held, hsize]
          rfl
      · obtain ⟨c', hc'⟩ := hvalid.refines
        refine ⟨.none, q', c', ?_, hc', ?_⟩
        · simp only [run, hpop, link_ok_bind]
          rfl
        · -- what is taken out is the root, which `minq_peek` gave before
          rcases h.valid.peek with ⟨hsize, -⟩ | ⟨-, hpeek, -⟩
          · omega
          · have hfront := h.peek
            rw [hpeek, Except.ok.injEq] at hfront
            refine .pop hfront.symm ?_
            rw [← h.held, hheld, hc'.held]
  | peek =>
      refine ⟨.entry c.front, q, c, ?_, h, .peek c⟩
      simp only [run, h.peek, link_ok_bind]
      rfl

theorem MinQueue.Refines.calls {c : PriorityQueue key} (h : q.Refines c)
    (calls : List (MinqCall α)) :
    ∃ (answers : List (MinqAnswer α)) (q' : MinQueue α) (c' : PriorityQueue key),
      runMinq q calls = .ok (answers, q') ∧ q'.Refines c' ∧ Serving c calls answers c' := by
  induction calls generalizing q c with
  | nil => exact ⟨[], q, c, rfl, h, .nil c⟩
  | cons call calls ih =>
      obtain ⟨answer, mid, c₁, hmid, hrefines, hserves⟩ := MinqCall.run_serves h call
      obtain ⟨answers, q', c', hrun, hrefines', hserving⟩ := ih hrefines
      refine ⟨answer :: answers, q', c', ?_, hrefines', .cons hserves hserving⟩
      simp only [runMinq, hmid, link_ok_bind, hrun]
      rfl

/-- The heap is a priority queue: every sequence of calls on a new one stays inside the
    slots allocated and returns, the answers are those of a priority queue, and at its end
    the heap holds what is in the priority queue and `minq_peek` gives what it shows. -/
theorem runMinq_serving {cmp : α → α → Bool} (hcmp : ∀ a b, cmp a b = true ↔ key b < key a)
    (block : Nat → α) (calls : List (MinqCall α)) :
    ∃ (answers : List (MinqAnswer α)) (q : MinQueue α) (c : PriorityQueue key),
      runMinq (minqNew cmp block) calls = .ok (answers, q) ∧ Serving .empty calls answers c ∧
      q.held = c.bag ∧ minqPeek q = .ok c.front := by
  have hnew : (minqNew cmp block).Refines (PriorityQueue.empty : PriorityQueue key) :=
    ⟨minqNew_valid hcmp block, rfl, rfl⟩
  obtain ⟨answers, q, c, hrun, hrefines, hserving⟩ := hnew.calls calls
  exact ⟨answers, q, c, hrun, hserving, hrefines.held, hrefines.peek⟩

end

/-- A queue of numbers. -/
theorem runMinq_serving_nat :
    ∃ (answers : List (MinqAnswer Nat)) (q : MinQueue Nat) (c : PriorityQueue (id : Nat → Nat)),
      runMinq (minqNew (fun a b => decide (b < a)) fun _ => 0)
        [.push none 5, .push none 3, .peek, .pop, .push none 4] = .ok (answers, q) ∧
      answers = [.status 0, .status 0, .entry (some 3), .none, .status 0] ∧
      Serving .empty [.push none 5, .push none 3, .peek, .pop, .push none 4] answers c ∧
      q.held = c.bag ∧ minqPeek q = .ok c.front ∧ c.front = some 4 := by
  obtain ⟨answers, q, c, hrun, hserving, hheld, hpeek⟩ :=
    @runMinq_serving Nat Nat _ id (fun a b => decide (b < a)) (fun _ _ => decide_eq_true_iff)
      (fun _ => 0) [.push none 5, .push none 3, .peek, .pop, .push none 4]
  have hanswers : (runMinq (minqNew (fun a b : Nat => decide (b < a)) fun _ => 0)
      [.push none 5, .push none 3, .peek, .pop, .push none 4]).map
        (fun r => (r.1, minqPeek r.2)) =
      .ok ([.status 0, .status 0, .entry (some 3), .none, .status 0], .ok (some 4)) := by
    decide +kernel
  rw [hrun, Except.map, Except.ok.injEq, Prod.mk.injEq, hpeek, Except.ok.injEq] at hanswers
  exact ⟨answers, q, c, hrun, hanswers.1, hserving, hheld, hpeek, hanswers.2⟩

end SelectiveRepeat
