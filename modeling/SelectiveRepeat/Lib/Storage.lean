/-
  SelectiveRepeat.Lib.Storage

  Dynamic storage: blocks of one type, allocated and freed, named by addresses that
  carry no permission of their own.  `Storage.Owns` says who owns what: the cells of a
  table hold the addresses of different blocks, and the blocks that are in no cell are
  known.  Each operation on a block in a cell is an operation on the table of the values.
-/
import Mathlib.Data.Finset.Lattice.Fold
import Mathlib.Data.Fintype.Card
import Mathlib.Logic.Function.Basic
import Mathlib.Order.Lattice.Nat

namespace SelectiveRepeat

/-- Blocks by address; `live` are the allocated ones. -/
structure Storage (α : Type) where
  live : Finset Nat
  content : Nat → α

/-- An allocator: it answers an address that is not in use. -/
structure Allocator where
  address : Finset Nat → Nat
  fresh : ∀ live, address live ∉ live

/-- The next address after all of those in use. -/
def Allocator.next : Allocator where
  address live := live.sup id + 1
  fresh live hmem := by
    have hle : live.sup id + 1 ≤ live.sup id := Finset.le_sup (f := id) hmem
    omega

namespace Storage

variable {α : Type} {ι : Type}

def empty (content : Nat → α) : Storage α where
  live := ∅
  content := content

def read (b : Storage α) (p : Nat) : Option α :=
  if p ∈ b.live then some (b.content p) else none

def write (b : Storage α) (p : Nat) (a : α) : Option (Storage α) :=
  if p ∈ b.live then some { b with content := Function.update b.content p a } else none

def free (b : Storage α) (p : Nat) : Option (Storage α) :=
  if p ∈ b.live then some { b with live := b.live.erase p } else none

/-- The block at `p` is allocated, and contains `a`. -/
def place (b : Storage α) (p : Nat) (a : α) : Storage α where
  live := insert p b.live
  content := Function.update b.content p a

/-- The values behind the addresses of a table. -/
def seen (b : Storage α) (cells : ι → Option Nat) : ι → Option α :=
  fun i => (cells i).map b.content

/-- The allocated blocks are those in the cells, no block in two cells, and those of
    `spare`, none of which is in a cell. -/
structure Owns (b : Storage α) (cells : ι → Option Nat) (spare : Finset Nat) : Prop where
  live_iff : ∀ p, p ∈ b.live ↔ p ∈ spare ∨ ∃ i, cells i = some p
  inj : ∀ i j p, cells i = some p → cells j = some p → i = j
  apart : ∀ i p, cells i = some p → p ∉ spare

theorem owns_empty (content : Nat → α) :
    (empty content).Owns (fun _ : ι => none) ∅ where
  live_iff p := by simp [empty]
  inj i j p h := by cases h
  apart i p h := by cases h

section
variable {b : Storage α} {cells : ι → Option Nat} {spare : Finset Nat}

theorem Owns.live (h : b.Owns cells spare) {i : ι} {p : Nat} (hi : cells i = some p) :
    p ∈ b.live := (h.live_iff p).mpr (Or.inr ⟨i, hi⟩)

theorem Owns.spare_live (h : b.Owns cells spare) {p : Nat} (hp : p ∈ spare) : p ∈ b.live :=
  (h.live_iff p).mpr (Or.inl hp)

theorem Owns.read (h : b.Owns cells spare) {i : ι} {p : Nat} (hi : cells i = some p) :
    b.read p = some (b.content p) := if_pos (h.live hi)

theorem seen_store [DecidableEq ι] (b : Storage α) (cells : ι → Option Nat) (i : ι)
    (cell : Option Nat) :
    b.seen (Function.update cells i cell) = Function.update (b.seen cells) i (cell.map b.content) := by
  funext j
  by_cases hj : j = i
  · subst hj
    simp only [seen, Function.update_self]
  · simp only [seen, Function.update_of_ne hj]

/-- A change of the block of a cell is seen in that cell only. -/
theorem Owns.write [DecidableEq ι] (h : b.Owns cells spare) {i : ι} {p : Nat}
    (hi : cells i = some p) (a : α) :
    ∃ b', b.write p a = some b' ∧ b'.Owns cells spare ∧
      b'.seen cells = Function.update (b.seen cells) i (some a) := by
  refine ⟨_, if_pos (h.live hi), ⟨h.live_iff, h.inj, h.apart⟩, ?_⟩
  funext j
  by_cases hj : j = i
  · subst hj
    simp only [seen, hi, Option.map_some, Function.update_self]
  · rw [Function.update_of_ne hj]
    cases hcell : cells j with
    | none => simp only [seen, hcell, Option.map_none]
    | some q =>
        have hq : q ≠ p := fun heq => hj (h.inj j i p (heq ▸ hcell) hi)
        simp only [seen, hcell, Option.map_some, Function.update_of_ne hq]

theorem Owns.write_spare (h : b.Owns cells spare) {p : Nat} (hp : p ∈ spare) (a : α) :
    ∃ b', b.write p a = some b' ∧ b'.Owns cells spare ∧ b'.seen cells = b.seen cells ∧
      b'.content p = a := by
  refine ⟨_, if_pos (h.spare_live hp), ⟨h.live_iff, h.inj, h.apart⟩, ?_, Function.update_self ..⟩
  funext i
  cases hcell : cells i with
  | none => simp only [seen, hcell, Option.map_none]
  | some q =>
      have hq : q ≠ p := fun heq => h.apart i q hcell (heq ▸ hp)
      simp only [seen, hcell, Option.map_some, Function.update_of_ne hq]

/-- One block more. -/
theorem place_card {p : Nat} (hp : p ∉ b.live) (a : α) :
    (b.place p a).live.card = b.live.card + 1 := Finset.card_insert_of_notMem hp

theorem write_live {p : Nat} {a : α} {b' : Storage α} (h : b.write p a = some b') :
    b'.live = b.live := by
  rw [Storage.write] at h
  split at h
  · cases h
    rfl
  · cases h

/-- One block less. -/
theorem free_card {p : Nat} {b' : Storage α} (h : b.free p = some b') :
    b'.live.card + 1 = b.live.card := by
  rw [Storage.free] at h
  split at h
  next hp =>
    cases h
    exact Finset.card_erase_add_one hp
  next => cases h

theorem free_content {p : Nat} {b' : Storage α} (h : b.free p = some b') :
    b'.content = b.content := by
  rw [Storage.free] at h
  split at h
  · cases h
    rfl
  · cases h

/-- Freeing the block of a cell and clearing the cell. -/
theorem Owns.free [DecidableEq ι] (h : b.Owns cells spare) {i : ι} {p : Nat}
    (hi : cells i = some p) :
    ∃ b', b.free p = some b' ∧ b'.Owns (Function.update cells i none) spare ∧
      b'.seen (Function.update cells i none) = Function.update (b.seen cells) i none := by
  have hcells : ∀ {j q}, Function.update cells i none j = some q ↔ j ≠ i ∧ cells j = some q := by
    intro j q
    by_cases hj : j = i
    · simp [hj]
    · simp [hj]
  refine ⟨_, if_pos (h.live hi), ⟨fun q => ?_, fun j k q hj hk => ?_, fun j q hj => ?_⟩, ?_⟩
  · simp only [Finset.mem_erase, h.live_iff, hcells]
    refine ⟨?_, ?_⟩
    · rintro ⟨hne, hspare | ⟨j, hj⟩⟩
      · exact Or.inl hspare
      · exact Or.inr ⟨j, fun hji => hne (Option.some.inj ((hji ▸ hj).symm.trans hi)), hj⟩
    · rintro (hspare | ⟨j, hji, hj⟩)
      · exact ⟨fun hqp => h.apart i q (hqp ▸ hi) hspare, Or.inl hspare⟩
      · exact ⟨fun hqp => hji (h.inj j i p (hqp ▸ hj) hi), Or.inr ⟨j, hj⟩⟩
  · exact h.inj j k q (hcells.mp hj).2 (hcells.mp hk).2
  · exact h.apart j q (hcells.mp hj).2
  · exact seen_store _ cells i none

theorem Owns.free_spare (h : b.Owns cells spare) {p : Nat} (hp : p ∈ spare) :
    ∃ b', b.free p = some b' ∧ b'.Owns cells (spare.erase p) ∧ b'.seen cells = b.seen cells := by
  refine ⟨_, if_pos (h.spare_live hp), ⟨fun q => ?_, h.inj, fun i q hi hq => ?_⟩, rfl⟩
  · simp only [Finset.mem_erase, h.live_iff]
    refine ⟨?_, ?_⟩
    · rintro ⟨hne, hspare | hcell⟩
      · exact Or.inl ⟨hne, hspare⟩
      · exact Or.inr hcell
    · rintro (⟨hne, hspare⟩ | ⟨i, hi⟩)
      · exact ⟨hne, Or.inl hspare⟩
      · exact ⟨fun hqp => h.apart i q hi (hqp ▸ hp), Or.inr ⟨i, hi⟩⟩
  · exact h.apart i q hi (Finset.mem_of_mem_erase hq)

/-- An allocated block is in no cell at first. -/
theorem Owns.place (h : b.Owns cells spare) {p : Nat} (hp : p ∉ b.live) (a : α) :
    (b.place p a).Owns cells (insert p spare) ∧ (b.place p a).seen cells = b.seen cells := by
  have hne : ∀ {i q}, cells i = some q → q ≠ p := fun hi heq => hp (heq ▸ h.live hi)
  refine ⟨⟨fun q => ?_, h.inj, fun i q hi hq => ?_⟩, ?_⟩
  · simp only [Storage.place, Finset.mem_insert, h.live_iff, or_assoc]
  · rcases Finset.mem_insert.mp hq with heq | hq
    · exact hne hi heq
    · exact h.apart i q hi hq
  · funext i
    cases hcell : cells i with
    | none => simp only [seen, hcell, Option.map_none]
    | some q =>
        simp only [seen, hcell, Option.map_some, Storage.place, Function.update_of_ne (hne hcell)]

/-- Storing the address of a block that is in no cell in an empty one. -/
theorem Owns.give [DecidableEq ι] (h : b.Owns cells spare) {i : ι} {p : Nat} (hp : p ∈ spare)
    (hi : cells i = none) :
    b.Owns (Function.update cells i (some p)) (spare.erase p) ∧
      b.seen (Function.update cells i (some p)) =
        Function.update (b.seen cells) i (some (b.content p)) := by
  have hcells : ∀ {j q}, Function.update cells i (some p) j = some q ↔
      j = i ∧ p = q ∨ j ≠ i ∧ cells j = some q := by
    intro j q
    by_cases hj : j = i
    · simp [hj]
    · simp [hj]
  refine ⟨⟨fun q => ?_, fun j k q hj hk => ?_, fun j q hj hq => ?_⟩, ?_⟩
  · simp only [Finset.mem_erase, h.live_iff, hcells]
    refine ⟨?_, ?_⟩
    · rintro (hspare | ⟨j, hj⟩)
      · by_cases hqp : q = p
        · exact Or.inr ⟨i, Or.inl ⟨rfl, hqp.symm⟩⟩
        · exact Or.inl ⟨hqp, hspare⟩
      · refine Or.inr ⟨j, Or.inr ⟨?_, hj⟩⟩
        rintro rfl
        exact absurd (hi.symm.trans hj) (by simp)
    · rintro (⟨-, hspare⟩ | ⟨j, ⟨-, hpq⟩ | ⟨-, hj⟩⟩)
      · exact Or.inl hspare
      · exact Or.inl (hpq ▸ hp)
      · exact Or.inr ⟨j, hj⟩
  · rcases hcells.mp hj with ⟨hji, hpq⟩ | ⟨hji, hj'⟩
    · rcases hcells.mp hk with ⟨hki, -⟩ | ⟨-, hk'⟩
      · exact hji.trans hki.symm
      · exact absurd hp (hpq ▸ h.apart k q hk')
    · rcases hcells.mp hk with ⟨-, hpq⟩ | ⟨-, hk'⟩
      · exact absurd hp (hpq ▸ h.apart j q hj')
      · exact h.inj j k q hj' hk'
  · rw [Finset.mem_erase] at hq
    rcases hcells.mp hj with ⟨-, hpq⟩ | ⟨-, hj'⟩
    · exact hq.1 hpq.symm
    · exact h.apart j q hj' hq.2
  · exact seen_store b cells i (some p)

/-- Different cells with the addresses of different blocks. -/
theorem owns_of_inj (hlive : ∀ i p, cells i = some p → p ∈ b.live)
    (hinj : ∀ i j p, cells i = some p → cells j = some p → i = j) :
    ∃ spare, b.Owns cells spare := by
  classical
  refine ⟨b.live.filter fun p => ¬ ∃ i, cells i = some p, fun p => ?_, hinj, fun i p hi hp => ?_⟩
  · rw [Finset.mem_filter]
    refine ⟨fun hp => ?_, ?_⟩
    · by_cases hcell : ∃ i, cells i = some p
      · exact Or.inr hcell
      · exact Or.inl ⟨hp, hcell⟩
    · rintro (⟨hp, -⟩ | ⟨i, hi⟩)
      · exact hp
      · exact hlive i p hi
  · exact (Finset.mem_filter.mp hp).2 ⟨i, hi⟩

/-- Moving an address to another cell; the block that was in that cell is in none. -/
theorem Owns.move [DecidableEq ι] (h : b.Owns cells spare) {i : ι} {p : Nat}
    (hi : cells i = some p) (j : ι) :
    ∃ spare', b.Owns (Function.update (Function.update cells j (some p)) i none) spare' := by
  have hcells : ∀ {k q}, Function.update (Function.update cells j (some p)) i none k = some q →
      k ≠ i ∧ (k = j ∧ q = p ∨ k ≠ j ∧ cells k = some q) := by
    intro k q hk
    by_cases hki : k = i
    · rw [hki, Function.update_self] at hk
      cases hk
    · rw [Function.update_of_ne hki] at hk
      by_cases hkj : k = j
      · rw [hkj, Function.update_self, Option.some.injEq] at hk
        exact ⟨hki, Or.inl ⟨hkj, hk.symm⟩⟩
      · rw [Function.update_of_ne hkj] at hk
        exact ⟨hki, Or.inr ⟨hkj, hk⟩⟩
  refine owns_of_inj (fun k q hk => ?_) (fun k l q hk hl => ?_)
  · rcases (hcells hk).2 with ⟨-, rfl⟩ | ⟨-, hq⟩
    · exact h.live hi
    · exact h.live hq
  · obtain ⟨hki, hk'⟩ := hcells hk
    obtain ⟨hli, hl'⟩ := hcells hl
    rcases hk' with ⟨hkj, hqp⟩ | ⟨-, hkq⟩
    · rcases hl' with ⟨hlj, -⟩ | ⟨-, hlq⟩
      · exact hkj.trans hlj.symm
      · exact absurd (h.inj l i p (hqp ▸ hlq) hi) hli
    · rcases hl' with ⟨-, hqp⟩ | ⟨-, hlq⟩
      · exact absurd (h.inj k i p (hqp ▸ hkq) hi) hki
      · exact h.inj k l q hkq hlq

/-- No block is unaccounted for. -/
theorem Owns.card [Fintype ι] (h : b.Owns cells spare) :
    b.live.card = spare.card + (Finset.univ.filter fun i => (b.seen cells i).isSome).card := by
  have hmem : ∀ i, i ∈ Finset.univ.filter (fun i => (b.seen cells i).isSome) ↔
      ∃ p, cells i = some p := by
    intro i
    rw [Finset.mem_filter, seen, Option.isSome_map, Option.isSome_iff_exists]
    exact and_iff_right (Finset.mem_univ i)
  have hlive : b.live = spare ∪
      (Finset.univ.filter fun i => (b.seen cells i).isSome).image fun i => (cells i).getD 0 := by
    ext p
    rw [h.live_iff, Finset.mem_union, Finset.mem_image]
    refine or_congr Iff.rfl ⟨?_, ?_⟩
    · rintro ⟨i, hi⟩
      exact ⟨i, (hmem i).mpr ⟨p, hi⟩, by rw [hi, Option.getD_some]⟩
    · rintro ⟨i, hi, rfl⟩
      obtain ⟨p, hp⟩ := (hmem i).mp hi
      exact ⟨i, by rw [hp, Option.getD_some]⟩
  rw [hlive, Finset.card_union_of_disjoint, Finset.card_image_of_injOn]
  · intro i hi j hj heq
    obtain ⟨p, hp⟩ := (hmem i).mp hi
    obtain ⟨q, hq⟩ := (hmem j).mp hj
    simp only [hp, hq, Option.getD_some] at heq
    exact h.inj i j p hp (heq ▸ hq)
  · rw [Finset.disjoint_right]
    intro p hp
    obtain ⟨i, hi, rfl⟩ := Finset.mem_image.mp hp
    obtain ⟨q, hq⟩ := (hmem i).mp hi
    rw [hq, Option.getD_some]
    exact h.apart i q hq

end

end Storage

end SelectiveRepeat
