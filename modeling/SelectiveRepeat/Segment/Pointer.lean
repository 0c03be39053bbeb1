/-
  SelectiveRepeat.Segment.Pointer

  `pkt_t *` as an address.  Where a packet is read, written or freed through a pointer,
  the block may have been freed before, which is a fault of its own.  What the code does
  through its pointers is compared with what it would do with the packets themselves.
-/
import SelectiveRepeat.Lib.Storage
import SelectiveRepeat.Segment.Packet

namespace SelectiveRepeat.Pointers

variable {α β γ δ : Type}

/-- Why code that follows pointers has no defined continuation. -/
inductive Fault where
  /-- it has none whatever the pointers are -/
  | code (e : SelectiveRepeat.Fault)
  /-- `p` is not the address of an allocated block -/
  | dangling (p : Nat)
  deriving Repr, DecidableEq

abbrev Exec := Except Fault

/-- A computation that follows no pointer. -/
def lift (x : SelectiveRepeat.Exec α) : Exec α := x.mapError .code

/-- What is behind `p` -/
def load (heap : Storage α) : Option Nat → Exec α
  | none => .error (.code .null)
  | some p =>
      match heap.read p with
      | none => .error (.dangling p)
      | some a => .ok a

def store (heap : Storage α) (p : Option Nat) (a : α) : Exec (Storage α) :=
  match p with
  | none => .error (.code .null)
  | some p =>
      match heap.write p a with
      | none => .error (.dangling p)
      | some heap => .ok heap

/-- Changing what is behind `p` -/
def modify (heap : Storage α) (p : Option Nat) (f : α → α) : Exec (Storage α) := do
  let a ← load heap p
  store heap p (f a)

/-- `free` -/
def free (heap : Storage α) : Option Nat → Exec (Storage α)
  | none => .ok heap
  | some p =>
      match heap.free p with
      | none => .error (.dangling p)
      | some heap => .ok heap

/-- `pkt_new`, where `malloc` has memory: the block contains whatever was there. -/
def pktNew (heap : Storage Pkt) (malloc : Allocator) (content : Pkt) : Nat × Storage Pkt :=
  let p := malloc.address heap.live
  (p, heap.place p content)

def pktDel (heap : Storage Pkt) (pkt : Option Nat) : Exec (Storage Pkt) := free heap pkt

/-! ## With and without pointers -/

/-- The two come to results that `R` relates, or to the same fault, which no pointer
    caused. -/
inductive Agrees (R : α → β → Prop) : Exec α → SelectiveRepeat.Exec β → Prop where
  | ok {a : α} {b : β} (h : R a b) : Agrees R (.ok a) (.ok b)
  | error (e : SelectiveRepeat.Fault) : Agrees R (.error (.code e)) (.error e)

theorem Agrees.bind {R : α → β → Prop} {S : γ → δ → Prop} {x : Exec α}
    {y : SelectiveRepeat.Exec β} {f : α → Exec γ} {g : β → SelectiveRepeat.Exec δ}
    (h : Agrees R x y) (hnext : ∀ a b, y = .ok b → R a b → Agrees S (f a) (g b)) :
    Agrees S (x >>= f) (y >>= g) := by
  cases h with
  | ok hab => exact hnext _ _ rfl hab
  | error e => exact .error e

/-- Where only the code with pointers goes on. -/
theorem Agrees.bind_left {R : α → β → Prop} {S : γ → β → Prop} {x : Exec α}
    {y : SelectiveRepeat.Exec β} {f : α → Exec γ} (h : Agrees R x y)
    (hnext : ∀ a b, y = .ok b → R a b → Agrees S (f a) (.ok b)) : Agrees S (x >>= f) y := by
  cases h with
  | ok hab => exact hnext _ _ rfl hab
  | error e => exact .error e

theorem Agrees.and_run {R : α → β → Prop} {x : Exec α} {y : SelectiveRepeat.Exec β}
    (h : Agrees R x y) : Agrees (fun a b => R a b ∧ y = .ok b) x y := by
  cases h with
  | ok hab => exact .ok ⟨hab, rfl⟩
  | error e => exact .error e

theorem Agrees.mono {R S : α → β → Prop} {x : Exec α} {y : SelectiveRepeat.Exec β}
    (h : Agrees R x y) (hRS : ∀ a b, R a b → S a b) : Agrees S x y := by
  cases h with
  | ok hab => exact .ok (hRS _ _ hab)
  | error e => exact .error e

theorem agrees_lift (x : SelectiveRepeat.Exec α) : Agrees (· = ·) (lift x) x := by
  cases x with
  | error e => exact .error e
  | ok a => exact .ok rfl

theorem Agrees.of_ok {R : α → β → Prop} {a : α} {y : SelectiveRepeat.Exec β}
    (h : Agrees R (.ok a) y) : ∃ b, y = .ok b ∧ R a b := by
  cases h with
  | ok hab => exact ⟨_, rfl, hab⟩

theorem Agrees.to_ok {R : α → β → Prop} {x : Exec α} {b : β} (h : Agrees R x (.ok b)) :
    ∃ a, x = .ok a ∧ R a b := by
  cases h with
  | ok hab => exact ⟨_, rfl, hab⟩

/-- Results that are images of each other. -/
theorem Agrees.map_eq {f : α → β} {x : Exec α} {y : SelectiveRepeat.Exec β}
    (h : Agrees (fun a b => f a = b) x y) : x.map f = lift y := by
  cases h with
  | ok hab => rw [Except.map, hab]; rfl
  | error e => rfl

theorem Agrees.not_dangling {R : α → β → Prop} {x : Exec α} {y : SelectiveRepeat.Exec β}
    (h : Agrees R x y) (p : Nat) : x ≠ .error (.dangling p) := by
  cases h with
  | ok _ => exact nofun
  | error _ => exact nofun

@[simp] theorem ok_bind (a : α) (f : α → Exec β) : ((.ok a : Exec α) >>= f) = f a := rfl

/-! ## Blocks that are owned -/

section
variable {heap heap' : Storage α} {p : Nat}

theorem load_live (hp : p ∈ heap.live) : load heap (some p) = .ok (heap.content p) := by
  simp only [load, Storage.read, if_pos hp]

theorem store_eq {a : α} (h : heap.write p a = some heap') : store heap (some p) a = .ok heap' := by
  simp only [store, h]

theorem modify_eq (hp : p ∈ heap.live) {f : α → α}
    (h : heap.write p (f (heap.content p)) = some heap') : modify heap (some p) f = .ok heap' := by
  rw [modify, load_live hp, ok_bind, store_eq h]

theorem free_eq (h : heap.free p = some heap') : free heap (some p) = .ok heap' := by
  simp only [free, h]

end

section
variable {ι : Type} {heap : Storage Pkt} {cells : ι → Option Nat} {spare : Finset Nat}

/-- A packet that `pkt_new` allocates is in no cell. -/
theorem pktNew_owns (h : heap.Owns cells spare) (malloc : Allocator) (content : Pkt) :
    ∃ p, p ∉ spare ∧ ∃ heap', pktNew heap malloc content = (p, heap') ∧
      heap'.Owns cells (insert p spare) ∧ heap'.seen cells = heap.seen cells ∧
      heap'.content p = content := by
  have hfresh := malloc.fresh heap.live
  obtain ⟨howns, hseen⟩ := h.place hfresh content
  exact ⟨_, fun hspare => hfresh (h.spare_live hspare), _, rfl, howns, hseen,
    Function.update_self ..⟩

/-- A new packet that is filled in, as by `build_pkt`. -/
theorem pktNew_build (h : heap.Owns cells spare) (malloc : Allocator) (content : Pkt)
    (f : Pkt → Pkt) :
    ∃ p, p ∉ spare ∧ ∃ heap₁ heap₂, pktNew heap malloc content = (p, heap₁) ∧
      modify heap₁ (some p) f = .ok heap₂ ∧ heap₂.Owns cells (insert p spare) ∧
      heap₂.seen cells = heap.seen cells ∧ heap₂.content p = f content := by
  obtain ⟨p, hp, heap₁, hnew, howns, hseen, hcontent⟩ := pktNew_owns h malloc content
  have hmem := Finset.mem_insert_self p spare
  obtain ⟨heap₂, hwrite, howns', hseen', hcontent'⟩ := howns.write_spare hmem (f (heap₁.content p))
  exact ⟨p, hp, heap₁, heap₂, hnew, modify_eq (howns.spare_live hmem) hwrite, howns',
    hseen'.trans hseen, by rw [hcontent', hcontent]⟩

end

end SelectiveRepeat.Pointers
