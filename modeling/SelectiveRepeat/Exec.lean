/-
  SelectiveRepeat.Exec

  Undefined behaviour of the C code as a value.  A modelled function that reads
  or writes memory runs in `Exec`: it either returns, or stops at the first
  access the C standard gives no meaning to.
-/
import Mathlib.Logic.Basic

namespace SelectiveRepeat

/-- Why a run of the C code has no defined continuation. -/
inductive Fault where
  /-- `n > 512` bytes copied or read through `pkt->payload` -/
  | payload (n : Nat)
  /-- `list->window[i]` with `i` outside the array -/
  | window (i : Nat)
  /-- a `NULL` pointer dereferenced -/
  | null
  /-- the bound the model puts on a loop of the source ran out -/
  | loop
  deriving Repr, DecidableEq

/-- A computation of the source: a result, or the fault it ran into. -/
abbrev Exec := Except Fault

theorem exists_ok_of_map {ε α β : Type} {x : Except ε α} {f : α → β} {b : β} (h : x.map f = .ok b) :
    ∃ a, x = .ok a ∧ f a = b := by
  cases x with
  | error e => exact absurd h (by simp [Except.map])
  | ok a => exact ⟨a, rfl, by simpa [Except.map] using h⟩

/-- A sequence that returns has a first part that returns. -/
theorem exists_ok_of_bind {ε α β : Type} {x : Except ε α} {f : α → Except ε β} {b : β}
    (h : (x >>= f) = .ok b) : ∃ a, x = .ok a ∧ f a = .ok b := by
  cases x with
  | error e => cases h
  | ok a => exact ⟨a, rfl, h⟩

@[simp] theorem ok_bind {α β : Type} (a : α) (f : α → Exec β) :
    ((.ok a : Exec α) >>= f) = f a := rfl

@[simp] theorem error_bind {α β : Type} (e : Fault) (f : α → Exec β) :
    ((.error e : Exec α) >>= f) = .error e := rfl

/-! ## Two computations -/

/-- Two computations come to results that `R` relates, or to the same fault. -/
inductive Agree {α β : Type} (R : α → β → Prop) : Exec α → Exec β → Prop where
  | ok {a : α} {b : β} (h : R a b) : Agree R (.ok a) (.ok b)
  | error (e : Fault) : Agree R (.error e) (.error e)

/-- Sequences agree where their parts do. -/
theorem Agree.bind {α β γ δ : Type} {R : α → β → Prop} {S : γ → δ → Prop} {x : Exec α} {y : Exec β}
    {f : α → Exec γ} {g : β → Exec δ} (h : Agree R x y) (hnext : ∀ a b, R a b → Agree S (f a) (g b)) :
    Agree S (x >>= f) (y >>= g) := by
  cases h with
  | ok hab => exact hnext _ _ hab
  | error e => exact .error e

theorem Agree.mono {α β : Type} {R S : α → β → Prop} {x : Exec α} {y : Exec β} (h : Agree R x y)
    (hRS : ∀ a b, R a b → S a b) : Agree S x y := by
  cases h with
  | ok hab => exact .ok (hRS _ _ hab)
  | error e => exact .error e

theorem agree_of_map {α β γ : Type} {x : Exec α} {y : Exec β} {f : α → γ} {g : β → γ}
    (h : x.map f = y.map g) : Agree (fun a b => f a = g b) x y := by
  cases x with
  | error e =>
      cases y with
      | error e' =>
          cases h
          exact .error e
      | ok b => cases h
  | ok a =>
      cases y with
      | error e => cases h
      | ok b => exact .ok (Except.ok.inj h)

end SelectiveRepeat
