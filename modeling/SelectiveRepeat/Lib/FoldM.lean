/-
  SelectiveRepeat.Lib.FoldM

  Steps that can fail, one after the other.  An invariant of one step is one of
  the whole sequence, and a sequence fails exactly where one of its steps does.
-/
import Mathlib.Data.List.Basic

namespace SelectiveRepeat.FoldM

variable {α β ε : Type} {f : β → α → Except ε β}

theorem foldlM_cons_ok {x : α} {xs : List α} {acc mid : β} (h : f acc x = .ok mid) :
    (x :: xs).foldlM f acc = xs.foldlM f mid := by
  rw [List.foldlM_cons, h]
  rfl

theorem foldlM_cons_error {x : α} {xs : List α} {acc : β} {e : ε} (h : f acc x = .error e) :
    (x :: xs).foldlM f acc = .error e := by
  rw [List.foldlM_cons, h]
  rfl

/-- What every step preserves, the sequence preserves. -/
theorem foldlM_preserves {p : β → Prop}
    (hstep : ∀ acc x next, p acc → f acc x = .ok next → p next) {xs : List α} {acc last : β}
    (hacc : p acc) (hlast : xs.foldlM f acc = .ok last) : p last := by
  induction xs generalizing acc with
  | nil =>
      have heq : acc = last := Except.ok.inj hlast
      rwa [← heq]
  | cons x xs ih =>
      cases hx : f acc x with
      | error e =>
          rw [foldlM_cons_error hx] at hlast
          exact absurd hlast (by simp)
      | ok mid =>
          rw [foldlM_cons_ok hx] at hlast
          exact ih (hstep acc x mid hacc hx) hlast

/-- A sequence fails with the first of its steps that does. -/
theorem foldlM_error_iff {xs : List α} {acc : β} {e : ε} :
    xs.foldlM f acc = .error e ↔
      ∃ n x mid, xs[n]? = some x ∧ (xs.take n).foldlM f acc = .ok mid ∧ f mid x = .error e := by
  induction xs generalizing acc with
  | nil =>
      refine ⟨?_, ?_⟩
      · exact fun h => absurd h (by simp [pure, Except.pure])
      · rintro ⟨n, x, mid, hx, -⟩
        exact absurd hx (by simp)
  | cons y ys ih =>
      cases hy : f acc y with
      | error e' =>
          -- the first step fails, and no later one is reached
          rw [foldlM_cons_error hy]
          refine ⟨?_, ?_⟩
          · intro h
            exact ⟨0, y, acc, rfl, rfl, by rw [hy, h]⟩
          · rintro ⟨n, x, mid, hx, hmid, hfail⟩
            cases n with
            | zero =>
                have hyx : y = x := Option.some.inj hx
                have hacc : acc = mid := Except.ok.inj hmid
                rw [← hfail, ← hyx, ← hacc, hy]
            | succ n =>
                rw [List.take_succ_cons, foldlM_cons_error hy] at hmid
                exact absurd hmid (by simp)
      | ok next =>
          -- step `n` of the rest is step `n + 1` of all
          rw [foldlM_cons_ok hy, ih]
          refine ⟨?_, ?_⟩
          · rintro ⟨n, x, mid, hx, hmid, hfail⟩
            exact ⟨n + 1, x, mid, hx, by rw [List.take_succ_cons, foldlM_cons_ok hy, hmid], hfail⟩
          · rintro ⟨n, x, mid, hx, hmid, hfail⟩
            cases n with
            | zero =>
                have hyx : y = x := Option.some.inj hx
                have hacc : acc = mid := Except.ok.inj hmid
                rw [← hyx, ← hacc, hy] at hfail
                exact absurd hfail (by simp)
            | succ n =>
                rw [List.take_succ_cons, foldlM_cons_ok hy] at hmid
                exact ⟨n, x, mid, hx, hmid, hfail⟩

end SelectiveRepeat.FoldM
