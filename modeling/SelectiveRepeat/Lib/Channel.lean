/-
  SelectiveRepeat.Lib.Channel

  A channel between two parties: the messages in flight, the oldest first.  The
  link may lose a message, duplicate it in place, alter it, or let messages
  overtake each other.  A property of each message survives all of this if it
  survives the alteration, and a relation between a message and the ones behind it
  survives all but the last.
-/
import Mathlib.Data.List.Perm.Basic
import Mathlib.Logic.Relation

namespace SelectiveRepeat.Channel

variable {α : Type} {alter : α → α}

inductive Disturbance where
  | lose | duplicate | alter | reorder
  deriving Repr, DecidableEq

/-- What the link can do to the messages in flight. -/
inductive Disturbs (alter : α → α) : Disturbance → List α → List α → Prop where
  | lose (before : List α) (m : α) (behind : List α) :
      Disturbs alter .lose (before ++ m :: behind) (before ++ behind)
  | duplicate (before : List α) (m : α) (behind : List α) :
      Disturbs alter .duplicate (before ++ m :: behind) (before ++ m :: m :: behind)
  | alter (before : List α) (m : α) (behind : List α) :
      Disturbs alter .alter (before ++ m :: behind) (before ++ alter m :: behind)
  | reorder {c c' : List α} (h : c.Perm c') : Disturbs alter .reorder c c'

/-- A property of the messages that alteration keeps. -/
theorem Disturbs.forall {kind : Disturbance} {c c' : List α} (h : Disturbs alter kind c c')
    {p : α → Prop} (halter : ∀ m, p m → p (alter m)) (hc : ∀ m ∈ c, p m) : ∀ m ∈ c', p m := by
  cases h with
  | lose before m behind =>
      rw [List.forall_mem_append, List.forall_mem_cons] at hc
      rw [List.forall_mem_append]
      exact ⟨hc.1, hc.2.2⟩
  | duplicate before m behind =>
      rw [List.forall_mem_append, List.forall_mem_cons] at hc
      rw [List.forall_mem_append, List.forall_mem_cons, List.forall_mem_cons]
      exact ⟨hc.1, hc.2.1, hc.2.1, hc.2.2⟩
  | alter before m behind =>
      rw [List.forall_mem_append, List.forall_mem_cons] at hc ⊢
      exact ⟨hc.1, halter m hc.2.1, hc.2.2⟩
  | reorder hperm => exact fun x hx => hc x (hperm.mem_iff.mpr hx)

/-- A relation between a message and the ones behind it, if the link keeps the order. -/
theorem Disturbs.pairwise {kind : Disturbance} {c c' : List α} (h : Disturbs alter kind c c')
    (hkind : kind ≠ .reorder) {r : α → α → Prop} (hself : ∀ m ∈ c, r m m)
    (hleft : ∀ m m', r m m' → r (alter m) m') (hright : ∀ m m', r m m' → r m (alter m'))
    (hc : c.Pairwise r) : c'.Pairwise r := by
  cases h with
  | lose before m behind =>
      rw [List.pairwise_append, List.pairwise_cons] at hc
      rw [List.pairwise_append]
      exact ⟨hc.1, hc.2.1.2, fun a ha b hb => hc.2.2 a ha b (List.mem_cons_of_mem _ hb)⟩
  | duplicate before m behind =>
      have hm : r m m := hself m (List.mem_append_right _ List.mem_cons_self)
      rw [List.pairwise_append, List.pairwise_cons] at hc
      rw [List.pairwise_append, List.pairwise_cons, List.pairwise_cons]
      refine ⟨hc.1, ⟨?_, hc.2.1.1, hc.2.1.2⟩, ?_⟩
      · rw [List.forall_mem_cons]
        exact ⟨hm, hc.2.1.1⟩
      · intro a ha
        rw [List.forall_mem_cons]
        exact ⟨hc.2.2 a ha m List.mem_cons_self, hc.2.2 a ha⟩
  | alter before m behind =>
      rw [List.pairwise_append, List.pairwise_cons] at hc ⊢
      refine ⟨hc.1, ⟨fun b hb => hleft _ _ (hc.2.1.1 b hb), hc.2.1.2⟩, ?_⟩
      intro a ha
      -- what is in front of the message sees it altered, what is behind it is seen by it
      have ha' := hc.2.2 a ha
      rw [List.forall_mem_cons] at ha' ⊢
      exact ⟨hright _ _ ha'.1, ha'.2⟩
  | reorder => exact absurd rfl hkind

/-- What happens at one end of a channel happens to the channel. -/
theorem Disturbs.append_left {kind : Disturbance} {c c' : List α} (h : Disturbs alter kind c c')
    (front : List α) : Disturbs alter kind (front ++ c) (front ++ c') := by
  cases h with
  | lose before m behind =>
      rw [← List.append_assoc, ← List.append_assoc]
      exact .lose (front ++ before) m behind
  | duplicate before m behind =>
      rw [← List.append_assoc, ← List.append_assoc]
      exact .duplicate (front ++ before) m behind
  | alter before m behind =>
      rw [← List.append_assoc, ← List.append_assoc]
      exact .alter (front ++ before) m behind
  | reorder hperm => exact .reorder (hperm.append_left front)

theorem Disturbs.append_right {kind : Disturbance} {c c' : List α} (h : Disturbs alter kind c c')
    (back : List α) : Disturbs alter kind (c ++ back) (c' ++ back) := by
  cases h with
  | lose before m behind =>
      rw [List.append_assoc, List.append_assoc]
      exact .lose before m (behind ++ back)
  | duplicate before m behind =>
      rw [List.append_assoc, List.append_assoc]
      exact .duplicate before m (behind ++ back)
  | alter before m behind =>
      rw [List.append_assoc, List.append_assoc]
      exact .alter before m (behind ++ back)
  | reorder hperm => exact .reorder (hperm.append_right back)

/-- The link can lose any of the messages. -/
theorem loses_of_sublist {c c' : List α} (h : c'.Sublist c) :
    Relation.ReflTransGen (Disturbs alter .lose) c c' := by
  induction h with
  | slnil => exact .refl
  | cons m _ ih => exact .head (.lose [] m _) ih
  | cons_cons m _ ih =>
      exact Relation.ReflTransGen.lift (m :: ·) (fun _ _ hd => hd.append_left [m]) _ _ ih

theorem Disturbs.of_nil {kind : Disturbance} {c : List α} (h : Disturbs alter kind [] c) : c = [] := by
  generalize hnil : ([] : List α) = empty at h
  cases h with
  | lose before | duplicate before | alter before =>
      exact absurd hnil.symm (List.append_ne_nil_of_right_ne_nil before (by simp))
  | reorder hperm =>
      subst hnil
      exact List.nil_perm.mp hperm

/-! ## Messages among others -/

section
variable {β : Type} {junk : β → Prop} {image : α → β}

/-- `Among junk image as bs`: `bs` are the images of the messages `as`, in their order, with
    junk between them. -/
inductive Among (junk : β → Prop) (image : α → β) : List α → List β → Prop where
  | nil : Among junk image [] []
  | message (a : α) {as : List α} {bs : List β} :
      Among junk image as bs → Among junk image (a :: as) (image a :: bs)
  | junk {b : β} (hb : junk b) {as : List α} {bs : List β} :
      Among junk image as bs → Among junk image as (b :: bs)

theorem among_map (as : List α) : Among junk image as (as.map image) := by
  induction as with
  | nil => exact .nil
  | cons a as ih => exact .message a ih

/-- Where nothing is junk. -/
theorem Among.eq_map {as : List α} {bs : List β} (h : Among (fun _ => False) image as bs) :
    as.map image = bs := by
  induction h with
  | nil => rfl
  | message a _ ih => rw [List.map_cons, ih]
  | junk hb => exact hb.elim

theorem Among.append {as as' : List α} {bs bs' : List β} (h : Among junk image as bs)
    (h' : Among junk image as' bs') : Among junk image (as ++ as') (bs ++ bs') := by
  induction h with
  | nil => exact h'
  | message a _ ih => exact .message a ih
  | junk hb _ ih => exact .junk hb ih

theorem Among.split {as : List α} {bs bs' : List β} (h : Among junk image as (bs ++ bs')) :
    ∃ front back, as = front ++ back ∧ Among junk image front bs ∧ Among junk image back bs' := by
  induction bs generalizing as with
  | nil => exact ⟨[], as, rfl, .nil, h⟩
  | cons b bs ih =>
      cases h with
      | message a h =>
          obtain ⟨front, back, rfl, hfront, hback⟩ := ih h
          exact ⟨a :: front, back, rfl, .message a hfront, hback⟩
      | junk hb h =>
          obtain ⟨front, back, rfl, hfront, hback⟩ := ih h
          exact ⟨front, back, rfl, .junk hb hfront, hback⟩

/-- What stands in one place is a message, with the others in front of it and behind it, or
    junk. -/
theorem Among.place {as : List α} {front back : List β} {b : β}
    (h : Among junk image as (front ++ b :: back)) :
    ∃ as₁ as₂, Among junk image as₁ front ∧ Among junk image as₂ back ∧
      ((∃ a, image a = b ∧ as = as₁ ++ a :: as₂) ∨ junk b ∧ as = as₁ ++ as₂) := by
  obtain ⟨as₁, rest, rfl, h₁, hrest⟩ := h.split
  cases hrest with
  | message a h₂ => exact ⟨as₁, _, h₁, h₂, Or.inl ⟨a, rfl, rfl⟩⟩
  | junk hb h₂ => exact ⟨as₁, rest, h₁, h₂, Or.inr ⟨hb, rfl⟩⟩

theorem Among.perm {as : List α} {bs bs' : List β} (h : Among junk image as bs)
    (hperm : bs.Perm bs') : ∃ as', as.Perm as' ∧ Among junk image as' bs' := by
  induction hperm generalizing as with
  | nil => exact ⟨as, .refl as, h⟩
  | cons b _ ih =>
      cases h with
      | message a h =>
          obtain ⟨as', hp, h'⟩ := ih h
          exact ⟨a :: as', hp.cons a, .message a h'⟩
      | junk hb h =>
          obtain ⟨as', hp, h'⟩ := ih h
          exact ⟨as', hp, .junk hb h'⟩
  | swap b b' bs =>
      cases h with
      | message a h =>
          cases h with
          | message a' h => exact ⟨_, .swap a' a _, .message a' (.message a h)⟩
          | junk hb h => exact ⟨_, .refl _, .junk hb (.message a h)⟩
      | junk hb h =>
          cases h with
          | message a h => exact ⟨_, .refl _, .message a (.junk hb h)⟩
          | junk hb' h => exact ⟨_, .refl _, .junk hb' (.junk hb h)⟩
  | trans _ _ ih₁ ih₂ =>
      obtain ⟨as₁, hp₁, h₁⟩ := ih₁ h
      obtain ⟨as₂, hp₂, h₂⟩ := ih₂ h₁
      exact ⟨as₂, hp₁.trans hp₂, h₂⟩

/-- What happens to the images happens to the messages, or it happened to junk only. -/
theorem Among.disturbs {kind : Disturbance} {as : List α} {bs bs' : List β}
    (h : Among junk image as bs) (hd : Disturbs id kind bs bs') :
    ∃ as', Among junk image as' bs' ∧ (as' = as ∨ Disturbs alter kind as as') := by
  cases hd with
  | lose front b back =>
      obtain ⟨as₁, as₂, h₁, h₂, ⟨a, -, rfl⟩ | ⟨-, rfl⟩⟩ := h.place
      · exact ⟨as₁ ++ as₂, h₁.append h₂, Or.inr (.lose as₁ a as₂)⟩
      · exact ⟨as₁ ++ as₂, h₁.append h₂, Or.inl rfl⟩
  | duplicate front b back =>
      obtain ⟨as₁, as₂, h₁, h₂, ⟨a, rfl, rfl⟩ | ⟨hb, rfl⟩⟩ := h.place
      · exact ⟨as₁ ++ a :: a :: as₂, h₁.append (.message a (.message a h₂)),
          Or.inr (.duplicate as₁ a as₂)⟩
      · exact ⟨as₁ ++ as₂, h₁.append (.junk hb (.junk hb h₂)), Or.inl rfl⟩
  | alter front b back => exact ⟨as, h, Or.inl rfl⟩
  | reorder hperm =>
      obtain ⟨as', hp, h'⟩ := h.perm hperm
      exact ⟨as', h', Or.inr (.reorder hp)⟩

end

end SelectiveRepeat.Channel
