import Outreach.Answer

/-!
# Answers of operations in a row

An operation that asks others in a row answers only if each of them does, and its answer is made of
theirs. What an operation has done is read off its answer in this way, call by call.
-/

namespace Outreach.Answer

variable {α β : Type}

theorem bind_eq_ok {x : Answer α} {f : α → Answer β} {b : β} :
    (x >>= f) = .ok b ↔ ∃ a, x = .ok a ∧ f a = .ok b := by
  cases x with
  | error e =>
    constructor
    · rintro ⟨⟩
    · rintro ⟨a, ha, _⟩
      cases ha
  | ok a =>
    constructor
    · intro h
      exact ⟨a, rfl, h⟩
    · rintro ⟨c, hc, h⟩
      cases hc
      exact h

theorem pure_eq_ok {a b : α} : (pure a : Answer α) = .ok b ↔ a = b :=
  ⟨fun h => Except.ok.inj h, fun h => congrArg Except.ok h⟩

instance [DecidableEq α] : DecidableEq (Answer α)
  | .ok a, .ok b => decidable_of_iff (a = b) ⟨congrArg Except.ok, Except.ok.inj⟩
  | .error e, .error f => decidable_of_iff (e = f) ⟨congrArg Except.error, Except.error.inj⟩
  | .ok _, .error _ => isFalse (by rintro ⟨⟩)
  | .error _, .ok _ => isFalse (by rintro ⟨⟩)

theorem throw_ne_ok {e : Error} {b : α} : (throw e : Answer α) ≠ .ok b := by
  rintro ⟨⟩

/-! ## Two operations side by side -/

/-- Both operations answer, and their answers are related, or both fail with the same error. -/
inductive Rel {β : Type} (R : α → β → Prop) : Answer α → Answer β → Prop
  | ok {a : α} {b : β} (related : R a b) : Rel R (.ok a) (.ok b)
  | error (e : Error) : Rel R (.error e) (.error e)

theorem Rel.refl {R : α → α → Prop} (h : ∀ a, R a a) (x : Answer α) : Rel R x x := by
  cases x with
  | error e => exact .error e
  | ok a => exact .ok (h a)

theorem Rel.both {R : α → β → Prop} {x : Answer α} {y : Answer β} (h : Rel R x y) :
    (∃ a b, x = .ok a ∧ y = .ok b ∧ R a b) ∨ ∃ e, x = .error e ∧ y = .error e := by
  cases h with
  | ok related => exact Or.inl ⟨_, _, rfl, rfl, related⟩
  | error e => exact Or.inr ⟨e, rfl, rfl⟩

theorem Rel.bind {γ δ : Type} {R : α → β → Prop} {Q : γ → δ → Prop} {x : Answer α} {y : Answer β}
    {f : α → Answer γ} {g : β → Answer δ} (h : Rel R x y)
    (later : ∀ a b, R a b → Rel Q (f a) (g b)) : Rel Q (x >>= f) (y >>= g) := by
  cases h with
  | ok related => exact later _ _ related
  | error e => exact .error e

end Outreach.Answer
