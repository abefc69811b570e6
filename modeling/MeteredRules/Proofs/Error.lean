import MeteredRules.Error

/-!
# Errors and sequences that may fail

A sequence gives a value only if each of its parts does. With a state, it keeps the state that its
first failing part left.

Errors come in six variants. The forms that an error leaves never change its variant.
-/

namespace MeteredRules.Error

variable {α β : Type}

@[simp]
theorem ok_bind (value : α) (next : α → Except Error β) : (Except.ok value >>= next) = next value :=
  rfl

@[simp]
theorem error_bind (error : Error) (next : α → Except Error β) :
    (Except.error error >>= next) = .error error :=
  rfl

theorem bind_eq_ok_iff {first : Except Error α} {next : α → Except Error β} {result : β} :
    (first >>= next) = .ok result ↔ ∃ value, first = .ok value ∧ next value = .ok result := by
  cases first with
  | error error => simp
  | ok value => simp

theorem run_bind {ε σ : Type} (first : ExceptT ε (StateM σ) α)
    (next : α → ExceptT ε (StateM σ) β) (state : σ) :
    (first >>= next).run state =
      match first.run state with
      | (.ok value, left) => (next value).run left
      | (.error error, left) => (.error error, left) := by
  change ExceptT.bindCont next (first.run state).1 (first.run state).2 = _
  rcases first.run state with ⟨error | value, left⟩
  · rfl
  · rfl

/-- The variants of errors. -/
inductive Variant where
  | parse
  | argument
  | arity
  | budget
  | unbound
  | evaluation
deriving DecidableEq

/-- The variant of an error. -/
def variant : Error → Variant
  | .parse _ => .parse
  | .argument _ _ => .argument
  | .arity _ _ _ => .arity
  | .budget _ => .budget
  | .unbound _ => .unbound
  | .evaluation _ _ => .evaluation

end MeteredRules.Error
