import Mathlib.Tactic.Common

/-!
# Computations that can throw

A computation in `Except` succeeds exactly if each of its steps does.  With
this, code that throws is taken apart one statement at a time.
-/

namespace Spns.Lib.Fallible

universe u v

variable {ε : Type u} {α β : Type v}

theorem ok_bind (value : α) (next : α → Except ε β) : (Except.ok value >>= next) = next value :=
  rfl

theorem throw_bind (error : ε) (next : α → Except ε β) :
    ((throw error : Except ε α) >>= next) = .error error :=
  rfl

theorem bind_eq_ok_iff {first : Except ε α} {next : α → Except ε β} {result : β} :
    (first >>= next) = .ok result ↔ ∃ value, first = .ok value ∧ next value = .ok result := by
  constructor
  · intro done
    cases first with
    | error failure => contradiction
    | ok value => exact ⟨value, rfl, done⟩
  · rintro ⟨value, rfl, done⟩
    rw [ok_bind, done]

end Spns.Lib.Fallible
