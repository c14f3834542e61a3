import Mathlib.Tactic.Common

/-!
# Counting the elements of a changing list

A counter that should equal the number of list elements with some property has
to follow every change of an element.  The rules below say by how much.
-/

namespace Spns.Lib.Count

variable {α : Type} (p : α → Bool) {items : List α} {index : Nat} {item : α}

/-- Changing one element changes the count by that element. -/
theorem countP_modify (f : α → α) (found : items[index]? = some item) :
    (items.modify index f).countP p + (if p item then 1 else 0) =
      items.countP p + if p (f item) then 1 else 0 := by
  induction items generalizing index with
  | nil => simp at found
  | cons first rest ih =>
      cases index with
      | zero =>
          cases found
          simp only [List.modify_zero_cons, List.countP_cons]
          omega
      | succ index =>
          have later := ih (show rest[index]? = some item from found)
          simp only [List.modify_succ_cons, List.countP_cons]
          omega

/-- Replacing one element by another of the same kind. -/
theorem countP_set (found : items[index]? = some item) (other : α) :
    (items.set index other).countP p + (if p item then 1 else 0) =
      items.countP p + if p other then 1 else 0 := by
  have same : items.set index other = items.modify index fun _ => other := by
    have : Inhabited α := ⟨item⟩
    rw [List.modify_eq_set]
  rw [same]
  exact countP_modify p (fun _ => other) found

end Spns.Lib.Count
