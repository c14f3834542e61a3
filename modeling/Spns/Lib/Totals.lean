import Mathlib.Algebra.BigOperators.Group.List.Basic
import Mathlib.Algebra.Order.Ring.Int
import Spns.Lib.Unordered

/-!
# Totals over maps

A quantity that every value of a map has is added up over the map.  Changing the
value of one key changes the total by the difference.
-/

namespace Spns.Lib.Unordered.Map

universe u v

variable {κ : Type u} {ν : Type v} [DecidableEq κ] {map : Map κ ν} {key : κ} {value : ν}

/-- A quantity over all values. -/
def total (quantity : ν → Int) (map : Map κ ν) : Int :=
  (map.entries.map fun entry => quantity entry.2).sum

/-- An entry and the others. -/
theorem entries_perm_of_lookup (found : map.lookup key = some value) :
    map.entries.Perm (⟨key, value⟩ :: (map.erase key).entries) := by
  have member : key ∈ map := AList.lookup_isSome.mp (found ▸ rfl)
  obtain ⟨other, before, after, -, split, erased⟩ := List.exists_of_kerase member
  have same : other = value := by
    have listed : (⟨key, other⟩ : Sigma fun _ : κ => ν) ∈ map.entries := by
      rw [split]
      exact List.mem_append_right _ List.mem_cons_self
    rw [mem_entries_iff_lookup, found] at listed
    exact (Option.some.inj listed).symm
  have left : (map.erase key).entries = before ++ after := erased
  rw [left, split, same]
  exact List.perm_middle

theorem entries_erase_of_none (found : map.lookup key = none) :
    (map.erase key).entries = map.entries :=
  List.kerase_of_notMem_keys (AList.lookup_eq_none.mp found)

theorem length_erase_of_some (found : map.lookup key = some value) :
    (map.erase key).entries.length + 1 = map.entries.length :=
  (entries_perm_of_lookup found).length_eq.symm

theorem length_insert_of_some (found : map.lookup key = some value) (other : ν) :
    (map.insert key other).entries.length = map.entries.length :=
  length_erase_of_some found

theorem length_insert_of_none (found : map.lookup key = none) (other : ν) :
    (map.insert key other).entries.length = map.entries.length + 1 :=
  congrArg (fun entries => entries.length + 1) (entries_erase_of_none found)

variable {quantity : ν → Int}

theorem total_erase (found : map.lookup key = some value) :
    total quantity (map.erase key) = total quantity map - quantity value := by
  have whole := ((entries_perm_of_lookup found).map fun entry => quantity entry.2).sum_eq
  rw [List.map_cons, List.sum_cons] at whole
  exact eq_sub_of_add_eq ((add_comm _ _).trans whole.symm)

theorem total_insert_of_some (found : map.lookup key = some value) (other : ν) :
    total quantity (map.insert key other) =
      total quantity map - quantity value + quantity other := by
  rw [← total_erase found]
  exact List.sum_cons.trans (add_comm _ _)

theorem total_insert_of_none (found : map.lookup key = none) (other : ν) :
    total quantity (map.insert key other) = total quantity map + quantity other := by
  have same : total quantity (map.erase key) = total quantity map := by
    rw [total, total, entries_erase_of_none found]
  rw [← same]
  exact List.sum_cons.trans (add_comm _ _)

end Spns.Lib.Unordered.Map
