import Mathlib.Data.List.AList
import Mathlib.Data.List.Perm.Basic

/-!
# Unordered containers

Finite maps are Mathlib's association lists with unique keys, at a constant
value type.  This file adds the operations on values that those lists lack
and an explicit iteration order: a loop over an unordered container visits its
entries in an order chosen by an oracle, a list of picks, so that a statement
about all oracles is a statement about all orders.
-/

namespace Spns.Lib.Unordered

universe u v w

/-- A finite map with unique keys. -/
abbrev Map (κ : Type u) (ν : Type v) := AList (fun _ : κ => ν)

namespace Map

variable {κ : Type u} {ν : Type v} {ω : Type w}

/-- Apply a function to every value, keeping the keys in place. -/
def mapVal (f : κ → ν → ω) (map : Map κ ν) : Map κ ω where
  entries := map.entries.map (Sigma.map id f)
  nodupKeys := map.nodupKeys.map₂ f map.entries

/-- Keep the entries that satisfy a test. -/
def filter (keep : κ → ν → Bool) (map : Map κ ν) : Map κ ν where
  entries := map.entries.filter fun entry => keep entry.1 entry.2
  nodupKeys := map.nodupKeys.sublist List.filter_sublist

variable [DecidableEq κ]

/-- The value at a key, or a default where the key is absent. -/
def getD (map : Map κ ν) (key : κ) (default : ν) : ν :=
  (map.lookup key).getD default

@[simp]
theorem lookup_mapVal (f : κ → ν → ω) (map : Map κ ν) (key : κ) :
    (map.mapVal f).lookup key = (map.lookup key).map (f key) :=
  List.dlookup_map₂ key

theorem mem_entries_iff_lookup (map : Map κ ν) (key : κ) (value : ν) :
    (⟨key, value⟩ : Sigma fun _ : κ => ν) ∈ map.entries ↔ map.lookup key = some value :=
  (List.mem_dlookup_iff map.nodupKeys).symm

theorem lookup_filter_eq_some_iff (keep : κ → ν → Bool) (map : Map κ ν) (key : κ) (value : ν) :
    (map.filter keep).lookup key = some value ↔
      map.lookup key = some value ∧ keep key value = true := by
  rw [← mem_entries_iff_lookup, ← mem_entries_iff_lookup]
  simp [filter]

theorem lookup_insert_eq (map : Map κ ν) (key other : κ) (value : ν) :
    (map.insert key value).lookup other = if other = key then some value else map.lookup other := by
  by_cases equal : other = key
  · subst equal
    simp [AList.lookup_insert]
  · simp [AList.lookup_insert_ne equal, equal]

theorem lookup_erase_eq (map : Map κ ν) (key other : κ) :
    (map.erase key).lookup other = if other = key then none else map.lookup other := by
  by_cases equal : other = key
  · subst equal
    simp [AList.lookup_erase]
  · simp [AList.lookup_erase_ne equal, equal]

end Map

/-! ## Iteration order -/

/-- Pull the element at position `index` to the front. -/
def pick {α : Type u} (index : Nat) (items : List α) : List α :=
  match items[index]? with
  | some item => item :: items.eraseIdx index
  | none => items

theorem pick_perm {α : Type u} (index : Nat) (items : List α) : (pick index items).Perm items := by
  rw [pick]
  split
  · rename_i item found
    obtain ⟨bound, rfl⟩ := List.getElem?_eq_some_iff.mp found
    exact List.getElem_cons_eraseIdx_perm bound
  · exact List.Perm.refl items

/-- Reorder a list by a list of picks: each pick selects one of the elements
that are left.  Elements without a pick keep their order. -/
def shuffle {α : Type u} : List Nat → List α → List α
  | [], items => items
  | index :: picks, items =>
      match pick index items with
      | [] => []
      | item :: rest => item :: shuffle picks rest

theorem shuffle_perm {α : Type u} (picks : List Nat) (items : List α) :
    (shuffle picks items).Perm items := by
  induction picks generalizing items with
  | nil => exact List.Perm.refl items
  | cons index picks ih =>
      rw [shuffle]
      have picked := pick_perm index items
      cases front : pick index items with
      | nil => simpa [front] using picked
      | cons item rest =>
          rw [front] at picked
          exact ((ih rest).cons item).trans picked

@[simp]
theorem mem_shuffle {α : Type u} {picks : List Nat} {items : List α} {item : α} :
    item ∈ shuffle picks items ↔ item ∈ items :=
  (shuffle_perm picks items).mem_iff

@[simp]
theorem shuffle_nil_picks {α : Type u} (items : List α) : shuffle [] items = items :=
  rfl

/-- Every order of a list is the one some oracle chooses. -/
theorem exists_shuffle_eq {α : Type u} {items order : List α} (perm : order.Perm items) :
    ∃ picks, shuffle picks items = order := by
  induction order generalizing items with
  | nil => exact ⟨[], by simpa using perm.symm.eq_nil⟩
  | cons item order ih =>
      have member : item ∈ items := perm.subset List.mem_cons_self
      obtain ⟨index, bound, found⟩ := List.getElem_of_mem member
      have picked : pick index items = item :: items.eraseIdx index := by
        simp [pick, List.getElem?_eq_getElem bound, found]
      have rest : order.Perm (items.eraseIdx index) := by
        have whole := pick_perm index items
        rw [picked] at whole
        exact (List.perm_cons item).mp (perm.trans whole.symm)
      obtain ⟨picks, shuffled⟩ := ih rest
      exact ⟨index :: picks, by simp [shuffle, picked, shuffled]⟩

end Spns.Lib.Unordered
