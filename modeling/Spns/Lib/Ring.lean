import Mathlib.Algebra.GroupWithZero.Nat
import Mathlib.Data.List.Basic
import Mathlib.Order.MinMax
import Mathlib.Tactic.Common

/-!
# Nearest positions on a ring

The 64-bit numbers as a ring of positions: going up from the greatest one leads
to zero.  The distance of two positions is the length of the shorter way.  In
an ascending list the nearest element to a position is one of its two
neighbours, the next element up or the next element down.
-/

namespace Spns.Lib.Ring

/-- Length of the way up from a position. -/
def up (position id : UInt64) : Nat :=
  (id - position).toNat

/-- Length of the way down from a position. -/
def down (position id : UInt64) : Nat :=
  (position - id).toNat

/-- The shorter of the two ways. -/
def distance (position id : UInt64) : Nat :=
  min (up position id) (down position id)

/-- The element of the list that is nearest to the position; where two elements
are equally near, it is the one below the position. -/
structure Nearest (position : UInt64) (ids : List UInt64) (id : UInt64) : Prop where
  mem : id ∈ ids
  least : ∀ other ∈ ids, distance position id ≤ distance position other
  below : ∀ other ∈ ids, other ≠ id → distance position other = distance position id →
    distance position id = down position id

variable {position first second id other : UInt64} {ids : List UInt64}

theorem up_eq (position id : UInt64) :
    up position id =
      if position.toNat ≤ id.toNat then id.toNat - position.toNat
      else 2 ^ 64 + id.toNat - position.toNat := by
  have idBound := id.toNat_lt
  have positionBound := position.toNat_lt
  rw [up, UInt64.toNat_sub]
  split_ifs <;> omega

theorem down_eq (position id : UInt64) :
    down position id =
      if id.toNat ≤ position.toNat then position.toNat - id.toNat
      else 2 ^ 64 + position.toNat - id.toNat :=
  up_eq id position

theorem up_injective (position : UInt64) : Function.Injective (up position) := by
  intro first second same
  have firstBound := first.toNat_lt
  have secondBound := second.toNat_lt
  have positionBound := position.toNat_lt
  simp only [up_eq] at same
  rw [← UInt64.toNat_inj]
  split_ifs at same <;> omega

theorem down_injective (position : UInt64) : Function.Injective (down position) := by
  intro first second same
  have firstBound := first.toNat_lt
  have secondBound := second.toNat_lt
  have positionBound := position.toNat_lt
  simp only [down_eq] at same
  rw [← UInt64.toNat_inj]
  split_ifs at same <;> omega

theorem up_self (position : UInt64) : up position position = 0 := by
  rw [up, UInt64.sub_self]
  rfl

theorem down_self (position : UInt64) : down position position = 0 :=
  up_self position

/-- There is only one nearest element. -/
theorem Nearest.unique (nearest : Nearest position ids id) (another : Nearest position ids other) :
    id = other := by
  by_contra different
  have same : distance position id = distance position other :=
    Nat.le_antisymm (nearest.least other another.mem) (another.least id nearest.mem)
  apply different
  apply down_injective position
  rw [← nearest.below other another.mem (Ne.symm different) same.symm,
    ← another.below id nearest.mem different same, same]

/-! ## The neighbours -/

/-- No element is on the way up from the position to this one. -/
structure NextUp (position : UInt64) (ids : List UInt64) (id : UInt64) : Prop where
  mem : id ∈ ids
  least : ∀ other ∈ ids, up position id ≤ up position other

/-- No element is on the way down from the position to this one, which is not
at the position itself. -/
structure NextDown (position : UInt64) (ids : List UInt64) (id : UInt64) : Prop where
  mem : id ∈ ids
  apart : id ≠ position
  least : ∀ other ∈ ids, other ≠ position → down position id ≤ down position other

/-- The nearer of the two neighbours is the nearest element. -/
theorem nearest_of_neighbours {above below : UInt64} (next : NextUp position ids above)
    (previous : NextDown position ids below) :
    Nearest position ids
      (if up position above < down position below then above else below) := by
  split_ifs with nearer
  · -- Every other element is further away in both directions.
    have further : ∀ other ∈ ids, other ≠ above →
        up position above < distance position other := by
      intro other member different
      have upward : up position above < up position other :=
        Nat.lt_of_le_of_ne (next.least other member) fun same =>
          different (up_injective position same).symm
      have notHere : other ≠ position := by
        rintro rfl
        rw [up_self] at upward
        exact Nat.not_lt_zero _ upward
      exact lt_min upward (nearer.trans_le (previous.least other member notHere))
    have near : distance position above ≤ up position above := min_le_left _ _
    constructor
    · exact next.mem
    · intro other member
      by_cases same : other = above
      · rw [same]
      · exact near.trans (further other member same).le
    · intro other member different same
      exact absurd (same ▸ further other member different) (not_lt.mpr near)
  · rw [not_lt] at nearer
    -- An element at the position itself would be nearer.
    have notHere : ∀ other ∈ ids, other ≠ position := by
      rintro other member rfl
      have least := next.least other member
      rw [up_self] at least
      have zero : down other below = down other other := by
        rw [down_self]
        omega
      exact previous.apart (down_injective other zero)
    have away : ∀ other ∈ ids, down position below ≤ distance position other := by
      intro other member
      exact le_min (nearer.trans (next.least other member))
        (previous.least other member (notHere other member))
    constructor
    · exact previous.mem
    · intro other member
      exact (min_le_right _ _).trans (away other member)
    · intro other _ _ _
      exact Nat.le_antisymm (min_le_right _ _) (away below previous.mem)

/-! ## Neighbours in an ascending list

The position splits an ascending list into the elements below it and the rest.
-/

section Ascending

variable {low high : List UInt64}

/-- The first element that is not below the position is the next one up. -/
theorem nextUp_of_high (ascending : (low ++ id :: high).Pairwise (· < ·))
    (below : ∀ other ∈ low, other < position) (here : position ≤ id) :
    NextUp position (low ++ id :: high) id where
  mem := by simp
  least := by
    intro other member
    have idBound := id.toNat_lt
    rw [UInt64.le_iff_toNat_le] at here
    rw [up_eq, up_eq, if_pos here]
    rw [List.mem_append, List.mem_cons] at member
    rcases member with lower | rfl | higher
    · have under := below other lower
      rw [UInt64.lt_iff_toNat_lt] at under
      rw [if_neg (by omega)]
      omega
    · rw [if_pos here]
    · have greater := List.rel_of_pairwise_cons (List.pairwise_append.mp ascending).2.1 higher
      rw [UInt64.lt_iff_toNat_lt] at greater
      rw [if_pos (by omega)]
      omega

/-- Where all elements are below the position, the way up leads through zero to
the first of them. -/
theorem nextUp_of_low (ascending : (id :: low).Pairwise (· < ·))
    (below : ∀ other ∈ id :: low, other < position) : NextUp position (id :: low) id where
  mem := List.mem_cons_self
  least := by
    intro other member
    have idUnder := below id List.mem_cons_self
    have under := below other member
    rw [UInt64.lt_iff_toNat_lt] at idUnder under
    rw [up_eq, up_eq, if_neg (by omega), if_neg (by omega)]
    rcases List.mem_cons.mp member with rfl | later
    · exact Nat.le_refl _
    · have greater := List.rel_of_pairwise_cons ascending later
      rw [UInt64.lt_iff_toNat_lt] at greater
      omega

/-- The last element below the position is the next one down. -/
theorem nextDown_of_low (ascending : (low ++ [id] ++ high).Pairwise (· < ·))
    (here : id < position) (above : ∀ other ∈ high, position ≤ other) :
    NextDown position (low ++ [id] ++ high) id where
  mem := by simp
  apart := by
    rintro rfl
    exact UInt64.lt_irrefl _ here
  least := by
    intro other member different
    have otherBound := other.toNat_lt
    rw [UInt64.lt_iff_toNat_lt] at here
    rw [down_eq, down_eq, if_pos (by omega)]
    rw [List.mem_append, List.mem_append, List.mem_singleton] at member
    rcases member with (lower | rfl) | higher
    · have under := (List.pairwise_append.mp (List.pairwise_append.mp ascending).1).2.2 other lower
        id (List.mem_singleton_self id)
      rw [UInt64.lt_iff_toNat_lt] at under
      rw [if_pos (by omega)]
      omega
    · rw [if_pos (by omega)]
    · have greater := above other higher
      rw [UInt64.le_iff_toNat_le] at greater
      rw [← UInt64.toNat_inj.ne] at different
      rw [if_neg (by omega)]
      omega

/-- Where no element is below the position, the way down leads through zero to
the last of them. -/
theorem nextDown_of_high (ascending : (high ++ [id]).Pairwise (· < ·))
    (above : ∀ other ∈ high, position ≤ other) (several : high ≠ []) :
    NextDown position (high ++ [id]) id := by
  obtain ⟨first, rest, rfl⟩ := List.exists_cons_of_ne_nil several
  have under : ∀ other ∈ first :: rest, other < id := fun other member =>
    (List.pairwise_append.mp ascending).2.2 other member id (List.mem_singleton_self id)
  have firstOver := above first List.mem_cons_self
  have firstUnder := under first List.mem_cons_self
  rw [UInt64.le_iff_toNat_le] at firstOver
  rw [UInt64.lt_iff_toNat_lt] at firstUnder
  refine ⟨by simp, ?_, ?_⟩
  · rintro rfl
    omega
  · intro other member different
    rw [← UInt64.toNat_inj.ne] at different
    rw [down_eq, down_eq, if_neg (by omega)]
    rcases List.mem_append.mp member with early | last
    · have otherOver := above other early
      have otherUnder := under other early
      rw [UInt64.le_iff_toNat_le] at otherOver
      rw [UInt64.lt_iff_toNat_lt] at otherUnder
      rw [if_neg (by omega)]
      omega
    · rw [List.mem_singleton.mp last, if_neg (by omega)]

end Ascending

end Spns.Lib.Ring
