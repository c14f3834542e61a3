import Spns.Hive.Subscription

/-!
# One subscription covers another

`covers` says whether a subscription delivers everything that another one of the
same account needs.  It walks through both lists of namespaces at once, which
are sorted.

The comparison of the subaccounts that it shares with `is_same` takes two absent
ones for different.  So a subscription of the account itself covers nothing, not
even itself; with a subaccount on either side `covers` decides coverage.
-/

namespace Spns.Hive.Subscription

open Spns

/-- The walk of `covers`: the namespaces that are left of each list. -/
def coversFrom : List Int → List Int → Bool
  | _, [] => true
  | [], _ :: _ => false -- ran out of own namespaces
  | own :: rest, wanted :: others =>
      if own > wanted then false -- at least one is missing
      else if own = wanted then coversFrom rest others
      else coversFrom rest (wanted :: others)

/-- `covers` -/
def covers (sub other : Subscription) : Bool :=
  if Subaccount.isSameOptional sub.subaccount other.subaccount = false then false
  else if other.wantData && !sub.wantData then false
  else coversFrom sub.namespaces other.namespaces

/-- The first subscription has all that the second one needs, apart from the
account or subaccount. -/
structure Supplies (sub other : Subscription) : Prop where
  data : other.wantData = true → sub.wantData = true
  namespaces : other.namespaces ⊆ sub.namespaces

/-- The first subscription covers the second one: they are for the account or
for the same subaccount, and the first one has all that the second one needs. -/
structure Covers (sub other : Subscription) : Prop extends Supplies sub other where
  account : sub.subaccount.map Subaccount.tag = other.subaccount.map Subaccount.tag

/-- On ascending lists the walk decides inclusion. -/
theorem coversFrom_eq_true_iff {own wanted : List Int} (ownSorted : own.Pairwise (· < ·))
    (wantedSorted : wanted.Pairwise (· < ·)) :
    coversFrom own wanted = true ↔ wanted ⊆ own := by
  induction own generalizing wanted with
  | nil =>
      cases wanted with
      | nil => simp [coversFrom]
      | cons head others => simp [coversFrom]
  | cons first rest ih =>
      obtain ⟨firstLeast, restSorted⟩ := List.pairwise_cons.mp ownSorted
      cases wanted with
      | nil => simp [coversFrom]
      | cons head others =>
          obtain ⟨headLeast, othersSorted⟩ := List.pairwise_cons.mp wantedSorted
          rw [coversFrom]
          split_ifs with greater equal
          · -- The head is below everything that is left.
            refine iff_of_false not_false fun included => ?_
            rcases List.mem_cons.mp (included List.mem_cons_self) with same | later
            · exact absurd same (ne_of_lt greater)
            · exact absurd (firstLeast head later) (lt_asymm greater)
          · subst equal
            rw [ih restSorted othersSorted, List.cons_subset]
            constructor
            · exact fun included => ⟨List.mem_cons_self, List.subset_cons_of_subset first included⟩
            · rintro ⟨-, included⟩ ns member
              rcases List.mem_cons.mp (included member) with same | later
              · exact absurd same (ne_of_gt (headLeast ns member))
              · exact later
          · -- Nothing that is wanted is as small as the first own namespace.
            have smaller : first < head := lt_of_le_of_ne (not_lt.mp greater) equal
            rw [ih restSorted wantedSorted]
            constructor
            · exact List.subset_cons_of_subset first
            · intro included ns member
              rcases List.mem_cons.mp (included member) with same | later
              · rcases List.mem_cons.mp member with here | behind
                · exact absurd (same.symm.trans here) (ne_of_lt smaller)
                · exact absurd same (ne_of_gt (smaller.trans (headLeast ns behind)))
              · exact later

/-- What the code decides. -/
theorem covers_eq_true_iff (sub other : Subscription) :
    sub.covers other = true ↔
      Subaccount.isSameOptional sub.subaccount other.subaccount = true ∧ Supplies sub other := by
  have supplies : Supplies sub other ↔
      (other.wantData = true → sub.wantData = true) ∧ other.namespaces ⊆ sub.namespaces :=
    ⟨fun supplies => ⟨supplies.data, supplies.namespaces⟩, fun ⟨data, included⟩ => ⟨data, included⟩⟩
  rw [covers, supplies, ← coversFrom_eq_true_iff sub.sorted other.sorted]
  split_ifs with different missing
  · simp [different]
  · rw [Bool.and_eq_true, Bool.not_eq_true'] at missing
    simp [missing]
  · rw [Bool.not_eq_false] at different
    have data : other.wantData = true → sub.wantData = true := by
      intro wanted
      by_contra absent
      exact missing (by simp [wanted, absent])
    rw [and_iff_right different, and_iff_right data]

theorem Supplies.refl (sub : Subscription) : Supplies sub sub :=
  ⟨id, List.Subset.refl _⟩

theorem Supplies.trans {first second third : Subscription} (supplies : Supplies first second)
    (next : Supplies second third) : Supplies first third :=
  ⟨fun wanted => supplies.data (next.data wanted), List.Subset.trans next.namespaces supplies.namespaces⟩

theorem covers_trans {first second third : Subscription} (covered : first.covers second = true)
    (next : second.covers third = true) : first.covers third = true := by
  rw [covers_eq_true_iff, Subaccount.isSameOptional_eq_true_iff] at covered next ⊢
  obtain ⟨⟨a, b, isFirst, isSecond, same⟩, supplies⟩ := covered
  obtain ⟨⟨c, d, again, isThird, alike⟩, more⟩ := next
  cases isSecond.symm.trans again
  exact ⟨⟨a, d, isFirst, isThird, same.trans alike⟩, supplies.trans more⟩

/-- With a subaccount on either side the comparison is right; without one it
never holds. -/
theorem isSameOptional_iff (first second : Option Subaccount) :
    Subaccount.isSameOptional first second = true ↔
      (first.isSome = true ∨ second.isSome = true) ∧
        first.map Subaccount.tag = second.map Subaccount.tag := by
  rw [Subaccount.isSameOptional_eq_true_iff]
  cases first <;> cases second <;> simp

/-- `covers` decides coverage exactly if one of the two has a subaccount, or the
first one lacks something anyway.  It is reflexive on subscriptions with a
subaccount only, and transitive. -/
theorem covers_decides_iff (sub other third : Subscription) :
    ((sub.covers other = true ↔ Covers sub other) ↔
        sub.subaccount.isSome = true ∨ other.subaccount.isSome = true ∨ ¬Supplies sub other) ∧
      (sub.covers sub = true ↔ sub.subaccount.isSome = true) ∧
      (sub.covers other = true → other.covers third = true → sub.covers third = true) := by
  refine ⟨?_, ?_, covers_trans⟩
  · have spec : Covers sub other ↔
        sub.subaccount.map Subaccount.tag = other.subaccount.map Subaccount.tag ∧
          Supplies sub other :=
      ⟨fun covers => ⟨covers.account, covers.toSupplies⟩, fun ⟨account, supplies⟩ => ⟨supplies, account⟩⟩
    rw [covers_eq_true_iff, isSameOptional_iff, spec, ← or_assoc]
    by_cases delegated : sub.subaccount.isSome = true ∨ other.subaccount.isSome = true
    · exact iff_of_true (by rw [and_iff_right delegated]) (Or.inl delegated)
    · have absent : sub.subaccount.map Subaccount.tag = other.subaccount.map Subaccount.tag := by
        simp only [not_or, Option.not_isSome_iff_eq_none] at delegated
        rw [delegated.1, delegated.2]
      rw [or_iff_right delegated]
      simp [delegated, absent]
  · rw [covers_eq_true_iff, isSameOptional_iff, or_self, and_iff_left rfl,
      and_iff_left (Supplies.refl sub)]

/-- A subscription of the account itself does not cover itself. -/
theorem not_covers_self_of_account :
    ¬((single 0 1700000000 (FixedBytes.replicate 64 7)).covers
          (single 0 1700000000 (FixedBytes.replicate 64 7)) = true ↔
        Covers (single 0 1700000000 (FixedBytes.replicate 64 7))
          (single 0 1700000000 (FixedBytes.replicate 64 7))) := by
  intro decides
  have covered := decides.mpr ⟨Supplies.refl _, rfl⟩
  contradiction

end Spns.Hive.Subscription
