import Mathlib.Data.Int.Order.Basic
import Mathlib.Data.List.Basic
import Spns.Lib.Bencode

/-!
# Decimal texts

Decimal texts determine their numbers, a text of known sign and size can be
cut off the front of a longer text, and a list of texts can be read back from
its comma-separated form.
-/

namespace Spns.Lib.Bencode

theorem isDigit_of_mem_decimalDigits {value : Nat} {byte : UInt8}
    (member : byte ∈ decimalDigits value) : 48 ≤ byte.toNat ∧ byte.toNat ≤ 57 := by
  obtain ⟨digit, inside, rfl⟩ := List.mem_map.mp member
  have bounds := Nat.isDigit_of_mem_toDigits (by decide) (by decide) inside
  simp only [Char.isDigit, Bool.and_eq_true, decide_eq_true_eq] at bounds
  have low : 48 ≤ digit.toNat := bounds.1
  have high : digit.toNat ≤ 57 := bounds.2
  rw [UInt8.toNat_ofNat']
  omega

theorem decimalDigits_ne_nil (value : Nat) : decimalDigits value ≠ [] := by
  rw [decimalDigits, ne_eq, List.map_eq_nil_iff]
  exact Nat.toDigits_ne_nil

/-- A text begins with a digit. -/
theorem exists_decimalDigits_eq_cons (value : Nat) : ∃ digit digits,
    decimalDigits value = digit :: digits ∧ 48 ≤ digit.toNat ∧ digit.toNat ≤ 57 := by
  obtain ⟨digit, digits, split⟩ := List.exists_cons_of_ne_nil (decimalDigits_ne_nil value)
  have member : digit ∈ decimalDigits value := split ▸ List.mem_cons_self
  exact ⟨digit, digits, split, isDigit_of_mem_decimalDigits member⟩

/-- The digits as characters again. -/
theorem map_decimalDigits (value : Nat) :
    (decimalDigits value).map (fun byte => Char.ofNat byte.toNat) = Nat.toDigits 10 value := by
  rw [decimalDigits, List.map_map]
  refine (List.map_congr_left fun digit inside => ?_).trans (List.map_id _)
  have bounds := Nat.isDigit_of_mem_toDigits (by decide) (by decide) inside
  simp only [Char.isDigit, Bool.and_eq_true, decide_eq_true_eq] at bounds
  have high : digit.toNat ≤ 57 := bounds.2
  have small : (UInt8.ofNat digit.toNat).toNat = digit.toNat := by
    rw [UInt8.toNat_ofNat']
    omega
  simp only [Function.comp_apply, small, Char.ofNat_toNat, id_eq]

theorem decimalDigits_injective {first second : Nat}
    (same : decimalDigits first = decimalDigits second) : first = second := by
  have digits : Nat.toDigits 10 first = Nat.toDigits 10 second := by
    rw [← map_decimalDigits, same, map_decimalDigits]
  rw [← @Nat.ofDigitChars_ten_toDigits first, digits, Nat.ofDigitChars_ten_toDigits]

/-- A number between two powers of ten has a text of known size. -/
theorem length_decimalDigits {value : Nat} (digits : Nat) (low : 10 ^ digits ≤ value)
    (high : value < 10 ^ (digits + 1)) : (decimalDigits value).length = digits + 1 := by
  apply Nat.le_antisymm
  · exact length_decimalDigits_le (digits + 1) (Nat.succ_pos digits) high
  · rcases Nat.eq_zero_or_pos digits with rfl | positive
    · exact List.length_pos_iff.mpr (decimalDigits_ne_nil value)
    · by_contra short
      have fits : (Nat.toDigits 10 value).length ≤ digits := by
        rw [decimalDigits, List.length_map] at short
        omega
      have bound := (Nat.length_toDigits_le_iff (by decide) positive).mp fits
      omega

/-! ## Integers -/

theorem intText_of_nonneg {value : Int} (nonneg : 0 ≤ value) :
    intText value = decimalDigits value.natAbs :=
  if_neg (not_lt.mpr nonneg)

theorem intText_of_neg {value : Int} (negative : value < 0) :
    intText value = 45 :: decimalDigits value.natAbs :=
  if_pos negative

/-- Texts that begin alike belong to numbers of the same sign. -/
theorem neg_iff_of_intText_append {first second : Int} {rest others : List UInt8}
    (same : intText first ++ rest = intText second ++ others) : first < 0 ↔ second < 0 := by
  have starts : ∀ {left right : Int} {after more : List UInt8}, left < 0 → ¬right < 0 →
      intText left ++ after ≠ intText right ++ more := by
    intro left right after more negative nonneg equal
    rw [intText_of_neg negative, intText_of_nonneg (not_lt.mp nonneg)] at equal
    obtain ⟨digit, digits, split, low, _⟩ := exists_decimalDigits_eq_cons right.natAbs
    rw [split, List.cons_append, List.cons_append] at equal
    have minus : digit = 45 := (List.cons.inj equal).1.symm
    rw [minus] at low
    exact absurd low (by decide)
  constructor
  · intro negative
    by_contra nonneg
    exact starts negative nonneg same
  · intro negative
    by_contra nonneg
    exact starts negative nonneg same.symm

theorem intText_injective {first second : Int} (same : intText first = intText second) :
    first = second := by
  have signs : first < 0 ↔ second < 0 := by
    apply neg_iff_of_intText_append
    rw [List.append_nil, same]
    exact (List.append_nil _).symm
  by_cases negative : first < 0
  · rw [intText_of_neg negative, intText_of_neg (signs.mp negative)] at same
    have digits := decimalDigits_injective (List.cons.inj same).2
    have other := signs.mp negative
    omega
  · have other := fun later => negative (signs.mpr later)
    rw [intText_of_nonneg (not_lt.mp negative), intText_of_nonneg (not_lt.mp other)] at same
    have digits := decimalDigits_injective same
    omega

theorem comma_not_mem_intText (value : Int) : (44 : UInt8) ∉ intText value := by
  intro member
  have digit : (44 : UInt8) ∉ decimalDigits value.natAbs := by
    intro inside
    exact absurd (isDigit_of_mem_decimalDigits inside).1 (by decide)
  rw [intText] at member
  split_ifs at member
  · rcases List.mem_cons.mp member with minus | inside
    · exact absurd minus (by decide)
    · exact digit inside
  · exact digit member

/-- A comma-separated list of numbers can be read back. -/
theorem intercalate_intText_injective {first second : List Int} (someFirst : first ≠ [])
    (someSecond : second ≠ [])
    (same : List.intercalate [44] (first.map intText) =
      List.intercalate [44] (second.map intText)) : first = second := by
  have free : ∀ numbers : List Int, ∀ text ∈ numbers.map intText, (44 : UInt8) ∉ text := by
    intro numbers text member
    obtain ⟨value, -, rfl⟩ := List.mem_map.mp member
    exact comma_not_mem_intText value
  have texts : first.map intText = second.map intText := by
    rw [← List.splitOn_intercalate 44 (free first) (by simpa using someFirst), same,
      List.splitOn_intercalate 44 (free second) (by simpa using someSecond)]
  exact List.map_injective_iff.mpr (fun _ _ equal => intText_injective equal) texts

end Spns.Lib.Bencode
