import Mathlib.Data.List.Basic
import Spns.Lib.Decimal

/-!
# The contents of an encoded dictionary

A dictionary is read from front to back, and only as far as the reader wants to
go: what comes later may be anything.  Its contents are therefore a list of
entries that ends either in the end mark or in bytes that cannot be read.  Keys
that are looked for in ascending order are found from wherever the previous one
was, so each of them has one meaning for the dictionary as a whole.
-/

namespace Spns.Lib.Bencode

/-- A value of a dictionary; lists, dictionaries and what cannot be read are not
told apart. -/
inductive Item
  | string (text : List UInt8)
  | integer (value : Int)
  | other
  deriving DecidableEq

/-- The entries of a dictionary as far as they can be read. -/
inductive Contents
  | finished
  | unreadable
  | entry (key : List UInt8) (item : Item) (rest : Contents)
  deriving DecidableEq

namespace Contents

/-- Go to a key among ascending keys.  The result is `none` when the entries
before the key cannot be read, and holds the value of the key and the entries
after it when the dictionary has the key. -/
def seek : Contents → List UInt8 → Option (Option (Item × Contents))
  | finished, _ => some none
  | unreadable, _ => none
  | entry next item rest, key =>
      if next = key then some (some (item, rest))
      else if key < next then some none
      else rest.seek key

/-- The value of a key. -/
def lookup (contents : Contents) (key : List UInt8) : Option (Option Item) :=
  (contents.seek key).map (Option.map Prod.fst)

/-- Nothing is lost by going on from the entries after a key: a later key has
the same value there. -/
theorem seek_of_seek {contents rest : Contents} {key later : List UInt8} {item : Item}
    (found : contents.seek key = some (some (item, rest))) (ascending : key < later) :
    rest.seek later = contents.seek later := by
  induction contents with
  | finished => simp [seek] at found
  | unreadable => simp [seek] at found
  | entry next value entries ih =>
      rw [seek] at found
      rw [seek]
      split_ifs at found with here absent
      · cases found
        have other : next ≠ later := by
          rintro rfl
          exact List.lt_irrefl _ (here ▸ ascending)
        have before : ¬later < next := by
          intro smaller
          exact List.lt_irrefl _ (List.lt_trans ascending (here ▸ smaller))
        rw [if_neg other, if_neg before]
      · simp at found
      · have other : next ≠ later := by
          rintro rfl
          exact absent ascending
        have before : ¬later < next := fun smaller => absent (List.lt_trans ascending smaller)
        rw [if_neg other, if_neg before]
        exact ih found

end Contents

/-! ## The reader shortens its input -/

theorem readNat_shortens {bytes rest : List UInt8} {value : Nat}
    (read : readNat bytes = some (value, rest)) : rest.length < bytes.length := by
  rw [readNat] at read
  split at read
  · contradiction
  · rename_i digits
    cases read
    have some_digit : 0 < (bytes.takeWhile isDigit).length := List.length_pos_iff.mpr digits
    have inside : (bytes.takeWhile isDigit).length ≤ bytes.length :=
      (List.takeWhile_sublist _).length_le
    rw [List.length_drop]
    omega

theorem readString_shortens {bytes text rest : List UInt8}
    (read : readString bytes = some (text, rest)) : rest.length < bytes.length := by
  rw [readString] at read
  split at read
  · rename_i size after sized
    have shorter := readNat_shortens sized
    split at read
    · cases read
      rw [List.length_cons] at shorter
      rw [List.length_drop]
      omega
    · contradiction
  · contradiction

theorem readMagnitude_shortens {bytes rest : List UInt8} {value : Nat}
    (read : readMagnitude bytes = some (value, rest)) : rest.length < bytes.length := by
  rw [readMagnitude] at read
  split at read
  · rename_i number after sized
    have shorter := readNat_shortens sized
    cases read
    rw [List.length_cons] at shorter
    omega
  · contradiction

theorem readInt_shortens {bytes rest : List UInt8} {value : Int}
    (read : readInt bytes = some (value, rest)) : rest.length < bytes.length := by
  unfold readInt at read
  split at read
  · obtain ⟨magnitude, number, same⟩ := Option.map_eq_some_iff.mp read
    have shorter := readMagnitude_shortens number
    cases same
    simp only [List.length_cons]
    omega
  · obtain ⟨magnitude, number, same⟩ := Option.map_eq_some_iff.mp read
    have shorter := readMagnitude_shortens number
    cases same
    simp only [List.length_cons]
    omega
  · contradiction

theorem skip_shortens {fuel depth : Nat} {bytes rest : List UInt8}
    (skipped : skip fuel depth bytes = some rest) : rest.length < bytes.length := by
  induction fuel generalizing depth bytes with
  | zero => simp [skip] at skipped
  | succ fuel ih =>
      unfold skip at skipped
      split at skipped
      · -- an end mark closes a list or a dictionary
        split at skipped
        · contradiction
        · cases skipped
          exact Nat.lt_succ_self _
        · exact Nat.lt_succ_of_lt (ih skipped)
      · exact Nat.lt_succ_of_lt (ih skipped)
      · exact Nat.lt_succ_of_lt (ih skipped)
      · split at skipped
        · rename_i read
          have shorter := readInt_shortens read
          split_ifs at skipped
          · cases skipped
            exact shorter
          · exact Nat.lt_trans (ih skipped) shorter
        · contradiction
      · split at skipped
        · rename_i read
          have shorter := readString_shortens read
          split_ifs at skipped
          · cases skipped
            exact shorter
          · exact Nat.lt_trans (ih skipped) shorter
        · contradiction

/-- Fuel beyond the size of the input makes no difference. -/
theorem skip_eq_skip {fuel other depth : Nat} {bytes : List UInt8} (enough : bytes.length < fuel)
    (alsoEnough : bytes.length < other) : skip fuel depth bytes = skip other depth bytes := by
  induction fuel generalizing other depth bytes with
  | zero => omega
  | succ fuel ih =>
      cases other with
      | zero => omega
      | succ other =>
          unfold skip
          split
          · rename_i rest
            rw [List.length_cons] at enough alsoEnough
            split
            · rfl
            · rfl
            · exact ih (by omega) (by omega)
          · rw [List.length_cons] at enough alsoEnough
            exact ih (by omega) (by omega)
          · rw [List.length_cons] at enough alsoEnough
            exact ih (by omega) (by omega)
          · split
            · rename_i read
              have shorter := readInt_shortens read
              rw [@ih other depth _ (by omega) (by omega)]
            · rfl
          · split
            · rename_i read
              have shorter := readString_shortens read
              rw [@ih other depth _ (by omega) (by omega)]
            · rfl

/-! ## The contents that the reader sees -/

/-- The value that starts here. -/
def readItem (bytes : List UInt8) : Item :=
  match readString bytes with
  | some (text, _) => .string text
  | none =>
      match readInt bytes with
      | some (value, _) => .integer value
      | none => .other

/-- The entries that start here, as many as there is fuel for. -/
def readEntries : (fuel : Nat) → List UInt8 → Contents
  | 0, _ => .unreadable
  | fuel + 1, bytes =>
      if bytes.head? = some 101 then .finished
      else
        match readString bytes with
        | none => .unreadable
        | some (key, rest) =>
            .entry key (readItem rest) <|
              match skip (rest.length + 1) 0 rest with
              | some after => readEntries fuel after
              | none => .unreadable

/-- All the entries that start here. -/
def entries (bytes : List UInt8) : Contents :=
  readEntries (bytes.length + 1) bytes

/-- The entries after the value that starts here. -/
def entriesAfter (bytes : List UInt8) : Contents :=
  match skip (bytes.length + 1) 0 bytes with
  | some after => entries after
  | none => .unreadable

/-- The contents of a whole dictionary, where there is one. -/
def dictContents : List UInt8 → Option Contents
  | 100 :: rest => some (entries rest)
  | _ => none

theorem readEntries_eq {fuel other : Nat} {bytes : List UInt8} (enough : bytes.length < fuel)
    (alsoEnough : bytes.length < other) : readEntries fuel bytes = readEntries other bytes := by
  induction fuel generalizing other bytes with
  | zero => omega
  | succ fuel ih =>
      cases other with
      | zero => omega
      | succ other =>
          unfold readEntries
          split
          · rfl
          · split
            · rfl
            · rename_i read
              have shorter := readString_shortens read
              congr 1
              split
              · rename_i skipped
                have further := skip_shortens skipped
                exact ih (by omega) (by omega)
              · rfl

theorem entries_of_readString {bytes key rest : List UInt8} (open_ : bytes.head? ≠ some 101)
    (read : readString bytes = some (key, rest)) :
    entries bytes = .entry key (readItem rest) (entriesAfter rest) := by
  have shorter := readString_shortens read
  rw [entries, readEntries, if_neg open_, read, entriesAfter]
  simp only
  congr 1
  split
  · rename_i skipped
    have further := skip_shortens skipped
    exact readEntries_eq (by omega) (by omega)
  · rfl

/-- Skipping to a key finds what the contents hold for it, and stops at its
value. -/
theorem skipUntil_eq_seek {fuel : Nat} {bytes : List UInt8} (enough : bytes.length < fuel)
    (key : List UInt8) :
    (skipUntil fuel bytes key).map
        (fun result => if result.1 then some (readItem result.2, entriesAfter result.2) else none) =
      (entries bytes).seek key := by
  induction fuel generalizing bytes with
  | zero => omega
  | succ fuel ih =>
      rw [skipUntil]
      by_cases closed : bytes.head? = some 101
      · rw [if_pos closed, entries, readEntries, if_pos closed]
        rfl
      · rw [if_neg closed]
        cases read : readString bytes with
        | none =>
            rw [entries, readEntries, if_neg closed, read]
            rfl
        | some result =>
            obtain ⟨next, rest⟩ := result
            have shorter := readString_shortens read
            rw [entries_of_readString closed read, Contents.seek]
            simp only
            split_ifs with here before
            · rfl
            · rfl
            · rw [entriesAfter, skip_eq_skip shorter (Nat.lt_succ_self rest.length)]
              cases skipped : skip (rest.length + 1) 0 rest with
              | none => rfl
              | some after =>
                  have further := skip_shortens skipped
                  exact ih (by omega)

/-! ## Consuming a value -/

theorem readNat_of_not_digit {byte : UInt8} {bytes : List UInt8} (other : isDigit byte = false) :
    readNat (byte :: bytes) = none := by
  simp [readNat, other]

theorem readString_of_not_digit {byte : UInt8} {bytes : List UInt8}
    (other : isDigit byte = false) : readString (byte :: bytes) = none := by
  rw [readString, readNat_of_not_digit other]

/-- A string that is consumed is the value, and the entries go on after it. -/
theorem entriesAfter_of_readString {bytes text rest : List UInt8}
    (read : readString bytes = some (text, rest)) : entriesAfter bytes = entries rest := by
  have skipped : skip (bytes.length + 1) 0 bytes = some rest := by
    unfold skip
    split
    · rw [readString_of_not_digit (by decide)] at read
      contradiction
    · rw [readString_of_not_digit (by decide)] at read
      contradiction
    · rw [readString_of_not_digit (by decide)] at read
      contradiction
    · rw [readString_of_not_digit (by decide)] at read
      contradiction
    · rw [read]
      rfl
  rw [entriesAfter, skipped]

theorem readItem_of_readString {bytes text rest : List UInt8}
    (read : readString bytes = some (text, rest)) : readItem bytes = .string text := by
  rw [readItem, read]

theorem readItem_ne_string {bytes : List UInt8} (read : readString bytes = none)
    (text : List UInt8) : readItem bytes ≠ .string text := by
  rw [readItem, read]
  simp only
  split <;> exact Item.noConfusion

/-- An encoded integer begins with its mark. -/
theorem exists_of_readInt {bytes rest : List UInt8} {value : Int}
    (read : readInt bytes = some (value, rest)) : ∃ digits, bytes = 105 :: digits := by
  unfold readInt at read
  split at read
  · exact ⟨_, rfl⟩
  · exact ⟨_, rfl⟩
  · contradiction

/-- An integer that is consumed is the value, and the entries go on after it. -/
theorem entriesAfter_of_readInt {bytes rest : List UInt8} {value : Int}
    (read : readInt bytes = some (value, rest)) : entriesAfter bytes = entries rest := by
  obtain ⟨digits, rfl⟩ := exists_of_readInt read
  have skipped : skip ((105 :: digits).length + 1) 0 (105 :: digits) = some rest := by
    simp [skip, read]
  rw [entriesAfter, skipped]

theorem readItem_of_readInt {bytes rest : List UInt8} {value : Int}
    (read : readInt bytes = some (value, rest)) : readItem bytes = .integer value := by
  obtain ⟨digits, rfl⟩ := exists_of_readInt read
  rw [readItem, readString_of_not_digit (by decide), read]

theorem readItem_ne_integer {bytes : List UInt8} (read : readInt bytes = none)
    (value : Int) : readItem bytes ≠ .integer value := by
  rw [readItem]
  split
  · exact Item.noConfusion
  · rw [read]
    exact Item.noConfusion

/-! ## Reading back what was encoded -/

/-- The digits of a number stand for it. -/
theorem digitsValue_decimalDigits (value : Nat) : digitsValue (decimalDigits value) = value := by
  have chars : Nat.ofDigitChars 10 (Nat.toDigits 10 value) 0 = value :=
    Nat.ofDigitChars_ten_toDigits
  rw [← map_decimalDigits, Nat.ofDigitChars, List.foldl_map] at chars
  refine Eq.trans ?_ chars
  apply List.foldl_ext
  intro total digit member
  have bounds := isDigit_of_mem_decimalDigits member
  have valid : digit.toNat.isValidChar := Or.inl (by omega)
  have same : (Char.ofNat digit.toNat).toNat = digit.toNat := by
    rw [Char.ofNat, dif_pos valid]
    rfl
  rw [same]
  rfl

theorem isDigit_decimalDigits (value : Nat) :
    ∀ digit ∈ decimalDigits value, isDigit digit = true := by
  intro digit member
  have bounds := isDigit_of_mem_decimalDigits member
  rw [isDigit, decide_eq_true_eq, UInt8.le_iff_toNat_le, UInt8.le_iff_toNat_le]
  exact bounds

/-- An encoded number is read up to the first byte that is not a digit. -/
theorem readNat_decimalDigits (value : Nat) {byte : UInt8} (other : isDigit byte = false)
    (rest : List UInt8) :
    readNat (decimalDigits value ++ byte :: rest) = some (value, byte :: rest) := by
  have taken : (decimalDigits value ++ byte :: rest).takeWhile isDigit = decimalDigits value := by
    rw [List.takeWhile_append_of_pos (isDigit_decimalDigits value),
      List.takeWhile_cons_of_neg (by simp [other]), List.append_nil]
  rw [readNat, taken, if_neg (decimalDigits_ne_nil value), digitsValue_decimalDigits, List.drop_left]

/-- The usual encoding of a string. -/
theorem isString_decimalDigits (text : List UInt8) :
    IsString (decimalDigits text.length) text where
  some_digit := decimalDigits_ne_nil text.length
  decimal := isDigit_decimalDigits text.length
  size := digitsValue_decimalDigits text.length

theorem readString_encodeString (text rest : List UInt8) :
    readString (encodeString text ++ rest) = some (text, rest) := by
  rw [encodeString, List.append_assoc, List.cons_append, readString,
    readNat_decimalDigits text.length (by decide)]
  simp

theorem readInt_encodeInt (value : Int) (rest : List UInt8) :
    readInt (encodeInt value ++ rest) = some (value, rest) := by
  have magnitude : readMagnitude (decimalDigits value.natAbs ++ 101 :: rest) =
      some (value.natAbs, rest) := by
    rw [readMagnitude, readNat_decimalDigits value.natAbs (by decide)]
    rfl
  have shape : encodeInt value ++ rest = 105 :: (intText value ++ 101 :: rest) := by
    simp [encodeInt]
  rw [shape]
  by_cases negative : value < 0
  · rw [intText_of_neg negative, List.cons_append, readInt, magnitude, Option.map_some]
    have same : -(value.natAbs : Int) = value := by omega
    rw [same]
  · rw [intText_of_nonneg (not_lt.mp negative)]
    have same : (value.natAbs : Int) = value := by omega
    unfold readInt
    split
    · rename_i shape
      obtain ⟨digit, digits, begins, low, _⟩ := exists_decimalDigits_eq_cons value.natAbs
      rw [begins] at shape
      have minus : digit = 45 := (List.cons.inj (List.cons.inj shape).2).1
      rw [minus] at low
      exact absurd low (by decide)
    · rename_i shape
      cases shape
      rw [magnitude, Option.map_some, same]
    · rename_i noMark
      exact absurd rfl (noMark _)

/-- The bytes are read as this value, and nothing after them is touched. -/
def Encodes (bytes : List UInt8) (item : Item) : Prop :=
  ∀ rest, readItem (bytes ++ rest) = item ∧ entriesAfter (bytes ++ rest) = entries rest

theorem encodes_encodeString (text : List UInt8) : Encodes (encodeString text) (.string text) := by
  intro rest
  have read := readString_encodeString text rest
  exact ⟨readItem_of_readString read, entriesAfter_of_readString read⟩

theorem encodes_encodeInt (value : Int) : Encodes (encodeInt value) (.integer value) := by
  intro rest
  have read := readInt_encodeInt value rest
  exact ⟨readItem_of_readInt read, entriesAfter_of_readInt read⟩

theorem entries_encodeEntry {value : List UInt8} {item : Item} (encodes : Encodes value item)
    (key rest : List UInt8) :
    entries (Producer.encodeEntry (key, value) ++ rest) = .entry key item (entries rest) := by
  have read := readString_encodeString key (value ++ rest)
  have open_ : (encodeString key ++ (value ++ rest)).head? ≠ some 101 := by
    obtain ⟨digit, digits, begins, _, high⟩ := exists_decimalDigits_eq_cons key.length
    rw [encodeString, begins]
    intro mark
    cases Option.some.inj mark
    exact absurd high (by decide)
  rw [Producer.encodeEntry, List.append_assoc, entries_of_readString open_ read, (encodes rest).1,
    (encodes rest).2]

theorem entries_string (key text rest : List UInt8) :
    entries (Producer.encodeEntry (key, encodeString text) ++ rest) =
      .entry key (.string text) (entries rest) :=
  entries_encodeEntry (encodes_encodeString text) key rest

theorem entries_integer (key : List UInt8) (value : Int) (rest : List UInt8) :
    entries (Producer.encodeEntry (key, encodeInt value) ++ rest) =
      .entry key (.integer value) (entries rest) :=
  entries_encodeEntry (encodes_encodeInt value) key rest

theorem entries_end (rest : List UInt8) : entries (101 :: rest) = .finished := by
  rw [entries, readEntries, if_pos List.head?_cons]

end Spns.Lib.Bencode
