import Mathlib.Algebra.GroupWithZero.Nat
import Mathlib.Tactic.Common

/-!
# Bencode

The standard bencoding of byte strings, integers and dictionaries, and a
dictionary producer that writes into a buffer of fixed capacity.  The producer
takes its keys in strictly ascending order and refuses an entry for which the
buffer has no room.  The results are upper bounds on encoded sizes, and that a
list of entries whose encoding fits is always accepted.
-/

namespace Spns.Lib.Bencode

/-- Decimal digits of a number, most significant first. -/
def decimalDigits (value : Nat) : List UInt8 :=
  (Nat.toDigits 10 value).map fun digit => UInt8.ofNat digit.toNat

/-- The decimal text of an integer, with a minus sign where it is negative. -/
def intText (value : Int) : List UInt8 :=
  if value < 0 then 45 :: decimalDigits value.natAbs else decimalDigits value.natAbs

/-- `4:spam` -/
def encodeString (bytes : List UInt8) : List UInt8 :=
  decimalDigits bytes.length ++ 58 :: bytes

/-- `i-42e` -/
def encodeInt (value : Int) : List UInt8 :=
  105 :: intText value ++ [101]

/-! ## Sizes -/

theorem length_decimalDigits_le {value : Nat} (digits : Nat) (positive : 0 < digits)
    (small : value < 10 ^ digits) : (decimalDigits value).length ≤ digits := by
  rw [decimalDigits, List.length_map]
  exact (Nat.length_toDigits_le_iff (by decide) positive).mpr small

theorem length_encodeString_le {bytes : List UInt8} (digits : Nat) (positive : 0 < digits)
    (small : bytes.length < 10 ^ digits) :
    (encodeString bytes).length ≤ digits + 1 + bytes.length := by
  have counted := length_decimalDigits_le digits positive small
  simp only [encodeString, List.length_append, List.length_cons]
  omega

theorem length_encodeInt_le {value : Int} (digits : Nat) (positive : 0 < digits)
    (small : value.natAbs < 10 ^ digits) : (encodeInt value).length ≤ digits + 3 := by
  have counted := length_decimalDigits_le digits positive small
  simp only [encodeInt, intText, List.length_append, List.length_cons, List.length_nil]
  split
  · simp only [List.length_cons]
    omega
  · omega

/-! ## The dictionary producer -/

/-- One dictionary entry: a key and an encoded value. -/
abbrev Entry := List UInt8 × List UInt8

/-- A dictionary under construction. -/
structure Producer where
  capacity : Nat
  lastKey : Option (List UInt8)
  body : List UInt8

namespace Producer

/-- An empty dictionary; it needs room for its two delimiters. -/
def start (capacity : Nat) : Option Producer :=
  if 2 ≤ capacity then some ⟨capacity, none, []⟩ else none

/-- Whether a key may follow the last one written. -/
def accepts (producer : Producer) (key : List UInt8) : Bool :=
  match producer.lastKey with
  | none => true
  | some last => last < key

/-- The encoding of one entry. -/
def encodeEntry (entry : Entry) : List UInt8 :=
  encodeString entry.1 ++ entry.2

/-- Append an entry; `none` is the exception for a key out of order or for a
buffer that is too small. -/
def append (producer : Producer) (entry : Entry) : Option Producer :=
  let body := producer.body ++ encodeEntry entry
  if producer.accepts entry.1 ∧ body.length + 2 ≤ producer.capacity then
    some { producer with lastKey := some entry.1, body := body }
  else none

/-- The encoded dictionary. -/
def view (producer : Producer) : List UInt8 :=
  100 :: producer.body ++ [101]

/-- Write a whole dictionary. -/
def build (capacity : Nat) (entries : List Entry) : Option (List UInt8) := do
  let producer ← start capacity
  let filled ← entries.foldlM append producer
  pure filled.view

/-- The total size of some entries. -/
def entriesSize (entries : List Entry) : Nat :=
  (entries.map fun entry => (encodeEntry entry).length).sum

theorem foldlM_append_isSome (entries : List Entry) (producer : Producer)
    (ascending : (entries.map Prod.fst).Pairwise (· < ·))
    (follows : ∀ entry ∈ entries, producer.accepts entry.1 = true)
    (room : producer.body.length + entriesSize entries + 2 ≤ producer.capacity) :
    (entries.foldlM append producer).isSome := by
  induction entries generalizing producer with
  | nil => rfl
  | cons entry entries ih =>
      simp only [entriesSize, List.map_cons, List.sum_cons] at room
      rw [List.map_cons, List.pairwise_cons] at ascending
      have accepted : producer.append entry =
          some { producer with
            lastKey := some entry.1, body := producer.body ++ encodeEntry entry } := by
        rw [append, if_pos]
        constructor
        · exact follows entry List.mem_cons_self
        · rw [List.length_append]
          omega
      rw [List.foldlM_cons, accepted]
      apply ih
      · exact ascending.2
      · intro next member
        apply decide_eq_true
        exact ascending.1 next.1 (List.mem_map_of_mem member)
      · simp only [List.length_append, entriesSize]
        omega

/-- The encoding of a whole dictionary. -/
def encodeDict (entries : List Entry) : List UInt8 :=
  100 :: entries.flatMap encodeEntry ++ [101]

theorem length_encodeDict (entries : List Entry) :
    (encodeDict entries).length = entriesSize entries + 2 := by
  simp only [encodeDict, entriesSize, List.length_cons, List.length_append, List.length_flatMap,
    List.length_nil]

theorem body_of_foldlM_append {entries : List Entry} {producer filled : Producer}
    (written : entries.foldlM append producer = some filled) :
    filled.body = producer.body ++ entries.flatMap encodeEntry := by
  induction entries generalizing producer with
  | nil =>
      cases written
      exact (List.append_nil _).symm
  | cons entry entries ih =>
      rw [List.foldlM_cons] at written
      obtain ⟨next, appended, rest⟩ := Option.bind_eq_some_iff.mp written
      rw [append] at appended
      split_ifs at appended
      cases appended
      rw [ih rest, List.flatMap_cons, List.append_assoc]

/-- What is written is the encoding of the entries; the capacity has no part in
it. -/
theorem eq_encodeDict_of_build {capacity : Nat} {entries : List Entry} {message : List UInt8}
    (built : build capacity entries = some message) : message = encodeDict entries := by
  obtain ⟨producer, started, rest⟩ := Option.bind_eq_some_iff.mp built
  obtain ⟨filled, written, viewed⟩ := Option.bind_eq_some_iff.mp rest
  rw [start] at started
  split_ifs at started
  cases started
  cases viewed
  rw [view, body_of_foldlM_append written, encodeDict, List.nil_append]

/-- A dictionary with ascending keys whose encoding fits is written. -/
theorem build_isSome {capacity : Nat} {entries : List Entry}
    (ascending : (entries.map Prod.fst).Pairwise (· < ·))
    (room : entriesSize entries + 2 ≤ capacity) : (build capacity entries).isSome := by
  have started : start capacity = some ⟨capacity, none, []⟩ := if_pos (by omega)
  obtain ⟨filled, written⟩ := Option.isSome_iff_exists.mp
    (foldlM_append_isSome entries ⟨capacity, none, []⟩ ascending (fun _ _ => rfl)
      (by simpa using room))
  simp [build, started, written]

end Producer

/-! ## Reading -/

def isDigit (byte : UInt8) : Bool :=
  48 ≤ byte ∧ byte ≤ 57

/-- The number that decimal digits stand for. -/
def digitsValue (digits : List UInt8) : Nat :=
  digits.foldl (fun value digit => 10 * value + (digit.toNat - 48)) 0

/-- Read a number from its digits, at least one of them. -/
def readNat (bytes : List UInt8) : Option (Nat × List UInt8) :=
  let digits := bytes.takeWhile isDigit
  if digits = [] then none
  else some (digitsValue digits, bytes.drop digits.length)

/-- Read an encoded string. -/
def readString (bytes : List UInt8) : Option (List UInt8 × List UInt8) :=
  match readNat bytes with
  | some (size, 58 :: rest) =>
      if size ≤ rest.length then some (rest.take size, rest.drop size) else none
  | _ => none

/-- Read the digits of an integer up to its end mark. -/
def readMagnitude (bytes : List UInt8) : Option (Nat × List UInt8) :=
  match readNat bytes with
  | some (value, 101 :: rest) => some (value, rest)
  | _ => none

/-- Read an encoded integer. -/
def readInt : List UInt8 → Option (Int × List UInt8)
  | 105 :: 45 :: rest => (readMagnitude rest).map fun read => (-(read.1 : Int), read.2)
  | 105 :: rest => (readMagnitude rest).map fun read => ((read.1 : Int), read.2)
  | _ => none

/-- Skip values until `depth` open lists and dictionaries are closed, or one
value where none is open. -/
def skip : (fuel depth : Nat) → List UInt8 → Option (List UInt8)
  | 0, _, _ => none
  | fuel + 1, depth, bytes =>
      match bytes with
      | 101 :: rest =>
          match depth with
          | 0 => none
          | 1 => some rest
          | depth + 2 => skip fuel (depth + 1) rest
      | 100 :: rest => skip fuel (depth + 1) rest
      | 108 :: rest => skip fuel (depth + 1) rest
      | 105 :: _ =>
          match readInt bytes with
          | some (_, rest) => if depth = 0 then some rest else skip fuel depth rest
          | none => none
      | _ =>
          match readString bytes with
          | some (_, rest) => if depth = 0 then some rest else skip fuel depth rest
          | none => none

/-- Go to the value of a key among ascending keys; the flag says whether the
dictionary has the key. -/
def skipUntil : (fuel : Nat) → List UInt8 → (key : List UInt8) → Option (Bool × List UInt8)
  | 0, _, _ => none
  | fuel + 1, bytes, key =>
      if bytes.head? = some 101 then some (false, bytes)
      else
        match readString bytes with
        | none => none
        | some (next, rest) =>
            if next = key then some (true, rest)
            else if key < next then some (false, bytes)
            else
              match skip bytes.length 0 rest with
              | some after => skipUntil fuel after key
              | none => none

/-! ## Encoded strings

A string may be encoded with leading zeros in its length, so it has many
encodings; but what follows an encoded string is determined by the bytes. -/

/-- The bytes `digits`, a colon and `text` encode a string. -/
structure IsString (digits text : List UInt8) : Prop where
  some_digit : digits ≠ []
  decimal : ∀ digit ∈ digits, isDigit digit = true
  size : digitsValue digits = text.length

theorem takeWhile_isDigit {digits : List UInt8} (all : ∀ digit ∈ digits, isDigit digit = true)
    (rest : List UInt8) : (digits ++ 58 :: rest).takeWhile isDigit = digits := by
  rw [List.takeWhile_append_of_pos all, List.takeWhile_cons_of_neg (by decide), List.append_nil]

theorem IsString.unique {digits others text other rest later : List UInt8}
    (first : IsString digits text) (second : IsString others other)
    (same : digits ++ 58 :: (text ++ rest) = others ++ 58 :: (other ++ later)) :
    digits = others ∧ text = other ∧ rest = later := by
  have sameDigits : digits = others := by
    rw [← takeWhile_isDigit first.decimal (text ++ rest), same, takeWhile_isDigit second.decimal]
  subst sameDigits
  have sameSize : text.length = other.length := first.size.symm.trans second.size
  have tails := (List.cons.inj (List.append_cancel_left same)).2
  exact ⟨rfl, List.append_inj tails sameSize⟩

end Spns.Lib.Bencode
