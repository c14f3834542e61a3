import Spns.Lib.Dictionary

/-!
# Bencoded values

Values of all four kinds and their encoding.  The encodings form a prefix code:
at most one of them is a prefix of a given byte string, so a value can be read
off without knowing where it ends.  The reader at the end of the file does so.
-/

namespace Spns.Lib.Bencode

inductive Value where
  | int (value : Int)
  | str (bytes : List UInt8)
  | list (items : List Value)
  | dict (fields : List (List UInt8 × Value))

mutual

def encode : Value → List UInt8
  | .int value => encodeInt value
  | .str bytes => encodeString bytes
  | .list items => 108 :: encodeItems items
  | .dict fields => 100 :: encodeFields fields

/-- The items of a list and its end. -/
def encodeItems : List Value → List UInt8
  | [] => [101]
  | item :: rest => encode item ++ encodeItems rest

/-- The fields of a dictionary and its end. -/
def encodeFields : List (List UInt8 × Value) → List UInt8
  | [] => [101]
  | (key, value) :: rest => encodeString key ++ (encode value ++ encodeFields rest)

end

/-- The kinds of values, as their first bytes tell them apart. -/
inductive Kind where
  | int
  | str
  | list
  | dict
  | none
  deriving DecidableEq

def Value.kind : Value → Kind
  | .int _ => .int
  | .str _ => .str
  | .list _ => .list
  | .dict _ => .dict

/-- The kind of value that starts with a byte. -/
def kindOf (byte : UInt8) : Kind :=
  if byte = 105 then .int
  else if byte = 108 then .list
  else if byte = 100 then .dict
  else if isDigit byte then .str
  else .none

theorem kindOf_digit {byte : UInt8} (digit : isDigit byte = true) : kindOf byte = .str := by
  have notInt : byte ≠ 105 := by
    rintro rfl
    exact absurd digit (by decide)
  have notList : byte ≠ 108 := by
    rintro rfl
    exact absurd digit (by decide)
  have notDict : byte ≠ 100 := by
    rintro rfl
    exact absurd digit (by decide)
  rw [kindOf, if_neg notInt, if_neg notList, if_neg notDict, if_pos digit]

theorem exists_encodeString_eq_cons (bytes : List UInt8) :
    ∃ byte rest, encodeString bytes = byte :: rest ∧ kindOf byte = .str := by
  obtain ⟨digit, digits, split, -⟩ := exists_decimalDigits_eq_cons bytes.length
  have member : digit ∈ decimalDigits bytes.length := split ▸ List.mem_cons_self
  refine ⟨digit, digits ++ 58 :: bytes, ?_, kindOf_digit (isDigit_decimalDigits _ digit member)⟩
  rw [encodeString, split, List.cons_append]

theorem exists_encode_eq_cons (value : Value) :
    ∃ byte rest, encode value = byte :: rest ∧ kindOf byte = value.kind := by
  cases value with
  | int value => exact ⟨105, _, rfl, rfl⟩
  | str bytes => exact exists_encodeString_eq_cons bytes
  | list items => exact ⟨108, _, rfl, rfl⟩
  | dict fields => exact ⟨100, _, rfl, rfl⟩

/-- Values with a common start are of one kind. -/
theorem kind_eq_of_encode {value other : Value} {rest after : List UInt8}
    (same : encode value ++ rest = encode other ++ after) : value.kind = other.kind := by
  obtain ⟨byte, tail, split, kind⟩ := exists_encode_eq_cons value
  obtain ⟨otherByte, otherTail, otherSplit, otherKind⟩ := exists_encode_eq_cons other
  rw [split, otherSplit, List.cons_append, List.cons_append] at same
  rw [← kind, ← otherKind, (List.cons.inj same).1]

theorem encodeInt_unique {value other : Int} {rest after : List UInt8}
    (same : encodeInt value ++ rest = encodeInt other ++ after) : value = other ∧ rest = after := by
  have read := readInt_encodeInt value rest
  rw [same, readInt_encodeInt] at read
  cases read
  exact ⟨rfl, rfl⟩

theorem encodeString_unique {bytes other rest after : List UInt8}
    (same : encodeString bytes ++ rest = encodeString other ++ after) :
    bytes = other ∧ rest = after := by
  have read := readString_encodeString bytes rest
  rw [same, readString_encodeString] at read
  cases read
  exact ⟨rfl, rfl⟩

/-- No value starts with the byte that ends lists and dictionaries. -/
theorem encode_ne_end {value : Value} {rest after : List UInt8} :
    encode value ++ rest ≠ 101 :: after := by
  obtain ⟨byte, tail, split, kind⟩ := exists_encode_eq_cons value
  rw [split, List.cons_append]
  intro same
  rw [(List.cons.inj same).1] at kind
  cases value <;> cases kind

theorem encodeString_ne_end {bytes rest after : List UInt8} :
    encodeString bytes ++ rest ≠ 101 :: after :=
  @encode_ne_end (.str bytes) rest after

mutual

/-- The encodings form a prefix code. -/
theorem encode_unique (value other : Value) (rest after : List UInt8)
    (same : encode value ++ rest = encode other ++ after) : value = other ∧ rest = after := by
  have kinds := kind_eq_of_encode same
  match value with
  | .int number =>
      cases other with
      | int otherNumber =>
          obtain ⟨rfl, left⟩ := encodeInt_unique same
          exact ⟨rfl, left⟩
      | _ => cases kinds
  | .str bytes =>
      cases other with
      | str otherBytes =>
          obtain ⟨rfl, left⟩ := encodeString_unique same
          exact ⟨rfl, left⟩
      | _ => cases kinds
  | .list items =>
      cases other with
      | list otherItems =>
          obtain ⟨rfl, left⟩ := encodeItems_unique items otherItems rest after (List.cons.inj same).2
          exact ⟨rfl, left⟩
      | _ => cases kinds
  | .dict fields =>
      cases other with
      | dict otherFields =>
          obtain ⟨rfl, left⟩ :=
            encodeFields_unique fields otherFields rest after (List.cons.inj same).2
          exact ⟨rfl, left⟩
      | _ => cases kinds

theorem encodeItems_unique (items others : List Value) (rest after : List UInt8)
    (same : encodeItems items ++ rest = encodeItems others ++ after) :
    items = others ∧ rest = after := by
  match items, others with
  | [], [] => exact ⟨rfl, (List.cons.inj same).2⟩
  | [], other :: others =>
      rw [encodeItems, encodeItems, List.append_assoc] at same
      exact absurd same.symm encode_ne_end
  | item :: items, [] =>
      rw [encodeItems, encodeItems, List.append_assoc] at same
      exact absurd same encode_ne_end
  | item :: items, other :: others =>
      rw [encodeItems, encodeItems, List.append_assoc, List.append_assoc] at same
      obtain ⟨rfl, left⟩ := encode_unique item other _ _ same
      obtain ⟨rfl, rest⟩ := encodeItems_unique items others rest after left
      exact ⟨rfl, rest⟩

theorem encodeFields_unique (fields others : List (List UInt8 × Value)) (rest after : List UInt8)
    (same : encodeFields fields ++ rest = encodeFields others ++ after) :
    fields = others ∧ rest = after := by
  match fields, others with
  | [], [] => exact ⟨rfl, (List.cons.inj same).2⟩
  | [], (key, value) :: others =>
      rw [encodeFields, encodeFields, List.append_assoc] at same
      exact absurd same.symm encodeString_ne_end
  | (key, value) :: fields, [] =>
      rw [encodeFields, encodeFields, List.append_assoc] at same
      exact absurd same encodeString_ne_end
  | (key, value) :: fields, (otherKey, other) :: others =>
      rw [encodeFields, encodeFields, List.append_assoc, List.append_assoc, List.append_assoc,
        List.append_assoc] at same
      obtain ⟨rfl, values⟩ := encodeString_unique same
      obtain ⟨rfl, left⟩ := encode_unique value other _ _ values
      obtain ⟨rfl, rest⟩ := encodeFields_unique fields others rest after left
      exact ⟨rfl, rest⟩

end

/-- The order of the fields does not change the size. -/
theorem length_encodeFields_of_perm {fields others : List (List UInt8 × Value)}
    (perm : fields.Perm others) : (encodeFields fields).length = (encodeFields others).length := by
  induction perm with
  | nil => rfl
  | cons field _ ih =>
      rw [encodeFields, encodeFields, List.length_append, List.length_append, List.length_append,
        List.length_append, ih]
  | swap first second rest =>
      simp only [encodeFields, List.length_append]
      omega
  | trans _ _ first second => exact first.trans second

theorem lookup_eq_some_iff_mem {fields : List (List UInt8 × Value)}
    (distinct : (fields.map Prod.fst).Nodup) (key : List UInt8) (value : Value) :
    fields.lookup key = some value ↔ (key, value) ∈ fields := by
  rw [List.lookup_eq_some_iff]
  constructor
  · rintro ⟨front, back, rfl, -⟩
    exact List.mem_append_right front List.mem_cons_self
  · intro member
    obtain ⟨front, back, rfl⟩ := List.append_of_mem member
    refine ⟨front, back, rfl, fun field before => ?_⟩
    rw [List.map_append, List.map_cons, List.nodup_append] at distinct
    rw [bne_iff_ne]
    exact (distinct.2.2 _ (List.mem_map_of_mem before) _ List.mem_cons_self).symm

/-- Nor does it change what a key means. -/
theorem lookup_of_perm {fields others : List (List UInt8 × Value)} (perm : fields.Perm others)
    (distinct : (fields.map Prod.fst).Nodup) (key : List UInt8) :
    fields.lookup key = others.lookup key := by
  ext value
  rw [lookup_eq_some_iff_mem distinct, lookup_eq_some_iff_mem ((perm.map Prod.fst).nodup distinct),
    perm.mem_iff]

/-- A producer whose entries are encoded values writes the dictionary of the
values. -/
theorem encodeDict_map_encode (fields : List (List UInt8 × Value)) :
    Producer.encodeDict (fields.map fun field => (field.1, encode field.2)) =
      encode (.dict fields) := by
  have body : (fields.map fun field => (field.1, encode field.2)).flatMap Producer.encodeEntry ++
      [101] = encodeFields fields := by
    induction fields with
    | nil => rfl
    | cons field fields ih =>
        rw [List.map_cons, List.flatMap_cons, Producer.encodeEntry, List.append_assoc,
          List.append_assoc, ih, encodeFields]
  rw [Producer.encodeDict, encode, List.cons_append, body]

/-! ## Reading values -/

mutual

/-- Read one value and what is behind it. -/
def readValue : (fuel : Nat) → List UInt8 → Option (Value × List UInt8)
  | 0, _ => none
  | _ + 1, [] => none
  | fuel + 1, byte :: rest =>
      match kindOf byte with
      | .int => (readInt (byte :: rest)).map fun read => (.int read.1, read.2)
      | .str => (readString (byte :: rest)).map fun read => (.str read.1, read.2)
      | .list => (readItems fuel rest).map fun read => (.list read.1, read.2)
      | .dict => (readFields fuel rest).map fun read => (.dict read.1, read.2)
      | .none => none

def readItems : (fuel : Nat) → List UInt8 → Option (List Value × List UInt8)
  | 0, _ => none
  | fuel + 1, bytes =>
      if bytes.head? = some 101 then some ([], bytes.tail)
      else do
        let (item, rest) ← readValue fuel bytes
        let (items, rest) ← readItems fuel rest
        return (item :: items, rest)

def readFields : (fuel : Nat) → List UInt8 → Option (List (List UInt8 × Value) × List UInt8)
  | 0, _ => none
  | fuel + 1, bytes =>
      if bytes.head? = some 101 then some ([], bytes.tail)
      else do
        let (key, rest) ← readString bytes
        let (value, rest) ← readValue fuel rest
        let (fields, rest) ← readFields fuel rest
        return ((key, value) :: fields, rest)

end

/-- Read a value that takes up all bytes. -/
def deserialize (bytes : List UInt8) : Option Value :=
  match readValue (bytes.length + 1) bytes with
  | some (value, []) => some value
  | _ => none

theorem encode_head? (value : Value) (rest : List UInt8) :
    (encode value ++ rest).head? ≠ some 101 := by
  obtain ⟨byte, tail, split, kind⟩ := exists_encode_eq_cons value
  rw [split, List.cons_append, List.head?_cons]
  intro same
  rw [Option.some.inj same] at kind
  cases value <;> cases kind

theorem length_encode_pos (value : Value) : 0 < (encode value).length := by
  obtain ⟨byte, tail, split, -⟩ := exists_encode_eq_cons value
  rw [split]
  exact Nat.succ_pos _

theorem length_encodeItems_pos (items : List Value) : 0 < (encodeItems items).length := by
  cases items with
  | nil => exact Nat.succ_pos 0
  | cons item items =>
      rw [encodeItems, List.length_append]
      exact Nat.add_pos_left (length_encode_pos item) _

mutual

/-- What is encoded is read back, whatever is behind it. -/
theorem readValue_encode (value : Value) (fuel : Nat) (rest : List UInt8)
    (enough : (encode value).length < fuel) :
    readValue fuel (encode value ++ rest) = some (value, rest) := by
  obtain ⟨left, rfl⟩ := Nat.exists_eq_add_one_of_ne_zero (Nat.ne_of_gt (Nat.zero_lt_of_lt enough))
  match value with
  | .int number =>
      have read := readInt_encodeInt number rest
      have isInt : kindOf 105 = .int := rfl
      simp only [encodeInt, List.cons_append] at read
      simp only [encode, encodeInt, List.cons_append, readValue, isInt, read, Option.map_some]
  | .str bytes =>
      obtain ⟨byte, tail, split, kind⟩ := exists_encodeString_eq_cons bytes
      have read := readString_encodeString bytes rest
      rw [split, List.cons_append] at read
      rw [encode, split, List.cons_append, readValue, kind]
      simp only [read, Option.map_some]
  | .list items =>
      rw [encode, List.length_cons] at enough
      rw [encode, List.cons_append, readValue, show kindOf 108 = .list from rfl]
      simp only [readItems_encode items left rest (by omega), Option.map_some]
  | .dict fields =>
      rw [encode, List.length_cons] at enough
      rw [encode, List.cons_append, readValue, show kindOf 100 = .dict from rfl]
      simp only [readFields_encode fields left rest (by omega), Option.map_some]

theorem readItems_encode (items : List Value) (fuel : Nat) (rest : List UInt8)
    (enough : (encodeItems items).length < fuel) :
    readItems fuel (encodeItems items ++ rest) = some (items, rest) := by
  match items with
  | [] =>
      rw [encodeItems, List.length_singleton] at enough
      obtain ⟨left, rfl⟩ := Nat.exists_eq_add_one_of_ne_zero (by omega : fuel ≠ 0)
      rfl
  | item :: items =>
      have positive := length_encode_pos item
      rw [encodeItems, List.length_append] at enough
      obtain ⟨left, rfl⟩ := Nat.exists_eq_add_one_of_ne_zero (by omega : fuel ≠ 0)
      have later := length_encodeItems_pos items
      rw [encodeItems, List.append_assoc, readItems, if_neg (encode_head? item _),
        readValue_encode item left _ (by omega), Option.bind_eq_bind, Option.bind_some]
      simp only [readItems_encode items left rest (by omega), Option.bind_eq_bind, Option.bind_some,
        Option.pure_def]

theorem readFields_encode (fields : List (List UInt8 × Value)) (fuel : Nat) (rest : List UInt8)
    (enough : (encodeFields fields).length < fuel) :
    readFields fuel (encodeFields fields ++ rest) = some (fields, rest) := by
  match fields with
  | [] =>
      rw [encodeFields, List.length_singleton] at enough
      obtain ⟨left, rfl⟩ := Nat.exists_eq_add_one_of_ne_zero (by omega : fuel ≠ 0)
      rfl
  | (key, value) :: fields =>
      have opens := encode_head? (.str key) (encode value ++ (encodeFields fields ++ rest))
      have positive := length_encode_pos (.str key)
      rw [encode] at opens positive
      rw [encodeFields, List.length_append, List.length_append] at enough
      obtain ⟨left, rfl⟩ := Nat.exists_eq_add_one_of_ne_zero (by omega : fuel ≠ 0)
      rw [encodeFields, List.append_assoc, List.append_assoc, readFields, if_neg opens,
        readString_encodeString, Option.bind_eq_bind, Option.bind_some]
      simp only [readValue_encode value left _ (by omega),
        readFields_encode fields left rest (by omega), Option.bind_eq_bind, Option.bind_some,
        Option.pure_def]

end

/-- Every value is read back from its bytes. -/
theorem deserialize_encode (value : Value) : deserialize (encode value) = some value := by
  have read := readValue_encode value ((encode value).length + 1) [] (Nat.lt_succ_self _)
  rw [List.append_nil] at read
  rw [deserialize, read]

end Spns.Lib.Bencode
