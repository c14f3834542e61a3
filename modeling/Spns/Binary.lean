import Mathlib.Data.List.TakeWhile
import Mathlib.Tactic.Common
import Spns.Bytes

/-!
# Texts of binary arguments

Keys, tags and signatures come as raw bytes, as hex or as base64, and
`from_hex_or_b64` tells these forms apart by their lengths and alphabets.  For
sizes of two bytes and more they do not overlap, and each form of a value is
decoded to it.
-/

namespace Spns

/-! ## Hex -/

theorem hexDigit_toHexDigit : ∀ value < 16, hexDigit (toHexDigit value) = some value := by
  decide

theorem toHex_cons (byte : UInt8) (rest : Bytes) :
    toHex (byte :: rest) =
      toHexDigit (byte.toNat / 16) :: toHexDigit (byte.toNat % 16) :: toHex rest :=
  rfl

theorem fromHex_toHex (bytes : Bytes) : fromHex (toHex bytes) = some bytes := by
  induction bytes with
  | nil => rfl
  | cons byte rest ih =>
      have bound := byte.toNat_lt
      rw [toHex_cons, fromHex, hexDigit_toHexDigit _ (by omega), hexDigit_toHexDigit _ (by omega), ih]
      simp only [Option.bind_eq_bind, Option.bind_some, Option.pure_def, Option.some.injEq,
        List.cons.injEq, and_true]
      rw [Nat.div_add_mod]
      exact UInt8.ofNat_toNat

theorem toHex_injective {first second : Bytes} (same : toHex first = toHex second) :
    first = second := by
  have decoded := congrArg fromHex same
  rw [fromHex_toHex, fromHex_toHex] at decoded
  exact Option.some.inj decoded

theorem length_toHex (bytes : Bytes) : (toHex bytes).length = 2 * bytes.length := by
  induction bytes with
  | nil => rfl
  | cons byte rest ih =>
      rw [toHex_cons, List.length_cons, List.length_cons, List.length_cons, ih]
      omega

/-- The characters of hex texts. -/
def IsHexDigit (c : UInt8) : Prop :=
  (48 ≤ c ∧ c ≤ 57) ∨ (97 ≤ c ∧ c ≤ 102) ∨ (65 ≤ c ∧ c ≤ 70)

/-- The lower-case form of a letter; other characters stay as they are. -/
def toLower (c : UInt8) : UInt8 :=
  if 65 ≤ c ∧ c ≤ 90 then c + 32 else c

theorem exists_hexDigit_iff (c : UInt8) : (∃ value, hexDigit c = some value) ↔ IsHexDigit c := by
  rw [hexDigit, IsHexDigit]
  split_ifs with digit lower upper
  · simp [digit]
  · simp [lower]
  · simp [upper]
  · simp [digit, lower, upper]

/-- What holds of 256 numbers holds of every byte. -/
theorem forall_byte {property : UInt8 → Prop} (all : ∀ value < 256, property (UInt8.ofNat value))
    (byte : UInt8) : property byte := by
  have holds := all byte.toNat byte.toNat_lt
  rwa [UInt8.ofNat_toNat] at holds

theorem hexDigit_toLower : ∀ c : UInt8, hexDigit (toLower c) = hexDigit c :=
  forall_byte (by decide +kernel)

/-- The case of the digits does not matter. -/
theorem fromHex_map_toLower (text : Bytes) : fromHex (text.map toLower) = fromHex text := by
  induction text using fromHex.induct with
  | case1 => rfl
  | case2 c => rfl
  | case3 high low rest ih =>
      simp only [List.map_cons, fromHex, hexDigit_toLower, ih]

/-- Hex texts are decoded to one byte for each pair of digits. -/
theorem exists_fromHex_iff (text : Bytes) (size : Nat) :
    (∃ bytes, fromHex text = some bytes ∧ bytes.length = size) ↔
      text.length = 2 * size ∧ ∀ c ∈ text, IsHexDigit c := by
  induction text using fromHex.induct generalizing size with
  | case1 =>
      simp only [fromHex, Option.some.injEq, exists_eq_left', List.length_nil, List.not_mem_nil,
        false_implies, implies_true, and_true]
      omega
  | case2 c =>
      simp only [fromHex, reduceCtorEq, false_and, exists_false, List.length_singleton, false_iff]
      omega
  | case3 high low rest ih =>
      rw [List.forall_mem_cons, List.forall_mem_cons, ← exists_hexDigit_iff, ← exists_hexDigit_iff]
      cases size with
      | zero =>
          simp only [fromHex, Option.bind_eq_bind, Option.pure_def, Option.bind_eq_some_iff,
            Option.some.injEq]
          refine iff_of_false ?_ (by simp)
          rintro ⟨bytes, ⟨h, -, l, -, tail, -, rfl⟩, empty⟩
          exact absurd empty (Nat.succ_ne_zero _)
      | succ size =>
          have lengths : (high :: low :: rest).length = 2 * (size + 1) ↔ rest.length = 2 * size := by
            rw [List.length_cons, List.length_cons]
            omega
          rw [lengths]
          simp only [fromHex, Option.bind_eq_bind, Option.pure_def, Option.bind_eq_some_iff,
            Option.some.injEq]
          constructor
          · rintro ⟨bytes, ⟨h, isHigh, l, isLow, tail, decoded, rfl⟩, count⟩
            obtain ⟨length, digits⟩ := (ih size).mp ⟨tail, decoded, Nat.succ.inj count⟩
            exact ⟨length, ⟨h, isHigh⟩, ⟨l, isLow⟩, digits⟩
          · rintro ⟨length, ⟨h, isHigh⟩, ⟨l, isLow⟩, digits⟩
            obtain ⟨tail, decoded, count⟩ := (ih size).mpr ⟨length, digits⟩
            exact ⟨_, ⟨h, isHigh, l, isLow, tail, decoded, rfl⟩, by rw [List.length_cons, count]⟩

/-! ## Base64 -/

/-- The character of a base64 digit. -/
def toBase64Digit (value : Nat) : UInt8 :=
  if value < 26 then UInt8.ofNat (65 + value)
  else if value < 52 then UInt8.ofNat (71 + value)
  else if value < 62 then UInt8.ofNat (value - 4)
  else if value = 62 then 43
  else 47

/-- Base64 without padding. -/
def toBase64 : Bytes → Bytes
  | [] => []
  | [a] => [toBase64Digit (a.toNat / 4), toBase64Digit (a.toNat % 4 * 16)]
  | [a, b] =>
      [toBase64Digit (a.toNat / 4), toBase64Digit (a.toNat % 4 * 16 + b.toNat / 16),
        toBase64Digit (b.toNat % 16 * 4)]
  | a :: b :: c :: rest =>
      toBase64Digit (a.toNat / 4) :: toBase64Digit (a.toNat % 4 * 16 + b.toNat / 16) ::
        toBase64Digit (b.toNat % 16 * 4 + c.toNat / 64) :: toBase64Digit (c.toNat % 64) ::
        toBase64 rest

/-- Base64 with padding to a multiple of four characters. -/
def toPaddedBase64 (bytes : Bytes) : Bytes :=
  toBase64 bytes ++ List.replicate ((4 - (toBase64 bytes).length % 4) % 4) 61

/-- The characters of base64 texts, without the padding. -/
def IsBase64Digit (c : UInt8) : Prop :=
  (65 ≤ c ∧ c ≤ 90) ∨ (97 ≤ c ∧ c ≤ 122) ∨ (48 ≤ c ∧ c ≤ 57) ∨ c = 43 ∨ c = 47

theorem base64Digit_toBase64Digit :
    ∀ value < 64, base64Digit (toBase64Digit value) = some value := by
  decide

theorem exists_base64Digit_iff (c : UInt8) :
    (∃ value, base64Digit c = some value) ↔ IsBase64Digit c := by
  rw [base64Digit, IsBase64Digit]
  split_ifs with upper lower digit plus slash
  · simp [upper]
  · simp [lower]
  · simp [digit]
  · simp [plus]
  · simp [slash]
  · simp [upper, lower, digit, plus, slash]

theorem isBase64Digit_ne_padding {c : UInt8} (digit : IsBase64Digit c) : c ≠ 61 := by
  rintro rfl
  revert digit
  simp [IsBase64Digit]

/-- What is encoded is decoded again. -/
theorem fromBase64_toBase64 (bytes : Bytes) : fromBase64 (toBase64 bytes) = some bytes := by
  induction bytes using toBase64.induct with
  | case1 => rfl
  | case2 a =>
      have bound := a.toNat_lt
      rw [toBase64, fromBase64, base64Digit_toBase64Digit _ (by omega),
        base64Digit_toBase64Digit _ (by omega)]
      have first : (a.toNat / 4 * 64 + a.toNat % 4 * 16) / 16 = a.toNat := by omega
      simp [first]
  | case3 a b =>
      have aBound := a.toNat_lt
      have bBound := b.toNat_lt
      rw [toBase64, fromBase64, base64Digit_toBase64Digit _ (by omega),
        base64Digit_toBase64Digit _ (by omega), base64Digit_toBase64Digit _ (by omega)]
      have first : ((a.toNat / 4 * 64 + (a.toNat % 4 * 16 + b.toNat / 16)) * 64 +
          b.toNat % 16 * 4) / 1024 = a.toNat := by omega
      have second : ((a.toNat / 4 * 64 + (a.toNat % 4 * 16 + b.toNat / 16)) * 64 +
          b.toNat % 16 * 4) / 4 % 256 = b.toNat := by omega
      simp [first, second]
  | case4 a b c rest ih =>
      have aBound := a.toNat_lt
      have bBound := b.toNat_lt
      have cBound := c.toNat_lt
      rw [toBase64, fromBase64, base64Digit_toBase64Digit _ (by omega),
        base64Digit_toBase64Digit _ (by omega), base64Digit_toBase64Digit _ (by omega),
        base64Digit_toBase64Digit _ (by omega), ih]
      have whole : ((a.toNat / 4 * 64 + (a.toNat % 4 * 16 + b.toNat / 16)) * 64 +
          (b.toNat % 16 * 4 + c.toNat / 64)) * 64 + c.toNat % 64 =
            a.toNat * 65536 + b.toNat * 256 + c.toNat := by omega
      have first : (a.toNat * 65536 + b.toNat * 256 + c.toNat) / 65536 = a.toNat := by omega
      have second : (a.toNat * 65536 + b.toNat * 256 + c.toNat) / 256 % 256 = b.toNat := by omega
      have third : (a.toNat * 65536 + b.toNat * 256 + c.toNat) % 256 = c.toNat := by omega
      simp [whole, first, second, third]

/-- Base64 digits are decoded to as many bytes as need that many digits. -/
theorem exists_fromBase64_iff (digits : Bytes) (size : Nat) :
    (∃ bytes, fromBase64 digits = some bytes ∧ bytes.length = size) ↔
      digits.length = toBase64Size size ∧ ∀ c ∈ digits, IsBase64Digit c := by
  induction digits using fromBase64.induct generalizing size with
  | case1 =>
      simp only [fromBase64, Option.some.injEq, exists_eq_left', List.length_nil, List.not_mem_nil,
        false_implies, implies_true, and_true, toBase64Size]
      omega
  | case2 c =>
      simp only [fromBase64, reduceCtorEq, false_and, exists_false, List.length_singleton,
        toBase64Size, false_iff]
      omega
  | case3 a b =>
      have length : [a, b].length = toBase64Size size ↔ 1 = size := by
        simp only [List.length_cons, List.length_nil, toBase64Size]
        omega
      simp only [List.forall_mem_cons, ← exists_base64Digit_iff, length, fromBase64,
        Option.bind_eq_bind, Option.pure_def, Option.bind_eq_some_iff, Option.some.injEq]
      constructor
      · rintro ⟨bytes, ⟨x, first, y, second, rfl⟩, count⟩
        exact ⟨count, ⟨x, first⟩, ⟨y, second⟩, by simp⟩
      · rintro ⟨count, ⟨x, first⟩, ⟨y, second⟩, -⟩
        exact ⟨_, ⟨x, first, y, second, rfl⟩, count⟩
  | case4 a b c =>
      have length : [a, b, c].length = toBase64Size size ↔ 2 = size := by
        simp only [List.length_cons, List.length_nil, toBase64Size]
        omega
      simp only [List.forall_mem_cons, ← exists_base64Digit_iff, length, fromBase64,
        Option.bind_eq_bind, Option.pure_def, Option.bind_eq_some_iff, Option.some.injEq]
      constructor
      · rintro ⟨bytes, ⟨x, first, y, second, z, third, rfl⟩, count⟩
        exact ⟨count, ⟨x, first⟩, ⟨y, second⟩, ⟨z, third⟩, by simp⟩
      · rintro ⟨count, ⟨x, first⟩, ⟨y, second⟩, ⟨z, third⟩, -⟩
        exact ⟨_, ⟨x, first, y, second, z, third, rfl⟩, count⟩
  | case5 a b c d rest ih =>
      simp only [← exists_base64Digit_iff] at ih
      have length : (a :: b :: c :: d :: rest).length = toBase64Size size ↔
          ∃ fewer, size = fewer + 3 ∧ rest.length = toBase64Size fewer := by
        simp only [List.length_cons, toBase64Size]
        constructor
        · intro same
          exact ⟨size - 3, by omega, by omega⟩
        · rintro ⟨fewer, rfl, same⟩
          omega
      simp only [List.forall_mem_cons, ← exists_base64Digit_iff, length, fromBase64,
        Option.bind_eq_bind, Option.pure_def, Option.bind_eq_some_iff, Option.some.injEq]
      constructor
      · rintro ⟨bytes, ⟨x, first, y, second, z, third, w, fourth, tail, decoded, rfl⟩, rfl⟩
        obtain ⟨restLength, others⟩ := (ih tail.length).mp ⟨tail, decoded, rfl⟩
        exact ⟨⟨tail.length, rfl, restLength⟩, ⟨x, first⟩, ⟨y, second⟩, ⟨z, third⟩, ⟨w, fourth⟩,
          others⟩
      · rintro ⟨⟨fewer, rfl, restLength⟩, ⟨x, first⟩, ⟨y, second⟩, ⟨z, third⟩, ⟨w, fourth⟩, others⟩
        obtain ⟨tail, decoded, rfl⟩ := (ih fewer).mpr ⟨restLength, others⟩
        exact ⟨_, ⟨x, first, y, second, z, third, w, fourth, tail, decoded, rfl⟩, rfl⟩

/-- The encoding has the size that `to_base64_size` says and base64 digits
only. -/
theorem toBase64_digits (bytes : Bytes) :
    (toBase64 bytes).length = toBase64Size bytes.length ∧
      ∀ c ∈ toBase64 bytes, IsBase64Digit c :=
  (exists_fromBase64_iff _ _).mp ⟨bytes, fromBase64_toBase64 bytes, rfl⟩

/-- Padded texts have four characters for each three bytes begun. -/
theorem length_toPaddedBase64 (bytes : Bytes) :
    (toPaddedBase64 bytes).length = 4 * ((bytes.length + 2) / 3) := by
  have length := (toBase64_digits bytes).1
  rw [toBase64Size] at length
  rw [toPaddedBase64, List.length_append, List.length_replicate, length]
  omega

/-- Every string is its digits and some padding. -/
theorem exists_padding (input : Bytes) :
    ∃ count, input = stripPadding input ++ List.replicate count 61 := by
  have split := List.takeWhile_append_dropWhile (p := (· == 61)) (l := input.reverse)
  refine ⟨(input.reverse.takeWhile (· == 61)).length, ?_⟩
  have padding : input.reverse.takeWhile (· == 61) =
      List.replicate (input.reverse.takeWhile (· == 61)).length 61 := by
    refine List.eq_replicate_of_mem fun c member => ?_
    have test : (c == 61) = true := List.mem_takeWhile_imp (p := (· == 61)) member
    exact beq_iff_eq.mp test
  have reversed := congrArg List.reverse split
  rw [List.reverse_append, List.reverse_reverse, padding, List.reverse_replicate] at reversed
  exact reversed.symm

theorem stripPadding_append {digits : Bytes} (digit : ∀ c ∈ digits, IsBase64Digit c) (count : Nat) :
    stripPadding (digits ++ List.replicate count 61) = digits := by
  have noPadding : ∀ c ∈ digits.reverse, ¬(c == 61) = true := by
    intro c member
    rw [beq_iff_eq]
    exact isBase64Digit_ne_padding (digit c (List.mem_reverse.mp member))
  rw [stripPadding, List.reverse_append, List.reverse_replicate, List.dropWhile_append_of_pos
    (fun c member => by rw [List.eq_of_mem_replicate member]; rfl)]
  cases reversed : digits.reverse with
  | nil => rw [List.dropWhile_nil, ← reversed, List.reverse_reverse]
  | cons last rest =>
      rw [List.dropWhile_cons, if_neg (noPadding last (by simp [reversed])), ← reversed,
        List.reverse_reverse]

/-! ## The three forms -/

/-- A text of hex digits for so many bytes. -/
structure IsHexText (size : Nat) (input : Bytes) : Prop where
  length : input.length = 2 * size
  digits : ∀ c ∈ input, IsHexDigit c

/-- A text of base64 digits for so many bytes, with any padding. -/
structure IsBase64Text (size : Nat) (input : Bytes) : Prop where
  length : (stripPadding input).length = toBase64Size size
  digits : ∀ c ∈ stripPadding input, IsBase64Digit c

/-- What `from_hex_or_b64` does for values of one size. -/
structure DecodesBinary (size : Nat) : Prop where
  accepts : ∀ input, (∃ value, fromHexOrB64 size input = some value) ↔
    input.length = size ∨ IsHexText size input ∨ IsBase64Text size input
  /-- The decoders write as many bytes as the value has. -/
  writesHex : ∀ input, IsHexText size input →
    ∃ bytes, fromHex input = some bytes ∧ bytes.length = size
  writesBase64 : ∀ input, IsBase64Text size input →
    ∃ bytes, fromBase64 (stripPadding input) = some bytes ∧ bytes.length = size
  raw : ∀ value : FixedBytes size, fromHexOrB64 size value.val = some value
  hex : ∀ (value : FixedBytes size) (text : Bytes), text.map toLower = toHex value.val →
    fromHexOrB64 size text = some value
  base64 : ∀ value : FixedBytes size, fromHexOrB64 size (toBase64 value.val) = some value
  paddedBase64 : ∀ value : FixedBytes size, fromHexOrB64 size (toPaddedBase64 value.val) = some value
  disjoint : ∀ input, ¬(input.length = size ∧ IsHexText size input) ∧
    ¬(input.length = size ∧ IsBase64Text size input) ∧
    ¬(IsHexText size input ∧ IsBase64Text size input)

theorem asFixed_val {size : Nat} (value : FixedBytes size) : asFixed size value.val = some value :=
  dif_pos value.property

theorem exists_asFixed_iff {size : Nat} {bytes : Bytes} :
    (∃ value, asFixed size bytes = some value) ↔ bytes.length = size := by
  rw [asFixed]
  split_ifs with length
  · simp [length]
  · simp [length]

theorem fromHexOrB64_raw {size : Nat} {input : Bytes} (length : input.length = size) :
    fromHexOrB64 size input = asFixed size input :=
  if_pos length

theorem fromHexOrB64_hex {size : Nat} {input bytes : Bytes} (several : 2 ≤ size)
    (length : input.length = 2 * size) (decoded : fromHex input = some bytes) :
    fromHexOrB64 size input = asFixed size bytes := by
  rw [fromHexOrB64, if_neg (by omega), if_pos length, decoded]

theorem fromHexOrB64_base64 {size : Nat} {input : Bytes} (notRaw : input.length ≠ size)
    (notHex : ¬IsHexText size input) :
    fromHexOrB64 size input =
      if (stripPadding input).length = toBase64Size size then
        (fromBase64 (stripPadding input)).bind (asFixed size)
      else none := by
  have none : (if input.length = 2 * size then fromHex input else none) = none := by
    split_ifs with length
    · rw [Option.eq_none_iff_forall_not_mem]
      intro bytes decoded
      obtain ⟨double, digits⟩ := (exists_fromHex_iff input bytes.length).mp ⟨bytes, decoded, rfl⟩
      exact notHex ⟨length, digits⟩
    · rfl
  rw [fromHexOrB64, if_neg notRaw]
  simp only [none]

/-- A text in base64 is longer than the value and shorter than its hex. -/
theorem toBase64Size_between {size : Nat} (several : 2 ≤ size) :
    size < toBase64Size size ∧ toBase64Size size < 2 * size := by
  rw [toBase64Size]
  omega

theorem length_stripPadding_le (input : Bytes) : (stripPadding input).length ≤ input.length := by
  obtain ⟨count, split⟩ := exists_padding input
  have length := congrArg List.length split
  rw [List.length_append] at length
  omega

theorem IsBase64Text.length_ne {size : Nat} {input : Bytes} (several : 2 ≤ size)
    (base64 : IsBase64Text size input) : input.length ≠ size := by
  have between := toBase64Size_between several
  have stripped := length_stripPadding_le input
  rw [base64.length] at stripped
  omega

/-- A text without padding that is as long as the hex is too long for base64. -/
theorem IsHexText.not_isBase64Text {size : Nat} {input : Bytes} (several : 2 ≤ size)
    (hex : IsHexText size input) : ¬IsBase64Text size input := by
  intro base64
  have between := toBase64Size_between several
  obtain ⟨count, split⟩ := exists_padding input
  cases count with
  | zero =>
      rw [List.replicate_zero, List.append_nil] at split
      have length := base64.length
      rw [← split, hex.length] at length
      omega
  | succ count =>
      have padded : (61 : UInt8) ∈ input := by
        rw [split]
        simp
      have digit := hex.digits 61 padded
      revert digit
      simp [IsHexDigit]

/-- What the base64 branch accepts. -/
theorem exists_base64_iff {size : Nat} {input : Bytes} :
    (∃ value, (if (stripPadding input).length = toBase64Size size then
        (fromBase64 (stripPadding input)).bind (asFixed size) else none) = some value) ↔
      IsBase64Text size input := by
  have decoding := exists_fromBase64_iff (stripPadding input) size
  constructor
  · rintro ⟨value, decoded⟩
    split_ifs at decoded with length
    obtain ⟨bytes, read, fixed⟩ := Option.bind_eq_some_iff.mp decoded
    obtain ⟨-, digits⟩ := decoding.mp ⟨bytes, read, exists_asFixed_iff.mp ⟨value, fixed⟩⟩
    exact ⟨length, digits⟩
  · rintro ⟨length, digits⟩
    obtain ⟨bytes, read, sized⟩ := decoding.mpr ⟨length, digits⟩
    obtain ⟨value, fixed⟩ := exists_asFixed_iff.mpr sized
    exact ⟨value, by rw [if_pos length, read, Option.bind_some, fixed]⟩

theorem fromHexOrB64_accepts {size : Nat} (several : 2 ≤ size) (input : Bytes) :
    (∃ value, fromHexOrB64 size input = some value) ↔
      input.length = size ∨ IsHexText size input ∨ IsBase64Text size input := by
  by_cases raw : input.length = size
  · rw [fromHexOrB64_raw raw]
    exact iff_of_true (exists_asFixed_iff.mpr raw) (Or.inl raw)
  · rw [or_iff_right raw]
    by_cases hex : IsHexText size input
    · obtain ⟨bytes, decoded, sized⟩ := (exists_fromHex_iff input size).mpr ⟨hex.length, hex.digits⟩
      rw [fromHexOrB64_hex several hex.length decoded]
      exact iff_of_true (exists_asFixed_iff.mpr sized) (Or.inl hex)
    · rw [or_iff_right hex, fromHexOrB64_base64 raw hex]
      exact exists_base64_iff

/-- Base64 of a value is decoded to it, whatever the padding. -/
theorem fromHexOrB64_toBase64 {size : Nat} (several : 2 ≤ size) (value : FixedBytes size)
    (count : Nat) :
    fromHexOrB64 size (toBase64 value.val ++ List.replicate count 61) = some value := by
  obtain ⟨length, digits⟩ := toBase64_digits value.val
  rw [value.property] at length
  have stripped := stripPadding_append digits count
  have base64 : IsBase64Text size (toBase64 value.val ++ List.replicate count 61) := by
    constructor
    · rw [stripped, length]
    · rw [stripped]
      exact digits
  rw [fromHexOrB64_base64 (base64.length_ne several)
    (fun hex => hex.not_isBase64Text several base64), stripped, if_pos length,
    fromBase64_toBase64, Option.bind_some, asFixed_val]

/-- For all sizes of two bytes and more, as the request types have them. -/
theorem decodes_binary_arguments (size : Nat) (several : 2 ≤ size) : DecodesBinary size where
  accepts := fromHexOrB64_accepts several
  writesHex input hex := (exists_fromHex_iff input size).mpr ⟨hex.length, hex.digits⟩
  writesBase64 input base64 :=
    (exists_fromBase64_iff (stripPadding input) size).mpr ⟨base64.length, base64.digits⟩
  raw value := by
    rw [fromHexOrB64_raw value.property, asFixed_val]
  hex value text lower := by
    have decoded : fromHex text = some value.val := by
      rw [← fromHex_map_toLower, lower, fromHex_toHex]
    have length : text.length = 2 * size := by
      rw [← List.length_map (f := toLower), lower, length_toHex, value.property]
    rw [fromHexOrB64_hex several length decoded, asFixed_val]
  base64 value := by
    have decoded := fromHexOrB64_toBase64 several value 0
    rwa [List.replicate_zero, List.append_nil] at decoded
  paddedBase64 value := fromHexOrB64_toBase64 several value _
  disjoint input := by
    refine ⟨?_, ?_, ?_⟩
    · rintro ⟨raw, hex⟩
      have length := hex.length
      omega
    · rintro ⟨raw, base64⟩
      exact base64.length_ne several raw
    · rintro ⟨hex, base64⟩
      exact hex.not_isBase64Text several base64

/-- An account id of zeros, as it comes from a client in padded base64. -/
theorem zero_account_decoded :
    DecodesBinary 33 ∧
      fromHexOrB64 33 (List.replicate 44 65) = some (FixedBytes.replicate 33 0) := by
  have decodes := decodes_binary_arguments 33 (by decide)
  have encoded : toPaddedBase64 (FixedBytes.replicate 33 0).val = List.replicate 44 65 := by
    decide
  exact ⟨decodes, encoded ▸ decodes.paddedBase64 (FixedBytes.replicate 33 0)⟩

end Spns
