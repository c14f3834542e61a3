import Mathlib.Algebra.GroupWithZero.Nat

/-!
# Byte strings and binary arguments

Strings of the source are byte strings.  A `bytes<N>` of the source is a byte
string that carries its length, so a key or a signature of the wrong size
cannot be built.  The hex and base64 helpers follow the usual definitions of
those encodings; `fromHexOrB64` is the decoder that every binary request
argument and every service node public key goes through.
-/

namespace Spns

/-- An arbitrary byte string. -/
abbrev Bytes := List UInt8

/-- A byte string of fixed size, the `bytes<N>` template. -/
abbrev FixedBytes (size : Nat) := { bytes : Bytes // bytes.length = size }

abbrev AccountID := FixedBytes 33
abbrev Ed25519PK := FixedBytes 32
abbrev X25519PK := FixedBytes 32
abbrev SubaccountTag := FixedBytes 36
abbrev Signature := FixedBytes 64
abbrev EncKey := FixedBytes 32

/-- Positions in an account id can be written as numerals. -/
instance (priority := high) neZero_accountSize : NeZero 33 := ⟨by decide⟩

/-- Positions in a subaccount tag can be written as numerals. -/
instance (priority := high) neZero_tagSize : NeZero 36 := ⟨by decide⟩

/-- The key in an account id follows its prefix byte. -/
theorem accountKey_fits : 1 + 32 ≤ 33 := by decide

/-- The key in a subaccount tag follows its first four bytes. -/
theorem tagKey_fits : 4 + 32 ≤ 36 := by decide

namespace FixedBytes

/-- A string of equal bytes. -/
def replicate (size : Nat) (byte : UInt8) : FixedBytes size :=
  ⟨List.replicate size byte, List.length_replicate⟩

/-- Cut `size` bytes out of a longer fixed string, as the `memcpy`s of the
source do. -/
def slice {total : Nat} (bytes : FixedBytes total) (start size : Nat)
    (fits : start + size ≤ total) : FixedBytes size :=
  ⟨(bytes.val.drop start).take size, by
    rw [List.length_take, List.length_drop, bytes.property]
    omega⟩

/-- The byte at a position inside the string. -/
def byteAt {size : Nat} (bytes : FixedBytes size) (index : Fin size) : UInt8 :=
  bytes.val.get (index.cast bytes.property.symm)

end FixedBytes

/-! ## Subaccounts -/

/-- A subaccount tag with the account owner's signature of it. -/
structure Subaccount where
  tag : SubaccountTag
  sig : Signature
  deriving DecidableEq

namespace Subaccount

/-- Two subaccounts are the same when their tags are. -/
def isSame (first second : Subaccount) : Bool :=
  first.tag == second.tag

/-- The static overload of `is_same` on optional subaccounts. -/
def isSameOptional (first second : Option Subaccount) : Bool :=
  if first.isSome != second.isSome then
    false -- one set, one unset
  else
    match first, second with
    | some a, some b => a.isSame b
    | _, _ => false -- the branch the source labels "Both unset"

theorem isSameOptional_eq_true_iff (first second : Option Subaccount) :
    isSameOptional first second = true ↔
      ∃ a b, first = some a ∧ second = some b ∧ a.tag = b.tag := by
  cases first <;> cases second <;> simp [isSameOptional, isSame, Subtype.ext_iff]

end Subaccount

/-! ## Hex and base64 -/

/-- Value of a hex digit. -/
def hexDigit (c : UInt8) : Option Nat :=
  if 48 ≤ c ∧ c ≤ 57 then some (c.toNat - 48)
  else if 97 ≤ c ∧ c ≤ 102 then some (c.toNat - 87)
  else if 65 ≤ c ∧ c ≤ 70 then some (c.toNat - 55)
  else none

/-- Decode pairs of hex digits; fails on a bad digit or an odd length. -/
def fromHex : Bytes → Option Bytes
  | [] => some []
  | [_] => none
  | high :: low :: rest => do
      let h ← hexDigit high
      let l ← hexDigit low
      let tail ← fromHex rest
      pure (UInt8.ofNat (16 * h + l) :: tail)

/-- Lower-case hex digit of a value below 16. -/
def toHexDigit (value : Nat) : UInt8 :=
  if value < 10 then UInt8.ofNat (48 + value) else UInt8.ofNat (87 + value)

/-- Lower-case hex encoding. -/
def toHex (bytes : Bytes) : Bytes :=
  bytes.flatMap fun byte => [toHexDigit (byte.toNat / 16), toHexDigit (byte.toNat % 16)]

/-- Value of a base64 digit. -/
def base64Digit (c : UInt8) : Option Nat :=
  if 65 ≤ c ∧ c ≤ 90 then some (c.toNat - 65)
  else if 97 ≤ c ∧ c ≤ 122 then some (c.toNat - 71)
  else if 48 ≤ c ∧ c ≤ 57 then some (c.toNat + 4)
  else if c = 43 then some 62
  else if c = 47 then some 63
  else none

/-- Decode unpadded base64: groups of four digits, then two or three. -/
def fromBase64 : Bytes → Option Bytes
  | [] => some []
  | [_] => none
  | [a, b] => do
      let x ← base64Digit a
      let y ← base64Digit b
      pure [UInt8.ofNat ((x * 64 + y) / 16)]
  | [a, b, c] => do
      let x ← base64Digit a
      let y ← base64Digit b
      let z ← base64Digit c
      let word := (x * 64 + y) * 64 + z
      pure [UInt8.ofNat (word / 1024), UInt8.ofNat (word / 4 % 256)]
  | a :: b :: c :: d :: rest => do
      let x ← base64Digit a
      let y ← base64Digit b
      let z ← base64Digit c
      let w ← base64Digit d
      let word := ((x * 64 + y) * 64 + z) * 64 + w
      let tail ← fromBase64 rest
      pure (UInt8.ofNat (word / 65536) :: UInt8.ofNat (word / 256 % 256) ::
        UInt8.ofNat (word % 256) :: tail)

/-- Number of base64 digits for `size` bytes without padding. -/
def toBase64Size (size : Nat) : Nat :=
  (size * 4 + 2) / 3

/-- Drop every trailing `=`. -/
def stripPadding (input : Bytes) : Bytes :=
  (input.reverse.dropWhile (· == 61)).reverse

/-- View a byte string as one of fixed size, when it has that size. -/
def asFixed (size : Nat) (bytes : Bytes) : Option (FixedBytes size) :=
  if h : bytes.length = size then some ⟨bytes, h⟩ else none

/-- `from_hex_or_b64`: raw bytes, hex, or base64 with any number of trailing
padding characters; `none` is the thrown `invalid_argument`. -/
def fromHexOrB64 (size : Nat) (input : Bytes) : Option (FixedBytes size) :=
  if input.length = size then
    asFixed size input
  else
    let hex := if input.length = 2 * size then fromHex input else none
    match hex with
    | some bytes => asFixed size bytes
    | none =>
        let digits := stripPadding input
        if digits.length = toBase64Size size then (fromBase64 digits).bind (asFixed size) else none

end Spns
