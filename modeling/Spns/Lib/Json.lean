import Mathlib.Data.List.Basic
import Mathlib.Data.List.TakeWhile
import Mathlib.Tactic.Common

/-!
# JSON texts

Values are written the way a JSON library writes them that escapes everything
outside of printable ASCII, with or without spaces after commas and colons,
and a reader of JSON reads them back.  The reader accepts whitespace, all
escapes and characters that are not escaped.  Numbers are integers; a reader of
integers need not care about leading zeros.

Texts are lists of characters.  The reader runs on fuel, and the length of the
text is enough of it.
-/

namespace Spns.Lib.Json

inductive Value where
  | null
  | bool (value : Bool)
  | int (value : Int)
  | str (text : List Char)
  | arr (items : List Value)
  | obj (fields : List (List Char × Value))

/-- How many spaces follow a comma or a colon. -/
structure Layout where
  spaces : Nat

/-- `, ` and `: `. -/
def Layout.spaced : Layout := ⟨1⟩

/-- `,` and `:`. -/
def Layout.compact : Layout := ⟨0⟩

/-- A separator with the spaces that follow it. -/
def Layout.separator (layout : Layout) (mark : Char) : List Char :=
  mark :: List.replicate layout.spaces ' '

/-! ## Writing -/

/-- The four hex digits of a 16-bit code unit. -/
def unitDigits (unit : Nat) : List Char :=
  [Nat.digitChar (unit / 4096 % 16), Nat.digitChar (unit / 256 % 16),
    Nat.digitChar (unit / 16 % 16), Nat.digitChar (unit % 16)]

/-- The escape of a 16-bit code unit. -/
def unicodeEscape (unit : Nat) : List Char :=
  '\\' :: 'u' :: unitDigits unit

/-- A character in a string: printable ASCII stands for itself, apart from the
quote and the backslash, and characters above U+FFFF are surrogate pairs. -/
def escape (c : Char) : List Char :=
  if c = '"' then ['\\', '"']
  else if c = '\\' then ['\\', '\\']
  else if c = '\n' then ['\\', 'n']
  else if c = '\r' then ['\\', 'r']
  else if c = '\t' then ['\\', 't']
  else if c = '\x0c' then ['\\', 'f']
  else if c = '\x08' then ['\\', 'b']
  else if ' ' ≤ c ∧ c ≤ '~' then [c]
  else if c.toNat < 0x10000 then unicodeEscape c.toNat
  else
    unicodeEscape (0xd800 + (c.toNat - 0x10000) / 0x400) ++
      unicodeEscape (0xdc00 + (c.toNat - 0x10000) % 0x400)

def escapeText (text : List Char) : List Char :=
  text.flatMap escape

def quote (text : List Char) : List Char :=
  '"' :: (escapeText text ++ ['"'])

def intChars (value : Int) : List Char :=
  if value < 0 then '-' :: Nat.toDigits 10 value.natAbs else Nat.toDigits 10 value.natAbs

mutual

def dumps (layout : Layout) : Value → List Char
  | .null => ['n', 'u', 'l', 'l']
  | .bool true => ['t', 'r', 'u', 'e']
  | .bool false => ['f', 'a', 'l', 's', 'e']
  | .int value => intChars value
  | .str text => quote text
  | .arr items => '[' :: (dumpsItems layout [] items ++ [']'])
  | .obj fields => '{' :: (dumpsFields layout [] fields ++ ['}'])

/-- The items of an array; `lead` stands before the first one. -/
def dumpsItems (layout : Layout) (lead : List Char) : List Value → List Char
  | [] => []
  | item :: rest => lead ++ (dumps layout item ++ dumpsItems layout (layout.separator ',') rest)

/-- The fields of an object. -/
def dumpsFields (layout : Layout) (lead : List Char) : List (List Char × Value) → List Char
  | [] => []
  | (key, value) :: rest =>
      lead ++ (quote key ++ (layout.separator ':' ++ (dumps layout value ++
        dumpsFields layout (layout.separator ',') rest)))

end

/-! ## Reading -/

def isSpace (c : Char) : Bool :=
  c = ' ' || c = '\t' || c = '\n' || c = '\r'

def skipSpace (text : List Char) : List Char :=
  text.dropWhile isSpace

/-- Skip whitespace and one character, which must be the given one. -/
def expect (mark : Char) (text : List Char) : Option (List Char) :=
  match skipSpace text with
  | c :: rest => if c = mark then some rest else none
  | [] => none

/-- The value of a hex digit. -/
def hexValue (c : Char) : Option Nat :=
  if '0' ≤ c ∧ c ≤ '9' then some (c.toNat - 48)
  else if 'a' ≤ c ∧ c ≤ 'f' then some (c.toNat - 87)
  else if 'A' ≤ c ∧ c ≤ 'F' then some (c.toNat - 55)
  else none

def readUnit : List Char → Option (Nat × List Char)
  | a :: b :: c :: d :: rest => do
      return ((((← hexValue a) * 16 + (← hexValue b)) * 16 + (← hexValue c)) * 16 + (← hexValue d),
        rest)
  | _ => none

/-- The character with a code point, if there is one. -/
def toChar (code : Nat) : Option Char :=
  if code.isValidChar then some (Char.ofNat code) else none

/-- The rest of a surrogate pair. -/
def readLowUnit (high : Nat) (text : List Char) : Option (Char × List Char) :=
  match text with
  | '\\' :: 'u' :: text => do
      let (low, rest) ← readUnit text
      if 0xdc00 ≤ low ∧ low < 0xe000 then
        return (← toChar (0x10000 + (high - 0xd800) * 0x400 + (low - 0xdc00)), rest)
      else
        none
  | _ => none

/-- An escape, after the backslash. -/
def readEscape : List Char → Option (Char × List Char)
  | [] => none
  | c :: rest =>
      if c = '"' ∨ c = '\\' ∨ c = '/' then some (c, rest)
      else if c = 'n' then some ('\n', rest)
      else if c = 'r' then some ('\r', rest)
      else if c = 't' then some ('\t', rest)
      else if c = 'f' then some ('\x0c', rest)
      else if c = 'b' then some ('\x08', rest)
      else if c = 'u' then do
        let (unit, rest) ← readUnit rest
        if 0xd800 ≤ unit ∧ unit < 0xdc00 then readLowUnit unit rest
        else return (← toChar unit, rest)
      else none

/-- A string, after the opening quote. -/
def readChars : (fuel : Nat) → List Char → Option (List Char × List Char)
  | 0, _ => none
  | _ + 1, [] => none
  | fuel + 1, c :: rest =>
      if c = '"' then some ([], rest)
      else if c = '\\' then do
        let (first, rest) ← readEscape rest
        let (others, rest) ← readChars fuel rest
        return (first :: others, rest)
      else if ' ' ≤ c then do
        let (others, rest) ← readChars fuel rest
        return (c :: others, rest)
      else none

/-- Digits of an integer; a fraction or an exponent makes it another number. -/
def readDigits (text : List Char) : Option (Nat × List Char) :=
  let digits := text.takeWhile Char.isDigit
  let rest := text.dropWhile Char.isDigit
  if digits = [] ∨ rest.head? = some '.' ∨ rest.head? = some 'e' ∨ rest.head? = some 'E' then none
  else some (Nat.ofDigitChars 10 digits 0, rest)

def readInt : List Char → Option (Int × List Char)
  | [] => none
  | c :: rest =>
      if c = '-' then (readDigits rest).map fun (digits, rest) => (-(digits : Int), rest)
      else (readDigits (c :: rest)).map fun (digits, rest) => ((digits : Int), rest)

/-- A keyword. -/
def readWord (word : List Char) (value : Value) (text : List Char) : Option (Value × List Char) :=
  if word.isPrefixOf text then some (value, text.drop word.length) else none

mutual

def readValue : (fuel : Nat) → List Char → Option (Value × List Char)
  | 0, _ => none
  | fuel + 1, text =>
      match skipSpace text with
      | [] => none
      | c :: rest =>
          if c = '"' then
            (readChars (rest.length + 1) rest).map fun (text, rest) => (.str text, rest)
          else if c = '[' then
            (readItems fuel true rest).map fun (items, rest) => (.arr items, rest)
          else if c = '{' then
            (readFields fuel true rest).map fun (fields, rest) => (.obj fields, rest)
          else if c = 'n' then readWord ['n', 'u', 'l', 'l'] .null (c :: rest)
          else if c = 't' then readWord ['t', 'r', 'u', 'e'] (.bool true) (c :: rest)
          else if c = 'f' then readWord ['f', 'a', 'l', 's', 'e'] (.bool false) (c :: rest)
          else (readInt (c :: rest)).map fun (value, rest) => (.int value, rest)

/-- The items of an array up to its end; all but the first follow a comma. -/
def readItems : (fuel : Nat) → (first : Bool) → List Char → Option (List Value × List Char)
  | 0, _, _ => none
  | fuel + 1, first, text =>
      match expect ']' text with
      | some rest => some ([], rest)
      | none => do
          let text ← if first then some text else expect ',' text
          let (item, text) ← readValue fuel text
          let (items, text) ← readItems fuel false text
          return (item :: items, text)

/-- The fields of an object up to its end. -/
def readFields :
    (fuel : Nat) → (first : Bool) → List Char → Option (List (List Char × Value) × List Char)
  | 0, _, _ => none
  | fuel + 1, first, text =>
      match expect '}' text with
      | some rest => some ([], rest)
      | none => do
          let text ← if first then some text else expect ',' text
          let text ← expect '"' text
          let (key, text) ← readChars (text.length + 1) text
          let text ← expect ':' text
          let (value, text) ← readValue fuel text
          let (fields, text) ← readFields fuel false text
          return ((key, value) :: fields, text)

end

/-- The value of a whole text. -/
def loads (text : List Char) : Option Value :=
  match readValue (text.length + 1) text with
  | some (value, rest) => if skipSpace rest = [] then some value else none
  | none => none

/-! ## Strings -/

theorem hexValue_digitChar : ∀ digit < 16, hexValue (Nat.digitChar digit) = some digit := by
  decide

theorem readUnit_unitDigits {unit : Nat} (small : unit < 0x10000) (rest : List Char) :
    readUnit (unitDigits unit ++ rest) = some (unit, rest) := by
  have value : (((unit / 4096 % 16) * 16 + unit / 256 % 16) * 16 + unit / 16 % 16) * 16 +
      unit % 16 = unit := by
    omega
  simp only [unitDigits, List.cons_append, List.nil_append, readUnit,
    hexValue_digitChar _ (Nat.mod_lt _ (by decide : 0 < 16)), Option.bind_eq_bind,
    Option.bind_some, Option.pure_def, value]

theorem toChar_toNat (c : Char) : toChar c.toNat = some c := by
  have valid : c.toNat.isValidChar := c.valid
  rw [toChar, if_pos valid, Char.ofNat_toNat]

theorem readEscape_unitDigits {unit : Nat} (small : unit < 0x10000) (rest : List Char) :
    readEscape ('u' :: (unitDigits unit ++ rest)) =
      if 0xd800 ≤ unit ∧ unit < 0xdc00 then readLowUnit unit rest
      else (toChar unit).map fun c => (c, rest) := by
  simp only [readEscape, readUnit_unitDigits small, Char.reduceEq, or_self, if_false, if_true,
    Option.bind_eq_bind, Option.bind_some, Option.pure_def, Option.map_eq_bind]
  rfl

/-- The second half of a surrogate pair. -/
theorem readLowUnit_unicodeEscape {high low : Nat} (small : low < 0x10000)
    (inside : 0xdc00 ≤ low ∧ low < 0xe000) {c : Char}
    (code : 0x10000 + (high - 0xd800) * 0x400 + (low - 0xdc00) = c.toNat) (rest : List Char) :
    readLowUnit high (unicodeEscape low ++ rest) = some (c, rest) := by
  simp only [unicodeEscape, List.cons_append, readLowUnit, readUnit_unitDigits small,
    Option.bind_eq_bind, Option.bind_some, if_pos inside, code, toChar_toNat, Option.pure_def]

/-- Code points have at most 21 bits, and surrogates are none. -/
theorem toNat_cases (c : Char) : c.toNat < 0xd800 ∨ 0xdfff < c.toNat ∧ c.toNat < 0x110000 :=
  c.valid

/-- A character that stands for itself, or its escape is read as the
character. -/
theorem escape_cases (c : Char) :
    (escape c = [c] ∧ c ≠ '"' ∧ c ≠ '\\' ∧ ' ' ≤ c) ∨
      ∃ tail, escape c = '\\' :: tail ∧ ∀ rest, readEscape (tail ++ rest) = some (c, rest) := by
  rw [escape]
  split_ifs with isQuote isBackslash isNewline isReturn isTab isFeed isBackspace plain small
  · exact Or.inr ⟨_, rfl, fun rest => by simp [readEscape, isQuote]⟩
  · exact Or.inr ⟨_, rfl, fun rest => by simp [readEscape, isBackslash]⟩
  · exact Or.inr ⟨_, rfl, fun rest => by simp [readEscape, isNewline]⟩
  · exact Or.inr ⟨_, rfl, fun rest => by simp [readEscape, isReturn]⟩
  · exact Or.inr ⟨_, rfl, fun rest => by simp [readEscape, isTab]⟩
  · exact Or.inr ⟨_, rfl, fun rest => by simp [readEscape, isFeed]⟩
  · exact Or.inr ⟨_, rfl, fun rest => by simp [readEscape, isBackspace]⟩
  · exact Or.inl ⟨rfl, isQuote, isBackslash, plain.1⟩
  · have single : ¬(0xd800 ≤ c.toNat ∧ c.toNat < 0xdc00) := by
      have cases := toNat_cases c
      omega
    refine Or.inr ⟨_, rfl, fun rest => ?_⟩
    rw [List.cons_append, readEscape_unitDigits small, if_neg single, toChar_toNat, Option.map_some]
  · have cases := toNat_cases c
    obtain ⟨high, isHigh⟩ : ∃ high, high = 0xd800 + (c.toNat - 0x10000) / 0x400 := ⟨_, rfl⟩
    obtain ⟨low, isLow⟩ : ∃ low, low = 0xdc00 + (c.toNat - 0x10000) % 0x400 := ⟨_, rfl⟩
    rw [← isHigh, ← isLow]
    refine Or.inr ⟨'u' :: (unitDigits high ++ unicodeEscape low), rfl, fun rest => ?_⟩
    rw [List.cons_append, List.append_assoc, readEscape_unitDigits (by omega), if_pos (by omega)]
    exact readLowUnit_unicodeEscape (by omega) (by omega) (by omega) rest

theorem readChars_escapeText (text rest : List Char) {fuel : Nat} (enough : text.length < fuel) :
    readChars fuel (escapeText text ++ '"' :: rest) = some (text, rest) := by
  induction text generalizing fuel with
  | nil =>
      obtain ⟨left, rfl⟩ := Nat.exists_eq_add_one_of_ne_zero (Nat.ne_of_gt enough)
      rfl
  | cons c text ih =>
      obtain ⟨left, rfl⟩ := Nat.exists_eq_add_one_of_ne_zero (Nat.ne_of_gt (Nat.zero_lt_of_lt enough))
      have later := ih (Nat.lt_of_succ_lt_succ enough)
      have split : escapeText (c :: text) ++ '"' :: rest =
          escape c ++ (escapeText text ++ '"' :: rest) := by
        simp [escapeText]
      rw [split]
      rcases escape_cases c with ⟨plain, notQuote, notBackslash, printable⟩ | ⟨tail, escaped, read⟩
      · rw [plain, List.singleton_append, readChars, if_neg notQuote, if_neg notBackslash,
          if_pos printable, later]
        rfl
      · rw [escaped, List.cons_append, readChars, if_neg (by decide), if_pos rfl, read]
        simp [later]

theorem length_le_escapeText (text : List Char) : text.length ≤ (escapeText text).length := by
  induction text with
  | nil => exact Nat.le_refl 0
  | cons c text ih =>
      have some : 1 ≤ (escape c).length := by
        rcases escape_cases c with ⟨plain, -⟩ | ⟨tail, escaped, -⟩
        · rw [plain, List.length_singleton]
        · rw [escaped, List.length_cons]
          omega
      rw [escapeText, List.flatMap_cons, List.length_append, List.length_cons]
      rw [escapeText] at ih
      omega

/-- A quoted string is read back, after its opening quote. -/
theorem readChars_quoted (text rest : List Char) :
    readChars ((escapeText text ++ '"' :: rest).length + 1) (escapeText text ++ '"' :: rest) =
      some (text, rest) := by
  apply readChars_escapeText
  have length := length_le_escapeText text
  rw [List.length_append]
  omega

/-! ## Numbers -/

/-- What may follow an integer. -/
def EndsNumber (rest : List Char) : Prop :=
  ∀ c, rest.head? = some c → c.isDigit = false ∧ c ≠ '.' ∧ c ≠ 'e' ∧ c ≠ 'E'

theorem readDigits_toDigits (value : Nat) {rest : List Char} (ends : EndsNumber rest) :
    readDigits (Nat.toDigits 10 value ++ rest) = some (value, rest) := by
  have digits : ∀ c ∈ Nat.toDigits 10 value, c.isDigit = true :=
    fun c member => Nat.isDigit_of_mem_toDigits (by decide) (by decide) member
  have stops : rest.takeWhile Char.isDigit = [] ∧ rest.dropWhile Char.isDigit = rest := by
    cases rest with
    | nil => exact ⟨rfl, rfl⟩
    | cons c rest =>
        have other := (ends c rfl).1
        exact ⟨List.takeWhile_cons_of_neg (by simp [other]),
          List.dropWhile_cons_of_neg (by simp [other])⟩
  have taken : (Nat.toDigits 10 value ++ rest).takeWhile Char.isDigit = Nat.toDigits 10 value := by
    rw [List.takeWhile_append_of_pos digits, stops.1, List.append_nil]
  have left : (Nat.toDigits 10 value ++ rest).dropWhile Char.isDigit = rest := by
    rw [List.dropWhile_append_of_pos digits, stops.2]
  have noFraction : ¬(Nat.toDigits 10 value = [] ∨ rest.head? = some '.' ∨ rest.head? = some 'e' ∨
      rest.head? = some 'E') := by
    rintro (empty | point | exponent | exponent)
    · exact Nat.toDigits_ne_nil empty
    · exact (ends _ point).2.1 rfl
    · exact (ends _ exponent).2.2.1 rfl
    · exact (ends _ exponent).2.2.2 rfl
  simp only [readDigits, taken, left, if_neg noFraction, Nat.ofDigitChars_ten_toDigits]

/-- The first character of an integer. -/
theorem exists_intChars_eq_cons (value : Int) :
    ∃ c rest, intChars value = c :: rest ∧ (c = '-' ∨ c.isDigit = true) := by
  rw [intChars]
  split_ifs
  · exact ⟨'-', _, rfl, Or.inl rfl⟩
  · obtain ⟨digit, digits, split⟩ := List.exists_cons_of_ne_nil
      (Nat.toDigits_ne_nil (b := 10) (n := value.natAbs))
    refine ⟨digit, digits, split, Or.inr ?_⟩
    have member : digit ∈ Nat.toDigits 10 value.natAbs := split ▸ List.mem_cons_self
    exact Nat.isDigit_of_mem_toDigits (by decide) (by decide) member

theorem readInt_intChars (value : Int) {rest : List Char} (ends : EndsNumber rest) :
    readInt (intChars value ++ rest) = some (value, rest) := by
  rw [intChars]
  split_ifs with negative
  · rw [List.cons_append, readInt, if_pos rfl, readDigits_toDigits value.natAbs ends, Option.map_some]
    have same : -(value.natAbs : Int) = value := by omega
    exact congrArg (fun number => some (number, rest)) same
  · have same : (value.natAbs : Int) = value := by omega
    obtain ⟨digit, digits, split⟩ := List.exists_cons_of_ne_nil
      (Nat.toDigits_ne_nil (b := 10) (n := value.natAbs))
    have member : digit ∈ Nat.toDigits 10 value.natAbs := split ▸ List.mem_cons_self
    have isDigit := Nat.isDigit_of_mem_toDigits (by decide) (by decide) member
    have read := readDigits_toDigits value.natAbs ends
    have notMinus : digit ≠ '-' := by
      rintro rfl
      exact absurd isDigit (by decide)
    rw [split, List.cons_append] at read ⊢
    rw [readInt, if_neg notMinus, read, Option.map_some]
    exact congrArg (fun number => some (number, rest)) same

/-! ## Values -/

theorem skipSpace_cons {c : Char} (other : isSpace c = false) (rest : List Char) :
    skipSpace (c :: rest) = c :: rest :=
  List.dropWhile_cons_of_neg (by simp [other])

theorem skipSpace_spaces (count : Nat) (rest : List Char) :
    skipSpace (List.replicate count ' ' ++ rest) = skipSpace rest :=
  List.dropWhile_append_of_pos fun c member => by
    rw [List.eq_of_mem_replicate member]
    rfl

theorem expect_cons {c : Char} (other : isSpace c = false) (rest : List Char) :
    expect c (c :: rest) = some rest := by
  rw [expect, skipSpace_cons other]
  exact if_pos rfl

theorem expect_eq_none {c mark : Char} (other : isSpace c = false) (different : c ≠ mark)
    (rest : List Char) : expect mark (c :: rest) = none := by
  rw [expect, skipSpace_cons other]
  exact if_neg different

theorem expect_spaces (mark : Char) (count : Nat) (rest : List Char) :
    expect mark (List.replicate count ' ' ++ rest) = expect mark rest := by
  rw [expect, expect, skipSpace_spaces]

theorem readValue_spaces (fuel count : Nat) (rest : List Char) :
    readValue fuel (List.replicate count ' ' ++ rest) = readValue fuel rest := by
  cases fuel with
  | zero => rfl
  | succ fuel => rw [readValue, readValue, skipSpace_spaces]

/-- The first character of an integer starts no other value. -/
structure StartsNumber (c : Char) : Prop where
  notSpace : isSpace c = false
  notQuote : c ≠ '"'
  notBracket : c ≠ '['
  notBrace : c ≠ '{'
  notNull : c ≠ 'n'
  notTrue : c ≠ 't'
  notFalse : c ≠ 'f'
  notClosing : c ≠ ']'

theorem startsNumber {c : Char} (starts : c = '-' ∨ c.isDigit = true) : StartsNumber c := by
  rcases starts with rfl | isDigit
  · constructor <;> decide
  · constructor
    case notSpace =>
      rw [Bool.eq_false_iff]
      intro isSpace
      simp only [Json.isSpace, Bool.or_eq_true, decide_eq_true_eq] at isSpace
      rcases isSpace with ((rfl | rfl) | rfl) | rfl
      all_goals exact absurd isDigit (by decide)
    all_goals
      rintro rfl
      exact absurd isDigit (by decide)

/-- Values start with a character that is no space and ends no array. -/
theorem exists_dumps_eq_cons (layout : Layout) (value : Value) :
    ∃ c rest, dumps layout value = c :: rest ∧ isSpace c = false ∧ c ≠ ']' := by
  cases value with
  | null => exact ⟨'n', _, rfl, by decide, by decide⟩
  | bool value =>
      cases value with
      | true => exact ⟨'t', _, rfl, by decide, by decide⟩
      | false => exact ⟨'f', _, rfl, by decide, by decide⟩
  | int value =>
      obtain ⟨c, rest, split, starts⟩ := exists_intChars_eq_cons value
      exact ⟨c, rest, split, (startsNumber starts).notSpace, (startsNumber starts).notClosing⟩
  | str text => exact ⟨'"', _, rfl, by decide, by decide⟩
  | arr items => exact ⟨'[', _, rfl, by decide, by decide⟩
  | obj fields => exact ⟨'{', _, rfl, by decide, by decide⟩

/-- What stands before an item or a field that is not the first. -/
def Layout.lead (layout : Layout) (first : Bool) : List Char :=
  if first then [] else layout.separator ','

theorem endsNumber_cons {c : Char} (other : c.isDigit = false ∧ c ≠ '.' ∧ c ≠ 'e' ∧ c ≠ 'E')
    (rest : List Char) : EndsNumber (c :: rest) := by
  intro head isHead
  obtain rfl := Option.some.inj isHead
  exact other

/-- What follows an item ends its numbers. -/
theorem endsNumber_items (layout : Layout) (items : List Value) (rest : List Char) :
    EndsNumber (dumpsItems layout (layout.separator ',') items ++ ']' :: rest) := by
  cases items with
  | nil => exact endsNumber_cons (by decide) rest
  | cons item items =>
      rw [dumpsItems, Layout.separator]
      exact endsNumber_cons (by decide) _

theorem endsNumber_fields (layout : Layout) (fields : List (List Char × Value))
    (rest : List Char) :
    EndsNumber (dumpsFields layout (layout.separator ',') fields ++ '}' :: rest) := by
  cases fields with
  | nil => exact endsNumber_cons (by decide) rest
  | cons field fields =>
      rw [dumpsFields, Layout.separator]
      exact endsNumber_cons (by decide) _

/-- Before an item that is not the first there is a comma. -/
theorem expect_lead (layout : Layout) (rest : List Char) :
    expect ',' (layout.lead false ++ rest) = some (List.replicate layout.spaces ' ' ++ rest) :=
  expect_cons (by decide) _

theorem readItems_cons {layout : Layout} {item : Value} {items : List Value} {fuel : Nat}
    {rest after : List Char} (first : Bool)
    (itemRead : readValue fuel (dumps layout item ++ rest) = some (item, rest))
    (itemsRead : readItems fuel false rest = some (items, after)) :
    readItems (fuel + 1) first (layout.lead first ++ (dumps layout item ++ rest)) =
      some (item :: items, after) := by
  obtain ⟨c, tail, split, notSpace, notClosing⟩ := exists_dumps_eq_cons layout item
  cases first with
  | true =>
      have unfinished : expect ']' (dumps layout item ++ rest) = none := by
        rw [split]
        exact expect_eq_none notSpace notClosing _
      simp only [readItems, Layout.lead, if_true, List.nil_append, unfinished, itemRead, itemsRead,
        Option.bind_eq_bind, Option.bind_some, Option.pure_def]
  | false =>
      have unfinished : expect ']' (layout.lead false ++ (dumps layout item ++ rest)) = none :=
        expect_eq_none (by decide) (by decide) _
      simp only [readItems, unfinished, Bool.false_eq_true, if_false, expect_lead, readValue_spaces,
        itemRead, itemsRead, Option.bind_eq_bind, Option.bind_some, Option.pure_def]

theorem readFields_cons {layout : Layout} {key : List Char} {value : Value}
    {fields : List (List Char × Value)} {fuel : Nat} {rest after : List Char} (first : Bool)
    (valueRead : readValue fuel (dumps layout value ++ rest) = some (value, rest))
    (fieldsRead : readFields fuel false rest = some (fields, after)) :
    readFields (fuel + 1) first (layout.lead first ++ (quote key ++ (layout.separator ':' ++
      (dumps layout value ++ rest)))) = some ((key, value) :: fields, after) := by
  obtain ⟨text, isText⟩ : ∃ text, text = layout.separator ':' ++ (dumps layout value ++ rest) :=
    ⟨_, rfl⟩
  have colon : expect ':' text = some (List.replicate layout.spaces ' ' ++ (dumps layout value ++ rest)) := by
    rw [isText]
    exact expect_cons (by decide) _
  have quoted : quote key ++ text = '"' :: (escapeText key ++ '"' :: text) := by
    simp [quote]
  have opened : expect '"' (quote key ++ text) = some (escapeText key ++ '"' :: text) := by
    rw [quoted]
    exact expect_cons (by decide) _
  rw [← isText]
  cases first with
  | true =>
      have unfinished : expect '}' (quote key ++ text) = none := by
        rw [quoted]
        exact expect_eq_none (by decide) (by decide) _
      simp only [readFields, Layout.lead, if_true, List.nil_append, unfinished, opened, readChars_quoted,
        colon, readValue_spaces, valueRead, fieldsRead, Option.bind_eq_bind, Option.bind_some,
        Option.pure_def]
  | false =>
      have unfinished : expect '}' (layout.lead false ++ (quote key ++ text)) = none :=
        expect_eq_none (by decide) (by decide) _
      simp only [readFields, unfinished, Bool.false_eq_true, if_false, expect_lead, expect_spaces, opened,
        readChars_quoted, colon, readValue_spaces, valueRead, fieldsRead, Option.bind_eq_bind,
        Option.bind_some, Option.pure_def]

theorem readWord_append (word : List Char) (value : Value) (rest : List Char) :
    readWord word value (word ++ rest) = some (value, rest) := by
  simp [readWord]

theorem readValue_int (value : Int) {rest : List Char} (ends : EndsNumber rest) (fuel : Nat) :
    readValue (fuel + 1) (intChars value ++ rest) = some (.int value, rest) := by
  have read := readInt_intChars value ends
  obtain ⟨c, tail, split, starts⟩ := exists_intChars_eq_cons value
  have starts := startsNumber starts
  rw [split, List.cons_append] at read ⊢
  simp only [readValue, skipSpace_cons starts.notSpace, if_neg starts.notQuote,
    if_neg starts.notBracket, if_neg starts.notBrace, if_neg starts.notNull, if_neg starts.notTrue,
    if_neg starts.notFalse, read, Option.map_some]

theorem readValue_str (text rest : List Char) (fuel : Nat) :
    readValue (fuel + 1) (quote text ++ rest) = some (.str text, rest) := by
  have quoted : quote text ++ rest = '"' :: (escapeText text ++ '"' :: rest) := by
    simp [quote]
  rw [quoted, readValue, skipSpace_cons (by decide)]
  simp only [if_true, readChars_quoted, Option.map_some]

mutual

/-- What is written is read back, whatever follows it. -/
theorem readValue_dumps (layout : Layout) (value : Value) (fuel : Nat) (rest : List Char)
    (enough : (dumps layout value).length < fuel) (ends : EndsNumber rest) :
    readValue fuel (dumps layout value ++ rest) = some (value, rest) := by
  obtain ⟨left, rfl⟩ := Nat.exists_eq_add_one_of_ne_zero (Nat.ne_of_gt (Nat.zero_lt_of_lt enough))
  match value with
  | .null => exact readWord_append ['n', 'u', 'l', 'l'] .null rest
  | .bool true => exact readWord_append ['t', 'r', 'u', 'e'] (.bool true) rest
  | .bool false => exact readWord_append ['f', 'a', 'l', 's', 'e'] (.bool false) rest
  | .int number => exact readValue_int number ends left
  | .str text => exact readValue_str text rest left
  | .arr items =>
      have read := readItems_dumps layout items left true rest (by
        simp only [dumps, List.length_cons, List.length_append, List.length_nil] at enough
        simp only [Layout.lead, if_true]
        omega)
      rw [Layout.lead, if_pos rfl] at read
      rw [dumps, List.cons_append, List.append_assoc, List.singleton_append, readValue,
        skipSpace_cons (by decide)]
      simp only [Char.reduceEq, if_false, if_true, read, Option.map_some]
  | .obj fields =>
      have read := readFields_dumps layout fields left true rest (by
        simp only [dumps, List.length_cons, List.length_append, List.length_nil] at enough
        simp only [Layout.lead, if_true]
        omega)
      rw [Layout.lead, if_pos rfl] at read
      rw [dumps, List.cons_append, List.append_assoc, List.singleton_append, readValue,
        skipSpace_cons (by decide)]
      simp only [Char.reduceEq, if_false, if_true, read, Option.map_some]

theorem readItems_dumps (layout : Layout) (items : List Value) (fuel : Nat) (first : Bool)
    (rest : List Char)
    (enough : (dumpsItems layout (layout.lead first) items).length + 1 < fuel) :
    readItems fuel first (dumpsItems layout (layout.lead first) items ++ ']' :: rest) =
      some (items, rest) := by
  obtain ⟨left, rfl⟩ := Nat.exists_eq_add_one_of_ne_zero (Nat.ne_of_gt (Nat.zero_lt_of_lt enough))
  match items with
  | [] =>
      rw [dumpsItems, List.nil_append, readItems, expect_cons (by decide)]
  | item :: items =>
      simp only [dumpsItems, List.length_append] at enough
      obtain ⟨c, tail, split, -⟩ := exists_dumps_eq_cons layout item
      have some : 0 < (dumps layout item).length := by simp [split]
      have itemRead := readValue_dumps layout item left
        (dumpsItems layout (layout.separator ',') items ++ ']' :: rest) (by omega)
        (endsNumber_items layout items rest)
      have itemsRead := readItems_dumps layout items left false rest (by
        rw [Layout.lead, if_neg (by decide)]
        omega)
      rw [dumpsItems, List.append_assoc, List.append_assoc]
      exact readItems_cons first itemRead itemsRead

theorem readFields_dumps (layout : Layout) (fields : List (List Char × Value)) (fuel : Nat)
    (first : Bool) (rest : List Char)
    (enough : (dumpsFields layout (layout.lead first) fields).length + 1 < fuel) :
    readFields fuel first (dumpsFields layout (layout.lead first) fields ++ '}' :: rest) =
      some (fields, rest) := by
  obtain ⟨left, rfl⟩ := Nat.exists_eq_add_one_of_ne_zero (Nat.ne_of_gt (Nat.zero_lt_of_lt enough))
  match fields with
  | [] =>
      rw [dumpsFields, List.nil_append, readFields, expect_cons (by decide)]
  | (key, value) :: fields =>
      simp only [dumpsFields, List.length_append] at enough
      obtain ⟨c, tail, split, -⟩ := exists_dumps_eq_cons layout value
      have some : 0 < (dumps layout value).length := by simp [split]
      have valueRead := readValue_dumps layout value left
        (dumpsFields layout (layout.separator ',') fields ++ '}' :: rest) (by omega)
        (endsNumber_fields layout fields rest)
      have fieldsRead := readFields_dumps layout fields left false rest (by
        rw [Layout.lead, if_neg (by decide)]
        omega)
      rw [dumpsFields, List.append_assoc, List.append_assoc, List.append_assoc, List.append_assoc]
      exact readFields_cons first valueRead fieldsRead

end

/-- Every value is read back from its text. -/
theorem loads_dumps (layout : Layout) (value : Value) : loads (dumps layout value) = some value := by
  have read := readValue_dumps layout value ((dumps layout value).length + 1) [] (Nat.lt_succ_self _)
    (fun c isHead => absurd isHead (by simp))
  rw [List.append_nil] at read
  rw [loads, read]
  rfl

/-! ## Sizes -/

/-- The characters of the ASCII table. -/
def IsAscii (c : Char) : Prop :=
  c.toNat < 128

theorem isAscii_of_all {text : List Char} (all : (text.all fun c => c.toNat < 128) = true) :
    ∀ c ∈ text, IsAscii c := by
  intro c member
  have low : c.toNat < 128 := decide_eq_true_eq.mp (List.all_eq_true.mp all c member)
  exact low

theorem isAscii_digitChar : ∀ digit < 16, (Nat.digitChar digit).toNat < 128 := by
  decide

theorem isAscii_unicodeEscape (unit : Nat) : ∀ c ∈ unicodeEscape unit, IsAscii c := by
  intro c member
  have digit : ∀ value : Nat, IsAscii (Nat.digitChar (value % 16)) :=
    fun value => isAscii_digitChar _ (Nat.mod_lt value (by decide))
  simp only [unicodeEscape, unitDigits, List.mem_cons, List.not_mem_nil, or_false] at member
  rcases member with rfl | rfl | rfl | rfl | rfl | rfl
  · exact (by decide : '\\'.toNat < 128)
  · exact (by decide : 'u'.toNat < 128)
  all_goals exact digit _

theorem isAscii_escape (c : Char) : ∀ other ∈ escape c, IsAscii other := by
  have short : ∀ letter : Char, IsAscii letter → ∀ other ∈ ['\\', letter], IsAscii other := by
    intro letter ascii other member
    rcases List.mem_pair.mp member with rfl | rfl
    · exact (by decide : '\\'.toNat < 128)
    · exact ascii
  rw [escape]
  split_ifs with isQuote isBackslash isNewline isReturn isTab isFeed isBackspace plain small
  · exact short '"' (by decide : '"'.toNat < 128)
  · exact short '\\' (by decide : '\\'.toNat < 128)
  · exact short 'n' (by decide : 'n'.toNat < 128)
  · exact short 'r' (by decide : 'r'.toNat < 128)
  · exact short 't' (by decide : 't'.toNat < 128)
  · exact short 'f' (by decide : 'f'.toNat < 128)
  · exact short 'b' (by decide : 'b'.toNat < 128)
  · intro other member
    rw [List.mem_singleton.mp member]
    have high : c.toNat ≤ 126 := plain.2
    exact Nat.lt_of_le_of_lt high (by decide)
  · exact isAscii_unicodeEscape _
  · intro other member
    rcases List.mem_append.mp member with first | second
    · exact isAscii_unicodeEscape _ other first
    · exact isAscii_unicodeEscape _ other second

theorem isAscii_quote (text : List Char) : ∀ c ∈ quote text, IsAscii c := by
  intro c member
  simp only [quote, escapeText, List.mem_cons, List.mem_append, List.mem_flatMap, List.not_mem_nil,
    or_false] at member
  rcases member with rfl | ⟨other, -, escaped⟩ | rfl
  · exact (by decide : '"'.toNat < 128)
  · exact isAscii_escape other c escaped
  · exact (by decide : '"'.toNat < 128)

theorem isAscii_intChars (value : Int) : ∀ c ∈ intChars value, IsAscii c := by
  have digits : ∀ c ∈ Nat.toDigits 10 value.natAbs, IsAscii c := by
    intro c member
    have isDigit := Nat.isDigit_of_mem_toDigits (by decide) (by decide) member
    simp only [Char.isDigit, Bool.and_eq_true, decide_eq_true_eq] at isDigit
    have high : c.toNat ≤ 57 := isDigit.2
    exact Nat.lt_of_le_of_lt high (by decide)
  rw [intChars]
  split_ifs
  · exact List.forall_mem_cons.mpr ⟨(by decide : '-'.toNat < 128), digits⟩
  · exact digits

theorem isAscii_separator (layout : Layout) {mark : Char} (ascii : IsAscii mark) :
    ∀ c ∈ layout.separator mark, IsAscii c := by
  refine List.forall_mem_cons.mpr ⟨ascii, fun c member => ?_⟩
  rw [List.eq_of_mem_replicate member]
  exact (by decide : ' '.toNat < 128)

mutual

/-- Texts are ASCII, whatever the strings in the value. -/
theorem isAscii_dumps (layout : Layout) (value : Value) : ∀ c ∈ dumps layout value, IsAscii c := by
  match value with
  | .null => exact @isAscii_of_all ['n', 'u', 'l', 'l'] (by decide)
  | .bool true => exact @isAscii_of_all ['t', 'r', 'u', 'e'] (by decide)
  | .bool false => exact @isAscii_of_all ['f', 'a', 'l', 's', 'e'] (by decide)
  | .int number => exact isAscii_intChars number
  | .str text => exact isAscii_quote text
  | .arr items =>
      have inside := isAscii_dumpsItems layout items [] (by simp)
      rw [dumps]
      simp only [List.mem_cons, List.mem_append, List.not_mem_nil, or_false]
      rintro c (rfl | member | rfl)
      · exact (by decide : '['.toNat < 128)
      · exact inside c member
      · exact (by decide : ']'.toNat < 128)
  | .obj fields =>
      have inside := isAscii_dumpsFields layout fields [] (by simp)
      rw [dumps]
      simp only [List.mem_cons, List.mem_append, List.not_mem_nil, or_false]
      rintro c (rfl | member | rfl)
      · exact (by decide : '\x7b'.toNat < 128)
      · exact inside c member
      · exact (by decide : '\x7d'.toNat < 128)

theorem isAscii_dumpsItems (layout : Layout) (items : List Value) (lead : List Char)
    (leadAscii : ∀ c ∈ lead, IsAscii c) : ∀ c ∈ dumpsItems layout lead items, IsAscii c := by
  match items with
  | [] => simp [dumpsItems]
  | item :: items =>
      have first := isAscii_dumps layout item
      have others := isAscii_dumpsItems layout items (layout.separator ',')
        (isAscii_separator layout (by decide : ','.toNat < 128))
      rw [dumpsItems]
      simp only [List.mem_append]
      rintro c (before | member | member)
      · exact leadAscii c before
      · exact first c member
      · exact others c member

theorem isAscii_dumpsFields (layout : Layout) (fields : List (List Char × Value))
    (lead : List Char) (leadAscii : ∀ c ∈ lead, IsAscii c) :
    ∀ c ∈ dumpsFields layout lead fields, IsAscii c := by
  match fields with
  | [] => simp [dumpsFields]
  | (key, value) :: fields =>
      have first := isAscii_dumps layout value
      have others := isAscii_dumpsFields layout fields (layout.separator ',')
        (isAscii_separator layout (by decide : ','.toNat < 128))
      rw [dumpsFields]
      simp only [List.mem_append]
      rintro c (before | member | member | member | member)
      · exact leadAscii c before
      · exact isAscii_quote key c member
      · exact isAscii_separator layout (by decide : ':'.toNat < 128) c member
      · exact first c member
      · exact others c member

end

theorem length_quote (text : List Char) : (quote text).length = (escapeText text).length + 2 := by
  rw [quote, List.length_cons, List.length_append]
  rfl

theorem length_separator (layout : Layout) (mark : Char) :
    (layout.separator mark).length = layout.spaces + 1 := by
  rw [Layout.separator, List.length_cons, List.length_replicate]

theorem length_dumps_obj (layout : Layout) (fields : List (List Char × Value)) :
    (dumps layout (.obj fields)).length = (dumpsFields layout [] fields).length + 2 := by
  rw [dumps, List.length_cons, List.length_append]
  rfl

theorem length_dumpsFields_cons (layout : Layout) (lead key : List Char) (value : Value)
    (rest : List (List Char × Value)) :
    (dumpsFields layout lead ((key, value) :: rest)).length =
      lead.length + (quote key).length + (layout.spaces + 1) + (dumps layout value).length +
        (dumpsFields layout (layout.separator ',') rest).length := by
  rw [dumpsFields]
  simp only [List.length_append, length_separator]
  omega

end Spns.Lib.Json
