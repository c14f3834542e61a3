import Mathlib.Data.List.TakeWhile
import Spns.Lib.Dictionary
import Spns.Lib.Fallible
import Spns.Onion.Request

/-!
# The grammar of onion requests

The body of a request is `l`, an encoded string with the metadata, possibly a
second string with the body of the sub-request, and `e`.  The metadata is a
JSON object with a method and an endpoint that starts with a slash.

The parser takes a second string for absent when at most one byte is left, so
it ignores a stray byte after the first string.  Beyond that it differs from the
grammar only at lengths with more digits than the interpreter converts.
-/

namespace Spns.Onion

open Spns
open Spns.Lib.Bencode
open Spns.Lib.Fallible

/-! ## The grammar -/

/-- The metadata asks for this sub-request, apart from its body. -/
def Asks (python : Python) (text : Bytes) (subrequest : Subrequest) : Prop :=
  ∃ members, python.loads text = .ok (.dict members) ∧
    members.lookup (literal "method") = some subrequest.method ∧
    members.lookup (literal "endpoint") = some (.str subrequest.endpoint) ∧
    literal "/" <+: subrequest.endpoint ∧
    subrequest.headers = (members.lookup (literal "headers")).getD (.dict [])

/-- A request by its parts: the string with the metadata, and the string with
the body of the sub-request where it has one.  Each string comes with the
digits of its length. -/
inductive Parts
  | single (digits text : Bytes)
  | double (digits text otherDigits content : Bytes)

namespace Parts

/-- The digits before the metadata. -/
def digits : Parts → Bytes
  | .single digits _ => digits
  | .double digits _ _ _ => digits

/-- The text of the metadata. -/
def text : Parts → Bytes
  | .single _ text => text
  | .double _ text _ _ => text

/-- What follows the metadata. -/
def rest : Parts → Bytes
  | .single _ _ => []
  | .double _ _ otherDigits content => otherDigits ++ 58 :: content

/-- The body of the sub-request, empty where it is absent. -/
def content : Parts → Bytes
  | .single _ _ => []
  | .double _ _ _ content => content

/-- The bytes of the request. -/
def bytes (parts : Parts) : Bytes :=
  108 :: (parts.digits ++ 58 :: (parts.text ++ parts.rest)) ++ [101]

/-- The parts are encoded strings. -/
def Encoded : Parts → Prop
  | .single digits text => IsString digits text
  | .double digits text otherDigits content =>
      IsString digits text ∧ IsString otherDigits content

/-- The interpreter converts the lengths. -/
def Converts (python : Python) : Parts → Prop
  | .single digits _ => python.Converts digits.length
  | .double digits _ otherDigits _ =>
      python.Converts digits.length ∧ python.Converts otherDigits.length

end Parts

/-- The body has these parts, and they ask for the sub-request. -/
structure Requests (python : Python) (body : Bytes) (subrequest : Subrequest) (parts : Parts) :
    Prop where
  bytes : body = parts.bytes
  encoded : parts.Encoded
  asks : Asks python parts.text subrequest
  content : subrequest.body = parts.content

/-- The body is in the grammar, and asks for the sub-request. -/
def Grammar (python : Python) (body : Bytes) (subrequest : Subrequest) : Prop :=
  ∃ parts, Requests python body subrequest parts

/-- A string that asks for the sub-request is followed by one more byte, in
which no second string can be. -/
def Stray (python : Python) (body : Bytes) (subrequest : Subrequest) : Prop :=
  ∃ digits text stray, body = 108 :: (digits ++ 58 :: (text ++ [stray])) ++ [101] ∧
    IsString digits text ∧ python.Converts digits.length ∧ Asks python text subrequest ∧
    subrequest.body = []

/-- The body is in the grammar, but with a length of too many digits. -/
def LongLength (python : Python) (body : Bytes) : Prop :=
  ∃ subrequest parts, Requests python body subrequest parts ∧ ¬parts.Converts python

/-! ## What the parser accepts -/

/-- Only one name is not bound. -/
@[simp]
theorem resolve_eq_ok {name : Name} (bound : name ≠ .http) : resolve name = .ok () := by
  cases name <;> first | rfl | contradiction

theorem toInt_eq_ok_iff {python : Python} {digits : Bytes} {value : Nat} :
    python.toInt digits = .ok value ↔
      python.Converts digits.length ∧ digitsValue digits = value := by
  rw [Python.toInt]
  split_ifs with converts
  · simp [converts]
  · simp [converts]

/-- The parser takes encoded strings whose lengths the interpreter converts. -/
theorem bencodeConsumeString_eq_ok_iff {python : Python} {body text rest : Bytes} :
    bencodeConsumeString python body = .ok (text, rest) ↔
      ∃ digits, IsString digits text ∧ python.Converts digits.length ∧
        body = digits ++ 58 :: (text ++ rest) := by
  simp only [bencodeConsumeString, resolve_eq_ok, ne_eq, reduceCtorEq, not_false_eq_true, ok_bind,
    throw_bind]
  constructor
  · intro consumed
    generalize taken : body.takeWhile isDigit = digits at consumed
    have start : digits <+: body := taken ▸ List.takeWhile_prefix _
    have decimal : ∀ digit ∈ digits, isDigit digit = true := by
      intro digit member
      exact List.mem_takeWhile_imp (taken ▸ member)
    split_ifs at consumed with invalid
    push Not at invalid
    obtain ⟨some, inside, colon⟩ := invalid
    obtain ⟨strlen, converted, fitted⟩ := bind_eq_ok_iff.mp consumed
    rw [← List.prefix_iff_eq_take.mp start, toInt_eq_ok_iff] at converted
    obtain ⟨converts, rfl⟩ := converted
    split_ifs at fitted with tooLong
    cases fitted
    have size : (List.take (digitsValue digits) (List.drop (digits.length + 1) body)).length =
        digitsValue digits := by
      rw [List.length_take, List.length_drop]
      omega
    refine ⟨digits, ⟨List.length_pos_iff.mp (by omega), decimal, size.symm⟩, converts, ?_⟩
    have tail : body.drop digits.length = 58 :: body.drop (digits.length + 1) := by
      rw [List.drop_eq_getElem_cons inside, (List.getElem?_eq_some_iff.mp colon).2]
    have beyond : body.drop (digits.length + 1 + digitsValue digits) =
        (body.drop (digits.length + 1)).drop (digitsValue digits) := List.drop_drop.symm
    rw [beyond, List.take_append_drop, ← tail]
    exact (List.prefix_iff_eq_append.mp start).symm
  · rintro ⟨digits, string, converts, rfl⟩
    have valid : ¬(digits.length = 0 ∨ (digits ++ 58 :: (text ++ rest)).length ≤ digits.length ∨
        ¬(digits ++ 58 :: (text ++ rest))[digits.length]? = some 58) := by
      simp [string.some_digit]
    have after : (digits ++ 58 :: (text ++ rest)).drop (digits.length + 1) = text ++ rest := by
      rw [← List.drop_drop, List.drop_left, List.drop_one, List.tail_cons]
    have beyond : (digits ++ 58 :: (text ++ rest)).drop (digits.length + 1 + text.length) =
        rest := by
      rw [← List.drop_drop, after, List.drop_left]
    rw [takeWhile_isDigit string.decimal, List.take_left, if_neg valid,
      toInt_eq_ok_iff.mpr ⟨converts, string.size⟩, ok_bind, if_neg (by simp; omega), after,
      beyond, List.take_left]
    rfl

theorem subreqBody_eq_ok_iff {python : Python} {rest content : Bytes} :
    subreqBody python rest = .ok content ↔
      rest.length ≤ 1 ∧ content = [] ∨
        1 < rest.length ∧ bencodeConsumeString python rest = .ok (content, []) := by
  simp only [subreqBody, resolve_eq_ok, ne_eq, reduceCtorEq, not_false_eq_true, ok_bind, throw_bind]
  by_cases several : 1 < rest.length
  · rw [if_pos several, bind_eq_ok_iff, or_iff_right (by omega), and_iff_right several]
    constructor
    · rintro ⟨⟨found, left⟩, consumed, done⟩
      simp only at done
      split_ifs at done with none
      cases done
      rw [consumed, List.length_eq_zero_iff.mp none]
    · intro consumed
      exact ⟨(content, []), consumed, rfl⟩
  · rw [if_neg several, or_iff_left (by omega), and_iff_right (by omega)]
    constructor
    · intro done
      cases done
      rfl
    · rintro rfl
      rfl

/-- A body between the list markers. -/
theorem exists_markers_iff {body : Bytes} :
    body.head? = some 108 ∧ body.getLast? = some 101 ↔ ∃ inner, body = 108 :: inner ++ [101] := by
  constructor
  · rintro ⟨first, last⟩
    obtain ⟨front, final, rfl⟩ := (List.eq_nil_or_concat' body).resolve_left (by
      rintro rfl
      contradiction)
    rw [List.getLast?_append, List.getLast?_singleton, Option.some_or, Option.some.injEq] at last
    subst last
    cases front with
    | nil => simp at first
    | cons marker inner =>
        rw [List.cons_append, List.head?_cons, Option.some.injEq] at first
        exact ⟨inner, by rw [first]⟩
  · rintro ⟨inner, rfl⟩
    rw [List.getLast?_append, List.getLast?_singleton]
    exact ⟨rfl, rfl⟩

theorem subscript_eq_ok_iff {value found : Value} {key : PyStr} :
    value.subscript key = .ok found ↔
      ∃ members, value = .dict members ∧ members.lookup key = some found := by
  cases value with
  | dict members =>
      simp only [Value.subscript, Value.dict.injEq, exists_eq_left']
      cases members.lookup key <;> simp
  | _ => simp [Value.subscript]

theorem startswith_eq_ok_iff {value : Value} {start text : PyStr} {starts : Bool} :
    value.startswith start = .ok (text, starts) ↔
      value = .str text ∧ starts = start.isPrefixOf text := by
  cases value with
  | str own =>
      simp only [Value.startswith, Except.ok.injEq, Prod.mk.injEq, Value.str.injEq]
      constructor
      · rintro ⟨rfl, rfl⟩
        exact ⟨rfl, rfl⟩
      · rintro ⟨rfl, rfl⟩
        exact ⟨rfl, rfl⟩
  | _ => simp [Value.startswith]

/-- The parser asks for a sub-request exactly on these bodies. -/
theorem subrequestOf_eq_ok_iff {python : Python} {body : Bytes} {subrequest : Subrequest} :
    subrequestOf python body = .ok subrequest ↔
      ∃ digits text rest, body = 108 :: (digits ++ 58 :: (text ++ rest)) ++ [101] ∧
        IsString digits text ∧ python.Converts digits.length ∧ Asks python text subrequest ∧
        subreqBody python rest = .ok subrequest.body := by
  simp only [subrequestOf, resolve_eq_ok, ne_eq, reduceCtorEq, not_false_eq_true, ok_bind,
    throw_bind]
  constructor
  · intro done
    split_ifs at done with markers
    obtain ⟨inner, rfl⟩ := exists_markers_iff.mp markers
    rw [List.cons_append, List.drop_one, List.tail_cons, List.dropLast_concat] at done
    obtain ⟨⟨text, rest⟩, consumed, done⟩ := bind_eq_ok_iff.mp done
    obtain ⟨metadata, loaded, done⟩ := bind_eq_ok_iff.mp done
    obtain ⟨content, second, done⟩ := bind_eq_ok_iff.mp done
    obtain ⟨method, methodFound, done⟩ := bind_eq_ok_iff.mp done
    obtain ⟨value, endpointFound, done⟩ := bind_eq_ok_iff.mp done
    obtain ⟨⟨endpoint, absolute⟩, started, done⟩ := bind_eq_ok_iff.mp done
    simp only at done
    split_ifs at done with slash
    obtain ⟨headers, headersFound, done⟩ := bind_eq_ok_iff.mp done
    cases done
    obtain ⟨members, rfl, methodListed⟩ := subscript_eq_ok_iff.mp methodFound
    obtain ⟨same, equal, endpointListed⟩ := subscript_eq_ok_iff.mp endpointFound
    cases equal
    obtain ⟨rfl, rfl⟩ := startswith_eq_ok_iff.mp started
    obtain ⟨digits, string, converts, rfl⟩ := bencodeConsumeString_eq_ok_iff.mp consumed
    exact ⟨digits, text, rest, rfl, string, converts, ⟨members, loaded, methodListed, endpointListed,
      List.isPrefixOf_iff_prefix.mp slash, (Except.ok.inj headersFound).symm⟩, second⟩
  · rintro ⟨digits, text, rest, rfl, string, converts, ⟨members, loaded, method, endpoint, slash,
      headers⟩, second⟩
    rw [if_neg (not_not.mpr (exists_markers_iff.mpr ⟨_, rfl⟩)), List.cons_append, List.drop_one,
      List.tail_cons, List.dropLast_concat,
      bencodeConsumeString_eq_ok_iff.mpr ⟨digits, string, converts, rfl⟩]
    simp only [ok_bind, loaded, second, Value.subscript, method, endpoint, Value.startswith,
      List.isPrefixOf_iff_prefix.mpr slash, Value.get, not_true_eq_false, if_false, ← headers]
    rfl

/-! ## The parser and the grammar -/

theorem Parts.Encoded.isString {parts : Parts} (encoded : parts.Encoded) :
    IsString parts.digits parts.text := by
  cases parts with
  | single digits text => exact encoded
  | double digits text otherDigits content => exact encoded.1

/-- What follows the metadata is determined by the body. -/
theorem Requests.unique {python : Python} {body digits text rest : Bytes}
    {subrequest : Subrequest} {parts : Parts} (requests : Requests python body subrequest parts)
    (string : IsString digits text)
    (bytes : body = 108 :: (digits ++ 58 :: (text ++ rest)) ++ [101]) :
    parts.digits = digits ∧ parts.text = text ∧ parts.rest = rest := by
  have same := requests.bytes.symm.trans bytes
  rw [Parts.bytes, List.cons_append, List.cons_append, List.cons.injEq] at same
  exact requests.encoded.isString.unique string (List.append_cancel_right same.2)

/-- A body is a request in at most one way. -/
theorem Requests.parts_unique {python : Python} {body : Bytes} {subrequest other : Subrequest}
    {parts others : Parts} (requests : Requests python body subrequest parts)
    (same : Requests python body other others) : parts = others := by
  obtain ⟨sameDigits, sameText, sameRest⟩ := requests.unique same.encoded.isString same.bytes
  cases parts with
  | single digits text =>
      cases others with
      | single otherDigits other =>
          cases (sameDigits : digits = otherDigits)
          cases (sameText : text = other)
          rfl
      | double => simp [Parts.rest] at sameRest
  | double digits text secondDigits content =>
      cases others with
      | single => simp [Parts.rest] at sameRest
      | double otherDigits other lastDigits last =>
          cases (sameDigits : digits = otherDigits)
          cases (sameText : text = other)
          have second : secondDigits ++ 58 :: (content ++ []) =
              lastDigits ++ 58 :: (last ++ []) := by
            rw [List.append_nil, List.append_nil]
            exact sameRest
          obtain ⟨rfl, rfl, -⟩ := requests.encoded.2.unique same.encoded.2 second
          rfl

/-- A second string takes at least two bytes. -/
theorem Parts.rest_ne_singleton {parts : Parts} (encoded : parts.Encoded) (stray : UInt8) :
    parts.rest ≠ [stray] := by
  cases parts with
  | single digits text => exact (List.cons_ne_nil stray []).symm
  | double digits text otherDigits content =>
      intro same
      have length := congrArg List.length same
      have some := List.length_pos_iff.mpr encoded.2.some_digit
      simp only [Parts.rest, List.length_append, List.length_cons, List.length_nil] at length
      omega

/-- Requests whose lengths are converted are accepted. -/
theorem Requests.subrequestOf {python : Python} {body : Bytes} {subrequest : Subrequest}
    {parts : Parts} (requests : Requests python body subrequest parts)
    (converts : parts.Converts python) : subrequestOf python body = .ok subrequest := by
  obtain ⟨bytes, encoded, asks, content⟩ := requests
  cases parts with
  | single digits text =>
      refine subrequestOf_eq_ok_iff.mpr ⟨digits, text, [], bytes, encoded, converts, asks, ?_⟩
      exact subreqBody_eq_ok_iff.mpr (Or.inl ⟨Nat.zero_le 1, content⟩)
  | double digits text otherDigits part =>
      refine subrequestOf_eq_ok_iff.mpr ⟨digits, text, otherDigits ++ 58 :: part, bytes, encoded.1,
        converts.1, asks, subreqBody_eq_ok_iff.mpr (Or.inr ⟨?_, ?_⟩)⟩
      · have some := List.length_pos_iff.mpr encoded.2.some_digit
        rw [List.length_append, List.length_cons]
        omega
      · rw [bencodeConsumeString_eq_ok_iff, content]
        exact ⟨otherDigits, encoded.2, converts.2, by rw [List.append_nil]; rfl⟩

/-- What the parser accepts is a request whose lengths are converted, or has a
stray byte. -/
theorem requests_or_stray {python : Python} {body : Bytes} {subrequest : Subrequest}
    (accepted : subrequestOf python body = .ok subrequest) :
    (∃ parts, Requests python body subrequest parts ∧ parts.Converts python) ∨
      Stray python body subrequest := by
  obtain ⟨digits, text, rest, bytes, string, converts, asks, second⟩ :=
    subrequestOf_eq_ok_iff.mp accepted
  rcases subreqBody_eq_ok_iff.mp second with ⟨few, empty⟩ | ⟨-, consumed⟩
  · match rest, few with
    | [], _ =>
        exact Or.inl ⟨.single digits text, ⟨bytes, string, asks, empty⟩, converts⟩
    | [stray], _ => exact Or.inr ⟨digits, text, stray, bytes, string, converts, asks, empty⟩
  · obtain ⟨otherDigits, other, otherConverts, rfl⟩ := bencodeConsumeString_eq_ok_iff.mp consumed
    rw [List.append_nil] at bytes
    exact Or.inl ⟨.double digits text otherDigits subrequest.body,
      ⟨bytes, ⟨string, other⟩, asks, rfl⟩, converts, otherConverts⟩

theorem Stray.subrequestOf {python : Python} {body : Bytes} {subrequest : Subrequest}
    (stray : Stray python body subrequest) : subrequestOf python body = .ok subrequest := by
  obtain ⟨digits, text, byte, bytes, string, converts, asks, empty⟩ := stray
  exact subrequestOf_eq_ok_iff.mpr ⟨digits, text, [byte], bytes, string, converts, asks,
    subreqBody_eq_ok_iff.mpr (Or.inl ⟨Nat.le_refl 1, empty⟩)⟩

/-- A body with a stray byte is not in the grammar. -/
theorem Stray.not_grammar {python : Python} {body : Bytes} {subrequest other : Subrequest}
    (stray : Stray python body subrequest) : ¬Grammar python body other := by
  obtain ⟨digits, text, byte, bytes, string, -⟩ := stray
  rintro ⟨parts, requests⟩
  exact Parts.rest_ne_singleton requests.encoded byte (requests.unique string bytes).2.2

/-- The interpreter converts the length of every object. -/
theorem Python.converts_length (python : Python) {length : Nat} (bound : length < 2 ^ 63) :
    python.Converts (decimalDigits length).length := by
  have few : (decimalDigits length).length ≤ 19 :=
    length_decimalDigits_le 19 (by decide) (bound.trans (by decide))
  rcases python.allowed with none | many
  · exact Or.inl none
  · exact Or.inr (few.trans (Nat.le_trans (by decide) many))

/-- The parser follows the grammar on the body: it asks for a sub-request just
in case the grammar does, for the same one; and it reads two strings back. -/
structure FollowsGrammar (python : Python) (body : Bytes) : Prop where
  accepts : ∀ subrequest,
    subrequestOf python body = .ok subrequest ↔ Grammar python body subrequest
  reads : ∀ first second, body = 108 :: encodeString first ++ encodeString second ++ [101] →
    ∃ rest, bencodeConsumeString python ((body.drop 1).dropLast) = .ok (first, rest) ∧
      bencodeConsumeString python rest = .ok (second, [])

theorem bencodeConsumeString_encodeString (python : Python) {text : Bytes}
    (bound : text.length < 2 ^ 63) (rest : Bytes) :
    bencodeConsumeString python (encodeString text ++ rest) = .ok (text, rest) := by
  refine bencodeConsumeString_eq_ok_iff.mpr ⟨_, isString_decimalDigits text,
    python.converts_length bound, ?_⟩
  rw [encodeString, List.append_assoc]
  rfl

/-- The parser follows its grammar exactly on the bodies without a stray byte
and without a length of too many digits. -/
theorem followsGrammar_iff (python : Python) (body : PyBytes) :
    FollowsGrammar python body.val ↔
      (∀ subrequest, ¬Stray python body.val subrequest) ∧ ¬LongLength python body.val := by
  constructor
  · intro follows
    constructor
    · intro subrequest stray
      exact stray.not_grammar ((follows.accepts subrequest).mp stray.subrequestOf)
    · rintro ⟨subrequest, parts, requests, long⟩
      have accepted := (follows.accepts subrequest).mpr ⟨parts, requests⟩
      rcases requests_or_stray accepted with ⟨others, same, converts⟩ | stray
      · rw [requests.parts_unique same] at long
        exact long converts
      · exact stray.not_grammar ⟨parts, requests⟩
  · rintro ⟨noStray, noLong⟩
    constructor
    · intro subrequest
      constructor
      · intro accepted
        rcases requests_or_stray accepted with ⟨parts, requests, -⟩ | stray
        · exact ⟨parts, requests⟩
        · exact absurd stray (noStray subrequest)
      · rintro ⟨parts, requests⟩
        by_cases converts : parts.Converts python
        · exact requests.subrequestOf converts
        · exact absurd ⟨subrequest, parts, requests, converts⟩ noLong
    · intro first second bytes
      have inner : (body.val.drop 1).dropLast = encodeString first ++ encodeString second := by
        rw [bytes, List.cons_append, List.cons_append, List.drop_one, List.tail_cons,
          List.dropLast_concat]
      have length := congrArg List.length bytes
      simp only [encodeString, List.length_append, List.length_cons, List.length_nil] at length
      have bound := body.property
      refine ⟨encodeString second, ?_, ?_⟩
      · rw [inner]
        exact bencodeConsumeString_encodeString python (by omega) _
      · rw [← List.append_nil (encodeString second)]
        exact bencodeConsumeString_encodeString python (by omega) []

/-! ## A stray byte -/

/-- The bytes of a literal. -/
def utf8 (text : String) : Bytes :=
  text.toUTF8.data.toList

/-- The metadata of a `GET` request. -/
def sampleText : Bytes :=
  utf8 "\x7b\"method\":\"GET\",\"endpoint\":\"/x\"\x7d"

/-- The members of that object. -/
def sampleMembers : List (PyStr × Value) :=
  [(literal "method", .str (literal "GET")), (literal "endpoint", .str (literal "/x"))]

/-- What `json.dumps` makes of one header. -/
def sampleHeader : PyStr × Value → Bytes
  | (name, .str value) =>
      34 :: name.map UInt32.toUInt8 ++ utf8 "\": \"" ++ value.map UInt32.toUInt8 ++ [34]
  | _ => []

/-- What `json.dumps` makes of the metadata of a response with plain headers. -/
def sampleDump : Value → Bytes
  | .dict [(_, .int code), (_, .dict headers)] =>
      utf8 "\x7b\"code\": " ++ intText code ++ utf8 ", \"headers\": \x7b" ++
        (utf8 ", ").intercalate (headers.map sampleHeader) ++ utf8 "\x7d\x7d"
  | _ => []

/-- An interpreter that knows the metadata above. -/
def samplePython : Python where
  maxStrDigits := 4300
  allowed := Or.inr (by decide)
  loads := fun text =>
    if text = sampleText then .ok (.dict sampleMembers) else .error (.valueError "Expecting value")
  dumps := fun value =>
    if bound : (sampleDump value).length < 2 ^ 63 then ⟨sampleDump value, bound⟩
    else ⟨[], by decide⟩

/-- The sub-request that the metadata asks for. -/
def sampleSubrequest (body : Bytes) : Subrequest :=
  ⟨.str (literal "GET"), literal "/x", .dict [], body⟩

theorem asks_sampleText (body : Bytes) : Asks samplePython sampleText (sampleSubrequest body) := by
  have loaded : samplePython.loads sampleText = .ok (.dict sampleMembers) := by
    simp only [samplePython, if_true]
  refine ⟨sampleMembers, loaded, rfl, rfl, ?_, rfl⟩
  exact List.isPrefixOf_iff_prefix.mp rfl

/-- The metadata and one more byte. -/
def strayBody : PyBytes :=
  ⟨108 :: encodeString sampleText ++ [120] ++ [101], by decide +kernel⟩

theorem stray_strayBody : Stray samplePython strayBody.val (sampleSubrequest []) := by
  refine ⟨_, sampleText, 120, ?_, isString_decimalDigits sampleText,
    samplePython.converts_length (by decide +kernel), asks_sampleText [], rfl⟩
  simp only [strayBody, encodeString, List.cons_append, List.append_assoc]

/-- The body is accepted although it is not in the grammar. -/
theorem not_followsGrammar_strayBody : ¬FollowsGrammar samplePython strayBody.val := by
  intro follows
  have accepted := stray_strayBody.subrequestOf
  exact stray_strayBody.not_grammar ((follows.accepts _).mp accepted)

end Spns.Onion
