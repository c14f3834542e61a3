import Spns.Onion.Grammar

/-!
# Replies to onion requests

Every onion request should be answered by a list of two strings, the metadata of
the response and its data; where the request is malformed or its sub-request
raises, by the status code 400 and a fixed text.

The handler for these cases uses a name that the module does not bind.  So there
is no reply at all unless the sub-request is made and gives a response, and all
other requests end in an exception that the handler itself raises.
-/

namespace Spns.Onion

open Spns
open Spns.Lib.Bencode
open Spns.Lib.Fallible

/-! ## The specification -/

/-- Two calls of `bencode_consume_string` take the reply apart. -/
structure Decodes (python : Python) (reply metaText data : Bytes) : Prop where
  markers : reply.head? = some 108 ∧ reply.getLast? = some 101
  strings : ∃ rest, bencodeConsumeString python ((reply.drop 1).dropLast) = .ok (metaText, rest) ∧
    bencodeConsumeString python rest = .ok (data, [])

/-- The sub-request gives a response with this status code, headers and data. -/
structure Responds (makeSubrequest : MakeSubrequest) (subrequest : Subrequest) (code : Int)
    (headers : List (PyStr × PyStr)) (data : PyBytes) : Prop where
  response : ∃ response, makeSubrequest subrequest = .ok (response, headers) ∧
    response.statusCode = code ∧ response.getData = .ok data

/-- The body is malformed, or its sub-request raises an exception. -/
def Fails (python : Python) (makeSubrequest : MakeSubrequest) (body : Bytes) : Prop :=
  ∀ subrequest, Grammar python body subrequest →
    ¬∃ code headers data, Responds makeSubrequest subrequest code headers data

/-- The request is answered as it should be. -/
def Answered (python : Python) (makeSubrequest : MakeSubrequest) (body : Bytes) : Prop :=
  ∃ reply code headers data,
    answer python makeSubrequest body = .ok (responseMeta code headers, data) ∧
    handleV4OnionreqPlaintext python makeSubrequest body = .ok reply ∧
    Decodes python reply (python.dumps (responseMeta code headers)).val data.val ∧
    (Fails python makeSubrequest body → code = badRequest ∧ data = invalidText) ∧
    ∀ subrequest, Grammar python body subrequest → ∀ otherCode otherHeaders otherData,
      Responds makeSubrequest subrequest otherCode otherHeaders otherData →
        code = otherCode ∧ headers = otherHeaders ∧ data = otherData

/-! ## What the handler does -/

theorem attempt_eq_ok_iff {python : Python} {makeSubrequest : MakeSubrequest} {body : Bytes}
    {metadata : Value} {data : PyBytes} :
    attempt python makeSubrequest body = .ok (metadata, data) ↔
      ∃ subrequest code headers, subrequestOf python body = .ok subrequest ∧
        Responds makeSubrequest subrequest code headers data ∧
        metadata = responseMeta code headers := by
  simp only [attempt, resolve_eq_ok, ne_eq, reduceCtorEq, not_false_eq_true, ok_bind]
  constructor
  · intro done
    obtain ⟨subrequest, parsed, done⟩ := bind_eq_ok_iff.mp done
    obtain ⟨⟨response, headers⟩, made, done⟩ := bind_eq_ok_iff.mp done
    obtain ⟨found, read, done⟩ := bind_eq_ok_iff.mp done
    cases done
    exact ⟨subrequest, response.statusCode, headers, parsed, ⟨response, made, rfl, read⟩, rfl⟩
  · rintro ⟨subrequest, code, headers, parsed, ⟨response, made, rfl, read⟩, rfl⟩
    simp only [parsed, ok_bind, made, read]
    rfl

/-- The `except` clause uses a name that is not bound. -/
theorem recover_eq : recover = .error (.nameError .http) := by
  rfl

theorem answer_eq_ok_iff {python : Python} {makeSubrequest : MakeSubrequest} {body : Bytes}
    {result : Value × PyBytes} :
    answer python makeSubrequest body = .ok result ↔
      attempt python makeSubrequest body = .ok result := by
  rw [answer]
  cases attempted : attempt python makeSubrequest body with
  | ok value => exact Iff.rfl
  | error failure =>
      simp only [resolve_eq_ok, ne_eq, reduceCtorEq, not_false_eq_true, ok_bind, recover_eq]

/-- Encoding the reply does not fail, and it decodes. -/
theorem exists_reply {python : Python} {makeSubrequest : MakeSubrequest} {body : Bytes}
    {metadata : Value} {data : PyBytes}
    (answered : answer python makeSubrequest body = .ok (metadata, data)) :
    ∃ reply, handleV4OnionreqPlaintext python makeSubrequest body = .ok reply ∧
      Decodes python reply (python.dumps metadata).val data.val := by
  have decimal : ∀ bytes : PyBytes, python.decimal bytes.val.length =
      .ok (decimalDigits bytes.val.length) := fun bytes =>
    if_pos (python.converts_length bytes.property)
  refine ⟨108 :: (encodeString (python.dumps metadata).val ++ encodeString data.val) ++ [101],
    ?_, ?_, ?_⟩
  · simp only [handleV4OnionreqPlaintext, answered, ok_bind, resolve_eq_ok, ne_eq, reduceCtorEq,
      not_false_eq_true, decimal]
    simp [encodeString, pure, Except.pure]
  · exact exists_markers_iff.mpr ⟨_, rfl⟩
  · refine ⟨encodeString data.val, ?_, ?_⟩
    · rw [List.cons_append, List.drop_one, List.tail_cons, List.dropLast_concat]
      exact bencodeConsumeString_encodeString python (python.dumps metadata).property _
    · rw [← List.append_nil (encodeString data.val)]
      exact bencodeConsumeString_encodeString python data.property []

theorem code_of_responseMeta {code other : Int} {headers others : List (PyStr × PyStr)}
    (same : responseMeta code headers = responseMeta other others) : code = other := by
  simp only [responseMeta, Value.dict.injEq, List.cons.injEq, Prod.mk.injEq, Value.int.injEq] at same
  exact same.1.2

/-- A sub-request gives one response. -/
theorem Responds.unique {makeSubrequest : MakeSubrequest} {subrequest : Subrequest}
    {code other : Int} {headers others : List (PyStr × PyStr)} {data otherData : PyBytes}
    (responds : Responds makeSubrequest subrequest code headers data)
    (again : Responds makeSubrequest subrequest other others otherData) :
    code = other ∧ headers = others ∧ data = otherData := by
  obtain ⟨response, made, rfl, read⟩ := responds
  obtain ⟨same, madeAgain, rfl, readAgain⟩ := again
  rw [made] at madeAgain
  cases madeAgain
  rw [read] at readAgain
  cases readAgain
  exact ⟨rfl, rfl, rfl⟩

/-- A request is answered as it should be exactly if it is in the grammar with
lengths that are converted, and its sub-request gives a response; or else, with
a stray byte, if the response happens to be the one for malformed requests. -/
theorem answered_iff (python : Python) (makeSubrequest : MakeSubrequest) (body : Bytes) :
    Answered python makeSubrequest body ↔
      ∃ subrequest code headers data, Responds makeSubrequest subrequest code headers data ∧
        ((∃ parts, Requests python body subrequest parts ∧ parts.Converts python) ∨
          Stray python body subrequest ∧ code = badRequest ∧ data = invalidText) := by
  constructor
  · rintro ⟨reply, code, headers, data, answered, -, -, failed, -⟩
    obtain ⟨subrequest, ownCode, ownHeaders, parsed, responds, same⟩ :=
      attempt_eq_ok_iff.mp (answer_eq_ok_iff.mp answered)
    refine ⟨subrequest, ownCode, ownHeaders, data, responds, ?_⟩
    refine (requests_or_stray parsed).imp_right fun stray => ⟨stray, ?_⟩
    rw [← code_of_responseMeta same]
    exact failed fun _ grammar => absurd grammar stray.not_grammar
  · rintro ⟨subrequest, code, headers, data, responds, accepted⟩
    have parsed : subrequestOf python body = .ok subrequest := by
      rcases accepted with ⟨parts, requests, converts⟩ | ⟨stray, -, -⟩
      · exact requests.subrequestOf converts
      · exact stray.subrequestOf
    have answered := answer_eq_ok_iff.mpr (attempt_eq_ok_iff.mpr
      ⟨subrequest, code, headers, parsed, responds, rfl⟩)
    obtain ⟨reply, replied, decodes⟩ := exists_reply answered
    refine ⟨reply, code, headers, data, answered, replied, decodes, ?_, ?_⟩
    · intro fails
      rcases accepted with ⟨parts, requests, -⟩ | ⟨-, fixed⟩
      · exact absurd ⟨code, headers, data, responds⟩ (fails subrequest ⟨parts, requests⟩)
      · exact fixed
    · rintro other ⟨others, same⟩ otherCode otherHeaders otherData again
      rcases accepted with ⟨parts, requests, converts⟩ | ⟨stray, -, -⟩
      · rw [requests.parts_unique same] at converts
        have equal := parsed.symm.trans (same.subrequestOf converts)
        cases equal
        exact responds.unique again
      · exact absurd ⟨others, same⟩ stray.not_grammar

/-- A sub-request that succeeds. -/
def sampleResponse : MakeSubrequest := fun _ =>
  .ok (⟨200, .ok ⟨utf8 "ok", by decide⟩⟩, [(literal "content-type", literal "text/plain")])

example :
    handleV4OnionreqPlaintext samplePython sampleResponse
        (108 :: encodeString sampleText ++ [101]) =
      .ok (108 :: encodeString (utf8
        "\x7b\"code\": 200, \"headers\": \x7b\"content-type\": \"text/plain\"\x7d\x7d") ++
        encodeString (utf8 "ok") ++ [101]) := by
  rfl

/-- The empty body is malformed, and there is no reply to it. -/
theorem not_answered_empty : ¬Answered samplePython sampleResponse [] := by
  rintro ⟨reply, code, headers, data, answered, -⟩
  have raised : answer samplePython sampleResponse [] = .error (.nameError .http) := rfl
  rw [raised] at answered
  contradiction

end Spns.Onion
