import Spns.Bytes
import Spns.Lib.Bencode

/-!
# Onion requests

The web server answers the decrypted payload of an onion request by a
sub-request.  The payload is a bencoded list with the metadata of the request,
which is a JSON object, and its body.  Whatever goes wrong is meant to end in
one handler, which answers with a fixed text.

The model follows the Python code statement by statement.  A global name that
is used has to be bound: by the module, which is what its imports and
definitions do, or as a builtin.  The JSON library and the dispatch of the
sub-request are parameters.
-/

namespace Spns.Onion

open Spns
open Spns.Lib.Bencode

/-! ## Python -/

/-- A `str`: its code points, which may be lone surrogates. -/
abbrev PyStr := List UInt32

/-- The `str` of a literal. -/
def literal (text : String) : PyStr :=
  text.toList.map Char.val

/-- A `bytes` object; its length is a `Py_ssize_t`. -/
abbrev PyBytes := { bytes : Bytes // bytes.length < 2 ^ 63 }

/-- The values that `json.loads` returns. -/
inductive Value
  | none
  | bool (value : Bool)
  | int (value : Int)
  | float (text : PyStr)
  | str (text : PyStr)
  | list (items : List Value)
  | dict (members : List (PyStr × Value))

/-- The global names that the functions below use, and those that the module
binds besides. -/
inductive Name
  | len
  | int
  | str
  | memoryview
  | exception
  | valueError
  | runtimeError
  | request
  | abort
  | json
  | tuple
  | config
  | app
  | makeSubrequest
  | onionReqParser
  | onionPrivkeyBytes
  | onionPubkeyBytes
  | bencodeConsumeString
  | handleV4OnionreqPlaintext
  | decryptOnionreq
  | handleV4OnionRequest
  | http
  deriving DecidableEq

/-- Exceptions.  Where the interpreter makes up the text it is left out. -/
inductive PyError
  | valueError (what : String)
  | runtimeError (what : String)
  | keyError (key : PyStr)
  | typeError
  | attributeError (missing : String)
  | nameError (name : Name)
  | other (what : String)
  deriving DecidableEq

/-- The interpreter and its JSON library. -/
structure Python where
  /-- `sys.get_int_max_str_digits()`: the number of digits up to which `int`
  and `str` convert; 0 stands for no limit, and the least limit is 640. -/
  maxStrDigits : Nat
  allowed : maxStrDigits = 0 ∨ 640 ≤ maxStrDigits
  /-- `json.loads` of bytes -/
  loads : Bytes → Except PyError Value
  /-- `json.dumps(...).encode()` -/
  dumps : Value → PyBytes

/-- The names that are builtins. -/
def builtins : List Name :=
  [.len, .int, .str, .memoryview, .exception, .valueError, .runtimeError]

/-- The names that the imports, assignments and definitions of the module
bind. -/
def moduleGlobals : List Name :=
  [.request, .abort, .json, .tuple, .config, .app, .makeSubrequest, .onionReqParser,
    .onionPrivkeyBytes, .onionPubkeyBytes, .bencodeConsumeString, .handleV4OnionreqPlaintext,
    .decryptOnionreq, .handleV4OnionRequest]

/-- Look a global name up. -/
def resolve (name : Name) : Except PyError Unit :=
  if name ∈ moduleGlobals ∨ name ∈ builtins then .ok () else .error (.nameError name)

namespace Python

/-- A number of so many digits is converted. -/
def Converts (python : Python) (digits : Nat) : Prop :=
  python.maxStrDigits = 0 ∨ digits ≤ python.maxStrDigits

instance (python : Python) (digits : Nat) : Decidable (python.Converts digits) :=
  inferInstanceAs (Decidable (_ ∨ _))

/-- The text of the exception that the conversions raise. -/
def exceedsLimit : PyError :=
  .valueError "Exceeds the limit for integer string conversion"

/-- `int` of decimal digits. -/
def toInt (python : Python) (digits : Bytes) : Except PyError Nat :=
  if python.Converts digits.length then .ok (digitsValue digits) else .error exceedsLimit

/-- `str(number).encode()` -/
def decimal (python : Python) (number : Nat) : Except PyError Bytes :=
  if python.Converts (decimalDigits number).length then .ok (decimalDigits number)
  else .error exceedsLimit

end Python

namespace Value

/-- `value[key]` -/
def subscript (value : Value) (key : PyStr) : Except PyError Value :=
  match value with
  | .dict members =>
      match members.lookup key with
      | some found => .ok found
      | Option.none => .error (.keyError key)
  | _ => .error .typeError

/-- `value.get(key, fallback)` -/
def get (value : Value) (key : PyStr) (fallback : Value) : Except PyError Value :=
  match value with
  | .dict members => .ok ((members.lookup key).getD fallback)
  | _ => .error (.attributeError "get")

/-- `value.startswith(start)`, with the string that the value is. -/
def startswith (value : Value) (start : PyStr) : Except PyError (PyStr × Bool) :=
  match value with
  | .str text => .ok (text, start.isPrefixOf text)
  | _ => .error (.attributeError "startswith")

end Value

/-! ## Parsing -/

/-- `bencode_consume_string` -/
def bencodeConsumeString (python : Python) (body : Bytes) : Except PyError (Bytes × Bytes) := do
  resolve .len
  let pos := (body.takeWhile isDigit).length
  if pos = 0 ∨ body.length ≤ pos ∨ body[pos]? ≠ some 0x3A then
    resolve .valueError
    throw (.valueError "Invalid string bencoding: did not find `N:` length prefix")
  resolve .int
  let strlen ← python.toInt (body.take pos)
  let pos := pos + 1
  if pos + strlen > body.length then
    resolve .valueError
    throw (.valueError "Invalid string bencoding: length exceeds buffer")
  return ((body.drop pos).take strlen, body.drop (pos + strlen))

/-- The arguments of a call of `make_subrequest`. -/
structure Subrequest where
  method : Value
  endpoint : PyStr
  headers : Value
  body : Bytes

/-- The second part of the list, if there is one. -/
def subreqBody (python : Python) (belems : Bytes) : Except PyError Bytes := do
  resolve .len
  if belems.length > 1 then
    resolve .bencodeConsumeString
    let (subreqBody, belems) ← bencodeConsumeString python belems
    if belems.length ≠ 0 then
      resolve .runtimeError
      throw (.runtimeError "Invalid v4 onion request: found more than 2 parts")
    return subreqBody
  else
    return []

/-- The statements of `handle_v4_onionreq_plaintext` up to the call of
`make_subrequest`, with its arguments where they get there. -/
def subrequestOf (python : Python) (body : Bytes) : Except PyError Subrequest := do
  if ¬(body.head? = some 108 ∧ body.getLast? = some 101) then
    resolve .runtimeError
    throw (.runtimeError "Invalid onion request body: expected bencoded list")
  resolve .memoryview
  let belems := (body.drop 1).dropLast
  resolve .bencodeConsumeString
  let (metaText, belems) ← bencodeConsumeString python belems
  resolve .json
  let metadata ← python.loads metaText
  let subreqBody ← subreqBody python belems
  let method ← metadata.subscript (literal "method")
  let endpoint ← metadata.subscript (literal "endpoint")
  let (endpoint, absolute) ← endpoint.startswith (literal "/")
  if ¬absolute then
    resolve .runtimeError
    throw (.runtimeError "Invalid v4 onion request: endpoint must start with /")
  resolve .makeSubrequest
  let headers ← metadata.get (literal "headers") (.dict [])
  return ⟨method, endpoint, headers, subreqBody⟩

/-! ## Answering -/

/-- What the code uses of the response of a sub-request. -/
structure Response where
  statusCode : Int
  getData : Except PyError PyBytes

/-- `make_subrequest`: the response and its headers, or an exception. -/
abbrev MakeSubrequest := Subrequest → Except PyError (Response × List (PyStr × PyStr))

/-- The dict with the keys `code` and `headers`. -/
def responseMeta (code : Int) (headers : List (PyStr × PyStr)) : Value :=
  .dict [(literal "code", .int code),
    (literal "headers", .dict (headers.map fun header => (header.1, .str header.2)))]

/-- The fixed answer to an invalid request. -/
def invalidText : PyBytes :=
  ⟨"Invalid v4 onion request".toUTF8.data.toList, by decide⟩

/-- `BAD_REQUEST` -/
def badRequest : Int := 400

/-- The body of the `try` statement. -/
def attempt (python : Python) (makeSubrequest : MakeSubrequest) (body : Bytes) :
    Except PyError (Value × PyBytes) := do
  let subrequest ← subrequestOf python body
  let (response, headers) ← makeSubrequest subrequest
  let data ← response.getData
  resolve .app
  resolve .len
  return (responseMeta response.statusCode headers, data)

/-- The `except` clause. -/
def recover : Except PyError (Value × PyBytes) := do
  resolve .app
  resolve .http
  return (responseMeta badRequest
    [(literal "content-type", literal "text/plain; charset=utf-8")], invalidText)

/-- The `try` statement: the metadata and the data that it leaves. -/
def answer (python : Python) (makeSubrequest : MakeSubrequest) (body : Bytes) :
    Except PyError (Value × PyBytes) :=
  match attempt python makeSubrequest body with
  | .ok answer => .ok answer
  | .error _ => do
      resolve .exception
      recover

/-- `handle_v4_onionreq_plaintext` -/
def handleV4OnionreqPlaintext (python : Python) (makeSubrequest : MakeSubrequest) (body : Bytes) :
    Except PyError Bytes := do
  let (metadata, data) ← answer python makeSubrequest body
  resolve .json
  let metaText := python.dumps metadata
  resolve .str
  resolve .len
  let metaLength ← python.decimal metaText.val.length
  let dataLength ← python.decimal data.val.length
  return 108 :: metaLength ++ 58 :: metaText.val ++ dataLength ++ 58 :: data.val ++ [101]

end Spns.Onion
