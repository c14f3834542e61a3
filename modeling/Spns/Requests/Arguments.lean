import Spns.HiveMind.Core

/-!
# The arguments of a request

A request body is a JSON object, or an array of them.  Each element names an
account, a service and what to subscribe or unsubscribe; `prepare` turns it
into the call that the notification service has to validate, or throws.  The
texts of exceptions are those of the source and of its JSON library.

JSON strings are Unicode strings, because the parser refuses everything else.
Only the conversions to integers look at the value of a floating-point number,
and they round it towards zero, so this is what the model holds of it.
-/

namespace Spns.Requests

open Spns
open Spns.Hive

/-! ## JSON values -/

/-- A parsed JSON value; the keys of an object are sorted. -/
inductive Json
  | null
  | boolean (value : Bool)
  | integer (value : Int)
  | floating (truncated : Int)
  | string (value : String)
  | array (elements : List Json)
  | object (fields : List (String × Json))

namespace Json

/-- `type_name()` -/
def typeName : Json → String
  | .null => "null"
  | .boolean _ => "boolean"
  | .integer _ => "number"
  | .floating _ => "number"
  | .string _ => "string"
  | .array _ => "array"
  | .object _ => "object"

/-- The value of a key of an object. -/
def find (key : String) : Json → Option Json
  | .object fields => (fields.find? fun field => field.1 = key).map Prod.snd
  | _ => none

/-- Set a key of an object, which keeps its keys sorted. -/
def setField (key : String) (value : Json) : List (String × Json) → List (String × Json)
  | [] => [(key, value)]
  | field :: rest =>
      if key < field.1 then (key, value) :: field :: rest
      else if key = field.1 then (key, value) :: rest
      else field :: setField key value rest

/-- The object has this key. -/
def HasKey (key : String) (fields : List (String × Json)) : Prop :=
  key ∈ fields.map Prod.fst

end Json

/-! ## Exceptions -/

/-- `hive::SUBSCRIBE` -/
inductive SubscribeCode
  | ok
  | badInput
  | serviceNotAvailable
  | serviceTimeout
  | error
  | internalError
  deriving DecidableEq

/-- The numeric value of a code. -/
def SubscribeCode.toInt : SubscribeCode → Int
  | .ok => 0
  | .badInput => 1
  | .serviceNotAvailable => 2
  | .serviceTimeout => 3
  | .error => 4
  | .internalError => 5

/-- The exceptions that the dispatch loop tells apart. -/
inductive Thrown
  | missingParameter (key : String)
  | subscribeError (code : SubscribeCode) (message : String)
  | other (message : String)

/-- The error that a handler of the dispatch loop reports. -/
def Thrown.error : Thrown → SubscribeCode × String
  | .missingParameter key => (.badInput, "Missing required parameter '" ++ key ++ "'")
  | .subscribeError code message => (code, message)
  | .other message => (.error, message)

/-- `{{"error", code}, {"message", message}}` -/
def errorJson (code : Int) (message : String) : Json :=
  .object [("error", .integer code), ("message", .string message)]

/-! ## Reading values -/

namespace Json

/-- The `at` member of the library. -/
def atKey (key : String) (value : Json) : Except Thrown Json :=
  match value with
  | .object _ =>
      match value.find key with
      | some field => .ok field
      | none =>
          .error (.other ("[json.exception.out_of_range.403] key '" ++ key ++ "' not found"))
  | _ =>
      .error (.other ("[json.exception.type_error.304] cannot use at() with " ++ value.typeName))

/-- The `at` helper of the source. -/
def atRequired (key : String) (value : Json) : Except Thrown Json :=
  match value.atKey key with
  | .ok field => .ok field
  | .error _ => .error (.missingParameter key)

/-- The complaint of `get` about a value of the wrong type. -/
def typeError (expected : String) (value : Json) : Thrown :=
  .other ("[json.exception.type_error.302] type must be " ++ expected ++ ", but is " ++
    value.typeName)

/-- `get<std::string>` -/
def getString (value : Json) : Except Thrown String :=
  match value with
  | .string text => .ok text
  | _ => .error (value.typeError "string")

/-- `get<bool>` -/
def getBool (value : Json) : Except Thrown Bool :=
  match value with
  | .boolean flag => .ok flag
  | _ => .error (value.typeError "boolean")

/-- `get<int64_t>` -/
def getInt64 (value : Json) : Except Thrown Int :=
  match value with
  | .integer number => .ok (Int.bmod number (2 ^ 64))
  | .floating number => .ok (Int.bmod number (2 ^ 64))
  | _ => .error (value.typeError "number")

/-- `get<int16_t>`, which also takes a boolean. -/
def getInt16 (value : Json) : Except Thrown Int :=
  match value with
  | .integer number => .ok (Int.bmod number (2 ^ 16))
  | .floating number => .ok (Int.bmod number (2 ^ 16))
  | .boolean flag => .ok (if flag then 1 else 0)
  | _ => .error (value.typeError "number")

/-- `get<std::vector<int16_t>>` -/
def getNamespaces (value : Json) : Except Thrown (List Int) :=
  match value with
  | .array elements => elements.mapM getInt16
  | _ => .error (value.typeError "array")

end Json

/-- The bytes of a string. -/
def utf8 (text : String) : Bytes :=
  text.toUTF8.toList

/-- `from_hex_or_b64` on a JSON string. -/
def getBytes (size : Nat) (value : Json) : Except Thrown (FixedBytes size) := do
  let text ← value.getString
  match fromHexOrB64 size (utf8 text) with
  | some bytes => .ok bytes
  | none => .error (.other "Invalid value: expected bytes, hex, or base64")

/-- The exception of a function whose errors are texts. -/
def orThrow {α : Type} : Except String α → Except Thrown α
  | .ok value => .ok value
  | .error message => .error (.other message)

/-! ## Elements -/

/-- What `sub_unsub_args` returns. -/
structure Arguments where
  pubkey : SwarmPubkey
  subaccount : Option Subaccount
  sigTs : Int
  sig : Signature
  service : String
  serviceInfo : Json

/-- The optional subaccount of an element. -/
def subaccountArg (args : Json) : Except Thrown (Option Subaccount) :=
  match args.find "subaccount" with
  | none => .ok none
  | some tagValue =>
      match args.find "subaccount_sig" with
      | none => .error (.other "Cannot specify subaccount without subaccount_sig")
      | some sigValue => do
          let tag ← getBytes 36 tagValue
          let sig ← getBytes 64 sigValue
          pure (some ⟨tag, sig⟩)

/-- The Session key of an element, required for accounts with prefix 5. -/
def sessionEdArg (account : AccountID) (args : Json) : Except Thrown (Option Ed25519PK) :=
  if account.byteAt 0 = 5 then do
    let key ← getBytes 32 (← args.atKey "session_ed25519")
    pure (some key)
  else
    .ok none

/-- `sub_unsub_args` -/
def subUnsubArgs (env : Env) (args : Json) : Except Thrown Arguments := do
  let account ← getBytes 33 (← args.atKey "pubkey")
  let sessionEd ← sessionEdArg account args
  let subaccount ← subaccountArg args
  let sig ← getBytes 64 (← args.atKey "signature")
  let pubkey ← orThrow (SwarmPubkey.make env.toCurve account sessionEd false)
  let sigTs ← (← args.atKey "sig_ts").getInt64
  let service ← (← args.atKey "service").getString
  let serviceInfo ← args.atKey "service_info"
  pure ⟨pubkey, subaccount, sigTs, sig, service, serviceInfo⟩

/-- What the reply handler of a `notifier.validate` request captures. -/
inductive Purpose
  | subscribe (sub : Subscription) (encKey : EncKey)
  | unsubscribe (sig : Signature) (subaccount : Option Subaccount) (sigTs : Int)

/-- A `notifier.validate` request. -/
structure Prepared where
  pubkey : SwarmPubkey
  service : String
  serviceInfo : Json
  purpose : Purpose

/-- What the dispatch loop reads besides the element: the registered services
and the clock, in seconds. -/
structure Surroundings where
  services : List String
  now : Int

/-- `sub_unsub_service_conn` -/
def subUnsubServiceConn (around : Surroundings) (service : String) : Except Thrown Unit :=
  if service ∈ around.services then .ok ()
  else
    .error (.subscribeError .serviceNotAvailable
      (service ++ " notification service not currently available"))

/-- What the handler of a subscription captures. -/
def subscribePurpose (env : Env) (around : Surroundings) (element : Json) (args : Arguments) :
    Except Thrown Purpose := do
  let encKey ← getBytes 32 (← element.atRequired "enc_key")
  let namespaces ← (← element.atRequired "namespaces").getNamespaces
  let data ← (← element.atRequired "data").getBool
  let sub ← orThrow (Subscription.make env.verify args.pubkey args.subaccount namespaces data
    args.sigTs args.sig false around.now)
  pure (.subscribe sub encKey)

/-- The body of the dispatch loop up to the request to the service. -/
def prepare (env : Env) (subscribe : Bool) (around : Surroundings) (element : Json) :
    Except Thrown Prepared := do
  let args ← subUnsubArgs env element
  subUnsubServiceConn around args.service
  let purpose ←
    if subscribe then subscribePurpose env around element args
    else .ok (.unsubscribe args.sig args.subaccount args.sigTs)
  pure ⟨args.pubkey, args.service, args.serviceInfo, purpose⟩

end Spns.Requests
