import Spns.HiveMind.Loading
import Spns.Lib.Fallible
import Spns.Requests.Arguments

/-!
# The answer of a notification service

A notification service answers a `notifier.validate` request with a status code
and either the id of the device, with optional data of its own, or a message.
`onNotifierValidation` stores or removes the subscription and makes the JSON
object for the client from whatever happened.
-/

namespace Spns.Requests

open Spns
open Spns.Hive
open Spns.Lib.Fallible
open Spns.Storage

/-- `SERVICE_DATA_MAX_SIZE` -/
def serviceDataMaxSize : Nat := 99999

/-- The value of a string of decimal digits. -/
def parseDigits (digits : Bytes) : Option Nat :=
  if digits = [] then none
  else digits.foldlM (fun value digit =>
    if 48 ≤ digit ∧ digit ≤ 57 then some (value * 10 + (digit.toNat - 48)) else none) 0

/-- `parse_int<int>`: an optional minus sign and digits, nothing else. -/
def parseInt (text : String) : Option Int :=
  match utf8 text with
  | 45 :: digits => (parseDigits digits).bind fun value =>
      if value ≤ 2 ^ 31 then some (-(value : Int)) else none
  | digits => (parseDigits digits).bind fun value =>
      if value < 2 ^ 31 then some (value : Int) else none

/-- What `add_subscription` or `remove_subscription` throws. -/
inductive CallFailure
  | signatureVerify (message : String)
  | other (message : String)

/-- Code, message and further fields of a response. -/
structure Verdict where
  code : Int
  message : String
  fields : List (String × Json)

namespace Verdict

/-- The handler of `hive::subscribe_error`. -/
def subscribeError (code : SubscribeCode) (message : String) : Verdict :=
  ⟨code.toInt, message, []⟩

/-- The handler of every other `std::exception`. -/
def exception : Verdict :=
  ⟨SubscribeCode.error.toInt, "An error occured while processing your request", []⟩

/-- The verdict after the call that stores or removes the subscription. -/
def ofCall (purpose : Purpose) (call : Except CallFailure Bool) : Verdict :=
  match call with
  | .error (.signatureVerify message) => ⟨SubscribeCode.error.toInt, message, []⟩
  | .error (.other _) => exception
  | .ok changed =>
      match purpose with
      | .subscribe _ _ =>
          ⟨SubscribeCode.ok.toInt,
            if changed then "Subscription successful" else "Resubscription successful",
            [(if changed then "added" else "updated", .boolean true)]⟩
      | .unsubscribe _ _ _ =>
          ⟨SubscribeCode.ok.toInt,
            if changed then "Device unsubscribed from push notifications"
            else "Device was not subscribed to push notifications",
            [("removed", .boolean changed)]⟩

/-- The verdict on an answer with a status, a second part and maybe a third. -/
def ofParts (purpose : Purpose) (status second : String) (third : Option String)
    (call : Except CallFailure Bool) : Verdict :=
  match parseInt status with
  | none => exception
  | some code =>
      if code = SubscribeCode.ok.toInt then
        let size := (utf8 second).length
        if size < serviceIdMinSize ∨ size > serviceIdMaxSize then
          exception
        else
          match purpose, third with
          | .subscribe _ _, some serviceData =>
              if (utf8 serviceData).length > serviceDataMaxSize then exception
              else ofCall purpose call
          | _, _ => ofCall purpose call
      else
        ⟨code, second, []⟩

/-- The JSON object for the client. -/
def response (verdict : Verdict) : List (String × Json) :=
  let decided :=
    if verdict.code = SubscribeCode.ok.toInt then
      Json.setField "success" (.boolean true) verdict.fields
    else
      Json.setField "error" (.integer verdict.code) verdict.fields
  if verdict.message = "" then decided
  else Json.setField "message" (.string verdict.message) decided

end Verdict

/-- `on_notifier_validation`; `call` is what `add_subscription` or
`remove_subscription` does if it is called. -/
def onNotifierValidation (prepared : Prepared) (success : Bool) (data : List String)
    (call : Except CallFailure Bool) : Json :=
  let verdict :=
    if success then
      match data with
      | [status, second] => Verdict.ofParts prepared.purpose status second none call
      | [status, second, third] => Verdict.ofParts prepared.purpose status second (some third) call
      | _ => Verdict.exception
    else if data.head? = some "TIMEOUT" then
      Verdict.subscribeError .serviceTimeout (prepared.service ++ " notification service timed out")
    else
      Verdict.subscribeError .error
        ("failed to communicate with " ++ prepared.service ++ " notification service")
  .object verdict.response

/-- The arguments that `add_subscription` gets for a validated device. -/
def addRequest (prepared : Prepared) (sub : Subscription) (encKey : EncKey) (serviceId : String)
    (serviceData : Option String) : AddRequest where
  pubkey := prepared.pubkey
  service := utf8 prepared.service
  serviceId := utf8 serviceId
  serviceData := serviceData.map utf8
  encKey := encKey
  sub := sub

/-! ## Outcomes -/

/-- An object with exactly one of the keys `success` and `error`. -/
def Decided (outcome : Json) : Prop :=
  ∃ fields, outcome = .object fields ∧
    (Json.HasKey "success" fields ↔ ¬Json.HasKey "error" fields)

namespace Json

theorem hasKey_setField (key other : String) (value : Json) (fields : List (String × Json)) :
    HasKey key (setField other value fields) ↔ key = other ∨ HasKey key fields := by
  unfold HasKey
  induction fields with
  | nil => simp [setField]
  | cons field rest ih =>
      rw [setField]
      split_ifs with before same
      · simp
      · subst same
        simp
      · simp only [List.map_cons, List.mem_cons, ih]
        tauto

end Json

theorem decided_errorJson (code : Int) (message : String) : Decided (errorJson code message) := by
  refine ⟨_, rfl, ?_⟩
  simp [Json.HasKey]

namespace Verdict

/-- The further fields say nothing about success. -/
def Plain (verdict : Verdict) : Prop :=
  ¬Json.HasKey "success" verdict.fields ∧ ¬Json.HasKey "error" verdict.fields

theorem plain_of_no_fields (code : Int) (message : String) : Plain ⟨code, message, []⟩ := by
  simp [Plain, Json.HasKey]

theorem plain_ofCall (purpose : Purpose) (call : Except CallFailure Bool) :
    (ofCall purpose call).Plain := by
  unfold ofCall
  split
  · exact plain_of_no_fields _ _
  · exact plain_of_no_fields _ _
  · rename_i changed
    split
    · cases changed <;> simp [Plain, Json.HasKey]
    · simp [Plain, Json.HasKey]

theorem plain_ofParts (purpose : Purpose) (status second : String) (third : Option String)
    (call : Except CallFailure Bool) : (ofParts purpose status second third call).Plain := by
  unfold ofParts
  split
  · exact plain_of_no_fields _ _
  · simp only
    split_ifs
    · exact plain_of_no_fields _ _
    · split
      · split_ifs
        · exact plain_of_no_fields _ _
        · exact plain_ofCall _ call
      · exact plain_ofCall _ call
    · exact plain_of_no_fields _ _

theorem Plain.decided {verdict : Verdict} (plain : verdict.Plain) :
    Decided (.object verdict.response) := by
  refine ⟨_, rfl, ?_⟩
  obtain ⟨noSuccess, noError⟩ := plain
  unfold response
  simp only
  split_ifs <;> simp [Json.hasKey_setField, noSuccess, noError]

end Verdict

/-- Every answer of a service, and every failure to get one, leads to exactly
one of success and error. -/
theorem decided_onNotifierValidation (prepared : Prepared) (success : Bool) (data : List String)
    (call : Except CallFailure Bool) :
    Decided (onNotifierValidation prepared success data call) := by
  unfold onNotifierValidation
  apply Verdict.Plain.decided
  split_ifs
  · split
    · exact Verdict.plain_ofParts _ _ _ _ call
    · exact Verdict.plain_ofParts _ _ _ _ call
    · exact Verdict.plain_of_no_fields _ _
  · exact Verdict.plain_of_no_fields _ _
  · exact Verdict.plain_of_no_fields _ _

/-! ## Accepted requests -/

theorem orThrow_eq_ok {α : Type} {result : Except String α} {value : α}
    (done : orThrow result = .ok value) : result = .ok value := by
  cases result with
  | error message => contradiction
  | ok found => exact congrArg Except.ok (Except.ok.inj done)

/-- The key of an element has passed its constructor. -/
theorem pubkey_of_subUnsubArgs {env : Env} {element : Json} {args : Arguments}
    (read : subUnsubArgs env element = .ok args) :
    ∃ ed : Option Ed25519PK, (ed.isSome = true ↔ args.pubkey.id.byteAt 0 = 5) ∧
      SwarmPubkey.make env.toCurve args.pubkey.id ed false = .ok args.pubkey := by
  unfold subUnsubArgs at read
  obtain ⟨accountField, -, read⟩ := bind_eq_ok_iff.mp read
  obtain ⟨account, -, read⟩ := bind_eq_ok_iff.mp read
  obtain ⟨sessionEd, session, read⟩ := bind_eq_ok_iff.mp read
  obtain ⟨subaccount, -, read⟩ := bind_eq_ok_iff.mp read
  obtain ⟨sigField, -, read⟩ := bind_eq_ok_iff.mp read
  obtain ⟨sig, -, read⟩ := bind_eq_ok_iff.mp read
  obtain ⟨pubkey, made, read⟩ := bind_eq_ok_iff.mp read
  obtain ⟨timeField, -, read⟩ := bind_eq_ok_iff.mp read
  obtain ⟨sigTs, -, read⟩ := bind_eq_ok_iff.mp read
  obtain ⟨serviceField, -, read⟩ := bind_eq_ok_iff.mp read
  obtain ⟨service, -, read⟩ := bind_eq_ok_iff.mp read
  obtain ⟨serviceInfo, -, read⟩ := bind_eq_ok_iff.mp read
  cases read
  have constructed := orThrow_eq_ok made
  have account := congrArg SwarmPubkey.id (SwarmPubkey.eq_of_make constructed)
  rw [account]
  refine ⟨sessionEd, ?_, constructed⟩
  unfold sessionEdArg at session
  split_ifs at session with five
  · obtain ⟨keyField, -, session⟩ := bind_eq_ok_iff.mp session
    obtain ⟨key, -, session⟩ := bind_eq_ok_iff.mp session
    cases session
    exact iff_of_true rfl five
  · cases session
    exact iff_of_false Bool.false_ne_true five

/-- Whatever a validated request stores has been accepted. -/
theorem accepted_of_prepare {env : Env} {around : Surroundings} {element : Json}
    {prepared : Prepared} {sub : Subscription} {encKey : EncKey}
    (ready : prepare env true around element = .ok prepared)
    (purpose : prepared.purpose = .subscribe sub encKey) (serviceId : String)
    (serviceData : Option String) :
    (addRequest prepared sub encKey serviceId serviceData).Accepted env := by
  unfold prepare at ready
  obtain ⟨args, read, ready⟩ := bind_eq_ok_iff.mp ready
  obtain ⟨⟨⟩, -, ready⟩ := bind_eq_ok_iff.mp ready
  rw [if_pos rfl] at ready
  obtain ⟨found, captured, ready⟩ := bind_eq_ok_iff.mp ready
  cases ready
  cases purpose
  unfold subscribePurpose at captured
  obtain ⟨keyField, -, captured⟩ := bind_eq_ok_iff.mp captured
  obtain ⟨key, -, captured⟩ := bind_eq_ok_iff.mp captured
  obtain ⟨namespacesField, -, captured⟩ := bind_eq_ok_iff.mp captured
  obtain ⟨namespaces, -, captured⟩ := bind_eq_ok_iff.mp captured
  obtain ⟨dataField, -, captured⟩ := bind_eq_ok_iff.mp captured
  obtain ⟨data, -, captured⟩ := bind_eq_ok_iff.mp captured
  obtain ⟨made, built, captured⟩ := bind_eq_ok_iff.mp captured
  cases captured
  have constructed := orThrow_eq_ok built
  refine ⟨pubkey_of_subUnsubArgs read, around.now, ?_⟩
  obtain ⟨subaccount, namespacesEq, wantData, sigTs, sig⟩ :=
    Subscription.make_eq_ok_fields constructed
  simp only [addRequest, subaccount, namespacesEq, wantData, sigTs, sig]
  exact constructed

end Spns.Requests
