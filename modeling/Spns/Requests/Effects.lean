import Spns.Requests.Batch
import Spns.Storage.Serial

/-!
# Replies and the database

The handlers of a request store or remove subscriptions, while other requests,
drops and cleanups change the same database, one transaction at a time.  A
client learns of this only by the outcomes in its reply.  They are to be
trusted: an outcome with `success` stands for one committed transaction of its
element, and says what that transaction has found; any other outcome stands for
none.
-/

namespace Spns.Requests

open Spns
open Spns.Hive
open Spns.Lib
open Spns.Lib.Replay
open Spns.Storage

/-! ## From an answer to a transaction -/

/-- The call that a handler makes for a device. -/
inductive HiveCall
  | add (request : AddRequest)
  | remove (request : HiveMind.RemoveRequest)

/-- The arguments of the call. -/
def callFor (prepared : Prepared) (serviceId : String) (serviceData : Option String) : HiveCall :=
  match prepared.purpose with
  | .subscribe sub encKey => .add (addRequest prepared sub encKey serviceId serviceData)
  | .unsubscribe sig subaccount sigTs =>
      .remove
        { pubkey := prepared.pubkey
          subaccount := subaccount
          service := utf8 prepared.service
          serviceId := utf8 serviceId
          sig := sig
          sigTs := sigTs }

/-- The data of a subscription is too long; a removal does not look at it. -/
def tooLong (purpose : Purpose) (third : Option String) : Bool :=
  match purpose, third with
  | .subscribe _ _, some serviceData => serviceDataMaxSize < (utf8 serviceData).length
  | _, _ => false

/-- The call after an answer with a status, a second part and maybe a third. -/
def callOfParts (prepared : Prepared) (status second : String) (third : Option String) :
    Option HiveCall :=
  if parseInt status = some SubscribeCode.ok.toInt ∧ serviceIdMinSize ≤ (utf8 second).length ∧
      (utf8 second).length ≤ serviceIdMaxSize ∧ tooLong prepared.purpose third = false then
    some (callFor prepared second third)
  else none

/-- The call of `on_notifier_validation`, if it gets there. -/
def validatedCall (prepared : Prepared) (success : Bool) (data : List String) : Option HiveCall :=
  if success then
    match data with
    | [status, second] => callOfParts prepared status second none
    | [status, second, third] => callOfParts prepared status second (some third)
    | _ => none
  else none

/-- The checks of `remove_subscription`, and the transaction after them. -/
def HiveCall.transaction (env : Env) (now : SysTime) : HiveCall → Except CallFailure Call
  | .add request => .ok (.addSubscription request)
  | .remove request =>
      if request.sigTs < unixTimestamp (now - unsubscribeGrace * second) ∨
          request.sigTs > unixTimestamp (now + unsubscribeGrace * second) then
        .error (.other "Invalid signature: sig_ts is too far from current time")
      else
        match verifyStorageSignature env.verify (HiveMind.unsubscribeMessage request) request.sig
            request.pubkey request.subaccount with
        | .error failure => .error (.signatureVerify failure)
        | .ok () => .ok (.removeSubscription ⟨request.pubkey.id, request.service, request.serviceId⟩)

/-- What the call returns. -/
def changed : Result → Bool
  | .added newSub => newSub
  | .removed any => any
  | .none => false

/-! ## The system -/

/-- A batch, the database, and the committed transactions with the elements
that they are for. -/
structure Handling where
  batch : Batch
  db : Database
  log : List (Option Nat × Call)

inductive HandlingEvent
  | dispatch (around : Surroundings) (submit : Except String Unit)
  /-- An answer, or a failure to get one; `fault` is an exception of the
  database, which comes before the commit. -/
  | answer (index : Nat) (success : Bool) (data : List String) (now : SysTime)
      (fault : Option String)
  | advance (index : Nat)
  /-- A transaction that has nothing to do with the batch, from its first
  statement to the commit. -/
  | transaction (call : Call)

namespace Handling

def start (multi : Bool) (elements : List Json) (base : Database) : Handling where
  batch := Batch.start multi elements
  db := base
  log := []

/-- An event of the batch alone. -/
def onBatch (env : Env) (subscribe : Bool) (handling : Handling) (event : BatchEvent) :
    Option Handling :=
  (handling.batch.step env subscribe event).map fun batch => { handling with batch := batch }

/-- A handler makes its call. -/
def onCall (env : Env) (subscribe : Bool) (handling : Handling) (index : Nat) (success : Bool)
    (data : List String) (now : SysTime) (fault : Option String) (hiveCall : HiveCall) :
    Option Handling :=
  match hiveCall.transaction env now, fault with
  | .error failure, _ =>
      handling.onBatch env subscribe (.answer index success data (.error failure))
  | .ok _, some message =>
      handling.onBatch env subscribe (.answer index success data (.error (.other message)))
  | .ok call, none =>
      let (db, result) := call.run handling.db
      (handling.batch.step env subscribe (.answer index success data (.ok (changed result)))).map
        fun batch => ⟨batch, db, handling.log ++ [(some index, call)]⟩

def step (env : Env) (subscribe : Bool) (handling : Handling) : HandlingEvent → Option Handling
  | .dispatch around submit => handling.onBatch env subscribe (.dispatch around submit)
  | .answer index success data now fault =>
      match handling.batch.phases[index]? with
      | some (.requested prepared) =>
          match validatedCall prepared success data with
          -- without a call it does not matter what the call would return
          | none => handling.onBatch env subscribe (.answer index success data (.ok false))
          | some hiveCall =>
              handling.onCall env subscribe index success data now fault hiveCall
      | _ => none
  | .advance index => handling.onBatch env subscribe (.advance index)
  | .transaction call =>
      some { handling with db := (call.run handling.db).1, log := handling.log ++ [(none, call)] }

end Handling

/-! ## What outcomes say -/

/-- The outcome of a transaction; `present` says that the device had something
stored before. -/
def successOf (present : Bool) : Call → Json
  | .addSubscription _ =>
      if present then
        .object [("message", .string "Resubscription successful"), ("success", .boolean true),
          ("updated", .boolean true)]
      else
        .object [("added", .boolean true), ("message", .string "Subscription successful"),
          ("success", .boolean true)]
  | _ =>
      .object [("message", .string (if present then "Device unsubscribed from push notifications"
          else "Device was not subscribed to push notifications")),
        ("removed", .boolean present), ("success", .boolean true)]

/-- The outcome reports an error, and no success. -/
def ReportsError (outcome : Json) : Prop :=
  ∃ fields, outcome = .object fields ∧ Json.HasKey "error" fields ∧ ¬Json.HasKey "success" fields

/-- The device that a transaction is about. -/
def deviceOf : Call → Option Device
  | .addSubscription request => some request.device
  | .removeSubscription device => some device
  | _ => none

theorem response_subscribe (sub : Subscription) (encKey : EncKey) (present : Bool)
    (request : AddRequest) :
    Json.object (Verdict.ofCall (.subscribe sub encKey) (.ok !present)).response =
      successOf present (.addSubscription request) := by
  cases present <;> rfl

theorem response_unsubscribe (sig : Signature) (subaccount : Option Subaccount) (sigTs : Int)
    (present : Bool) (device : Device) :
    Json.object (Verdict.ofCall (.unsubscribe sig subaccount sigTs) (.ok present)).response =
      successOf present (.removeSubscription device) := by
  cases present <;> rfl

/-- What a committed transaction of a handler leads to. -/
theorem response_ofCall {prepared : Prepared} {serviceId : String} {serviceData : Option String}
    {env : Env} {now : SysTime} {call : Call}
    (validated : (callFor prepared serviceId serviceData).transaction env now = .ok call)
    {db : Database} (sound : db.Sound) :
    ∃ device, deviceOf call = some device ∧
      Json.object (Verdict.ofCall prepared.purpose (.ok (changed (call.run db).2))).response =
        successOf (db.tables.contents device).isSome call := by
  rw [callFor] at validated
  cases purpose : prepared.purpose with
  | subscribe sub encKey =>
      rw [purpose] at validated
      cases validated
      refine ⟨_, rfl, ?_⟩
      have isNew := (Database.addSubscription_outcome sound
        (addRequest prepared sub encKey serviceId serviceData)).2.2
      rw [Call.run, changed, isNew, ← Option.not_isSome]
      exact response_subscribe sub encKey _ _
  | unsubscribe sig subaccount sigTs =>
      rw [purpose] at validated
      simp only [HiveCall.transaction] at validated
      split_ifs at validated
      split at validated <;> cases validated
      refine ⟨_, rfl, ?_⟩
      rw [Call.run, changed, Database.removeSubscription_reports sound]
      exact response_unsubscribe sig subaccount sigTs _ _

theorem reportsError_response {code : Int} (failed : code ≠ SubscribeCode.ok.toInt)
    (message : String) : ReportsError (.object (Verdict.response ⟨code, message, []⟩)) := by
  refine ⟨_, rfl, ?_⟩
  simp only [Verdict.response, if_neg failed]
  split_ifs <;> simp only [Json.hasKey_setField] <;> simp [Json.HasKey]

theorem reportsError_errorJson (code : Int) (message : String) :
    ReportsError (errorJson code message) := by
  refine ⟨_, rfl, ?_⟩
  simp [Json.HasKey]

/-- The checks of an answer with status `OK`. -/
theorem ofParts_of_ok {status : String} (ok : parseInt status = some SubscribeCode.ok.toInt)
    (purpose : Purpose) (second : String) (third : Option String) (call : Except CallFailure Bool) :
    Verdict.ofParts purpose status second third call =
      if serviceIdMinSize ≤ (utf8 second).length ∧ (utf8 second).length ≤ serviceIdMaxSize ∧
          tooLong purpose third = false then
        Verdict.ofCall purpose call
      else Verdict.exception := by
  unfold Verdict.ofParts
  simp only [ok, if_true]
  by_cases sized : (utf8 second).length < serviceIdMinSize ∨
      (utf8 second).length > serviceIdMaxSize
  · have refused : ¬(serviceIdMinSize ≤ (utf8 second).length ∧
        (utf8 second).length ≤ serviceIdMaxSize ∧ tooLong purpose third = false) := by
      omega
    rw [if_pos sized, if_neg refused]
  · have lower : serviceIdMinSize ≤ (utf8 second).length := by omega
    have upper : (utf8 second).length ≤ serviceIdMaxSize := by omega
    rw [if_neg sized]
    simp only [lower, upper, true_and]
    cases purpose with
    | unsubscribe sig subaccount sigTs => exact (if_pos rfl).symm
    | subscribe sub encKey =>
        cases third with
        | none => exact (if_pos rfl).symm
        | some serviceData =>
            by_cases long : serviceDataMaxSize < (utf8 serviceData).length
            · simp only [tooLong, long, decide_true, Bool.true_eq_false, if_false, if_true]
            · simp only [tooLong, long, decide_false, if_true, if_false]

/-- Without a call the verdict is an error, and with one it is that of the
call. -/
theorem ofParts_cases (prepared : Prepared) (status second : String) (third : Option String)
    (call : Except CallFailure Bool) :
    (callOfParts prepared status second third = some (callFor prepared second third) ∧
      Verdict.ofParts prepared.purpose status second third call =
        Verdict.ofCall prepared.purpose call) ∨
    (callOfParts prepared status second third = none ∧
      ReportsError (.object (Verdict.ofParts prepared.purpose status second third call).response)) := by
  have exceptional : ReportsError (.object Verdict.exception.response) :=
    reportsError_response (by decide) _
  by_cases ok : parseInt status = some SubscribeCode.ok.toInt
  · rw [callOfParts, ofParts_of_ok ok]
    simp only [ok, true_and]
    by_cases checks : serviceIdMinSize ≤ (utf8 second).length ∧
        (utf8 second).length ≤ serviceIdMaxSize ∧ tooLong prepared.purpose third = false
    · rw [if_pos checks, if_pos checks]
      exact Or.inl ⟨rfl, rfl⟩
    · rw [if_neg checks, if_neg checks]
      exact Or.inr ⟨rfl, exceptional⟩
  · refine Or.inr ⟨if_neg fun checks => ok checks.1, ?_⟩
    unfold Verdict.ofParts
    cases parsed : parseInt status with
    | none => exact exceptional
    | some code =>
        have failed : code ≠ SubscribeCode.ok.toInt := fun same => ok (parsed.trans (same ▸ rfl))
        simp only [if_neg failed]
        exact reportsError_response failed second

theorem onNotifierValidation_cases (prepared : Prepared) (success : Bool) (data : List String)
    (call : Except CallFailure Bool) :
    (∃ serviceId serviceData,
      validatedCall prepared success data = some (callFor prepared serviceId serviceData) ∧
      onNotifierValidation prepared success data call =
        .object (Verdict.ofCall prepared.purpose call).response) ∨
    (validatedCall prepared success data = none ∧
      ReportsError (onNotifierValidation prepared success data call)) := by
  have exceptional : ReportsError (.object Verdict.exception.response) :=
    reportsError_response (by decide) _
  cases success with
  | false =>
      refine Or.inr ⟨rfl, ?_⟩
      unfold onNotifierValidation
      simp only [Bool.false_eq_true, if_false]
      split_ifs
      · exact reportsError_response (by decide) _
      · exact reportsError_response (by decide) _
  | true =>
      match data with
      | [status, second] =>
          rcases ofParts_cases prepared status second none call with ⟨reaches, same⟩ | ⟨none, fails⟩
          · exact Or.inl ⟨second, none, reaches, congrArg (Json.object ∘ Verdict.response) same⟩
          · exact Or.inr ⟨none, fails⟩
      | [status, second, third] =>
          rcases ofParts_cases prepared status second (some third) call with
            ⟨reaches, same⟩ | ⟨none, fails⟩
          · exact Or.inl ⟨second, some third, reaches, congrArg (Json.object ∘ Verdict.response) same⟩
          · exact Or.inr ⟨none, fails⟩
      | [] => exact Or.inr ⟨rfl, exceptional⟩
      | [_] => exact Or.inr ⟨rfl, exceptional⟩
      | _ :: _ :: _ :: _ :: _ => exact Or.inr ⟨rfl, exceptional⟩

/-- A call that throws ends in an error. -/
theorem reportsError_of_failure (purpose : Purpose) (failure : CallFailure) :
    ReportsError (.object (Verdict.ofCall purpose (.error failure)).response) := by
  cases failure with
  | signatureVerify message => exact reportsError_response (by decide) message
  | other message => exact reportsError_response (by decide) _

/-! ## Elements and transactions -/

variable {env : Env} {subscribe : Bool} {base : Database} {elements : List Json}
  {log : List (Option Nat × Call)}

/-- The loop has turned the element into this request. -/
def PreparedFrom (env : Env) (subscribe : Bool) (elements : List Json) (index : Nat)
    (prepared : Prepared) : Prop :=
  ∃ element around, elements[index]? = some element ∧
    prepare env subscribe around element = .ok prepared

/-- The element has no transaction. -/
def Untouched (log : List (Option Nat × Call)) (index : Nat) : Prop :=
  ∀ entry ∈ log, entry.1 ≠ some index

/-- The transaction is what the element asks for, for the device and the data
that the notification service has given. -/
structure Asked (env : Env) (subscribe : Bool) (elements : List Json) (index : Nat) (call : Call)
    (device : Device) : Prop where
  validated : ∃ prepared data hiveCall now, PreparedFrom env subscribe elements index prepared ∧
    validatedCall prepared true data = some hiveCall ∧ hiveCall.transaction env now = .ok call
  device : deviceOf call = some device

/-- The element has one transaction, and the outcome says what that found. -/
def Took (env : Env) (subscribe : Bool) (base : Database) (elements : List Json)
    (log : List (Option Nat × Call)) (index : Nat) (outcome : Json) : Prop :=
  ∃ before call after device, log = before ++ (some index, call) :: after ∧
    Untouched before index ∧ Untouched after index ∧
    Asked env subscribe elements index call device ∧
    outcome = successOf (replayAt Call.op device (base.tables.contents device)
      (before.map Prod.snd)).isSome call

/-- The outcome can be trusted. -/
def Settled (env : Env) (subscribe : Bool) (base : Database) (elements : List Json)
    (log : List (Option Nat × Call)) (index : Nat) (outcome : Json) : Prop :=
  Took env subscribe base elements log index outcome ∨
    (Untouched log index ∧ ReportsError outcome)

theorem Untouched.concat {index : Nat} (untouched : Untouched log index) {entry : Option Nat × Call}
    (other : entry.1 ≠ some index) : Untouched (log ++ [entry]) index := by
  intro found member
  rcases List.mem_append.mp member with before | last
  · exact untouched found before
  · exact List.mem_singleton.mp last ▸ other

/-- Later transactions make no difference. -/
theorem Settled.concat {index : Nat} {outcome : Json}
    (settled : Settled env subscribe base elements log index outcome) {entry : Option Nat × Call}
    (other : entry.1 ≠ some index) :
    Settled env subscribe base elements (log ++ [entry]) index outcome := by
  rcases settled with ⟨before, call, after, device, rfl, first, later, asked, same⟩ | ⟨untouched, error⟩
  · left
    refine ⟨before, call, after ++ [entry], device, ?_, first, later.concat other, asked, same⟩
    rw [List.append_assoc, List.cons_append]
  · exact Or.inr ⟨untouched.concat other, error⟩

/-! ## The invariant -/

/-- The database is what the transactions have left, every outcome can be
trusted, and elements without an outcome have no transaction. -/
structure Truthful (env : Env) (subscribe : Bool) (base : Database) (elements : List Json)
    (handling : Handling) : Prop where
  contents : ∀ device, handling.db.tables.contents device =
    replayAt Call.op device (base.tables.contents device) (handling.log.map Prod.snd)
  settled : ∀ index outcome, handling.batch.outcomeAt index = some outcome →
    Settled env subscribe base elements handling.log index outcome
  undecided : ∀ index, handling.batch.outcomeAt index = none → Untouched handling.log index

/-- What holds in between. -/
structure Handling.Inv (env : Env) (subscribe : Bool) (base : Database) (multi : Bool)
    (elements : List Json) (handling : Handling) : Prop where
  batch : Batch.Inv multi elements handling.batch
  sound : handling.db.Sound
  prepared : ∀ index prepared, handling.batch.phases[index]? = some (.requested prepared) →
    PreparedFrom env subscribe elements index prepared
  truthful : Truthful env subscribe base elements handling

namespace Handling

variable {multi : Bool} {handling next : Handling}

/-- The outcome at an index after one phase has changed. -/
theorem outcomeAt_of_set {batch after : Batch} {index : Nat} {old new : Phase}
    (here : batch.phases[index]? = some old) (phases : after.phases = batch.phases.set index new)
    (other : Nat) :
    after.outcomeAt other = if other = index then new.outcome else batch.outcomeAt other := by
  rw [Batch.outcomeAt, phases]
  split_ifs with same
  · rw [same, Batch.phase_set_self here]
    rfl
  · rw [List.getElem?_set_ne (Ne.symm same)]
    rfl

/-- One phase changes, and no transaction is committed. -/
theorem Inv.change (inv : handling.Inv env subscribe base multi elements) {batch : Batch}
    (kept : Batch.Inv multi elements batch) {index : Nat} {old new : Phase}
    (here : handling.batch.phases[index]? = some old)
    (phases : batch.phases = handling.batch.phases.set index new)
    (prepared : ∀ prepared, new = .requested prepared →
      PreparedFrom env subscribe elements index prepared)
    (settled : ∀ outcome, new.outcome = some outcome →
      Settled env subscribe base elements handling.log index outcome)
    (undecided : new.outcome = none → Untouched handling.log index) :
    Inv env subscribe base multi elements { handling with batch := batch } where
  batch := kept
  sound := inv.sound
  prepared other found requested := by
    rw [phases] at requested
    rcases Batch.phase_set_cases requested with ⟨rfl, same⟩ | ⟨-, before⟩
    · exact prepared found same.symm
    · exact inv.prepared other found before
  truthful := by
    refine ⟨inv.truthful.contents, fun other outcome decided => ?_, fun other none => ?_⟩
    · rw [outcomeAt_of_set here phases] at decided
      split_ifs at decided with same
      · exact same ▸ settled outcome decided
      · exact inv.truthful.settled other outcome decided
    · rw [outcomeAt_of_set here phases] at none
      split_ifs at none with same
      · exact same ▸ undecided none
      · exact inv.truthful.undecided other none

/-- An element is decided, and no transaction is committed. -/
theorem Inv.decide (inv : handling.Inv env subscribe base multi elements) {batch : Batch}
    (kept : Batch.Inv multi elements batch) {index : Nat} {old : Phase}
    (here : handling.batch.phases[index]? = some old) {outcome : Json}
    (phases : batch.phases = handling.batch.phases.set index (.decided outcome))
    (settled : Settled env subscribe base elements handling.log index outcome) :
    Inv env subscribe base multi elements { handling with batch := batch } := by
  refine inv.change kept here phases ?_ ?_ ?_
  · intro prepared same
    cases same
  · intro other same
    cases same
    exact settled
  · intro none
    cases none

/-- A transaction is committed; if it is for an element, that element gets its
outcome. -/
theorem Inv.commit (inv : handling.Inv env subscribe base multi elements) (call : Call)
    {batch : Batch} (kept : Batch.Inv multi elements batch) {origin : Option Nat}
    (prepared : ∀ (index : Nat) prepared, batch.phases[index]? = some (Phase.requested prepared) →
      handling.batch.phases[index]? = some (Phase.requested prepared))
    (settled : ∀ index outcome, origin = some index → batch.outcomeAt index = some outcome →
      Settled env subscribe base elements (handling.log ++ [(origin, call)]) index outcome)
    (decided : ∀ index, origin = some index → batch.outcomeAt index ≠ none)
    (others : ∀ index, origin ≠ some index →
      batch.outcomeAt index = handling.batch.outcomeAt index) :
    Inv env subscribe base multi elements
      ⟨batch, (call.run handling.db).1, handling.log ++ [(origin, call)]⟩ where
  batch := kept
  sound := (call.run_outcome inv.sound).1
  prepared index found requested := inv.prepared index found (prepared index found requested)
  truthful := by
    refine ⟨fun device => ?_, fun index outcome found => ?_, fun index none => ?_⟩
    · have left := congrFun (call.run_outcome inv.sound).2.1 device
      rw [inv.truthful.contents] at left
      rw [List.map_append, List.map_singleton, replayAt_concat]
      exact left
    · by_cases own : origin = some index
      · exact settled index outcome own found
      · rw [others index own] at found
        exact (inv.truthful.settled index outcome found).concat own
    · have other : origin ≠ some index := fun own => decided index own none
      rw [others index other] at none
      exact (inv.truthful.undecided index none).concat other

theorem Inv.untouched_of_none (inv : handling.Inv env subscribe base multi elements) {index : Nat}
    {phase : Phase} (here : handling.batch.phases[index]? = some phase)
    (none : phase.outcome = none) : Untouched handling.log index := by
  apply inv.truthful.undecided
  rw [Batch.outcomeAt, here]
  exact none

/-- The dispatch loop sends a request or refuses an element. -/
theorem Inv.dispatch (inv : handling.Inv env subscribe base multi elements)
    {around : Surroundings} {submit : Except String Unit}
    (taken : handling.step env subscribe (.dispatch around submit) = some next) :
    next.Inv env subscribe base multi elements := by
  obtain ⟨batch, moved, rfl⟩ := Option.map_eq_some_iff.mp taken
  have kept := inv.batch.step (Batch.moves_of_step moved)
  rw [Batch.step] at moved
  split at moved
  · rename_i element idle found
    have here := inv.batch.layout.next_waiting (List.getElem?_eq_some_iff.mp found).1
    have untouched := inv.untouched_of_none here rfl
    split at moved
    · rename_i prepared ready
      cases moved
      refine inv.change kept here rfl ?_ ?_ fun _ => untouched
      · intro other same
        cases same
        obtain ⟨made, first, rest⟩ := Fallible.bind_eq_ok_iff.mp ready
        obtain ⟨-, -, rest⟩ := Fallible.bind_eq_ok_iff.mp rest
        cases rest
        exact ⟨element, around, inv.batch.elements ▸ found, first⟩
      · intro outcome none
        cases none
    · cases moved
      exact inv.decide kept here rfl (Or.inr ⟨untouched, reportsError_errorJson _ _⟩)
  · contradiction

theorem Inv.advance (inv : handling.Inv env subscribe base multi elements) {index : Nat}
    (taken : handling.step env subscribe (.advance index) = some next) :
    next.Inv env subscribe base multi elements := by
  obtain ⟨batch, moved, rfl⟩ := Option.map_eq_some_iff.mp taken
  have kept := inv.batch.step (Batch.moves_of_step moved)
  have goesOn : ∀ old outcome new : _, handling.batch.phases[index]? = some old →
      old.outcome = some outcome → new.outcome = some outcome →
      (∀ prepared, new ≠ .requested prepared) →
      batch.phases = handling.batch.phases.set index new →
      Inv env subscribe base multi elements { handling with batch := batch } := by
    intro old outcome new here before after different phases
    have settled := inv.truthful.settled index outcome
      (Option.bind_eq_some_iff.mpr ⟨old, here, before⟩)
    refine inv.change kept here phases (fun prepared same => absurd same (different prepared))
      (fun other same => ?_) fun none => ?_
    · rw [after] at same
      cases same
      exact settled
    · rw [after] at none
      contradiction
  simp only [Batch.step, Batch.advance] at moved
  split at moved
  · rename_i outcome here
    cases moved
    exact goesOn _ outcome _ here rfl rfl (fun _ => Phase.noConfusion) rfl
  · rename_i outcome here
    split_ifs at moved <;> cases moved
    · exact goesOn _ outcome _ here rfl rfl (fun _ => Phase.noConfusion) rfl
    · exact goesOn _ outcome _ here rfl rfl (fun _ => Phase.noConfusion) rfl
  · rename_i outcome here
    cases moved
    exact goesOn _ outcome _ here rfl rfl (fun _ => Phase.noConfusion) rfl
  · contradiction

/-- A handler sets an error without a transaction. -/
theorem Inv.answerError (inv : handling.Inv env subscribe base multi elements) {index : Nat}
    {prepared : Prepared} (here : handling.batch.phases[index]? = some (.requested prepared))
    {success : Bool} {data : List String} {call : Except CallFailure Bool}
    (error : ReportsError (onNotifierValidation prepared success data call))
    (taken : handling.onBatch env subscribe (.answer index success data call) = some next) :
    next.Inv env subscribe base multi elements := by
  obtain ⟨batch, moved, rfl⟩ := Option.map_eq_some_iff.mp taken
  have kept := inv.batch.step (Batch.moves_of_step moved)
  have untouched := inv.untouched_of_none here rfl
  simp only [Batch.step, here, Option.some.injEq] at moved
  subst moved
  exact inv.decide kept here rfl (Or.inr ⟨untouched, error⟩)

/-- A handler sets the outcome of its transaction. -/
theorem Inv.answerCall (inv : handling.Inv env subscribe base multi elements) {index : Nat}
    {prepared : Prepared} (here : handling.batch.phases[index]? = some (.requested prepared))
    {data : List String} {serviceId : String} {serviceData : Option String}
    (validated : validatedCall prepared true data = some (callFor prepared serviceId serviceData))
    {now : SysTime} {call : Call}
    (transaction : (callFor prepared serviceId serviceData).transaction env now = .ok call)
    (answers : onNotifierValidation prepared true data (.ok (changed (call.run handling.db).2)) =
      .object (Verdict.ofCall prepared.purpose (.ok (changed (call.run handling.db).2))).response)
    {batch : Batch}
    (moved : handling.batch.step env subscribe
      (.answer index true data (.ok (changed (call.run handling.db).2))) = some batch) :
    Inv env subscribe base multi elements
      ⟨batch, (call.run handling.db).1, handling.log ++ [(some index, call)]⟩ := by
  have kept := inv.batch.step (Batch.moves_of_step moved)
  have untouched := inv.untouched_of_none here rfl
  obtain ⟨device, about, response⟩ := response_ofCall transaction inv.sound
  simp only [Batch.step, here, Option.some.injEq] at moved
  have phases : batch.phases = handling.batch.phases.set index
      (.decided (onNotifierValidation prepared true data (.ok (changed (call.run handling.db).2)))) := by
    rw [← moved]
  have outcomeAt := outcomeAt_of_set here phases
  refine inv.commit call kept ?_ ?_ ?_ ?_
  · intro other found requested
    rw [phases] at requested
    rcases Batch.phase_set_cases requested with ⟨-, same⟩ | ⟨-, before⟩
    · cases same
    · exact before
  · rintro other outcome own decided
    cases own
    rw [outcomeAt, if_pos rfl] at decided
    cases decided
    left
    refine ⟨handling.log, call, [], device, rfl, untouched,
      fun _ member => absurd member List.not_mem_nil, ⟨?_, about⟩, ?_⟩
    · exact ⟨prepared, data, _, now, inv.prepared index prepared here, validated, transaction⟩
    · rw [answers, response, inv.truthful.contents]
  · rintro other own none
    cases own
    rw [outcomeAt, if_pos rfl] at none
    cases none
  · intro other apart
    have different : other ≠ index := fun same => apart (same ▸ rfl)
    rw [outcomeAt, if_neg different]

theorem Inv.answer (inv : handling.Inv env subscribe base multi elements) {index : Nat}
    {success : Bool} {data : List String} {now : SysTime} {fault : Option String}
    (taken : handling.step env subscribe (.answer index success data now fault) = some next) :
    next.Inv env subscribe base multi elements := by
  simp only [Handling.step] at taken
  split at taken
  · rename_i prepared here
    split at taken
    · rename_i none
      rcases onNotifierValidation_cases prepared success data (.ok false) with
        ⟨serviceId, serviceData, reaches, -⟩ | ⟨-, error⟩
      · rw [none] at reaches
        contradiction
      · exact inv.answerError here error taken
    · rename_i hiveCall reached
      have success_ : success = true := by
        cases success with
        | true => rfl
        | false => cases reached
      subst success_
      have verdict : ∀ call : Except CallFailure Bool, ∃ serviceId serviceData,
          hiveCall = callFor prepared serviceId serviceData ∧
          onNotifierValidation prepared true data call =
            .object (Verdict.ofCall prepared.purpose call).response := by
        intro call
        rcases onNotifierValidation_cases prepared true data call with
          ⟨serviceId, serviceData, reaches, same⟩ | ⟨none, -⟩
        · exact ⟨serviceId, serviceData, Option.some.inj (reached.symm.trans reaches), same⟩
        · rw [none] at reached
          contradiction
      have fails : ∀ failure, ReportsError (onNotifierValidation prepared true data (.error failure)) := by
        intro failure
        obtain ⟨-, -, -, same⟩ := verdict (.error failure)
        rw [same]
        exact reportsError_of_failure _ _
      unfold onCall at taken
      split at taken
      · exact inv.answerError here (fails _) taken
      · exact inv.answerError here (fails _) taken
      · rename_i call transaction
        obtain ⟨serviceId, serviceData, rfl, answers⟩ :=
          verdict (.ok (changed (call.run handling.db).2))
        obtain ⟨batch, moved, rfl⟩ := Option.map_eq_some_iff.mp taken
        exact inv.answerCall here reached transaction answers moved
  · contradiction

theorem Inv.step (inv : handling.Inv env subscribe base multi elements) {event : HandlingEvent}
    (taken : handling.step env subscribe event = some next) :
    next.Inv env subscribe base multi elements := by
  cases event with
  | dispatch around submit => exact inv.dispatch taken
  | answer index success data now fault => exact inv.answer taken
  | advance index => exact inv.advance taken
  | transaction call =>
      cases taken
      refine inv.commit call inv.batch (fun _ _ requested => requested) ?_ ?_ fun _ _ => rfl
      · intro index outcome own
        cases own
      · intro index own
        cases own

end Handling

/-! ## Trust in replies -/

end Spns.Requests
