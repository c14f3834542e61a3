import Spns.Lib.Totals
import Spns.Notifiers.Stats

/-!
# Deliveries with retries

The notifier for Apple devices has a coroutine for every push.  It sends a
request, looks at the response, and after a failure sleeps and sends the request
again, for a number of retries.  The coroutines run interleaved and share the
counters, which a timer collects in between.
-/

namespace Spns.Notifiers

open Spns.Lib
open Spns.Lib.Unordered

/-- `response.status` -/
inductive Status where
  | number (value : Int)
  | text (value : String)
  deriving DecidableEq

/-- A response of the push service. -/
structure Response where
  isSuccessful : Bool
  status : Status
  description : Option String
  deriving DecidableEq

/-- The failure after which there is no retry. -/
def Response.badDeviceToken (response : Response) : Bool :=
  (response.status = .number 400 || response.status = .text "400") &&
    response.description = some "BadDeviceToken"

/-- A coroutine of `apns_notify`, with the responses so far. -/
structure Delivery where
  retries : Int
  /-- It waits for a response, otherwise it sleeps. -/
  sending : Bool
  responses : List Response
  deriving DecidableEq

inductive Outcome where
  | notified
  | failed
  /-- `send_notification` has raised an exception. -/
  | raised
  deriving DecidableEq

/-- A coroutine that has ended. -/
structure Ended where
  outcome : Outcome
  responses : List Response
  deriving DecidableEq

/-- The handler; `pushes` counts the coroutines, and `ended` holds those that
are no longer there. -/
structure ApnsHandler where
  deliveries : Map Nat Delivery
  stats : NotifyStats
  pushes : Nat
  ended : List Ended

inductive ApnsEvent where
  /-- `push_notification` has scheduled a coroutine. -/
  | push (id : Nat)
  | respond (id : Nat) (response : Response)
  | raise (id : Nat)
  /-- The end of a sleep. -/
  | wake (id : Nat)
  /-- The timer. -/
  | collect (now : ℚ)

namespace NotifyStats

/-- A success, counted under the lock. -/
def notified (stats : NotifyStats) (retried : Bool) : NotifyStats :=
  { stats with
    notifies := stats.notifies + 1
    notifyRetries := if retried then stats.notifyRetries + 1 else stats.notifyRetries }

def failed (stats : NotifyStats) : NotifyStats :=
  { stats with failures := stats.failures + 1 }

end NotifyStats

namespace ApnsHandler

def initial : ApnsHandler where
  deliveries := ∅
  stats := .initial
  pushes := 0
  ended := []

/-- The end of a coroutine. -/
def finish (handler : ApnsHandler) (id : Nat) (outcome : Outcome) (responses : List Response)
    (stats : NotifyStats) : ApnsHandler :=
  { handler with
    deliveries := handler.deliveries.erase id
    stats := stats
    ended := handler.ended ++ [⟨outcome, responses⟩] }

/-- One turn of the loop of `apns_notify`, from a response to the next `await`. -/
def onResponse (maxRetries : Int) (handler : ApnsHandler) (id : Nat) (delivery : Delivery)
    (response : Response) : ApnsHandler :=
  let responses := delivery.responses ++ [response]
  if response.isSuccessful then
    handler.finish id .notified responses (handler.stats.notified (delivery.retries < maxRetries))
  else if delivery.retries ≤ 0 then
    handler.finish id .failed responses handler.stats.failed
  else if response.badDeviceToken then
    handler.finish id .failed responses handler.stats.failed
  else
    { handler with
      deliveries := handler.deliveries.insert id ⟨delivery.retries - 1, false, responses⟩ }

def step (maxRetries : Int) (handler : ApnsHandler) : ApnsEvent → Option ApnsHandler
  | .push id =>
      match handler.deliveries.lookup id with
      | some _ => none
      | none =>
          some { handler with
            deliveries := handler.deliveries.insert id ⟨maxRetries, true, []⟩
            pushes := handler.pushes + 1 }
  | .respond id response =>
      match handler.deliveries.lookup id with
      | some ⟨retries, true, responses⟩ =>
          some (handler.onResponse maxRetries id ⟨retries, true, responses⟩ response)
      | _ => none
  | .raise id =>
      match handler.deliveries.lookup id with
      | some ⟨_, true, responses⟩ => some (handler.finish id .raised responses handler.stats)
      | _ => none
  | .wake id =>
      match handler.deliveries.lookup id with
      | some ⟨retries, false, responses⟩ =>
          some { handler with
            deliveries := handler.deliveries.insert id ⟨retries, true, responses⟩ }
      | _ => none
  | .collect now =>
      match handler.stats.collect now with
      | .ok (_, stats) => some { handler with stats := stats }
      | .error _ => some handler

end ApnsHandler

/-! ## One delivery -/

/-- A failure that a retry follows while there are retries left. -/
def Response.Retriable (response : Response) : Prop :=
  response.isSuccessful = false ∧ response.badDeviceToken = false

/-- Responses with a retry after each of them. -/
structure Retried (maxRetries : Int) (responses : List Response) : Prop where
  retriable : ∀ response ∈ responses, response.Retriable
  length_le : responses.length ≤ maxRetries.toNat

/-- What one delivery comes to on its own: at the first success it has
notified, and it has failed at a bad token or a failure after the last retry. -/
inductive Settles (maxRetries : Int) : Ended → Prop where
  | notified {before : List Response} {last : Response} (retried : Retried maxRetries before)
      (successful : last.isSuccessful = true) : Settles maxRetries ⟨.notified, before ++ [last]⟩
  | failed {before : List Response} {last : Response} (retried : Retried maxRetries before)
      (unsuccessful : last.isSuccessful = false)
      (final : before.length = maxRetries.toNat ∨ last.badDeviceToken = true) :
      Settles maxRetries ⟨.failed, before ++ [last]⟩
  | raised {before : List Response} (retried : Retried maxRetries before) :
      Settles maxRetries ⟨.raised, before⟩

/-- The number of requests of a delivery that has ended. -/
def Ended.attempts (ended : Ended) : Nat :=
  match ended.outcome with
  | .raised => ended.responses.length + 1
  | _ => ended.responses.length

theorem Settles.attempts_le {maxRetries : Int} {ended : Ended} (settles : Settles maxRetries ended) :
    ended.attempts ≤ maxRetries.toNat + 1 := by
  cases settles with
  | notified retried _ =>
      have bound := retried.length_le
      simp only [Ended.attempts, List.length_append, List.length_singleton]
      omega
  | failed retried _ _ =>
      have bound := retried.length_le
      simp only [Ended.attempts, List.length_append, List.length_singleton]
      omega
  | raised retried => exact Nat.succ_le_succ retried.length_le

/-- A coroutine between two events. -/
structure Delivery.Underway (maxRetries : Int) (delivery : Delivery) : Prop where
  retried : Retried maxRetries delivery.responses
  retries : delivery.retries = maxRetries - delivery.responses.length

theorem underway_start (maxRetries : Int) : Delivery.Underway maxRetries ⟨maxRetries, true, []⟩ where
  retried := ⟨fun _ member => absurd member List.not_mem_nil, Nat.zero_le _⟩
  retries := (sub_zero maxRetries).symm

/-! ## All deliveries -/

/-- Successes at the first request and after retries are counted apart. -/
def Ended.isRetriedSuccess (ended : Ended) : Bool :=
  ended.outcome = .notified && 1 < ended.responses.length

/-- Every push is underway or has ended once, as on its own, and the counters
together with what was collected count the ends. -/
structure ApnsHandler.Accounted (maxRetries : Int) (handler : ApnsHandler) : Prop where
  pushes : handler.pushes = handler.deliveries.entries.length + handler.ended.length
  underway : ∀ id delivery, handler.deliveries.lookup id = some delivery →
    delivery.Underway maxRetries
  settles : ∀ ended ∈ handler.ended, Settles maxRetries ended
  attempts : ∀ ended ∈ handler.ended, ended.attempts ≤ maxRetries.toNat + 1
  notifies : handler.stats.totalNotifies + handler.stats.notifies =
    handler.ended.countP fun ended => ended.outcome = .notified
  notifyRetries : handler.stats.totalRetries + handler.stats.notifyRetries =
    handler.ended.countP Ended.isRetriedSuccess
  failures : handler.stats.totalFailures + handler.stats.failures =
    handler.ended.countP fun ended => ended.outcome = .failed

namespace ApnsHandler

variable {maxRetries : Int} {handler next : ApnsHandler}

theorem accounted_initial : initial.Accounted maxRetries where
  pushes := rfl
  underway _ _ found := by cases found
  settles _ member := absurd member List.not_mem_nil
  attempts _ member := absurd member List.not_mem_nil
  notifies := rfl
  notifyRetries := rfl
  failures := rfl

/-- Replacing the state of a coroutine. -/
theorem Accounted.replace (accounted : handler.Accounted maxRetries) {id : Nat}
    {delivery other : Delivery} (found : handler.deliveries.lookup id = some delivery)
    (underway : other.Underway maxRetries) :
    Accounted maxRetries { handler with deliveries := handler.deliveries.insert id other } where
  pushes := by
    rw [Map.length_insert_of_some found]
    exact accounted.pushes
  underway another current foundOther := by
    rw [Map.lookup_insert_eq] at foundOther
    split_ifs at foundOther with here
    · exact Option.some.inj foundOther ▸ underway
    · exact accounted.underway another current foundOther
  settles := accounted.settles
  attempts := accounted.attempts
  notifies := accounted.notifies
  notifyRetries := accounted.notifyRetries
  failures := accounted.failures

/-- The end of a coroutine, whose counters are what its outcome asks for. -/
theorem Accounted.finish (accounted : handler.Accounted maxRetries) {id : Nat} {delivery : Delivery}
    (found : handler.deliveries.lookup id = some delivery) {outcome : Outcome}
    {responses : List Response} {stats : NotifyStats}
    (settles : Settles maxRetries ⟨outcome, responses⟩)
    (notifies : stats.totalNotifies + stats.notifies =
      handler.stats.totalNotifies + handler.stats.notifies + if outcome = .notified then 1 else 0)
    (notifyRetries : stats.totalRetries + stats.notifyRetries =
      handler.stats.totalRetries + handler.stats.notifyRetries +
        if Ended.isRetriedSuccess ⟨outcome, responses⟩ then 1 else 0)
    (failures : stats.totalFailures + stats.failures =
      handler.stats.totalFailures + handler.stats.failures + if outcome = .failed then 1 else 0) :
    (handler.finish id outcome responses stats).Accounted maxRetries where
  pushes := by
    have count := accounted.pushes
    have fewer := Map.length_erase_of_some found
    simp only [ApnsHandler.finish, List.length_append, List.length_singleton]
    omega
  underway other current foundOther := by
    simp only [ApnsHandler.finish, Map.lookup_erase_eq] at foundOther
    split_ifs at foundOther
    exact accounted.underway other current foundOther
  settles ended member := by
    rcases List.mem_append.mp member with before | last
    · exact accounted.settles ended before
    · exact List.mem_singleton.mp last ▸ settles
  attempts ended member := by
    rcases List.mem_append.mp member with before | last
    · exact accounted.attempts ended before
    · exact List.mem_singleton.mp last ▸ settles.attempts_le
  notifies := by
    simp only [ApnsHandler.finish, List.countP_append, List.countP_singleton, decide_eq_true_eq]
    rw [notifies, accounted.notifies]
  notifyRetries := by
    simp only [ApnsHandler.finish, List.countP_append, List.countP_singleton]
    rw [notifyRetries, accounted.notifyRetries]
  failures := by
    simp only [ApnsHandler.finish, List.countP_append, List.countP_singleton, decide_eq_true_eq]
    rw [failures, accounted.failures]

/-- One turn of the loop. -/
theorem Accounted.onResponse (accounted : handler.Accounted maxRetries) {id : Nat}
    {delivery : Delivery} (found : handler.deliveries.lookup id = some delivery)
    (response : Response) : (handler.onResponse maxRetries id delivery response).Accounted maxRetries := by
  obtain ⟨retried, left⟩ := accounted.underway id delivery found
  have bound := retried.length_le
  simp only [ApnsHandler.onResponse]
  split_ifs with successful exhausted badToken
  · refine accounted.finish found (.notified retried successful) ?_ ?_ rfl
    · rfl
    · have again : delivery.retries < maxRetries ↔ 1 < (delivery.responses ++ [response]).length := by
        rw [List.length_append, List.length_singleton]
        omega
      simp only [NotifyStats.notified, Ended.isRetriedSuccess, decide_true, Bool.true_and,
        decide_eq_true_eq, again]
      split_ifs <;> rfl
  · have last : delivery.responses.length = maxRetries.toNat := by omega
    exact accounted.finish found (.failed retried (Bool.eq_false_iff.mpr successful) (.inl last))
      rfl rfl rfl
  · exact accounted.finish found
      (.failed retried (Bool.eq_false_iff.mpr successful) (.inr badToken)) rfl rfl rfl
  · refine accounted.replace found ⟨⟨?_, ?_⟩, ?_⟩
    · intro other member
      rcases List.mem_append.mp member with before | isLast
      · exact retried.retriable other before
      · rw [List.mem_singleton.mp isLast]
        exact ⟨Bool.eq_false_iff.mpr successful, Bool.eq_false_iff.mpr badToken⟩
    · rw [List.length_append, List.length_singleton]
      omega
    · simp only [List.length_append, List.length_singleton]
      omega

/-- Collecting moves counts from the counters to the totals. -/
theorem collect_totals {stats after : NotifyStats} {now : ℚ} {report : Report}
    (collected : stats.collect now = .ok (report, after)) :
    report.notifies = stats.notifies ∧ report.notifyRetries = stats.notifyRetries ∧
      report.failures = stats.failures ∧
      after.notifies = 0 ∧ after.notifyRetries = 0 ∧ after.failures = 0 ∧
      after.totalNotifies = stats.totalNotifies + stats.notifies ∧
      after.totalRetries = stats.totalRetries + stats.notifyRetries ∧
      after.totalFailures = stats.totalFailures + stats.failures := by
  rw [NotifyStats.collect] at collected
  cases found : windows.foldlM (reportWindow now stats.notifyHist) [] with
  | error raised =>
      rw [found] at collected
      cases collected
  | ok perDay =>
      rw [found] at collected
      cases collected
      exact ⟨rfl, rfl, rfl, rfl, rfl, rfl, rfl, rfl, rfl⟩

theorem Accounted.step (accounted : handler.Accounted maxRetries) {event : ApnsEvent}
    (taken : handler.step maxRetries event = some next) : next.Accounted maxRetries := by
  cases event with
  | push id =>
      simp only [ApnsHandler.step] at taken
      split at taken <;> cases taken
      rename_i fresh
      refine ⟨?_, ?_, accounted.settles, accounted.attempts, accounted.notifies, accounted.notifyRetries,
        accounted.failures⟩
      · have count := accounted.pushes
        rw [Map.length_insert_of_none fresh, add_right_comm, ← count]
      · intro other delivery found
        simp only [Map.lookup_insert_eq] at found
        split_ifs at found with here
        · exact Option.some.inj found ▸ underway_start maxRetries
        · exact accounted.underway other delivery found
  | respond id response =>
      simp only [ApnsHandler.step] at taken
      split at taken <;> cases taken
      rename_i found
      exact accounted.onResponse found response
  | raise id =>
      simp only [ApnsHandler.step] at taken
      split at taken <;> cases taken
      rename_i found
      exact accounted.finish found (.raised (accounted.underway id _ found).retried) rfl rfl rfl
  | wake id =>
      simp only [ApnsHandler.step] at taken
      split at taken <;> cases taken
      rename_i found
      have underway := accounted.underway id _ found
      exact accounted.replace found ⟨underway.retried, underway.retries⟩
  | collect now =>
      simp only [ApnsHandler.step] at taken
      split at taken <;> cases taken
      · rename_i report stats collected
        obtain ⟨-, -, -, noNotifies, noRetries, noFailures, notifies, retries, failures⟩ :=
          collect_totals collected
        refine ⟨accounted.pushes, accounted.underway, accounted.settles, accounted.attempts, ?_, ?_, ?_⟩
        · rw [noNotifies, notifies]
          exact accounted.notifies
        · rw [noRetries, retries]
          exact accounted.notifyRetries
        · rw [noFailures, failures]
          exact accounted.failures
      · exact accounted

/-- However the coroutines interleave, each delivery goes as on its own, with a
bounded number of requests, and the counters count every end once. -/
theorem deliveries_accounted {events : List ApnsEvent}
    (run : Run.exec (step maxRetries) initial events = some handler) : handler.Accounted maxRetries :=
  Run.Reachable.invariant ⟨events, run⟩ accounted_initial fun _ _ _ accounted taken =>
    accounted.step taken

def overloaded : Response where
  isSuccessful := false
  status := .text "503"
  description := some "ServiceUnavailable"

def delivered : Response where
  isSuccessful := true
  status := .text "200"
  description := none

/-- Of two interleaved deliveries one succeeds at the retry, the other fails. -/
def twoDeliveries : List ApnsEvent :=
  [.push 1, .push 2, .respond 2 overloaded, .respond 1 overloaded, .collect 0, .wake 1, .wake 2,
    .respond 1 delivered, .respond 2 overloaded]

theorem twoDeliveries_accounted :
    ∃ handler, Run.exec (step 1) initial twoDeliveries = some handler ∧
      handler.stats.notifyRetries = 1 ∧ handler.stats.failures = 1 ∧ handler.Accounted 1 := by
  have ends : ((Run.exec (step 1) initial twoDeliveries).map fun handler =>
      (handler.stats.notifyRetries, handler.stats.failures)) = some (1, 1) := by
    decide +kernel
  obtain ⟨handler, run, counts⟩ := Option.map_eq_some_iff.mp ends
  exact ⟨handler, run, congrArg Prod.fst counts, congrArg Prod.snd counts, deliveries_accounted run⟩

end ApnsHandler

end Spns.Notifiers
