import Spns.Notifiers.Stats

/-!
# The queue of the Huawei notifier

`push_notification` appends messages to `notify_queue`, and a timer thread runs
`send_pending`, which swaps the queue for an empty one and then sends its
messages one by one without the lock.  An exception of `send_message` ends the
walk: `warn_on_except` logs it, and the messages behind the one that failed are
in no queue any more.
-/

namespace Spns.Notifiers.Huawei

open Spns.Lib

/-- What is sent to a device: a JSON text and the token of the device. -/
structure Message where
  data : List Char
  token : List Char
  deriving DecidableEq

/-- Where `send_pending` is in its walk over `queue`. -/
inductive Sending where
  /-- It is not running. -/
  | idle
  /-- Before the next turn of its loop, with what is left of the queue. -/
  | walking (rest : List Message)
  /-- Between the return of `send_message` and the update of the statistics. -/
  | counting (rest : List Message)
  deriving DecidableEq

/-- The queue, the timer thread and the statistics, with a record of what
happened. -/
structure Notifier where
  notifyQueue : List Message
  sending : Sending
  stats : NotifyStats
  /-- All messages that were appended to the queue. -/
  appended : List Message
  /-- All messages that were handed to `send_message`. -/
  handed : List Message
  /-- How many calls of `send_message` returned. -/
  returned : Nat
  deriving DecidableEq

inductive Event where
  /-- The section of `push_notification` that holds the lock. -/
  | pushNotification (message : Message)
  /-- The section of `send_pending` that holds the lock. -/
  | sendPending
  /-- A call of `send_message`, which returns or raises an exception. -/
  | sendMessage (returns : Bool)
  /-- The update of the statistics after a call that returned. -/
  | countNotify
  /-- The end of the loop of `send_pending`. -/
  | finish
  /-- The timer that collects the statistics. -/
  | collect (now : ℚ)

namespace Notifier

def initial : Notifier where
  notifyQueue := []
  sending := .idle
  stats := .initial
  appended := []
  handed := []
  returned := 0

/-- The single timer thread runs one `send_pending` at a time. -/
def step (notifier : Notifier) : Event → Option Notifier
  | .pushNotification message =>
      some { notifier with
        notifyQueue := notifier.notifyQueue ++ [message]
        appended := notifier.appended ++ [message] }
  | .sendPending =>
      match notifier.sending with
      | .idle => some { notifier with notifyQueue := [], sending := .walking notifier.notifyQueue }
      | _ => none
  | .sendMessage returns =>
      match notifier.sending with
      | .walking (message :: rest) =>
          if returns then
            some { notifier with
              sending := .counting rest
              handed := notifier.handed ++ [message]
              returned := notifier.returned + 1 }
          else
            -- the exception leaves `send_pending` and ends the life of `queue`
            some { notifier with sending := .idle, handed := notifier.handed ++ [message] }
      | _ => none
  | .countNotify =>
      match notifier.sending with
      | .counting rest =>
          some { notifier with
            sending := .walking rest
            stats := { notifier.stats with notifies := notifier.stats.notifies + 1 } }
      | _ => none
  | .finish =>
      match notifier.sending with
      | .walking [] => some { notifier with sending := .idle }
      | _ => none
  | .collect now =>
      match notifier.stats.collect now with
      | .ok (_, stats) => some { notifier with stats := stats }
      | .error _ => some notifier

/-- The part of the walk that is still ahead. -/
def rest (notifier : Notifier) : List Message :=
  match notifier.sending with
  | .idle => []
  | .walking rest => rest
  | .counting rest => rest

/-- The calls that returned and are not in the statistics yet. -/
def uncounted (notifier : Notifier) : Nat :=
  match notifier.sending with
  | .counting _ => 1
  | _ => 0

/-- Nothing is lost. -/
structure Delivers (notifier : Notifier) : Prop where
  /-- What was appended is handed over once and in order, or still waits. -/
  inOrder : notifier.handed ++ (notifier.rest ++ notifier.notifyQueue) = notifier.appended
  /-- A `send_pending` that finds the queue empty has nothing left to do. -/
  emptied : notifier.sending = .idle → notifier.notifyQueue = [] →
    notifier.handed = notifier.appended
  /-- `collect` moves counts to the total. -/
  counted : notifier.stats.totalNotifies + notifier.stats.notifies + notifier.uncounted =
    notifier.returned

/-- A call of `send_message` raises an exception for the last message of the
queue only. -/
def RaisesAtEnd (notifier : Notifier) : Event → Prop
  | .sendMessage false => notifier.rest.length ≤ 1
  | _ => True

/-- The second part of `Delivers` follows from the first. -/
theorem Delivers.of_inOrder {notifier : Notifier}
    (inOrder : notifier.handed ++ (notifier.rest ++ notifier.notifyQueue) = notifier.appended)
    (counted : notifier.stats.totalNotifies + notifier.stats.notifies + notifier.uncounted =
      notifier.returned) : notifier.Delivers where
  inOrder := inOrder
  emptied idle empty := by
    rw [rest, idle, empty, List.append_nil, List.append_nil] at inOrder
    exact inOrder
  counted := counted

theorem delivers_initial : initial.Delivers :=
  .of_inOrder rfl rfl

/-- `collect` keeps the number of notifications. -/
theorem notifies_of_collect {stats after : NotifyStats} {now : ℚ} {report : Report}
    (collected : stats.collect now = .ok (report, after)) :
    after.totalNotifies + after.notifies = stats.totalNotifies + stats.notifies := by
  rw [NotifyStats.collect, Fallible.bind_eq_ok_iff] at collected
  obtain ⟨perDay, -, result⟩ := collected
  cases result
  rfl

variable {notifier next : Notifier}

/-- A raised exception loses what is behind the message. -/
theorem delivers_of_raise_iff (delivers : notifier.Delivers)
    (taken : notifier.step (.sendMessage false) = some next) :
    next.Delivers ↔ notifier.rest.length ≤ 1 := by
  simp only [step] at taken
  split at taken
  case h_2 => cases taken
  case h_1 message rest walking =>
    obtain rfl := Option.some.inj taken
    have inOrder := delivers.inOrder
    have counted := delivers.counted
    have restEq : notifier.rest = message :: rest := by rw [Notifier.rest, walking]
    have uncounted : notifier.uncounted = 0 := by rw [Notifier.uncounted, walking]
    rw [restEq, List.cons_append, List.append_cons] at inOrder
    rw [uncounted] at counted
    constructor
    · intro after
      have same := after.inOrder
      simp only [Notifier.rest, List.nil_append] at same
      have lengths := congrArg List.length (same.trans inOrder.symm)
      simp only [List.length_append, List.length_cons, List.length_nil] at lengths
      rw [restEq, List.length_cons]
      omega
    · intro atEnd
      have empty : rest = [] := by
        rw [restEq, List.length_cons] at atEnd
        exact List.eq_nil_of_length_eq_zero (by omega)
      rw [empty, List.nil_append] at inOrder
      exact .of_inOrder inOrder counted

/-- One step loses nothing, unless it raises an exception too early. -/
theorem delivers_step_iff (delivers : notifier.Delivers) {event : Event}
    (taken : notifier.step event = some next) :
    next.Delivers ↔ notifier.RaisesAtEnd event := by
  have inOrder := delivers.inOrder
  have counted := delivers.counted
  cases event with
  | pushNotification message =>
      obtain rfl := Option.some.inj taken
      refine iff_of_true (.of_inOrder ?_ counted) trivial
      rw [← inOrder, List.append_assoc, List.append_assoc]
      rfl
  | sendPending =>
      simp only [step] at taken
      split at taken <;> cases taken
      case h_1 idle =>
        rw [rest, idle] at inOrder
        rw [uncounted, idle] at counted
        refine iff_of_true (.of_inOrder ?_ counted) trivial
        rw [← inOrder, List.nil_append]
        exact congrArg _ (List.append_nil _)
  | sendMessage returns =>
      cases returns with
      | false => exact delivers_of_raise_iff delivers taken
      | true =>
          simp only [step] at taken
          split at taken <;> cases taken
          case h_1 message rest walking =>
            rw [Notifier.rest, walking] at inOrder
            rw [uncounted, walking] at counted
            refine iff_of_true (.of_inOrder ?_ (congrArg (· + 1) counted)) trivial
            rw [← inOrder]
            exact List.append_assoc _ _ _
  | countNotify =>
      simp only [step] at taken
      split at taken <;> cases taken
      case h_1 rest counting =>
        rw [Notifier.rest, counting] at inOrder
        rw [uncounted, counting] at counted
        exact iff_of_true (.of_inOrder inOrder counted) trivial
  | finish =>
      simp only [step] at taken
      split at taken <;> cases taken
      case h_1 walking =>
        rw [Notifier.rest, walking] at inOrder
        rw [uncounted, walking] at counted
        exact iff_of_true (.of_inOrder inOrder counted) trivial
  | collect now =>
      simp only [step] at taken
      split at taken <;> cases taken
      case h_1 report stats collected =>
        have kept := notifies_of_collect collected
        refine iff_of_true (.of_inOrder inOrder ?_) trivial
        rw [← counted, ← kept]
        rfl
      case h_2 => exact iff_of_true delivers trivial

/-- In every interleaving nothing is lost, exactly as long as exceptions are
raised for the last messages of their queues only. -/
theorem always_delivers_iff (events : List Event) :
    Run.Always step Delivers initial events ↔
      Run.EveryStep step (fun notifier event _ => notifier.RaisesAtEnd event) initial events := by
  rw [Run.Always, and_iff_right delivers_initial]
  exact Run.everyStep_iff Delivers (fun notifier event _ => notifier.RaisesAtEnd event)
    (fun _ _ next => next.Delivers) delivers_initial
    (fun _ _ _ delivers taken => delivers_step_iff delivers taken)
    (fun _ _ _ delivers taken met => (delivers_step_iff delivers taken).mpr met)

/-- Two messages are queued, and the first one cannot be sent. -/
def failingRun : List Event :=
  [.pushNotification ⟨['1'], ['a']⟩, .pushNotification ⟨['2'], ['a']⟩, .sendPending,
    .sendMessage false]

/-- The second message is lost: the queue is empty, and it was not handed over. -/
theorem not_always_delivers_failingRun : ¬Run.Always step Delivers initial failingRun := by
  intro always
  obtain ⟨last, run, idle, empty, handed⟩ : ∃ last, Run.exec step initial failingRun = some last ∧
      last.sending = .idle ∧ last.notifyQueue = [] ∧ last.handed ≠ last.appended :=
    ⟨_, rfl, rfl, rfl, by decide⟩
  exact handed ((always.of_exec run).emptied idle empty)

end Notifier

end Spns.Notifiers.Huawei
