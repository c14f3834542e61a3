import Mathlib.Algebra.BigOperators.Group.Finset.Basic
import Mathlib.Algebra.Order.BigOperators.Group.Finset
import Mathlib.Data.Fintype.Basic
import Spns.Lib.Run

/-!
# Requests around start-up

Requests that arrive before the server is ready are put into `deferred_` and
executed by `set_ready`.  Every request runs on a thread of its own; together
with the start-up thread they interleave in any order.  A critical section of
`deferred_mutex_` is one step and so is every read of `ready`; the loop of
`set_ready` runs without the lock, and each of its accesses to `deferred_` is a
step.

Requests are named by the elements of a type, so that two requests with the
same body stay apart.
-/

namespace Spns.Requests

open Spns.Lib

/-- Position of a call of `ExcWrapper::operator()`.  The second call that
`defer_request` makes is in tail position and reuses the frame. -/
inductive Frame
  /-- At `ready_or_defer`. -/
  | checking
  /-- In the handler of `startup_request_defer`, at the lock. -/
  | deferring
  /-- Past `ready_or_defer`, in the body of the request. -/
  | executing
  deriving DecidableEq

/-- What one step of a call leads to. -/
inductive Outcome
  | goes (next : Frame)
  | deferred
  | executed

/-- One step of a call, which depends on nothing but `ready`. -/
def Frame.step (ready : Bool) : Frame → Outcome
  | .checking => .goes (if ready then .executing else .deferring)
  | .deferring => if ready then .goes .checking else .deferred
  | .executing => .executed

/-- Position of the start-up thread in `set_ready`. -/
inductive Starter (ι : Type)
  | setting
  | testing
  /-- In the call of the front element of `deferred_`. -/
  | calling (request : ι) (frame : Frame)
  | popping
  | returned
  deriving DecidableEq

/-- The shared state and the position of every thread.  The thread of a
request is `none` once its call has returned; `executed` lists the bodies that
have been executed, oldest first. -/
structure Startup (ι : Type) where
  ready : Bool
  deferred : List ι
  thread : ι → Option Frame
  starter : Starter ι
  executed : List ι

/-- Who takes the next step. -/
inductive Actor (ι : Type)
  | request (request : ι)
  | starter

namespace Startup

variable {ι : Type} [DecidableEq ι]

/-- All requests are about to be handled and `set_ready` is about to be
called. -/
def initial : Startup ι where
  ready := false
  deferred := []
  thread := fun _ => some .checking
  starter := .setting
  executed := []

/-- Move the thread of a request. -/
def moveThread (state : Startup ι) (request : ι) (position : Option Frame) : Startup ι :=
  { state with thread := Function.update state.thread request position }

/-- A step of a request thread. -/
def requestStep (state : Startup ι) (request : ι) : Option (Startup ι) :=
  (state.thread request).map fun frame =>
    match frame.step state.ready with
    | .goes next => state.moveThread request (some next)
    | .deferred =>
        { state with
          thread := Function.update state.thread request none
          deferred := state.deferred ++ [request] }
    | .executed =>
        { state with
          thread := Function.update state.thread request none
          executed := state.executed ++ [request] }

/-- A step of `set_ready`. -/
def starterStep (state : Startup ι) : Option (Startup ι) :=
  match state.starter with
  | .setting => some { state with ready := true, starter := .testing }
  | .testing =>
      match state.deferred with
      | [] => some { state with starter := .returned }
      | request :: _ => some { state with starter := .calling request .checking }
  | .calling request frame =>
      match frame.step state.ready with
      | .goes next => some { state with starter := .calling request next }
      | .deferred =>
          some { state with deferred := state.deferred ++ [request], starter := .popping }
      | .executed =>
          some { state with executed := state.executed ++ [request], starter := .popping }
  | .popping => some { state with deferred := state.deferred.tail, starter := .testing }
  | .returned => none

/-- One step of one thread. -/
def step (state : Startup ι) : Actor ι → Option (Startup ι)
  | .request request => state.requestStep request
  | .starter => state.starterStep

/-! ## What a step can do -/

/-- The ways in which a step changes the state. -/
inductive Steps (state : Startup ι) : Startup ι → Prop
  | check (request : ι) (here : state.thread request = some .checking) :
      Steps state (state.moveThread request (some (if state.ready then .executing else .deferring)))
  | recheck (request : ι) (here : state.thread request = some .deferring)
      (ready : state.ready = true) : Steps state (state.moveThread request (some .checking))
  | defer (request : ι) (here : state.thread request = some .deferring)
      (starting : state.ready = false) :
      Steps state
        { state with
          thread := Function.update state.thread request none
          deferred := state.deferred ++ [request] }
  | execute (request : ι) (here : state.thread request = some .executing) :
      Steps state
        { state with
          thread := Function.update state.thread request none
          executed := state.executed ++ [request] }
  | setReady (here : state.starter = .setting) :
      Steps state { state with ready := true, starter := .testing }
  | finish (here : state.starter = .testing) (empty : state.deferred = []) :
      Steps state { state with starter := .returned }
  | call (request : ι) (rest : List ι) (here : state.starter = .testing)
      (front : state.deferred = request :: rest) :
      Steps state { state with starter := .calling request .checking }
  | callGoes (request : ι) (frame next : Frame) (here : state.starter = .calling request frame)
      (goes : frame.step state.ready = .goes next) :
      Steps state { state with starter := .calling request next }
  | callDeferred (request : ι) (here : state.starter = .calling request .deferring)
      (starting : state.ready = false) :
      Steps state { state with deferred := state.deferred ++ [request], starter := .popping }
  | callExecuted (request : ι) (here : state.starter = .calling request .executing) :
      Steps state { state with executed := state.executed ++ [request], starter := .popping }
  | pop (here : state.starter = .popping) :
      Steps state { state with deferred := state.deferred.tail, starter := .testing }

theorem steps_of_requestStep {state after : Startup ι} {request : ι}
    (taken : state.requestStep request = some after) : Steps state after := by
  obtain ⟨frame, here, rfl⟩ := Option.map_eq_some_iff.mp taken
  cases frame with
  | checking => exact .check request here
  | executing => exact .execute request here
  | deferring =>
      by_cases ready : state.ready = true
      · have goes : Frame.deferring.step state.ready = .goes .checking := if_pos ready
        rw [goes]
        exact .recheck request here ready
      · have defers : Frame.deferring.step state.ready = .deferred := if_neg ready
        rw [defers]
        exact .defer request here (Bool.eq_false_iff.mpr ready)

theorem steps_of_starterStep {state after : Startup ι}
    (taken : state.starterStep = some after) : Steps state after := by
  rw [starterStep] at taken
  split at taken
  · rename_i here
    cases taken
    exact .setReady here
  · rename_i here
    split at taken
    · rename_i empty
      cases taken
      exact .finish here empty
    · rename_i request rest front
      cases taken
      exact .call request rest here front
  · rename_i request frame here
    split at taken
    · rename_i next goes
      cases taken
      exact .callGoes request frame next here goes
    · rename_i defers
      cases taken
      cases frame with
      | checking => contradiction
      | executing => contradiction
      | deferring =>
          rw [Frame.step] at defers
          split_ifs at defers with ready
          exact .callDeferred request here (Bool.eq_false_iff.mpr ready)
    · rename_i executes
      cases taken
      cases frame with
      | checking => contradiction
      | executing => exact .callExecuted request here
      | deferring =>
          rw [Frame.step] at executes
          split_ifs at executes
  · rename_i here
    cases taken
    exact .pop here
  · contradiction

theorem steps_of_step {state after : Startup ι} {actor : Actor ι}
    (taken : state.step actor = some after) : Steps state after := by
  cases actor with
  | request request => exact steps_of_requestStep taken
  | starter => exact steps_of_starterStep taken

/-- Once `ready` is set, `deferred_` only loses elements from its front. -/
theorem Steps.deferred_suffix {state after : Startup ι} (taken : Steps state after)
    (ready : state.ready = true) : after.deferred <:+ state.deferred := by
  cases taken with
  | defer request here starting =>
      rw [ready] at starting
      contradiction
  | callDeferred request here starting =>
      rw [ready] at starting
      contradiction
  | pop here => exact List.tail_suffix state.deferred
  | _ => exact List.suffix_refl state.deferred

/-! ## Every request is in one place -/

/-- The deferred requests that have not been executed yet: the front element
stays in the list until its call has returned. -/
def awaiting (state : Startup ι) : List ι :=
  match state.starter with
  | .popping => state.deferred.tail
  | _ => state.deferred

/-- Whether the thread of a request is still running, as a number. -/
def running (state : Startup ι) (request : ι) : Nat :=
  if (state.thread request).isSome then 1 else 0

/-- The invariant: every request is on its thread, deferred or executed. -/
structure Inv (state : Startup ι) : Prop where
  once : ∀ request, state.running request + state.awaiting.count request +
    state.executed.count request = 1
  ready : state.ready = true ↔ state.starter ≠ .setting
  front : ∀ request frame, state.starter = .calling request frame →
    ∃ rest, state.deferred = request :: rest
  popping : state.starter = .popping → state.deferred ≠ []
  returned : state.starter = .returned → state.deferred = []

theorem inv_initial : Inv (initial : Startup ι) where
  once := fun _ => rfl
  ready := by simp [initial]
  front := by simp [initial]
  popping := by simp [initial]
  returned := by simp [initial]

theorem Inv.setting {state : Startup ι} (inv : Inv state) (starting : state.ready = false) :
    state.starter = .setting := by
  by_contra other
  rw [inv.ready.mpr other] at starting
  contradiction

theorem running_moveThread_self (state : Startup ι) (request : ι) (position : Option Frame) :
    (state.moveThread request position).running request =
      if position.isSome then 1 else 0 := by
  simp [running, moveThread]

theorem running_moveThread_of_ne (state : Startup ι) {request other : ι}
    (position : Option Frame) (different : other ≠ request) :
    (state.moveThread request position).running other = state.running other := by
  simp [running, moveThread, different]

omit [DecidableEq ι] in
theorem running_of_some {state : Startup ι} {request : ι} {frame : Frame}
    (here : state.thread request = some frame) : state.running request = 1 := by
  rw [running, here]
  rfl

/-- A thread that stays in its call changes nothing that the invariant is
about. -/
theorem Inv.moveThread {state : Startup ι} (inv : Inv state) {request : ι} {frame : Frame}
    (here : state.thread request = some frame) (next : Frame) :
    Inv (state.moveThread request (some next)) where
  once := by
    intro other
    have before := inv.once other
    by_cases same : other = request
    · subst same
      rw [running_moveThread_self]
      rw [running_of_some here] at before
      exact before
    · rw [running_moveThread_of_ne state _ same]
      exact before
  ready := inv.ready
  front := inv.front
  popping := inv.popping
  returned := inv.returned

/-- A thread returns after its request has been deferred or executed. -/
theorem once_of_return {state after : Startup ι} (inv : Inv state) {request : ι} {frame : Frame}
    (here : state.thread request = some frame)
    (thread : after.thread = Function.update state.thread request none)
    (moved : ∀ other, after.awaiting.count other + after.executed.count other =
      state.awaiting.count other + state.executed.count other + [request].count other) :
    ∀ other, after.running other + after.awaiting.count other + after.executed.count other = 1 := by
  intro other
  have before := inv.once other
  have counted := moved other
  by_cases same : other = request
  · subst same
    have stopped : after.running other = 0 := by
      rw [running, thread, Function.update_self]
      rfl
    rw [running_of_some here] at before
    rw [List.count_singleton_self] at counted
    omega
  · have kept : after.running other = state.running other := by
      rw [running, thread, Function.update_of_ne same, running]
    rw [List.count_singleton, if_neg (by simpa using Ne.symm same)] at counted
    omega

theorem Inv.step {state after : Startup ι} (inv : Inv state) (taken : Steps state after) :
    Inv after := by
  cases taken with
  | check request here => exact inv.moveThread here _
  | recheck request here ready => exact inv.moveThread here _
  | defer request here starting =>
      have setting := inv.setting starting
      constructor
      · apply once_of_return inv here rfl
        intro other
        simp only [awaiting, setting, List.count_append]
        omega
      · exact inv.ready
      · intro other frame calling
        exact nomatch setting.symm.trans calling
      · intro popping
        exact nomatch setting.symm.trans popping
      · intro returned
        exact nomatch setting.symm.trans returned
  | execute request here =>
      constructor
      · apply once_of_return inv here rfl
        intro other
        simp only [awaiting, List.count_append]
        omega
      · exact inv.ready
      · exact inv.front
      · exact inv.popping
      · exact inv.returned
  | setReady here =>
      have once := inv.once
      simp only [awaiting, here, running] at once
      exact ⟨once, by simp, by simp, by simp, by simp⟩
  | finish here empty =>
      have once := inv.once
      simp only [awaiting, here, running] at once
      refine ⟨once, ?_, by simp, by simp, fun _ => empty⟩
      simp [inv.ready, here]
  | call request rest here front =>
      have once := inv.once
      simp only [awaiting, here, running] at once
      refine ⟨once, ?_, ?_, by simp, by simp⟩
      · simp [inv.ready, here]
      · intro other frame calling
        cases calling
        exact ⟨rest, front⟩
  | callGoes request frame next here goes =>
      have once := inv.once
      simp only [awaiting, here, running] at once
      refine ⟨once, ?_, ?_, by simp, by simp⟩
      · simp [inv.ready, here]
      · intro other _ calling
        cases calling
        exact inv.front request frame here
  | callDeferred request here starting =>
      rw [inv.setting starting] at here
      contradiction
  | callExecuted request here =>
      obtain ⟨rest, front⟩ := inv.front request _ here
      refine ⟨?_, ?_, by simp, ?_, by simp⟩
      · intro other
        have before := inv.once other
        simp only [awaiting, here, front, running, List.count_cons, List.tail_cons,
          List.count_append, List.count_nil] at before ⊢
        omega
      · simp [inv.ready, here]
      · intro _
        simp [front]
  | pop here =>
      have once := inv.once
      simp only [awaiting, here, running] at once
      refine ⟨once, ?_, by simp, by simp, by simp⟩
      simp [inv.ready, here]

/-! ## Every run ends -/

/-- How far a call is from its end.  Before `ready` is set it may still be
deferred, which costs the start-up thread one more call. -/
def frameWeight (ready : Bool) : Option Frame → Nat
  | none => 0
  | some .executing => 1
  | some .checking => if ready then 2 else 11
  | some .deferring => if ready then 3 else 10

/-- How far the start-up thread is from its next test or from its end. -/
def starterWeight : Starter ι → Nat
  | .setting => 8
  | .testing => 7
  | .calling _ frame => 3 + frameWeight true (some frame)
  | .popping => 3
  | .returned => 0

/-- The weight of the request threads. -/
def threadsWeight [Fintype ι] (state : Startup ι) : Nat :=
  ∑ request, frameWeight state.ready (state.thread request)

/-- A bound on the number of steps that are left. -/
def weight [Fintype ι] (state : Startup ι) : Nat :=
  state.threadsWeight + 8 * state.deferred.length + starterWeight state.starter

section Termination

variable [Fintype ι]

theorem threadsWeight_moveThread (state : Startup ι) (request : ι) (position : Option Frame) :
    (state.moveThread request position).threadsWeight +
        frameWeight state.ready (state.thread request) =
      state.threadsWeight + frameWeight state.ready position := by
  simp only [threadsWeight, moveThread]
  rw [← Finset.add_sum_erase _ _ (Finset.mem_univ request),
    ← Finset.add_sum_erase Finset.univ (fun other => frameWeight state.ready (state.thread other))
      (Finset.mem_univ request), Function.update_self]
  have others : ∑ other ∈ Finset.univ.erase request,
      frameWeight state.ready (Function.update state.thread request position other) =
        ∑ other ∈ Finset.univ.erase request, frameWeight state.ready (state.thread other) := by
    apply Finset.sum_congr rfl
    intro other member
    rw [Function.update_of_ne (Finset.ne_of_mem_erase member)]
  rw [others]
  omega

omit [DecidableEq ι] in
theorem frameWeight_ready (ready : Bool) (position : Option Frame) :
    frameWeight true position ≤ frameWeight ready position := by
  cases ready with
  | true => exact Nat.le_refl _
  | false =>
      cases position with
      | none => exact Nat.le_refl _
      | some frame => cases frame <;> decide

theorem weight_moveThread (state : Startup ι) {request : ι} {frame : Frame}
    (here : state.thread request = some frame) (position : Option Frame) :
    (state.moveThread request position).weight + frameWeight state.ready (some frame) =
      state.weight + frameWeight state.ready position := by
  have moved := threadsWeight_moveThread state request position
  rw [here] at moved
  have others : (state.moveThread request position).weight =
      (state.moveThread request position).threadsWeight + 8 * state.deferred.length +
        starterWeight state.starter := rfl
  rw [others, weight]
  omega

omit [DecidableEq ι] in
/-- A step of the start-up thread that leaves the request threads alone. -/
theorem weight_lt_of_starter {state after : Startup ι} (ready : after.ready = state.ready)
    (thread : after.thread = state.thread)
    (less : 8 * after.deferred.length + starterWeight after.starter <
      8 * state.deferred.length + starterWeight state.starter) : after.weight < state.weight := by
  have same : after.threadsWeight = state.threadsWeight := by
    rw [threadsWeight, ready, thread, threadsWeight]
  rw [weight, weight, same]
  omega

/-- Every step brings the run closer to its end. -/
theorem Inv.weight_lt {state after : Startup ι} (inv : Inv state) (taken : Steps state after) :
    after.weight < state.weight := by
  cases taken with
  | check request here =>
      have moved := weight_moveThread state here
        (some (if state.ready then .executing else .deferring))
      cases ready : state.ready with
      | true =>
          simp only [ready, if_true, frameWeight] at moved ⊢
          omega
      | false =>
          simp only [ready, Bool.false_eq_true, if_false, frameWeight] at moved ⊢
          omega
  | recheck request here ready =>
      have moved := weight_moveThread state here (some .checking)
      simp only [ready, frameWeight, if_true] at moved
      omega
  | defer request here starting =>
      have moved := weight_moveThread state here none
      simp only [starting, frameWeight] at moved
      simp only [weight, threadsWeight, Startup.moveThread, List.length_append,
        List.length_singleton, Bool.false_eq_true, if_false] at moved ⊢
      rw [starting] at moved ⊢
      omega
  | execute request here =>
      have moved := weight_moveThread state here none
      simp only [frameWeight] at moved
      simp only [weight, threadsWeight, Startup.moveThread] at moved ⊢
      omega
  | setReady here =>
      have less : ∑ request, frameWeight true (state.thread request) ≤ state.threadsWeight :=
        Finset.sum_le_sum fun request _ => frameWeight_ready state.ready (state.thread request)
      simp only [weight, threadsWeight, here, starterWeight] at less ⊢
      omega
  | finish here empty =>
      refine weight_lt_of_starter rfl rfl ?_
      simp [here, starterWeight]
  | call request rest here front =>
      refine weight_lt_of_starter rfl rfl ?_
      simp [here, starterWeight, frameWeight]
  | callGoes request frame next here goes =>
      have ready : state.ready = true := inv.ready.mpr (by simp [here])
      refine weight_lt_of_starter rfl rfl ?_
      rw [ready] at goes
      cases frame with
      | checking =>
          cases goes
          simp [here, starterWeight, frameWeight]
      | deferring =>
          cases goes
          simp [here, starterWeight, frameWeight]
      | executing => contradiction
  | callDeferred request here starting =>
      rw [inv.setting starting] at here
      contradiction
  | callExecuted request here =>
      refine weight_lt_of_starter rfl rfl ?_
      simp [here, starterWeight, frameWeight]
  | pop here =>
      refine weight_lt_of_starter rfl rfl ?_
      have some := List.length_pos_of_ne_nil (inv.popping here)
      simp only [here, starterWeight, List.length_tail]
      omega

end Termination

/-! ## Exactly once -/

/-- No thread can take a step: all calls and `set_ready` have returned. -/
def Finished (state : Startup ι) : Prop :=
  ∀ actor, state.step actor = none

theorem Finished.thread {state : Startup ι} (finished : Finished state) (request : ι) :
    state.thread request = none :=
  Option.map_eq_none_iff.mp (finished (.request request))

theorem Finished.starter {state : Startup ι} (finished : Finished state) :
    state.starter = .returned := by
  have stuck : state.starterStep = none := finished .starter
  rw [starterStep] at stuck
  split at stuck
  · contradiction
  · split at stuck <;> contradiction
  · split at stuck <;> contradiction
  · contradiction
  · assumption

theorem Inv.executed_of_finished {state : Startup ι} (inv : Inv state)
    (finished : Finished state) (request : ι) : state.executed.count request = 1 := by
  have once := inv.once request
  rw [running, finished.thread, awaiting, finished.starter] at once
  simpa [inv.returned finished.starter] using once

theorem inv_of_reachable {state : Startup ι} (reachable : Run.Reachable step initial state) :
    Inv state :=
  reachable.invariant inv_initial fun _ _ _ inv taken => inv.step (steps_of_step taken)

/-- However the threads interleave: nothing is deferred once `ready` is set, no
request is ever executed twice, `deferred_` is empty when `set_ready` returns,
no run goes on forever, and when no thread can go on every request has been
executed exactly once. -/
theorem executed_exactly_once (ι : Type) [DecidableEq ι] [Fintype ι] :
    (∀ actors, Run.EveryStep step (fun before _ after => before.ready = true →
        after.deferred <:+ before.deferred) (initial : Startup ι) actors) ∧
      (∀ state : Startup ι, Run.Reachable step initial state →
        (∀ request, state.executed.count request ≤ 1) ∧
        (state.starter = .returned → state.deferred = []) ∧
        (Finished state → ∀ request, state.executed.count request = 1)) ∧
      ∃ bound, ∀ actors (state : Startup ι), Run.exec step initial actors = some state →
        actors.length ≤ bound := by
  refine ⟨?_, ?_, ?_⟩
  · intro actors
    apply Run.EveryStep.of_guard (fun _ => True) (fun _ _ _ => True) trivial
    · intro before actor after _ taken _
      exact ⟨trivial, (steps_of_step taken).deferred_suffix⟩
    · exact Run.everyStep_of_forall (fun _ _ _ _ => trivial) initial
  · intro state reachable
    have inv := inv_of_reachable reachable
    refine ⟨?_, inv.returned, inv.executed_of_finished⟩
    intro request
    have once := inv.once request
    omega
  · refine ⟨(initial : Startup ι).weight, ?_⟩
    intro actors state run
    have used := Run.length_add_weight_le Inv weight inv_initial
      (fun _ _ _ inv taken => inv.step (steps_of_step taken))
      (fun _ _ _ inv taken => inv.weight_lt (steps_of_step taken)) run
    omega

/-- A request that reads `ready` too early and gets the lock too late executes
itself; one that gets the lock in time is executed by `set_ready`. -/
example : (Run.exec step (initial : Startup Bool)
    [.request true, .request false, .request true, .starter, .request false, .starter, .starter,
      .request false, .starter, .starter, .request false, .starter]).map
        (fun state => (state.executed, state.deferred, state.starter)) =
      some ([true, false], [], .returned) := by
  decide

end Startup

end Spns.Requests
