import Mathlib.Logic.Basic
import Mathlib.Order.Monotone.Basic
import Mathlib.Tactic.Common

/-!
# Runs of a partial transition function

A labelled transition system is given by an option-valued step function.  A
run is the left-to-right execution of a list of labels; it stops at the first
label that is not enabled.  The two predicates of this file say what is true
along a whole run, and the rules below are the only inductions over runs that
clients need.
-/

namespace Spns.Lib.Run

universe u v

variable {σ : Type u} {ε : Type v}

/-- Execute a list of labels, failing at the first one that is not enabled. -/
def exec (step : σ → ε → Option σ) : σ → List ε → Option σ
  | state, [] => some state
  | state, event :: events => (step state event).bind fun next => exec step next events

theorem exec_cons_eq_some_iff (step : σ → ε → Option σ) (state target : σ) (event : ε)
    (events : List ε) :
    exec step state (event :: events) = some target ↔
      ∃ next, step state event = some next ∧ exec step next events = some target := by
  simp only [exec]
  exact Option.bind_eq_some_iff

theorem exec_append (step : σ → ε → Option σ) (state : σ) (first second : List ε) :
    exec step state (first ++ second) =
      (exec step state first).bind fun middle => exec step middle second := by
  induction first generalizing state with
  | nil => rfl
  | cons event first ih =>
      rw [List.cons_append, exec, exec, Option.bind_assoc]
      exact Option.bind_congr fun next _ => ih next

/-- `target` is reached from `source` by some run. -/
def Reachable (step : σ → ε → Option σ) (source target : σ) : Prop :=
  ∃ events, exec step source events = some target

/-- Every step that the run takes satisfies `property`, which may speak about
the state before the step, its label and the state after it. -/
def EveryStep (step : σ → ε → Option σ) (property : σ → ε → σ → Prop) : σ → List ε → Prop
  | _, [] => True
  | state, event :: events =>
      ∀ next, step state event = some next →
        property state event next ∧ EveryStep step property next events

/-- Every label of the run satisfies `property` in the state that it comes in,
also the one that ends the run because it is not possible. -/
def EveryLabel (step : σ → ε → Option σ) (property : σ → ε → Prop) : σ → List ε → Prop
  | _, [] => True
  | state, event :: events =>
      property state event ∧
        ∀ next, step state event = some next → EveryLabel step property next events

/-- `property` holds in every state of the run, the first one included. -/
def Always (step : σ → ε → Option σ) (property : σ → Prop) (state : σ) (events : List ε) : Prop :=
  property state ∧ EveryStep step (fun _ _ next => property next) state events

variable {step : σ → ε → Option σ}

/-- Invariant rule for reachable states: what holds at the start and survives
every step holds in every state that a run reaches. -/
theorem Reachable.invariant {invariant : σ → Prop} {source target : σ}
    (reachable : Reachable step source target) (initial : invariant source)
    (preserved : ∀ state event next, invariant state → step state event = some next →
      invariant next) : invariant target := by
  obtain ⟨events, run⟩ := reachable
  induction events generalizing source with
  | nil =>
      have equal : source = target := Option.some.inj run
      exact equal ▸ initial
  | cons event events ih =>
      obtain ⟨next, taken, rest⟩ := (exec_cons_eq_some_iff step source target event events).mp run
      exact ih (preserved source event next initial taken) rest

/-- Guarded invariant rule: an invariant that survives every step which meets
`guard` yields `property` along every run whose steps all meet `guard`. -/
theorem EveryStep.of_guard (invariant : σ → Prop) (guard : σ → ε → σ → Prop)
    {property : σ → ε → σ → Prop} {state : σ} {events : List ε} (initial : invariant state)
    (preserved : ∀ state event next, invariant state → step state event = some next →
      guard state event next → invariant next ∧ property state event next)
    (guarded : EveryStep step guard state events) : EveryStep step property state events := by
  induction events generalizing state with
  | nil => trivial
  | cons event events ih =>
      intro next taken
      obtain ⟨met, rest⟩ := guarded next taken
      obtain ⟨after, holds⟩ := preserved state event next initial taken met
      exact ⟨holds, ih after rest⟩

/-- Simulation rule: if each step is, for a view of the state, the steps of the
events that it translates to, then so is each run. -/
theorem exec_flatMap_of_simulates {τ : Type*} {δ : Type*} {other : τ → δ → Option τ}
    (view : σ → τ) (translate : ε → List δ) (invariant : σ → Prop) {state target : σ}
    {events : List ε} (initial : invariant state)
    (preserved : ∀ state event next, invariant state → step state event = some next →
      invariant next ∧ exec other (view state) (translate event) = some (view next))
    (run : exec step state events = some target) :
    exec other (view state) (events.flatMap translate) = some (view target) := by
  induction events generalizing state with
  | nil =>
      cases run
      rfl
  | cons event events ih =>
      obtain ⟨next, taken, rest⟩ := (exec_cons_eq_some_iff step state target event events).mp run
      obtain ⟨after, simulated⟩ := preserved state event next initial taken
      rw [List.flatMap_cons, exec_append, simulated]
      exact ih after rest

/-- A state that only keeps a log of its events. -/
theorem exec_log {α : Type*} (log items : List α) :
    exec (fun log item => some (log ++ [item])) log items = some (log ++ items) := by
  induction items generalizing log with
  | nil => exact congrArg some (List.append_nil log).symm
  | cons item items ih =>
      rw [exec, Option.bind_some, ih, List.append_assoc, List.singleton_append]

/-- What holds along a run holds in the state that the run reaches. -/
theorem Always.of_exec {property : σ → Prop} {state target : σ} {events : List ε}
    (always : Always step property state events) (run : exec step state events = some target) :
    property target := by
  obtain ⟨now, later⟩ := always
  induction events generalizing state with
  | nil =>
      have equal : state = target := Option.some.inj run
      exact equal ▸ now
  | cons event events ih =>
      obtain ⟨next, taken, rest⟩ := (exec_cons_eq_some_iff step state target event events).mp run
      obtain ⟨after, following⟩ := later next taken
      exact ih rest after following

/-- What every step of a run satisfies, its last step satisfies. -/
theorem EveryStep.last {property : σ → ε → σ → Prop} {state middle next : σ} {events : List ε}
    {event : ε} (holds : EveryStep step property state (events ++ [event]))
    (run : exec step state events = some middle) (taken : step middle event = some next) :
    property middle event next := by
  induction events generalizing state with
  | nil =>
      obtain rfl : state = middle := Option.some.inj run
      exact (holds next taken).1
  | cons first events ih =>
      obtain ⟨following, stepped, rest⟩ :=
        (exec_cons_eq_some_iff step state middle first events).mp run
      exact ih (holds following stepped).2 rest

/-- Guarded invariant rule for the state that a run reaches. -/
theorem invariant_of_guard (invariant : σ → Prop) (guard : σ → ε → σ → Prop) {state target : σ}
    {events : List ε} (initial : invariant state)
    (preserved : ∀ state event next, invariant state → step state event = some next →
      guard state event next → invariant next)
    (guarded : EveryStep step guard state events) (run : exec step state events = some target) :
    invariant target := by
  have later : EveryStep step (fun _ _ next => invariant next) state events := by
    apply EveryStep.of_guard invariant guard initial _ guarded
    intro state event next kept taken met
    exact ⟨preserved state event next kept taken met, preserved state event next kept taken met⟩
  exact Always.of_exec ⟨initial, later⟩ run

/-- Exactness rule, for runs that meet an assumption: if, from every state that
satisfies `invariant`, a step has `property` exactly when it meets `guard`, and
steps that meet `guard` keep `invariant`, then the two predicates hold along
exactly the same runs. -/
theorem everyStep_iff_of_assumed (invariant : σ → Prop) (guard property : σ → ε → σ → Prop)
    {assumed : σ → ε → σ → Prop} {state : σ} {events : List ε} (initial : invariant state)
    (exact_step : ∀ state event next, invariant state → step state event = some next →
      assumed state event next → (property state event next ↔ guard state event next))
    (preserved : ∀ state event next, invariant state → step state event = some next →
      assumed state event next → guard state event next → invariant next)
    (assumption : EveryStep step assumed state events) :
    EveryStep step property state events ↔ EveryStep step guard state events := by
  induction events generalizing state with
  | nil => exact Iff.rfl
  | cons event events ih =>
      constructor
      · intro holds next taken
        obtain ⟨given, later⟩ := assumption next taken
        obtain ⟨first, rest⟩ := holds next taken
        have met := (exact_step state event next initial taken given).mp first
        exact ⟨met, (ih (preserved state event next initial taken given met) later).mp rest⟩
      · intro guarded next taken
        obtain ⟨given, later⟩ := assumption next taken
        obtain ⟨met, rest⟩ := guarded next taken
        exact ⟨(exact_step state event next initial taken given).mpr met,
          (ih (preserved state event next initial taken given met) later).mpr rest⟩

theorem EveryStep.and {first second : σ → ε → σ → Prop} {state : σ} {events : List ε}
    (left : EveryStep step first state events) (right : EveryStep step second state events) :
    EveryStep step (fun state event next => first state event next ∧ second state event next)
      state events := by
  induction events generalizing state with
  | nil => trivial
  | cons event events ih =>
      intro next taken
      obtain ⟨one, laterOne⟩ := left next taken
      obtain ⟨two, laterTwo⟩ := right next taken
      exact ⟨⟨one, two⟩, ih laterOne laterTwo⟩

/-- What holds of every label of the run holds along the run. -/
theorem everyStep_of_forall {property : σ → ε → σ → Prop} {events : List ε}
    (holds : ∀ event ∈ events, ∀ state next, property state event next) (state : σ) :
    EveryStep step property state events := by
  induction events generalizing state with
  | nil => trivial
  | cons event events ih =>
      intro next _
      exact ⟨holds event List.mem_cons_self state next,
        ih (fun later member => holds later (List.mem_cons_of_mem event member)) next⟩

/-- Exactness rule without an assumption on the run. -/
theorem everyStep_iff (invariant : σ → Prop) (guard property : σ → ε → σ → Prop)
    {state : σ} {events : List ε} (initial : invariant state)
    (exact_step : ∀ state event next, invariant state → step state event = some next →
      (property state event next ↔ guard state event next))
    (preserved : ∀ state event next, invariant state → step state event = some next →
      guard state event next → invariant next) :
    EveryStep step property state events ↔ EveryStep step guard state events :=
  everyStep_iff_of_assumed invariant guard property initial
    (fun state event next kept taken _ => exact_step state event next kept taken)
    (fun state event next kept taken _ => preserved state event next kept taken)
    (everyStep_of_forall (fun _ _ _ _ => trivial) state)

/-! ## Termination -/

/-- Bounding rule: a weight that every step from a state with `invariant`
lowers is used up by the steps of a run, if they all meet `guard`. -/
theorem length_add_weight_le_of_guard (invariant : σ → Prop) (guard : σ → ε → σ → Prop)
    (weight : σ → Nat) {state target : σ} {events : List ε} (initial : invariant state)
    (preserved : ∀ state event next, invariant state → step state event = some next →
      guard state event next → invariant next)
    (lowered : ∀ state event next, invariant state → step state event = some next →
      guard state event next → weight next < weight state)
    (guarded : EveryStep step guard state events) (run : exec step state events = some target) :
    events.length + weight target ≤ weight state := by
  induction events generalizing state with
  | nil =>
      rw [Option.some.inj run]
      simp
  | cons event events ih =>
      obtain ⟨next, taken, rest⟩ := (exec_cons_eq_some_iff step state target event events).mp run
      obtain ⟨met, following⟩ := guarded next taken
      have less := lowered state event next initial taken met
      have later := ih (preserved state event next initial taken met) following rest
      rw [List.length_cons]
      omega

/-- Bounding rule without a guard. -/
theorem length_add_weight_le (invariant : σ → Prop) (weight : σ → Nat) {state target : σ}
    {events : List ε} (initial : invariant state)
    (preserved : ∀ state event next, invariant state → step state event = some next →
      invariant next)
    (lowered : ∀ state event next, invariant state → step state event = some next →
      weight next < weight state)
    (run : exec step state events = some target) :
    events.length + weight target ≤ weight state :=
  length_add_weight_le_of_guard invariant (fun _ _ _ => True) weight initial
    (fun state event next kept taken _ => preserved state event next kept taken)
    (fun state event next kept taken _ => lowered state event next kept taken)
    (everyStep_of_forall (fun _ _ _ _ => trivial) state) run

section Descent

variable (weight : Nat → Nat) (fires : Nat → Prop)

/-- In an infinite run whose weight shrinks wherever `fires` holds, there is an
early index at which it does not hold. -/
theorem exists_not_fires
    (shrinks : ∀ index, fires index → weight (index + 1) < weight index) :
    ∃ index, index ≤ weight 0 ∧ ¬fires index := by
  by_contra! always
  have spent : ∀ count, count ≤ weight 0 + 1 → weight count + count ≤ weight 0 := by
    intro count
    induction count with
    | zero => exact fun _ => Nat.le_refl _
    | succ count ih =>
        intro small
        have before := ih (Nat.le_of_succ_le small)
        have less := shrinks count (always count (Nat.le_of_succ_le_succ small))
        omega
  have all := spent (weight 0 + 1) (Nat.le_refl _)
  omega

/-- If the weight never grows, it does not hold at any index from some point
on. -/
theorem eventually_not_fires (never : ∀ index, weight (index + 1) ≤ weight index)
    (shrinks : ∀ index, fires index → weight (index + 1) < weight index) :
    ∃ bound, ∀ index, bound ≤ index → ¬fires index := by
  have falls : Antitone weight := antitone_nat_of_succ_le never
  -- the induction is on the weight that is left
  have from_weight : ∀ left start, weight start ≤ left →
      ∃ bound, ∀ index, bound ≤ index → ¬fires index := by
    intro left
    induction left with
    | zero =>
        intro start none
        refine ⟨start, fun index later fired => ?_⟩
        have less := shrinks index fired
        have bound := falls later
        omega
    | succ left ih =>
        intro start some
        by_cases fired : ∃ index, start ≤ index ∧ fires index
        · obtain ⟨index, later, here⟩ := fired
          have less := shrinks index here
          have bound := falls later
          exact ih (index + 1) (by omega)
        · push Not at fired
          exact ⟨start, fired⟩
  exact from_weight (weight 0) 0 (Nat.le_refl _)

end Descent

/-! ## Concrete runs -/

/-- Evaluate a test on the state before each step of a run, and its label. -/
def testSteps (step : σ → ε → Option σ) (test : σ → ε → Bool) : σ → List ε → Bool
  | _, [] => true
  | state, event :: events =>
      test state event &&
        match step state event with
        | some next => testSteps step test next events
        | none => true

theorem EveryStep.of_testSteps (test : σ → ε → Bool) {property : σ → ε → Prop}
    (sound : ∀ state event, test state event = true → property state event) {state : σ}
    {events : List ε} (tested : testSteps step test state events = true) :
    EveryStep step (fun state event _ => property state event) state events := by
  induction events generalizing state with
  | nil => trivial
  | cons event events ih =>
      intro next taken
      rw [testSteps, taken, Bool.and_eq_true] at tested
      exact ⟨sound state event tested.1, ih tested.2⟩

end Spns.Lib.Run
