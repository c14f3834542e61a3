import Mathlib.Logic.Function.Conjugate
import Spns.Lib.Run

/-!
# Tasks that run at the same time

A task is a list of calls on a shared state.  A schedule picks, for each step,
the task that makes its next call.  When the calls of different tasks commute,
it does not matter which schedule runs the tasks to their end: the state is the
one in which they leave it one after the other.
-/

namespace Spns.Lib.Tasks

open Spns.Lib

universe u v

variable {σ : Type u} {κ : Type v}

/-- The calls that each task still has to make, and the shared state. -/
structure Batch (σ : Type u) (κ : Type v) where
  tasks : List (List κ)
  state : σ

/-- Calls that are made one after the other. -/
def runCalls (run : κ → σ → σ) (state : σ) (calls : List κ) : σ :=
  calls.foldl (fun state call => run call state) state

/-- One task makes its next call. -/
def step (run : κ → σ → σ) (batch : Batch σ κ) (task : Nat) : Option (Batch σ κ) :=
  match batch.tasks[task]? with
  | some (call :: rest) => some ⟨batch.tasks.set task rest, run call batch.state⟩
  | _ => none

/-- All calls have been made. -/
def Batch.Finished (batch : Batch σ κ) : Prop :=
  batch.tasks.flatten = []

instance [DecidableEq κ] (batch : Batch σ κ) : Decidable batch.Finished :=
  inferInstanceAs (Decidable (_ = _))

/-- Calls of different tasks commute. -/
def Independent (run : κ → σ → σ) (tasks : List (List κ)) : Prop :=
  tasks.Pairwise fun task other =>
    ∀ call ∈ task, ∀ second ∈ other, Function.Commute (run call) (run second)

@[simp]
theorem runCalls_nil (run : κ → σ → σ) (state : σ) : runCalls run state [] = state :=
  rfl

@[simp]
theorem runCalls_cons (run : κ → σ → σ) (state : σ) (call : κ) (calls : List κ) :
    runCalls run state (call :: calls) = runCalls run (run call state) calls :=
  rfl

@[simp]
theorem runCalls_append (run : κ → σ → σ) (state : σ) (first second : List κ) :
    runCalls run state (first ++ second) = runCalls run (runCalls run state first) second :=
  List.foldl_append

variable {run : κ → σ → σ}

/-- What is made before the calls can be made after them as well. -/
theorem runCalls_comm {calls : List κ} {change : σ → σ}
    (commutes : ∀ call ∈ calls, Function.Commute (run call) change) (state : σ) :
    runCalls run (change state) calls = change (runCalls run state calls) := by
  induction calls generalizing state with
  | nil => rfl
  | cons call calls ih =>
      rw [List.forall_mem_cons] at commutes
      rw [runCalls_cons, runCalls_cons, commutes.1 state, ih commutes.2]

/-- A step takes the first call of one task. -/
theorem step_cases {batch next : Batch σ κ} {task : Nat} (taken : step run batch task = some next) :
    ∃ before call rest after, batch.tasks = before ++ (call :: rest) :: after ∧
      next = ⟨before ++ rest :: after, run call batch.state⟩ := by
  rw [step] at taken
  split at taken
  · rename_i call rest found
    obtain ⟨bound, found⟩ := List.getElem?_eq_some_iff.mp found
    obtain ⟨before, after, tasks, -, changed⟩ :
        ∃ before after, batch.tasks = before ++ batch.tasks[task] :: after ∧
          before.length = task ∧ batch.tasks.set task rest = before ++ rest :: after :=
      List.exists_of_set bound
    rw [found] at tasks
    rw [changed] at taken
    exact ⟨before, call, rest, after, tasks, (Option.some.inj taken).symm⟩
  · contradiction

/-- A task with a call left can make it. -/
theorem exists_step {batch : Batch σ κ} (unfinished : ¬batch.Finished) :
    ∃ task next, step run batch task = some next := by
  have waiting : ∃ task ∈ batch.tasks, task ≠ [] := by
    by_contra idle
    push Not at idle
    exact unfinished (List.flatten_eq_nil_iff.mpr idle)
  obtain ⟨calls, member, nonempty⟩ := waiting
  obtain ⟨index, bound, found⟩ := List.getElem_of_mem member
  cases calls with
  | nil => contradiction
  | cons call rest =>
      refine ⟨index, ⟨batch.tasks.set index rest, run call batch.state⟩, ?_⟩
      rw [step, List.getElem?_eq_getElem bound, found]

theorem Independent.of_step {batch next : Batch σ κ} {task : Nat}
    (independent : Independent run batch.tasks) (taken : step run batch task = some next) :
    Independent run next.tasks := by
  obtain ⟨before, call, rest, after, tasks, rfl⟩ := step_cases taken
  rw [Independent, tasks, List.pairwise_append, List.pairwise_cons] at independent
  obtain ⟨earlier, ⟨here, later⟩, across⟩ := independent
  refine List.pairwise_append.mpr ⟨earlier, List.pairwise_cons.mpr ⟨?_, later⟩, ?_⟩
  · intro other member second inside
    exact here other member second (List.mem_cons_of_mem call inside)
  · intro first member other inside
    rw [List.mem_cons] at inside
    rcases inside with rfl | inside
    · intro second ahead third left
      exact across first member _ List.mem_cons_self second ahead third
        (List.mem_cons_of_mem call left)
    · exact across first member other (List.mem_cons_of_mem _ inside)

/-- The task's call could have waited until the tasks before it had ended. -/
theorem runCalls_of_step {batch next : Batch σ κ} {task : Nat}
    (independent : Independent run batch.tasks) (taken : step run batch task = some next) :
    runCalls run next.state next.tasks.flatten = runCalls run batch.state batch.tasks.flatten := by
  obtain ⟨before, call, rest, after, tasks, rfl⟩ := step_cases taken
  rw [Independent, tasks, List.pairwise_append] at independent
  have commutes : ∀ first ∈ before.flatten, Function.Commute (run first) (run call) := by
    intro first member
    obtain ⟨earlier, known, inside⟩ := List.mem_flatten.mp member
    exact independent.2.2 earlier known _ List.mem_cons_self first inside call List.mem_cons_self
  simp only [tasks, List.flatten_append, List.flatten_cons, List.cons_append, runCalls_append,
    runCalls_cons, runCalls_comm commutes]

/-- Every schedule leaves the state of the tasks one after the other. -/
theorem state_of_exec {batch final : Batch σ κ} {schedule : List Nat}
    (independent : Independent run batch.tasks)
    (executed : Run.exec (step run) batch schedule = some final) (finished : final.Finished) :
    final.state = runCalls run batch.state batch.tasks.flatten := by
  have reached : Run.Reachable (step run) batch final := ⟨schedule, executed⟩
  have invariant : Independent run final.tasks ∧
      runCalls run final.state final.tasks.flatten =
        runCalls run batch.state batch.tasks.flatten := by
    apply reached.invariant
    · exact ⟨independent, rfl⟩
    · rintro current task next ⟨still, same⟩ taken
      exact ⟨still.of_step taken, (runCalls_of_step still taken).trans same⟩
  rw [← invariant.2, finished, runCalls_nil]

/-- Every step makes one call. -/
theorem length_of_step {batch next : Batch σ κ} {task : Nat}
    (taken : step run batch task = some next) :
    batch.tasks.flatten.length = next.tasks.flatten.length + 1 := by
  obtain ⟨before, call, rest, after, tasks, rfl⟩ := step_cases taken
  simp only [tasks, List.flatten_append, List.flatten_cons, List.cons_append, List.length_append,
    List.length_cons]
  omega

/-- Schedules can be continued to the end. -/
theorem exists_finishing (run : κ → σ → σ) (batch : Batch σ κ) :
    ∃ schedule final, Run.exec (step run) batch schedule = some final ∧ final.Finished := by
  induction left : batch.tasks.flatten.length generalizing batch with
  | zero => exact ⟨[], batch, rfl, List.length_eq_zero_iff.mp left⟩
  | succ count ih =>
      have unfinished : ¬batch.Finished := by
        intro finished
        rw [finished, List.length_nil] at left
        omega
      obtain ⟨task, next, taken⟩ : ∃ task next, step run batch task = some next :=
        exists_step unfinished
      have fewer := length_of_step taken
      obtain ⟨schedule, final, executed, finished⟩ := ih next (by omega)
      refine ⟨task :: schedule, final, ?_, finished⟩
      rw [Run.exec, taken]
      exact executed

end Spns.Lib.Tasks
