import Mathlib.Data.Set.Function
import Spns.Notify.Message

/-!
# The duplicate filter over whole runs

What the two-generation filter guarantees along every run of batches and
registrations.  A key that has been inserted stays in one of the generations
for at least the filter lifetime, so a push is sent at most once in that time.
This needs a time of the next rotation that the clock can hold: with a lifetime
of three centuries the sum wraps around, and every batch rotates the filter.
The other direction is weaker than the purpose of the filter asks for: a key
is inserted before the service of its subscription is looked up, so a key in
the filter does not mean that a push was sent.
-/

namespace Spns.Notify

open Spns
open Spns.Hive (IsInt64 int64_eq second)
open Spns.Lib
open Spns.Lib.Bencode
open Spns.Lib.Unordered
open Spns.Storage

variable {π κ : Type}

/-! ## A batch -/

/-- The subscriptions that a delivery goes to, with the notification read from
it. -/
def Delivery.targets (env : Env π κ) (delivery : Delivery) : List (Notification × Row) :=
  match parseNotification env.dict delivery.body with
  | .error _ => []
  | .ok notification =>
      (matchingRows delivery.tables notification.account notification.ns.val).map fun row =>
        (notification, row)

theorem sized_of_mem_targets {env : Env π κ} {delivery : Delivery} {target : Notification × Row}
    (member : target ∈ delivery.targets env) : Sized target.2 := by
  rw [Delivery.targets] at member
  split at member
  · contradiction
  · obtain ⟨row, matching, rfl⟩ := List.mem_map.mp member
    exact delivery.sized row (List.mem_filter.mp matching).1

variable [DecidableEq κ]

theorem processMessage_eq_targets (env : Env π κ) (state : State κ × Nat) (delivery : Delivery) :
    processMessage env state delivery =
      (delivery.targets env).foldl (fun state target => processRow env target.1 state target.2)
        state := by
  unfold processMessage Delivery.targets
  cases parseNotification env.dict delivery.body with
  | error _ => rfl
  | ok notification => rw [List.foldl_map]

/-- A fact that every subscription of a batch keeps holds after the batch. -/
theorem processBatch_invariant {env : Env π κ} {now : Int} {batch : List Delivery}
    {state : State κ} (invariant : State κ → Prop) (rotated : invariant (state.rotate env now))
    (kept : ∀ delivery ∈ batch, ∀ target ∈ delivery.targets env, ∀ state bufSize,
      invariant state → invariant (processRow env target.1 (state, bufSize) target.2).1) :
    invariant (processBatch env now batch state) := by
  have messages : ∀ deliveries : List Delivery, (∀ delivery ∈ deliveries, delivery ∈ batch) →
      ∀ before : State κ × Nat, invariant before.1 →
        invariant (deliveries.foldl (processMessage env) before).1 := by
    intro deliveries
    induction deliveries with
    | nil => exact fun _ _ holds => holds
    | cons delivery deliveries ih =>
        intro included before holds
        apply ih (fun other member => included other (List.mem_cons_of_mem delivery member))
        rw [processMessage_eq_targets]
        have rows := kept delivery (included delivery List.mem_cons_self)
        generalize delivery.targets env = targets at rows
        induction targets generalizing before with
        | nil => exact holds
        | cons target targets rest =>
            apply rest
            · exact rows target List.mem_cons_self before.1 before.2 holds
            · exact fun other member => rows other (List.mem_cons_of_mem target member)
  exact messages batch (fun _ member => member) _ rotated

/-! ## One subscription -/

/-- The key goes into the filter before anything else is decided. -/
def State.remember (state : State κ) (key : κ) : State κ :=
  { state with filter := key :: state.filter }

/-- What the loop does for one matching subscription. -/
theorem processRow_cases (env : Env π κ) (notification : Notification) (state : State κ)
    (bufSize : Nat) (row : Row) :
    (state.filtered (filterKey env (rowTriple notification row)) = true ∧
      (processRow env notification (state, bufSize) row).1 =
        state.decide (rowTriple notification row) .duplicate) ∨
    (state.filtered (filterKey env (rowTriple notification row)) = false ∧
      ∃ verdict, verdict ≠ .duplicate ∧
        (processRow env notification (state, bufSize) row).1 =
          (state.remember (filterKey env (rowTriple notification row))).decide
            (rowTriple notification row) verdict ∧
        ∀ conn message, state.services.lookup row.device.service = some conn →
          Producer.build (resizedBuffer bufSize notification row) (pushEntries notification row) =
            some message → verdict = .sent conn message) := by
  cases known : state.filtered (filterKey env (rowTriple notification row)) with
  | true => exact Or.inl ⟨rfl, by simp [processRow, known]⟩
  | false =>
      right
      cases found : state.services.lookup row.device.service with
      | none => exact ⟨rfl, .unregistered, by simp, by simp [processRow, known, found,
          State.remember], by simp⟩
      | some conn =>
          cases built : Producer.build (resizedBuffer bufSize notification row)
              (pushEntries notification row) with
          | none => exact ⟨rfl, .unbuildable, by simp, by simp [processRow, known, found, built,
              State.remember], by simp⟩
          | some message => exact ⟨rfl, .sent conn message, by simp, by simp [processRow, known,
              found, built, State.remember], by simp⟩

/-! ## At most one push in the filter lifetime -/

/-- No two pushes for one device and message are less than `lifetime` apart.
The trace is newest first. -/
def AtMostOnce (lifetime : Int) (trace : List Decision) : Prop :=
  trace.Pairwise fun later earlier =>
    later.isSent → earlier.isSent → later.triple = earlier.triple →
      earlier.time + lifetime ≤ later.time

/-- A push that is still inside its lifetime has its key in the filter: in the
young generation since before the next rotation, or in the old one since before
the last rotation. -/
def Recalled (env : Env π κ) (state : State κ) (decision : Decision) : Prop :=
  decision.time + env.lifetimeTicks ≤ state.clock ∨
  (filterKey env decision.triple ∈ state.filter ∧ decision.time < state.filterRotateTime) ∨
  (filterKey env decision.triple ∈ state.filterRotate ∧
    decision.time + env.lifetimeTicks < state.filterRotateTime)

/-- The invariant between batches. -/
structure FilterKeeps (env : Env π κ) (state : State κ) : Prop where
  once : AtMostOnce env.lifetimeTicks state.trace
  recalled : ∀ decision ∈ state.trace, decision.isSent → Recalled env state decision

/-- What holds inside a batch: the next rotation lies ahead. -/
structure FilterAhead (env : Env π κ) (state : State κ) : Prop extends FilterKeeps env state where
  ahead : state.clock < state.filterRotateTime ∨ env.lifetimeTicks ≤ 0

/-- If the batch rotates the filter, the clock can hold the time of the next
rotation. -/
def RotationFits (env : Env π κ) (state : State κ) : Event → Prop
  | .batch now _ => state.filterRotateTime ≤ now → IsInt64 (now + env.lifetimeTicks)
  | .regService _ _ => True

omit [DecidableEq κ] in
theorem FilterKeeps.rotate {env : Env π κ} {state : State κ} {now : Int}
    (kept : FilterKeeps env state) (later : state.clock ≤ now)
    (fits : state.filterRotateTime ≤ now → IsInt64 (now + env.lifetimeTicks)) :
    FilterAhead env (state.rotate env now) := by
  rw [State.rotate]
  split
  · rename_i due
    rw [Env.rotateAfter, int64_eq (fits due)]
    refine ⟨⟨kept.once, ?_⟩, ?_⟩
    · intro decision member sent
      rcases kept.recalled decision member sent with expired | ⟨young, before⟩ | ⟨_, before⟩
      · exact Or.inl (by change _ ≤ now; omega)
      · exact Or.inr (Or.inr ⟨young, by change _ < now + env.lifetimeTicks; omega⟩)
      · exact Or.inl (by change _ ≤ now; omega)
    · change now < now + env.lifetimeTicks ∨ _
      omega
  · rename_i notDue
    refine ⟨⟨kept.once, ?_⟩, ?_⟩
    · intro decision member sent
      rcases kept.recalled decision member sent with expired | young | old
      · exact Or.inl (by change _ ≤ now; omega)
      · exact Or.inr (Or.inl young)
      · exact Or.inr (Or.inr old)
    · exact Or.inl (by change now < state.filterRotateTime; omega)

omit [DecidableEq κ] in
/-- A verdict without a push does not touch the invariant. -/
theorem FilterAhead.decide_unsent {env : Env π κ} {state : State κ} {triple : Triple}
    {verdict : Verdict} (kept : FilterAhead env state)
    (unsent : (⟨state.clock, triple, verdict⟩ : Decision).isSent = false) :
    FilterAhead env (state.decide triple verdict) := by
  refine ⟨⟨?_, ?_⟩, kept.ahead⟩
  · apply List.pairwise_cons.mpr
    constructor
    · intro earlier _ sent
      rw [unsent] at sent
      contradiction
    · exact kept.once
  · intro decision member sent
    rcases List.mem_cons.mp member with rfl | older
    · rw [unsent] at sent
      contradiction
    · exact kept.recalled decision older sent

omit [DecidableEq κ] in
/-- Inserting a key keeps everything that the filter recalls. -/
theorem FilterAhead.remember {env : Env π κ} {state : State κ} (kept : FilterAhead env state)
    (key : κ) : FilterAhead env (state.remember key) := by
  refine ⟨⟨kept.once, ?_⟩, kept.ahead⟩
  intro decision member sent
  rcases kept.recalled decision member sent with expired | ⟨young, before⟩ | old
  · exact Or.inl expired
  · exact Or.inr (Or.inl ⟨List.mem_cons_of_mem key young, before⟩)
  · exact Or.inr (Or.inr old)

/-- A key that is not in the filter was last pushed at least a lifetime ago. -/
theorem FilterKeeps.expired_of_not_filtered {env : Env π κ} {state : State κ}
    (kept : FilterKeeps env state) {triple : Triple}
    (fresh : state.filtered (filterKey env triple) = false) :
    ∀ earlier ∈ state.trace, earlier.isSent → triple = earlier.triple →
      earlier.time + env.lifetimeTicks ≤ state.clock := by
  intro earlier member sent same
  simp only [State.filtered, decide_eq_false_iff_not, not_or] at fresh
  rcases kept.recalled earlier member sent with expired | ⟨young, _⟩ | ⟨old, _⟩
  · exact expired
  · exact absurd (same ▸ young) fresh.2
  · exact absurd (same ▸ old) fresh.1

theorem FilterAhead.processRow {env : Env π κ} {state : State κ} (kept : FilterAhead env state)
    (notification : Notification) (bufSize : Nat) (row : Row) :
    FilterAhead env (processRow env notification (state, bufSize) row).1 := by
  rcases processRow_cases env notification state bufSize row with
    ⟨_, after⟩ | ⟨fresh, verdict, _, after, _⟩
  · rw [after]
    exact kept.decide_unsent rfl
  · rw [after]
    have remembered := kept.remember (filterKey env (rowTriple notification row))
    refine ⟨⟨?_, ?_⟩, kept.ahead⟩
    · apply List.pairwise_cons.mpr
      constructor
      · intro earlier member _ sent same
        exact kept.expired_of_not_filtered fresh earlier member sent same
      · exact kept.once
    · intro decision member sent
      rcases List.mem_cons.mp member with rfl | older
      · -- the new push: its key was just inserted
        rcases kept.ahead with before | short
        · exact Or.inr (Or.inl ⟨List.mem_cons_self, before⟩)
        · exact Or.inl (by change state.clock + env.lifetimeTicks ≤ state.clock; omega)
      · exact remembered.recalled decision older sent

omit [DecidableEq κ] in
/-- A registration touches nothing but the services. -/
theorem exists_onRegService_eq (parts : List Bytes) (conn : ConnectionId) (state : State κ) :
    ∃ services, onRegService parts conn state = { state with services := services } := by
  unfold onRegService
  split
  · split_ifs
    · exact ⟨state.services, rfl⟩
    · exact ⟨state.services, rfl⟩
    · exact ⟨_, rfl⟩
  · exact ⟨state.services, rfl⟩

theorem FilterKeeps.step {env : Env π κ} {state next : State κ} {event : Event}
    (kept : FilterKeeps env state) (fits : RotationFits env state event)
    (taken : step env state event = some next) : FilterKeeps env next := by
  cases event with
  | batch now deliveries =>
      simp only [Notify.step] at taken
      split at taken
      · rename_i enabled
        cases taken
        apply FilterAhead.toFilterKeeps
        apply processBatch_invariant (FilterAhead env) (kept.rotate enabled.1 fits)
        intro _ _ target _ state bufSize ahead
        exact ahead.processRow target.1 bufSize target.2
      · contradiction
  | regService parts conn =>
      cases taken
      obtain ⟨services, after⟩ := exists_onRegService_eq parts conn state
      rw [after]
      exact ⟨kept.once, kept.recalled⟩

/-- At-most-once delivery: in every run of batches at non-decreasing times whose
rotations fit the clock, any two pushes for one service, device and message hash
are at least the filter lifetime apart.  With a positive lifetime there is no
second one in the batch either, since a batch has one time. -/
theorem pushed_at_most_once (env : Env π κ) (start : Int) (events : List Event) (state : State κ)
    (fits : Run.EveryStep (step env) (fun state event _ => RotationFits env state event)
      (initial env start) events)
    (run : Run.exec (step env) (initial env start) events = some state) :
    AtMostOnce env.lifetimeTicks state.trace := by
  have kept : FilterKeeps env state := by
    refine Run.invariant_of_guard (FilterKeeps env) _ ?_ ?_ fits run
    · exact ⟨List.Pairwise.nil, fun _ member => by cases member⟩
    · exact fun _ _ _ kept taken fits => kept.step fits taken
  exact kept.once

/-- A push, a repeat in the same batch, a repeat after one rotation, and a
second push once two rotations have passed. -/
def repeatingRun : List Event :=
  [.regService [Sample.service] 7, .batch (10 * second) [Sample.delivery, Sample.delivery],
    .batch (700 * second) [Sample.delivery], .batch (1400 * second) [Sample.delivery]]

theorem rotationFits_repeatingRun :
    ∀ event ∈ repeatingRun, ∀ state, RotationFits Sample.env state event := by
  intro event member state
  simp only [repeatingRun, List.mem_cons, List.not_mem_nil, or_false] at member
  rcases member with rfl | rfl | rfl | rfl
  · trivial
  · exact fun _ => by decide
  · exact fun _ => by decide
  · exact fun _ => by decide

theorem repeatingRun_pushed_at_most_once :
    ∃ state, Run.exec (step Sample.env) (initial Sample.env 0) repeatingRun = some state ∧
      state.trace.map (fun decision => (decision.time, decision.isSent)) =
        [(1400 * second, true), (700 * second, false), (10 * second, false), (10 * second, true)] ∧
      AtMostOnce (600 * second) state.trace := by
  have times : (Run.exec (step Sample.env) (initial Sample.env 0) repeatingRun).map
      (fun state => state.trace.map fun decision => (decision.time, decision.isSent)) =
      some [(1400 * second, true), (700 * second, false), (10 * second, false),
        (10 * second, true)] := by
    decide +kernel
  obtain ⟨state, run, seen⟩ := Option.map_eq_some_iff.mp times
  have fits := @Run.everyStep_of_forall _ _ (step Sample.env) _ _
    (fun event member state _ => rotationFits_repeatingRun event member state)
    (initial Sample.env 0)
  exact ⟨state, run, seen, pushed_at_most_once Sample.env 0 repeatingRun state fits run⟩

/-- The notifications of the sample configuration are all for one device and
message. -/
def sampleTriple : Triple :=
  ⟨Sample.service, List.replicate 32 97, List.replicate 32 98⟩

/-- A filter lifetime of 317 years. -/
def longEnv : Env Bytes Bytes :=
  { Sample.env with lifetime := 10 ^ 10 }

/-- The second copy is recognised, and a third one, four seconds after the
first, is pushed again. -/
theorem not_pushed_at_most_once :
    0 < longEnv.lifetime ∧ ∃ state,
      Run.exec (step longEnv) (initial longEnv 0) [.regService [Sample.service] 7,
        .batch 0 [Sample.delivery], .batch (2 * second) [Sample.delivery],
        .batch (4 * second) [Sample.delivery]] = some state ∧
      ¬AtMostOnce longEnv.lifetimeTicks state.trace := by
  refine ⟨by decide, ?_⟩
  have seen : (Run.exec (step longEnv) (initial longEnv 0) [.regService [Sample.service] 7,
      .batch 0 [Sample.delivery], .batch (2 * second) [Sample.delivery],
      .batch (4 * second) [Sample.delivery]]).map (fun state => state.trace.map fun decision =>
        (decision.time, decision.triple, decision.isSent)) =
      some [(4 * second, sampleTriple, true), (2 * second, sampleTriple, false),
        (0, sampleTriple, true)] := by
    decide +kernel
  obtain ⟨state, run, facts⟩ := Option.map_eq_some_iff.mp seen
  refine ⟨state, run, fun once => ?_⟩
  have apart : (state.trace.map fun decision =>
      (decision.time, decision.triple, decision.isSent)).Pairwise fun later earlier =>
        later.2.2 = true → earlier.2.2 = true → later.2.1 = earlier.2.1 →
          earlier.1 + longEnv.lifetimeTicks ≤ later.1 :=
    List.pairwise_map.mpr once
  rw [facts] at apart
  have early := (List.pairwise_cons.mp apart).1 _ (List.mem_cons_of_mem _ (List.mem_singleton_self _))
    rfl rfl rfl
  exact absurd early (by decide)

/-! ## Skipped notifications

The filter is there for notifications that were sent.  A notification that is
skipped as a duplicate was really sent before as long as no subscription is
matched while its service is unregistered. -/

/-- Every notification that was skipped as a duplicate was sent before. -/
def NoneLost (trace : List Decision) : Prop :=
  ∀ later skipped earlier, trace = later ++ skipped :: earlier → skipped.verdict = .duplicate →
    ∃ pushed ∈ earlier, pushed.isSent ∧ pushed.triple = skipped.triple

/-- Every subscription that a batch matches has its service registered. -/
def AllRegistered (env : Env π κ) (state : State κ) : Event → Prop
  | .batch _ deliveries =>
      ∀ delivery ∈ deliveries, ∀ target ∈ delivery.targets env,
        (state.services.lookup target.2.device.service).isSome
  | .regService _ _ => True

/-- The notifications that a trace is about. -/
def triples (trace : List Decision) : Set Triple :=
  { triple | ∃ decision ∈ trace, decision.triple = triple }

/-- A push for a key is in the trace. -/
def PushedFor (env : Env π κ) (trace : List Decision) (key : κ) : Prop :=
  ∃ pushed ∈ trace, pushed.isSent ∧ filterKey env pushed.triple = key

/-- The invariant behind `NoneLost`, up to the filter key. -/
structure OnlySent (env : Env π κ) (state : State κ) : Prop where
  named : ∀ service conn, state.services.lookup service = some conn → service.length ≤ 32
  pushed : ∀ key, state.filtered key = true → PushedFor env state.trace key
  skipped : ∀ later skipped earlier, state.trace = later ++ skipped :: earlier →
    skipped.verdict = .duplicate → PushedFor env earlier (filterKey env skipped.triple)

omit [DecidableEq κ] in
theorem PushedFor.cons {env : Env π κ} {trace : List Decision} {key : κ}
    (given : PushedFor env trace key) (decision : Decision) :
    PushedFor env (decision :: trace) key := by
  obtain ⟨pushed, member, sent, same⟩ := given
  exact ⟨pushed, List.mem_cons_of_mem decision member, sent, same⟩

omit [DecidableEq κ] in
/-- A decision is explained when, if it skips a notification, the trace before
it has the push. -/
theorem skipped_cons {env : Env π κ} {trace : List Decision} {decision : Decision}
    (before : ∀ later skipped earlier, trace = later ++ skipped :: earlier →
      skipped.verdict = .duplicate → PushedFor env earlier (filterKey env skipped.triple))
    (now : decision.verdict = .duplicate → PushedFor env trace (filterKey env decision.triple)) :
    ∀ later skipped earlier, decision :: trace = later ++ skipped :: earlier →
      skipped.verdict = .duplicate → PushedFor env earlier (filterKey env skipped.triple) := by
  intro later skipped earlier split duplicate
  cases later with
  | nil =>
      obtain ⟨rfl, rfl⟩ := List.cons.inj split
      exact now duplicate
  | cons first rest => exact before rest skipped earlier (List.cons.inj split).2 duplicate

theorem OnlySent.rotate {env : Env π κ} {state : State κ} (kept : OnlySent env state)
    (now : Int) : OnlySent env (state.rotate env now) := by
  unfold State.rotate
  split
  · refine ⟨kept.named, ?_, kept.skipped⟩
    intro key present
    apply kept.pushed key
    simp only [State.filtered, List.not_mem_nil, or_false] at present ⊢
    exact decide_eq_true (Or.inr (of_decide_eq_true present))
  · exact ⟨kept.named, kept.pushed, kept.skipped⟩

theorem OnlySent.processRow {env : Env π κ} {state : State κ} (kept : OnlySent env state)
    (notification : Notification) (bufSize : Nat) {row : Row} (sized : Sized row)
    (registered : (state.services.lookup row.device.service).isSome) :
    OnlySent env (processRow env notification (state, bufSize) row).1 ∧
      (Notify.processRow env notification (state, bufSize) row).1.services = state.services := by
  rcases processRow_cases env notification state bufSize row with
    ⟨known, after⟩ | ⟨_, verdict, fresh, after, sends⟩
  · rw [after]
    refine ⟨⟨kept.named, ?_, ?_⟩, rfl⟩
    · exact fun key present => (kept.pushed key present).cons _
    · exact skipped_cons kept.skipped fun _ => kept.pushed _ known
  · obtain ⟨conn, found⟩ := Option.isSome_iff_exists.mp registered
    obtain ⟨message, built⟩ := Option.isSome_iff_exists.mp
      (build_pushEntries_isSome bufSize notification sized (kept.named _ conn found))
    cases sends conn message found built
    rw [after]
    refine ⟨⟨kept.named, ?_, ?_⟩, rfl⟩
    · intro key present
      simp only [State.filtered, State.decide, State.remember, List.mem_cons,
        decide_eq_true_eq] at present
      rcases present with old | rfl | young
      · exact (kept.pushed key (decide_eq_true (Or.inl old))).cons _
      · exact ⟨_, List.mem_cons_self, rfl, rfl⟩
      · exact (kept.pushed key (decide_eq_true (Or.inr young))).cons _
    · exact skipped_cons kept.skipped fun duplicate => absurd duplicate fresh

omit [DecidableEq κ] in
/-- A registered name is at most 32 bytes long. -/
theorem named_onRegService {state : State κ} {parts : List Bytes} {conn : ConnectionId}
    (named : ∀ service conn, state.services.lookup service = some conn → service.length ≤ 32) :
    ∀ service other, (onRegService parts conn state).services.lookup service = some other →
      service.length ≤ 32 := by
  intro service other found
  unfold onRegService at found
  split at found
  · rename_i name
    split_ifs at found with empty long
    · exact named service other found
    · exact named service other found
    · rw [Map.lookup_insert_eq] at found
      split_ifs at found with equal
      · subst equal
        omega
      · exact named service other found
  · exact named service other found

theorem OnlySent.step {env : Env π κ} {state next : State κ} {event : Event}
    (kept : OnlySent env state) (taken : step env state event = some next)
    (registered : AllRegistered env state event) : OnlySent env next := by
  cases event with
  | batch now deliveries =>
      simp only [Notify.step] at taken
      split at taken
      · cases taken
        have unchanged : (state.rotate env now).services = state.services := by
          rw [State.rotate]
          split <;> rfl
        refine (processBatch_invariant
          (fun inside => OnlySent env inside ∧ inside.services = state.services)
          ⟨kept.rotate now, unchanged⟩ ?_).1
        rintro delivery arrived target matching inside bufSize ⟨only, same⟩
        have known := registered delivery arrived target matching
        rw [← same] at known
        have after := only.processRow target.1 bufSize (sized_of_mem_targets matching) known
        exact ⟨after.1, after.2.trans same⟩
      · contradiction
  | regService parts conn =>
      cases taken
      have named := @named_onRegService _ _ parts conn kept.named
      obtain ⟨services, after⟩ := exists_onRegService_eq parts conn state
      rw [after] at named ⊢
      exact ⟨named, kept.pushed, kept.skipped⟩

/-- In every run in which no batch matches a subscription whose service is not
registered, whatever is skipped as a duplicate has been sent before, provided
that the filter keys tell the notifications of the run apart. -/
theorem skipped_was_sent (env : Env π κ) (start : Int) (events : List Event) (state : State κ)
    (run : Run.exec (step env) (initial env start) events = some state)
    (distinct : Set.InjOn (filterKey env) (triples state.trace))
    (registered : Run.EveryStep (step env) (fun state event _ => AllRegistered env state event)
      (initial env start) events) : NoneLost state.trace := by
  have only : OnlySent env state := by
    apply Run.invariant_of_guard (OnlySent env) _ _ _ registered run
    · constructor
      · intro service conn found
        cases found
      · intro key present
        simp [State.filtered, initial] at present
      · intro later skipped earlier split
        simp [initial] at split
    · exact fun _ _ _ kept taken met => kept.step taken met
  intro later skipped earlier split duplicate
  obtain ⟨pushed, member, sent, same⟩ := only.skipped later skipped earlier split duplicate
  refine ⟨pushed, member, sent, distinct ⟨pushed, ?_, rfl⟩ ⟨skipped, ?_, rfl⟩ same⟩
  · rw [split]
    exact List.mem_append_right later (List.mem_cons_of_mem skipped member)
  · rw [split]
    exact List.mem_append_right later List.mem_cons_self

theorem triples_subsingleton {trace : List Decision}
    (same : ∀ triple ∈ trace.map Decision.triple, triple = sampleTriple) :
    (triples trace).Subsingleton := by
  rintro first ⟨one, firstMember, rfl⟩ second ⟨other, secondMember, rfl⟩
  rw [same one.triple (List.mem_map_of_mem firstMember),
    same other.triple (List.mem_map_of_mem secondMember)]

/-- The registration comes first, then a batch with a repeat. -/
def registeredRun : List Event :=
  [.regService [Sample.service] 7, .batch 10 [Sample.delivery, Sample.delivery]]

/-- The test of `AllRegistered` on a concrete run. -/
def allRegistered (env : Env π κ) (state : State κ) : Event → Bool
  | .batch _ deliveries => deliveries.all fun delivery => (delivery.targets env).all fun target =>
      (state.services.lookup target.2.device.service).isSome
  | .regService _ _ => true

omit [DecidableEq κ] in
theorem allRegistered_sound (env : Env π κ) (state : State κ) (event : Event)
    (tested : allRegistered env state event = true) : AllRegistered env state event := by
  cases event with
  | batch now deliveries => simpa [allRegistered, AllRegistered] using tested
  | regService parts conn => trivial

theorem registeredRun_none_lost :
    ∃ state, Run.exec (step Sample.env) (initial Sample.env 0) registeredRun = some state ∧
      state.trace.map Decision.isSent = [false, true] ∧ NoneLost state.trace := by
  have seen : (Run.exec (step Sample.env) (initial Sample.env 0) registeredRun).map
      (fun state => (state.trace.map Decision.isSent, state.trace.map Decision.triple)) =
      some ([false, true], [sampleTriple, sampleTriple]) := by decide +kernel
  obtain ⟨state, run, trace⟩ := Option.map_eq_some_iff.mp seen
  obtain ⟨sent, same⟩ := Prod.mk.inj trace
  refine ⟨state, run, sent, skipped_was_sent Sample.env 0 registeredRun state run ?_ ?_⟩
  · exact (triples_subsingleton (by simp [same])).injOn _
  · exact Run.EveryStep.of_testSteps (allRegistered Sample.env) (allRegistered_sound Sample.env)
      (by decide +kernel)

/-- The first copy arrives before the service has registered, the second one
after. -/
def lateServiceRun : List Event :=
  [.batch 0 [Sample.delivery], .regService [Sample.service] 7, .batch 1 [Sample.delivery]]

/-- The second copy is skipped as a duplicate and nothing was ever sent. -/
theorem lateServiceRun_loses :
    ∃ state, Run.exec (step Sample.env) (initial Sample.env 0) lateServiceRun = some state ∧
      Set.InjOn (filterKey Sample.env) (triples state.trace) ∧ ¬ NoneLost state.trace := by
  have seen : (Run.exec (step Sample.env) (initial Sample.env 0) lateServiceRun).map State.trace =
      some [⟨1, sampleTriple, .duplicate⟩, ⟨0, sampleTriple, .unregistered⟩] := by decide +kernel
  obtain ⟨state, run, trace⟩ := Option.map_eq_some_iff.mp seen
  refine ⟨state, run, ?_, ?_⟩
  · exact (triples_subsingleton (by simp [trace])).injOn _
  · intro none
    rw [trace] at none
    obtain ⟨pushed, member, sent, _⟩ := none [] _ _ rfl rfl
    cases List.mem_singleton.mp member
    exact Bool.false_ne_true sent

end Spns.Notify
