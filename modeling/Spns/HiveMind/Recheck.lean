import Spns.HiveMind.Invariants
import Spns.Lib.Tasks

/-!
# The recheck on several threads

The jobs that `on_sns_response` puts into its batch run at the same time, while
the loop thread waits for them.  They take no lock: every node is in one set of
`swarms_`, so no two jobs call the same node, and the rest of the state is only
read.  Whatever the threads do, the nodes end up as if the jobs had run one
after the other.
-/

namespace Spns.HiveMind

open Spns.Hive
open Spns.Lib
open Spns.Lib.Unordered

/-! ## The batch -/

/-- A call that a job makes on a node. -/
inductive NodeCall
  | removeStaleSwarmMembers (ref : NodeRef)
  | addAccount (ref : NodeRef) (account : SwarmPubkey)
  deriving DecidableEq

namespace NodeCall

/-- The node that is called. -/
def ref : NodeCall → NodeRef
  | .removeStaleSwarmMembers ref => ref
  | .addAccount ref _ => ref

/-- What the call does; it reads `swarm_ids_`. -/
def run : NodeCall → HiveMind → HiveMind
  | .removeStaleSwarmMembers ref, hive =>
      hive.modifyNode ref (SNode.removeStaleSwarmMembers hive.swarmIds)
  | .addAccount ref account, hive => hive.modifyNode ref (SNode.addAccount account false)

end NodeCall

/-- The calls of the job of one swarm: two loops, the second one over all
accounts. -/
def jobCalls (accounts : List SwarmPubkey) (swarm : UInt64) (nodes : List NodeRef) :
    List NodeCall :=
  nodes.map .removeStaleSwarmMembers ++
    (accounts.filter fun account => account.swarm = swarm).flatMap fun account =>
      nodes.map fun ref => .addAccount ref account

/-- The keys of `subscribers_` in the order in which the jobs visit them. -/
def batchAccounts (moment : Moment) (hive : HiveMind) : List SwarmPubkey :=
  shuffle moment.accountOrder (hive.subscribers.entries.map fun entry => entry.2.key)

/-- The batch: one job for each set of `swarms_`. -/
def batch (moment : Moment) (hive : HiveMind) : Tasks.Batch HiveMind NodeCall where
  tasks := hive.swarms.entries.map fun entry =>
    jobCalls (hive.batchAccounts moment) entry.1 entry.2
  state := hive

/-- `on_sns_response` up to its batch: the state that the jobs start from, or
`none` if there is no batch. -/
def batchStart (env : Env) (moment : Moment) (data : SnsData) (hive : HiveMind) :
    Option HiveMind :=
  match data with
  | .reply reply =>
      match hive.refreshSwarmIds reply with
      | .error _ => none
      | .ok (hive, swarmsChanged) =>
          match parseStates reply.states ∅ with
          | .error _ => none
          | .ok sns =>
              match updateNodes env moment.steady (shuffle moment.updateOrder sns.entries)
                  (hive.dropNodes sns, []) with
              | (_, some _) => none
              | ((hive, changed), none) =>
                  if swarmsChanged ∨ changed ≠ [] then some hive.pruneSwarms.refreshSubscribers
                  else none
  | _ => none

/-- The batch that starts in `start` is safe to run on any number of threads
and always comes to the state `after`. -/
structure RunsConcurrently (env : Env) (moment : Moment) (start after : HiveMind) : Prop where
  /-- No two jobs call the same node. -/
  apart : (start.batch moment).tasks.Pairwise fun job other =>
    ∀ call ∈ job, ∀ second ∈ other, call.ref ≠ second.ref
  /-- The jobs change nothing but nodes of `swarms_`. -/
  shared : ∀ {schedule current},
    Run.exec (Tasks.step NodeCall.run) (start.batch moment) schedule = some current →
      current.state = { start with node := current.state.node } ∧
        ∀ ref, ref ∉ start.swarmNodes (start.node ref).swarm →
          current.state.node ref = start.node ref
  /-- No job waits for another one, and the batch comes to an end. -/
  ends : ∀ {schedule current},
    Run.exec (Tasks.step NodeCall.run) (start.batch moment) schedule = some current →
      ∃ rest final, Run.exec (Tasks.step NodeCall.run) current rest = some final ∧ final.Finished
  /-- The checks that follow it find the same nodes in any case. -/
  result : ∀ {schedule final},
    Run.exec (Tasks.step NodeCall.run) (start.batch moment) schedule = some final →
      final.Finished → final.state.checkSubs env moment = after

/-! ## The jobs one after the other -/

theorem runCalls_removeStale (nodes : List NodeRef) (hive : HiveMind) :
    Tasks.runCalls NodeCall.run hive (nodes.map .removeStaleSwarmMembers) =
      hive.modifyNodes nodes (SNode.removeStaleSwarmMembers hive.swarmIds) := by
  induction nodes generalizing hive with
  | nil => rfl
  | cons first rest ih => exact ih (hive.modifyNode first _)

theorem runCalls_addAccount (account : SwarmPubkey) (nodes : List NodeRef) (hive : HiveMind) :
    Tasks.runCalls NodeCall.run hive (nodes.map fun ref => .addAccount ref account) =
      hive.modifyNodes nodes (SNode.addAccount account false) := by
  induction nodes generalizing hive with
  | nil => rfl
  | cons first rest ih => exact ih (hive.modifyNode first _)

/-- The calls of a job are the job. -/
theorem runCalls_jobCalls (accounts : List SwarmPubkey) (swarm : UInt64) (nodes : List NodeRef)
    (hive : HiveMind) :
    Tasks.runCalls NodeCall.run hive (jobCalls accounts swarm nodes) =
      hive.swarmJob accounts hive.swarmIds swarm nodes := by
  rw [jobCalls, Tasks.runCalls_append, runCalls_removeStale, swarmJob]
  generalize hive.modifyNodes nodes (SNode.removeStaleSwarmMembers hive.swarmIds) = current
  induction accounts generalizing current with
  | nil => rfl
  | cons account rest ih =>
      by_cases belongs : account.swarm = swarm
      · rw [List.filter_cons_of_pos (by simpa using belongs), List.flatMap_cons,
          Tasks.runCalls_append, runCalls_addAccount, ih, List.foldl_cons, if_pos belongs]
      · rw [List.filter_cons_of_neg (by simpa using belongs), ih, List.foldl_cons,
          if_neg belongs]

theorem runCalls_jobs (accounts : List SwarmPubkey)
    (entries : List (Sigma fun _ : UInt64 => List NodeRef)) (hive : HiveMind) :
    Tasks.runCalls NodeCall.run hive
        (entries.map fun entry => jobCalls accounts entry.1 entry.2).flatten =
      entries.foldl (fun hive entry => hive.swarmJob accounts hive.swarmIds entry.1 entry.2)
        hive := by
  induction entries generalizing hive with
  | nil => rfl
  | cons entry rest ih =>
      rw [List.map_cons, List.flatten_cons, Tasks.runCalls_append, runCalls_jobCalls, ih,
        List.foldl_cons]

/-- A call that comes to its batch checks the nodes after it. -/
theorem onSnsResponse_of_batchStart {env : Env} {moment : Moment} {data : SnsData}
    {hive start : HiveMind} (started : hive.batchStart env moment data = some start) :
    hive.onSnsResponse env moment data =
      ((Tasks.runCalls NodeCall.run start (start.batch moment).tasks.flatten).checkSubs env moment,
        .completed) := by
  cases data with
  | reply reply =>
      simp only [batchStart] at started
      split at started
      · contradiction
      · rename_i committed swarmsChanged refreshed
        split at started
        · contradiction
        · rename_i sns parsed
          split at started
          · contradiction
          · rename_i updated changed looped
            split_ifs at started with due
            cases started
            simp only [onSnsResponse, refreshed, parsed, looped, if_pos due, recheck, batch,
              runCalls_jobs, batchAccounts]
  | _ => contradiction

/-! ## The jobs at the same time -/

theorem ref_of_mem_jobCalls {accounts : List SwarmPubkey} {swarm : UInt64}
    {nodes : List NodeRef} {call : NodeCall} (member : call ∈ jobCalls accounts swarm nodes) :
    call.ref ∈ nodes := by
  rw [jobCalls, List.mem_append, List.mem_map, List.mem_flatMap] at member
  rcases member with ⟨ref, inside, rfl⟩ | ⟨account, -, added⟩
  · exact inside
  · obtain ⟨ref, inside, rfl⟩ := List.mem_map.mp added
    exact inside

theorem modifyNode_comm {hive : HiveMind} {ref other : NodeRef} (apart : ref ≠ other)
    (f g : SNode → SNode) :
    (hive.modifyNode ref f).modifyNode other g = (hive.modifyNode other g).modifyNode ref f := by
  simp only [modifyNode, Function.update_of_ne apart, Function.update_of_ne apart.symm,
    Function.update_comm apart]

/-- Calls of different nodes commute: what they read besides is not written. -/
theorem NodeCall.commute {call other : NodeCall} (apart : call.ref ≠ other.ref) :
    Function.Commute call.run other.run := by
  intro hive
  cases call <;> cases other <;> exact (modifyNode_comm apart _ _).symm

theorem Indexed.batch_apart {hive : HiveMind} (indexed : Indexed hive) (moment : Moment) :
    (hive.batch moment).tasks.Pairwise fun job other =>
      ∀ call ∈ job, ∀ second ∈ other, call.ref ≠ second.ref := by
  have keys : (hive.swarms.entries.map Sigma.fst).Nodup := hive.swarms.nodupKeys
  refine List.pairwise_map.mpr ((List.pairwise_map.mp keys).imp_of_mem ?_)
  rintro ⟨swarm, nodes⟩ ⟨other, others⟩ first second different call member later inside same
  have home : ∀ {swarm nodes ref}, (⟨swarm, nodes⟩ : Sigma fun _ : UInt64 => List NodeRef) ∈
      hive.swarms.entries → ref ∈ nodes → (hive.node ref).swarm = swarm := by
    intro swarm nodes ref listed inside
    apply indexed.swarm_eq
    rw [swarmNodes, Map.getD, (Map.mem_entries_iff_lookup _ _ _).mp listed]
    exact inside
  have here := home first (ref_of_mem_jobCalls member)
  have there := home second (ref_of_mem_jobCalls inside)
  rw [same, there] at here
  exact different here.symm

theorem Indexed.independent {hive : HiveMind} (indexed : Indexed hive) (moment : Moment) :
    Tasks.Independent NodeCall.run (hive.batch moment).tasks :=
  (indexed.batch_apart moment).imp fun apart call member second inside =>
    NodeCall.commute (apart call member second inside)

/-- The jobs call nodes of `swarms_`. -/
theorem Indexed.ref_of_mem_batch {hive : HiveMind} (indexed : Indexed hive) {moment : Moment}
    {call : NodeCall} (member : call ∈ (hive.batch moment).tasks.flatten) :
    call.ref ∈ hive.swarmNodes (hive.node call.ref).swarm := by
  obtain ⟨job, known, inside⟩ := List.mem_flatten.mp member
  obtain ⟨entry, listed, rfl⟩ := List.mem_map.mp known
  exact (indexed.mem_entries_iff _).mp ⟨entry, listed, ref_of_mem_jobCalls inside⟩

theorem NodeCall.run_eq (call : NodeCall) (hive : HiveMind) :
    call.run hive = { hive with node := (call.run hive).node } ∧
      ∀ ref, ref ≠ call.ref → (call.run hive).node ref = hive.node ref := by
  cases call <;> exact ⟨rfl, fun _ other => Function.update_of_ne other _ _⟩

theorem Indexed.shared {start : HiveMind} (indexed : Indexed start) {moment : Moment}
    {schedule : List Nat} {current : Tasks.Batch HiveMind NodeCall}
    (executed :
      Run.exec (Tasks.step NodeCall.run) (start.batch moment) schedule = some current) :
    current.state = { start with node := current.state.node } ∧
      ∀ ref, ref ∉ start.swarmNodes (start.node ref).swarm →
        current.state.node ref = start.node ref := by
  have reached : Run.Reachable (Tasks.step NodeCall.run) (start.batch moment) current :=
    ⟨schedule, executed⟩
  have invariant : (∀ call ∈ current.tasks.flatten,
      call.ref ∈ start.swarmNodes (start.node call.ref).swarm) ∧
      current.state = { start with node := current.state.node } ∧
      ∀ ref, ref ∉ start.swarmNodes (start.node ref).swarm →
        current.state.node ref = start.node ref := by
    apply reached.invariant
    · exact ⟨fun _ => indexed.ref_of_mem_batch, rfl, fun _ _ => rfl⟩
    · rintro before task next ⟨members, same, others⟩ taken
      obtain ⟨first, call, rest, last, tasks, rfl⟩ := Tasks.step_cases taken
      have called := members call (by simp [tasks])
      obtain ⟨changed, kept⟩ := call.run_eq before.state
      refine ⟨?_, ?_, ?_⟩
      · intro later member
        apply members
        simp only [tasks, List.flatten_append, List.flatten_cons, List.mem_append,
          List.mem_cons] at member ⊢
        tauto
      · rw [changed, same]
      · intro ref outside
        have other : ref ≠ call.ref := by
          rintro rfl
          exact outside called
        exact (kept ref other).trans (others ref outside)
  exact invariant.2

/-! ## The batches of the server -/

/-- The indexes agree when the jobs start. -/
theorem Indexed.batchStart {env : Env} {moment : Moment} {data : SnsData} {hive start : HiveMind}
    (indexed : Indexed hive) (started : hive.batchStart env moment data = some start) :
    Indexed start := by
  cases data with
  | reply reply =>
      simp only [HiveMind.batchStart] at started
      split at started
      · contradiction
      · rename_i committed swarmsChanged refreshed
        split at started
        · contradiction
        · rename_i sns parsed
          split at started
          · contradiction
          · rename_i updated changed looped
            split_ifs at started with due
            cases started
            have committedIndexed := indexed.of_commits (refreshSwarmIds_ok refreshed).1
            obtain ⟨dropped, -⟩ := committedIndexed.dropNodes sns
            have listed : ∀ entry ∈ shuffle moment.updateOrder sns.entries,
                sns.lookup entry.1 = some entry.2 := fun entry member =>
              (Map.mem_entries_iff_lookup _ _ _).mp (mem_shuffle.mp member)
            have updating :=
              (Updating.refl dropped sns).updateNodes dropped env moment.steady listed
            rw [looped] at updating
            have pruned := updating.indexed.of_sameIndex (sameIndex_pruneSwarms updated)
            exact pruned.of_sameIndex ⟨rfl, fun _ => rfl, rfl, fun _ => rfl⟩
  | _ => contradiction

/-- On however many threads the batch of a call runs, no two jobs touch the same
node, nothing but the nodes changes, and the call ends in the same state as with
one job after the other. -/
theorem recheck_runs_concurrently {env : Env} {hive start : HiveMind} (reached : Reached env hive)
    {moment : Moment} {data : SnsData}
    (started : hive.batchStart env moment data = some start) :
    RunsConcurrently env moment start (hive.onSnsResponse env moment data).1 where
  apart := (reached.sound.indexed.batchStart started).batch_apart moment
  shared := (reached.sound.indexed.batchStart started).shared
  ends := fun _ => Tasks.exists_finishing NodeCall.run _
  result executed finished := by
    have independent := (reached.sound.indexed.batchStart started).independent moment
    rw [Tasks.state_of_exec independent executed finished, onSnsResponse_of_batchStart started]
    rfl

/-- A device subscribes before the server knows of any service node. -/
def unmonitoredRun : List Event :=
  [.addSubscription (Sample.request 1700000000)]

/-- Two nodes in different swarms. -/
def twoSwarmsReply : SnsData :=
  .reply ⟨some [97], some 1,
    [Sample.snState 7, { Sample.snState 9 with pubkeyEd25519 := some (List.replicate 64 49) }]⟩

theorem recheck_runs_concurrently_twoSwarms :
    ∃ hive start, Reached Sample.env hive ∧
      hive.batchStart Sample.env (Sample.moment 0) twoSwarmsReply = some start ∧
      (start.batch (Sample.moment 0)).tasks.map List.length = [2, 1] ∧
      RunsConcurrently Sample.env (Sample.moment 0) start
        (hive.onSnsResponse Sample.env (Sample.moment 0) twoSwarmsReply).1 := by
  have outcome : ((Run.exec (step Sample.env) initial unmonitoredRun).bind fun hive =>
      (hive.batchStart Sample.env (Sample.moment 0) twoSwarmsReply).map fun start =>
        (start.batch (Sample.moment 0)).tasks.map List.length) = some [2, 1] := by
    decide +kernel
  obtain ⟨hive, run, found⟩ := Option.bind_eq_some_iff.mp outcome
  obtain ⟨start, started, calls⟩ := Option.map_eq_some_iff.mp found
  have reached : Reached Sample.env hive := ⟨unmonitoredRun, run⟩
  exact ⟨hive, start, reached, started, calls, recheck_runs_concurrently reached started⟩

end Spns.HiveMind
