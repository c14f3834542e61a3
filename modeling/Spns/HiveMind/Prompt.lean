import Mathlib.Data.List.Induction
import Spns.HiveMind.Coverage

/-!
# New subscriptions are submitted at once

When a subscription is added that the server does not have yet, the storage
servers of the account should hear of it with the next check.  For this the
account goes to the front of the queue of every node of its swarm.

The server decides by the database row of the device whether the subscription
is new.  A device that had a row before, but changes its namespaces or asks for
the message data, is taken for a renewal, and its account keeps its place in
the queues.
-/

namespace Spns.HiveMind

open Spns.Hive
open Spns.Lib
open Spns.Lib.Unordered
open Spns.Storage

/-- The memory of the server holds a subscription of the account with the same
subaccount tag, namespaces and data flag. -/
def EquivalentInPlace (hive : HiveMind) (request : AddRequest) : Prop :=
  ∃ subscriber, hive.subscribers.lookup request.pubkey.id = some subscriber ∧
    ∃ existing ∈ subscriber.subscriptions,
      existing.subaccount.map Subaccount.tag = request.sub.subaccount.map Subaccount.tag ∧
      existing.namespaces = request.sub.namespaces ∧ existing.wantData = request.sub.wantData

/-- Every node of the account's swarm has a live entry of the account that is
due at any time. -/
def QueuedNow (hive : HiveMind) (id : AccountID) : Prop :=
  ∀ ref ∈ hive.swarmNodes (swarmOf hive.swarmIds id), ∃ key : SwarmPubkey, key.id = id ∧
    ⟨some key, systemEpoch⟩ ∈ (hive.node ref).next

/-- An addition of a subscription that was not in place queues its account. -/
def SubmitsPromptly (hive : HiveMind) (request : AddRequest) : Prop :=
  ¬EquivalentInPlace hive request → QueuedNow (hive.addSubscription request).1 request.pubkey.id

theorem addAccount_mem_next (account : SwarmPubkey) (node : SNode) :
    ⟨some account, systemEpoch⟩ ∈ (node.addAccount account true).next := by
  by_cases known : account.id ∈ node.subs
  · simp [SNode.addAccount, known]
  · simp [SNode.addAccount, known]

/-- Every node of the loop was updated, by its last turn at the latest. -/
theorem modifyNodes_node_mem (hive : HiveMind) {refs : List NodeRef} (f : SNode → SNode)
    {ref : NodeRef} (member : ref ∈ refs) :
    ∃ node, (hive.modifyNodes refs f).node ref = f node := by
  induction refs using List.reverseRecOn with
  | nil => contradiction
  | append_singleton earlier last ih =>
      rw [modifyNodes, List.foldl_append, List.foldl_cons, List.foldl_nil, modifyNode_node]
      split_ifs with latest
      · exact ⟨_, rfl⟩
      · exact ih ((List.mem_append.mp member).resolve_right fun single =>
          latest (List.mem_singleton.mp single))

theorem modifyNodes_swarms (hive : HiveMind) (refs : List NodeRef) (f : SNode → SNode) :
    (hive.modifyNodes refs f).swarms = hive.swarms ∧
      (hive.modifyNodes refs f).swarmIds = hive.swarmIds := by
  induction refs generalizing hive with
  | nil => exact ⟨rfl, rfl⟩
  | cons first rest ih => exact ih (hive.modifyNode first f)

/-- Forcing an account queues it on its whole swarm. -/
theorem queuedNow_forceAccount (hive : HiveMind) {account : SwarmPubkey}
    (located : account.swarm = swarmOf hive.swarmIds account.id) :
    QueuedNow (hive.forceAccount account) account.id := by
  intro ref member
  simp only [forceAccount, swarmNodes, modifyNodes_swarms] at member
  rw [← located, Map.getD, AList.lookup_insert, Option.getD_some, ← swarmNodes] at member
  obtain ⟨node, updated⟩ := modifyNodes_node_mem
    { hive with swarms := hive.swarms.insert account.swarm (hive.swarmNodes account.swarm) }
    (SNode.addAccount account true) member
  refine ⟨account, rfl, ?_⟩
  rw [forceAccount, updated]
  exact addAccount_mem_next account node

/-- In every state an addition is submitted promptly exactly if the device had
no row, or an equivalent subscription was in place, or the account was already
queued on all nodes of its swarm. -/
theorem submitsPromptly_iff (hive : HiveMind) (request : AddRequest) :
    SubmitsPromptly hive request ↔
      hive.db.tables.rowAt request.device = none ∨ EquivalentInPlace hive request ∨
        QueuedNow hive request.pubkey.id := by
  have same := addSubscription_eq request hive
  simp only at same
  by_cases fresh : hive.db.tables.rowAt request.device = none
  · rw [if_pos ((addSubscription_newSub hive.db request).mpr fresh)] at same
    have queued : QueuedNow (hive.addSubscription request).1 request.pubkey.id := by
      rw [same]
      exact queuedNow_forceAccount _ rfl
    exact iff_of_true (fun _ => queued) (Or.inl fresh)
  · rw [if_neg (mt (addSubscription_newSub hive.db request).mp fresh)] at same
    have unchanged : QueuedNow (hive.addSubscription request).1 request.pubkey.id ↔
        QueuedNow hive request.pubkey.id := by
      rw [same]
      exact Iff.rfl
    rw [SubmitsPromptly, unchanged, or_iff_right fresh, or_iff_not_imp_left]

/-! ## A device that changes its namespaces -/

/-- The sample device with other namespaces. -/
def otherNamespaces : AddRequest :=
  { Sample.request 1700000001 with
    sub := Subscription.single 1 1700000001 (FixedBytes.replicate 64 7) }

/-- A device subscribes, and a node of its swarm is found and connected. -/
def subscribedRun : List Event :=
  let now : SysTime := 1700000000 * second
  [.addSubscription (Sample.request 1700000000),
    .snsResponse (Sample.moment now) (.reply ⟨some [97], some 1, [Sample.snState 7]⟩),
    .connected (Sample.moment now) 0]

/-- Then the device asks for another namespace: its row is found, and the
account keeps its place in the queue. -/
theorem not_submitsPromptly_otherNamespaces :
    ∃ hive, Run.exec (step Sample.env) initial subscribedRun = some hive ∧
      ¬SubmitsPromptly hive otherNamespaces := by
  have outcome : (Run.exec (step Sample.env) initial subscribedRun).map
      (fun hive => ((hive.subscribers.lookup Sample.account).map fun subscriber =>
        subscriber.subscriptions.map Subscription.namespaces)) = some (some [[0]]) := by
    decide +kernel
  have queued : (Run.exec (step Sample.env) initial subscribedRun).map
      (fun hive => ((hive.addSubscription otherNamespaces).1.swarmNodes
          (swarmOf (hive.addSubscription otherNamespaces).1.swarmIds Sample.account),
        ((hive.addSubscription otherNamespaces).1.node 0).next.map QueueEntry.time)) =
      some ([0], [(1700000000 + resubscribeMin) * second]) := by
    decide +kernel
  obtain ⟨hive, run, held⟩ := Option.map_eq_some_iff.mp outcome
  rw [run, Option.map_some, Option.some.injEq, Prod.mk.injEq] at queued
  obtain ⟨nodes, times⟩ := queued
  refine ⟨hive, run, ?_⟩
  intro prompt
  have absent : ¬EquivalentInPlace hive otherNamespaces := by
    rintro ⟨subscriber, found, existing, member, -, same, -⟩
    have listed : [1] ∈ subscriber.subscriptions.map Subscription.namespaces :=
      List.mem_map.mpr ⟨existing, member, same⟩
    have only : subscriber.subscriptions.map Subscription.namespaces = [[0]] := by
      have lookup : hive.subscribers.lookup Sample.account = some subscriber := found
      rw [lookup] at held
      exact Option.some.inj held
    rw [only] at listed
    contradiction
  obtain ⟨key, -, entry⟩ := prompt absent 0 (by
    have swarm : 0 ∈ (hive.addSubscription otherNamespaces).1.swarmNodes
        (swarmOf (hive.addSubscription otherNamespaces).1.swarmIds Sample.account) := by
      rw [nodes]
      exact List.mem_cons_self
    exact swarm)
  have due : systemEpoch ∈ ((hive.addSubscription otherNamespaces).1.node 0).next.map
      QueueEntry.time :=
    List.mem_map_of_mem (f := QueueEntry.time) entry
  rw [times] at due
  contradiction

end Spns.HiveMind
