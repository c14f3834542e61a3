import Mathlib.Data.List.Perm.Lattice
import Spns.Hive.Queue
import Spns.HiveMind.System

/-!
# The queue of one node over its life

The calls that touch the accounts of a node, in any order.  A node keeps each
of its accounts in a set and in a queue with lazy deletion; `Paired` says that
the two agree: every account of the set has exactly one live queue entry, and
there are no other live entries.

The only call that could lose an entry is a check with a list of subscribers
from which the account is missing.  The server never removes an account from
`subscribers_`, so a check is only possible here with a list that has every
account that was ever added.
-/

namespace Spns.Hive.SNode

open Spns
open Spns.Lib
open Spns.Lib.Unordered

/-! ## The calls -/

/-- `check_subs` of one node; `slot` is the connection that `connect` opens
when the server allows one. -/
def checkSubs (allSubs : Subscribers) (steady : SteadyTime) (now : SysTime)
    (delays : Nat → Delay) (slot : Option ConnId) (node : SNode) : SNode :=
  if node.connected then
    (node.checkQueue allSubs now delays).1
  else if node.conn.isSome then
    node
  else if node.coolingDown steady then
    node
  else
    match slot with
    | some conn => node.clearCooldown.attach conn
    | none => node.clearCooldown

theorem checkSubs_eq_checkQueue {node : SNode} (connected : node.connected = true)
    (allSubs : Subscribers) (steady : SteadyTime) (now : SysTime) (delays : Nat → Delay)
    (slot : Option ConnId) :
    node.checkSubs allSubs steady now delays slot = (node.checkQueue allSubs now delays).1 :=
  if_pos connected

/-- The calls of the server on the accounts of a node. -/
inductive Call
  | addAccount (account : SwarmPubkey) (forceNow : Bool)
  | resetSwarm (swarm : UInt64)
  | removeStaleSwarmMembers (swarmIds : List UInt64)
  | onConnected
  | checkSubs (allSubs : Subscribers) (steady : SteadyTime) (now : SysTime)
      (delays : Nat → Delay) (slot : Option ConnId)

/-- One call, on a node and the accounts that were ever added to it. -/
def call (state : SNode × List AccountID) : Call → Option (SNode × List AccountID)
  | .addAccount account forceNow =>
      some (state.1.addAccount account forceNow, account.id :: state.2)
  | .resetSwarm swarm => some (state.1.resetSwarm swarm, state.2)
  | .removeStaleSwarmMembers swarmIds => some (state.1.removeStaleSwarmMembers swarmIds, state.2)
  | .onConnected => some (state.1.markConnected, state.2)
  | .checkSubs allSubs steady now delays slot =>
      if ∀ id ∈ state.2, id ∈ allSubs then
        some (state.1.checkSubs allSubs steady now delays slot, state.2)
      else
        none

/-- The ids of the live entries of a queue, first entry first. -/
def queueIds (queue : List QueueEntry) : List AccountID :=
  (queue.filterMap QueueEntry.account).map SwarmPubkey.id

/-- The ids of the live entries of a node. -/
def liveIds (node : SNode) : List AccountID :=
  queueIds node.next

/-- Every account of the set has exactly one live entry, and every live entry
is of an account of the set. -/
structure Paired (node : SNode) : Prop where
  one : ∀ id ∈ node.subs, node.liveIds.count id = 1
  known : ∀ id ∈ node.liveIds, id ∈ node.subs

theorem Paired.nodup {node : SNode} (paired : node.Paired) : node.liveIds.Nodup := by
  apply List.nodup_iff_count_le_one.mpr
  intro id
  by_cases live : id ∈ node.liveIds
  · exact (paired.one id (paired.known id live)).le
  · rw [List.count_eq_zero_of_not_mem live]
    exact Nat.zero_le 1

theorem Paired.mem_iff {node : SNode} (paired : node.Paired) (id : AccountID) :
    id ∈ node.liveIds ↔ id ∈ node.subs := by
  constructor
  · exact paired.known id
  · intro member
    apply List.count_pos_iff.mp
    rw [paired.one id member]
    exact Nat.one_pos

theorem paired_of_nodup {node : SNode} (nodup : node.liveIds.Nodup)
    (mem_iff : ∀ id, id ∈ node.liveIds ↔ id ∈ node.subs) : node.Paired where
  one id member := List.count_eq_one_of_mem nodup ((mem_iff id).mpr member)
  known id live := (mem_iff id).mp live

/-- Only the order of the queue has changed. -/
theorem Paired.of_perm {node after : SNode} (paired : node.Paired)
    (perm : after.liveIds.Perm node.liveIds) (subs : after.subs = node.subs) : after.Paired := by
  apply paired_of_nodup
  · exact perm.nodup_iff.mpr paired.nodup
  · intro id
    rw [perm.mem_iff, subs]
    exact paired.mem_iff id

/-! ## Adding and ejecting accounts -/

theorem queueIds_cons_none {entry : QueueEntry} (reset : entry.account = none)
    (queue : List QueueEntry) : queueIds (entry :: queue) = queueIds queue := by
  rw [queueIds, List.filterMap_cons_none reset]
  rfl

theorem queueIds_cons_some {entry : QueueEntry} {key : SwarmPubkey}
    (account : entry.account = some key) (queue : List QueueEntry) :
    queueIds (entry :: queue) = key.id :: queueIds queue := by
  rw [queueIds, List.filterMap_cons_some account]
  rfl

/-- Clearing the first entry of an account erases its first live id. -/
theorem queueIds_clearFirst (id : AccountID) (queue : List QueueEntry) :
    queueIds (clearFirst id queue) = (queueIds queue).erase id := by
  induction queue with
  | nil => rfl
  | cons entry rest ih =>
      rw [clearFirst]
      cases account : entry.account with
      | none =>
          rw [if_neg (by simp), queueIds_cons_none account, queueIds_cons_none account, ih]
      | some key =>
          rw [queueIds_cons_some account]
          by_cases equal : key.id = id
          · rw [if_pos (by simp [equal]), queueIds_cons_none rfl, equal, List.erase_cons_head]
          · rw [if_neg (by simpa using equal), queueIds_cons_some account,
              List.erase_cons_tail (fun same => equal (beq_iff_eq.mp same)), ih]

theorem Paired.addAccount {node : SNode} (paired : node.Paired) (account : SwarmPubkey)
    (forceNow : Bool) : (node.addAccount account forceNow).Paired := by
  rw [SNode.addAccount]
  split_ifs with known force
  · -- The old entry is cleared before the new one goes to the front.
    have live := (paired.mem_iff account.id).mpr known
    refine paired.of_perm ?_ rfl
    rw [liveIds, queueIds_cons_some rfl, queueIds_clearFirst]
    exact (List.perm_cons_erase live).symm
  · exact paired
  · have fresh : account.id ∉ node.liveIds := fun live => known (paired.known _ live)
    apply paired_of_nodup
    · rw [liveIds, queueIds_cons_some rfl]
      exact List.nodup_cons.mpr ⟨fresh, paired.nodup⟩
    · intro id
      rw [liveIds, queueIds_cons_some rfl, List.mem_cons, AList.mem_insert]
      exact or_congr_right (paired.mem_iff id)

theorem paired_resetSwarm (node : SNode) (swarm : UInt64) : (node.resetSwarm swarm).Paired where
  one id member := absurd member (AList.notMem_empty id)
  known _ live := absurd live List.not_mem_nil

theorem mem_foldl_eraseStale {node : SNode} {queue : List QueueEntry}
    {subs : Map AccountID SwarmPubkey} {id : AccountID} :
    id ∈ queue.foldl node.eraseStale subs ↔
      id ∈ subs ∧ id ∉ queueIds (queue.filter node.isStale) := by
  induction queue generalizing subs with
  | nil => simp [queueIds]
  | cons entry rest ih =>
      rw [List.foldl_cons, ih, eraseStale]
      cases account : entry.account with
      | none =>
          have live : node.isStale entry = false := by rw [isStale, account]
          rw [List.filter_cons_of_neg (by simp [live])]
      | some key =>
          by_cases stale : node.isStale entry = true
          · rw [List.filter_cons_of_pos stale, queueIds_cons_some account]
            simp only [stale, if_true, AList.mem_erase, List.mem_cons]
            tauto
          · rw [List.filter_cons_of_neg stale]
            simp only [stale, if_false, Bool.false_eq_true]

/-- The live entries that are left are those that are not stale. -/
theorem liveIds_removeStaleSwarmMembers (node : SNode) (swarmIds : List UInt64) :
    (node.removeStaleSwarmMembers swarmIds).liveIds =
      queueIds (node.next.filter fun entry => !node.isStale entry) := by
  simp only [liveIds, removeStaleSwarmMembers]
  induction node.next with
  | nil => rfl
  | cons entry rest ih =>
      rw [List.map_cons]
      by_cases stale : node.isStale entry = true
      · rw [if_pos stale, queueIds_cons_none rfl, List.filter_cons_of_neg (by simp [stale]), ih]
      · rw [if_neg stale, List.filter_cons_of_pos (by simp [stale])]
        cases account : entry.account with
        | none => rw [queueIds_cons_none account, queueIds_cons_none account, ih]
        | some key => rw [queueIds_cons_some account, queueIds_cons_some account, ih]

theorem queueIds_perm {first second : List QueueEntry} (perm : first.Perm second) :
    (queueIds first).Perm (queueIds second) :=
  (perm.filterMap QueueEntry.account).map SwarmPubkey.id

theorem queueIds_append (first second : List QueueEntry) :
    queueIds (first ++ second) = queueIds first ++ queueIds second := by
  rw [queueIds, List.filterMap_append, List.map_append]
  rfl

theorem Paired.removeStaleSwarmMembers {node : SNode} (paired : node.Paired)
    (swarmIds : List UInt64) : (node.removeStaleSwarmMembers swarmIds).Paired := by
  -- Stale and other entries split the queue, so their ids split the live ids.
  have split : (queueIds (node.next.filter node.isStale) ++
      (node.removeStaleSwarmMembers swarmIds).liveIds).Perm node.liveIds := by
    rw [liveIds_removeStaleSwarmMembers, ← queueIds_append]
    exact queueIds_perm (List.filter_append_perm node.isStale node.next)
  have nodup := split.nodup_iff.mpr paired.nodup
  have apart := List.disjoint_of_nodup_append nodup
  apply paired_of_nodup
  · exact nodup.of_append_right
  · intro id
    have members : id ∈ (node.removeStaleSwarmMembers swarmIds).subs ↔
        id ∈ node.subs ∧ id ∉ queueIds (node.next.filter node.isStale) := by
      simp only [SNode.removeStaleSwarmMembers]
      rw [mem_foldl_eraseStale, mem_mapVal]
    rw [members, ← paired.mem_iff, ← split.mem_iff, List.mem_append]
    constructor
    · exact fun live => ⟨Or.inr live, fun stale => apart stale live⟩
    · exact fun held => held.1.resolve_left held.2

/-! ## Checking the queue -/

/-- The accounts that are renewed are those of the entries that were taken
off. -/
theorem accounts_renewals {check : Check} {handled : List QueueEntry}
    (known : ∀ id ∈ queueIds handled, id ∈ check.allSubs) (count : Nat) :
    (renewals check count handled).filterMap QueueEntry.account =
      handled.filterMap QueueEntry.account := by
  induction handled generalizing count with
  | nil => rfl
  | cons entry rest ih =>
      cases account : entry.account with
      | none =>
          rw [queueIds_cons_none account] at known
          have skip : renewal check entry = none := by rw [renewal, account, Option.bind_none]
          rw [renewals, skip, List.filterMap_cons_none account]
          exact ih known count
      | some key =>
          rw [queueIds_cons_some account, List.forall_mem_cons] at known
          obtain ⟨subscriber, found⟩ :=
            Option.isSome_iff_exists.mp (AList.lookup_isSome.mpr known.1)
          have renew : renewal check entry = some (key, subscriber) := by
            rw [renewal, account, Option.bind_some, found, Option.map_some]
          rw [List.filterMap_cons_some account, ← ih known.2 (count + 1)]
          simp only [renewals, renew]
          rfl

theorem Drains.known {check : Check} {queue added handled : List QueueEntry}
    {request : MonitorRequest} {drained : Drained}
    (drains : Drains check queue added request handled drained)
    (known : ∀ id ∈ queueIds queue, id ∈ check.allSubs) :
    ∀ id ∈ queueIds handled, id ∈ check.allSubs := by
  intro id member
  apply known id
  rw [drains.split, queueIds_append]
  exact List.mem_append_left _ member

theorem liveIds_checkQueue_perm {allSubs : Subscribers} {node : SNode} (now : SysTime)
    (delays : Nat → Delay) (known : ∀ id ∈ node.liveIds, id ∈ allSubs) :
    (node.checkQueue allSubs now delays).1.liveIds.Perm node.liveIds := by
  let check : Check := ⟨allSubs, now, delays⟩
  obtain ⟨handled, drains⟩ := exists_drains check node.next [] []
  have moved := (resort_perm now (drainFor check node.next [] [])).filterMap QueueEntry.account
  rw [drains.added_eq, List.filterMap_append, accounts_renewals (drains.known known)] at moved
  -- The processed entries reappear as the renewed ones, at the back.
  apply List.Perm.map SwarmPubkey.id
  rw [drains.split, List.filterMap_append]
  exact moved.trans List.perm_append_comm

theorem checkSubs_subs (allSubs : Subscribers) (steady : SteadyTime) (now : SysTime)
    (delays : Nat → Delay) (slot : Option ConnId) (node : SNode) :
    (node.checkSubs allSubs steady now delays slot).subs = node.subs := by
  unfold checkSubs
  split_ifs
  · rfl
  · rfl
  · rfl
  · cases slot <;> rfl

theorem Paired.checkSubs {allSubs : Subscribers} {node : SNode} (paired : node.Paired)
    (steady : SteadyTime) (now : SysTime) (delays : Nat → Delay) (slot : Option ConnId)
    (known : ∀ id ∈ node.liveIds, id ∈ allSubs) :
    (node.checkSubs allSubs steady now delays slot).Paired := by
  refine paired.of_perm ?_ (checkSubs_subs allSubs steady now delays slot node)
  unfold SNode.checkSubs
  split_ifs
  · exact liveIds_checkQueue_perm now delays known
  · exact List.Perm.refl _
  · exact List.Perm.refl _
  · cases slot <;> exact List.Perm.refl _

theorem liveIds_resetTimes (node : SNode) : node.resetTimes.liveIds = node.liveIds := by
  simp only [liveIds, queueIds, resetTimes, List.filterMap_map]
  rfl

theorem Paired.markConnected {node : SNode} (paired : node.Paired) : node.markConnected.Paired := by
  simp only [SNode.markConnected]
  split_ifs
  · refine paired.of_perm ?_ rfl
    exact List.Perm.of_eq (liveIds_resetTimes node)
  · exact paired.of_perm (List.Perm.refl _) rfl

/-! ## Runs -/

/-- The invariant of a run: the set and the queue agree, and every account of
the node was added at some time. -/
def Scheduled (state : SNode × List AccountID) : Prop :=
  state.1.Paired ∧ ∀ id ∈ state.1.subs, id ∈ state.2

theorem Scheduled.call {state next : SNode × List AccountID} {event : Call}
    (scheduled : Scheduled state) (taken : call state event = some next) : Scheduled next := by
  obtain ⟨node, added⟩ := state
  obtain ⟨paired, known⟩ := scheduled
  cases event with
  | addAccount account forceNow =>
      cases taken
      constructor
      · exact paired.addAccount account forceNow
      · intro id member
        rcases mem_subs_addAccount.mp member with rfl | old
        · exact List.mem_cons_self
        · exact List.mem_cons_of_mem account.id (known id old)
  | resetSwarm swarm =>
      cases taken
      constructor
      · exact paired_resetSwarm node swarm
      · intro id member
        exact absurd member (AList.notMem_empty id)
  | removeStaleSwarmMembers swarmIds =>
      cases taken
      constructor
      · exact paired.removeStaleSwarmMembers swarmIds
      · intro id member
        simp only [SNode.removeStaleSwarmMembers] at member
        rw [mem_foldl_eraseStale, mem_mapVal] at member
        exact known id member.1
  | onConnected =>
      cases taken
      constructor
      · exact paired.markConnected
      · intro id member
        apply known id
        simp only [SNode.markConnected] at member
        split_ifs at member <;> exact member
  | checkSubs allSubs steady now delays slot =>
      simp only [SNode.call] at taken
      split_ifs at taken with complete
      cases taken
      constructor
      · apply paired.checkSubs
        intro id live
        exact complete id (known id (paired.known id live))
      · intro id member
        rw [checkSubs_subs] at member
        exact known id member

/-- In every state that a new node reaches by any calls, the set and the live
queue entries are in bijection. -/
theorem always_paired (addr : RemoteAddress) (swarm : UInt64) (state : SNode × List AccountID)
    (reached : Run.Reachable call (create addr swarm, []) state) : state.1.Paired := by
  have scheduled : Scheduled state := by
    apply reached.invariant
    · constructor
      · exact ⟨fun id member => absurd member (AList.notMem_empty id),
          fun id live => absurd live List.not_mem_nil⟩
      · exact fun id member => absurd member (AList.notMem_empty id)
    · exact fun _ _ _ kept taken => kept.call taken
  exact scheduled.1

/-- A node connects, renews one account twice and then takes it over again. -/
def renewingCalls : List Call :=
  let account : SwarmPubkey := (Sample.request 1700000000).pubkey
  let allSubs : Subscribers :=
    (∅ : Subscribers).insert account.id ⟨account, [(Sample.request 1700000000).sub]⟩
  let check (now : SysTime) : Call :=
    .checkSubs allSubs now now (Sample.moment now |>.delays 0) (some 0)
  [.addAccount account false, check 0, .onConnected, check (1700000000 * second),
    .addAccount account true, check (1700000001 * second),
    .removeStaleSwarmMembers [7], .addAccount account false]

theorem renewingCalls_paired :
    ∃ state, Run.exec call (create ⟨⟨List.replicate 32 0, rfl⟩, [], 0⟩ 7, []) renewingCalls =
        some state ∧
      state.1.connected = true ∧ Sample.account ∈ state.1.subs ∧
      state.1.liveIds = [Sample.account] ∧ state.1.Paired := by
  have run : (Run.exec call (create ⟨⟨List.replicate 32 0, rfl⟩, [], 0⟩ 7, []) renewingCalls).map
      (fun state => (state.1.connected, state.1.subs.keys, state.1.liveIds)) =
        some (true, [Sample.account], [Sample.account]) := by decide +kernel
  obtain ⟨state, ran, facts⟩ := Option.map_eq_some_iff.mp run
  simp only [Prod.mk.injEq] at facts
  obtain ⟨connected, keys, live⟩ := facts
  refine ⟨state, ran, connected, ?_, live, always_paired _ _ state ⟨renewingCalls, ran⟩⟩
  rw [AList.mem_keys, keys]
  exact List.mem_cons_self

end Spns.Hive.SNode

namespace Spns.HiveMind

open Spns.Hive

/-- A node that neither is connected nor cools down gets the connection that
the server allows. -/
theorem connect_node (env : Env) {now : SteadyTime} {ref : NodeRef} {hive : HiveMind}
    (idle : (hive.node ref).conn.isSome = false) (calm : (hive.node ref).coolingDown now = false) :
    ∃ slot, (hive.connect env now ref).node ref =
      match slot with
      | some conn => (hive.node ref).clearCooldown.attach conn
      | none => (hive.node ref).clearCooldown := by
  rw [connect, idle, calm]
  simp only [Bool.false_eq_true, if_false, allowConnect]
  split_ifs
  · exact ⟨none, modifyNode_node_self hive ref _⟩
  · exact ⟨none, modifyNode_node_self hive ref _⟩
  · exact ⟨some hive.conns.length, by simp [openConn, modifyNode]⟩

/-- `check_my_subs` of the server is `check_subs` of the node, with a
connection if the server has a slot left. -/
theorem checkNodeSubs_node (env : Env) (moment : Moment) (ref : NodeRef) (hive : HiveMind) :
    ∃ slot, (hive.checkNodeSubs env moment ref).node ref =
      (hive.node ref).checkSubs hive.subscribers moment.steady moment.system (moment.delays ref)
        slot := by
  rw [checkNodeSubs]
  by_cases connected : (hive.node ref).connected = true
  · refine ⟨none, ?_⟩
    rw [SNode.checkSubs_eq_checkQueue connected]
    simp [connected, drainQueue]
  · by_cases attached : (hive.node ref).conn.isSome = true
    · exact ⟨none, by simp [connected, attached, SNode.checkSubs]⟩
    · by_cases cooling : (hive.node ref).coolingDown moment.steady = true
      · exact ⟨none, by simp [connected, attached, cooling, SNode.checkSubs]⟩
      · have idle : ((hive.modifyNode ref SNode.clearCooldown).node ref).conn.isSome = false := by
          rw [modifyNode_node_self]
          exact Bool.eq_false_iff.mpr attached
        have calm : ((hive.modifyNode ref SNode.clearCooldown).node ref).coolingDown
            moment.steady = false := by
          rw [modifyNode_node_self]
          rfl
        obtain ⟨slot, opened⟩ := connect_node env idle calm
        refine ⟨slot, ?_⟩
        rw [modifyNode_node_self] at opened
        simp only [connected, attached, cooling, SNode.checkSubs, Bool.false_eq_true, if_false]
        exact opened

end Spns.HiveMind
