import Spns.Hive.CheckLoop

/-!
# What the account operations do to a node

For every operation of `SNode` on accounts: which accounts it leaves in the
set and in the queue.  `Settled` is the invariant that the server keeps of
its nodes: every live queue entry belongs to the set and caches the swarm of
the node.  On settled nodes `removeStaleSwarmMembers` finds nothing to eject.
-/

namespace Spns.Hive.SNode

open Spns
open Spns.Lib.Unordered

/-- The accounts of the live queue entries, first entry first. -/
def liveAccounts (node : SNode) : List SwarmPubkey :=
  node.next.filterMap QueueEntry.account

/-- Every live queue entry is in the set and caches the swarm of the node. -/
def Settled (node : SNode) : Prop :=
  ∀ key ∈ node.liveAccounts, key.id ∈ node.subs ∧ key.swarm = node.swarm

theorem settled_create (addr : RemoteAddress) (swarm : UInt64) : (create addr swarm).Settled := by
  intro key live
  simp [liveAccounts, create] at live

/-! ## Adding accounts -/

@[simp]
theorem addAccount_swarm (account : SwarmPubkey) (forceNow : Bool) (node : SNode) :
    (node.addAccount account forceNow).swarm = node.swarm := by
  rw [addAccount]
  split_ifs <;> rfl

theorem mem_subs_addAccount {account : SwarmPubkey} {forceNow : Bool} {node : SNode}
    {id : AccountID} :
    id ∈ (node.addAccount account forceNow).subs ↔ id = account.id ∨ id ∈ node.subs := by
  unfold addAccount
  by_cases known : account.id ∈ node.subs
  · have absorbed : id = account.id → id ∈ node.subs := fun equal => equal ▸ known
    cases forceNow <;> simp [known, or_iff_right_of_imp absorbed]
  · simp [known]

theorem mem_filterMap_clearFirst {id : AccountID} {queue : List QueueEntry} {key : SwarmPubkey}
    (live : key ∈ (clearFirst id queue).filterMap QueueEntry.account) :
    key ∈ queue.filterMap QueueEntry.account := by
  induction queue with
  | nil => exact live
  | cons entry rest ih =>
      rw [clearFirst] at live
      split_ifs at live
      · rw [List.filterMap_cons_none rfl] at live
        exact List.mem_filterMap.mpr (by
          obtain ⟨found, member, equal⟩ := List.mem_filterMap.mp live
          exact ⟨found, List.mem_cons_of_mem entry member, equal⟩)
      · cases account : entry.account with
        | none =>
            rw [List.filterMap_cons_none account] at live ⊢
            exact ih live
        | some first =>
            rw [List.filterMap_cons_some account] at live ⊢
            rcases List.mem_cons.mp live with equal | later
            · exact equal ▸ List.mem_cons_self
            · exact List.mem_cons_of_mem first (ih later)

/-- The only new live entry is the added account itself. -/
theorem mem_liveAccounts_addAccount {account : SwarmPubkey} {forceNow : Bool} {node : SNode}
    {key : SwarmPubkey} (live : key ∈ (node.addAccount account forceNow).liveAccounts) :
    key = account ∨ key ∈ node.liveAccounts := by
  rw [addAccount] at live
  split_ifs at live
  · simp only [liveAccounts, List.filterMap_cons, List.mem_cons] at live
    rcases live with equal | later
    · exact Or.inl equal
    · exact Or.inr (mem_filterMap_clearFirst later)
  · exact Or.inr live
  · simpa only [liveAccounts, List.filterMap_cons, List.mem_cons] using live

theorem Settled.addAccount {node : SNode} (settled : node.Settled) {account : SwarmPubkey}
    (belongs : account.swarm = node.swarm) (forceNow : Bool) :
    (node.addAccount account forceNow).Settled := by
  intro key live
  rw [mem_subs_addAccount, addAccount_swarm]
  rcases mem_liveAccounts_addAccount live with equal | old
  · exact ⟨Or.inl (congrArg SwarmPubkey.id equal), equal ▸ belongs⟩
  · exact ⟨Or.inr (settled key old).1, (settled key old).2⟩

/-! ## Ejecting stale members -/

theorem Settled.not_isStale {node : SNode} (settled : node.Settled) {entry : QueueEntry}
    (member : entry ∈ node.next) : node.isStale entry = false := by
  rw [isStale]
  cases account : entry.account with
  | none => rfl
  | some key =>
      have live : key ∈ node.liveAccounts := List.mem_filterMap.mpr ⟨entry, member, account⟩
      simp [(settled key live).2]

/-- On a settled node the queue is untouched. -/
theorem Settled.removeStaleSwarmMembers_next {node : SNode} (settled : node.Settled)
    (swarmIds : List UInt64) : (node.removeStaleSwarmMembers swarmIds).next = node.next := by
  rw [removeStaleSwarmMembers]
  refine (List.map_congr_left fun entry member => ?_).trans (List.map_id node.next)
  simp [settled.not_isStale member]

/-- Ejecting members queues no account. -/
theorem mem_liveAccounts_removeStaleSwarmMembers {swarmIds : List UInt64} {node : SNode}
    {key : SwarmPubkey} (live : key ∈ (node.removeStaleSwarmMembers swarmIds).liveAccounts) :
    key ∈ node.liveAccounts := by
  obtain ⟨entry, member, account⟩ := List.mem_filterMap.mp live
  obtain ⟨before, beforeMem, rfl⟩ := List.mem_map.mp member
  split_ifs at account
  exact List.mem_filterMap.mpr ⟨before, beforeMem, account⟩

/-- On a settled node no account leaves the set. -/
theorem Settled.removeStaleSwarmMembers_subs {node : SNode} (settled : node.Settled)
    (swarmIds : List UInt64) :
    (node.removeStaleSwarmMembers swarmIds).subs =
      node.subs.mapVal fun _ key => (key.updateSwarm swarmIds).1 := by
  unfold removeStaleSwarmMembers
  apply List.foldlRecOn (motive := fun subs => subs = node.subs.mapVal fun _ key =>
    (key.updateSwarm swarmIds).1) node.next node.eraseStale rfl
  intro subs unchanged entry member
  rw [eraseStale]
  cases account : entry.account with
  | none => exact unchanged
  | some key => simpa [settled.not_isStale member] using unchanged

theorem mem_mapVal {κ : Type} {ν ω : Type} {f : κ → ν → ω} {map : Map κ ν} {key : κ} :
    key ∈ map.mapVal f ↔ key ∈ map := by
  simp [AList.mem_keys, AList.keys, Map.mapVal, List.map₂_keys]

theorem Settled.mem_subs_removeStaleSwarmMembers {node : SNode} (settled : node.Settled)
    {swarmIds : List UInt64} {id : AccountID} :
    id ∈ (node.removeStaleSwarmMembers swarmIds).subs ↔ id ∈ node.subs := by
  rw [settled.removeStaleSwarmMembers_subs swarmIds]
  exact mem_mapVal

theorem Settled.liveAccounts_removeStaleSwarmMembers {node : SNode} (settled : node.Settled)
    (swarmIds : List UInt64) :
    (node.removeStaleSwarmMembers swarmIds).liveAccounts = node.liveAccounts := by
  unfold liveAccounts
  rw [settled.removeStaleSwarmMembers_next swarmIds]

theorem Settled.removeStaleSwarmMembers {node : SNode} (settled : node.Settled)
    (swarmIds : List UInt64) : (node.removeStaleSwarmMembers swarmIds).Settled := by
  intro key live
  rw [settled.liveAccounts_removeStaleSwarmMembers swarmIds] at live
  exact ⟨settled.mem_subs_removeStaleSwarmMembers.mpr (settled key live).1, (settled key live).2⟩

/-! ## Draining the queue -/

theorem liveAccounts_resetTimes (node : SNode) :
    node.resetTimes.liveAccounts = node.liveAccounts := by
  simp only [liveAccounts, resetTimes, List.filterMap_map]
  rfl

theorem resort_perm (now : SysTime) (drained : Drained) :
    (resort now drained).Perm (drained.rest ++ drained.added) := by
  rw [resort]
  apply ((List.perm_insertionSort _ _).append_left _).trans
  rw [← List.append_assoc, List.takeWhile_append_dropWhile]

/-- Renewed entries carry the accounts of the entries that were taken off. -/
theorem mem_renewals_accounts {check : Check} {count : Nat} {handled : List QueueEntry}
    {entry : QueueEntry} {key : SwarmPubkey} (member : entry ∈ renewals check count handled)
    (account : entry.account = some key) : key ∈ handled.filterMap QueueEntry.account := by
  induction handled generalizing count with
  | nil => simp [renewals] at member
  | cons first rest ih =>
      have later : key ∈ rest.filterMap QueueEntry.account →
          key ∈ (first :: rest).filterMap QueueEntry.account := by
        intro live
        obtain ⟨found, foundMem, equal⟩ := List.mem_filterMap.mp live
        exact List.mem_filterMap.mpr ⟨found, List.mem_cons_of_mem first foundMem, equal⟩
      cases renew : renewal check first with
      | none =>
          rw [renewals, renew] at member
          exact later (ih member)
      | some renewed =>
          obtain ⟨owner, subscriber⟩ := renewed
          rw [renewals_cons renew] at member
          rcases List.mem_cons.mp member with rfl | pushed
          · cases account
            exact List.mem_filterMap.mpr ⟨first, List.mem_cons_self, (renewal_eq_some renew).1⟩
          · exact later (ih pushed)

/-- Checking the queue only reschedules accounts that were queued. -/
theorem mem_liveAccounts_checkQueue {allSubs : Subscribers} {now : SysTime}
    {delays : Nat → Delay} {node : SNode} {key : SwarmPubkey}
    (live : key ∈ (node.checkQueue allSubs now delays).1.liveAccounts) :
    key ∈ node.liveAccounts := by
  obtain ⟨entry, member, account⟩ := List.mem_filterMap.mp live
  obtain ⟨handled, drains⟩ := exists_drains ⟨allSubs, now, delays⟩ node.next [] []
  rw [checkQueue, (resort_perm now _).mem_iff, List.mem_append] at member
  rw [liveAccounts, drains.split, List.filterMap_append, List.mem_append]
  rcases member with kept | pushed
  · exact Or.inr (List.mem_filterMap.mpr ⟨entry, kept, account⟩)
  · exact Or.inl (mem_renewals_accounts (drains.added_eq ▸ pushed) account)

/-! ## What a check sends -/

/-- What an entry contributes is made from its account and a subscription that
the server holds for it. -/
theorem mem_contribution {check : Check} {entry : QueueEntry} {dict : MonitorEntry}
    (member : dict ∈ contribution check entry) :
    ∃ key, entry.account = some key ∧ ∃ subscriber,
      check.allSubs.lookup key.id = some subscriber ∧
        ∃ sub ∈ subscriber.subscriptions, dict = monitorEntry key sub := by
  cases renew : renewal check entry with
  | none =>
      rw [contribution, renew] at member
      contradiction
  | some renewed =>
      obtain ⟨key, subscriber⟩ := renewed
      obtain ⟨owner, found⟩ := renewal_eq_some renew
      rw [contribution_eq renew] at member
      obtain ⟨sub, subMem, equal⟩ := List.mem_map.mp member
      exact ⟨key, owner, subscriber, found, sub, (List.mem_filter.mp subMem).1, equal.symm⟩

/-- Every dict of a request is made from a queued account and a subscription
that the server holds for it. -/
theorem mem_requests_checkQueue {allSubs : Subscribers} {now : SysTime} {delays : Nat → Delay}
    {node : SNode} {request : MonitorRequest}
    (sent : request ∈ (node.checkQueue allSubs now delays).2) {dict : MonitorEntry}
    (member : dict ∈ request) :
    ∃ key ∈ node.liveAccounts, ∃ subscriber, allSubs.lookup key.id = some subscriber ∧
      ∃ sub ∈ subscriber.subscriptions, dict = monitorEntry key sub := by
  rw [checkQueue] at sent
  simp only at sent
  split_ifs at sent
  · contradiction
  · obtain ⟨handled, drains⟩ := exists_drains ⟨allSubs, now, delays⟩ node.next [] []
    rw [List.mem_singleton.mp sent] at member
    have contributed : dict ∈ handled.flatMap (contribution ⟨allSubs, now, delays⟩) := by
      rw [← drains.request_eq]
      exact member
    obtain ⟨entry, taken, own⟩ := List.mem_flatMap.mp contributed
    obtain ⟨key, owner, held⟩ := mem_contribution own
    refine ⟨key, List.mem_filterMap.mpr ⟨entry, ?_, owner⟩, held⟩
    rw [drains.split]
    exact List.mem_append_left _ taken

end Spns.Hive.SNode
