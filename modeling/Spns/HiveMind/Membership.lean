import Spns.HiveMind.Update

/-!
# Which accounts a node holds

`Tracked` is the invariant of the accounts: nodes are settled and hold only
accounts of `subscribers_`, which is keyed by account id.  The second half
describes the full recheck of `on_sns_response`.  Each node is in one swarm,
so the jobs of the swarms do not interfere and the recheck is one function of
each node.
-/

namespace Spns.HiveMind

open Spns.Hive
open Spns.Lib.Unordered

/-- What the server knows about the accounts of its nodes. -/
structure Tracked (hive : HiveMind) : Prop where
  settled : ∀ ref, (hive.node ref).Settled
  known : ∀ {ref id}, id ∈ (hive.node ref).subs → id ∈ hive.subscribers
  keyed : ∀ {id subscriber}, hive.subscribers.lookup id = some subscriber → subscriber.key.id = id

theorem settled_of_subset {before after : SNode} (settled : before.Settled)
    (swarm : after.swarm = before.swarm) (subs : after.subs = before.subs)
    (live : ∀ key ∈ after.liveAccounts, key ∈ before.liveAccounts) : after.Settled := by
  intro key member
  rw [swarm, subs]
  exact settled key (live key member)

theorem settled_of_idle {node : SNode} (idle : node.liveAccounts = []) : node.Settled := by
  intro key live
  rw [idle] at live
  contradiction

theorem Tracked.of_keepsMembers {before after : HiveMind} (tracked : Tracked before)
    (keeps : KeepsMembers before after) : Tracked after where
  settled ref := settled_of_subset (tracked.settled ref) (keeps.swarm ref) (keeps.subs ref)
    (keeps.live ref)
  known member := by
    rw [keeps.subs] at member
    rw [keeps.subscribers]
    exact tracked.known member
  keyed found := by
    rw [keeps.subscribers] at found
    exact tracked.keyed found

theorem Tracked.of_updating {start hive : HiveMind} {listing : Map Ed25519PK SnDetails}
    {changed : List NodeRef} (tracked : Tracked start)
    (updating : Updating start listing (hive, changed)) : Tracked hive where
  settled ref := by
    by_cases member : ref ∈ changed
    · exact settled_of_idle (updating.reset ref member).2
    · obtain ⟨swarm, subs, live⟩ := updating.kept ref member
      exact settled_of_subset (tracked.settled ref) swarm subs live
  known := by
    intro ref id held
    rw [updating.subscribers]
    by_cases member : ref ∈ changed
    · rw [(updating.reset ref member).1] at held
      exact absurd held (AList.notMem_empty id)
    · rw [(updating.kept ref member).2.1] at held
      exact tracked.known held
  keyed found := by
    rw [updating.subscribers] at found
    exact tracked.keyed found

/-! ## The job of a swarm -/

/-- The job of a swarm on one of its nodes. -/
def jobNode (accounts : List SwarmPubkey) (swarmIds : List UInt64) (swarm : UInt64)
    (node : SNode) : SNode :=
  accounts.foldl
    (fun node account => if account.swarm = swarm then node.addAccount account false else node)
    (node.removeStaleSwarmMembers swarmIds)

/-- Accounts added one after the other to every node of a list are added to
each node one after the other. -/
theorem foldl_modifyNodes (accounts : List SwarmPubkey) (swarm : UInt64) {nodes : List NodeRef}
    (nodup : nodes.Nodup) (hive : HiveMind) :
    accounts.foldl
        (fun hive account =>
          if account.swarm = swarm then hive.modifyNodes nodes (SNode.addAccount account false)
          else hive) hive =
      { hive with
        node := fun ref =>
          if ref ∈ nodes then
            accounts.foldl
              (fun node account =>
                if account.swarm = swarm then node.addAccount account false else node)
              (hive.node ref)
          else hive.node ref } := by
  induction accounts generalizing hive with
  | nil => simp
  | cons account rest ih =>
      rw [List.foldl_cons, ih]
      by_cases belongs : account.swarm = swarm
      · rw [if_pos belongs, modifyNodes_eq hive nodup]
        simp only [mk.injEq, and_self, and_true, true_and]
        funext ref
        by_cases member : ref ∈ nodes
        · simp [member, belongs]
        · simp [member]
      · simp [belongs]

theorem swarmJob_eq (accounts : List SwarmPubkey) (swarmIds : List UInt64) (swarm : UInt64)
    {nodes : List NodeRef} (nodup : nodes.Nodup) (hive : HiveMind) :
    hive.swarmJob accounts swarmIds swarm nodes =
      { hive with
        node := fun ref =>
          if ref ∈ nodes then jobNode accounts swarmIds swarm (hive.node ref)
          else hive.node ref } := by
  rw [swarmJob]
  rw [foldl_modifyNodes accounts swarm nodup, modifyNodes_eq hive nodup]
  simp only [mk.injEq, and_self, and_true, true_and]
  funext ref
  by_cases member : ref ∈ nodes
  · simp [member, jobNode]
  · simp [member]

@[simp]
theorem jobNode_swarm (accounts : List SwarmPubkey) (swarmIds : List UInt64) (swarm : UInt64)
    (node : SNode) : (jobNode accounts swarmIds swarm node).swarm = node.swarm := by
  rw [jobNode]
  refine List.foldlRecOn (motive := fun current : SNode => current.swarm = node.swarm)
    accounts _ ?_ ?_
  · rfl
  · intro current same account _
    split_ifs
    · rw [SNode.addAccount_swarm, same]
    · exact same

theorem mem_subs_jobNode {accounts : List SwarmPubkey} {swarmIds : List UInt64} {swarm : UInt64}
    {node : SNode} (settled : node.Settled) {id : AccountID} :
    id ∈ (jobNode accounts swarmIds swarm node).subs ↔
      id ∈ node.subs ∨ ∃ account ∈ accounts, account.swarm = swarm ∧ account.id = id := by
  have general : ∀ start : SNode,
      id ∈ (accounts.foldl (fun node account =>
        if account.swarm = swarm then node.addAccount account false else node) start).subs ↔
        id ∈ start.subs ∨ ∃ account ∈ accounts, account.swarm = swarm ∧ account.id = id := by
    induction accounts with
    | nil => simp
    | cons account rest ih =>
        intro start
        rw [List.foldl_cons, ih]
        by_cases belongs : account.swarm = swarm
        · rw [if_pos belongs, SNode.mem_subs_addAccount]
          simp only [List.mem_cons, exists_eq_or_imp, belongs, true_and]
          rw [or_assoc, or_left_comm, eq_comm]
        · simp [belongs]
  unfold jobNode
  rw [general, settled.mem_subs_removeStaleSwarmMembers]

theorem settled_jobNode {accounts : List SwarmPubkey} {swarmIds : List UInt64} {node : SNode}
    (settled : node.Settled) : (jobNode accounts swarmIds node.swarm node).Settled := by
  have both : (jobNode accounts swarmIds node.swarm node).Settled ∧
      (jobNode accounts swarmIds node.swarm node).swarm = node.swarm := by
    refine List.foldlRecOn
      (motive := fun current : SNode => current.Settled ∧ current.swarm = node.swarm)
      accounts _ ?_ ?_
    · exact ⟨settled.removeStaleSwarmMembers swarmIds, rfl⟩
    · rintro current ⟨currentSettled, same⟩ account _
      split_ifs with belongs
      · constructor
        · exact currentSettled.addAccount (belongs.trans same.symm) false
        · rw [SNode.addAccount_swarm, same]
      · exact ⟨currentSettled, same⟩
  exact both.1

/-! ## The recheck -/

/-- The jobs of swarms whose nodes are theirs alone. -/
theorem foldl_swarmJob (accounts : List SwarmPubkey)
    {entries : List (Sigma fun _ : UInt64 => List NodeRef)} (nodup : (entries.map Sigma.fst).Nodup)
    (hive : HiveMind) (distinct : ∀ entry ∈ entries, entry.2.Nodup)
    (home : ∀ entry ∈ entries, ∀ ref ∈ entry.2, (hive.node ref).swarm = entry.1) :
    entries.foldl (fun hive entry => hive.swarmJob accounts hive.swarmIds entry.1 entry.2) hive =
      { hive with
        node := fun ref =>
          if ∃ entry ∈ entries, ref ∈ entry.2 then
            jobNode accounts hive.swarmIds (hive.node ref).swarm (hive.node ref)
          else hive.node ref } := by
  induction entries generalizing hive with
  | nil => simp
  | cons entry rest ih =>
      rw [List.map_cons, List.nodup_cons] at nodup
      have job := swarmJob_eq accounts hive.swarmIds entry.1
        (distinct entry List.mem_cons_self) hive
      have homeAfter : ∀ other ∈ rest, ∀ ref ∈ other.2,
          ((hive.swarmJob accounts hive.swarmIds entry.1 entry.2).node ref).swarm = other.1 := by
        intro other member ref inside
        rw [job]
        simp only
        split_ifs
        · rw [jobNode_swarm]
          exact home other (List.mem_cons_of_mem entry member) ref inside
        · exact home other (List.mem_cons_of_mem entry member) ref inside
      rw [List.foldl_cons, ih nodup.2 _
        (fun other member => distinct other (List.mem_cons_of_mem entry member)) homeAfter, job]
      simp only [mk.injEq, and_self, and_true, true_and]
      funext ref
      by_cases first : ref ∈ entry.2
      · -- A node of the first swarm is in none of the others.
        have swarm := home entry List.mem_cons_self ref first
        have elsewhere : ¬∃ other ∈ rest, ref ∈ other.2 := by
          rintro ⟨other, member, inside⟩
          have same := home other (List.mem_cons_of_mem entry member) ref inside
          exact nodup.1 (List.mem_map.mpr ⟨other, member, same.symm.trans swarm⟩)
        rw [if_neg elsewhere, if_pos first, if_pos ⟨entry, List.mem_cons_self, first⟩, swarm]
      · have same : (∃ other ∈ entry :: rest, ref ∈ other.2) ↔ ∃ other ∈ rest, ref ∈ other.2 := by
          rw [List.exists_mem_cons_iff, or_iff_right first]
        rw [if_neg first, if_congr same rfl rfl]

/-- What the recheck leaves behind. -/
structure Rechecked (before after : HiveMind) : Prop where
  db : after.db = before.db
  swarmIds : after.swarmIds = before.swarmIds
  lastBlock : after.lastBlock = before.lastBlock
  sameIndex : SameIndex before after
  subscribers : after.subscribers = before.refreshSubscribers.subscribers
  subs : ∀ ref id, id ∈ (after.node ref).subs ↔
    id ∈ (before.node ref).subs ∨
      ref ∈ before.swarmNodes (before.node ref).swarm ∧ id ∈ before.subscribers ∧
        swarmOf before.swarmIds id = (before.node ref).swarm
  settled : ∀ ref, (after.node ref).Settled

theorem lookup_refreshSubscribers (hive : HiveMind) (id : AccountID) :
    hive.refreshSubscribers.subscribers.lookup id =
      (hive.subscribers.lookup id).map fun subscriber =>
        { subscriber with
          key := { subscriber.key with swarm := swarmOf hive.swarmIds subscriber.key.id } } := by
  rw [refreshSubscribers]
  simp only [Map.lookup_mapVal, SwarmPubkey.updateSwarm_fst]

theorem mem_refreshSubscribers (hive : HiveMind) (id : AccountID) :
    id ∈ hive.refreshSubscribers.subscribers ↔ id ∈ hive.subscribers :=
  SNode.mem_mapVal

/-- The accounts of a swarm as the jobs see them. -/
theorem Tracked.exists_account_iff {hive : HiveMind} (tracked : Tracked hive) (order : List Nat)
    (swarm : UInt64) (id : AccountID) :
    (∃ account ∈ shuffle order
        (hive.refreshSubscribers.subscribers.entries.map fun entry => entry.2.key),
        account.swarm = swarm ∧ account.id = id) ↔
      id ∈ hive.subscribers ∧ swarmOf hive.swarmIds id = swarm := by
  simp only [mem_shuffle, List.mem_map]
  constructor
  · rintro ⟨account, ⟨⟨other, subscriber⟩, member, rfl⟩, belongs, rfl⟩
    have found := (Map.mem_entries_iff_lookup _ _ _).mp member
    rw [lookup_refreshSubscribers] at found
    obtain ⟨old, oldFound, rfl⟩ := Option.map_eq_some_iff.mp found
    have keyed := tracked.keyed oldFound
    simp only at belongs ⊢
    rw [keyed] at belongs ⊢
    exact ⟨AList.lookup_isSome.mp (Option.isSome_of_eq_some oldFound), belongs⟩
  · rintro ⟨member, belongs⟩
    obtain ⟨subscriber, found⟩ := Option.isSome_iff_exists.mp (AList.lookup_isSome.mpr member)
    have keyed := tracked.keyed found
    have after := lookup_refreshSubscribers hive id
    rw [found] at after
    refine ⟨_, ⟨⟨id, _⟩, (Map.mem_entries_iff_lookup _ _ _).mpr after, rfl⟩, ?_, keyed⟩
    simp only
    rw [keyed, belongs]

theorem Indexed.mem_entries_iff {hive : HiveMind} (indexed : Indexed hive) (ref : NodeRef) :
    (∃ entry ∈ hive.swarms.entries, ref ∈ entry.2) ↔
      ref ∈ hive.swarmNodes (hive.node ref).swarm := by
  have nodes : ∀ entry ∈ hive.swarms.entries, hive.swarmNodes entry.1 = entry.2 := by
    rintro ⟨swarm, refs⟩ member
    have found := (Map.mem_entries_iff_lookup _ _ _).mp member
    simp [swarmNodes, Map.getD, found]
  constructor
  · rintro ⟨entry, member, inside⟩
    rw [← nodes entry member] at inside
    rw [indexed.swarm_eq inside]
    exact inside
  · intro inside
    cases found : hive.swarms.lookup (hive.node ref).swarm with
    | none => simp [swarmNodes, Map.getD, found] at inside
    | some refs =>
        refine ⟨⟨_, refs⟩, (Map.mem_entries_iff_lookup _ _ _).mpr found, ?_⟩
        simpa [swarmNodes, Map.getD, found] using inside

theorem Tracked.recheck {hive : HiveMind} (tracked : Tracked hive) (indexed : Indexed hive)
    (env : Env) (moment : Moment) : Rechecked hive (hive.recheck env moment) := by
  let refreshed := hive.refreshSubscribers
  let accounts := shuffle moment.accountOrder
    (refreshed.subscribers.entries.map fun entry => entry.2.key)
  let job : NodeRef → SNode := fun ref =>
    if ref ∈ hive.swarmNodes (hive.node ref).swarm then
      jobNode accounts hive.swarmIds (hive.node ref).swarm (hive.node ref)
    else hive.node ref
  have nodup : (hive.swarms.entries.map Sigma.fst).Nodup := hive.swarms.nodupKeys
  have nodes : ∀ entry ∈ hive.swarms.entries, hive.swarmNodes entry.1 = entry.2 := by
    rintro ⟨swarm, refs⟩ member
    have found := (Map.mem_entries_iff_lookup _ _ _).mp member
    simp [swarmNodes, Map.getD, found]
  have folded : hive.swarms.entries.foldl
      (fun hive entry => hive.swarmJob accounts hive.swarmIds entry.1 entry.2) refreshed =
      { refreshed with node := job } := by
    refine (foldl_swarmJob accounts nodup refreshed ?_ ?_).trans ?_
    · intro entry member
      rw [← nodes entry member]
      exact indexed.nodup entry.1
    · intro entry member ref inside
      rw [← nodes entry member] at inside
      exact indexed.swarm_eq inside
    · simp only [mk.injEq, and_self, and_true, true_and]
      funext ref
      exact if_congr (indexed.mem_entries_iff ref) rfl rfl
  have keeps : KeepsAccounts { refreshed with node := job } (hive.recheck env moment) := by
    have checked := KeepsAccounts.checkSubs env moment { refreshed with node := job }
    rw [← folded] at checked ⊢
    exact checked
  have jobSwarm : ∀ ref, (job ref).swarm = (hive.node ref).swarm := by
    intro ref
    simp only [job]
    split_ifs
    · exact jobNode_swarm _ _ _ _
    · rfl
  have jobSubs : ∀ ref id, id ∈ (job ref).subs ↔ id ∈ (hive.node ref).subs ∨
      ref ∈ hive.swarmNodes (hive.node ref).swarm ∧ id ∈ hive.subscribers ∧
        swarmOf hive.swarmIds id = (hive.node ref).swarm := by
    intro ref id
    simp only [job]
    split_ifs with member
    · rw [mem_subs_jobNode (tracked.settled ref),
        tracked.exists_account_iff moment.accountOrder (hive.node ref).swarm id]
      simp [member]
    · simp [member]
  have jobSettled : ∀ ref, (job ref).Settled := by
    intro ref
    simp only [job]
    split_ifs
    · exact settled_jobNode (tracked.settled ref)
    · exact tracked.settled ref
  refine ⟨keeps.db, keeps.swarmIds, keeps.lastBlock, ?_, keeps.subscribers, ?_, ?_⟩
  · exact ⟨keeps.sns, keeps.swarmNodes, keeps.nodeCount,
      fun ref => (keeps.swarm ref).trans (jobSwarm ref)⟩
  · intro ref id
    rw [keeps.subs]
    exact jobSubs ref id
  · intro ref
    exact settled_of_subset (jobSettled ref) (keeps.swarm ref) (keeps.subs ref) (keeps.live ref)

theorem Rechecked.tracked {before after : HiveMind} (rechecked : Rechecked before after)
    (tracked : Tracked before) : Tracked after where
  settled := rechecked.settled
  known := by
    intro ref id held
    rw [rechecked.subscribers, mem_refreshSubscribers]
    rcases (rechecked.subs ref id).mp held with old | ⟨-, member, -⟩
    · exact tracked.known old
    · exact member
  keyed := by
    intro id subscriber found
    rw [rechecked.subscribers, lookup_refreshSubscribers] at found
    obtain ⟨old, oldFound, rfl⟩ := Option.map_eq_some_iff.mp found
    exact @tracked.keyed _ old oldFound

/-! ## Coverage -/

/-- Every account is monitored by every node of its swarm. -/
structure Covered (hive : HiveMind) : Prop where
  cached : ∀ {id subscriber}, hive.subscribers.lookup id = some subscriber →
    subscriber.key.swarm = swarmOf hive.swarmIds id
  monitored : ∀ {id}, id ∈ hive.subscribers →
    ∀ ref ∈ hive.swarmNodes (swarmOf hive.swarmIds id), id ∈ (hive.node ref).subs

/-- The recheck establishes coverage. -/
theorem Rechecked.covered {before after : HiveMind} (rechecked : Rechecked before after)
    (tracked : Tracked before) (indexed : Indexed before) : Covered after where
  cached := by
    intro id subscriber found
    rw [rechecked.subscribers, lookup_refreshSubscribers] at found
    obtain ⟨old, oldFound, rfl⟩ := Option.map_eq_some_iff.mp found
    simp only
    rw [rechecked.swarmIds, tracked.keyed oldFound]
  monitored := by
    intro id member ref inside
    rw [rechecked.subscribers, mem_refreshSubscribers] at member
    rw [rechecked.swarmIds, rechecked.sameIndex.swarmNodes] at inside
    have swarm := indexed.swarm_eq inside
    rw [rechecked.subs, swarm]
    exact Or.inr ⟨inside, member, rfl⟩

/-- Coverage survives changes that keep accounts and swarm ids and add no node
to a swarm. -/
theorem Covered.of_keepsMembers {before after : HiveMind} (covered : Covered before)
    (keeps : KeepsMembers before after)
    (subset : ∀ swarm, ∀ ref ∈ after.swarmNodes swarm, ref ∈ before.swarmNodes swarm) :
    Covered after where
  cached found := by
    rw [keeps.subscribers] at found
    rw [keeps.swarmIds]
    exact covered.cached found
  monitored member ref inside := by
    rw [keeps.subscribers] at member
    rw [keeps.swarmIds] at inside
    rw [keeps.subs]
    exact covered.monitored member ref (subset _ ref inside)

end Spns.HiveMind
