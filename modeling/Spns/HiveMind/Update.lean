import Spns.HiveMind.Index

/-!
# Updating the node indexes

`on_sns_response` first drops the nodes that the reply does not list and then
goes through the listed ones.  `Drops` and `Updating` say what these two loops
have done to the indexes and to the accounts of the nodes; `Updating` holds
after every turn of the second loop, so also where the loop throws.
-/

namespace Spns.HiveMind

open Spns.Hive
open Spns.Lib.Unordered

/-! ## Nodes that are no longer listed -/

/-- `after` is `before` without the nodes that `listing` lacks. -/
structure Drops (listing : Map Ed25519PK SnDetails) (before after : HiveMind) : Prop
    extends KeepsMembers before after where
  lookup : ∀ key, after.sns.lookup key = if key ∈ listing then before.sns.lookup key else none
  subset : ∀ {swarm ref}, ref ∈ after.swarmNodes swarm → ref ∈ before.swarmNodes swarm

theorem dropNode_keepsMembers (hive : HiveMind) (entry : Sigma fun _ : Ed25519PK => NodeRef) :
    KeepsMembers hive (hive.dropNode entry) := by
  have closed := KeepsAccounts.disconnect entry.2
    (hive.eraseSwarmNode (hive.node entry.2).swarm entry.2)
  exact ⟨closed.db, closed.swarmIds, closed.subscribers, closed.lastBlock, closed.nodeCount,
    closed.swarm, closed.subs, closed.live⟩

theorem foldl_dropNode {hive : HiveMind} (indexed : Indexed hive)
    {entries : List (Sigma fun _ : Ed25519PK => NodeRef)} (nodup : (entries.map Sigma.fst).Nodup)
    (present : ∀ entry ∈ entries, hive.sns.lookup entry.1 = some entry.2) :
    Indexed (entries.foldl dropNode hive) ∧ KeepsMembers hive (entries.foldl dropNode hive) ∧
      (∀ key, (entries.foldl dropNode hive).sns.lookup key =
        if key ∈ entries.map Sigma.fst then none else hive.sns.lookup key) ∧
      ∀ swarm ref, ref ∈ (entries.foldl dropNode hive).swarmNodes swarm →
        ref ∈ hive.swarmNodes swarm := by
  induction entries generalizing hive with
  | nil => exact ⟨indexed, KeepsMembers.refl hive, fun key => by simp, fun _ _ member => member⟩
  | cons entry rest ih =>
      have found := present entry List.mem_cons_self
      rw [List.map_cons, List.nodup_cons] at nodup
      have later : ∀ other ∈ rest, (hive.dropNode entry).sns.lookup other.1 = some other.2 := by
        intro other member
        rw [dropNode_sns, Map.lookup_erase_eq, if_neg]
        · exact present other (List.mem_cons_of_mem entry member)
        · intro equal
          exact nodup.1 (equal ▸ List.mem_map_of_mem member)
      obtain ⟨indexedAfter, keeps, lookup, subset⟩ := ih (indexed.dropNode found) nodup.2 later
      refine ⟨indexedAfter, (dropNode_keepsMembers hive entry).trans keeps, ?_, ?_⟩
      · intro key
        rw [List.foldl_cons, lookup, dropNode_sns, Map.lookup_erase_eq]
        by_cases first : key = entry.1
        · simp [first]
        · have same : key ∈ (entry :: rest).map Sigma.fst ↔ key ∈ rest.map Sigma.fst := by
            rw [List.map_cons, List.mem_cons, or_iff_right first]
          rw [if_neg first, if_congr same rfl rfl]
      · intro swarm ref member
        have old := subset swarm ref member
        rw [dropNode_swarmNodes, indexed.mem_eraseSwarmNode] at old
        exact old.2

theorem Indexed.dropNodes {hive : HiveMind} (indexed : Indexed hive)
    (listing : Map Ed25519PK SnDetails) :
    Indexed (hive.dropNodes listing) ∧ Drops listing hive (hive.dropNodes listing) := by
  let gone := hive.sns.entries.filter fun entry => entry.1 ∉ listing
  have nodup : (gone.map Sigma.fst).Nodup :=
    List.Nodup.sublist (List.filter_sublist.map Sigma.fst) hive.sns.nodupKeys
  have present : ∀ entry ∈ gone, hive.sns.lookup entry.1 = some entry.2 := by
    intro entry member
    exact (Map.mem_entries_iff_lookup _ _ _).mp (List.mem_filter.mp member).1
  obtain ⟨indexedAfter, keeps, lookup, subset⟩ := foldl_dropNode indexed nodup present
  refine ⟨indexedAfter, keeps, fun key => ?_, fun member => subset _ _ member⟩
  apply (lookup key).trans
  by_cases listed : key ∈ listing
  · have stays : key ∉ gone.map Sigma.fst := by
      intro member
      obtain ⟨entry, inGone, rfl⟩ := List.mem_map.mp member
      simpa [listed] using (List.mem_filter.mp inGone).2
    rw [if_neg stays, if_pos listed]
  · rw [if_neg listed]
    split_ifs with member
    · rfl
    · cases found : hive.sns.lookup key with
      | none => rfl
      | some ref =>
          have entry := (Map.mem_entries_iff_lookup hive.sns key ref).mpr found
          have inGone : ⟨key, ref⟩ ∈ gone := List.mem_filter.mpr ⟨entry, by simpa using listed⟩
          exact absurd (List.mem_map_of_mem inGone) member

/-! ## One turn of the update loop -/

/-- What one turn does: it leaves a node in place, moves it or makes it. -/
theorem updateNode_cases (env : Env) (now : SteadyTime) (key : Ed25519PK) (details : SnDetails)
    (ip : Bytes) (hive : HiveMind) (changed : List NodeRef) :
    (∃ ref, hive.sns.lookup key = some ref ∧ (hive.node ref).swarm = details.swarm ∧
        KeepsAccounts hive (updateNode env now key details ip (hive, changed)).1 ∧
        (updateNode env now key details ip (hive, changed)).2 = changed) ∨
      (∃ ref, hive.sns.lookup key = some ref ∧ (hive.node ref).swarm ≠ details.swarm ∧
        KeepsAccounts (hive.moveNode ref details.swarm)
          (updateNode env now key details ip (hive, changed)).1 ∧
        (updateNode env now key details ip (hive, changed)).2 = List.insert ref changed) ∨
      (hive.sns.lookup key = none ∧
        (updateNode env now key details ip (hive, changed)) =
          (hive.newNode env now key ⟨key, ip, details.port⟩ details.swarm,
            List.insert hive.nodeCount changed)) := by
  cases found : hive.sns.lookup key with
  | none => exact Or.inr (Or.inr ⟨rfl, by simp only [updateNode, found]⟩)
  | some ref =>
      by_cases moved : (hive.node ref).swarm = details.swarm
      · refine Or.inl ⟨ref, rfl, moved, ?_⟩
        simp only [updateNode, found, moved, ne_eq, not_true_eq_false, if_false, and_true]
        exact KeepsAccounts.connectTo env now ref _ hive
      · refine Or.inr (Or.inl ⟨ref, rfl, moved, ?_⟩)
        simp only [updateNode, found, moved, ne_eq, not_false_eq_true, if_true, and_true]
        exact KeepsAccounts.connectTo env now ref _ _

/-- What holds after every turn of the loop that started at `start`. -/
structure Updating (start : HiveMind) (listing : Map Ed25519PK SnDetails)
    (state : HiveMind × List NodeRef) : Prop where
  indexed : Indexed state.1
  db : state.1.db = start.db
  swarmIds : state.1.swarmIds = start.swarmIds
  subscribers : state.1.subscribers = start.subscribers
  lastBlock : state.1.lastBlock = start.lastBlock
  nodeCount : start.nodeCount ≤ state.1.nodeCount
  /-- New and moved nodes hold no account. -/
  reset : ∀ ref ∈ state.2, (state.1.node ref).subs = ∅ ∧ (state.1.node ref).liveAccounts = []
  /-- All other nodes hold what they held. -/
  kept : ∀ ref ∉ state.2, (state.1.node ref).swarm = (start.node ref).swarm ∧
    (state.1.node ref).subs = (start.node ref).subs ∧
    ∀ key ∈ (state.1.node ref).liveAccounts, key ∈ (start.node ref).liveAccounts
  grows : ∀ {key ref}, start.sns.lookup key = some ref → state.1.sns.lookup key = some ref
  origin : ∀ {key ref}, state.1.sns.lookup key = some ref →
    start.sns.lookup key = some ref ∨ ref ∈ state.2
  moved : ∀ ref ∈ state.2, ∀ key details, listing.lookup key = some details →
    start.sns.lookup key = some ref → (start.node ref).swarm ≠ details.swarm
  idle : state.2 = [] → KeepsAccounts start state.1

theorem Updating.refl {start : HiveMind} (indexed : Indexed start)
    (listing : Map Ed25519PK SnDetails) : Updating start listing (start, []) where
  indexed := indexed
  db := rfl
  swarmIds := rfl
  subscribers := rfl
  lastBlock := rfl
  nodeCount := le_rfl
  reset ref member := by simp at member
  kept ref _ := ⟨rfl, rfl, fun _ live => live⟩
  grows found := found
  origin found := Or.inl found
  moved ref member := by simp at member
  idle _ := KeepsAccounts.refl start

/-- Connection changes after a turn do not matter. -/
theorem Updating.of_keepsAccounts {start : HiveMind} {listing : Map Ed25519PK SnDetails}
    {hive after : HiveMind} {changed : List NodeRef} (updating : Updating start listing (hive, changed))
    (keeps : KeepsAccounts hive after) : Updating start listing (after, changed) where
  indexed := updating.indexed.of_sameIndex keeps.sameIndex
  db := keeps.db.trans updating.db
  swarmIds := keeps.swarmIds.trans updating.swarmIds
  subscribers := keeps.subscribers.trans updating.subscribers
  lastBlock := keeps.lastBlock.trans updating.lastBlock
  nodeCount := by
    have bound := updating.nodeCount
    rwa [← keeps.nodeCount] at bound
  reset ref member := by
    obtain ⟨empty, idle⟩ := updating.reset ref member
    constructor
    · exact (keeps.subs ref).trans empty
    · rw [List.eq_nil_iff_forall_not_mem]
      intro key live
      have old := keeps.live ref key live
      rw [idle] at old
      contradiction
  kept ref fresh := by
    obtain ⟨swarm, subs, live⟩ := updating.kept ref fresh
    exact ⟨(keeps.swarm ref).trans swarm, (keeps.subs ref).trans subs,
      fun key member => live key (keeps.live ref key member)⟩
  grows found := by
    rw [keeps.sns]
    exact updating.grows found
  origin found := by
    rw [keeps.sns] at found
    exact updating.origin found
  moved := updating.moved
  idle empty := (updating.idle empty).trans keeps

theorem moveNode_node (hive : HiveMind) (ref other : NodeRef) (swarm : UInt64) :
    (hive.moveNode ref swarm).node other =
      if other = ref then (hive.node ref).resetSwarm swarm else hive.node other := by
  rw [moveNode]
  exact modifyNode_node _ ref other _

theorem Updating.move {start hive : HiveMind} {listing : Map Ed25519PK SnDetails}
    {changed : List NodeRef} (updating : Updating start listing (hive, changed))
    {key : Ed25519PK} {details : SnDetails}
    (listed : listing.lookup key = some details) {ref : NodeRef}
    (found : hive.sns.lookup key = some ref) (distinct : (hive.node ref).swarm ≠ details.swarm) :
    Updating start listing (hive.moveNode ref details.swarm, List.insert ref changed) where
  indexed := updating.indexed.moveNode found details.swarm
  db := updating.db
  swarmIds := updating.swarmIds
  subscribers := updating.subscribers
  lastBlock := updating.lastBlock
  nodeCount := updating.nodeCount
  reset other member := by
    simp only [moveNode_node]
    split_ifs with equal
    · exact ⟨rfl, rfl⟩
    · exact updating.reset other (((List.mem_insert_iff).mp member).resolve_left equal)
  kept other fresh := by
    simp only [List.mem_insert_iff, not_or] at fresh
    simp only [moveNode_node, if_neg fresh.1]
    exact updating.kept other fresh.2
  grows := updating.grows
  origin old := (updating.origin old).imp_right List.mem_insert_of_mem
  moved other member otherKey otherDetails otherListed startFound := by
    rcases List.mem_insert_iff.mp member with rfl | old
    · by_cases already : other ∈ changed
      · exact updating.moved other already otherKey otherDetails otherListed startFound
      · have same := (updating.kept other already).1
        have keyEq : key = otherKey :=
          updating.indexed.injective found (updating.grows startFound)
        subst keyEq
        rw [listed] at otherListed
        cases otherListed
        rw [← same]
        exact distinct
    · exact updating.moved other old otherKey otherDetails otherListed startFound
  idle empty := by
    have member : ref ∈ List.insert ref changed := List.mem_insert_self
    have none : List.insert ref changed = [] := empty
    rw [none] at member
    contradiction

theorem newNode_node_accounts (env : Env) (now : SteadyTime) (key : Ed25519PK)
    (addr : RemoteAddress) (swarm : UInt64) (hive : HiveMind) (other : NodeRef) :
    ((hive.newNode env now key addr swarm).node other).subs =
        (if other = hive.nodeCount then ∅ else (hive.node other).subs) ∧
      ∀ account ∈ ((hive.newNode env now key addr swarm).node other).liveAccounts,
        other ≠ hive.nodeCount ∧ account ∈ (hive.node other).liveAccounts := by
  have kept := newNode_keeps env now addr swarm hive
  constructor
  · apply (kept.subs other).trans
    simp only [Function.update_apply]
    split_ifs <;> rfl
  · intro account live
    have old := kept.live other account live
    simp only [Function.update_apply] at old
    split_ifs at old with equal
    · simp [SNode.liveAccounts, SNode.create] at old
    · exact ⟨equal, old⟩

theorem Updating.create {start hive : HiveMind} {listing : Map Ed25519PK SnDetails}
    {changed : List NodeRef} (updating : Updating start listing (hive, changed))
    (startIndexed : Indexed start) (env : Env) (now : SteadyTime) {key : Ed25519PK}
    (fresh : hive.sns.lookup key = none) (addr : RemoteAddress) (swarm : UInt64) :
    Updating start listing
      (hive.newNode env now key addr swarm, List.insert hive.nodeCount changed) := by
  have keeps := newNode_keeps env now addr swarm hive
  refine ⟨updating.indexed.newNode env now fresh addr swarm, keeps.db.trans updating.db,
    keeps.swarmIds.trans updating.swarmIds, keeps.subscribers.trans updating.subscribers,
    keeps.lastBlock.trans updating.lastBlock, ?_, ?_, ?_, ?_, ?_, ?_, ?_⟩
  · rw [newNode_nodeCount]
    exact updating.nodeCount.trans (Nat.le_succ _)
  · intro ref member
    obtain ⟨subs, live⟩ := newNode_node_accounts env now key addr swarm hive ref
    rw [List.mem_insert_iff] at member
    by_cases equal : ref = hive.nodeCount
    · rw [if_pos equal] at subs
      refine ⟨subs, List.eq_nil_iff_forall_not_mem.mpr fun account queued => ?_⟩
      exact (live account queued).1 equal
    · obtain ⟨empty, idle⟩ := updating.reset ref (member.resolve_left equal)
      rw [if_neg equal] at subs
      refine ⟨subs.trans empty, List.eq_nil_iff_forall_not_mem.mpr fun account queued => ?_⟩
      have old := (live account queued).2
      rw [idle] at old
      contradiction
  · intro ref outside
    simp only [List.mem_insert_iff, not_or] at outside
    obtain ⟨subs, live⟩ := newNode_node_accounts env now key addr swarm hive ref
    obtain ⟨oldSwarm, oldSubs, oldLive⟩ := updating.kept ref outside.2
    simp only at oldSwarm oldSubs oldLive
    rw [if_neg outside.1] at subs
    refine ⟨?_, subs.trans oldSubs, fun account queued => oldLive account (live account queued).2⟩
    rw [newNode_node_swarm, if_neg outside.1, oldSwarm]
  · intro other ref found
    have before := updating.grows found
    rw [newNode_sns, Map.lookup_insert_eq, if_neg]
    · exact before
    · rintro rfl
      rw [fresh] at before
      contradiction
  · intro other ref found
    rw [newNode_sns, Map.lookup_insert_eq] at found
    split_ifs at found
    · cases found
      exact Or.inr List.mem_insert_self
    · exact (updating.origin found).imp_right List.mem_insert_of_mem
  · intro ref member other details listed found
    rcases List.mem_insert_iff.mp member with rfl | old
    · exact absurd (startIndexed.bounded found) (not_lt.mpr updating.nodeCount)
    · exact updating.moved ref old other details listed found
  · intro empty
    have member : hive.nodeCount ∈ List.insert hive.nodeCount changed := List.mem_insert_self
    have none : List.insert hive.nodeCount changed = [] := empty
    rw [none] at member
    contradiction

theorem Updating.turn {start : HiveMind} {listing : Map Ed25519PK SnDetails}
    {state : HiveMind × List NodeRef} (updating : Updating start listing state)
    (startIndexed : Indexed start) (env : Env) (now : SteadyTime) {key : Ed25519PK}
    {details : SnDetails} (listed : listing.lookup key = some details) (ip : Bytes) :
    Updating start listing (updateNode env now key details ip state) := by
  obtain ⟨hive, changed⟩ := state
  rcases updateNode_cases env now key details ip hive changed with
    ⟨ref, -, -, keeps, changedEq⟩ | ⟨ref, found, distinct, keeps, changedEq⟩ | ⟨fresh, equal⟩
  · have pair : updateNode env now key details ip (hive, changed) = (_, changed) :=
      Prod.ext rfl changedEq
    rw [pair]
    exact updating.of_keepsAccounts keeps
  · have pair : updateNode env now key details ip (hive, changed) = (_, List.insert ref changed) :=
      Prod.ext rfl changedEq
    rw [pair]
    exact (updating.move listed found distinct).of_keepsAccounts keeps
  · rw [equal]
    exact updating.create startIndexed env now fresh _ _

/-! ## The whole loop -/

/-- The invariant of the loop holds wherever the loop ends. -/
theorem Updating.updateNodes {start : HiveMind} {listing : Map Ed25519PK SnDetails}
    {state : HiveMind × List NodeRef} (updating : Updating start listing state)
    (startIndexed : Indexed start) (env : Env) (now : SteadyTime)
    {entries : List (Sigma fun _ : Ed25519PK => SnDetails)}
    (listed : ∀ entry ∈ entries, listing.lookup entry.1 = some entry.2) :
    Updating start listing (HiveMind.updateNodes env now entries state).1 := by
  induction entries generalizing state with
  | nil => exact updating
  | cons entry rest ih =>
      rw [HiveMind.updateNodes]
      cases parsed : env.parseIp entry.2.ip with
      | none => exact updating
      | some ip =>
          exact ih (updating.turn startIndexed env now (listed entry List.mem_cons_self) ip)
            fun other member => listed other (List.mem_cons_of_mem entry member)

/-- A turn for one key leaves the nodes of other keys in their swarms. -/
theorem Indexed.updateNode_other {hive : HiveMind} (indexed : Indexed hive) (env : Env)
    (now : SteadyTime) {key other : Ed25519PK} (distinct : other ≠ key) (details : SnDetails)
    (ip : Bytes) (changed : List NodeRef) {ref : NodeRef}
    (found : hive.sns.lookup other = some ref) :
    (updateNode env now key details ip (hive, changed)).1.sns.lookup other = some ref ∧
      ((updateNode env now key details ip (hive, changed)).1.node ref).swarm =
        (hive.node ref).swarm := by
  rcases updateNode_cases env now key details ip hive changed with
    ⟨moved, -, -, keeps, -⟩ | ⟨moved, movedFound, -, keeps, -⟩ | ⟨-, equal⟩
  · rw [keeps.sns, keeps.swarm]
    exact ⟨found, rfl⟩
  · rw [keeps.sns, keeps.swarm, moveNode_node_swarm, if_neg]
    · exact ⟨found, rfl⟩
    · rintro rfl
      exact distinct (indexed.injective found movedFound)
  · rw [equal]
    simp only [newNode_sns, Map.lookup_insert_eq, if_neg distinct, newNode_node_swarm,
      if_neg (indexed.bounded found).ne]
    exact ⟨found, trivial⟩

/-- A turn puts the node of its key into the listed swarm. -/
theorem updateNode_self (env : Env) (now : SteadyTime) (key : Ed25519PK) (details : SnDetails)
    (ip : Bytes) (hive : HiveMind) (changed : List NodeRef) :
    ∃ ref, (updateNode env now key details ip (hive, changed)).1.sns.lookup key = some ref ∧
      ((updateNode env now key details ip (hive, changed)).1.node ref).swarm = details.swarm := by
  rcases updateNode_cases env now key details ip hive changed with
    ⟨ref, found, same, keeps, -⟩ | ⟨ref, found, -, keeps, -⟩ | ⟨-, equal⟩
  · refine ⟨ref, ?_, ?_⟩
    · rw [keeps.sns, found]
    · rw [keeps.swarm, same]
  · refine ⟨ref, ?_, ?_⟩
    · rw [keeps.sns]
      exact found
    · rw [keeps.swarm, moveNode_node_swarm, if_pos rfl]
  · refine ⟨hive.nodeCount, ?_, ?_⟩
    · rw [equal, newNode_sns, Map.lookup_insert_eq, if_pos rfl]
    · rw [equal, newNode_node_swarm, if_pos rfl]

theorem Indexed.updateNode {hive : HiveMind} (indexed : Indexed hive) (env : Env)
    (now : SteadyTime) (key : Ed25519PK) (details : SnDetails) (ip : Bytes)
    (changed : List NodeRef) :
    Indexed (HiveMind.updateNode env now key details ip (hive, changed)).1 := by
  rcases updateNode_cases env now key details ip hive changed with
    ⟨ref, -, -, keeps, -⟩ | ⟨ref, found, -, keeps, -⟩ | ⟨fresh, equal⟩
  · exact indexed.of_sameIndex keeps.sameIndex
  · exact (indexed.moveNode found details.swarm).of_sameIndex keeps.sameIndex
  · rw [equal]
    exact indexed.newNode env now fresh _ _

/-- The rest of the loop leaves a node whose key it does not visit. -/
theorem Indexed.updateNodes_other {hive : HiveMind} (indexed : Indexed hive) (env : Env)
    (now : SteadyTime) {entries : List (Sigma fun _ : Ed25519PK => SnDetails)} {key : Ed25519PK}
    (absent : key ∉ entries.map Sigma.fst) (changed : List NodeRef) {ref : NodeRef}
    (found : hive.sns.lookup key = some ref) :
    (updateNodes env now entries (hive, changed)).1.1.sns.lookup key = some ref ∧
      ((updateNodes env now entries (hive, changed)).1.1.node ref).swarm =
        (hive.node ref).swarm := by
  induction entries generalizing hive changed with
  | nil => exact ⟨found, rfl⟩
  | cons entry rest ih =>
      simp only [List.map_cons, List.mem_cons, not_or] at absent
      rw [updateNodes]
      cases parsed : env.parseIp entry.2.ip with
      | none => exact ⟨found, rfl⟩
      | some ip =>
          obtain ⟨still, same⟩ :=
            indexed.updateNode_other env now absent.1 entry.2 ip changed found
          obtain ⟨last, equal⟩ := ih (indexed.updateNode env now entry.1 entry.2 ip changed)
            absent.2 _ still
          exact ⟨last, equal.trans same⟩

/-- A loop that ends without an exception has put every listed node into its
listed swarm. -/
theorem Indexed.updateNodes_swarm {hive : HiveMind} (indexed : Indexed hive) (env : Env)
    (now : SteadyTime) {entries : List (Sigma fun _ : Ed25519PK => SnDetails)}
    (nodup : (entries.map Sigma.fst).Nodup) (changed : List NodeRef)
    (completes : (updateNodes env now entries (hive, changed)).2 = none)
    {entry : Sigma fun _ : Ed25519PK => SnDetails} (member : entry ∈ entries) :
    ∃ ref, (updateNodes env now entries (hive, changed)).1.1.sns.lookup entry.1 = some ref ∧
      ((updateNodes env now entries (hive, changed)).1.1.node ref).swarm = entry.2.swarm := by
  induction entries generalizing hive changed with
  | nil => contradiction
  | cons first rest ih =>
      rw [List.map_cons, List.nodup_cons] at nodup
      unfold updateNodes at completes ⊢
      cases parsed : env.parseIp first.2.ip with
      | none =>
          rw [parsed] at completes
          contradiction
      | some ip =>
          rw [parsed] at completes
          have indexedNext := indexed.updateNode env now first.1 first.2 ip changed
          rcases List.mem_cons.mp member with rfl | later
          · obtain ⟨ref, found, swarm⟩ :=
              updateNode_self env now entry.1 entry.2 ip hive changed
            obtain ⟨last, equal⟩ := indexedNext.updateNodes_other env now nodup.1 _ found
            exact ⟨ref, last, equal.trans swarm⟩
          · exact ih indexedNext nodup.2 _ completes later

end Spns.HiveMind
