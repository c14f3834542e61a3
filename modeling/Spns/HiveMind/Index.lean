import Spns.HiveMind.Frame

/-!
# The node indexes

`sns_` and `swarms_` index the same nodes.  `Indexed` is the invariant that
ties them together: a node is in the set of its own swarm, in no other set,
and every node of a set is listed in `sns_`.  Every operation on the indexes
keeps it, including the update loop up to any point where it may throw.
-/

namespace Spns.HiveMind

open Spns.Hive
open Spns.Lib.Unordered

/-- `sns_` and `swarms_` agree. -/
structure Indexed (hive : HiveMind) : Prop where
  swarm_eq : ∀ {swarm ref}, ref ∈ hive.swarmNodes swarm → (hive.node ref).swarm = swarm
  nodup : ∀ swarm, (hive.swarmNodes swarm).Nodup
  listed : ∀ {key ref}, hive.sns.lookup key = some ref →
    ref ∈ hive.swarmNodes (hive.node ref).swarm
  owned : ∀ {swarm ref}, ref ∈ hive.swarmNodes swarm → ∃ key, hive.sns.lookup key = some ref
  injective : ∀ {key other ref}, hive.sns.lookup key = some ref →
    hive.sns.lookup other = some ref → key = other
  bounded : ∀ {key ref}, hive.sns.lookup key = some ref → ref < hive.nodeCount

/-- `after` has the same indexes as `before`. -/
structure SameIndex (before after : HiveMind) : Prop where
  sns : after.sns = before.sns
  swarmNodes : ∀ swarm, after.swarmNodes swarm = before.swarmNodes swarm
  nodeCount : after.nodeCount = before.nodeCount
  swarm : ∀ ref, (after.node ref).swarm = (before.node ref).swarm

theorem KeepsAccounts.sameIndex {before after : HiveMind} (keeps : KeepsAccounts before after) :
    SameIndex before after :=
  ⟨keeps.sns, keeps.swarmNodes, keeps.nodeCount, keeps.swarm⟩

theorem Indexed.of_sameIndex {before after : HiveMind} (indexed : Indexed before)
    (same : SameIndex before after) : Indexed after where
  swarm_eq member := by
    rw [same.swarmNodes] at member
    rw [same.swarm]
    exact indexed.swarm_eq member
  nodup swarm := by
    rw [same.swarmNodes]
    exact indexed.nodup swarm
  listed found := by
    rw [same.sns] at found
    rw [same.swarm, same.swarmNodes]
    exact indexed.listed found
  owned member := by
    rw [same.swarmNodes] at member
    rw [same.sns]
    exact indexed.owned member
  injective first second := by
    rw [same.sns] at first second
    exact indexed.injective first second
  bounded found := by
    rw [same.sns] at found
    rw [same.nodeCount]
    exact indexed.bounded found

theorem indexed_of_empty {hive : HiveMind} (noNodes : hive.sns = ∅) (noSwarms : hive.swarms = ∅) :
    Indexed hive where
  swarm_eq member := by simp [swarmNodes, noSwarms, Map.getD] at member
  nodup swarm := by simp [swarmNodes, noSwarms, Map.getD]
  listed found := by simp [noNodes] at found
  owned member := by simp [swarmNodes, noSwarms, Map.getD] at member
  injective found := by simp [noNodes] at found
  bounded found := by simp [noNodes] at found

/-! ## Sets of nodes -/

theorem swarmNodes_insertSwarmNode (hive : HiveMind) (swarm other : UInt64) (ref : NodeRef) :
    (hive.insertSwarmNode swarm ref).swarmNodes other =
      if other = swarm then List.insert ref (hive.swarmNodes swarm)
      else hive.swarmNodes other := by
  simp only [swarmNodes, insertSwarmNode, Map.getD, Map.lookup_insert_eq]
  split_ifs <;> rfl

theorem swarmNodes_eraseSwarmNode (hive : HiveMind) (swarm other : UInt64) (ref : NodeRef) :
    (hive.eraseSwarmNode swarm ref).swarmNodes other =
      if other = swarm then (hive.swarmNodes swarm).erase ref else hive.swarmNodes other := by
  simp only [swarmNodes, eraseSwarmNode, Map.getD, Map.lookup_insert_eq]
  split_ifs <;> rfl

theorem swarmNodes_pruneSwarms (hive : HiveMind) (swarm : UInt64) :
    hive.pruneSwarms.swarmNodes swarm = hive.swarmNodes swarm := by
  have kept := Map.lookup_filter_eq_some_iff (fun _ nodes => nodes ≠ []) hive.swarms swarm
  unfold swarmNodes pruneSwarms Map.getD
  generalize (hive.swarms.filter fun _ nodes => nodes ≠ []).lookup swarm = after at kept ⊢
  generalize hive.swarms.lookup swarm = before at kept ⊢
  cases after with
  | some nodes => rw [((kept nodes).mp rfl).1]
  | none =>
      cases before with
      | none => rfl
      | some nodes =>
          by_cases empty : nodes = []
          · rw [empty]
            rfl
          · have survives := (kept nodes).mpr ⟨rfl, by simpa using empty⟩
            contradiction

theorem sameIndex_pruneSwarms (hive : HiveMind) : SameIndex hive hive.pruneSwarms :=
  ⟨rfl, swarmNodes_pruneSwarms hive, rfl, fun _ => rfl⟩

theorem Indexed.mem_swarmNodes_iff {hive : HiveMind} (indexed : Indexed hive) {key : Ed25519PK}
    {ref : NodeRef} (found : hive.sns.lookup key = some ref) (swarm : UInt64) :
    ref ∈ hive.swarmNodes swarm ↔ (hive.node ref).swarm = swarm := by
  constructor
  · exact indexed.swarm_eq
  · rintro rfl
    exact indexed.listed found

/-! ## Dropping, moving and adding nodes -/

/-- After a node is taken out of its set, no set holds it. -/
theorem Indexed.mem_eraseSwarmNode {hive : HiveMind} (indexed : Indexed hive) {ref other : NodeRef}
    {swarm : UInt64} :
    other ∈ (hive.eraseSwarmNode (hive.node ref).swarm ref).swarmNodes swarm ↔
      other ≠ ref ∧ other ∈ hive.swarmNodes swarm := by
  rw [swarmNodes_eraseSwarmNode]
  split_ifs with equal
  · subst equal
    exact (indexed.nodup _).mem_erase_iff
  · constructor
    · intro member
      constructor
      · rintro rfl
        exact equal (indexed.swarm_eq member).symm
      · exact member
    · exact And.right

theorem Indexed.nodup_eraseSwarmNode {hive : HiveMind} (indexed : Indexed hive) (ref : NodeRef)
    (swarm other : UInt64) : ((hive.eraseSwarmNode swarm ref).swarmNodes other).Nodup := by
  rw [swarmNodes_eraseSwarmNode]
  split_ifs
  · exact (indexed.nodup swarm).erase ref
  · exact indexed.nodup other

theorem dropNode_sns (hive : HiveMind) (key : Ed25519PK) (ref : NodeRef) :
    (hive.dropNode ⟨key, ref⟩).sns = hive.sns.erase key := by
  rw [dropNode]
  simp only
  rw [(KeepsAccounts.disconnect ref _).sns]
  rfl

theorem dropNode_swarmNodes (hive : HiveMind) (key : Ed25519PK) (ref : NodeRef) (swarm : UInt64) :
    (hive.dropNode ⟨key, ref⟩).swarmNodes swarm =
      (hive.eraseSwarmNode (hive.node ref).swarm ref).swarmNodes swarm :=
  (KeepsAccounts.disconnect ref _).swarmNodes swarm

theorem dropNode_node_swarm (hive : HiveMind) (key : Ed25519PK) (ref other : NodeRef) :
    ((hive.dropNode ⟨key, ref⟩).node other).swarm = (hive.node other).swarm :=
  (KeepsAccounts.disconnect ref _).swarm other

theorem Indexed.dropNode {hive : HiveMind} (indexed : Indexed hive) {key : Ed25519PK}
    {ref : NodeRef} (found : hive.sns.lookup key = some ref) :
    Indexed (hive.dropNode ⟨key, ref⟩) where
  swarm_eq member := by
    rw [dropNode_swarmNodes, indexed.mem_eraseSwarmNode] at member
    rw [dropNode_node_swarm]
    exact indexed.swarm_eq member.2
  nodup swarm := by
    rw [dropNode_swarmNodes]
    exact indexed.nodup_eraseSwarmNode ref _ swarm
  listed kept := by
    rw [dropNode_sns, Map.lookup_erase_eq] at kept
    split_ifs at kept with equal
    rw [dropNode_node_swarm, dropNode_swarmNodes, indexed.mem_eraseSwarmNode]
    constructor
    · rintro rfl
      exact equal (indexed.injective kept found)
    · exact indexed.listed kept
  owned member := by
    rw [dropNode_swarmNodes, indexed.mem_eraseSwarmNode] at member
    obtain ⟨distinct, old⟩ := member
    obtain ⟨other, otherFound⟩ := indexed.owned old
    refine ⟨other, ?_⟩
    rw [dropNode_sns, Map.lookup_erase_eq, if_neg, otherFound]
    rintro rfl
    rw [found] at otherFound
    exact distinct (Option.some.inj otherFound).symm
  injective first second := by
    rw [dropNode_sns, Map.lookup_erase_eq] at first second
    split_ifs at first second
    exact indexed.injective first second
  bounded kept := by
    rw [dropNode_sns, Map.lookup_erase_eq] at kept
    split_ifs at kept
    have count : (hive.dropNode ⟨key, ref⟩).nodeCount = hive.nodeCount :=
      (KeepsAccounts.disconnect ref _).nodeCount
    rw [count]
    exact indexed.bounded kept

theorem moveNode_node_swarm (hive : HiveMind) (ref other : NodeRef) (swarm : UInt64) :
    ((hive.moveNode ref swarm).node other).swarm =
      if other = ref then swarm else (hive.node other).swarm := by
  rw [moveNode]
  simp only [insertSwarmNode, modifyNode_node]
  split_ifs <;> rfl

theorem Indexed.mem_moveNode {hive : HiveMind} (indexed : Indexed hive) {ref other : NodeRef}
    {swarm target : UInt64} :
    other ∈ (hive.moveNode ref swarm).swarmNodes target ↔
      (target = swarm ∧ other = ref) ∨ (other ≠ ref ∧ other ∈ hive.swarmNodes target) := by
  have erased : ∀ target, other ∈ (hive.eraseSwarmNode (hive.node ref).swarm ref).swarmNodes target ↔
      other ≠ ref ∧ other ∈ hive.swarmNodes target := fun _ => indexed.mem_eraseSwarmNode
  unfold moveNode
  rw [swarmNodes_insertSwarmNode]
  split_ifs with equal
  · subst equal
    rw [List.mem_insert_iff]
    exact or_congr (by simp) (erased target)
  · simp only [equal, false_and, false_or]
    exact erased target

theorem Indexed.moveNode {hive : HiveMind} (indexed : Indexed hive) {key : Ed25519PK}
    {ref : NodeRef} (found : hive.sns.lookup key = some ref) (swarm : UInt64) :
    Indexed (hive.moveNode ref swarm) where
  swarm_eq member := by
    rw [moveNode_node_swarm]
    rcases indexed.mem_moveNode.mp member with ⟨rfl, rfl⟩ | ⟨distinct, old⟩
    · simp
    · rw [if_neg distinct]
      exact indexed.swarm_eq old
  nodup target := by
    rw [HiveMind.moveNode]
    rw [swarmNodes_insertSwarmNode]
    split_ifs
    · exact (indexed.nodup_eraseSwarmNode ref _ swarm).insert
    · exact indexed.nodup_eraseSwarmNode ref _ target
  listed kept := by
    rw [moveNode_node_swarm, indexed.mem_moveNode]
    split_ifs with equal
    · exact Or.inl ⟨rfl, equal⟩
    · exact Or.inr ⟨equal, indexed.listed kept⟩
  owned member := by
    rcases indexed.mem_moveNode.mp member with ⟨-, rfl⟩ | ⟨-, old⟩
    · exact ⟨key, found⟩
    · exact indexed.owned old
  injective := indexed.injective
  bounded := indexed.bounded

/-- The state of `newNode` before the node is indexed. -/
theorem newNode_keeps (env : Env) (now : SteadyTime) (addr : RemoteAddress) (swarm : UInt64)
    (hive : HiveMind) :
    let made := { hive with
      node := Function.update hive.node hive.nodeCount (SNode.create addr swarm)
      nodeCount := hive.nodeCount + 1 }
    KeepsAccounts made (made.connect env now hive.nodeCount) :=
  KeepsAccounts.connect env now hive.nodeCount _

theorem newNode_node_swarm (env : Env) (now : SteadyTime) (key : Ed25519PK) (addr : RemoteAddress)
    (swarm : UInt64) (hive : HiveMind) (other : NodeRef) :
    ((hive.newNode env now key addr swarm).node other).swarm =
      if other = hive.nodeCount then swarm else (hive.node other).swarm := by
  apply ((newNode_keeps env now addr swarm hive).swarm other).trans
  simp only [Function.update_apply]
  split_ifs <;> rfl

theorem newNode_sns (env : Env) (now : SteadyTime) (key : Ed25519PK) (addr : RemoteAddress)
    (swarm : UInt64) (hive : HiveMind) :
    (hive.newNode env now key addr swarm).sns = hive.sns.insert key hive.nodeCount := by
  have kept := (newNode_keeps env now addr swarm hive).sns
  unfold newNode insertSwarmNode
  simp only
  rw [kept]

theorem newNode_nodeCount (env : Env) (now : SteadyTime) (key : Ed25519PK) (addr : RemoteAddress)
    (swarm : UInt64) (hive : HiveMind) :
    (hive.newNode env now key addr swarm).nodeCount = hive.nodeCount + 1 :=
  (newNode_keeps env now addr swarm hive).nodeCount

theorem newNode_swarmNodes (env : Env) (now : SteadyTime) (key : Ed25519PK) (addr : RemoteAddress)
    (swarm target : UInt64) (hive : HiveMind) :
    (hive.newNode env now key addr swarm).swarmNodes target =
      if target = swarm then List.insert hive.nodeCount (hive.swarmNodes swarm)
      else hive.swarmNodes target := by
  have kept := (newNode_keeps env now addr swarm hive).swarmNodes
  rw [newNode]
  rw [swarmNodes_insertSwarmNode]
  split_ifs
  · exact congrArg (List.insert hive.nodeCount) (kept swarm)
  · exact kept target

theorem Indexed.newNode {hive : HiveMind} (indexed : Indexed hive) (env : Env) (now : SteadyTime)
    {key : Ed25519PK} (fresh : hive.sns.lookup key = none) (addr : RemoteAddress)
    (swarm : UInt64) : Indexed (hive.newNode env now key addr swarm) := by
  have old_ne : ∀ {other ref}, hive.sns.lookup other = some ref → ref ≠ hive.nodeCount :=
    fun found => (indexed.bounded found).ne
  have member_ne : ∀ {target ref}, ref ∈ hive.swarmNodes target → ref ≠ hive.nodeCount :=
    fun member => old_ne (indexed.owned member).choose_spec
  have mem_iff : ∀ {target ref},
      ref ∈ (hive.newNode env now key addr swarm).swarmNodes target ↔
        (target = swarm ∧ ref = hive.nodeCount) ∨ ref ∈ hive.swarmNodes target := by
    intro target ref
    rw [newNode_swarmNodes]
    split_ifs with equal
    · subst equal
      simp
    · simp [equal]
  have lookup_iff : ∀ {other ref},
      (hive.newNode env now key addr swarm).sns.lookup other = some ref ↔
        (other = key ∧ ref = hive.nodeCount) ∨ hive.sns.lookup other = some ref := by
    intro other ref
    rw [newNode_sns, Map.lookup_insert_eq]
    split_ifs with equal
    · subst equal
      simp [fresh, eq_comm]
    · simp [equal]
  constructor
  · intro target ref member
    rw [newNode_node_swarm]
    rcases mem_iff.mp member with ⟨rfl, rfl⟩ | old
    · simp
    · rw [if_neg (member_ne old)]
      exact indexed.swarm_eq old
  · intro target
    rw [newNode_swarmNodes]
    split_ifs
    · exact (indexed.nodup swarm).insert
    · exact indexed.nodup target
  · intro other ref found
    rw [newNode_node_swarm, mem_iff]
    rcases lookup_iff.mp found with ⟨-, rfl⟩ | old
    · simp
    · rw [if_neg (old_ne old)]
      exact Or.inr (indexed.listed old)
  · intro target ref member
    rcases mem_iff.mp member with ⟨-, rfl⟩ | old
    · exact ⟨key, lookup_iff.mpr (Or.inl ⟨rfl, rfl⟩)⟩
    · obtain ⟨other, found⟩ := indexed.owned old
      exact ⟨other, lookup_iff.mpr (Or.inr found)⟩
  · intro first second ref firstFound secondFound
    rcases lookup_iff.mp firstFound with ⟨rfl, rfl⟩ | firstOld
    · rcases lookup_iff.mp secondFound with ⟨rfl, -⟩ | secondOld
      · rfl
      · exact absurd rfl (old_ne secondOld)
    · rcases lookup_iff.mp secondFound with ⟨rfl, rfl⟩ | secondOld
      · exact absurd rfl (old_ne firstOld)
      · exact indexed.injective firstOld secondOld
  · intro other ref found
    rw [newNode_nodeCount]
    rcases lookup_iff.mp found with ⟨-, rfl⟩ | old
    · exact Nat.lt_succ_self _
    · exact (indexed.bounded old).trans (Nat.lt_succ_self _)

end Spns.HiveMind
