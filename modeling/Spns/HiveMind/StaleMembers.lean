import Spns.HiveMind.Invariants

/-!
# Ejecting stale swarm members

`remove_stale_swarm_members` refreshes the swarm of the copies in `subs_` but
then tests the copies in `next_`, which still cache the swarm they had when
they were queued.  In every reached state those are the swarm of the node, so
nothing is ever ejected: the documented outcome is reached exactly when there
is nothing to eject.
-/

namespace Spns.Hive.SNode

/-- The live entries of the queue: account and time. -/
def liveEntries (node : SNode) : List (AccountID × SysTime) :=
  node.next.filterMap fun entry => entry.account.map fun key => (key.id, entry.time)

/-- `after` holds exactly the accounts of `node` that belong to its swarm, at
the times they had. -/
structure EjectsStale (swarmIds : List UInt64) (node after : SNode) : Prop where
  subs : ∀ id, id ∈ after.subs ↔ id ∈ node.subs ∧ swarmOf swarmIds id = node.swarm
  queue : after.liveEntries =
    node.liveEntries.filter fun entry => swarmOf swarmIds entry.1 = node.swarm

theorem Settled.mem_subs_of_liveEntries {node : SNode} (settled : node.Settled)
    {entry : AccountID × SysTime} (live : entry ∈ node.liveEntries) : entry.1 ∈ node.subs := by
  obtain ⟨queued, member, found⟩ := List.mem_filterMap.mp live
  obtain ⟨key, account, rfl⟩ := Option.map_eq_some_iff.mp found
  exact (settled key (List.mem_filterMap.mpr ⟨queued, member, account⟩)).1

theorem Settled.ejectsStale_iff {node : SNode} (settled : node.Settled) (swarmIds : List UInt64) :
    EjectsStale swarmIds node (node.removeStaleSwarmMembers swarmIds) ↔
      ∀ id ∈ node.subs, swarmOf swarmIds id = node.swarm := by
  constructor
  · intro ejects id held
    have kept : id ∈ (node.removeStaleSwarmMembers swarmIds).subs :=
      settled.mem_subs_removeStaleSwarmMembers.mpr held
    exact ((ejects.subs id).mp kept).2
  · intro belong
    constructor
    · intro id
      rw [settled.mem_subs_removeStaleSwarmMembers]
      exact (and_iff_left_of_imp (belong id)).symm
    · rw [liveEntries]
      rw [settled.removeStaleSwarmMembers_next swarmIds]
      refine (List.filter_eq_self.mpr fun entry live => ?_).symm
      exact decide_eq_true (belong entry.1 (settled.mem_subs_of_liveEntries live))

end Spns.Hive.SNode

namespace Spns.HiveMind

open Spns.Hive
open Spns.Lib
open Spns.Lib.Unordered

/-- No indexed node holds an account of another swarm. -/
def NoStale (hive : HiveMind) : Prop :=
  ∀ key ref, hive.sns.lookup key = some ref → ∀ id ∈ (hive.node ref).subs,
    swarmOf hive.swarmIds id = (hive.node ref).swarm

/-- Every node that the reply lists in the swarm it is in already holds only
accounts that belong to that swarm under the swarm ids of the reply. -/
def InPlaceBelong (reply : SnsReply) (hive : HiveMind) : Prop :=
  ∀ listing, parseStates reply.states ∅ = .ok listing → ∀ key ref details,
    hive.sns.lookup key = some ref → listing.lookup key = some details →
    details.swarm = (hive.node ref).swarm → ∀ id ∈ (hive.node ref).subs,
      swarmOf (hive.nextSwarmIds reply) id = (hive.node ref).swarm

section Completed

variable {env : Env} {moment : Moment} {reply : SnsReply} {hive committed updated : HiveMind}
  {listing : Map Ed25519PK SnDetails} {changed : List NodeRef}

/-- A node that the reply leaves in its swarm is untouched by the update loop. -/
theorem Looped.in_place (looped : Looped env moment reply hive committed listing updated changed)
    {key : Ed25519PK} {ref : NodeRef} {details : SnDetails}
    (found : hive.sns.lookup key = some ref) (listed : listing.lookup key = some details)
    (same : details.swarm = (hive.node ref).swarm) :
    updated.sns.lookup key = some ref ∧ (updated.node ref).swarm = (hive.node ref).swarm ∧
      (updated.node ref).subs = (hive.node ref).subs := by
  have drops := (looped.indexed.dropNodes listing).2
  have unchanged := looped.commits.unchanged
  have committedNode : committed.node = hive.node := by rw [unchanged]
  have committedSns : committed.sns = hive.sns := by rw [unchanged]
  have member : key ∈ listing := AList.lookup_isSome.mp (Option.isSome_of_eq_some listed)
  have dropped : (committed.dropNodes listing).sns.lookup key = some ref := by
    rw [drops.lookup, if_pos member, committedSns, found]
  have fresh : ref ∉ changed := by
    intro moved
    have distinct := looped.updating.moved ref moved key details listed dropped
    rw [drops.swarm, committedNode] at distinct
    exact distinct same.symm
  obtain ⟨swarm, subs, -⟩ := looped.updating.kept ref fresh
  refine ⟨looped.updating.grows dropped, ?_, ?_⟩
  · rw [swarm, drops.swarm, committedNode]
  · rw [subs, drops.subs, committedNode]

/-- An account that a listed node still holds after the update loop was held
by a node that the reply leaves in its swarm. -/
theorem Looped.held_in_place
    (looped : Looped env moment reply hive committed listing updated changed)
    (placed : ∀ key details, listing.lookup key = some details →
      ∃ ref, updated.sns.lookup key = some ref ∧ (updated.node ref).swarm = details.swarm)
    {key : Ed25519PK} {ref : NodeRef} (found : updated.sns.lookup key = some ref)
    {id : AccountID} (held : id ∈ (updated.node ref).subs) :
    ∃ details, hive.sns.lookup key = some ref ∧ listing.lookup key = some details ∧
      details.swarm = (hive.node ref).swarm ∧ id ∈ (hive.node ref).subs ∧
      (updated.node ref).swarm = (hive.node ref).swarm := by
  have drops := (looped.indexed.dropNodes listing).2
  have unchanged := looped.commits.unchanged
  have committedNode : committed.node = hive.node := by rw [unchanged]
  have committedSns : committed.sns = hive.sns := by rw [unchanged]
  have fresh : ref ∉ changed := by
    intro moved
    rw [(looped.updating.reset ref moved).1] at held
    exact AList.notMem_empty id held
  obtain ⟨swarm, subs, -⟩ := looped.updating.kept ref fresh
  rw [drops.swarm, committedNode] at swarm
  rw [drops.subs, committedNode] at subs
  have origin := (looped.updating.origin found).resolve_right fresh
  rw [drops.lookup, committedSns] at origin
  split_ifs at origin with member
  obtain ⟨details, listed⟩ := Option.isSome_iff_exists.mp (AList.lookup_isSome.mpr member)
  obtain ⟨other, otherFound, otherSwarm⟩ := placed key details listed
  rw [found] at otherFound
  cases otherFound
  exact ⟨details, origin, listed, otherSwarm.symm.trans swarm, subs ▸ held, swarm⟩

end Completed

/-- A completed response leaves no stale member exactly when the nodes that it
leaves in their swarm had none under the new swarm ids. -/
theorem Sound.noStale_iff {hive : HiveMind} (sound : Sound hive) {env : Env} {moment : Moment}
    {reply : SnsReply}
    (ended : (hive.onSnsResponse env moment (.reply reply)).2 = .completed) :
    NoStale (hive.onSnsResponse env moment (.reply reply)).1 ↔ InPlaceBelong reply hive := by
  have response := sound.indexed.response env moment reply
  generalize hive.onSnsResponse env moment (.reply reply) = result at response ended ⊢
  cases response with
  | refused what _ => contradiction
  | unparsed committed what commits _ => contradiction
  | interrupted committed listing updated changed what looped => contradiction
  | completed committed listing updated changed looped placed =>
      have pruned := (sound.of_looped looped).pruneSwarms
      have rechecked := pruned.tracked.recheck pruned.indexed env moment
      have ids : updated.swarmIds = hive.nextSwarmIds reply := by
        have drops := (looped.indexed.dropNodes listing).2
        rw [looped.updating.swarmIds, drops.swarmIds, looped.commits.swarmIds]
      simp only
      generalize finalEq : (if hive.disturbs env moment (.reply reply) then
        updated.pruneSwarms.recheck env moment else updated.pruneSwarms) = final
      -- With or without the recheck, only accounts that belong are added.
      have shape : final.swarmIds = updated.swarmIds ∧ final.sns = updated.sns ∧
          (∀ ref, (final.node ref).swarm = (updated.node ref).swarm) ∧
          (∀ ref, ∀ id ∈ (updated.node ref).subs, id ∈ (final.node ref).subs) ∧
          ∀ ref, ∀ id ∈ (final.node ref).subs, id ∈ (updated.node ref).subs ∨
            swarmOf updated.swarmIds id = (updated.node ref).swarm := by
        rw [← finalEq]
        split_ifs
        · refine ⟨rechecked.swarmIds, rechecked.sameIndex.sns, rechecked.sameIndex.swarm, ?_, ?_⟩
          · exact fun ref id held => (rechecked.subs ref id).mpr (Or.inl held)
          · intro ref id held
            exact ((rechecked.subs ref id).mp held).imp_right fun added => added.2.2
        · exact ⟨rfl, rfl, fun _ => rfl, fun _ _ held => held, fun _ _ held => Or.inl held⟩
      obtain ⟨finalIds, finalSns, finalSwarm, grows, only⟩ := shape
      constructor
      · intro clean parsedListing parsed key ref details found listed same id held
        rw [looped.parsed] at parsed
        cases parsed
        obtain ⟨still, swarm, subs⟩ := looped.in_place found listed same
        have belongs := clean key ref (finalSns ▸ still) id (grows ref id (subs ▸ held))
        rwa [finalIds, ids, finalSwarm, swarm] at belongs
      · intro belong key ref found id held
        rw [finalIds, finalSwarm]
        rcases only ref id held with old | belongs
        · obtain ⟨details, before, listed, same, heldBefore, swarm⟩ :=
            looped.held_in_place placed (finalSns ▸ found) old
          rw [ids, swarm]
          exact belong listing looped.parsed key ref details before listed same id heldBefore
        · exact belongs

/-- In every reached state: `remove_stale_swarm_members` ejects the stale
members of a node exactly when the node has none, and a completed response
leaves no stale member exactly when no node that stays in its swarm held one. -/
theorem ejects_stale_iff_none_stale (env : Env) (hive : HiveMind) (reached : Reached env hive) :
    (∀ ref swarmIds,
        SNode.EjectsStale swarmIds (hive.node ref)
            ((hive.node ref).removeStaleSwarmMembers swarmIds) ↔
          ∀ id ∈ (hive.node ref).subs, swarmOf swarmIds id = (hive.node ref).swarm) ∧
      ∀ moment reply, (hive.onSnsResponse env moment (.reply reply)).2 = .completed →
        (NoStale (hive.onSnsResponse env moment (.reply reply)).1 ↔
          InPlaceBelong reply hive) := by
  have sound := reached.sound
  constructor
  · intro ref swarmIds
    exact (sound.tracked.settled ref).ejectsStale_iff swarmIds
  · intro moment reply ended
    exact sound.noStale_iff ended

/-- One node in swarm 7, and an account that belongs to it. -/
def monitoredRun : List Event :=
  [.snsResponse (Sample.moment 0) (.reply ⟨some [97], some 1, [Sample.snState 7]⟩),
    .addSubscription (Sample.request 1700000000)]

/-- A second swarm, closer to the account, has appeared. -/
def splitReply : SnsReply :=
  ⟨some [98], some 2, [Sample.snState 7, { Sample.snState 0 with publicIp := some [] }]⟩

/-- The account moves to swarm 0 but its node in swarm 7 keeps it. -/
theorem stale_member_kept :
    ∃ hive, Reached Sample.env hive ∧
      ¬SNode.EjectsStale [0, 7] (hive.node 0) ((hive.node 0).removeStaleSwarmMembers [0, 7]) ∧
      (hive.onSnsResponse Sample.env (Sample.moment 0) (.reply splitReply)).2 = .completed ∧
      ¬NoStale (hive.onSnsResponse Sample.env (Sample.moment 0) (.reply splitReply)).1 := by
  refine ⟨(Run.exec (step Sample.env) initial monitoredRun).get rfl,
    ⟨monitoredRun, (Option.some_get _).symm⟩, ?_, rfl, ?_⟩
  · intro ejects
    have held := (ejects.subs Sample.account).mp (by
      rw [AList.mem_keys]
      exact List.mem_cons_self)
    exact absurd held.2 (by decide)
  · intro clean
    have belongs := clean ⟨List.replicate 32 0, rfl⟩ 0 rfl Sample.account (by
      rw [AList.mem_keys]
      exact List.mem_cons_self)
    exact absurd belongs (by decide)

/-- Under the swarm ids of the first reply there is nothing to eject. -/
theorem no_stale_member :
    ∃ hive, Reached Sample.env hive ∧ Sample.account ∈ (hive.node 0).subs ∧
      SNode.EjectsStale [7] (hive.node 0) ((hive.node 0).removeStaleSwarmMembers [7]) ∧
      NoStale (hive.onSnsResponse Sample.env (Sample.moment 0)
        (.reply ⟨some [98], some 2, [Sample.snState 7]⟩)).1 := by
  have reached : Reached Sample.env ((Run.exec (step Sample.env) initial monitoredRun).get rfl) :=
    ⟨monitoredRun, (Option.some_get _).symm⟩
  obtain ⟨ejects, noStale⟩ := ejects_stale_iff_none_stale Sample.env _ reached
  refine ⟨_, reached, ?_, (ejects 0 [7]).mpr fun _ _ => rfl, (noStale _ _ rfl).mpr ?_⟩
  · rw [AList.mem_keys]
    exact List.mem_cons_self
  · intro listing parsed key ref details found listed same id held
    cases parsed
    have entry := (Map.mem_entries_iff_lookup _ key details).mpr listed
    have seven : details.swarm = 7 :=
      congrArg (fun entry => entry.2.swarm) (List.mem_singleton.mp entry)
    exact seven.symm.trans same

end Spns.HiveMind
