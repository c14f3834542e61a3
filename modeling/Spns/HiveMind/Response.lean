import Spns.HiveMind.Membership

/-!
# The exits of `on_sns_response`

`Response` lists the ways a call can end, with what it has done to the state
by then.  `disturbs` tells from the reply and the state before the call
whether a recheck becomes due; the handler keeps that knowledge in local
variables only, so a call that throws forgets it.
-/

namespace Spns.HiveMind

open Spns.Hive
open Spns.Lib.Unordered

/-! ## What a reply asks for -/

/-- A new block whose swarm ids differ from the current ones. -/
def changesSwarmIds (reply : SnsReply) (hive : HiveMind) : Bool :=
  match reply.blockHash, reply.height, reply.swarmIds with
  | some hash, some _, some ids => hash ≠ hive.lastBlock.1 ∧ ids ≠ hive.swarmIds
  | _, _, _ => false

/-- The swarm ids in force while a reply is processed. -/
def nextSwarmIds (reply : SnsReply) (hive : HiveMind) : List UInt64 :=
  if reply.blockHash = some hive.lastBlock.1 then hive.swarmIds
  else reply.swarmIds.getD hive.swarmIds

/-- A listed node that the server does not know, or knows in another swarm. -/
def isNewOrMoved (hive : HiveMind) (entry : Sigma fun _ : Ed25519PK => SnDetails) : Bool :=
  match hive.sns.lookup entry.1 with
  | some ref => (hive.node ref).swarm != entry.2.swarm
  | none => true

/-- The entries that the update loop reaches. -/
def visited (env : Env) (entries : List (Sigma fun _ : Ed25519PK => SnDetails)) :
    List (Sigma fun _ : Ed25519PK => SnDetails) :=
  entries.takeWhile fun entry => (env.parseIp entry.2.ip).isSome

/-- The reply has a block and its update loop adds or moves a node. -/
def changesNodes (env : Env) (moment : Moment) (reply : SnsReply) (hive : HiveMind) : Bool :=
  reply.blockHash.isSome && reply.height.isSome &&
    match parseStates reply.states ∅ with
    | .ok listing =>
        (visited env (shuffle moment.updateOrder listing.entries)).any hive.isNewOrMoved
    | .error _ => false

/-- The reply makes a recheck due. -/
def disturbs (env : Env) (moment : Moment) (hive : HiveMind) : SnsData → Bool
  | .reply reply => hive.changesSwarmIds reply || hive.changesNodes env moment reply
  | _ => false

/-! ## Committing the block -/

/-- `after` is `before` with the block of the reply. -/
structure Commits (reply : SnsReply) (before after : HiveMind) : Prop where
  hash : reply.blockHash = some after.lastBlock.1
  height : reply.height.isSome
  unchanged : after = { before with swarmIds := after.swarmIds, lastBlock := after.lastBlock }
  swarmIds : after.swarmIds = before.nextSwarmIds reply
  changes : before.changesSwarmIds reply = true ↔ after.swarmIds ≠ before.swarmIds
  source : reply.blockHash = some before.lastBlock.1 ∧ after = before ∨
    reply.swarmIds = some after.swarmIds

theorem refreshSwarmIds_ok {reply : SnsReply} {hive after : HiveMind} {changed : Bool}
    (committed : hive.refreshSwarmIds reply = .ok (after, changed)) :
    Commits reply hive after ∧ changed = hive.changesSwarmIds reply := by
  rw [refreshSwarmIds] at committed
  split at committed
  · rename_i hash height hashEq heightEq
    split_ifs at committed with fresh
    · split at committed
      · contradiction
      · rename_i ids idsEq
        have different : reply.blockHash ≠ some hive.lastBlock.1 := by
          rw [hashEq]
          exact fun equal => fresh (Option.some.inj equal)
        have next : hive.nextSwarmIds reply = ids := by
          rw [nextSwarmIds, if_neg different, idsEq]
          rfl
        split_ifs at committed with changes <;> cases committed
        · refine ⟨⟨hashEq, by simp [heightEq], rfl, next.symm, ?_, Or.inr idsEq⟩, ?_⟩
          · simp [changesSwarmIds, hashEq, heightEq, idsEq, fresh]
          · simp [changesSwarmIds, hashEq, heightEq, idsEq, fresh, changes]
        · rw [not_not] at changes
          refine ⟨⟨hashEq, by simp [heightEq], rfl, ?_, ?_, Or.inr (changes ▸ idsEq)⟩, ?_⟩
          · rw [next, changes]
          · simp [changesSwarmIds, hashEq, heightEq, idsEq, changes]
          · simp [changesSwarmIds, hashEq, heightEq, idsEq, changes]
    · rw [not_not] at fresh
      cases committed
      have sameBlock : reply.blockHash = some hive.lastBlock.1 := by rw [hashEq, fresh]
      refine ⟨⟨sameBlock, by simp [heightEq], rfl, ?_, ?_, Or.inl ⟨sameBlock, rfl⟩⟩, ?_⟩
      · rw [nextSwarmIds, if_pos sameBlock]
      · cases idsEq : reply.swarmIds <;> simp [changesSwarmIds, hashEq, heightEq, idsEq, fresh]
      · cases idsEq : reply.swarmIds <;> simp [changesSwarmIds, hashEq, heightEq, idsEq, fresh]
  · contradiction

/-- A reply whose entries all parse has a swarm id in every entry. -/
theorem parseStates_ok_swarmIds {states : List SnState} {sns listing : Map Ed25519PK SnDetails}
    (parsed : parseStates states sns = .ok listing) :
    ∃ ids, states.mapM SnState.swarmId = some ids := by
  induction states generalizing sns with
  | nil => exact ⟨[], rfl⟩
  | cons state states ih =>
      rw [parseStates] at parsed
      split at parsed
      · rename_i swarm _ _ _ swarmEq
        have rest : ∃ ids, states.mapM SnState.swarmId = some ids := by
          split_ifs at parsed
          · split at parsed
            · exact ih parsed
            · contradiction
          · exact ih parsed
        obtain ⟨ids, restEq⟩ := rest
        exact ⟨swarm :: ids, by simp [swarmEq, restEq]⟩
      · contradiction

theorem SnsReply.swarmIds_of_parsed {reply : SnsReply} {listing : Map Ed25519PK SnDetails}
    (parsed : parseStates reply.states ∅ = .ok listing) :
    ∃ ids, reply.swarmIds = some ids := by
  obtain ⟨ids, equal⟩ := parseStates_ok_swarmIds parsed
  exact ⟨toSwarmIds ids, by rw [SnsReply.swarmIds, equal]; rfl⟩

theorem refreshSwarmIds_error {reply : SnsReply} {hive : HiveMind} {what : String}
    (refused : hive.refreshSwarmIds reply = .error what) (env : Env) (moment : Moment) :
    hive.disturbs env moment (.reply reply) = false := by
  rw [refreshSwarmIds] at refused
  split at refused
  · rename_i hash height hashEq heightEq
    split_ifs at refused
    · split at refused
      · rename_i idsEq
        cases parsed : parseStates reply.states ∅ with
        | error failure => simp [disturbs, changesSwarmIds, changesNodes, idsEq, parsed]
        | ok listing =>
            obtain ⟨ids, equal⟩ := SnsReply.swarmIds_of_parsed parsed
            rw [idsEq] at equal
            contradiction
      · split_ifs at refused
  · rename_i missing
    cases hashEq : reply.blockHash with
    | none => simp [disturbs, changesSwarmIds, changesNodes, hashEq]
    | some hash =>
        cases heightEq : reply.height with
        | none => simp [disturbs, changesSwarmIds, changesNodes, hashEq, heightEq]
        | some height => exact absurd heightEq (missing hash height hashEq)

/-! ## The list of new and moved nodes -/

theorem isNewOrMoved_of_keepsAccounts {before after : HiveMind}
    (keeps : KeepsAccounts before after) : after.isNewOrMoved = before.isNewOrMoved := by
  funext entry
  unfold isNewOrMoved
  rw [keeps.sns]
  cases before.sns.lookup entry.1 with
  | none => rfl
  | some ref => simp only [keeps.swarm]

theorem updateNodes_changed_ne_nil (env : Env) (now : SteadyTime)
    (entries : List (Sigma fun _ : Ed25519PK => SnDetails)) (hive : HiveMind)
    {changed : List NodeRef} (nonempty : changed ≠ []) :
    (updateNodes env now entries (hive, changed)).1.2 ≠ [] := by
  induction entries generalizing hive changed with
  | nil => exact nonempty
  | cons entry rest ih =>
      rw [updateNodes]
      cases parsed : env.parseIp entry.2.ip with
      | none => exact nonempty
      | some ip =>
          have grown : (updateNode env now entry.1 entry.2 ip (hive, changed)).2 ≠ [] := by
            rcases updateNode_cases env now entry.1 entry.2 ip hive changed with
              ⟨ref, -, -, -, equal⟩ | ⟨ref, -, -, -, equal⟩ | ⟨-, equal⟩
            · rwa [equal]
            · rw [equal]
              exact List.ne_nil_of_mem List.mem_insert_self
            · rw [equal]
              exact List.ne_nil_of_mem List.mem_insert_self
          exact ih _ grown

/-- The loop remembers a node exactly when it reaches one that is new or moved. -/
theorem updateNodes_changed_eq_nil_iff (env : Env) (now : SteadyTime)
    (entries : List (Sigma fun _ : Ed25519PK => SnDetails)) (hive : HiveMind) :
    (updateNodes env now entries (hive, [])).1.2 = [] ↔
      (visited env entries).any hive.isNewOrMoved = false := by
  induction entries generalizing hive with
  | nil => simp [updateNodes, visited]
  | cons entry rest ih =>
      unfold updateNodes visited
      cases parsed : env.parseIp entry.2.ip with
      | none => simp [parsed]
      | some ip =>
          rw [List.takeWhile_cons_of_pos (by simp [parsed]), List.any_cons]
          rcases updateNode_cases env now entry.1 entry.2 ip hive [] with
            ⟨ref, found, same, keeps, equal⟩ | ⟨ref, found, distinct, -, equal⟩ | ⟨fresh, equal⟩
          · have pair : updateNode env now entry.1 entry.2 ip (hive, []) = (_, []) :=
              Prod.ext rfl equal
            have first : hive.isNewOrMoved entry = false := by simp [isNewOrMoved, found, same]
            simp only
            rw [pair, ih, isNewOrMoved_of_keepsAccounts keeps, first, Bool.false_or]
            rfl
          · have first : hive.isNewOrMoved entry = true := by
              simp [isNewOrMoved, found, distinct]
            have grown := updateNodes_changed_ne_nil env now rest
              (updateNode env now entry.1 entry.2 ip (hive, [])).1
              (List.ne_nil_of_mem (equal ▸ List.mem_insert_self))
            rw [first]
            simpa using grown
          · have first : hive.isNewOrMoved entry = true := by simp [isNewOrMoved, fresh]
            have grown := updateNodes_changed_ne_nil env now rest
              (hive.newNode env now entry.1 ⟨entry.1, ip, entry.2.port⟩ entry.2.swarm)
              (List.ne_nil_of_mem (List.mem_insert_self (l := []) (a := hive.nodeCount)))
            rw [first]
            simp only [equal]
            simpa using grown

/-- Dropping unlisted nodes does not change which listed ones are new. -/
theorem Drops.isNewOrMoved {listing : Map Ed25519PK SnDetails} {before after : HiveMind}
    (drops : Drops listing before after) {entry : Sigma fun _ : Ed25519PK => SnDetails}
    (listed : entry.1 ∈ listing) : after.isNewOrMoved entry = before.isNewOrMoved entry := by
  unfold HiveMind.isNewOrMoved
  rw [drops.lookup, if_pos listed]
  cases before.sns.lookup entry.1 with
  | none => rfl
  | some ref => simp only [drops.swarm]

/-! ## The exits -/

/-- The handler has gone through the update loop, or has left it. -/
structure Looped (env : Env) (moment : Moment) (reply : SnsReply) (hive committed : HiveMind)
    (listing : Map Ed25519PK SnDetails) (updated : HiveMind) (changed : List NodeRef) : Prop where
  commits : Commits reply hive committed
  parsed : parseStates reply.states ∅ = .ok listing
  indexed : Indexed committed
  updating : Updating (committed.dropNodes listing) listing (updated, changed)
  disturbs_iff : hive.disturbs env moment (.reply reply) = true ↔
    committed.swarmIds ≠ hive.swarmIds ∨ changed ≠ []

/-- How a call on `hive` can end. -/
inductive Response (env : Env) (moment : Moment) (reply : SnsReply) (hive : HiveMind) :
    HiveMind × Outcome → Prop
  /-- nothing has been changed -/
  | refused (what : String) (calm : hive.disturbs env moment (.reply reply) = false) :
      Response env moment reply hive (hive, .failed what)
  /-- the block is committed, some entry is malformed -/
  | unparsed (committed : HiveMind) (what : String) (commits : Commits reply hive committed)
      (disturbs_iff : hive.disturbs env moment (.reply reply) = true ↔
        committed.swarmIds ≠ hive.swarmIds) :
      Response env moment reply hive (committed, .failed what)
  /-- the update loop has thrown -/
  | interrupted (committed : HiveMind) (listing : Map Ed25519PK SnDetails) (updated : HiveMind)
      (changed : List NodeRef) (what : String)
      (looped : Looped env moment reply hive committed listing updated changed) :
      Response env moment reply hive (updated, .failed what)
  /-- the update loop is through -/
  | completed (committed : HiveMind) (listing : Map Ed25519PK SnDetails) (updated : HiveMind)
      (changed : List NodeRef)
      (looped : Looped env moment reply hive committed listing updated changed)
      (placed : ∀ key details, listing.lookup key = some details →
        ∃ ref, updated.sns.lookup key = some ref ∧ (updated.node ref).swarm = details.swarm) :
      Response env moment reply hive
        (if hive.disturbs env moment (.reply reply) then updated.pruneSwarms.recheck env moment
          else updated.pruneSwarms, .completed)

theorem Indexed.of_commits {reply : SnsReply} {hive committed : HiveMind} (indexed : Indexed hive)
    (commits : Commits reply hive committed) : Indexed committed := by
  have same : SameIndex hive committed := by
    rw [commits.unchanged]
    exact ⟨rfl, fun _ => rfl, rfl, fun _ => rfl⟩
  exact indexed.of_sameIndex same

theorem Indexed.response {hive : HiveMind} (indexed : Indexed hive) (env : Env) (moment : Moment)
    (reply : SnsReply) :
    Response env moment reply hive (hive.onSnsResponse env moment (.reply reply)) := by
  rw [onSnsResponse]
  simp only
  cases refreshed : hive.refreshSwarmIds reply with
  | error what => exact .refused what (refreshSwarmIds_error refreshed env moment)
  | ok result =>
      obtain ⟨committed, swarmsChanged⟩ := result
      obtain ⟨commits, flag⟩ := refreshSwarmIds_ok refreshed
      simp only
      cases parsed : parseStates reply.states ∅ with
      | error what =>
          refine .unparsed committed what commits ?_
          rw [← commits.changes]
          simp [disturbs, changesNodes, parsed]
      | ok listing =>
          have committedIndexed := indexed.of_commits commits
          obtain ⟨droppedIndexed, drops⟩ := committedIndexed.dropNodes listing
          have listed : ∀ entry ∈ shuffle moment.updateOrder listing.entries,
              listing.lookup entry.1 = some entry.2 := by
            intro entry member
            exact (Map.mem_entries_iff_lookup _ _ _).mp (mem_shuffle.mp member)
          have updating := (Updating.refl droppedIndexed listing).updateNodes droppedIndexed env
            moment.steady listed
          -- The state before the call already tells which nodes the loop adds or moves.
          have sameNews : (visited env (shuffle moment.updateOrder listing.entries)).any
              (committed.dropNodes listing).isNewOrMoved =
              (visited env (shuffle moment.updateOrder listing.entries)).any hive.isNewOrMoved := by
            rw [Bool.eq_iff_iff, List.any_eq_true, List.any_eq_true]
            refine exists_congr fun entry => and_congr_right fun member => ?_
            have reached := (List.takeWhile_sublist _).subset member
            have isListed : entry.1 ∈ listing :=
              AList.lookup_isSome.mp (Option.isSome_of_eq_some (listed entry reached))
            rw [drops.isNewOrMoved isListed, commits.unchanged]
            rfl
          have due : hive.disturbs env moment (.reply reply) = true ↔
              committed.swarmIds ≠ hive.swarmIds ∨
              (updateNodes env moment.steady (shuffle moment.updateOrder listing.entries)
                (committed.dropNodes listing, [])).1.2 ≠ [] := by
            rw [← commits.changes, ne_eq, updateNodes_changed_eq_nil_iff, sameNews]
            simp [disturbs, changesNodes, parsed, commits.hash, commits.height]
          have nodup : ((shuffle moment.updateOrder listing.entries).map Sigma.fst).Nodup :=
            ((shuffle_perm moment.updateOrder listing.entries).map Sigma.fst).nodup_iff.mpr
              listing.nodupKeys
          have placed := fun completes entry (member : entry ∈ _) =>
            droppedIndexed.updateNodes_swarm env moment.steady nodup [] completes member
          generalize loop : updateNodes env moment.steady
            (shuffle moment.updateOrder listing.entries) (committed.dropNodes listing, []) =
              outcome at updating due placed
          obtain ⟨⟨updated, changed⟩, failure⟩ := outcome
          have looped : Looped env moment reply hive committed listing updated changed :=
            ⟨commits, parsed, committedIndexed, updating, due⟩
          simp only [loop]
          cases failure with
          | some what => exact .interrupted committed listing updated changed what looped
          | none =>
              have found : ∀ key details, listing.lookup key = some details →
                  ∃ ref, updated.sns.lookup key = some ref ∧
                    (updated.node ref).swarm = details.swarm := by
                intro key details keyListed
                have member := (Map.mem_entries_iff_lookup listing key details).mpr keyListed
                exact placed rfl ⟨key, details⟩ (mem_shuffle.mpr member)
              have ended := Response.completed committed listing updated changed looped found
              have flagIff : (swarmsChanged = true ∨ changed ≠ []) ↔
                  hive.disturbs env moment (.reply reply) = true := by
                rw [due, flag, commits.changes]
              simp only
              by_cases disturbed : hive.disturbs env moment (.reply reply) = true
              · rw [if_pos disturbed] at ended
                rw [if_pos (flagIff.mpr disturbed)]
                exact ended
              · rw [if_neg disturbed] at ended
                rw [if_neg (mt flagIff.mp disturbed)]
                exact ended

end Spns.HiveMind
