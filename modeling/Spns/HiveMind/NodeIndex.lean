import Spns.HiveMind.Invariants

/-!
# Consistency of the node indexes

The recheck of `on_sns_response` runs one job for each set of `swarms_`, on
several threads, and relies on every node being in one set only.  `Partitioned`
states that fact in the terms of the two maps; it holds in every state of the
server, also after calls that threw.  After a call that completes the keys of
`sns_` are those of the usable entries of its reply.
-/

namespace Spns.HiveMind

open Spns.Hive
open Spns.Lib
open Spns.Lib.Unordered

/-- The sets of `swarms_` partition the nodes of `sns_` by their swarm. -/
structure Partitioned (hive : HiveMind) : Prop where
  /-- A node is in the set of its own swarm and in no other set. -/
  member : ∀ {key ref}, hive.sns.lookup key = some ref → ∀ swarm,
    (∃ nodes, hive.swarms.lookup swarm = some nodes ∧ ref ∈ nodes) ↔ swarm = (hive.node ref).swarm
  /-- The sets hold nothing but nodes of `sns_`. -/
  owned : ∀ {swarm nodes ref}, hive.swarms.lookup swarm = some nodes → ref ∈ nodes →
    ∃ key, hive.sns.lookup key = some ref
  nodup : ∀ {swarm nodes}, hive.swarms.lookup swarm = some nodes → nodes.Nodup

/-- A node of some set of `swarms_`, by the value of the set. -/
theorem exists_swarm_set_iff {hive : HiveMind} {swarm : UInt64} {ref : NodeRef} :
    ref ∈ hive.swarmNodes swarm ↔
      ∃ nodes, hive.swarms.lookup swarm = some nodes ∧ ref ∈ nodes := by
  rw [swarmNodes, Map.getD]
  cases hive.swarms.lookup swarm <;> simp

theorem swarmNodes_of_lookup {hive : HiveMind} {swarm : UInt64} {nodes : List NodeRef}
    (found : hive.swarms.lookup swarm = some nodes) : hive.swarmNodes swarm = nodes := by
  rw [swarmNodes, Map.getD, found]
  rfl

theorem Indexed.partitioned {hive : HiveMind} (indexed : Indexed hive) : Partitioned hive where
  member found swarm := by
    rw [← exists_swarm_set_iff, indexed.mem_swarmNodes_iff found, eq_comm]
  owned found inside := by
    apply indexed.owned
    exact exists_swarm_set_iff.mpr ⟨_, found, inside⟩
  nodup found := by
    rw [← swarmNodes_of_lookup found]
    exact indexed.nodup _

/-! ## The keys of a completed call -/

/-- Some entry of the reply has the key and all details that are needed. -/
def Usable (states : List SnState) (key : Ed25519PK) : Prop :=
  ∃ pked ip port swarm, ⟨some pked, some ip, some port, some swarm⟩ ∈ states ∧
    pked.length = 64 ∧ ip ≠ [] ∧ ip ≠ anyAddress ∧ 0 < port ∧ swarm ≠ invalidSwarmId ∧
    fromHexOrB64 32 pked = some key

theorem usable_cons_iff {state : SnState} {states : List SnState} {key : Ed25519PK} :
    Usable (state :: states) key ↔ Usable [state] key ∨ Usable states key := by
  simp only [Usable, List.mem_cons, List.not_mem_nil, or_false]
  constructor
  · rintro ⟨pked, ip, port, swarm, here | later, rest⟩
    · exact Or.inl ⟨pked, ip, port, swarm, here, rest⟩
    · exact Or.inr ⟨pked, ip, port, swarm, later, rest⟩
  · rintro (⟨pked, ip, port, swarm, here, rest⟩ | ⟨pked, ip, port, swarm, later, rest⟩)
    · exact ⟨pked, ip, port, swarm, Or.inl here, rest⟩
    · exact ⟨pked, ip, port, swarm, Or.inr later, rest⟩

theorem mem_parseStates {states : List SnState} {sns listing : Map Ed25519PK SnDetails}
    (parsed : parseStates states sns = .ok listing) (key : Ed25519PK) :
    key ∈ listing ↔ key ∈ sns ∨ Usable states key := by
  induction states generalizing sns with
  | nil =>
      cases parsed
      simp [Usable]
  | cons state states ih =>
      rw [usable_cons_iff]
      rw [parseStates] at parsed
      split at parsed
      · rename_i pked ip port swarm pkedEq ipEq portEq swarmEq
        have fields : state = ⟨some pked, some ip, some port, some swarm⟩ := by
          cases state
          simp_all
        split_ifs at parsed with details
        · simp only [hasDetails, decide_eq_true_eq] at details
          split at parsed
          · rename_i read decoded
            have here : Usable [state] key ↔ key = read := by
              simp only [Usable, fields, List.mem_singleton, SnState.mk.injEq, Option.some.injEq]
              constructor
              · rintro ⟨_, _, _, _, ⟨rfl, -⟩, -, -, -, -, -, same⟩
                rw [decoded] at same
                exact (Option.some.inj same).symm
              · rintro rfl
                exact ⟨pked, ip, port, swarm, ⟨rfl, rfl, rfl, rfl⟩, details.1, details.2.1,
                  details.2.2.1, details.2.2.2.1, details.2.2.2.2, decoded⟩
            rw [ih parsed, here, ← or_assoc]
            apply or_congr_left
            split_ifs with known
            · exact ⟨Or.inl, fun either => either.elim id fun equal => equal ▸ known⟩
            · rw [AList.mem_insert, or_comm]
          · contradiction
        · have unusable : ¬Usable [state] key := by
            rintro ⟨_, _, _, _, here, size, some_ip, real, open_port, valid, -⟩
            rw [List.mem_singleton, fields] at here
            cases here
            exact details (decide_eq_true ⟨size, some_ip, real, open_port, valid⟩)
          rw [ih parsed, or_iff_right unusable]
      · contradiction

theorem mem_sns_updateNode {env : Env} {now : SteadyTime} {key other : Ed25519PK}
    {details : SnDetails} {ip : Bytes} {hive : HiveMind} {changed : List NodeRef}
    (member : other ∈ (updateNode env now key details ip (hive, changed)).1.sns) :
    other = key ∨ other ∈ hive.sns := by
  rcases updateNode_cases env now key details ip hive changed with
    ⟨ref, -, -, keeps, -⟩ | ⟨ref, -, -, keeps, -⟩ | ⟨-, equal⟩
  · rw [keeps.sns] at member
    exact Or.inr member
  · rw [keeps.sns] at member
    exact Or.inr member
  · rw [equal, newNode_sns, AList.mem_insert] at member
    exact member

/-- The update loop only adds nodes that it visits. -/
theorem mem_sns_updateNodes {env : Env} {now : SteadyTime} {key : Ed25519PK}
    {entries : List (Sigma fun _ : Ed25519PK => SnDetails)} {state : HiveMind × List NodeRef}
    (member : key ∈ (updateNodes env now entries state).1.1.sns) :
    key ∈ entries.map Sigma.fst ∨ key ∈ state.1.sns := by
  induction entries generalizing state with
  | nil => exact Or.inr member
  | cons entry rest ih =>
      rw [List.map_cons, List.mem_cons]
      rw [updateNodes] at member
      split at member
      · exact Or.inr member
      · rcases ih member with later | before
        · exact Or.inl (Or.inr later)
        · rcases mem_sns_updateNode before with here | old
          · exact Or.inl (Or.inl here)
          · exact Or.inr old

theorem recheck_sns (env : Env) (moment : Moment) (hive : HiveMind) :
    (hive.recheck env moment).sns = hive.sns := by
  have modified : ∀ (hive : HiveMind) (nodes : List NodeRef) (f : SNode → SNode),
      (hive.modifyNodes nodes f).sns = hive.sns := by
    intro hive nodes f
    exact List.foldlRecOn (motive := fun current : HiveMind => current.sns = hive.sns) nodes _ rfl
      fun current same _ _ => same
  have job : ∀ (hive : HiveMind) (accounts : List SwarmPubkey) (swarmIds : List UInt64)
      (swarm : UInt64) (nodes : List NodeRef),
      (hive.swarmJob accounts swarmIds swarm nodes).sns = hive.sns := by
    intro hive accounts swarmIds swarm nodes
    refine List.foldlRecOn (motive := fun current : HiveMind => current.sns = hive.sns) accounts _
      (modified hive nodes _) fun current same account _ => ?_
    split_ifs
    · rw [modified, same]
    · exact same
  rw [recheck]
  rw [(KeepsAccounts.checkSubs env moment _).sns]
  exact List.foldlRecOn (motive := fun current : HiveMind => current.sns = hive.sns) _ _ rfl
    fun current same entry _ => (job current _ _ _ _).trans same

/-- The update loop leaves the listed nodes in `sns_`, if it completes. -/
theorem Indexed.mem_sns_updateNodes_iff {hive : HiveMind} (indexed : Indexed hive) (env : Env)
    (now : SteadyTime) (listing : Map Ed25519PK SnDetails) (order : List Nat)
    (completes : (updateNodes env now (shuffle order listing.entries)
      (hive.dropNodes listing, [])).2 = none) (key : Ed25519PK) :
    key ∈ (updateNodes env now (shuffle order listing.entries)
      (hive.dropNodes listing, [])).1.1.sns ↔ key ∈ listing := by
  obtain ⟨dropped, drops⟩ := indexed.dropNodes listing
  have visits : ((shuffle order listing.entries).map Sigma.fst).Perm listing.keys :=
    (shuffle_perm order listing.entries).map Sigma.fst
  constructor
  · intro member
    rcases mem_sns_updateNodes member with visited | old
    · exact visits.mem_iff.mp visited
    · by_contra unlisted
      have gone := drops.lookup key
      rw [if_neg unlisted] at gone
      exact AList.lookup_eq_none.mp gone old
  · intro listed
    have visited : key ∈ (shuffle order listing.entries).map Sigma.fst :=
      visits.mem_iff.mpr listed
    obtain ⟨entry, member, rfl⟩ := List.mem_map.mp visited
    obtain ⟨ref, found, -⟩ := dropped.updateNodes_swarm env now
      (visits.nodup_iff.mpr listing.nodupKeys) [] completes member
    exact AList.lookup_isSome.mp (Option.isSome_of_eq_some found)

theorem Indexed.mem_sns_completed {hive : HiveMind} (indexed : Indexed hive) {env : Env}
    {moment : Moment} {reply : SnsReply}
    (ended : (hive.onSnsResponse env moment (.reply reply)).2 = .completed) (key : Ed25519PK) :
    key ∈ (hive.onSnsResponse env moment (.reply reply)).1.sns ↔ Usable reply.states key := by
  rw [onSnsResponse] at ended ⊢
  simp only at ended ⊢
  cases refreshed : hive.refreshSwarmIds reply with
  | error what =>
      rw [refreshed] at ended
      contradiction
  | ok result =>
      obtain ⟨committed, swarmsChanged⟩ := result
      have committedIndexed := indexed.of_commits (refreshSwarmIds_ok refreshed).1
      simp only [refreshed] at ended ⊢
      cases parsed : parseStates reply.states ∅ with
      | error what =>
          rw [parsed] at ended
          contradiction
      | ok listing =>
          have listed : key ∈ listing ↔ Usable reply.states key := by
            rw [mem_parseStates parsed key, or_iff_right (AList.notMem_empty key)]
          have keys := fun completes => committedIndexed.mem_sns_updateNodes_iff env
            moment.steady listing moment.updateOrder completes key
          simp only [parsed] at ended ⊢
          generalize updateNodes env moment.steady (shuffle moment.updateOrder listing.entries)
            (committed.dropNodes listing, []) = outcome at ended keys ⊢
          obtain ⟨⟨updated, changed⟩, failure⟩ := outcome
          cases failure with
          | some what => contradiction
          | none =>
              rw [← listed, ← keys rfl]
              simp only
              split_ifs
              · rw [recheck_sns]
                rfl
              · rfl

/-- In every state of the server the sets of `swarms_` partition the nodes of
`sns_`, and a response that completes leaves exactly its usable keys. -/
theorem indexes_consistent (env : Env) (hive : HiveMind) (reached : Reached env hive) :
    Partitioned hive ∧
      ∀ moment reply, (hive.onSnsResponse env moment (.reply reply)).2 = .completed →
        ∀ key, key ∈ (hive.onSnsResponse env moment (.reply reply)).1.sns ↔
          Usable reply.states key := by
  have indexed := reached.sound.indexed
  constructor
  · exact indexed.partitioned
  · intro moment reply ended key
    exact indexed.mem_sns_completed ended key

/-- The second call moves the node to swarm 9 and then throws at an address
that does not parse. -/
def interruptedRun : List Event :=
  [.snsResponse (Sample.moment 0) (.reply ⟨some [97], some 1, [Sample.snState 7]⟩),
    .snsResponse (Sample.moment 0) (.reply ⟨some [98], some 2,
      [{ Sample.snState 9 with
          pubkeyEd25519 := some (List.replicate 64 49), publicIp := some [120] },
        Sample.snState 9]⟩)]

theorem interruptedRun_consistent :
    ∃ hive, Run.exec (step Sample.env) initial interruptedRun = some hive ∧
      hive.swarms.lookup 9 = some [0] ∧ Partitioned hive ∧
      ∀ key, key ∈ (hive.onSnsResponse Sample.env (Sample.moment 0)
          (.reply ⟨some [99], some 3, [Sample.snState 7]⟩)).1.sns ↔
        Usable [Sample.snState 7] key := by
  have moved : (Run.exec (step Sample.env) initial interruptedRun).map
      (fun hive => (hive.swarms.lookup 9, (hive.onSnsResponse Sample.env (Sample.moment 0)
        (.reply ⟨some [99], some 3, [Sample.snState 7]⟩)).2)) =
        some (some [0], .completed) := by decide +kernel
  obtain ⟨hive, run, facts⟩ := Option.map_eq_some_iff.mp moved
  simp only [Prod.mk.injEq] at facts
  obtain ⟨partitioned, keys⟩ := indexes_consistent Sample.env hive ⟨interruptedRun, run⟩
  exact ⟨hive, run, facts.1, partitioned, keys _ _ facts.2⟩

end Spns.HiveMind
