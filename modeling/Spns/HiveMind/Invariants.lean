import Spns.HiveMind.Remember
import Spns.HiveMind.Response
import Spns.HiveMind.System

/-!
# Invariants of every run

`Sound` collects the two invariants of the node indexes and the accounts.
It holds in every state that the server reaches, whatever the replies of the
service nodes and wherever a call leaves through its exception handler.
-/

namespace Spns.HiveMind

open Spns.Hive
open Spns.Lib
open Spns.Lib.Unordered
open Spns.Storage

/-- The invariants of the indexes and of the accounts. -/
structure Sound (hive : HiveMind) : Prop where
  indexed : Indexed hive
  tracked : Tracked hive

theorem Sound.of_keepsAccounts {before after : HiveMind} (sound : Sound before)
    (keeps : KeepsAccounts before after) : Sound after :=
  ⟨sound.indexed.of_sameIndex keeps.sameIndex, sound.tracked.of_keepsMembers keeps.toKeepsMembers⟩

theorem keepsMembers_pruneSwarms (hive : HiveMind) : KeepsMembers hive hive.pruneSwarms :=
  { KeepsMembers.refl hive with }

/-! ## Responses -/

theorem Tracked.of_commits {reply : SnsReply} {hive committed : HiveMind} (tracked : Tracked hive)
    (commits : Commits reply hive committed) : Tracked committed := by
  rw [commits.unchanged]
  exact ⟨tracked.settled, tracked.known, tracked.keyed⟩

theorem Sound.of_looped {env : Env} {moment : Moment} {reply : SnsReply}
    {hive committed updated : HiveMind} {listing : Map Ed25519PK SnDetails}
    {changed : List NodeRef} (sound : Sound hive)
    (looped : Looped env moment reply hive committed listing updated changed) : Sound updated := by
  have dropped := (looped.indexed.dropNodes listing).2.toKeepsMembers
  have tracked := (sound.tracked.of_commits looped.commits).of_keepsMembers dropped
  exact ⟨looped.updating.indexed, tracked.of_updating looped.updating⟩

theorem Sound.pruneSwarms {hive : HiveMind} (sound : Sound hive) : Sound hive.pruneSwarms :=
  ⟨sound.indexed.of_sameIndex (sameIndex_pruneSwarms hive),
    sound.tracked.of_keepsMembers (keepsMembers_pruneSwarms hive)⟩

theorem Sound.recheck {hive : HiveMind} (sound : Sound hive) (env : Env) (moment : Moment) :
    Sound (hive.recheck env moment) := by
  have rechecked := sound.tracked.recheck sound.indexed env moment
  exact ⟨sound.indexed.of_sameIndex rechecked.sameIndex, rechecked.tracked sound.tracked⟩

theorem Sound.onSnsResponse {hive : HiveMind} (sound : Sound hive) (env : Env) (moment : Moment)
    (data : SnsData) : Sound (hive.onSnsResponse env moment data).1 := by
  cases data with
  | unexpectedParts => exact sound
  | badStatus => exact sound
  | invalidJson => exact sound
  | badStates => exact sound
  | reply reply =>
      have response := sound.indexed.response env moment reply
      generalize hive.onSnsResponse env moment (.reply reply) = result at response ⊢
      cases response with
      | refused what calm => exact sound
      | unparsed committed what commits _ =>
          exact ⟨sound.indexed.of_commits commits, sound.tracked.of_commits commits⟩
      | interrupted committed listing updated changed what looped => exact sound.of_looped looped
      | completed committed listing updated changed looped placed =>
          simp only
          split_ifs
          · exact (sound.of_looped looped).pruneSwarms.recheck env moment
          · exact (sound.of_looped looped).pruneSwarms

/-! ## Requests -/

theorem Indexed.forceAccount_eq {hive : HiveMind} (indexed : Indexed hive)
    (account : SwarmPubkey) :
    hive.forceAccount account =
      { hive with
        swarms := hive.swarms.insert account.swarm (hive.swarmNodes account.swarm)
        node := fun ref =>
          if ref ∈ hive.swarmNodes account.swarm then (hive.node ref).addAccount account true
          else hive.node ref } := by
  rw [forceAccount]
  exact modifyNodes_eq _ (indexed.nodup account.swarm) _

theorem Indexed.sameIndex_forceAccount {hive : HiveMind} (indexed : Indexed hive)
    (account : SwarmPubkey) : SameIndex hive (hive.forceAccount account) := by
  rw [indexed.forceAccount_eq]
  refine ⟨rfl, fun swarm => ?_, rfl, fun ref => ?_⟩
  · simp only [swarmNodes, Map.getD, Map.lookup_insert_eq]
    split_ifs with equal
    · rw [equal]
      rfl
    · rfl
  · simp only
    split_ifs
    · exact SNode.addAccount_swarm account true _
    · rfl

theorem Indexed.mem_subs_forceAccount {hive : HiveMind} (indexed : Indexed hive)
    (account : SwarmPubkey) (ref : NodeRef) (id : AccountID) :
    id ∈ ((hive.forceAccount account).node ref).subs ↔
      (ref ∈ hive.swarmNodes account.swarm ∧ id = account.id) ∨ id ∈ (hive.node ref).subs := by
  rw [indexed.forceAccount_eq]
  simp only
  split_ifs with member
  · rw [SNode.mem_subs_addAccount]
    simp [member]
  · simp [member]

theorem Sound.forceAccount {hive : HiveMind} (sound : Sound hive) {account : SwarmPubkey}
    (registered : account.id ∈ hive.subscribers) : Sound (hive.forceAccount account) := by
  have indexed := sound.indexed
  have subscribers : (hive.forceAccount account).subscribers = hive.subscribers := by
    rw [indexed.forceAccount_eq]
  refine ⟨indexed.of_sameIndex (indexed.sameIndex_forceAccount account), ?_, ?_, ?_⟩
  · intro ref
    rw [indexed.forceAccount_eq]
    simp only
    split_ifs with member
    · exact (sound.tracked.settled ref).addAccount (indexed.swarm_eq member).symm true
    · exact sound.tracked.settled ref
  · intro ref id held
    rw [subscribers]
    rcases (indexed.mem_subs_forceAccount account ref id).mp held with ⟨-, rfl⟩ | old
    · exact registered
    · exact sound.tracked.known old
  · intro id subscriber found
    rw [subscribers] at found
    exact sound.tracked.keyed found

theorem Sound.remember {hive : HiveMind} (sound : Sound hive) (pubkey : SwarmPubkey)
    (sub : Subscription) :
    Sound { hive with subscribers := HiveMind.remember hive.subscribers pubkey sub } where
  indexed := sound.indexed.of_sameIndex ⟨rfl, fun _ => rfl, rfl, fun _ => rfl⟩
  tracked := by
    refine ⟨sound.tracked.settled, ?_, ?_⟩
    · intro ref id held
      exact mem_remember.mpr (Or.inr (sound.tracked.known held))
    · intro id subscriber found
      rw [lookup_remember] at found
      split_ifs at found with equal
      · cases found
        rw [equal]
        cases old : hive.subscribers.lookup pubkey.id with
        | none => rfl
        | some existing => exact @sound.tracked.keyed _ existing old
      · exact sound.tracked.keyed found

theorem Sound.addSubscription {hive : HiveMind} (sound : Sound hive) (request : AddRequest) :
    Sound (hive.addSubscription request).1 := by
  rw [addSubscription_eq]
  have stored : Sound { hive with db := (hive.db.addSubscription request).1 } :=
    ⟨sound.indexed.of_sameIndex ⟨rfl, fun _ => rfl, rfl, fun _ => rfl⟩,
      sound.tracked.settled, sound.tracked.known, sound.tracked.keyed⟩
  have remembered := stored.remember
    { request.pubkey with swarm := swarmOf hive.swarmIds request.pubkey.id } request.sub
  simp only
  split_ifs
  · exact remembered.forceAccount (mem_remember.mpr (Or.inl rfl))
  · exact remembered

/-! ## Start-up -/

/-- The keys of the map are the first ones remembered for their accounts. -/
theorem lookup_rememberAll (property : SwarmPubkey → Prop) {subscribers : Subscribers}
    {subs : List (SwarmPubkey × Subscription)}
    (initial : ∀ id subscriber, subscribers.lookup id = some subscriber →
      subscriber.key.id = id ∧ property subscriber.key)
    (items : ∀ item ∈ subs, property item.1) (id : AccountID) (subscriber : Subscriber)
    (found : (rememberAll subscribers subs).lookup id = some subscriber) :
    subscriber.key.id = id ∧ property subscriber.key := by
  induction subs generalizing subscribers with
  | nil => exact initial id subscriber found
  | cons item rest ih =>
      refine ih ?_ (fun other member => items other (List.mem_cons_of_mem item member)) found
      intro other existing otherFound
      rw [lookup_remember] at otherFound
      split_ifs at otherFound with equal
      · cases otherFound
        rw [equal]
        cases old : subscribers.lookup item.1.id with
        | none => exact ⟨rfl, items item List.mem_cons_self⟩
        | some first => exact initial _ first old
      · exact initial other existing otherFound

theorem sound_started {db : Database} {subscribers : Subscribers}
    (keyed : ∀ id subscriber, subscribers.lookup id = some subscriber → subscriber.key.id = id) :
    Sound (started db subscribers) where
  indexed := indexed_of_empty rfl rfl
  tracked := by
    refine ⟨fun ref => SNode.settled_create _ _, ?_, fun found => keyed _ _ found⟩
    intro ref id held
    exact absurd held (AList.notMem_empty id)

theorem start_keys {env : Env} {now : SysTime} {threads : Nat} {clock : Nat → SysTime}
    {db : Database} {hive : HiveMind} (launched : start env now threads clock db = .ok hive)
    (id : AccountID) (subscriber : Subscriber)
    (found : hive.subscribers.lookup id = some subscriber) :
    subscriber.key.id = id ∧ subscriber.key.swarm = invalidSwarmId := by
  obtain ⟨subs, -, rows, rfl⟩ := start_ok launched
  have keys : ∀ item ∈ subs, item.1.swarm = invalidSwarmId := by
    intro item member
    obtain ⟨row, -, loaded, read, keyEq, -⟩ := rows item member
    rw [keyEq]
    exact swarm_of_loadRow read
  refine lookup_rememberAll (fun key => key.swarm = invalidSwarmId) ?_ keys id
    subscriber found
  intro other existing none
  simp at none

theorem Sound.start {env : Env} {now : SysTime} {threads : Nat} {clock : Nat → SysTime}
    {db : Database} {hive : HiveMind} (launched : HiveMind.start env now threads clock db = .ok hive) :
    Sound hive := by
  have keys := start_keys launched
  obtain ⟨subs, -, -, rfl⟩ := start_ok launched
  exact sound_started fun id subscriber found => (keys id subscriber found).1

/-! ## Runs -/

end Spns.HiveMind

namespace Spns

/-- The event neither starts the server, nor adds a subscription, nor is a
service node update. -/
def Event.isQuiet : Event → Bool
  | .start .. | .addSubscription .. | .snsResponse .. => false
  | _ => true

end Spns

namespace Spns.HiveMind

open Spns.Hive
open Spns.Lib
open Spns.Lib.Unordered
open Spns.Storage

/-- What an event can do to the accounts: quiet events change at most the
database. -/
theorem step_cases {env : Env} {hive after : HiveMind} {event : Event}
    (taken : step env hive event = some after) :
    (∃ now threads clock, event = .start now threads clock ∧
        start env now threads clock hive.db = .ok after) ∨
      (∃ request, event = .addSubscription request ∧ after = (hive.addSubscription request).1) ∨
      (∃ moment data, event = .snsResponse moment data ∧
        after = (hive.onSnsResponse env moment data).1) ∨
      (event.isQuiet = true ∧ KeepsAccounts { hive with db := after.db } after) := by
  have sameDb : ∀ {before after : HiveMind}, KeepsAccounts before after →
      KeepsAccounts { before with db := after.db } after := by
    intro before after keeps
    have equal : { before with db := after.db } = before := by rw [keeps.db]
    rwa [equal]
  replace taken := handle_of_step taken
  cases event with
  | start now threads clock =>
      refine Or.inl ⟨now, threads, clock, rfl, ?_⟩
      simp only [handle] at taken
      cases launched : start env now threads clock hive.db with
      | error failure =>
          rw [launched] at taken
          contradiction
      | ok started =>
          rw [launched] at taken
          cases taken
          rfl
  | addSubscription request =>
      cases taken
      exact Or.inr (Or.inl ⟨request, rfl, rfl⟩)
  | removeSubscription now request =>
      refine Or.inr (Or.inr (Or.inr ⟨rfl, ?_⟩))
      simp only [handle] at taken
      split at taken
      · rename_i result removed ran
        cases taken
        rw [removeSubscription] at ran
        split_ifs at ran
        split at ran
        · contradiction
        · cases ran
          exact KeepsAccounts.refl _
      · cases taken
        exact KeepsAccounts.refl _
  | dropRegistrations service svcids =>
      cases taken
      exact Or.inr (Or.inr (Or.inr ⟨rfl, KeepsAccounts.refl _⟩))
  | dbCleanup now =>
      cases taken
      exact Or.inr (Or.inr (Or.inr ⟨rfl, KeepsAccounts.refl _⟩))
  | snsResponse moment data =>
      cases taken
      exact Or.inr (Or.inr (Or.inl ⟨moment, data, rfl, rfl⟩))
  | checkSubs moment =>
      cases taken
      exact Or.inr (Or.inr (Or.inr ⟨rfl, sameDb (KeepsAccounts.checkSubs env moment hive)⟩))
  | checkMySubs moment ref =>
      cases taken
      exact Or.inr (Or.inr (Or.inr
        ⟨rfl, sameDb (KeepsAccounts.checkNodeSubs env moment ref hive)⟩))
  | connect moment ref =>
      cases taken
      exact Or.inr (Or.inr (Or.inr
        ⟨rfl, sameDb (KeepsAccounts.connect env moment.steady ref hive)⟩))
  | connectTo moment ref addr =>
      cases taken
      exact Or.inr (Or.inr (Or.inr
        ⟨rfl, sameDb (KeepsAccounts.connectTo env moment.steady ref addr hive)⟩))
  | disconnect ref =>
      cases taken
      exact Or.inr (Or.inr (Or.inr ⟨rfl, sameDb (KeepsAccounts.disconnect ref hive)⟩))
  | connected moment conn =>
      exact Or.inr (Or.inr (Or.inr ⟨rfl, sameDb (KeepsAccounts.deliverConnected taken)⟩))
  | disconnected moment conn =>
      exact Or.inr (Or.inr (Or.inr ⟨rfl, sameDb (KeepsAccounts.deliverDisconnected taken)⟩))

theorem Sound.of_db {hive : HiveMind} (sound : Sound hive) (db : Database) :
    Sound { hive with db := db } :=
  ⟨sound.indexed.of_sameIndex ⟨rfl, fun _ => rfl, rfl, fun _ => rfl⟩,
    sound.tracked.settled, sound.tracked.known, sound.tracked.keyed⟩

theorem Sound.step {env : Env} {hive after : HiveMind} {event : Event} (sound : Sound hive)
    (taken : HiveMind.step env hive event = some after) : Sound after := by
  rcases step_cases taken with ⟨now, threads, clock, -, launched⟩ | ⟨request, -, rfl⟩ |
    ⟨moment, data, -, rfl⟩ | ⟨-, keeps⟩
  · exact Sound.start launched
  · exact sound.addSubscription request
  · exact sound.onSnsResponse env moment data
  · exact (sound.of_db after.db).of_keepsAccounts keeps

theorem sound_initial : Sound initial :=
  sound_started fun id subscriber found => by simp at found

/-- Every reached state is sound. -/
theorem Reached.sound {env : Env} {hive : HiveMind} (reached : Reached env hive) : Sound hive :=
  reached.invariant sound_initial fun _ _ _ sound taken => sound.step taken

end Spns.HiveMind
