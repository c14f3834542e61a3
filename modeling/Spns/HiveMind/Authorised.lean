import Spns.HiveMind.ConnInvariant
import Spns.HiveMind.Signed

/-!
# Authorised monitor requests

A swarm only accepts a dict of a monitor request whose signature is good under
the key that the dict itself names.  `check_subs` puts the key of a queued
account and the signatures of `subscribers_` together, which were checked
against the keys of their own requests.  The dicts are all good in every run
that uses each account with one Ed25519 key.  The accounts are compared by id
alone, though, and two Ed25519 keys may convert to the same id.
-/

namespace Spns

open Spns.Hive
open Spns.Lib
open Spns.Lib.Bencode
open Spns.Lib.Unordered
open Spns.Storage

/-! ## What a swarm checks -/

namespace Hive.MonitorEntry

/-- `"MONITOR" || HEX(ACCOUNT) || t || (1 if d else 0) || n[0] || "," || ...` -/
def signedMessage (account : AccountID) (dict : MonitorEntry) : Bytes :=
  [77, 79, 78, 73, 84, 79, 82] ++ toHex account.val ++ intText dict.t ++
    [if dict.d then 49 else 48] ++ List.intercalate [44] (dict.n.map intText)

/-- The account and the public key that a swarm takes from the dict: `P` and
what it converts to, or else `p` and the key inside it. -/
def Names (env : Env) (dict : MonitorEntry) (account : AccountID) (pk : Ed25519PK) : Prop :=
  match dict.P with
  | some session =>
      pk = session ∧
        ∃ derived, env.toCurve session = some derived ∧ 5 :: derived.val = account.val
  | none => dict.p = some account ∧ pk = account.slice 1 32 accountKey_fits

/-- The signatures of the dict are good under the key that it names: the main
signature under this key or, with `T` and `S`, under the key in the tag, which
has to be signed itself, to allow reading and to have the prefix of the
account or any prefix. -/
def Authorised (env : Env) (dict : MonitorEntry) : Prop :=
  ∃ account pk, dict.Names env account pk ∧
    match dict.ST with
    | none => env.verify (dict.signedMessage account) dict.s pk = true
    | some subaccount =>
        env.verify (dict.signedMessage account) dict.s (subaccount.tag.slice 4 32 tagKey_fits) =
            true ∧
          env.verify subaccount.tag.val subaccount.sig pk = true ∧
          subaccount.tag.byteAt 1 &&& subaccFlagRead ≠ 0 ∧
          (subaccount.tag.byteAt 1 &&& subaccFlagAnyPrefix ≠ 0 ∨
            subaccount.tag.byteAt 0 = account.byteAt 0)

end Hive.MonitorEntry

/-- A subscription that is signed under the key it is sent with. -/
theorem authorised_monitorEntry {env : Env} {key : SwarmPubkey} {sub : Subscription}
    (genuine : key.Genuine env) (signed : sub.SignedBy env key) :
    (SNode.monitorEntry key sub).Authorised env := by
  have names : (SNode.monitorEntry key sub).Names env key.id key.ed25519 := by
    unfold MonitorEntry.Names SNode.monitorEntry
    cases session : key.sessionEd with
    | true => exact ⟨rfl, genuine.converts session⟩
    | false => exact ⟨rfl, genuine.own session⟩
  refine ⟨key.id, key.ed25519, names, ?_⟩
  rw [Subscription.SignedBy, verifyStorageSignature_eq_ok_iff] at signed
  have subaccounts : (SNode.monitorEntry key sub).ST = sub.subaccount := rfl
  rw [subaccounts]
  cases given : sub.subaccount with
  | none =>
      rw [given] at signed
      exact signed
  | some subaccount =>
      rw [given] at signed
      exact ⟨signed.2.2.2, signed.2.2.1, signed.1, signed.2.1⟩

namespace HiveMind

/-- Every dict that was sent is authorised. -/
def AllAuthorised (env : Env) (hive : HiveMind) : Prop :=
  ∀ sent ∈ hive.sent, ∀ dict ∈ sent.2.2, dict.Authorised env

/-! ## The invariant -/

/-- The server holds the account with this key. -/
def Known (subscribers : Subscribers) (key : SwarmPubkey) : Prop :=
  ∃ subscriber, subscribers.lookup key.id = some subscriber ∧
    subscriber.key.identity = key.identity

/-- The rows come from accepted requests, the subscriptions in memory are signed
under the keys that they are held with, and every queued account has the key
that the server holds it with. -/
structure Authentic (env : Env) (hive : HiveMind) : Prop where
  written : Written env hive.db
  vouched : Vouched env hive.subscribers
  known : ∀ ref, ∀ key ∈ (hive.node ref).liveAccounts, Known hive.subscribers key
  authorised : AllAuthorised env hive

variable {env : Env} {hive before after : HiveMind}

/-- Operations that send nothing and queue no account under another key. -/
theorem Authentic.of_frame (authentic : Authentic env before) (db : after.db = before.db)
    (subscribers : after.subscribers = before.subscribers) (sent : after.sent = before.sent)
    (live : ∀ ref, ∀ key ∈ (after.node ref).liveAccounts,
      key ∈ (before.node ref).liveAccounts ∨ Known before.subscribers key) :
    Authentic env after where
  written := db ▸ authentic.written
  vouched := subscribers ▸ authentic.vouched
  known := by
    intro ref key member
    rw [subscribers]
    rcases live ref key member with old | known
    · exact authentic.known ref key old
    · exact known
  authorised := by
    intro item member
    rw [sent] at member
    exact authentic.authorised item member

theorem Authentic.of_keepsAccounts (authentic : Authentic env before)
    (keeps : KeepsAccounts before after) (sent : after.sent = before.sent) :
    Authentic env after :=
  authentic.of_frame keeps.db keeps.subscribers sent fun ref key member =>
    Or.inl (keeps.live ref key member)

theorem Authentic.modifyNode (authentic : Authentic env hive) (ref : NodeRef) (f : SNode → SNode)
    (live : ∀ key ∈ (f (hive.node ref)).liveAccounts,
      key ∈ (hive.node ref).liveAccounts ∨ Known hive.subscribers key) :
    Authentic env (hive.modifyNode ref f) := by
  refine authentic.of_frame rfl rfl rfl ?_
  intro other key member
  rw [modifyNode_node] at member
  split_ifs at member with equal
  · rw [equal]
    exact live key member
  · exact Or.inl member

/-! ## Connections send nothing -/

theorem sent_connect (env : Env) (now : SteadyTime) (ref : NodeRef) (hive : HiveMind) :
    (hive.connect env now ref).sent = hive.sent := by
  rw [connect]
  split_ifs
  · rfl
  · rfl
  · simp only
    rcases allowConnect_cases env (hive.modifyNode ref SNode.clearCooldown) with
      refused | ⟨-, -, allowed⟩
    · rw [refused]
      rfl
    · rw [allowed]
      rfl

theorem sent_disconnect (ref : NodeRef) (hive : HiveMind) :
    (hive.disconnect ref).sent = hive.sent := by
  unfold disconnect closeConn
  split <;> rfl

theorem sent_connectTo (env : Env) (now : SteadyTime) (ref : NodeRef) (addr : RemoteAddress)
    (hive : HiveMind) : (hive.connectTo env now ref addr).sent = hive.sent := by
  unfold connectTo
  simp only
  rw [sent_connect]
  split_ifs
  · exact sent_disconnect ref hive
  · rfl

theorem sent_makeConns (env : Env) (now : SteadyTime) (refs : List NodeRef) (hive : HiveMind) :
    (hive.makeConns env now refs).sent = hive.sent := by
  induction refs generalizing hive with
  | nil => rfl
  | cons ref rest ih =>
      rw [makeConns]
      split_ifs
      · rfl
      · rw [ih, sent_connect]

theorem sent_finishedConnectOf (env : Env) (moment : Moment) (conn : ConnId) (hive : HiveMind) :
    (hive.finishedConnectOf env moment conn).sent = hive.sent := by
  unfold finishedConnectOf finishedConnect
  simp only
  split_ifs
  · rw [sent_makeConns]
    rfl
  · rfl

theorem Authentic.connect (authentic : Authentic env hive) (now : SteadyTime) (ref : NodeRef) :
    Authentic env (hive.connect env now ref) :=
  authentic.of_keepsAccounts (.connect env now ref hive) (sent_connect env now ref hive)

theorem Authentic.disconnect (authentic : Authentic env hive) (ref : NodeRef) :
    Authentic env (hive.disconnect ref) :=
  authentic.of_keepsAccounts (.disconnect ref hive) (sent_disconnect ref hive)

theorem Authentic.connectTo (authentic : Authentic env hive) (now : SteadyTime) (ref : NodeRef)
    (addr : RemoteAddress) : Authentic env (hive.connectTo env now ref addr) :=
  authentic.of_keepsAccounts (.connectTo env now ref addr hive)
    (sent_connectTo env now ref addr hive)

/-! ## Checks send what is vouched for -/

/-- A check of the queue sends subscriptions under the keys that they are held
with. -/
theorem Authentic.drainQueue (authentic : Authentic env hive) (moment : Moment) (ref : NodeRef) :
    Authentic env (hive.drainQueue moment ref) := by
  have keeps := KeepsAccounts.drainQueue moment ref hive
  refine ⟨keeps.db ▸ authentic.written, keeps.subscribers ▸ authentic.vouched, ?_, ?_⟩
  · intro other key live
    rw [keeps.subscribers]
    exact authentic.known other key (keeps.live other key live)
  · intro item member dict inside
    rcases List.mem_append.mp member with old | new
    · exact authentic.authorised item old dict inside
    · obtain ⟨request, requested, rfl⟩ := List.mem_map.mp new
      obtain ⟨key, live, subscriber, found, sub, held, rfl⟩ :=
        SNode.mem_requests_checkQueue requested inside
      obtain ⟨holder, holds, same⟩ := authentic.known ref key live
      cases Option.some.inj (holds.symm.trans found)
      exact authorised_monitorEntry ((authentic.vouched.genuine found).of_identity_eq same)
        ((authentic.vouched.signed found sub held).of_identity_eq same)

theorem Authentic.checkNodeSubs (authentic : Authentic env hive) (moment : Moment)
    (ref : NodeRef) : Authentic env (hive.checkNodeSubs env moment ref) := by
  unfold HiveMind.checkNodeSubs
  simp only
  split_ifs
  · exact authentic.drainQueue moment ref
  · exact authentic
  · exact authentic
  · exact (authentic.of_keepsAccounts (.clearCooldown ref hive) rfl).connect moment.steady ref

theorem Authentic.checkSubs (authentic : Authentic env hive) (moment : Moment) :
    Authentic env (hive.checkSubs env moment) := by
  rw [HiveMind.checkSubs]
  generalize hive.nodeRefs moment.nodeOrder = refs
  induction refs generalizing hive with
  | nil => exact authentic
  | cons ref rest ih => exact ih (authentic.checkNodeSubs moment ref)

theorem Authentic.deliverConnected (authentic : Authentic env hive) {moment : Moment}
    {conn : ConnId} (delivered : hive.deliverConnected env moment conn = some after) :
    Authentic env after := by
  rw [HiveMind.deliverConnected] at delivered
  split at delivered
  · rename_i record _
    split_ifs at delivered
    cases delivered
    have established := authentic.of_keepsAccounts
      (.modifyConn hive conn fun record => { record with established := true }) rfl
    have marked := established.of_keepsAccounts (.markConnected record.owner _) rfl
    have finished := marked.of_keepsAccounts (.finishedConnectOf env moment conn _)
      (sent_finishedConnectOf env moment conn _)
    unfold onConnected
    simp only
    split_ifs
    · exact finished
    · exact finished.checkNodeSubs moment record.owner
  · contradiction

theorem Authentic.deliverDisconnected (authentic : Authentic env hive) {moment : Moment}
    {conn : ConnId} (delivered : hive.deliverDisconnected env moment conn = some after) :
    Authentic env after := by
  apply authentic.of_keepsAccounts (.deliverDisconnected delivered)
  rw [HiveMind.deliverDisconnected] at delivered
  split at delivered
  · split_ifs at delivered
    cases delivered
    unfold onDisconnected
    simp only
    split_ifs
    · rw [sent_finishedConnectOf]
      rfl
    · rfl
  · contradiction

/-! ## Service node updates -/

theorem Authentic.dropNodes (authentic : Authentic env hive)
    (listing : Map Ed25519PK SnDetails) : Authentic env (hive.dropNodes listing) := by
  rw [HiveMind.dropNodes]
  generalize hive.sns.entries.filter (fun entry => entry.1 ∉ listing) = gone
  induction gone generalizing hive with
  | nil => exact authentic
  | cons entry rest ih =>
      apply ih
      have erased : Authentic env (hive.eraseSwarmNode (hive.node entry.2).swarm entry.2) :=
        authentic.of_frame rfl rfl rfl fun _ _ live => Or.inl live
      exact (erased.disconnect entry.2).of_frame rfl rfl rfl fun _ _ live => Or.inl live

/-- A node that changes its swarm forgets its accounts. -/
theorem Authentic.moveNode (authentic : Authentic env hive) (ref : NodeRef) (swarm : UInt64) :
    Authentic env (hive.moveNode ref swarm) := by
  have erased : Authentic env (hive.eraseSwarmNode (hive.node ref).swarm ref) :=
    authentic.of_frame rfl rfl rfl fun _ _ live => Or.inl live
  have reset := erased.modifyNode ref (SNode.resetSwarm swarm) fun key live => by
    simp [SNode.liveAccounts, SNode.resetSwarm] at live
  exact reset.of_frame rfl rfl rfl fun _ _ live => Or.inl live

theorem Authentic.newNode (authentic : Authentic env hive) (now : SteadyTime) (key : Ed25519PK)
    (addr : RemoteAddress) (swarm : UInt64) :
    Authentic env (hive.newNode env now key addr swarm) := by
  have made : Authentic env (hive.withBlank addr swarm) := by
    refine authentic.of_frame rfl rfl rfl ?_
    intro ref account live
    simp only [withBlank, Function.update_apply] at live
    split_ifs at live
    · simp [SNode.liveAccounts, SNode.create] at live
    · exact Or.inl live
  exact (made.connect now hive.nodeCount).of_frame rfl rfl rfl fun _ _ live => Or.inl live

theorem Authentic.updateNodes {state : HiveMind × List NodeRef}
    (authentic : Authentic env state.1) (now : SteadyTime)
    (entries : List (Sigma fun _ : Ed25519PK => SnDetails)) :
    Authentic env (HiveMind.updateNodes env now entries state).1.1 := by
  induction entries generalizing state with
  | nil => exact authentic
  | cons entry rest ih =>
      rw [HiveMind.updateNodes]
      cases env.parseIp entry.2.ip with
      | none => exact authentic
      | some ip =>
          apply ih
          rw [updateNode]
          simp only
          split
          · split_ifs
            · exact (authentic.moveNode _ _).connectTo now _ _
            · exact authentic.connectTo now _ _
          · exact authentic.newNode now _ _ _

/-- Refreshing the cached swarms does not touch the keys. -/
theorem Authentic.refreshSubscribers (authentic : Authentic env hive) :
    Authentic env hive.refreshSubscribers := by
  have lookup := lookup_refreshSubscribers hive
  refine ⟨authentic.written, ⟨?_, ?_, ?_⟩, ?_, authentic.authorised⟩
  · intro id subscriber found
    rw [lookup] at found
    obtain ⟨old, oldFound, rfl⟩ := Option.map_eq_some_iff.mp found
    exact @Vouched.keyed _ _ authentic.vouched id old oldFound
  · intro id subscriber found
    rw [lookup] at found
    obtain ⟨old, oldFound, rfl⟩ := Option.map_eq_some_iff.mp found
    exact (authentic.vouched.genuine oldFound).of_identity_eq rfl
  · intro id subscriber found
    rw [lookup] at found
    obtain ⟨old, oldFound, rfl⟩ := Option.map_eq_some_iff.mp found
    intro sub held
    exact (authentic.vouched.signed oldFound sub held).of_identity_eq rfl
  · intro ref key live
    obtain ⟨subscriber, found, same⟩ := authentic.known ref key live
    have after := lookup key.id
    rw [found] at after
    exact ⟨_, after, same⟩

theorem Authentic.modifyNodes (authentic : Authentic env hive) (nodes : List NodeRef)
    (f : SNode → SNode)
    (live : ∀ node, ∀ key ∈ (f node).liveAccounts,
      key ∈ node.liveAccounts ∨ Known hive.subscribers key) :
    Authentic env (hive.modifyNodes nodes f) ∧
      (hive.modifyNodes nodes f).subscribers = hive.subscribers := by
  rw [HiveMind.modifyNodes]
  refine List.foldlRecOn (motive := fun current : HiveMind =>
    Authentic env current ∧ current.subscribers = hive.subscribers) nodes _ ⟨authentic, rfl⟩ ?_
  rintro current ⟨kept, same⟩ ref _
  refine ⟨kept.modifyNode ref f ?_, same⟩
  rw [same]
  exact live (current.node ref)

theorem Authentic.addAccounts (authentic : Authentic env hive) (nodes : List NodeRef)
    {account : SwarmPubkey} (known : Known hive.subscribers account) (forceNow : Bool) :
    Authentic env (hive.modifyNodes nodes (SNode.addAccount account forceNow)) ∧
      (hive.modifyNodes nodes (SNode.addAccount account forceNow)).subscribers =
        hive.subscribers := by
  apply authentic.modifyNodes nodes
  intro node key live
  rcases SNode.mem_liveAccounts_addAccount live with rfl | old
  · exact Or.inr known
  · exact Or.inl old

theorem Authentic.swarmJob (authentic : Authentic env hive) {accounts : List SwarmPubkey}
    (known : ∀ account ∈ accounts, Known hive.subscribers account) (swarmIds : List UInt64)
    (swarm : UInt64) (nodes : List NodeRef) :
    Authentic env (hive.swarmJob accounts swarmIds swarm nodes) ∧
      (hive.swarmJob accounts swarmIds swarm nodes).subscribers = hive.subscribers := by
  have ejected := authentic.modifyNodes nodes (SNode.removeStaleSwarmMembers swarmIds)
    fun _ _ live => Or.inl (SNode.mem_liveAccounts_removeStaleSwarmMembers live)
  rw [HiveMind.swarmJob]
  refine List.foldlRecOn (motive := fun current : HiveMind =>
    Authentic env current ∧ current.subscribers = hive.subscribers) accounts _ ejected ?_
  rintro current ⟨kept, same⟩ account member
  split_ifs
  · have added := kept.addAccounts nodes (same ▸ known account member) false
    exact ⟨added.1, added.2.trans same⟩
  · exact ⟨kept, same⟩

theorem Authentic.recheck (authentic : Authentic env hive) (moment : Moment) :
    Authentic env (hive.recheck env moment) := by
  have refreshed := authentic.refreshSubscribers
  have known : ∀ account ∈ shuffle moment.accountOrder
      (hive.refreshSubscribers.subscribers.entries.map fun entry => entry.2.key),
      Known hive.refreshSubscribers.subscribers account := by
    intro account member
    obtain ⟨⟨id, subscriber⟩, inside, rfl⟩ := List.mem_map.mp (mem_shuffle.mp member)
    have found := (Map.mem_entries_iff_lookup _ _ _).mp inside
    exact ⟨subscriber, (refreshed.vouched.keyed found).symm ▸ found, rfl⟩
  rw [HiveMind.recheck]
  apply Authentic.checkSubs
  refine (List.foldlRecOn (motive := fun current : HiveMind =>
    Authentic env current ∧ current.subscribers = hive.refreshSubscribers.subscribers)
    hive.refreshSubscribers.swarms.entries _ ⟨refreshed, rfl⟩ ?_).1
  rintro current ⟨kept, same⟩ entry _
  have done := kept.swarmJob (fun account member => same ▸ known account member)
    current.swarmIds entry.1 entry.2
  exact ⟨done.1, done.2.trans same⟩

theorem Authentic.onSnsResponse (authentic : Authentic env hive) (moment : Moment)
    (data : SnsData) : Authentic env (hive.onSnsResponse env moment data).1 := by
  unfold HiveMind.onSnsResponse
  split
  · split
    · exact authentic
    · rename_i committed swarmsChanged refreshed
      have commits : Authentic env committed := by
        rw [(refreshSwarmIds_ok refreshed).1.unchanged]
        exact authentic.of_frame rfl rfl rfl fun _ _ live => Or.inl live
      split
      · exact commits
      · rename_i listing _
        have dropped : Authentic env (committed.dropNodes listing, ([] : List NodeRef)).1 :=
          commits.dropNodes listing
        have updated := dropped.updateNodes moment.steady
          (shuffle moment.updateOrder listing.entries)
        simp only
        split
        · rename_i loop
          rw [loop] at updated
          exact updated
        · rename_i last _ loop
          rw [loop] at updated
          have pruned : Authentic env last.pruneSwarms :=
            updated.of_frame rfl rfl rfl fun _ _ live => Or.inl live
          split_ifs
          · exact pruned.recheck moment
          · exact pruned
  · exact authentic

/-! ## Requests -/

theorem Known.remember {subscribers : Subscribers} {key : SwarmPubkey}
    (known : Known subscribers key) (pubkey : SwarmPubkey) (sub : Subscription) :
    Known (HiveMind.remember subscribers pubkey sub) key := by
  obtain ⟨subscriber, found, same⟩ := known
  rw [Known, lookup_remember]
  split_ifs with equal
  · refine ⟨_, rfl, ?_⟩
    rw [← equal, found]
    exact same
  · exact ⟨subscriber, found, same⟩

theorem known_remember_self {subscribers : Subscribers} {key : SwarmPubkey} (sub : Subscription)
    (agrees : ∀ subscriber, subscribers.lookup key.id = some subscriber →
      subscriber.key.identity = key.identity) :
    Known (HiveMind.remember subscribers key sub) key := by
  rw [Known, lookup_remember, if_pos rfl]
  refine ⟨_, rfl, ?_⟩
  cases found : subscribers.lookup key.id with
  | none => rfl
  | some subscriber => exact agrees subscriber found

/-- An accepted request under the key that its account is held with. -/
theorem Authentic.addSubscription (authentic : Authentic env hive) {request : AddRequest}
    (accepted : request.Accepted env)
    (agrees : ∀ subscriber, hive.subscribers.lookup request.pubkey.id = some subscriber →
      subscriber.key.ed25519 = request.pubkey.ed25519) :
    Authentic env (hive.addSubscription request).1 := by
  let located : SwarmPubkey := { request.pubkey with
    swarm := swarmOf hive.swarmIds request.pubkey.id }
  have genuine : located.Genuine env := accepted.genuine.of_identity_eq rfl
  have signed : request.sub.SignedBy env located := accepted.signed.of_identity_eq rfl
  have remembered : Authentic env { hive with
      db := (hive.db.addSubscription request).1
      subscribers := HiveMind.remember hive.subscribers located request.sub } :=
    { written := authentic.written.addSubscription accepted
      vouched := authentic.vouched.remember genuine signed agrees
      known := fun ref key live => (authentic.known ref key live).remember located request.sub
      authorised := authentic.authorised }
  have known : Known (HiveMind.remember hive.subscribers located request.sub) located := by
    apply known_remember_self
    intro subscriber found
    exact (authentic.vouched.genuine found).identity_eq genuine (authentic.vouched.keyed found)
      (agrees subscriber found)
  rw [addSubscription_eq]
  simp only
  split_ifs
  · rw [forceAccount]
    refine (Authentic.addAccounts ?_ _ known true).1
    exact remembered.of_frame rfl rfl rfl fun _ _ live => Or.inl live
  · exact remembered

theorem Authentic.of_db (authentic : Authentic env hive) {db : Database}
    (written : Written env db) : Authentic env { hive with db := db } :=
  ⟨written, authentic.vouched, authentic.known, authentic.authorised⟩

theorem Authentic.start (authentic : Authentic env hive) {now : SysTime} {threads : Nat}
    {clock : Nat → SysTime} (oneKey : OneKeyPerAccount (dbCleanup now hive.db).tables)
    (launched : start env now threads clock hive.db = .ok after) : Authentic env after := by
  have written : Written env (dbCleanup now hive.db) :=
    authentic.written.run (.dbCleanup _) fun _ other => by contradiction
  have vouched := vouched_start written oneKey launched
  obtain ⟨subs, -, -, rfl⟩ := start_ok launched
  refine ⟨written, vouched, ?_, ?_⟩
  · intro ref key live
    simp [started, blankNode, SNode.liveAccounts, SNode.create] at live
  · intro item member
    exact absurd member List.not_mem_nil

/-! ## Runs -/

/-- The event does not use an account with a second Ed25519 key: a request has
the key that its account is held with, if it is held, and a start finds one
Session key in all rows of an account. -/
def OneKey (hive : HiveMind) : Event → Prop
  | .addSubscription request => ∀ subscriber,
      hive.subscribers.lookup request.pubkey.id = some subscriber →
        subscriber.key.ed25519 = request.pubkey.ed25519
  | .start now _ _ => OneKeyPerAccount (dbCleanup now hive.db).tables
  | _ => True

end HiveMind

/-- Subscribe requests have been accepted by the request handler. -/
def Event.Accepted (env : Env) : Event → Prop
  | .addSubscription request => request.Accepted env
  | _ => True

namespace HiveMind

variable {env : Env} {hive after : HiveMind}

theorem authentic_initial (env : Env) : Authentic env initial where
  written := ⟨⟨[], fun _ member => absurd member List.not_mem_nil, rfl⟩⟩
  vouched := vouched_empty env
  known := by
    intro ref key live
    simp [initial, started, blankNode, SNode.liveAccounts, SNode.create] at live
  authorised := fun _ member => absurd member List.not_mem_nil

theorem Authentic.step {event : Event} (authentic : Authentic env hive)
    (taken : HiveMind.step env hive event = some after) (accepted : event.Accepted env)
    (oneKey : OneKey hive event) : Authentic env after := by
  replace taken := handle_of_step taken
  cases event with
  | start now threads clock =>
      cases launched : HiveMind.start env now threads clock hive.db with
      | error failure => simp [handle, launched, Except.toOption] at taken
      | ok started =>
          simp only [handle, launched, Except.toOption, Option.some.injEq] at taken
          exact taken ▸ authentic.start oneKey launched
  | addSubscription request =>
      cases taken
      exact authentic.addSubscription accepted oneKey
  | removeSubscription now request =>
      rw [handle] at taken
      cases removed : hive.removeSubscription env now request with
      | error failure =>
          rw [removed] at taken
          cases taken
          exact authentic
      | ok result =>
          rw [removed] at taken
          cases taken
          rw [HiveMind.removeSubscription] at removed
          split_ifs at removed
          split at removed
          · contradiction
          · cases removed
            exact authentic.of_db (authentic.written.run (.removeSubscription _)
              fun _ other => by contradiction)
  | dropRegistrations service svcids =>
      cases taken
      exact authentic.of_db (authentic.written.run (.dropRegistrations service svcids)
        fun _ other => by contradiction)
  | dbCleanup now =>
      cases taken
      exact authentic.of_db (authentic.written.run (.dbCleanup _) fun _ other => by contradiction)
  | snsResponse moment data =>
      cases taken
      exact authentic.onSnsResponse moment data
  | checkSubs moment =>
      cases taken
      exact authentic.checkSubs moment
  | checkMySubs moment ref =>
      cases taken
      exact authentic.checkNodeSubs moment ref
  | connect moment ref =>
      cases taken
      exact authentic.connect moment.steady ref
  | connectTo moment ref addr =>
      cases taken
      exact authentic.connectTo moment.steady ref addr
  | disconnect ref =>
      cases taken
      exact authentic.disconnect ref
  | connected moment conn => exact authentic.deliverConnected taken
  | disconnected moment conn => exact authentic.deliverDisconnected taken

/-- In every run of accepted requests, removals, service node updates,
connections and restarts in which no account is used with a second Ed25519
key, every dict of every monitor request is authorised by its own fields. -/
theorem always_authorised (env : Env) (events : List Event)
    (accepted : ∀ event ∈ events, event.Accepted env)
    (oneKey : Run.EveryStep (step env) (fun hive event _ => OneKey hive event) initial events) :
    Run.Always (step env) (AllAuthorised env) initial events := by
  have guarded := (Run.everyStep_of_forall (fun event member _ _ => accepted event member)
    initial).and oneKey
  refine ⟨(authentic_initial env).authorised, ?_⟩
  apply Run.EveryStep.of_guard (Authentic env) _ (authentic_initial env) _ guarded
  intro hive event next authentic taken met
  have kept := authentic.step taken met.1 met.2
  exact ⟨kept, kept.authorised⟩

/-! ## Two keys that convert to one account -/

/-- A conversion that ignores the sign bit of the key, as the one of libsodium
does, and signatures that begin with the key they are good for. -/
def signBitEnv : Env where
  verify := fun _ sig pk => sig.val.take 32 = pk.val
  toCurve := fun key => some ⟨key.val.take 31 ++ [key.byteAt 31 &&& 127], by
    rw [List.length_append, List.length_take, key.property]
    rfl⟩
  parseIp := Sample.env.parseIp
  maxPendingConnects := 10

/-- A key of `sessionAccount`, up to its last byte. -/
def sessionKey (last : UInt8) : Ed25519PK :=
  ⟨List.replicate 31 3 ++ [last], rfl⟩

def sessionAccount : AccountID := ⟨5 :: List.replicate 32 3, rfl⟩

/-- A subscription of `sessionAccount` on a device, signed under one of its
keys. -/
def sessionRequest (last device : UInt8) : AddRequest where
  pubkey := ⟨sessionAccount, sessionKey last, true, invalidSwarmId⟩
  service := [102]
  serviceId := List.replicate 32 device
  serviceData := none
  encKey := FixedBytes.replicate 32 2
  sub := Subscription.single 0 1700000000
    ⟨(sessionKey last).val ++ List.replicate 32 9, rfl⟩

theorem sessionRequest_accepted {last : UInt8} (signed : last = 3 ∨ last = 131) (device : UInt8) :
    (sessionRequest last device).Accepted signBitEnv := by
  have five : sessionAccount.byteAt 0 = 5 := rfl
  rcases signed with rfl | rfl
  · exact ⟨⟨some (sessionKey 3), iff_of_true rfl five, rfl⟩, ⟨1700000000, rfl⟩⟩
  · exact ⟨⟨some (sessionKey 131), iff_of_true rfl five, rfl⟩, ⟨1700000000, rfl⟩⟩

/-- Two devices subscribe, with a restart in between; then a service node is
found and connected. -/
def sessionRun (first other : UInt8) : List Event :=
  let now : SysTime := 1700000000 * second
  [.addSubscription (sessionRequest first 1),
    .start now 1 fun _ => now,
    .addSubscription (sessionRequest other 2),
    .snsResponse (Sample.moment now) (.reply ⟨some [97], some 1, [Sample.snState 7]⟩),
    .connected (Sample.moment now) 0]

theorem sessionRun_accepted {first other : UInt8} (firstSigned : first = 3 ∨ first = 131)
    (otherSigned : other = 3 ∨ other = 131) :
    ∀ event ∈ sessionRun first other, event.Accepted signBitEnv := by
  intro event member
  simp only [sessionRun, List.mem_cons, List.not_mem_nil, or_false] at member
  rcases member with rfl | rfl | rfl | rfl | rfl
  · exact sessionRequest_accepted firstSigned 1
  · trivial
  · exact sessionRequest_accepted otherSigned 2
  · trivial
  · trivial

/-- The keys, subaccounts and signatures that were sent. -/
def sentSignatures (hive : HiveMind) :
    List (Option Ed25519PK × Option Subaccount × Signature) :=
  hive.sent.flatMap fun sent => sent.2.2.map fun dict => (dict.P, dict.ST, dict.s)

/-- The second request is sent with the key of the first one. -/
theorem not_always_authorised_sessionRun :
    (∀ event ∈ sessionRun 3 131, event.Accepted signBitEnv) ∧
      ¬Run.Always (step signBitEnv) (AllAuthorised signBitEnv) initial (sessionRun 3 131) := by
  refine ⟨sessionRun_accepted (Or.inl rfl) (Or.inr rfl), ?_⟩
  intro always
  have outcome : (Run.exec (step signBitEnv) initial (sessionRun 3 131)).map sentSignatures =
      some [(some (sessionKey 3), none, (sessionRequest 3 1).sub.sig),
        (some (sessionKey 3), none, (sessionRequest 131 2).sub.sig)] := by
    decide +kernel
  obtain ⟨final, run, parts⟩ := Option.map_eq_some_iff.mp outcome
  have mixed : (some (sessionKey 3), none, (sessionRequest 131 2).sub.sig) ∈
      sentSignatures final := by
    rw [parts]
    exact List.mem_cons_of_mem _ List.mem_cons_self
  obtain ⟨item, itemMem, inside⟩ := List.mem_flatMap.mp mixed
  obtain ⟨dict, dictMem, equal⟩ := List.mem_map.mp inside
  obtain ⟨key, rest⟩ := Prod.mk.inj equal
  obtain ⟨noSubaccount, signature⟩ := Prod.mk.inj rest
  obtain ⟨account, pk, names, signed⟩ := always.of_exec run item itemMem dict dictMem
  rw [MonitorEntry.Names, key] at names
  rw [noSubaccount, signature, names.1] at signed
  have forged : ∀ message, signBitEnv.verify message (sessionRequest 131 2).sub.sig
      (sessionKey 3) = false := fun _ => rfl
  exact Bool.false_ne_true ((forged _).symm.trans signed)

/-- The test of `OneKey` on a concrete run. -/
def oneKeyTest (hive : HiveMind) : Event → Bool
  | .addSubscription request =>
      (hive.subscribers.lookup request.pubkey.id).all fun subscriber =>
        subscriber.key.ed25519 = request.pubkey.ed25519
  | .start now _ _ =>
      let rows := (dbCleanup now hive.db).tables.subscriptions
      rows.all fun first => rows.all fun second =>
        first.device.account = second.device.account →
          first.data.sessionEd25519 = second.data.sessionEd25519
  | _ => true

theorem oneKey_of_test (hive : HiveMind) (event : Event) (tested : oneKeyTest hive event = true) :
    OneKey hive event := by
  cases event with
  | addSubscription request =>
      intro subscriber found
      simp only [oneKeyTest, found, Option.all_some, decide_eq_true_eq] at tested
      exact tested
  | start now threads clock =>
      intro first firstMem other otherMem
      simp only [oneKeyTest, List.all_eq_true, decide_eq_true_eq] at tested
      exact tested first firstMem other otherMem
  | _ => trivial

/-- With the same key both are good. -/
theorem sessionRun_authorised :
    ∃ hive, Run.exec (step signBitEnv) initial (sessionRun 3 3) = some hive ∧
      (sentSignatures hive).length = 2 ∧ AllAuthorised signBitEnv hive := by
  have outcome : (Run.exec (step signBitEnv) initial (sessionRun 3 3)).map
      (fun hive => (sentSignatures hive).length) = some 2 := by
    decide +kernel
  obtain ⟨final, run, sent⟩ := Option.map_eq_some_iff.mp outcome
  have always := always_authorised signBitEnv (sessionRun 3 3)
    (sessionRun_accepted (Or.inl rfl) (Or.inl rfl))
    (Run.EveryStep.of_testSteps oneKeyTest oneKey_of_test (by decide +kernel))
  exact ⟨final, run, sent, always.of_exec run⟩

end HiveMind

end Spns
