import Spns.HiveMind.Subscribers

/-!
# Remembering subscriptions

The loading loop and `add_subscription` are written separately, but both put
a subscription into `subscribers_` in the same way.  `remember` is that one
operation; a successful start-up is a sequence of it over the rows inside the
window, and `rememberSubscription` is one instance.
-/

namespace Spns

open Spns.Hive
open Spns.Lib.Unordered
open Spns.Storage

/-- A subscription offered to the server, by a stored row or by a request. -/
structure Offer where
  account : AccountID
  subaccount : Option Subaccount
  namespaces : List Int
  wantData : Bool
  sigTs : Int
  sig : Signature

namespace Hive.Subscription

/-- The subscription as an offer of an account. -/
def offer (account : AccountID) (sub : Subscription) : Offer :=
  ⟨account, sub.subaccount, sub.namespaces, sub.wantData, sub.sigTs, sub.sig⟩

end Hive.Subscription

namespace LoadedRow

/-- The row as an offer. -/
def offer (row : LoadedRow) : Offer :=
  ⟨row.pubkey.id, row.subaccount, row.namespaces, row.wantData, row.sigTs, row.sig⟩

end LoadedRow

namespace HiveMind

/-- Put a subscription into the map. -/
def remember (subscribers : Subscribers) (pubkey : SwarmPubkey) (sub : Subscription) :
    Subscribers :=
  let entry := (subscribers.lookup pubkey.id).getD ⟨pubkey, []⟩
  subscribers.insert pubkey.id
    { entry with subscriptions := mergeSubscription sub entry.subscriptions }

/-- Put a list of subscriptions into the map, one after the other. -/
def rememberAll (subscribers : Subscribers) (subs : List (SwarmPubkey × Subscription)) :
    Subscribers :=
  subs.foldl (fun subscribers item => remember subscribers item.1 item.2) subscribers

/-- The subscriptions of an account. -/
def subscriptionsOf (subscribers : Subscribers) (id : AccountID) : List Subscription :=
  match subscribers.lookup id with
  | some subscriber => subscriber.subscriptions
  | none => []

theorem lookup_remember (subscribers : Subscribers) (pubkey : SwarmPubkey) (sub : Subscription)
    (id : AccountID) :
    (remember subscribers pubkey sub).lookup id =
      if id = pubkey.id then
        some ⟨((subscribers.lookup pubkey.id).getD ⟨pubkey, []⟩).key,
          mergeSubscription sub (subscriptionsOf subscribers pubkey.id)⟩
      else subscribers.lookup id := by
  unfold remember subscriptionsOf
  rw [Map.lookup_insert_eq]
  cases subscribers.lookup pubkey.id <;> rfl

theorem mem_remember {subscribers : Subscribers} {pubkey : SwarmPubkey} {sub : Subscription}
    {id : AccountID} :
    id ∈ remember subscribers pubkey sub ↔ id = pubkey.id ∨ id ∈ subscribers := by
  rw [remember]
  exact AList.mem_insert _

theorem subscriptionsOf_remember (subscribers : Subscribers) (pubkey : SwarmPubkey)
    (sub : Subscription) (id : AccountID) :
    subscriptionsOf (remember subscribers pubkey sub) id =
      if id = pubkey.id then mergeSubscription sub (subscriptionsOf subscribers id)
      else subscriptionsOf subscribers id := by
  have found := lookup_remember subscribers pubkey sub id
  split_ifs with equal
  · rw [if_pos equal] at found
    rw [subscriptionsOf, found, equal]
  · rw [if_neg equal] at found
    rw [subscriptionsOf, found, subscriptionsOf]

/-! ## Loading -/

theorem renewFirst_eq_some_of_same {same : Subscription → Bool}
    {renew : Subscription → Subscription} {subs renewed : List Subscription}
    (found : renewFirst same renew subs = some renewed) : ∃ sub ∈ subs, same sub = true := by
  induction subs generalizing renewed with
  | nil => contradiction
  | cons first rest ih =>
      rw [renewFirst] at found
      split_ifs at found with match_
      · exact ⟨first, List.mem_cons_self, match_⟩
      · obtain ⟨tail, tailFound, -⟩ := Option.map_eq_some_iff.mp found
        obtain ⟨sub, member, matching⟩ := ih tailFound
        exact ⟨sub, List.mem_cons_of_mem first member, matching⟩

/-- The loading loop puts a row into the map as `add_subscription` would. -/
theorem mergeRow_ok {env : Env} {sysNow : Int} {subscribers after : Subscribers} {row : LoadedRow}
    (merged : mergeRow env sysNow subscribers row = .ok after) :
    ∃ sub : Subscription, sub.offer row.pubkey.id = row.offer ∧
      after = remember subscribers row.pubkey sub := by
  unfold mergeRow at merged
  simp only at merged
  split at merged
  · rename_i renewed found
    cases merged
    obtain ⟨existing, -, matching⟩ := renewFirst_eq_some_of_same found
    -- The row has the namespaces of an entry, so it is a subscription too.
    have namespaces : existing.namespaces = row.namespaces := by
      simp only [Subscription.isSameParts, Bool.and_eq_true, beq_iff_eq] at matching
      exact matching.1.2
    let sub : Subscription := ⟨row.subaccount, row.namespaces, row.wantData, row.sigTs, row.sig,
      namespaces ▸ existing.nonempty, namespaces ▸ existing.sorted⟩
    refine ⟨sub, rfl, ?_⟩
    have mergedEq : mergeSubscription sub
        ((subscribers.lookup row.pubkey.id).getD ⟨row.pubkey, []⟩).subscriptions = renewed := by
      rw [mergeSubscription]
      simp only [Subscription.isSame, Subscription.isNewer, decide_eq_true_eq, sub, found]
    rw [remember, mergedEq]
  · rename_i missing
    split at merged
    · contradiction
    · rename_i sub built
      cases merged
      obtain ⟨subaccount, namespaces, wantData, sigTs, sig⟩ := Subscription.make_eq_ok_fields built
      refine ⟨sub, ?_, ?_⟩
      · rw [Subscription.offer, subaccount, namespaces, wantData, sigTs, sig]
        rfl
      · have mergedEq : mergeSubscription sub
            ((subscribers.lookup row.pubkey.id).getD ⟨row.pubkey, []⟩).subscriptions =
            ((subscribers.lookup row.pubkey.id).getD ⟨row.pubkey, []⟩).subscriptions ++ [sub] := by
          rw [mergeSubscription]
          simp only [Subscription.isSame, Subscription.isNewer, decide_eq_true_eq, subaccount,
            namespaces, wantData, sigTs, sig, missing]
        rw [remember, mergedEq]

/-- The rows that pass the window when the loading loop reaches them. -/
def windowRows (clock : Nat → SysTime) (total : Nat) :
    List LoadedRow → Nat → Nat → Nat → List LoadedRow
  | [], _, _, _ => []
  | row :: rows, count, rawCount, clockReads =>
      if outsideCutoff (floorSeconds (clock clockReads)) row then
        windowRows clock total rows count (rawCount + 1) clockReads
      else
        let again := (count + 1) % 1000 = 0 ∨ rawCount + 1 = total
        row :: windowRows clock total rows (count + 1) (rawCount + 1)
          (clockReads + if again then 1 else 0)

/-- The loading loop remembers the rows inside the window. -/
theorem loadLoop_ok {env : Env} {clock : Nat → SysTime} {total : Nat} {rows : List LoadedRow}
    {state final : LoadState} (loaded : loadLoop env clock total rows state = .ok final) :
    ∃ subs : List (SwarmPubkey × Subscription),
      subs.map (fun item => item.2.offer item.1.id) =
        (windowRows clock total rows state.count state.rawCount state.clockReads).map
          LoadedRow.offer ∧
      (∀ item ∈ subs, ∃ row ∈ rows, item.1 = row.pubkey ∧ item.2.offer item.1.id = row.offer) ∧
      final.subscribers = rememberAll state.subscribers subs := by
  induction rows generalizing state with
  | nil =>
      cases loaded
      exact ⟨[], rfl, fun item member => by simp at member, rfl⟩
  | cons row rows ih =>
      rw [loadLoop] at loaded
      rw [windowRows]
      simp only at loaded ⊢
      by_cases outside : outsideCutoff (floorSeconds (clock state.clockReads)) row = true
      · rw [if_pos outside] at loaded ⊢
        obtain ⟨subs, offers, keys, equal⟩ := ih loaded
        refine ⟨subs, offers, fun item member => ?_, equal⟩
        obtain ⟨source, sourceMem, keyEq⟩ := keys item member
        exact ⟨source, List.mem_cons_of_mem row sourceMem, keyEq⟩
      · rw [if_neg outside] at loaded ⊢
        split at loaded
        · contradiction
        · rename_i after merged
          obtain ⟨sub, offerEq, rfl⟩ := mergeRow_ok merged
          obtain ⟨subs, offers, keys, equal⟩ := ih loaded
          refine ⟨(row.pubkey, sub) :: subs, ?_, ?_, equal⟩
          · rw [List.map_cons, List.map_cons, offers, offerEq]
          · intro item member
            rcases List.mem_cons.mp member with rfl | later
            · exact ⟨row, List.mem_cons_self, rfl, offerEq⟩
            · obtain ⟨source, sourceMem, keyEq⟩ := keys item later
              exact ⟨source, List.mem_cons_of_mem row sourceMem, keyEq⟩

theorem mem_of_mapM_ok {α β ε : Type} {f : α → Except ε β} {items : List α} {results : List β}
    (mapped : items.mapM f = .ok results) {result : β} (member : result ∈ results) :
    ∃ item ∈ items, f item = .ok result := by
  induction items generalizing results with
  | nil =>
      cases mapped
      contradiction
  | cons item rest ih =>
      rw [List.mapM_cons] at mapped
      cases first : f item with
      | error failure =>
          rw [first] at mapped
          contradiction
      | ok value =>
          rw [first] at mapped
          cases tail : rest.mapM f with
          | error failure =>
              rw [tail] at mapped
              contradiction
          | ok values =>
              rw [tail] at mapped
              cases mapped
              rcases List.mem_cons.mp member with rfl | later
              · exact ⟨item, List.mem_cons_self, first⟩
              · obtain ⟨source, sourceMem, equal⟩ := ih tail later
                exact ⟨source, List.mem_cons_of_mem item sourceMem, equal⟩

/-- A loading thread makes the key from the columns of the row. -/
theorem make_of_loadRow {env : Env} {tables : Tables} {row : Row} {loaded : LoadedRow}
    (read : loadRow env tables row = .ok loaded) :
    SwarmPubkey.make env.toCurve row.device.account row.data.sessionEd25519 true =
      .ok loaded.pubkey := by
  rw [loadRow] at read
  cases made : SwarmPubkey.make env.toCurve row.device.account row.data.sessionEd25519 true with
  | error failure =>
      rw [made] at read
      contradiction
  | ok pubkey =>
      rw [made] at read
      cases read
      rfl

/-- A loaded key has no swarm yet. -/
theorem swarm_of_loadRow {env : Env} {tables : Tables} {row : Row} {loaded : LoadedRow}
    (read : loadRow env tables row = .ok loaded) : loaded.pubkey.swarm = invalidSwarmId := by
  rw [SwarmPubkey.eq_of_make (make_of_loadRow read)]

/-- The subscriptions that a start on these tables loads. -/
def loadedOffers (env : Env) (tables : Tables) (threads : Nat) (clock : Nat → SysTime) :
    List Offer :=
  match collectRows env tables threads with
  | .ok rows => (windowRows clock rows.length rows 0 0 0).map LoadedRow.offer
  | .error _ => []

/-- What a start-up that succeeds leaves: every subscription in memory comes from
a row, with the key of that row. -/
theorem start_ok {env : Env} {now : SysTime} {threads : Nat} {clock : Nat → SysTime}
    {db : Database} {hive : HiveMind} (launched : start env now threads clock db = .ok hive) :
    ∃ subs : List (SwarmPubkey × Subscription),
      subs.map (fun item => item.2.offer item.1.id) =
        loadedOffers env (dbCleanup now db).tables threads clock ∧
      (∀ item ∈ subs, ∃ row ∈ (dbCleanup now db).tables.subscriptions, ∃ loaded,
        loadRow env (dbCleanup now db).tables row = .ok loaded ∧ item.1 = loaded.pubkey ∧
          item.2.offer item.1.id = loaded.offer) ∧
      hive = started (dbCleanup now db) (rememberAll ∅ subs) := by
  unfold start at launched
  simp only at launched
  split at launched
  · contradiction
  · rename_i subscribers loaded
    cases launched
    rw [loadSavedSubscriptions] at loaded
    rw [loadedOffers]
    split_ifs at loaded
    split at loaded
    · contradiction
    · rename_i rows collected
      rw [collected]
      split at loaded
      · contradiction
      · rename_i state ran
        cases loaded
        obtain ⟨subs, offers, keys, equal⟩ := loadLoop_ok ran
        refine ⟨subs, offers, fun item member => ?_, by rw [equal]⟩
        obtain ⟨loaded, loadedMem, keyEq, offerEq⟩ := keys item member
        rw [collectRows] at collected
        obtain ⟨row, rowMem, read⟩ := mem_of_mapM_ok collected loadedMem
        obtain ⟨thread, -, inside⟩ := List.mem_flatMap.mp rowMem
        exact ⟨row, (List.mem_filter.mp inside).1, loaded, read, keyEq, offerEq⟩

/-! ## Requests -/

theorem rememberSubscription_eq (pubkey : SwarmPubkey) (sub : Subscription) (newSub : Bool)
    (hive : HiveMind) :
    hive.rememberSubscription pubkey sub newSub =
      let located : SwarmPubkey := { pubkey with swarm := swarmOf hive.swarmIds pubkey.id }
      let remembered := { hive with subscribers := remember hive.subscribers located sub }
      if newSub then remembered.forceAccount located else remembered := by
  unfold rememberSubscription remember
  rw [SwarmPubkey.updateSwarm_fst]

theorem addSubscription_eq (request : AddRequest) (hive : HiveMind) :
    (hive.addSubscription request).1 =
      let located : SwarmPubkey :=
        { request.pubkey with swarm := swarmOf hive.swarmIds request.pubkey.id }
      let remembered := { hive with
        db := (hive.db.addSubscription request).1
        subscribers := remember hive.subscribers located request.sub }
      if (hive.db.addSubscription request).2 then remembered.forceAccount located
      else remembered :=
  rememberSubscription_eq request.pubkey request.sub _ _

end HiveMind

end Spns
