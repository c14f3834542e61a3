import Spns.HiveMind.Core

/-!
# Loading, adding and removing subscriptions

At start-up the server reads every stored subscription back from the database;
afterwards `add_subscription` and `remove_subscription` change the database
and, for additions, the subscriptions held in memory.  Both the loading loop
and `add_subscription` look for an equivalent subscription of the account
first and only refresh its signature when there is one.
-/

namespace Spns

open Spns.Hive
open Spns.Lib.Bencode
open Spns.Lib.Unordered
open Spns.Storage

/-- `unix_timestamp`: whole seconds, truncated. -/
def unixTimestamp (time : SysTime) : Int :=
  time.tdiv second

/-- `std::chrono::floor<std::chrono::seconds>` -/
def floorSeconds (time : SysTime) : Int :=
  time.fdiv second

/-- `UNSUBSCRIBE_GRACE`, in seconds. -/
def unsubscribeGrace : Int := 24 * 3600

/-- Renew the first subscription that passes a test; `none` when there is no
such subscription. -/
def renewFirst (same : Subscription → Bool) (renew : Subscription → Subscription) :
    List Subscription → Option (List Subscription)
  | [] => none
  | existing :: rest =>
      if same existing then
        some (renew existing :: rest)
      else
        (renewFirst same renew rest).map (existing :: ·)

/-! ## Start-up -/

/-- One row as a loading thread collects it. -/
structure LoadedRow where
  pubkey : SwarmPubkey
  subaccount : Option Subaccount
  sig : Signature
  sigTs : Int
  wantData : Bool
  namespaces : List Int

/-- The `emplace_back` of a loading thread. -/
def loadRow (env : Env) (tables : Tables) (row : Row) : Except String LoadedRow := do
  let pubkey ← SwarmPubkey.make env.toCurve row.device.account row.data.sessionEd25519 true
  let subaccount :=
    match row.data.subaccountTag, row.data.subaccountSig with
    | some tag, some sig => some ⟨tag, sig⟩
    | _, _ => none
  pure ⟨pubkey, subaccount, row.data.signature, row.data.signatureTs, row.data.wantData,
    tables.namespacesOf row.id⟩

/-- The rows that `threads` loading threads collect, thread after thread. -/
def collectRows (env : Env) (tables : Tables) (threads : Nat) : Except String (List LoadedRow) :=
  ((List.range threads).flatMap fun i =>
    tables.subscriptions.filter fun row => row.id % threads = i).mapM (loadRow env tables)

/-- The row is outside the window of signatures worth loading. -/
def outsideCutoff (sysNow : Int) (row : LoadedRow) : Bool :=
  row.sigTs ≤ sysNow - signatureExpiry + 5 || row.sigTs ≥ sysNow + signatureEarly

/-- The body of the loading loop for a row inside the window. -/
def mergeRow (env : Env) (sysNow : Int) (subscribers : Subscribers) (row : LoadedRow) :
    Except String Subscribers :=
  let entry := (subscribers.lookup row.pubkey.id).getD ⟨row.pubkey, []⟩
  let same := fun existing : Subscription =>
    existing.isSameParts row.subaccount row.namespaces row.wantData
  let renew := fun existing : Subscription =>
    if row.sigTs > existing.sigTs then existing.refresh row.sigTs row.sig else existing
  match renewFirst same renew entry.subscriptions with
  | some renewed => .ok (subscribers.insert row.pubkey.id { entry with subscriptions := renewed })
  | none =>
      match Subscription.make env.verify row.pubkey row.subaccount row.namespaces row.wantData
          row.sigTs row.sig true sysNow with
      | .error failure => .error failure
      | .ok sub =>
          .ok (subscribers.insert row.pubkey.id
            { entry with subscriptions := entry.subscriptions ++ [sub] })

/-- Position of the loading loop: the map, the loaded and the raw row counts,
and how often the clocks have been read. -/
structure LoadState where
  subscribers : Subscribers
  count : Nat
  rawCount : Nat
  clockReads : Nat

/-- The loading loop.  `clock` gives the successive readings of
`update_clocks`; the clocks are read again after every thousandth loaded row
and at the end. -/
def loadLoop (env : Env) (clock : Nat → SysTime) (total : Nat) :
    List LoadedRow → LoadState → Except String LoadState
  | [], state => .ok state
  | row :: rows, state =>
      let sysNow := floorSeconds (clock state.clockReads)
      let rawCount := state.rawCount + 1
      if outsideCutoff sysNow row then
        loadLoop env clock total rows { state with rawCount := rawCount }
      else
        match mergeRow env sysNow state.subscribers row with
        | .error failure => .error failure
        | .ok subscribers =>
            let count := state.count + 1
            let again := count % 1000 = 0 ∨ rawCount = total
            loadLoop env clock total rows
              ⟨subscribers, count, rawCount, state.clockReads + if again then 1 else 0⟩

/-- A value as a signed 32-bit integer. -/
def int32 (value : Int) : Int :=
  Int.bmod value (2 ^ 32)

/-- The capacity `11 * total / (10 * n)` that each thread reserves.  All of it
is `int` arithmetic; products that do not fit wrap around. -/
def reserveCount (total threads : Nat) : Int :=
  (int32 (11 * total)).tdiv (int32 (10 * threads))

/-- `load_saved_subscriptions`.  The row count is read as an `int`, and a
negative capacity is an enormous `size_t`. -/
def loadSavedSubscriptions (env : Env) (tables : Tables) (threads : Nat)
    (clock : Nat → SysTime) : Except String Subscribers :=
  let total := tables.subscriptions.length
  if 2 ^ 31 ≤ total then
    .error ("Could not convert '" ++ toString total ++ "' to int: Value out of range.")
  else if reserveCount total threads < 0 then
    .error "vector::reserve"
  else
    match collectRows env tables threads with
    | .error failure => .error failure
    | .ok rows =>
        match loadLoop env clock rows.length rows ⟨∅, 0, 0, 0⟩ with
        | .error failure => .error failure
        | .ok state => .ok state.subscribers

namespace HiveMind

/-- `db_cleanup` -/
def dbCleanup (now : SysTime) (db : Database) : Database :=
  db.cleanup (unixTimestamp (now - signatureExpiry * second))

/-- A node that no reference points to. -/
def blankNode : SNode :=
  SNode.create ⟨FixedBytes.replicate 32 0, [], 0⟩ invalidSwarmId

/-- The server right after its subscriptions have been loaded. -/
def started (db : Database) (subscribers : Subscribers) : HiveMind where
  db := db
  quicOut := true
  node := fun _ => blankNode
  nodeCount := 0
  sns := ∅
  swarms := ∅
  swarmIds := []
  subscribers := subscribers
  lastBlock := ([], -1)
  pendingConnects := 0
  connectCount := 0
  conns := []
  sent := []

/-- Start-up: clean the database, then load what it holds.  An error is the
exception that ends the process. -/
def start (env : Env) (now : SysTime) (threads : Nat) (clock : Nat → SysTime) (db : Database) :
    Except String HiveMind :=
  let cleaned := dbCleanup now db
  match loadSavedSubscriptions env cleaned.tables threads clock with
  | .error failure => .error failure
  | .ok subscribers => .ok (started cleaned subscribers)

/-! ## Requests -/

/-- The new value of `subscribers_[pubkey]` after `add_subscription`. -/
def mergeSubscription (sub : Subscription) (subscriptions : List Subscription) :
    List Subscription :=
  let renew := fun existing : Subscription =>
    if sub.isNewer existing then existing.refresh sub.sigTs sub.sig else existing
  match renewFirst (fun existing => existing.isSame sub) renew subscriptions with
  | some renewed => renewed
  | none => subscriptions ++ [sub]

/-- Force a resubscription of the account on every node of its swarm. -/
def forceAccount (account : SwarmPubkey) (hive : HiveMind) : HiveMind :=
  let nodes := hive.swarmNodes account.swarm
  { hive with swarms := hive.swarms.insert account.swarm nodes }.modifyNodes nodes
    (SNode.addAccount account true)

/-- The part of `add_subscription` that runs on the loop thread. -/
def rememberSubscription (pubkey : SwarmPubkey) (sub : Subscription) (newSub : Bool)
    (hive : HiveMind) : HiveMind :=
  let pubkey := (pubkey.updateSwarm hive.swarmIds).1
  let entry := (hive.subscribers.lookup pubkey.id).getD ⟨pubkey, []⟩
  let merged := { entry with subscriptions := mergeSubscription sub entry.subscriptions }
  let hive := { hive with subscribers := hive.subscribers.insert pubkey.id merged }
  if newSub then hive.forceAccount pubkey else hive

/-- `add_subscription` -/
def addSubscription (request : AddRequest) (hive : HiveMind) : HiveMind × Bool :=
  let (db, newSub) := hive.db.addSubscription request
  ({ hive with db := db }.rememberSubscription request.pubkey request.sub newSub, newSub)

/-- The arguments of `remove_subscription`. -/
structure RemoveRequest where
  pubkey : SwarmPubkey
  subaccount : Option Subaccount
  service : Bytes
  serviceId : Bytes
  sig : Signature
  sigTs : Int

/-- `"UNSUBSCRIBE" || HEX(ACCOUNT) || SIG_TS` -/
def unsubscribeMessage (request : RemoveRequest) : Bytes :=
  [85, 78, 83, 85, 66, 83, 67, 82, 73, 66, 69] ++ toHex request.pubkey.id.val ++
    intText request.sigTs

/-- `remove_subscription`; nothing but the database changes. -/
def removeSubscription (env : Env) (now : SysTime) (request : RemoveRequest) (hive : HiveMind) :
    Except String (HiveMind × Bool) :=
  if request.sigTs < unixTimestamp (now - unsubscribeGrace * second) ∨
      request.sigTs > unixTimestamp (now + unsubscribeGrace * second) then
    .error "Invalid signature: sig_ts is too far from current time"
  else
    match verifyStorageSignature env.verify (unsubscribeMessage request) request.sig
        request.pubkey request.subaccount with
    | .error failure => .error failure
    | .ok () =>
        let (db, removed) :=
          hive.db.removeSubscription ⟨request.pubkey.id, request.service, request.serviceId⟩
        .ok ({ hive with db := db }, removed)

end HiveMind

end Spns
