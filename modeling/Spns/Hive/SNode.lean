import Spns.Hive.Subscription
import Spns.Lib.Unordered

/-!
# Service nodes: accounts and the resubscription queue

An `SNode` holds the accounts that it monitors for us twice: in the set `subs`
and as entries of the queue `next`, ordered by the time of their next
resubscription.  A queue entry is deleted lazily by resetting its account.
Each copy of an account carries its own cached swarm id.

The connection fields are part of the record; the operations that drive them
share counters with the whole server and live in `Spns.HiveMind.Connections`.
-/

namespace Spns.Hive

open Spns
open Spns.Lib.Unordered

/-- Points of the system clock, in nanoseconds since its epoch. -/
abbrev SysTime := Int

/-- Points of the steady clock, in nanoseconds. -/
abbrev SteadyTime := Int

/-- `system_epoch` -/
def systemEpoch : SysTime := 0

/-- `SUBS_REQUEST_LIMIT` -/
def subsRequestLimit : Nat := 2000

/-- `RESUBSCRIBE_MIN`, 45 minutes in seconds. -/
def resubscribeMin : Int := 45 * 60

/-- `RESUBSCRIBE_MAX`, 55 minutes in seconds. -/
def resubscribeMax : Int := 55 * 60

/-- A delay that `uniform_int_distribution` can draw, in seconds. -/
abbrev Delay := { seconds : Int // resubscribeMin ≤ seconds ∧ seconds ≤ resubscribeMax }

/-- The delay of `RESUBSCRIBE_MIN`. -/
def shortestDelay : Delay :=
  ⟨resubscribeMin, by decide⟩

/-- Index of a connection in the order in which connections were opened. -/
abbrev ConnId := Nat

/-- `quic::RemoteAddress`: the node's key, its parsed ip address and port. -/
structure RemoteAddress where
  key : Ed25519PK
  ip : Bytes
  port : UInt16
  deriving DecidableEq

/-- One element of the queue `next_`; a reset account is a deleted entry. -/
structure QueueEntry where
  account : Option SwarmPubkey
  time : SysTime
  deriving DecidableEq

/-- A key of `subscribers_` with its mutable swarm cache, and its value. -/
structure Subscriber where
  key : SwarmPubkey
  subscriptions : List Subscription
  deriving DecidableEq

/-- `subscribers_`, keyed by account id. -/
abbrev Subscribers := Map AccountID Subscriber

/-- The state of one service node.  A stream is named by the connection it
was opened on. -/
structure SNode where
  conn : Option ConnId
  addr : RemoteAddress
  stream : Option ConnId
  connected : Bool
  subs : Map AccountID SwarmPubkey
  swarm : UInt64
  next : List QueueEntry
  cooldownUntil : Option SteadyTime
  cooldownFails : Nat

/-- The dict that `check_subs` appends to a monitor request for one
subscription, by its bencode keys. -/
structure MonitorEntry where
  P : Option Ed25519PK
  ST : Option Subaccount
  d : Bool
  n : List Int
  p : Option AccountID
  s : Signature
  t : Int
  deriving DecidableEq

/-- The body of one `monitor` request. -/
abbrev MonitorRequest := List MonitorEntry

namespace SNode

/-- A node object before its constructor tries to connect. -/
def create (addr : RemoteAddress) (swarm : UInt64) : SNode where
  conn := none
  addr := addr
  stream := none
  connected := false
  subs := ∅
  swarm := swarm
  next := []
  cooldownUntil := none
  cooldownFails := 0

/-! ## Account operations -/

/-- Reset the first live queue entry of an account. -/
def clearFirst (id : AccountID) : List QueueEntry → List QueueEntry
  | [] => []
  | entry :: rest =>
      if entry.account.map SwarmPubkey.id = some id then
        { entry with account := none } :: rest
      else
        entry :: clearFirst id rest

/-- `add_account` -/
def addAccount (account : SwarmPubkey) (forceNow : Bool) (node : SNode) : SNode :=
  if account.id ∈ node.subs then
    if forceNow then
      { node with next := ⟨some account, systemEpoch⟩ :: clearFirst account.id node.next }
    else
      node
  else
    { node with
      subs := node.subs.insert account.id account
      next := ⟨some account, systemEpoch⟩ :: node.next }

/-- `reset_swarm` -/
def resetSwarm (newSwarm : UInt64) (node : SNode) : SNode :=
  { node with next := [], subs := ∅, swarm := newSwarm }

/-- The test of `remove_stale_swarm_members` on a queue entry: its own copy of
the account caches a swarm other than the node's. -/
def isStale (node : SNode) (entry : QueueEntry) : Bool :=
  match entry.account with
  | some key => key.swarm != node.swarm
  | none => false

/-- Erase the account of a stale entry from the set. -/
def eraseStale (node : SNode) (subs : Map AccountID SwarmPubkey) (entry : QueueEntry) :
    Map AccountID SwarmPubkey :=
  match entry.account with
  | some key => if node.isStale entry then subs.erase key.id else subs
  | none => subs

/-- `remove_stale_swarm_members`: the first loop refreshes the copies in
`subs`, the second one tests the copies in `next`. -/
def removeStaleSwarmMembers (swarmIds : List UInt64) (node : SNode) : SNode :=
  let refreshed := node.subs.mapVal fun _ key => (key.updateSwarm swarmIds).1
  { node with
    subs := node.next.foldl node.eraseStale refreshed
    next := node.next.map fun entry =>
      if node.isStale entry then { entry with account := none } else entry }

/-- The queue reset of `on_connected`. -/
def resetTimes (node : SNode) : SNode :=
  { node with next := node.next.map fun entry => { entry with time := systemEpoch } }

/-! ## Draining the queue -/

/-- The dict of one subscription of an account. -/
def monitorEntry (account : SwarmPubkey) (sub : Subscription) : MonitorEntry where
  P := if account.sessionEd then some account.ed25519 else none
  ST := sub.subaccount
  d := sub.wantData
  n := sub.namespaces
  p := if account.sessionEd then none else some account.id
  s := sub.sig
  t := sub.sigTs

/-- `sig_min` -/
def sigMin (now : SysTime) : SysTime :=
  int64 (now - signatureExpiry * second + 10 * second)

/-- `sig_max` -/
def sigMax (now : SysTime) : SysTime :=
  int64 (now + signatureEarly * second)

/-- The test of a subscription in `check_subs`: the storage servers still accept
its signature.  Its seconds are converted to clock ticks. -/
def inWindow (now : SysTime) (sub : Subscription) : Bool :=
  sigMin now ≤ int64 (sub.sigTs * second) ∧ int64 (sub.sigTs * second) ≤ sigMax now

/-- The time of the next renewal. -/
def renewAt (now : SysTime) (delay : Delay) : SysTime :=
  int64 (now + delay.val * second)

/-- What the loop of `check_subs` leaves: the entries it did not reach, those
it pushed to the back, the request, and whether it stopped at the limit. -/
structure Drained where
  rest : List QueueEntry
  added : List QueueEntry
  request : MonitorRequest
  rateLimited : Bool

/-- The loop of `check_subs` over the entries that were queued at its start.
Those that it pushes to the back lie at least `resubscribeMin` after `now`, and
the loop stops at the first of them.  That is so for all readings of the clock
but those in the last minutes of its range, where the sum wraps around; the
loop as it is written, with its queue, is in `Spns.Hive.CheckLoop`. -/
def drain (allSubs : Subscribers) (now : SysTime) (delays : Nat → Delay) :
    List QueueEntry → List QueueEntry → MonitorRequest → Drained
  | [], added, request => ⟨[], added, request, false⟩
  | entry :: rest, added, request =>
      if entry.time > now then
        ⟨entry :: rest, added, request, false⟩
      else
        match entry.account with
        | none => drain allSubs now delays rest added request
        | some account =>
            match allSubs.lookup account.id with
            | none => drain allSubs now delays rest added request
            | some subscriber =>
                let request := request ++
                  (subscriber.subscriptions.filter (inWindow now)).map (monitorEntry account)
                let added := added ++
                  [⟨some account, renewAt now (delays added.length)⟩]
                if subsRequestLimit ≤ request.length then
                  ⟨rest, added, request, true⟩
                else
                  drain allSubs now delays rest added request

/-- The lowest time that a renewed entry can have. -/
def earliestRenewal (now : SysTime) : SysTime :=
  int64 (now + resubscribeMin * second)

/-- The queue after the partial sort at the end of `check_subs`. -/
def resort (now : SysTime) (drained : Drained) : List QueueEntry :=
  let early := fun entry : QueueEntry => decide (entry.time < earliestRenewal now)
  drained.rest.takeWhile early ++
    List.insertionSort (fun first last => first.time ≤ last.time)
      (drained.rest.dropWhile early ++ drained.added)

/-- `check_subs` of a connected node, with the requests that it sends. -/
def checkQueue (allSubs : Subscribers) (now : SysTime) (delays : Nat → Delay) (node : SNode) :
    SNode × List MonitorRequest :=
  let drained := drain allSubs now delays node.next [] []
  ({ node with next := resort now drained },
    if drained.request = [] then [] else [drained.request])

end SNode

end Spns.Hive
