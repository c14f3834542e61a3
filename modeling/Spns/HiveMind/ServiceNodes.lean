import Spns.HiveMind.Connections

/-!
# Service node updates

`on_sns_response` brings the node indexes in line with a new list of service
nodes and, when the swarms or their members changed, rechecks which account
belongs to which node.  It commits the block and the swarm ids first, then
changes the nodes one by one, and only remembers in local flags that a
recheck is due; an exception in between leaves through the handler.

The JSON accessors `at` and `get` are not modelled: a field of a reply is
`none` where they throw.
-/

namespace Spns

open Spns.Hive
open Spns.Lib.Unordered

/-- One element of `service_node_states`. -/
structure SnState where
  pubkeyEd25519 : Option Bytes
  publicIp : Option Bytes
  storageLmqPort : Option UInt16
  swarmId : Option UInt64

/-- A reply whose `service_node_states` is an array. -/
structure SnsReply where
  blockHash : Option Bytes
  height : Option Int
  states : List SnState

/-- What `get_service_nodes` can answer. -/
inductive SnsData
  /-- not two parts -/
  | unexpectedParts
  /-- a status other than 200 -/
  | badStatus
  /-- a body that is not JSON -/
  | invalidJson
  /-- `service_node_states` is not an array -/
  | badStates
  | reply (reply : SnsReply)

/-- How a call of `on_sns_response` ends. -/
inductive Outcome
  /-- one of the early returns -/
  | returned
  /-- through the exception handler -/
  | failed (what : String)
  | completed
  deriving DecidableEq

/-- The usable details of a listed node. -/
structure SnDetails where
  ip : Bytes
  port : UInt16
  swarm : UInt64

/-- Sorted, duplicate-free and without the invalid id, as `std::set` gives it. -/
def toSwarmIds (ids : List UInt64) : List UInt64 :=
  (ids.filter (· ≠ invalidSwarmId)).dedup.insertionSort (· ≤ ·)

namespace SnsReply

/-- The swarm ids of all entries; `none` where some entry lacks one. -/
def swarmIds (reply : SnsReply) : Option (List UInt64) :=
  (reply.states.mapM SnState.swarmId).map toSwarmIds

end SnsReply

/-- The text `0.0.0.0`. -/
def anyAddress : Bytes := [48, 46, 48, 46, 48, 46, 48]

/-- The test that an entry has all details we need. -/
def hasDetails (pked ip : Bytes) (port : UInt16) (swarm : UInt64) : Bool :=
  pked.length = 64 ∧ ip ≠ [] ∧ ip ≠ anyAddress ∧ port > 0 ∧ swarm ≠ invalidSwarmId

/-- The loop that collects the usable entries by public key; a key that is
listed twice keeps its first details. -/
def parseStates : List SnState → Map Ed25519PK SnDetails → Except String (Map Ed25519PK SnDetails)
  | [], sns => .ok sns
  | state :: states, sns =>
      match state.pubkeyEd25519, state.publicIp, state.storageLmqPort, state.swarmId with
      | some pked, some ip, some port, some swarm =>
          if hasDetails pked ip port swarm then
            match fromHexOrB64 32 pked with
            | some key =>
                parseStates states (if key ∈ sns then sns else sns.insert key ⟨ip, port, swarm⟩)
            | none => .error "Invalid value: expected bytes, hex, or base64"
          else
            parseStates states sns
      | _, _, _, _ => .error "missing or mistyped field"

namespace HiveMind

/-- The first part of the handler: commit the block and its swarm ids.  The
flag is `swarms_changed`. -/
def refreshSwarmIds (reply : SnsReply) (hive : HiveMind) : Except String (HiveMind × Bool) :=
  match reply.blockHash, reply.height with
  | some hash, some height =>
      if hash ≠ hive.lastBlock.1 then
        match reply.swarmIds with
        | none => .error "missing or mistyped swarm_id"
        | some newIds =>
            if newIds ≠ hive.swarmIds then
              .ok ({ hive with swarmIds := newIds, lastBlock := (hash, height) }, true)
            else
              .ok ({ hive with lastBlock := (hash, height) }, false)
      else
        .ok (hive, false)
  | _, _ => .error "missing or mistyped block"

/-- Drop one node that is no longer listed. -/
def dropNode (hive : HiveMind) (entry : Sigma fun _ : Ed25519PK => NodeRef) : HiveMind :=
  let erased := hive.eraseSwarmNode (hive.node entry.2).swarm entry.2
  let closed := erased.disconnect entry.2
  { closed with sns := closed.sns.erase entry.1 }

/-- Drop every node of `sns_` that the reply does not list. -/
def dropNodes (sns : Map Ed25519PK SnDetails) (hive : HiveMind) : HiveMind :=
  (hive.sns.entries.filter fun entry => entry.1 ∉ sns).foldl dropNode hive

/-- A known node changes its swarm. -/
def moveNode (ref : NodeRef) (swarm : UInt64) (hive : HiveMind) : HiveMind :=
  let erased := hive.eraseSwarmNode (hive.node ref).swarm ref
  (erased.modifyNode ref (SNode.resetSwarm swarm)).insertSwarmNode swarm ref

/-- A new node: the constructor connects before the node is indexed. -/
def newNode (env : Env) (now : SteadyTime) (key : Ed25519PK) (addr : RemoteAddress)
    (swarm : UInt64) (hive : HiveMind) : HiveMind :=
  let ref := hive.nodeCount
  let made := { hive with
    node := Function.update hive.node ref (SNode.create addr swarm)
    nodeCount := ref + 1 }
  let made := made.connect env now ref
  { made with sns := made.sns.insert key ref }.insertSwarmNode swarm ref

/-- One turn of the update loop; the list holds `new_or_changed_sns`. -/
def updateNode (env : Env) (now : SteadyTime) (key : Ed25519PK) (details : SnDetails)
    (ip : Bytes) (state : HiveMind × List NodeRef) : HiveMind × List NodeRef :=
  let (hive, changed) := state
  let addr : RemoteAddress := ⟨key, ip, details.port⟩
  match hive.sns.lookup key with
  | some ref =>
      let (hive, changed) :=
        if (hive.node ref).swarm ≠ details.swarm then
          (hive.moveNode ref details.swarm, List.insert ref changed)
        else
          (hive, changed)
      (hive.connectTo env now ref addr, changed)
  | none => (hive.newNode env now key addr details.swarm, List.insert hive.nodeCount changed)

/-- The update loop over the listed nodes.  It stops at the first address that
does not parse; the state it has reached by then stays. -/
def updateNodes (env : Env) (now : SteadyTime) :
    List (Sigma fun _ : Ed25519PK => SnDetails) → HiveMind × List NodeRef →
      (HiveMind × List NodeRef) × Option String
  | [], state => (state, none)
  | ⟨key, details⟩ :: rest, state =>
      match env.parseIp details.ip with
      | none => (state, some "Unable to parse ip address")
      | some ip => updateNodes env now rest (updateNode env now key details ip state)

/-- Erase the empty sets of `swarms_`. -/
def pruneSwarms (hive : HiveMind) : HiveMind :=
  { hive with swarms := hive.swarms.filter fun _ nodes => nodes ≠ [] }

/-- Recalculate the swarm of every key of `subscribers_`. -/
def refreshSubscribers (hive : HiveMind) : HiveMind :=
  { hive with
    subscribers := hive.subscribers.mapVal fun _ subscriber =>
      { subscriber with key := (subscriber.key.updateSwarm hive.swarmIds).1 } }

/-- The job of one swarm: eject stale members from its nodes, then add every
account of the swarm to each of them. -/
def swarmJob (accounts : List SwarmPubkey) (swarmIds : List UInt64) (swarm : UInt64)
    (nodes : List NodeRef) (hive : HiveMind) : HiveMind :=
  accounts.foldl
    (fun hive account =>
      if account.swarm = swarm then
        hive.modifyNodes nodes (SNode.addAccount account false)
      else
        hive)
    (hive.modifyNodes nodes (SNode.removeStaleSwarmMembers swarmIds))

/-- The full recheck of swarm membership. -/
def recheck (env : Env) (moment : Moment) (hive : HiveMind) : HiveMind :=
  let hive := hive.refreshSubscribers
  let accounts := shuffle moment.accountOrder
    (hive.subscribers.entries.map fun entry => entry.2.key)
  let rechecked := hive.swarms.entries.foldl
    (fun hive entry => hive.swarmJob accounts hive.swarmIds entry.1 entry.2) hive
  rechecked.checkSubs env moment

/-- `on_sns_response` -/
def onSnsResponse (env : Env) (moment : Moment) (data : SnsData) (hive : HiveMind) :
    HiveMind × Outcome :=
  match data with
  | .reply reply =>
      match hive.refreshSwarmIds reply with
      | .error what => (hive, .failed what)
      | .ok (hive, swarmsChanged) =>
          match parseStates reply.states ∅ with
          | .error what => (hive, .failed what)
          | .ok sns =>
              let dropped := hive.dropNodes sns
              match updateNodes env moment.steady (shuffle moment.updateOrder sns.entries)
                  (dropped, []) with
              | ((hive, _), some what) => (hive, .failed what)
              | ((hive, changed), none) =>
                  let pruned := hive.pruneSwarms
                  if swarmsChanged ∨ changed ≠ [] then
                    (pruned.recheck env moment, .completed)
                  else
                    (pruned, .completed)
  | _ => (hive, .returned)

end HiveMind

end Spns
