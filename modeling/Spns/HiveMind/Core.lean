import Mathlib.Logic.Function.Basic
import Spns.Hive.SNode
import Spns.Storage.Tables

/-!
# The state of the hive mind

The server keeps every service node under its public key in `sns` and, by
swarm, in `swarms`; both refer to the same objects, so nodes live in a store
indexed by references.  A node that is dropped from both indexes is destroyed in
the source; its place in the store is not used again, and the connections that
it opened still name it.

QUIC connections are numbered in the order they are opened.  The record of a
connection is what the network knows about it; the server itself never reads
`established`, `closed`, `ended` or `finishes`.
-/

namespace Spns

open Spns.Hive
open Spns.Lib.Unordered
open Spns.Storage

/-- Reference to an `SNode` object, the `shared_ptr` of the source. -/
abbrev NodeRef := Nat

/-- What happened to one QUIC connection. -/
structure Conn where
  /-- The node whose callbacks the connection captured. -/
  owner : NodeRef
  /-- Its `on_connected` has been delivered. -/
  established : Bool
  /-- `close_connection` was called on it. -/
  closed : Bool
  /-- Its `on_disconnected` has been delivered. -/
  ended : Bool
  /-- Number of `finished_connect` calls that its callbacks made. -/
  finishes : Nat
  deriving DecidableEq

namespace Conn

/-- A connection as `quic_out().connect` returns it. -/
def opened (owner : NodeRef) : Conn :=
  ⟨owner, false, false, false, 0⟩

/-- Neither established nor ended. -/
def isPending (conn : Conn) : Bool :=
  !conn.established && !conn.ended

end Conn

/-- Code and settings outside the modelled state. -/
structure Env where
  /-- Signature verification of libsodium. -/
  verify : Verify
  /-- Ed25519 to X25519 conversion of libsodium. -/
  toCurve : Ed25519PK → Option X25519PK
  /-- The ip parser of `quic::RemoteAddress`; `none` where it throws. -/
  parseIp : Bytes → Option Bytes
  /-- `config.max_pending_connects` -/
  maxPendingConnects : Nat

/-- What one event reads from outside: the clocks, the random delays of each
node and the iteration orders of the unordered containers it loops over. -/
structure Moment where
  steady : SteadyTime
  system : SysTime
  delays : NodeRef → Nat → Delay
  nodeOrder : List Nat
  updateOrder : List Nat
  accountOrder : List Nat

/-- The state of the server and of its database. -/
structure HiveMind where
  db : Database
  quicOut : Bool
  node : NodeRef → SNode
  nodeCount : Nat
  sns : Map Ed25519PK NodeRef
  swarms : Map UInt64 (List NodeRef)
  swarmIds : List UInt64
  subscribers : Subscribers
  lastBlock : Bytes × Int
  pendingConnects : Int
  connectCount : Nat
  conns : List Conn
  /-- Monitor requests sent so far, oldest first, with the node and stream. -/
  sent : List (NodeRef × Option ConnId × MonitorRequest)

namespace HiveMind

/-- Update the object behind a reference. -/
def modifyNode (hive : HiveMind) (ref : NodeRef) (f : SNode → SNode) : HiveMind :=
  { hive with node := Function.update hive.node ref (f (hive.node ref)) }

/-- Update the objects behind several references, one after the other. -/
def modifyNodes (hive : HiveMind) (refs : List NodeRef) (f : SNode → SNode) : HiveMind :=
  refs.foldl (fun hive ref => hive.modifyNode ref f) hive

/-- Update the record of a connection. -/
def modifyConn (hive : HiveMind) (conn : ConnId) (f : Conn → Conn) : HiveMind :=
  { hive with conns := hive.conns.modify conn f }

/-- The references of `sns_` in the order a loop visits them. -/
def nodeRefs (hive : HiveMind) (order : List Nat) : List NodeRef :=
  shuffle order (hive.sns.entries.map Sigma.snd)

/-- `swarms_[swarm]` as a value. -/
def swarmNodes (hive : HiveMind) (swarm : UInt64) : List NodeRef :=
  hive.swarms.getD swarm []

/-- Insert a node into `swarms_[swarm]`. -/
def insertSwarmNode (hive : HiveMind) (swarm : UInt64) (ref : NodeRef) : HiveMind :=
  { hive with swarms := hive.swarms.insert swarm (List.insert ref (hive.swarmNodes swarm)) }

/-- Erase a node from `swarms_[swarm]`. -/
def eraseSwarmNode (hive : HiveMind) (swarm : UInt64) (ref : NodeRef) : HiveMind :=
  { hive with swarms := hive.swarms.insert swarm ((hive.swarmNodes swarm).erase ref) }

@[simp]
theorem modifyNode_node_self (hive : HiveMind) (ref : NodeRef) (f : SNode → SNode) :
    (hive.modifyNode ref f).node ref = f (hive.node ref) :=
  Function.update_self ref _ hive.node

theorem modifyNode_node (hive : HiveMind) (ref other : NodeRef) (f : SNode → SNode) :
    (hive.modifyNode ref f).node other =
      if other = ref then f (hive.node ref) else hive.node other :=
  Function.update_apply hive.node ref _ other

/-- Updating distinct nodes updates each of them once. -/
theorem modifyNodes_eq (hive : HiveMind) {refs : List NodeRef} (nodup : refs.Nodup)
    (f : SNode → SNode) :
    hive.modifyNodes refs f =
      { hive with
        node := fun ref => if ref ∈ refs then f (hive.node ref) else hive.node ref } := by
  induction refs generalizing hive with
  | nil => simp [modifyNodes]
  | cons first rest ih =>
      have step : hive.modifyNodes (first :: rest) f =
          (hive.modifyNode first f).modifyNodes rest f := rfl
      rw [step, ih _ nodup.of_cons]
      have fresh : first ∉ rest := (List.nodup_cons.mp nodup).1
      simp only [modifyNode, mk.injEq, and_self, and_true, true_and]
      funext ref
      by_cases equal : ref = first
      · subst equal
        simp [fresh]
      · simp [equal]

end HiveMind

end Spns
