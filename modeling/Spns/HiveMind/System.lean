import Spns.HiveMind.ServiceNodes
import Spns.HiveMind.Subscribers
import Spns.Lib.Run

/-!
# The server as a transition system

The events of the server: process starts, the requests and timers that change
the database, service node updates, subscription checks and the connection
operations and callbacks.  Everything that touches the memory of the server
runs on one loop thread.  A request also has a database transaction on a worker
thread; here it is one event with the update of the memory that follows it, so
requests come one at a time.  `step` is `none` where an event is not possible: a
callback that the network does not deliver, or a start-up that ends in an
exception.

A node that is dropped is destroyed, but the callbacks of its connections and
the handlers of its requests keep a pointer to it.  When one of them runs later,
what the server does is undefined, so no run goes on from there.
-/

namespace Spns

open Spns.Hive
open Spns.Lib
open Spns.Storage

/-- The events of the server. -/
inductive Event
  | start (now : SysTime) (threads : Nat) (clock : Nat → SysTime)
  | addSubscription (request : AddRequest)
  | removeSubscription (now : SysTime) (request : HiveMind.RemoveRequest)
  | dropRegistrations (service : Bytes) (svcids : List Bytes)
  | dbCleanup (now : SysTime)
  | snsResponse (moment : Moment) (data : SnsData)
  | checkSubs (moment : Moment)
  | checkMySubs (moment : Moment) (ref : NodeRef)
  | connect (moment : Moment) (ref : NodeRef)
  | connectTo (moment : Moment) (ref : NodeRef) (addr : RemoteAddress)
  | disconnect (ref : NodeRef)
  | connected (moment : Moment) (conn : ConnId)
  | disconnected (moment : Moment) (conn : ConnId)

/-- The node whose member function an event runs. -/
def Event.target (hive : HiveMind) : Event → Option NodeRef
  | .checkMySubs _ ref => some ref
  | .connect _ ref => some ref
  | .connectTo _ ref _ => some ref
  | .disconnect ref => some ref
  | .connected _ conn => hive.conns[conn]?.map Conn.owner
  | .disconnected _ conn => hive.conns[conn]?.map Conn.owner
  | _ => none

namespace HiveMind

/-- The object of the node exists: it is in `sns_`. -/
def Listed (hive : HiveMind) (ref : NodeRef) : Prop :=
  ref ∈ hive.sns.entries.map Sigma.snd

instance (hive : HiveMind) (ref : NodeRef) : Decidable (hive.Listed ref) :=
  inferInstanceAs (Decidable (_ ∈ _))

/-- The handler of an event, for a node that exists.  A request that throws
leaves the state as it was. -/
def handle (env : Env) (hive : HiveMind) : Event → Option HiveMind
  | .start now threads clock => (start env now threads clock hive.db).toOption
  | .addSubscription request => some (hive.addSubscription request).1
  | .removeSubscription now request =>
      match hive.removeSubscription env now request with
      | .ok (after, _) => some after
      | .error _ => some hive
  | .dropRegistrations service svcids =>
      some { hive with db := hive.db.dropRegistrations service svcids }
  | .dbCleanup now => some { hive with db := dbCleanup now hive.db }
  | .snsResponse moment data => some (hive.onSnsResponse env moment data).1
  | .checkSubs moment => some (hive.checkSubs env moment)
  | .checkMySubs moment ref => some (hive.checkNodeSubs env moment ref)
  | .connect moment ref => some (hive.connect env moment.steady ref)
  | .connectTo moment ref addr => some (hive.connectTo env moment.steady ref addr)
  | .disconnect ref => some (hive.disconnect ref)
  | .connected moment conn => hive.deliverConnected env moment conn
  | .disconnected moment conn => hive.deliverDisconnected env moment conn

/-- One event. -/
def step (env : Env) (hive : HiveMind) (event : Event) : Option HiveMind :=
  if ∀ ref ∈ event.target hive, hive.Listed ref then hive.handle env event else none

theorem handle_of_step {env : Env} {hive after : HiveMind} {event : Event}
    (taken : step env hive event = some after) : hive.handle env event = some after := by
  rw [step] at taken
  split_ifs at taken
  exact taken

/-- The handler runs on a node that has been destroyed. -/
def UsesDestroyed (env : Env) (hive : HiveMind) (event : Event) : Prop :=
  (hive.handle env event).isSome = true ∧ ∃ ref ∈ event.target hive, ¬hive.Listed ref

/-- In a run no handler is called on a node that has been destroyed. -/
def NeverDestroyed (env : Env) (hive : HiveMind) (events : List Event) : Prop :=
  Run.EveryLabel (step env) (fun hive event => ¬hive.UsesDestroyed env event) hive events

/-- An event that is not possible runs on a destroyed node, or its handler does
not run at all. -/
theorem step_eq_none_iff {env : Env} {hive : HiveMind} {event : Event} :
    step env hive event = none ↔ hive.UsesDestroyed env event ∨ hive.handle env event = none := by
  rw [step, UsesDestroyed]
  split_ifs with listed
  · rw [or_iff_right]
    rintro ⟨-, ref, target, destroyed⟩
    exact destroyed (listed ref target)
  · simp only [not_forall, exists_prop] at listed
    refine iff_of_true rfl ?_
    cases handled : hive.handle env event with
    | none => exact Or.inr rfl
    | some after => exact Or.inl ⟨rfl, listed⟩

/-- A server that has just been started on an empty database. -/
def initial : HiveMind :=
  started Database.empty ∅

/-- The states that the server reaches from its very first start. -/
def Reached (env : Env) (hive : HiveMind) : Prop :=
  Run.Reachable (step env) initial hive

end HiveMind

/-- The reading of the system clock that an event carries. -/
def Event.systemTime : Event → Option SysTime
  | .start now _ _ => some now
  | .removeSubscription now _ => some now
  | .dbCleanup now => some now
  | .snsResponse moment _ => some moment.system
  | .checkSubs moment => some moment.system
  | .checkMySubs moment _ => some moment.system
  | .connect moment _ => some moment.system
  | .connectTo moment _ _ => some moment.system
  | .connected moment _ => some moment.system
  | .disconnected moment _ => some moment.system
  | _ => none

/-! ## A small configuration

Concrete arguments for the runs that later modules look at. -/

namespace Sample

/-- An environment that knows one address. -/
def env : Env where
  verify := fun _ _ _ => true
  toCurve := fun _ => none
  parseIp := fun ip => if ip = [49, 46, 49, 46, 49, 46, 49] then some [1, 1, 1, 1] else none
  maxPendingConnects := 10

def account : AccountID := FixedBytes.replicate 33 3

/-- A subscription of `account` without a subaccount. -/
def request (sigTs : Int) : AddRequest where
  pubkey := ⟨account, FixedBytes.replicate 32 3, false, invalidSwarmId⟩
  service := [102]
  serviceId := List.replicate 32 1
  serviceData := none
  encKey := FixedBytes.replicate 32 2
  sub := Subscription.single 0 sigTs (FixedBytes.replicate 64 7)

/-- A service node at `1.1.1.1`. -/
def snState (swarm : UInt64) : SnState where
  pubkeyEd25519 := some (List.replicate 64 48)
  publicIp := some [49, 46, 49, 46, 49, 46, 49]
  storageLmqPort := some 22020
  swarmId := some swarm

def moment (now : SysTime) : Moment where
  steady := now
  system := now
  delays := fun _ _ => shortestDelay
  nodeOrder := []
  updateOrder := []
  accountOrder := []

end Sample

end Spns
