import Spns.HiveMind.Core

/-!
# Connections to service nodes

The connection half of `SNode` together with the counter that `HiveMind`
shares between all nodes.  `allowConnect` takes a slot for a connection
attempt and `finishedConnect` gives it back; the callbacks `onConnected` and
`onDisconnected` run for the node that opened the connection, whichever
connection that node holds by then.
-/

namespace Spns

open Spns.Hive
open Spns.Lib.Unordered

namespace Hive.SNode

/-- `CONNECT_COOLDOWN`, in seconds. -/
def connectCooldown : List Int := [10, 30, 60, 120]

/-- `RECONNECT_WAIT`, in seconds. -/
def reconnectWait : Int := 1

/-- The cooldown after a failed attempt: the last value past the end. -/
def cooldownAfter (fails : Nat) : Int :=
  connectCooldown.getD fails 120

/-- The cooldown of the node has not passed yet. -/
def coolingDown (now : SteadyTime) (node : SNode) : Bool :=
  match node.cooldownUntil with
  | some deadline => deadline > now
  | none => false

/-- `cooldown_until_.reset()` -/
def clearCooldown (node : SNode) : SNode :=
  { node with cooldownUntil := none }

/-- Store a new connection and the stream opened on it. -/
def attach (conn : ConnId) (node : SNode) : SNode :=
  { node with conn := some conn, stream := some conn }

/-- The node's part of `disconnect`. -/
def detach (node : SNode) : SNode :=
  if node.conn.isSome then
    { node with connected := false, stream := none, conn := none }
  else
    { node with connected := false }

/-- The address change of `connect(addr)`. -/
def moveTo (addr : RemoteAddress) (node : SNode) : SNode :=
  { node with addr := addr }

/-- The node's part of `on_connected`; without a connection nothing but the
cooldown changes. -/
def markConnected (node : SNode) : SNode :=
  let node := { node with cooldownFails := 0, cooldownUntil := none }
  if node.conn.isSome then { node.resetTimes with connected := true } else node

/-- The cooldown that `on_disconnected` sets. -/
def startCooldown (now : SteadyTime) (isFailedConnect : Bool) (node : SNode) : SNode :=
  if isFailedConnect then
    { node with
      cooldownUntil := some (int64 (now + cooldownAfter node.cooldownFails * second))
      cooldownFails := node.cooldownFails + 1 }
  else
    { node with cooldownUntil := some (int64 (now + reconnectWait * second)), cooldownFails := 0 }

/-- The node's part of `on_disconnected`. -/
def markDisconnected (hasQuicOut : Bool) (now : SteadyTime) (node : SNode) : SNode :=
  let isFailedConnect := !node.connected
  let node := { node with connected := false }
  let node := if hasQuicOut then node.startCooldown now isFailedConnect else node
  { node with stream := none, conn := none }

end Hive.SNode

namespace HiveMind

/-- `allow_connect`: the increment of a refused attempt is taken back. -/
def allowConnect (env : Env) (hive : HiveMind) : HiveMind × Bool :=
  if !hive.quicOut then
    (hive, false)
  else
    let count := hive.pendingConnects + 1
    if count > env.maxPendingConnects then
      (hive, false)
    else
      ({ hive with pendingConnects := count, connectCount := hive.connectCount + 1 }, true)

/-- Open the connection and its stream for a node. -/
def openConn (ref : NodeRef) (hive : HiveMind) : HiveMind :=
  let conn := hive.conns.length
  let opened := { hive with conns := hive.conns ++ [Conn.opened ref] }
  opened.modifyNode ref (SNode.attach conn)

/-- `SNode::connect()` -/
def connect (env : Env) (now : SteadyTime) (ref : NodeRef) (hive : HiveMind) : HiveMind :=
  if (hive.node ref).conn.isSome then
    hive
  else if (hive.node ref).coolingDown now then
    hive
  else
    let hive := hive.modifyNode ref SNode.clearCooldown
    match hive.allowConnect env with
    | (hive, false) => hive
    | (hive, true) => hive.openConn ref

/-- `close_connection` on the connection that a node holds, if any. -/
def closeConn (ref : NodeRef) (hive : HiveMind) : HiveMind :=
  match (hive.node ref).conn with
  | some conn => hive.modifyConn conn fun record => { record with closed := true }
  | none => hive

/-- `SNode::disconnect` -/
def disconnect (ref : NodeRef) (hive : HiveMind) : HiveMind :=
  (hive.closeConn ref).modifyNode ref SNode.detach

/-- `SNode::connect(addr)` -/
def connectTo (env : Env) (now : SteadyTime) (ref : NodeRef) (addr : RemoteAddress)
    (hive : HiveMind) : HiveMind :=
  let hive :=
    if addr ≠ (hive.node ref).addr then
      (hive.disconnect ref).modifyNode ref (SNode.moveTo addr)
    else
      hive
  hive.connect env now ref

/-- The loop of `make_conns` over the nodes it still has to visit. -/
def makeConns (env : Env) (now : SteadyTime) : List NodeRef → HiveMind → HiveMind
  | [], hive => hive
  | ref :: rest, hive =>
      if hive.pendingConnects ≥ env.maxPendingConnects then hive
      else makeConns env now rest (hive.connect env now ref)

/-- `finished_connect` -/
def finishedConnect (env : Env) (moment : Moment) (hive : HiveMind) : HiveMind :=
  let tryMore := hive.pendingConnects < env.maxPendingConnects
  let hive := { hive with pendingConnects := hive.pendingConnects - 1 }
  if tryMore then makeConns env moment.steady (hive.nodeRefs moment.nodeOrder) hive else hive

/-- `check_subs` of a connected node. -/
def drainQueue (moment : Moment) (ref : NodeRef) (hive : HiveMind) : HiveMind :=
  let check := SNode.checkQueue hive.subscribers moment.system (moment.delays ref)
  let requests := (check (hive.node ref)).2
  let sent := requests.map fun request => (ref, (hive.node ref).stream, request)
  { hive with sent := hive.sent ++ sent }.modifyNode ref fun node => (check node).1

/-- `SNode::check_subs` and `check_my_subs` -/
def checkNodeSubs (env : Env) (moment : Moment) (ref : NodeRef) (hive : HiveMind) : HiveMind :=
  let node := hive.node ref
  if node.connected then
    hive.drainQueue moment ref
  else if node.conn.isSome then
    hive
  else if node.coolingDown moment.steady then
    hive
  else
    (hive.modifyNode ref SNode.clearCooldown).connect env moment.steady ref

/-- `HiveMind::check_subs` -/
def checkSubs (env : Env) (moment : Moment) (hive : HiveMind) : HiveMind :=
  (hive.nodeRefs moment.nodeOrder).foldl (fun hive ref => hive.checkNodeSubs env moment ref) hive

/-- `finished_connect` as called by a callback of `conn`. -/
def finishedConnectOf (env : Env) (moment : Moment) (conn : ConnId) (hive : HiveMind) : HiveMind :=
  (hive.modifyConn conn fun record => { record with finishes := record.finishes + 1 }).finishedConnect
    env moment

/-- `SNode::on_connected` of the node `ref` for the connection `conn`. -/
def onConnected (env : Env) (moment : Moment) (ref : NodeRef) (conn : ConnId) (hive : HiveMind) :
    HiveMind :=
  let noConn := (hive.node ref).conn.isNone
  let finished := (hive.modifyNode ref SNode.markConnected).finishedConnectOf env moment conn
  if noConn then finished else finished.checkNodeSubs env moment ref

/-- `SNode::on_disconnected` of the node `ref` for the connection `conn`. -/
def onDisconnected (env : Env) (moment : Moment) (ref : NodeRef) (conn : ConnId)
    (hive : HiveMind) : HiveMind :=
  let isFailedConnect := !(hive.node ref).connected
  let marked := hive.modifyNode ref (SNode.markDisconnected hive.quicOut moment.steady)
  if hive.quicOut && isFailedConnect then marked.finishedConnectOf env moment conn else marked

/-- The network delivers `on_connected`: at most once for each connection, and
not after its `on_disconnected`. -/
def deliverConnected (env : Env) (moment : Moment) (conn : ConnId) (hive : HiveMind) :
    Option HiveMind :=
  match hive.conns[conn]? with
  | some record =>
      if record.established || record.ended then
        none
      else
        some ((hive.modifyConn conn fun record =>
          { record with established := true }).onConnected env moment record.owner conn)
  | none => none

/-- The network delivers `on_disconnected`: once for each connection. -/
def deliverDisconnected (env : Env) (moment : Moment) (conn : ConnId) (hive : HiveMind) :
    Option HiveMind :=
  match hive.conns[conn]? with
  | some record =>
      if record.ended then
        none
      else
        some ((hive.modifyConn conn fun record =>
          { record with ended := true }).onDisconnected env moment record.owner conn)
  | none => none

end HiveMind

end Spns
