import Spns.Hive.Queue
import Spns.HiveMind.ServiceNodes

/-!
# What connection operations leave alone

Connecting, disconnecting, the connection callbacks and subscription checks
neither touch the node indexes nor the accounts of a node; a check only
reschedules queue entries.  `KeepsAccounts` collects these facts once for all
of those operations.
-/

namespace Spns.HiveMind

open Spns.Hive
open Spns.Lib.Unordered

/-- `after` agrees with `before` on the database, the subscribers and the
accounts of every node, and queues no account that was not queued. -/
structure KeepsMembers (before after : HiveMind) : Prop where
  db : after.db = before.db
  swarmIds : after.swarmIds = before.swarmIds
  subscribers : after.subscribers = before.subscribers
  lastBlock : after.lastBlock = before.lastBlock
  nodeCount : after.nodeCount = before.nodeCount
  swarm : ∀ ref, (after.node ref).swarm = (before.node ref).swarm
  subs : ∀ ref, (after.node ref).subs = (before.node ref).subs
  live : ∀ ref, ∀ key ∈ (after.node ref).liveAccounts, key ∈ (before.node ref).liveAccounts

/-- In addition the node indexes are the same. -/
structure KeepsAccounts (before after : HiveMind) : Prop extends KeepsMembers before after where
  sns : after.sns = before.sns
  swarms : after.swarms = before.swarms

namespace KeepsMembers

theorem refl (hive : HiveMind) : KeepsMembers hive hive where
  db := rfl
  swarmIds := rfl
  subscribers := rfl
  lastBlock := rfl
  nodeCount := rfl
  swarm _ := rfl
  subs _ := rfl
  live _ _ member := member

theorem trans {first second third : HiveMind} (left : KeepsMembers first second)
    (right : KeepsMembers second third) : KeepsMembers first third where
  db := right.db.trans left.db
  swarmIds := right.swarmIds.trans left.swarmIds
  subscribers := right.subscribers.trans left.subscribers
  lastBlock := right.lastBlock.trans left.lastBlock
  nodeCount := right.nodeCount.trans left.nodeCount
  swarm ref := (right.swarm ref).trans (left.swarm ref)
  subs ref := (right.subs ref).trans (left.subs ref)
  live ref key member := left.live ref key (right.live ref key member)

end KeepsMembers

namespace KeepsAccounts

theorem refl (hive : HiveMind) : KeepsAccounts hive hive where
  toKeepsMembers := KeepsMembers.refl hive
  sns := rfl
  swarms := rfl

theorem trans {first second third : HiveMind} (left : KeepsAccounts first second)
    (right : KeepsAccounts second third) : KeepsAccounts first third where
  toKeepsMembers := left.toKeepsMembers.trans right.toKeepsMembers
  sns := right.sns.trans left.sns
  swarms := right.swarms.trans left.swarms

/-- Updating one node keeps accounts when the update does. -/
theorem modifyNode (hive : HiveMind) (ref : NodeRef) (f : SNode → SNode)
    (swarm : (f (hive.node ref)).swarm = (hive.node ref).swarm)
    (subs : (f (hive.node ref)).subs = (hive.node ref).subs)
    (live : ∀ key ∈ (f (hive.node ref)).liveAccounts, key ∈ (hive.node ref).liveAccounts) :
    KeepsAccounts hive (hive.modifyNode ref f) where
  db := rfl
  sns := rfl
  swarms := rfl
  swarmIds := rfl
  subscribers := rfl
  lastBlock := rfl
  nodeCount := rfl
  swarm other := by
    rw [modifyNode_node]
    split_ifs with equal
    · rw [equal, swarm]
    · rfl
  subs other := by
    rw [modifyNode_node]
    split_ifs with equal
    · rw [equal, subs]
    · rfl
  live other := by
    rw [modifyNode_node]
    split_ifs with equal
    · rw [equal]
      exact live
    · exact fun _ member => member

/-- A fold of operations that keep accounts keeps accounts. -/
theorem foldl {α : Type} (op : HiveMind → α → HiveMind)
    (keeps : ∀ hive item, KeepsAccounts hive (op hive item)) (items : List α) (hive : HiveMind) :
    KeepsAccounts hive (items.foldl op hive) :=
  List.foldlRecOn items op (refl hive) fun current sofar item _ => sofar.trans (keeps current item)

theorem allowConnect (env : Env) (hive : HiveMind) :
    KeepsAccounts hive (hive.allowConnect env).1 := by
  rw [HiveMind.allowConnect]
  split_ifs
  · exact refl hive
  · simp only
    split_ifs
    · exact refl hive
    · exact { refl hive with }

theorem openConn (ref : NodeRef) (hive : HiveMind) : KeepsAccounts hive (hive.openConn ref) := by
  have appended : KeepsAccounts hive { hive with conns := hive.conns ++ [Conn.opened ref] } :=
    { refl hive with }
  exact appended.trans (modifyNode _ ref (SNode.attach _) rfl rfl fun _ member => member)

theorem clearCooldown (ref : NodeRef) (hive : HiveMind) :
    KeepsAccounts hive (hive.modifyNode ref SNode.clearCooldown) :=
  modifyNode hive ref SNode.clearCooldown rfl rfl fun _ member => member

theorem connect (env : Env) (now : SteadyTime) (ref : NodeRef) (hive : HiveMind) :
    KeepsAccounts hive (hive.connect env now ref) := by
  rw [HiveMind.connect]
  split_ifs
  · exact refl hive
  · exact refl hive
  · have allowed := (clearCooldown ref hive).trans (allowConnect env _)
    simp only
    split <;> rename_i result equal <;> rw [equal] at allowed
    · exact allowed
    · exact allowed.trans (openConn ref _)

theorem modifyConn (hive : HiveMind) (conn : ConnId) (f : Conn → Conn) :
    KeepsAccounts hive (hive.modifyConn conn f) :=
  { refl hive with }

theorem disconnect (ref : NodeRef) (hive : HiveMind) :
    KeepsAccounts hive (hive.disconnect ref) := by
  have closed : KeepsAccounts hive (hive.closeConn ref) := by
    rw [HiveMind.closeConn]
    split
    · exact modifyConn hive _ _
    · exact refl hive
  refine closed.trans (modifyNode _ ref SNode.detach ?_ ?_ ?_) <;> unfold SNode.detach
  · split_ifs <;> rfl
  · split_ifs <;> rfl
  · split_ifs <;> exact fun _ member => member

theorem connectTo (env : Env) (now : SteadyTime) (ref : NodeRef) (addr : RemoteAddress)
    (hive : HiveMind) : KeepsAccounts hive (hive.connectTo env now ref addr) := by
  unfold HiveMind.connectTo
  simp only
  split_ifs
  · have moved := (disconnect ref hive).trans
      (modifyNode _ ref (SNode.moveTo addr) rfl rfl fun _ member => member)
    exact moved.trans (connect env now ref _)
  · exact connect env now ref hive

theorem makeConns (env : Env) (now : SteadyTime) (refs : List NodeRef) (hive : HiveMind) :
    KeepsAccounts hive (hive.makeConns env now refs) := by
  induction refs generalizing hive with
  | nil => exact refl hive
  | cons ref rest ih =>
      rw [HiveMind.makeConns]
      split_ifs
      · exact refl hive
      · exact (connect env now ref hive).trans (ih _)

theorem finishedConnect (env : Env) (moment : Moment) (hive : HiveMind) :
    KeepsAccounts hive (hive.finishedConnect env moment) := by
  unfold HiveMind.finishedConnect
  have released : KeepsAccounts hive
      { hive with pendingConnects := hive.pendingConnects - 1 } := { refl hive with }
  simp only
  split_ifs
  · exact released.trans (makeConns env moment.steady _ _)
  · exact released

theorem finishedConnectOf (env : Env) (moment : Moment) (conn : ConnId) (hive : HiveMind) :
    KeepsAccounts hive (hive.finishedConnectOf env moment conn) :=
  (modifyConn hive conn _).trans (finishedConnect env moment _)

theorem drainQueue (moment : Moment) (ref : NodeRef) (hive : HiveMind) :
    KeepsAccounts hive (hive.drainQueue moment ref) := by
  have logged : ∀ sent, KeepsAccounts hive { hive with sent := sent } := fun _ => { refl hive with }
  exact (logged _).trans (modifyNode _ ref
    (fun node => (node.checkQueue hive.subscribers moment.system (moment.delays ref)).1)
    rfl rfl fun _ live => SNode.mem_liveAccounts_checkQueue live)

theorem checkNodeSubs (env : Env) (moment : Moment) (ref : NodeRef) (hive : HiveMind) :
    KeepsAccounts hive (hive.checkNodeSubs env moment ref) := by
  unfold HiveMind.checkNodeSubs
  simp only
  split_ifs
  · exact drainQueue moment ref hive
  · exact refl hive
  · exact refl hive
  · exact (clearCooldown ref hive).trans (connect env moment.steady ref _)

theorem checkSubs (env : Env) (moment : Moment) (hive : HiveMind) :
    KeepsAccounts hive (hive.checkSubs env moment) :=
  foldl _ (fun hive ref => checkNodeSubs env moment ref hive) _ hive

theorem markConnected (ref : NodeRef) (hive : HiveMind) :
    KeepsAccounts hive (hive.modifyNode ref SNode.markConnected) := by
  apply modifyNode <;> unfold SNode.markConnected <;> simp only
  · split_ifs <;> rfl
  · split_ifs <;> rfl
  · split_ifs
    · intro key live
      rw [← SNode.liveAccounts_resetTimes]
      exact live
    · exact fun _ live => live

theorem onConnected (env : Env) (moment : Moment) (ref : NodeRef) (conn : ConnId)
    (hive : HiveMind) : KeepsAccounts hive (hive.onConnected env moment ref conn) := by
  have finished := (markConnected ref hive).trans (finishedConnectOf env moment conn _)
  unfold HiveMind.onConnected
  simp only
  split_ifs
  · exact finished
  · exact finished.trans (checkNodeSubs env moment ref _)

theorem onDisconnected (env : Env) (moment : Moment) (ref : NodeRef) (conn : ConnId)
    (hive : HiveMind) : KeepsAccounts hive (hive.onDisconnected env moment ref conn) := by
  have marked : KeepsAccounts hive
      (hive.modifyNode ref (SNode.markDisconnected hive.quicOut moment.steady)) := by
    apply modifyNode <;> unfold SNode.markDisconnected SNode.startCooldown <;> simp only
    · split_ifs <;> rfl
    · split_ifs <;> rfl
    · split_ifs <;> exact fun _ live => live
  unfold HiveMind.onDisconnected
  simp only
  split_ifs
  · exact marked.trans (finishedConnectOf env moment conn _)
  · exact marked

theorem deliverConnected {env : Env} {moment : Moment} {conn : ConnId} {hive after : HiveMind}
    (delivered : hive.deliverConnected env moment conn = some after) :
    KeepsAccounts hive after := by
  rw [HiveMind.deliverConnected] at delivered
  split at delivered
  · split_ifs at delivered
    cases delivered
    exact (modifyConn hive conn _).trans (onConnected env moment _ conn _)
  · contradiction

theorem deliverDisconnected {env : Env} {moment : Moment} {conn : ConnId} {hive after : HiveMind}
    (delivered : hive.deliverDisconnected env moment conn = some after) :
    KeepsAccounts hive after := by
  rw [HiveMind.deliverDisconnected] at delivered
  split at delivered
  · split_ifs at delivered
    cases delivered
    exact (modifyConn hive conn _).trans (onDisconnected env moment _ conn _)
  · contradiction

theorem swarmNodes {before after : HiveMind} (keeps : KeepsAccounts before after)
    (swarm : UInt64) : after.swarmNodes swarm = before.swarmNodes swarm := by
  unfold HiveMind.swarmNodes
  rw [keeps.swarms]

end KeepsAccounts

end Spns.HiveMind
