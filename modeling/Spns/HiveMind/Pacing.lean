import Spns.HiveMind.ConnInvariant

/-!
# Pauses between connection attempts

A node whose connection attempt has failed is left alone for a while, and for
longer with every further failure.  Many things make the server connect: the
timer, an updated list of nodes, and the callbacks of other nodes, which pass
their slot on.  Each of them asks the node for its cooldown, and so the pause
holds along whole runs.
-/

namespace Spns

open Spns.Hive
open Spns.Lib
open Spns.Lib.Unordered
open Spns.Storage

namespace Hive.SNode

/-- What `connect` and the callbacks know of a node. -/
def pacing (node : SNode) : Option ConnId × Bool × Option SteadyTime × Nat :=
  (node.conn, node.connected, node.cooldownUntil, node.cooldownFails)

/-- How long `on_disconnected` lets a node wait, in seconds. -/
def pause (node : SNode) : Int :=
  if node.connected then reconnectWait else cooldownAfter node.cooldownFails

/-- The last value of `CONNECT_COOLDOWN`. -/
def longestCooldown : Int := 120

theorem cooldownAfter_mono (fails : Nat) : cooldownAfter fails ≤ cooldownAfter (fails + 1) := by
  match fails with
  | 0 | 1 | 2 | 3 => decide
  | fails + 4 => exact le_refl _

theorem reconnectWait_le_cooldownAfter (fails : Nat) : reconnectWait ≤ cooldownAfter fails := by
  induction fails with
  | zero => decide
  | succ fails ih => exact ih.trans (cooldownAfter_mono fails)

theorem cooldownAfter_le_longest (fails : Nat) : cooldownAfter fails ≤ longestCooldown := by
  match fails with
  | 0 | 1 | 2 | 3 => decide
  | fails + 4 => exact le_refl _

theorem pause_le_longest (node : SNode) : node.pause ≤ longestCooldown := by
  rw [pause]
  split_ifs
  · decide
  · exact cooldownAfter_le_longest _

theorem cooldownAfter_pos (fails : Nat) : 0 < cooldownAfter fails :=
  lt_of_lt_of_le (by decide) (reconnectWait_le_cooldownAfter fails)

theorem pause_pos (node : SNode) : 0 < node.pause := by
  rw [pause]
  split_ifs
  · decide
  · exact cooldownAfter_pos _

/-- The steady clock does not reach the end of its range before the longest
cooldown is over. -/
def HasRoom (now : Int) : Prop :=
  -2 ^ 63 ≤ now ∧ now + longestCooldown * second < 2 ^ 63

instance (now : Int) : Decidable (HasRoom now) :=
  inferInstanceAs (Decidable (_ ∧ _))

theorem HasRoom.int64_eq {now : Int} (room : HasRoom now) {wait : Int} (positive : 0 < wait)
    (short : wait ≤ longestCooldown) : int64 (now + wait * second) = now + wait * second := by
  obtain ⟨low, high⟩ := room
  apply Hive.int64_eq
  simp only [IsInt64, second, longestCooldown] at *
  constructor <;> omega

end Hive.SNode

/-- The reading of the steady clock that an event carries. -/
def Event.steadyTime : Event → Option SteadyTime
  | .snsResponse moment _ => some moment.steady
  | .checkSubs moment => some moment.steady
  | .checkMySubs moment _ => some moment.steady
  | .connect moment _ => some moment.steady
  | .connectTo moment _ _ => some moment.steady
  | .connected moment _ => some moment.steady
  | .disconnected moment _ => some moment.steady
  | _ => none

namespace HiveMind

/-- How many connections have been opened for a node.  It is the object of a
service node that counts: one that is dropped from the list and listed again
gets a new one. -/
def attempts (ref : NodeRef) (hive : HiveMind) : Nat :=
  (hive.conns.map Conn.owner).count ref

/-! ## A rule for what connecting depends on -/

/-- `after` is the same for everything that connects or counts connections. -/
structure SameLinks (before after : HiveMind) : Prop where
  quicOut : after.quicOut = before.quicOut
  nodeCount : after.nodeCount = before.nodeCount
  owners : after.conns.map Conn.owner = before.conns.map Conn.owner
  pacing : ∀ ref, (after.node ref).pacing = (before.node ref).pacing

/-- The property survives what the server does at `now`, apart from callbacks. -/
structure LinkInvariant (env : Env) (now : SteadyTime) (property : HiveMind → Prop) : Prop where
  neutral : ∀ {before after : HiveMind}, property before → SameLinks before after → property after
  connects : ∀ {hive : HiveMind} (ref : NodeRef), property hive →
    property (hive.connect env now ref)
  disconnects : ∀ {hive : HiveMind} (ref : NodeRef), property hive → property (hive.disconnect ref)
  creates : ∀ {hive : HiveMind} (addr : RemoteAddress) (swarm : UInt64), property hive →
    property (hive.withBlank addr swarm)

theorem SameLinks.of_node {before after : HiveMind} (quicOut : after.quicOut = before.quicOut)
    (nodeCount : after.nodeCount = before.nodeCount) (conns : after.conns = before.conns)
    (node : after.node = before.node) : SameLinks before after :=
  ⟨quicOut, nodeCount, by rw [conns], fun ref => by rw [node]⟩

theorem SameLinks.modifyNode (hive : HiveMind) (ref : NodeRef) (f : SNode → SNode)
    (pacing : (f (hive.node ref)).pacing = (hive.node ref).pacing) :
    SameLinks hive (hive.modifyNode ref f) := by
  refine ⟨rfl, rfl, rfl, fun other => ?_⟩
  rw [modifyNode_node]
  split_ifs with own
  · rw [own, pacing]
  · rfl

/-- A record keeps its owner. -/
theorem map_owner_modify {conns : List Conn} (conn : ConnId) {f : Conn → Conn}
    (owner : ∀ record, (f record).owner = record.owner) :
    (conns.modify conn f).map Conn.owner = conns.map Conn.owner := by
  apply List.ext_getElem?
  intro index
  rw [List.getElem?_map, List.getElem?_map, List.getElem?_modify]
  cases conns[index]? with
  | none => rfl
  | some record =>
      split_ifs
      · exact congrArg some (owner record)
      · rfl

theorem SameLinks.modifyConn (hive : HiveMind) (conn : ConnId) {f : Conn → Conn}
    (owner : ∀ record, (f record).owner = record.owner) : SameLinks hive (hive.modifyConn conn f) :=
  ⟨rfl, rfl, map_owner_modify conn owner, fun _ => rfl⟩

/-- All that `connect` may do. -/
theorem connect_cases (env : Env) (now : SteadyTime) (ref : NodeRef) (hive : HiveMind) :
    hive.connect env now ref = hive ∨ (hive.node ref).coolingDown now = false ∧
      (hive.connect env now ref = hive.modifyNode ref SNode.clearCooldown ∨
        hive.connect env now ref =
          (hive.modifyNode ref SNode.clearCooldown).granted.openConn ref) := by
  rw [HiveMind.connect]
  split_ifs with attached cooling
  · exact Or.inl rfl
  · exact Or.inl rfl
  · refine Or.inr ⟨Bool.not_eq_true _ ▸ cooling, ?_⟩
    simp only
    rcases allowConnect_cases env (hive.modifyNode ref SNode.clearCooldown) with
      refused | ⟨-, -, allowed⟩
    · rw [refused]
      exact Or.inl rfl
    · rw [allowed]
      exact Or.inr rfl

/-- A node that is not connected is checked by connecting. -/
theorem checkNodeSubs_cases (env : Env) (moment : Moment) (ref : NodeRef) (hive : HiveMind) :
    hive.checkNodeSubs env moment ref = hive.drainQueue moment ref ∨
      hive.checkNodeSubs env moment ref = hive.connect env moment.steady ref := by
  rw [HiveMind.checkNodeSubs]
  split_ifs with connected attached cooling
  · exact Or.inl rfl
  · right
    rw [HiveMind.connect, if_pos attached]
  · right
    rw [HiveMind.connect, if_neg attached, if_pos cooling]
  · right
    have cleared : ((hive.modifyNode ref SNode.clearCooldown).node ref).coolingDown
        moment.steady = false := by
      rw [modifyNode_node_self]
      rfl
    have unattached : ((hive.modifyNode ref SNode.clearCooldown).node ref).conn.isSome = false := by
      rw [modifyNode_node_self]
      exact Bool.not_eq_true _ ▸ attached
    have once : (hive.modifyNode ref SNode.clearCooldown).modifyNode ref SNode.clearCooldown =
        hive.modifyNode ref SNode.clearCooldown := by
      simp [HiveMind.modifyNode, SNode.clearCooldown]
    rw [HiveMind.connect, HiveMind.connect, if_neg attached, if_neg cooling, cleared, unattached,
      once]
    rfl

namespace LinkInvariant

variable {env : Env} {property : HiveMind → Prop}

section Operations

variable {moment : Moment} (kept : LinkInvariant env moment.steady property)

include kept

theorem makeConns {hive : HiveMind} (refs : List NodeRef) (holds : property hive) :
    property (hive.makeConns env moment.steady refs) := by
  induction refs generalizing hive with
  | nil => exact holds
  | cons ref rest ih =>
      rw [HiveMind.makeConns]
      split_ifs
      · exact holds
      · exact ih (kept.connects ref holds)

theorem finishedConnectOf {hive : HiveMind} (conn : ConnId) (holds : property hive) :
    property (hive.finishedConnectOf env moment conn) := by
  let count (record : Conn) : Conn := { record with finishes := record.finishes + 1 }
  have counted : property (hive.modifyConn conn count) :=
    kept.neutral holds (SameLinks.modifyConn hive conn fun _ => rfl)
  have released : ∀ pending, property { hive.modifyConn conn count with
      pendingConnects := pending } := fun pending =>
    kept.neutral counted (.of_node rfl rfl rfl rfl)
  unfold HiveMind.finishedConnectOf HiveMind.finishedConnect
  simp only
  split_ifs
  · exact kept.makeConns _ (released _)
  · exact released _

theorem checkNodeSubs {hive : HiveMind} (ref : NodeRef) (holds : property hive) :
    property (hive.checkNodeSubs env moment ref) := by
  rcases checkNodeSubs_cases env moment ref hive with drained | connected
  · rw [drained, drainQueue]
    have logged : ∀ sent, property { hive with sent := sent } := fun sent =>
      kept.neutral holds (.of_node rfl rfl rfl rfl)
    exact kept.neutral (logged _) (SameLinks.modifyNode _ ref _ rfl)
  · rw [connected]
    exact kept.connects ref holds

theorem checkSubs {hive : HiveMind} (holds : property hive) :
    property (hive.checkSubs env moment) :=
  List.foldlRecOn _ _ holds fun _ current ref _ => kept.checkNodeSubs ref current

theorem connectTo {hive : HiveMind} (ref : NodeRef) (addr : RemoteAddress)
    (holds : property hive) : property (hive.connectTo env moment.steady ref addr) := by
  unfold HiveMind.connectTo
  simp only
  split_ifs
  · apply kept.connects ref
    exact kept.neutral (kept.disconnects ref holds) (SameLinks.modifyNode _ ref _ rfl)
  · exact kept.connects ref holds

theorem dropNodes {hive : HiveMind} (listing : Map Ed25519PK SnDetails) (holds : property hive) :
    property (hive.dropNodes listing) := by
  refine List.foldlRecOn _ _ holds fun current before entry _ => ?_
  have erased : property (current.eraseSwarmNode (current.node entry.2).swarm entry.2) :=
    kept.neutral before (.of_node rfl rfl rfl rfl)
  exact kept.neutral (kept.disconnects entry.2 erased) (.of_node rfl rfl rfl rfl)

theorem moveNode {hive : HiveMind} (ref : NodeRef) (swarm : UInt64) (holds : property hive) :
    property (hive.moveNode ref swarm) := by
  have same := SameLinks.modifyNode (hive.eraseSwarmNode (hive.node ref).swarm ref) ref
    (SNode.resetSwarm swarm) rfl
  exact kept.neutral holds ⟨same.quicOut, same.nodeCount, same.owners, same.pacing⟩

theorem newNode {hive : HiveMind} (key : Ed25519PK) (addr : RemoteAddress) (swarm : UInt64)
    (holds : property hive) : property (hive.newNode env moment.steady key addr swarm) := by
  have connected := kept.connects hive.nodeCount (kept.creates addr swarm holds)
  exact kept.neutral connected (.of_node rfl rfl rfl rfl)

theorem updateNodes {state : HiveMind × List NodeRef}
    (entries : List (Sigma fun _ : Ed25519PK => SnDetails)) (holds : property state.1) :
    property (HiveMind.updateNodes env moment.steady entries state).1.1 := by
  induction entries generalizing state with
  | nil => exact holds
  | cons entry rest ih =>
      rw [HiveMind.updateNodes]
      split
      · exact holds
      · apply ih
        rw [HiveMind.updateNode]
        simp only
        split
        · split_ifs
          · exact kept.connectTo _ _ (kept.moveNode _ _ holds)
          · exact kept.connectTo _ _ holds
        · exact kept.newNode _ _ _ holds

theorem modifyNodes {hive : HiveMind} (nodes : List NodeRef) (f : SNode → SNode)
    (pacing : ∀ node, (f node).pacing = node.pacing) (holds : property hive) :
    property (hive.modifyNodes nodes f) :=
  List.foldlRecOn _ _ holds fun current before ref _ =>
    kept.neutral before (SameLinks.modifyNode current ref f (pacing _))

theorem addAccounts {hive : HiveMind} (nodes : List NodeRef) (account : SwarmPubkey)
    (forceNow : Bool) (holds : property hive) :
    property (hive.modifyNodes nodes (SNode.addAccount account forceNow)) := by
  refine kept.modifyNodes nodes _ (fun node => ?_) holds
  unfold SNode.addAccount
  split_ifs <;> rfl

theorem recheck {hive : HiveMind} (holds : property hive) : property (hive.recheck env moment) := by
  have refreshed : property hive.refreshSubscribers := kept.neutral holds (.of_node rfl rfl rfl rfl)
  refine kept.checkSubs (List.foldlRecOn _ _ refreshed fun current before entry _ => ?_)
  have ejected := kept.modifyNodes entry.2 (SNode.removeStaleSwarmMembers current.swarmIds)
    (fun _ => rfl) before
  refine List.foldlRecOn _ _ ejected fun current before account _ => ?_
  split_ifs
  · exact kept.addAccounts entry.2 account false before
  · exact before

theorem onSnsResponse {hive : HiveMind} (data : SnsData) (holds : property hive) :
    property (hive.onSnsResponse env moment data).1 := by
  unfold HiveMind.onSnsResponse
  split
  · rename_i reply
    split
    · exact holds
    · rename_i committed swarmsChanged refreshed
      have committedHolds : property committed := by
        obtain ⟨db, same⟩ : ∃ ids block, committed =
            { hive with swarmIds := ids, lastBlock := block } := by
          rw [refreshSwarmIds] at refreshed
          split at refreshed
          · split_ifs at refreshed
            · split at refreshed
              · contradiction
              · split_ifs at refreshed <;> cases refreshed <;> exact ⟨_, _, rfl⟩
            · cases refreshed
              exact ⟨_, _, rfl⟩
          · contradiction
        obtain ⟨block, rfl⟩ := same
        exact kept.neutral holds (.of_node rfl rfl rfl rfl)
      split
      · exact committedHolds
      · rename_i listing _
        have dropped := kept.dropNodes listing committedHolds
        have updated : property (HiveMind.updateNodes env moment.steady
            (shuffle moment.updateOrder listing.entries) (committed.dropNodes listing, [])).1.1 :=
          kept.updateNodes _ dropped
        have pruned : ∀ {current : HiveMind}, property current → property current.pruneSwarms :=
          fun holds => kept.neutral holds (.of_node rfl rfl rfl rfl)
        simp only
        split
        · rename_i loop
          rw [loop] at updated
          exact updated
        · rename_i loop
          rw [loop] at updated
          split_ifs
          · exact kept.recheck (pruned updated)
          · exact pruned updated
  · exact holds

theorem addSubscription {hive : HiveMind} (request : AddRequest) (holds : property hive) :
    property (hive.addSubscription request).1 := by
  unfold HiveMind.addSubscription rememberSubscription forceAccount
  simp only
  split_ifs
  · apply kept.addAccounts _ _ true
    exact kept.neutral holds (.of_node rfl rfl rfl rfl)
  · exact kept.neutral holds (.of_node rfl rfl rfl rfl)

end Operations

/-- The rule for events that are neither a start nor a callback. -/
theorem step {hive after : HiveMind} {event : Event} {now : SteadyTime}
    (kept : LinkInvariant env (event.steadyTime.getD now) property)
    (internal : event.isInternal = true) (taken : HiveMind.step env hive event = some after)
    (holds : property hive) : property after := by
  have neutral : ∀ db, property { hive with db := db } := fun db =>
    kept.neutral holds (.of_node rfl rfl rfl rfl)
  replace taken := handle_of_step taken
  cases event with
  | start now threads clock => contradiction
  | addSubscription request =>
      cases taken
      exact @addSubscription env property (Sample.moment now) kept hive request holds
  | removeSubscription now request =>
      simp only [handle] at taken
      split at taken
      · rename_i result removed ran
        cases taken
        rw [HiveMind.removeSubscription] at ran
        split_ifs at ran
        split at ran
        · contradiction
        · cases ran
          exact neutral _
      · cases taken
        exact holds
  | dropRegistrations service svcids =>
      cases taken
      exact neutral _
  | dbCleanup now =>
      cases taken
      exact neutral _
  | snsResponse moment data =>
      cases taken
      exact kept.onSnsResponse data holds
  | checkSubs moment =>
      cases taken
      exact kept.checkSubs holds
  | checkMySubs moment ref =>
      cases taken
      exact kept.checkNodeSubs ref holds
  | connect moment ref =>
      cases taken
      exact kept.connects ref holds
  | connectTo moment ref addr =>
      cases taken
      exact kept.connectTo ref addr holds
  | disconnect ref =>
      cases taken
      exact kept.disconnects ref holds
  | connected moment conn => contradiction
  | disconnected moment conn => contradiction

section Callbacks

variable {moment : Moment} (kept : LinkInvariant env moment.steady property) {hive after : HiveMind}
  {conn : ConnId} {record : Conn}

include kept

theorem deliverConnected (taken : hive.deliverConnected env moment conn = some after)
    (found : hive.conns[conn]? = some record)
    (marked : property ((hive.modifyConn conn fun record =>
      { record with established := true }).modifyNode record.owner SNode.markConnected)) :
    property after := by
  simp only [HiveMind.deliverConnected, found] at taken
  split_ifs at taken
  cases taken
  unfold onConnected
  simp only
  split_ifs
  · exact kept.finishedConnectOf conn marked
  · exact kept.checkNodeSubs record.owner (kept.finishedConnectOf conn marked)

theorem deliverDisconnected (taken : hive.deliverDisconnected env moment conn = some after)
    (found : hive.conns[conn]? = some record)
    (marked : property ((hive.modifyConn conn fun record =>
      { record with ended := true }).modifyNode record.owner
        (SNode.markDisconnected hive.quicOut moment.steady))) : property after := by
  simp only [HiveMind.deliverDisconnected, found] at taken
  split_ifs at taken
  cases taken
  unfold onDisconnected
  simp only
  split_ifs
  · exact kept.finishedConnectOf conn marked
  · exact marked

end Callbacks

end LinkInvariant

/-! ## A node at rest -/

/-- A node is to be left alone for so many seconds, with the number of its
attempts so far. -/
structure Pause where
  ref : NodeRef
  since : SteadyTime
  wait : Int
  attempts : Nat

/-- The end of the pause. -/
def Pause.over (pause : Pause) : SteadyTime :=
  pause.since + pause.wait * second

/-- The node has no connection, and a cooldown to the end of the pause or
longer.  So has any cooldown that may follow it. -/
structure Resting (pause : Pause) (hive : HiveMind) : Prop where
  created : pause.ref < hive.nodeCount
  quicOut : hive.quicOut = true
  attempts : hive.attempts pause.ref = pause.attempts
  conn : (hive.node pause.ref).conn = none
  connected : (hive.node pause.ref).connected = false
  cooling : ∃ deadline, (hive.node pause.ref).cooldownUntil = some deadline ∧ pause.over ≤ deadline
  longer : pause.wait ≤ SNode.cooldownAfter (hive.node pause.ref).cooldownFails

theorem SameLinks.node {before after : HiveMind} (same : SameLinks before after) (ref : NodeRef) :
    (after.node ref).conn = (before.node ref).conn ∧
      (after.node ref).connected = (before.node ref).connected ∧
      (after.node ref).cooldownUntil = (before.node ref).cooldownUntil ∧
      (after.node ref).cooldownFails = (before.node ref).cooldownFails := by
  have pacing := same.pacing ref
  simpa only [SNode.pacing, Prod.mk.injEq] using pacing

section Resting

variable {env : Env} {pause : Pause} {hive : HiveMind}

theorem Resting.congr {after : HiveMind} (resting : Resting pause hive)
    (same : SameLinks hive after) : Resting pause after := by
  obtain ⟨conn, connected, cooldownUntil, cooldownFails⟩ := same.node pause.ref
  constructor
  · rw [same.nodeCount]
    exact resting.created
  · exact same.quicOut.trans resting.quicOut
  · rw [HiveMind.attempts, same.owners]
    exact resting.attempts
  · exact conn.trans resting.conn
  · exact connected.trans resting.connected
  · rw [cooldownUntil]
    exact resting.cooling
  · rw [cooldownFails]
    exact resting.longer

theorem Resting.of_node {after : HiveMind} (resting : Resting pause hive)
    (nodeCount : hive.nodeCount ≤ after.nodeCount) (quicOut : after.quicOut = hive.quicOut)
    (attempts : after.attempts pause.ref = hive.attempts pause.ref)
    (node : after.node pause.ref = hive.node pause.ref) : Resting pause after := by
  refine ⟨resting.created.trans_le nodeCount, quicOut.trans resting.quicOut,
    attempts.trans resting.attempts, ?_, ?_, ?_, ?_⟩ <;> rw [node]
  · exact resting.conn
  · exact resting.connected
  · exact resting.cooling
  · exact resting.longer

/-- Other nodes are of no concern. -/
theorem Resting.modifyNode (resting : Resting pause hive) {other : NodeRef}
    (different : other ≠ pause.ref) (f : SNode → SNode) :
    Resting pause (hive.modifyNode other f) := by
  refine resting.of_node (Nat.le_refl _) rfl rfl ?_
  rw [modifyNode_node, if_neg different.symm]

theorem Resting.coolingDown (resting : Resting pause hive) {now : SteadyTime}
    (early : now < pause.over) : (hive.node pause.ref).coolingDown now = true := by
  obtain ⟨deadline, found, later⟩ := resting.cooling
  rw [SNode.coolingDown, found]
  exact decide_eq_true (early.trans_le later)

/-- Nothing connects the node before the pause is over. -/
theorem Resting.connect (resting : Resting pause hive) {now : SteadyTime}
    (early : now < pause.over) (ref : NodeRef) : Resting pause (hive.connect env now ref) := by
  rcases connect_cases env now ref hive with same | ⟨awake, may⟩
  · rw [same]
    exact resting
  · have other : ref ≠ pause.ref := by
      rintro rfl
      rw [resting.coolingDown early] at awake
      contradiction
    have cleared := resting.modifyNode other SNode.clearCooldown
    rcases may with refused | opened
    · rw [refused]
      exact cleared
    · rw [opened]
      have counted : Resting pause
          { (hive.modifyNode ref SNode.clearCooldown).granted with
            conns := hive.conns ++ [Conn.opened ref] } := by
        refine cleared.of_node (Nat.le_refl _) rfl ?_ rfl
        have owners : (hive.conns ++ [Conn.opened ref]).map Conn.owner =
            hive.conns.map Conn.owner ++ [ref] := List.map_append
        rw [HiveMind.attempts, owners, List.count_append, List.count_singleton,
          if_neg (by simpa using other), Nat.add_zero]
        rfl
      exact counted.modifyNode other _

theorem Resting.disconnect (resting : Resting pause hive) (ref : NodeRef) :
    Resting pause (hive.disconnect ref) := by
  have closed : Resting pause (hive.closeConn ref) := by
    rw [closeConn]
    split
    · exact resting.congr (SameLinks.modifyConn hive _ fun _ => rfl)
    · exact resting
  by_cases own : ref = pause.ref
  · subst own
    apply closed.congr
    apply SameLinks.modifyNode
    have unattached : ¬((hive.closeConn pause.ref).node pause.ref).conn.isSome := by
      simp [closed.conn]
    rw [SNode.detach, if_neg unattached]
    simp only [SNode.pacing, closed.connected]
  · exact closed.modifyNode own SNode.detach

theorem linkInvariant_resting (env : Env) {now : SteadyTime} (early : now < pause.over) :
    LinkInvariant env now (Resting pause) where
  neutral := Resting.congr
  connects ref resting := resting.connect early ref
  disconnects ref resting := resting.disconnect ref
  creates := by
    intro hive addr swarm resting
    have other : pause.ref ≠ hive.nodeCount := Nat.ne_of_lt resting.created
    exact resting.of_node (Nat.le_succ _) rfl rfl (Function.update_of_ne other _ _)

/-- A connection of the node ends, and its cooldown begins anew. -/
theorem Resting.markDisconnected (resting : Resting pause hive) {now : SteadyTime}
    (late : pause.since ≤ now) (room : SNode.HasRoom now) :
    Resting pause (hive.modifyNode pause.ref (SNode.markDisconnected hive.quicOut now)) := by
  have node : SNode.markDisconnected hive.quicOut now (hive.node pause.ref) =
      { hive.node pause.ref with
        connected := false
        cooldownUntil := some (now + SNode.cooldownAfter (hive.node pause.ref).cooldownFails * second)
        cooldownFails := (hive.node pause.ref).cooldownFails + 1
        stream := none
        conn := none } := by
    have exact := room.int64_eq (SNode.cooldownAfter_pos (hive.node pause.ref).cooldownFails)
      (SNode.cooldownAfter_le_longest _)
    rw [SNode.markDisconnected, resting.quicOut, resting.connected, ← exact]
    rfl
  refine ⟨resting.created, resting.quicOut, resting.attempts, ?_, ?_, ?_, ?_⟩ <;>
    rw [modifyNode_node_self, node]
  · refine ⟨_, rfl, ?_⟩
    have positive : (0 : Int) ≤ second := by decide
    exact add_le_add late (mul_le_mul_of_nonneg_right resting.longer positive)
  · exact resting.longer.trans (SNode.cooldownAfter_mono _)

/-- The pause that the end of a connection begins. -/
theorem resting_markDisconnected {ref : NodeRef} {now : SteadyTime} (room : SNode.HasRoom now)
    (created : ref < hive.nodeCount) (quicOut : hive.quicOut = true) :
    Resting ⟨ref, now, (hive.node ref).pause, hive.attempts ref⟩
      (hive.modifyNode ref (SNode.markDisconnected hive.quicOut now)) := by
  have marked : ∃ fails, (hive.node ref).pause ≤ SNode.cooldownAfter fails ∧
      (SNode.markDisconnected hive.quicOut now (hive.node ref)).cooldownFails = fails ∧
      (SNode.markDisconnected hive.quicOut now (hive.node ref)).cooldownUntil =
        some (int64 (now + (hive.node ref).pause * second)) ∧
      (SNode.markDisconnected hive.quicOut now (hive.node ref)).connected = false := by
    simp only [SNode.markDisconnected, SNode.startCooldown, SNode.pause, quicOut, if_true]
    cases (hive.node ref).connected with
    | true => exact ⟨0, SNode.reconnectWait_le_cooldownAfter 0, rfl, rfl, rfl⟩
    | false => exact ⟨_, SNode.cooldownAfter_mono _, rfl, rfl, rfl⟩
  obtain ⟨fails, longer, cooldownFails, cooldownUntil, connected⟩ := marked
  refine ⟨created, quicOut, rfl, ?_, ?_, ?_, ?_⟩ <;> rw [modifyNode_node_self]
  · rfl
  · exact connected
  · have exact := room.int64_eq (SNode.pause_pos (hive.node ref)) (SNode.pause_le_longest _)
    exact ⟨_, cooldownUntil, le_of_eq exact.symm⟩
  · rw [cooldownFails]
    exact longer

end Resting

/-! ## Failures in a row -/

/-- The node has no established connection, and so many attempts have failed. -/
structure Failing (ref : NodeRef) (fails : Nat) (hive : HiveMind) : Prop where
  created : ref < hive.nodeCount
  quicOut : hive.quicOut = true
  connected : (hive.node ref).connected = false
  cooldownFails : (hive.node ref).cooldownFails = fails

section Failing

variable {env : Env} {ref : NodeRef} {fails : Nat} {hive : HiveMind}

theorem Failing.congr {after : HiveMind} (failing : Failing ref fails hive)
    (same : SameLinks hive after) : Failing ref fails after := by
  obtain ⟨-, connected, -, cooldownFails⟩ := same.node ref
  constructor
  · rw [same.nodeCount]
    exact failing.created
  · exact same.quicOut.trans failing.quicOut
  · exact connected.trans failing.connected
  · exact cooldownFails.trans failing.cooldownFails

theorem Failing.modifyNode (failing : Failing ref fails hive) {other : NodeRef} {f : SNode → SNode}
    (connected : other = ref → (f (hive.node ref)).connected = false)
    (cooldownFails : other = ref →
      (f (hive.node ref)).cooldownFails = (hive.node ref).cooldownFails) :
    Failing ref fails (hive.modifyNode other f) := by
  refine ⟨failing.created, failing.quicOut, ?_, ?_⟩ <;> rw [modifyNode_node] <;>
    split_ifs with own
  · rw [← own]
    exact connected own.symm
  · exact failing.connected
  · rw [← own, cooldownFails own.symm]
    exact failing.cooldownFails
  · exact failing.cooldownFails

theorem linkInvariant_failing (env : Env) (now : SteadyTime) (ref : NodeRef) (fails : Nat) :
    LinkInvariant env now (Failing ref fails) where
  neutral := Failing.congr
  connects := by
    intro hive other failing
    rcases connect_cases env now other hive with same | ⟨-, may⟩
    · rw [same]
      exact failing
    · have cleared : Failing ref fails (hive.modifyNode other SNode.clearCooldown) :=
        failing.modifyNode (fun _ => failing.connected) fun _ => rfl
      rcases may with refused | opened
      · rw [refused]
        exact cleared
      · rw [opened]
        have counted : Failing ref fails
            { (hive.modifyNode other SNode.clearCooldown).granted with
              conns := hive.conns ++ [Conn.opened other] } :=
          ⟨cleared.created, cleared.quicOut, cleared.connected, cleared.cooldownFails⟩
        exact counted.modifyNode (fun _ => cleared.connected) fun _ => rfl
  disconnects := by
    intro hive other failing
    have closed : Failing ref fails (hive.closeConn other) := by
      rw [closeConn]
      split
      · exact failing.congr (SameLinks.modifyConn hive _ fun _ => rfl)
      · exact failing
    apply closed.modifyNode <;> intro _ <;> rw [SNode.detach] <;> split_ifs <;> rfl
  creates := by
    intro hive addr swarm failing
    have other : ref ≠ hive.nodeCount := Nat.ne_of_lt failing.created
    have same : (hive.withBlank addr swarm).node ref = hive.node ref :=
      Function.update_of_ne other _ _
    refine ⟨Nat.lt_succ_of_lt failing.created, failing.quicOut, ?_, ?_⟩ <;> rw [same]
    · exact failing.connected
    · exact failing.cooldownFails

theorem Failing.markDisconnected (failing : Failing ref fails hive) (now : SteadyTime) :
    Failing ref (fails + 1) (hive.modifyNode ref (SNode.markDisconnected hive.quicOut now)) := by
  refine ⟨failing.created, failing.quicOut, ?_, ?_⟩ <;>
    simp [SNode.markDisconnected, SNode.startCooldown, failing.quicOut, failing.connected,
      failing.cooldownFails]

end Failing

/-! ## Runs -/

/-- The server is not restarted, and no connection of the node is established. -/
def Unanswered (ref : NodeRef) (hive : HiveMind) : Event → Prop
  | .start _ _ _ => False
  | .connected _ conn => ∀ record, hive.conns[conn]? = some record → record.owner ≠ ref
  | _ => True

/-- A connection of the node ends. -/
def ends (ref : NodeRef) (hive : HiveMind) : Event → Bool
  | .disconnected _ conn => (hive.conns[conn]?).any fun record => record.owner = ref
  | _ => false

/-- How many connections of the node end in a run. -/
def endings (env : Env) (ref : NodeRef) : HiveMind → List Event → Nat
  | _, [] => 0
  | hive, event :: events =>
      (if hive.ends ref event then 1 else 0) +
        match step env hive event with
        | some next => endings env ref next events
        | none => 0

/-- By a clock that runs neither backwards nor to its end, the event is in the
pause. -/
def Pause.Covers (pause : Pause) (event : Event) : Prop :=
  ∀ now, event.steadyTime = some now →
    SNode.HasRoom now ∧ pause.since ≤ now ∧ now < pause.over

theorem exists_of_deliverConnected {env : Env} {moment : Moment} {hive after : HiveMind}
    {conn : ConnId} (taken : hive.deliverConnected env moment conn = some after) :
    ∃ record, hive.conns[conn]? = some record := by
  rw [deliverConnected] at taken
  split at taken
  · rename_i record found
    exact ⟨record, found⟩
  · contradiction

theorem exists_of_deliverDisconnected {env : Env} {moment : Moment} {hive after : HiveMind}
    {conn : ConnId} (taken : hive.deliverDisconnected env moment conn = some after) :
    ∃ record, hive.conns[conn]? = some record := by
  rw [deliverDisconnected] at taken
  split at taken
  · rename_i record found
    exact ⟨record, found⟩
  · contradiction

variable {env : Env} {hive after : HiveMind} {event : Event}

theorem Resting.step {pause : Pause} (resting : Resting pause hive)
    (unanswered : Unanswered pause.ref hive event) (covered : pause.Covers event)
    (taken : HiveMind.step env hive event = some after) : Resting pause after := by
  have early : event.steadyTime.getD (pause.over - 1) < pause.over := by
    cases time : event.steadyTime with
    | none => exact Int.sub_one_lt_of_le (le_refl _)
    | some now => exact (covered now time).2.2
  have kept := linkInvariant_resting env early
  cases event with
  | start => exact unanswered.elim
  | connected moment conn =>
      replace taken := handle_of_step taken
      obtain ⟨record, found⟩ := exists_of_deliverConnected taken
      have recorded := resting.congr (SameLinks.modifyConn hive conn
        (f := fun record => { record with established := true }) fun _ => rfl)
      exact kept.deliverConnected taken found (recorded.modifyNode (unanswered record found) _)
  | disconnected moment conn =>
      replace taken := handle_of_step taken
      obtain ⟨record, found⟩ := exists_of_deliverDisconnected taken
      have recorded := resting.congr (SameLinks.modifyConn hive conn
        (f := fun record => { record with ended := true }) fun _ => rfl)
      apply kept.deliverDisconnected taken found
      by_cases own : record.owner = pause.ref
      · rw [own]
        obtain ⟨room, late, -⟩ := covered moment.steady rfl
        exact recorded.markDisconnected late room
      · exact recorded.modifyNode own _
  | _ => exact kept.step rfl taken resting

theorem Failing.step {ref : NodeRef} {fails : Nat} (failing : Failing ref fails hive)
    (unanswered : Unanswered ref hive event) (taken : HiveMind.step env hive event = some after) :
    Failing ref (fails + if hive.ends ref event then 1 else 0) after := by
  cases event with
  | start => exact unanswered.elim
  | connected moment conn =>
      replace taken := handle_of_step taken
      obtain ⟨record, found⟩ := exists_of_deliverConnected taken
      have recorded := failing.congr (SameLinks.modifyConn hive conn
        (f := fun record => { record with established := true }) fun _ => rfl)
      have other := unanswered record found
      apply (linkInvariant_failing env moment.steady ref _).deliverConnected taken found
      exact recorded.modifyNode (fun own => absurd own other) fun own => absurd own other
  | disconnected moment conn =>
      replace taken := handle_of_step taken
      obtain ⟨record, found⟩ := exists_of_deliverDisconnected taken
      have recorded := failing.congr (SameLinks.modifyConn hive conn
        (f := fun record => { record with ended := true }) fun _ => rfl)
      apply (linkInvariant_failing env moment.steady ref _).deliverDisconnected taken found
      by_cases own : record.owner = ref
      · have ended : hive.ends ref (.disconnected moment conn) = true := by simp [ends, found, own]
        rw [ended, own]
        exact recorded.markDisconnected moment.steady
      · have other : hive.ends ref (.disconnected moment conn) = false := by simp [ends, found, own]
        rw [other]
        exact recorded.modifyNode (fun same => absurd same own) fun same => absurd same own
  | _ => exact (linkInvariant_failing env (Option.getD _ 0) ref fails).step rfl taken failing

/-- Every ending of a connection that was not established counts as a failure. -/
theorem Failing.of_exec {ref : NodeRef} {events : List Event} {fails : Nat}
    (failing : Failing ref fails hive)
    (unanswered : Run.EveryStep (HiveMind.step env) (fun state event _ => Unanswered ref state event)
      hive events)
    (run : Run.exec (HiveMind.step env) hive events = some after) :
    Failing ref (fails + endings env ref hive events) after := by
  induction events generalizing hive fails with
  | nil =>
      cases run
      exact failing
  | cons event events ih =>
      obtain ⟨next, taken, rest⟩ := (Run.exec_cons_eq_some_iff _ _ _ _ _).mp run
      obtain ⟨here, later⟩ := unanswered next taken
      rw [endings, taken, ← Nat.add_assoc]
      exact ih (failing.step here taken) later rest

/-- The end of a connection begins a pause. -/
theorem resting_of_disconnected {conn : ConnId} {record : Conn} {moment : Moment}
    (room : SNode.HasRoom moment.steady) (created : record.owner < hive.nodeCount)
    (quicOut : hive.quicOut = true) (found : hive.conns[conn]? = some record)
    (ended : HiveMind.step env hive (.disconnected moment conn) = some after) :
    Resting ⟨record.owner, moment.steady, (hive.node record.owner).pause,
      hive.attempts record.owner⟩ after := by
  have early : moment.steady < Pause.over ⟨record.owner, moment.steady,
      (hive.node record.owner).pause, hive.attempts record.owner⟩ := by
    have positive : (0 : Int) < second := by decide
    exact lt_add_of_pos_right _ (Int.mul_pos (SNode.pause_pos _) positive)
  have resting := resting_markDisconnected room created quicOut
  apply (linkInvariant_resting env early).deliverDisconnected (handle_of_step ended) found
  exact resting.congr (SameLinks.modifyConn _ conn fun _ => rfl)

/-- However the server comes to connect, a node whose connections do not get
established is not connected to before the cooldown for the number of its
failures is over.  This holds of a service node as long as it stays listed. -/
theorem unreachable_node_backs_off {ref : NodeRef} {earlier later : List Event}
    {mid final : HiveMind} {moment : Moment} {conn : ConnId} {record : Conn}
    (created : ref < hive.nodeCount) (quicOut : hive.quicOut = true)
    (connected : (hive.node ref).connected = false)
    (unanswered : Run.EveryStep (HiveMind.step env)
      (fun state event _ => Unanswered ref state event) hive earlier)
    (first : Run.exec (HiveMind.step env) hive earlier = some mid)
    (found : mid.conns[conn]? = some record) (own : record.owner = ref)
    (room : SNode.HasRoom moment.steady)
    (ended : HiveMind.step env mid (.disconnected moment conn) = some after)
    (waiting : Run.EveryStep (HiveMind.step env) (fun state event _ =>
      Unanswered ref state event ∧ Pause.Covers ⟨ref, moment.steady,
        SNode.cooldownAfter ((hive.node ref).cooldownFails + endings env ref hive earlier),
        mid.attempts ref⟩ event) after later)
    (last : Run.exec (HiveMind.step env) after later = some final) :
    final.attempts ref = mid.attempts ref ∧ (final.node ref).conn = none := by
  have failing : Failing ref ((hive.node ref).cooldownFails + endings env ref hive earlier) mid :=
    Failing.of_exec ⟨created, quicOut, connected, rfl⟩ unanswered first
  subst own
  have pause : (mid.node record.owner).pause = SNode.cooldownAfter
      ((hive.node record.owner).cooldownFails + endings env record.owner hive earlier) := by
    rw [SNode.pause, failing.connected, failing.cooldownFails]
    rfl
  have begun := resting_of_disconnected room failing.created failing.quicOut found ended
  rw [pause] at begun
  have resting := Run.invariant_of_guard (Resting _) _ begun
    (fun _ _ _ resting taken met => resting.step met.1 met.2 taken) waiting last
  exact ⟨resting.attempts, resting.conn⟩

/-- The point of both clocks after so many seconds. -/
def secondMoment (seconds : Int) : Moment :=
  Sample.moment (seconds * second)

/-- An attempt fails, and the next one is made ten seconds later. -/
def refusedOnce : List Event :=
  [.disconnected (secondMoment 1) 0, .checkSubs (secondMoment 5), .checkSubs (secondMoment 11)]

/-- The server asks for a connection in the thirty seconds after the second failure. -/
def impatient : List Event :=
  [.checkSubs (secondMoment 20), .connect (secondMoment 41) 0]

theorem unreachable_node_backs_off_twice :
    ∃ hive mid after final,
      Run.exec (step Sample.env) initial
        [.snsResponse (secondMoment 0) (.reply ⟨some [97], some 1, [Sample.snState 7]⟩)] =
          some hive ∧
      Run.exec (step Sample.env) hive refusedOnce = some mid ∧ mid.attempts 0 = 2 ∧
      step Sample.env mid (.disconnected (secondMoment 12) 1) = some after ∧
      Run.exec (step Sample.env) after impatient = some final ∧
      final.attempts 0 = mid.attempts 0 ∧ (final.node 0).conn = none := by
  have outcome : ((Run.exec (step Sample.env) initial
      [.snsResponse (secondMoment 0) (.reply ⟨some [97], some 1, [Sample.snState 7]⟩)]).bind
        fun hive => (Run.exec (step Sample.env) hive refusedOnce).bind fun mid =>
          (step Sample.env mid (.disconnected (secondMoment 12) 1)).bind fun after =>
            (Run.exec (step Sample.env) after impatient).map fun _ =>
              ([hive.nodeCount, (hive.node 0).cooldownFails,
                endings Sample.env 0 hive refusedOnce, mid.attempts 0],
                [hive.quicOut, (hive.node 0).connected], mid.conns[1]?)) =
      some ([1, 0, 1, 2], [true, false], some (Conn.opened 0)) := by
    decide +kernel
  obtain ⟨hive, started, outcome⟩ := Option.bind_eq_some_iff.mp outcome
  obtain ⟨mid, first, outcome⟩ := Option.bind_eq_some_iff.mp outcome
  obtain ⟨after, ended, outcome⟩ := Option.bind_eq_some_iff.mp outcome
  obtain ⟨final, last, facts⟩ := Option.map_eq_some_iff.mp outcome
  simp only [Prod.mk.injEq, List.cons.injEq, and_true] at facts
  obtain ⟨⟨nodeCount, fails, ends, attempts⟩, ⟨quicOut, connected⟩, found⟩ := facts
  refine ⟨hive, mid, after, final, started, first, attempts, ended, last, ?_⟩
  refine unreachable_node_backs_off (nodeCount ▸ Nat.one_pos) quicOut connected ?_ first found rfl
    (by decide) ended ?_ last
  · apply Run.everyStep_of_forall
    simp [refusedOnce, Unanswered]
  · rw [fails, ends]
    apply Run.everyStep_of_forall
    simp only [impatient, List.forall_mem_cons]
    have twenty : SNode.HasRoom (20 * second) ∧ (12 : Int) * second ≤ 20 * second ∧
        20 * second < 12 * second + 30 * second := by
      decide
    have forty : SNode.HasRoom (41 * second) ∧ (12 : Int) * second ≤ 41 * second ∧
        41 * second < 12 * second + 30 * second := by
      decide
    exact ⟨fun _ _ => ⟨trivial, fun now time => Option.some.inj time ▸ twenty⟩,
      fun _ _ => ⟨trivial, fun now time => Option.some.inj time ▸ forty⟩,
      fun _ member => absurd member List.not_mem_nil⟩

end HiveMind

end Spns
