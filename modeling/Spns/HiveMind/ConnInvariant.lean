import Spns.HiveMind.System

/-!
# A rule for invariants about connections

Apart from the callbacks, everything the server does to its connections is a
sequence of four things: it opens a connection, it disconnects a node, it
makes a new node object, or it changes data that connections do not depend
on.  A property that survives these four survives every event that is neither
a start nor a callback, and the connection attempts that callbacks trigger.
-/

namespace Spns.HiveMind

open Spns.Hive
open Spns.Lib.Unordered
open Spns.Storage

/-- `after` has the connections of `before`. -/
structure SameConns (before after : HiveMind) : Prop where
  quicOut : after.quicOut = before.quicOut
  pendingConnects : after.pendingConnects = before.pendingConnects
  connectCount : after.connectCount = before.connectCount
  conns : after.conns = before.conns
  conn : ∀ ref, (after.node ref).conn = (before.node ref).conn
  stream : ∀ ref, (after.node ref).stream = (before.node ref).stream
  connected : ∀ ref, (after.node ref).connected = (before.node ref).connected
  cooldownFails : ∀ ref, (after.node ref).cooldownFails = (before.node ref).cooldownFails

theorem SameConns.of_eq {before after : HiveMind} (quicOut : after.quicOut = before.quicOut)
    (pendingConnects : after.pendingConnects = before.pendingConnects)
    (connectCount : after.connectCount = before.connectCount)
    (conns : after.conns = before.conns) (node : after.node = before.node) :
    SameConns before after := by
  refine ⟨quicOut, pendingConnects, connectCount, conns, ?_, ?_, ?_, ?_⟩ <;> intro ref <;> rw [node]

/-- The counters after `allow_connect` has said yes. -/
def granted (hive : HiveMind) : HiveMind :=
  { hive with
    pendingConnects := hive.pendingConnects + 1
    connectCount := hive.connectCount + 1 }

theorem openConn_node (hive : HiveMind) (ref other : NodeRef) :
    (hive.granted.openConn ref).node other =
      if other = ref then (hive.node ref).attach hive.conns.length else hive.node other :=
  modifyNode_node _ ref other _

theorem openConn_conns (hive : HiveMind) (ref : NodeRef) :
    (hive.granted.openConn ref).conns = hive.conns ++ [Conn.opened ref] :=
  rfl

/-- Opening a connection does not touch the records of the others. -/
theorem getElem?_openConn_conns {hive : HiveMind} (ref : NodeRef) {conn : ConnId} {record : Conn}
    (found : hive.conns[conn]? = some record) :
    (hive.granted.openConn ref).conns[conn]? = some record := by
  rw [openConn_conns, List.getElem?_append_left (List.getElem?_eq_some_iff.mp found).1, found]

theorem allowConnect_cases (env : Env) (hive : HiveMind) :
    hive.allowConnect env = (hive, false) ∨
      hive.quicOut = true ∧ hive.pendingConnects + 1 ≤ (env.maxPendingConnects : Int) ∧
        hive.allowConnect env = (hive.granted, true) := by
  rw [allowConnect]
  split_ifs with noQuic
  · exact Or.inl rfl
  · simp only
    split_ifs with full
    · exact Or.inl rfl
    · exact Or.inr ⟨by simpa using noQuic, not_lt.mp full, rfl⟩

/-- A node object that no connection knows yet. -/
def withBlank (addr : RemoteAddress) (swarm : UInt64) (hive : HiveMind) : HiveMind :=
  { hive with
    node := Function.update hive.node hive.nodeCount (SNode.create addr swarm)
    nodeCount := hive.nodeCount + 1 }

/-- The property survives new connections and changes that do not concern
connections. -/
structure OpenInvariant (env : Env) (property : HiveMind → Prop) : Prop where
  neutral : ∀ {before after : HiveMind}, property before → SameConns before after → property after
  opens : ∀ {hive : HiveMind} {ref : NodeRef}, (hive.node ref).conn = none →
    hive.quicOut = true → hive.pendingConnects + 1 ≤ (env.maxPendingConnects : Int) →
    property hive → property (hive.granted.openConn ref)

/-- The property survives the four things that happen to connections. -/
structure ConnInvariant (env : Env) (property : HiveMind → Prop) : Prop
    extends OpenInvariant env property where
  disconnects : ∀ {hive : HiveMind} (ref : NodeRef), property hive → property (hive.disconnect ref)
  creates : ∀ {hive : HiveMind} (addr : RemoteAddress) (swarm : UInt64), property hive →
    property (hive.withBlank addr swarm)

theorem SameConns.modifyNode (hive : HiveMind) (ref : NodeRef) (f : SNode → SNode)
    (conn : (f (hive.node ref)).conn = (hive.node ref).conn)
    (stream : (f (hive.node ref)).stream = (hive.node ref).stream)
    (connected : (f (hive.node ref)).connected = (hive.node ref).connected)
    (cooldownFails : (f (hive.node ref)).cooldownFails = (hive.node ref).cooldownFails) :
    SameConns hive (hive.modifyNode ref f) := by
  refine ⟨rfl, rfl, rfl, rfl, ?_, ?_, ?_, ?_⟩ <;> intro other <;> rw [modifyNode_node] <;>
    split_ifs with equal
  · rw [equal, conn]
  · rfl
  · rw [equal, stream]
  · rfl
  · rw [equal, connected]
  · rfl
  · rw [equal, cooldownFails]
  · rfl

namespace OpenInvariant

variable {env : Env} {property : HiveMind → Prop}

theorem foldl {α : Type} {op : HiveMind → α → HiveMind} {items : List α} {hive : HiveMind}
    (each : ∀ hive, ∀ item ∈ items, property hive → property (op hive item))
    (holds : property hive) : property (items.foldl op hive) :=
  List.foldlRecOn items op holds fun current kept item member => each current item member kept

section Operations

variable (closed : OpenInvariant env property)

include closed

theorem connect {hive : HiveMind} (now : SteadyTime) (ref : NodeRef) (holds : property hive) :
    property (hive.connect env now ref) := by
  rw [HiveMind.connect]
  split_ifs with attached cooling
  · exact holds
  · exact holds
  · have cleared : property (hive.modifyNode ref SNode.clearCooldown) :=
      closed.neutral holds (SameConns.modifyNode hive ref _ rfl rfl rfl rfl)
    simp only
    rcases allowConnect_cases env (hive.modifyNode ref SNode.clearCooldown) with
      refused | ⟨quicOut, room, allowed⟩
    · rw [refused]
      exact cleared
    · have unattached : ((hive.modifyNode ref SNode.clearCooldown).node ref).conn = none := by
        rw [modifyNode_node_self]
        exact Option.not_isSome_iff_eq_none.mp attached
      rw [allowed]
      exact closed.opens unattached quicOut room cleared

theorem makeConns {hive : HiveMind} (now : SteadyTime) (refs : List NodeRef)
    (holds : property hive) : property (hive.makeConns env now refs) := by
  induction refs generalizing hive with
  | nil => exact holds
  | cons ref rest ih =>
      rw [HiveMind.makeConns]
      split_ifs
      · exact holds
      · exact ih (closed.connect now ref holds)

/-- `finished_connect` gives its slot back before it tries more connections. -/
theorem finishedConnect {hive : HiveMind} (moment : Moment)
    (released : property { hive with pendingConnects := hive.pendingConnects - 1 }) :
    property (hive.finishedConnect env moment) := by
  unfold HiveMind.finishedConnect
  simp only
  split_ifs
  · exact closed.makeConns moment.steady _ released
  · exact released

theorem checkNodeSubs {hive : HiveMind} (moment : Moment) (ref : NodeRef)
    (holds : property hive) : property (hive.checkNodeSubs env moment ref) := by
  unfold HiveMind.checkNodeSubs
  simp only
  split_ifs
  · rw [drainQueue]
    have logged : ∀ sent, property { hive with sent := sent } := fun sent =>
      closed.neutral holds (.of_eq rfl rfl rfl rfl rfl)
    exact closed.neutral (logged _) (SameConns.modifyNode _ ref _ rfl rfl rfl rfl)
  · exact holds
  · exact holds
  · apply closed.connect moment.steady ref
    exact closed.neutral holds (SameConns.modifyNode hive ref _ rfl rfl rfl rfl)

theorem checkSubs {hive : HiveMind} (moment : Moment) (holds : property hive) :
    property (hive.checkSubs env moment) :=
  foldl (fun _ ref _ kept => closed.checkNodeSubs moment ref kept) holds

end Operations

end OpenInvariant

namespace ConnInvariant

variable {env : Env} {property : HiveMind → Prop}

section Operations

variable (closed : ConnInvariant env property)

include closed

theorem connectTo {hive : HiveMind} (now : SteadyTime) (ref : NodeRef) (addr : RemoteAddress)
    (holds : property hive) : property (hive.connectTo env now ref addr) := by
  unfold HiveMind.connectTo
  simp only
  split_ifs
  · apply closed.connect now ref
    exact closed.neutral (closed.disconnects ref holds) (SameConns.modifyNode _ ref _ rfl rfl rfl rfl)
  · exact closed.connect now ref holds

theorem dropNode {hive : HiveMind} (entry : Sigma fun _ : Ed25519PK => NodeRef)
    (holds : property hive) : property (hive.dropNode entry) := by
  have erased : property (hive.eraseSwarmNode (hive.node entry.2).swarm entry.2) :=
    closed.neutral holds (.of_eq rfl rfl rfl rfl rfl)
  exact closed.neutral (closed.disconnects entry.2 erased)
    (.of_eq rfl rfl rfl rfl rfl)

theorem moveNode {hive : HiveMind} (ref : NodeRef) (swarm : UInt64) (holds : property hive) :
    property (hive.moveNode ref swarm) := by
  have same := SameConns.modifyNode (hive.eraseSwarmNode (hive.node ref).swarm ref) ref
    (SNode.resetSwarm swarm) rfl rfl rfl rfl
  exact closed.neutral holds ⟨same.quicOut, same.pendingConnects, same.connectCount, same.conns,
    same.conn, same.stream, same.connected, same.cooldownFails⟩

theorem newNode {hive : HiveMind} (now : SteadyTime) (key : Ed25519PK) (addr : RemoteAddress)
    (swarm : UInt64) (holds : property hive) :
    property (hive.newNode env now key addr swarm) := by
  have connected := closed.connect now hive.nodeCount (closed.creates addr swarm holds)
  exact closed.neutral connected (.of_eq rfl rfl rfl rfl rfl)

theorem updateNode {state : HiveMind × List NodeRef} (now : SteadyTime) (key : Ed25519PK)
    (details : SnDetails) (ip : Bytes) (holds : property state.1) :
    property (HiveMind.updateNode env now key details ip state).1 := by
  rw [HiveMind.updateNode]
  simp only
  split
  · split_ifs
    · exact closed.connectTo now _ _ (closed.moveNode _ _ holds)
    · exact closed.connectTo now _ _ holds
  · exact closed.newNode now key _ _ holds

theorem updateNodes {state : HiveMind × List NodeRef} (now : SteadyTime)
    (entries : List (Sigma fun _ : Ed25519PK => SnDetails)) (holds : property state.1) :
    property (HiveMind.updateNodes env now entries state).1.1 := by
  induction entries generalizing state with
  | nil => exact holds
  | cons entry rest ih =>
      rw [HiveMind.updateNodes]
      cases env.parseIp entry.2.ip with
      | none => exact holds
      | some ip => exact ih (closed.updateNode now entry.1 entry.2 ip holds)

theorem pruneSwarms {hive : HiveMind} (holds : property hive) : property hive.pruneSwarms :=
  closed.neutral holds (.of_eq rfl rfl rfl rfl rfl)

theorem modifyNodes {hive : HiveMind} (nodes : List NodeRef) (f : SNode → SNode)
    (conn : ∀ node, (f node).conn = node.conn) (stream : ∀ node, (f node).stream = node.stream)
    (connected : ∀ node, (f node).connected = node.connected)
    (cooldownFails : ∀ node, (f node).cooldownFails = node.cooldownFails)
    (holds : property hive) : property (hive.modifyNodes nodes f) :=
  OpenInvariant.foldl (fun hive ref _ kept => closed.neutral kept
    (SameConns.modifyNode hive ref f (conn _) (stream _) (connected _) (cooldownFails _))) holds

theorem addAccounts {hive : HiveMind} (nodes : List NodeRef) (account : SwarmPubkey)
    (forceNow : Bool) (holds : property hive) :
    property (hive.modifyNodes nodes (SNode.addAccount account forceNow)) := by
  refine closed.modifyNodes nodes _ ?_ ?_ ?_ ?_ holds <;> intro node <;> unfold SNode.addAccount <;>
    split_ifs <;> rfl

theorem recheck {hive : HiveMind} (moment : Moment) (holds : property hive) :
    property (hive.recheck env moment) := by
  have refreshed : property hive.refreshSubscribers :=
    closed.neutral holds (.of_eq rfl rfl rfl rfl rfl)
  refine closed.checkSubs moment (OpenInvariant.foldl (fun hive entry _ kept => ?_) refreshed)
  refine OpenInvariant.foldl (fun hive account _ kept => ?_) (closed.modifyNodes entry.2 _ (fun _ => rfl)
    (fun _ => rfl) (fun _ => rfl) (fun _ => rfl) kept)
  split_ifs
  · exact closed.addAccounts entry.2 account false kept
  · exact kept

theorem onSnsResponse {hive : HiveMind} (moment : Moment) (data : SnsData)
    (holds : property hive) : property (hive.onSnsResponse env moment data).1 := by
  unfold HiveMind.onSnsResponse
  split
  · rename_i reply
    split
    · exact holds
    · rename_i committed swarmsChanged refreshed
      have committedHolds : property committed := by
        apply closed.neutral holds
        rw [refreshSwarmIds] at refreshed
        split at refreshed
        · split_ifs at refreshed
          · split at refreshed
            · contradiction
            · split_ifs at refreshed <;> cases refreshed <;>
                exact .of_eq rfl rfl rfl rfl rfl
          · cases refreshed
            exact .of_eq rfl rfl rfl rfl rfl
        · contradiction
      split
      · exact committedHolds
      · rename_i listing _
        have dropped : property (committed.dropNodes listing) :=
          OpenInvariant.foldl (fun _ entry _ kept => closed.dropNode entry kept) committedHolds
        have updated : property (HiveMind.updateNodes env moment.steady
            (shuffle moment.updateOrder listing.entries) (committed.dropNodes listing, [])).1.1 :=
          closed.updateNodes moment.steady _ dropped
        simp only
        split
        · rename_i loop
          rw [loop] at updated
          exact updated
        · rename_i loop
          rw [loop] at updated
          split_ifs
          · exact closed.recheck moment (closed.pruneSwarms updated)
          · exact closed.pruneSwarms updated
  · exact holds

theorem addSubscription {hive : HiveMind} (request : AddRequest) (holds : property hive) :
    property (hive.addSubscription request).1 := by
  unfold HiveMind.addSubscription rememberSubscription forceAccount
  simp only
  split_ifs
  · apply closed.addAccounts _ _ true
    exact closed.neutral holds (.of_eq rfl rfl rfl rfl rfl)
  · exact closed.neutral holds (.of_eq rfl rfl rfl rfl rfl)

end Operations

end ConnInvariant

/-! ## Events -/

end Spns.HiveMind

namespace Spns

/-- The event is neither a start nor a callback of a connection. -/
def Event.isInternal : Event → Bool
  | .start .. | .connected .. | .disconnected .. => false
  | _ => true

end Spns

namespace Spns.HiveMind

open Spns.Hive
open Spns.Lib.Unordered

/-- The rule: an invariant about connections survives every internal event. -/
theorem ConnInvariant.step {env : Env} {property : HiveMind → Prop}
    (closed : ConnInvariant env property) {hive after : HiveMind} {event : Event}
    (internal : event.isInternal = true) (taken : HiveMind.step env hive event = some after)
    (holds : property hive) : property after := by
  have neutral : ∀ db, property { hive with db := db } := fun db =>
    closed.neutral holds (.of_eq rfl rfl rfl rfl rfl)
  replace taken := handle_of_step taken
  cases event with
  | start now threads clock => contradiction
  | addSubscription request =>
      cases taken
      exact closed.addSubscription request holds
  | removeSubscription now request =>
      simp only [handle] at taken
      split at taken
      · rename_i result removed ran
        cases taken
        rw [HiveMind.removeSubscription] at ran
        split_ifs at ran
        split at ran
        · contradiction
        · cases ran
          exact neutral _
      · cases taken
        exact holds
  | dropRegistrations service svcids =>
      cases taken
      exact neutral _
  | dbCleanup now =>
      cases taken
      exact neutral _
  | snsResponse moment data =>
      cases taken
      exact closed.onSnsResponse moment data holds
  | checkSubs moment =>
      cases taken
      exact closed.checkSubs moment holds
  | checkMySubs moment ref =>
      cases taken
      exact closed.checkNodeSubs moment ref holds
  | connect moment ref =>
      cases taken
      exact closed.connect moment.steady ref holds
  | connectTo moment ref addr =>
      cases taken
      exact closed.connectTo moment.steady ref addr holds
  | disconnect ref =>
      cases taken
      exact closed.disconnects ref holds
  | connected moment conn => contradiction
  | disconnected moment conn => contradiction

theorem started_of_step {env : Env} {hive after : HiveMind} {now : SysTime} {threads : Nat}
    {clock : Nat → SysTime}
    (taken : HiveMind.step env hive (.start now threads clock) = some after) :
    ∃ db subscribers, after = started db subscribers := by
  replace taken := handle_of_step taken
  simp only [handle, start] at taken
  split at taken
  · contradiction
  · cases taken
    exact ⟨_, _, rfl⟩

/-- The rule for callbacks too: it is enough that the property does not depend
on the records of the connections, and survives when slots are given back. -/
theorem ConnInvariant.step_of_downward {env : Env} {property : HiveMind → Prop}
    (closed : ConnInvariant env property)
    (downward : ∀ before after : HiveMind, after.quicOut = before.quicOut →
      after.pendingConnects ≤ before.pendingConnects → property before → property after)
    (fresh : ∀ db subscribers, property (started db subscribers)) {hive after : HiveMind}
    {event : Event} (taken : HiveMind.step env hive event = some after)
    (holds : property hive) : property after := by
  have finished : ∀ (moment : Moment) (conn : ConnId) {current : HiveMind}, property current →
      property (current.finishedConnectOf env moment conn) := by
    intro moment conn current kept
    apply closed.finishedConnect moment
    exact downward current _ rfl (Int.sub_le_self _ Int.one_nonneg) kept
  cases event with
  | start now threads clock =>
      obtain ⟨db, subscribers, rfl⟩ := started_of_step taken
      exact fresh db subscribers
  | connected moment conn =>
      replace taken := handle_of_step taken
      simp only [handle] at taken
      rw [deliverConnected] at taken
      split at taken
      · split_ifs at taken
        cases taken
        unfold onConnected
        simp only
        split_ifs
        · exact finished moment conn (downward hive _ rfl (Int.le_refl _) holds)
        · apply closed.checkNodeSubs moment
          exact finished moment conn (downward hive _ rfl (Int.le_refl _) holds)
      · contradiction
  | disconnected moment conn =>
      replace taken := handle_of_step taken
      simp only [handle] at taken
      rw [deliverDisconnected] at taken
      split at taken
      · split_ifs at taken
        cases taken
        unfold onDisconnected
        simp only
        split_ifs
        · exact finished moment conn (downward hive _ rfl (Int.le_refl _) holds)
        · exact downward hive _ rfl (Int.le_refl _) holds
      · contradiction
  | _ => exact closed.step rfl taken holds

theorem connInvariant_quicOut (env : Env) : ConnInvariant env fun hive => hive.quicOut = true where
  neutral wired same := same.quicOut.trans wired
  opens _ _ _ wired := wired
  disconnects := by
    intro hive ref wired
    change (hive.closeConn ref).quicOut = true
    rw [closeConn]
    split <;> exact wired
  creates _ _ wired := wired

/-- The endpoint stays as long as the server runs. -/
theorem quicOut_step {env : Env} {hive after : HiveMind} {event : Event}
    (wired : hive.quicOut = true) (taken : step env hive event = some after) :
    after.quicOut = true :=
  (connInvariant_quicOut env).step_of_downward (fun _ _ same _ wired => same.trans wired)
    (fun _ _ => rfl) taken wired

end Spns.HiveMind
