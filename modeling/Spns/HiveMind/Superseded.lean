import Spns.HiveMind.ConnInvariant

/-!
# Callbacks of superseded connections

The callbacks of a connection capture the node, not the connection.  A late
callback of a connection that was closed or replaced therefore acts on
whatever the node holds by then: `on_connected` marks the successor as
connected, `on_disconnected` drops it and starts a cooldown.  After the node was
dropped they act on an object that does not exist any more.
-/

namespace Spns.HiveMind

open Spns.Hive
open Spns.Lib
open Spns.Lib.Unordered

/-- A connected node holds an established connection of its own, with its
stream, which has neither been closed nor ended. -/
def ConnectedLive (hive : HiveMind) : Prop :=
  ∀ ref, (hive.node ref).connected = true → ∃ (conn : ConnId) (record : Conn),
    (hive.node ref).conn = some conn ∧ (hive.node ref).stream = some conn ∧
      hive.conns[conn]? = some record ∧ record.owner = ref ∧ record.established = true ∧
      record.closed = false ∧ record.ended = false

/-- The two nodes agree on everything that a callback may touch. -/
structure SameLink (before after : SNode) : Prop where
  conn : after.conn = before.conn
  stream : after.stream = before.stream
  connected : after.connected = before.connected
  cooldownUntil : after.cooldownUntil = before.cooldownUntil
  cooldownFails : after.cooldownFails = before.cooldownFails

/-- An `on_disconnected` of another connection leaves its node alone. -/
def Undisturbed (hive : HiveMind) (event : Event) (after : HiveMind) : Prop :=
  match event with
  | .disconnected _ conn => ∀ record, hive.conns[conn]? = some record →
      (hive.node record.owner).conn ≠ some conn →
      SameLink (hive.node record.owner) (after.node record.owner)
  | _ => True

/-- Callbacks arrive for the connection that the node holds.  An `on_connected`
may also find no connection, or one that is established already. -/
def CurrentStep (hive : HiveMind) : Event → Prop
  | .connected _ conn => ∀ record, hive.conns[conn]? = some record →
      ∀ (held : ConnId) (heldRecord : Conn), (hive.node record.owner).conn = some held →
        hive.conns[held]? = some heldRecord → held = conn ∨ heldRecord.established = true
  | .disconnected _ conn => ∀ record, hive.conns[conn]? = some record →
      (hive.node record.owner).conn = some conn
  | _ => True

/-! ## The invariant -/

/-- What a node says about its connection is true. -/
structure Linked (hive : HiveMind) : Prop where
  idle : ∀ {ref : NodeRef}, (hive.node ref).conn = none → (hive.node ref).connected = false
  held : ∀ {ref : NodeRef} {conn : ConnId}, (hive.node ref).conn = some conn →
    (hive.node ref).stream = some conn ∧ ∃ record, hive.conns[conn]? = some record ∧
      record.owner = ref ∧ record.closed = false ∧ record.ended = false ∧
      ((hive.node ref).connected = true → record.established = true)

theorem Linked.connectedLive {hive : HiveMind} (linked : Linked hive) : ConnectedLive hive := by
  intro ref connected
  cases attached : (hive.node ref).conn with
  | none =>
      rw [linked.idle attached] at connected
      contradiction
  | some conn =>
      obtain ⟨stream, record, found, owner, closed, ended, established⟩ := linked.held attached
      exact ⟨conn, record, rfl, stream, found, owner, established connected, closed, ended⟩

/-- A connection is held by its owner only. -/
theorem Linked.held_ne {hive : HiveMind} (linked : Linked hive) {ref : NodeRef}
    {held conn : ConnId} {record : Conn} (attached : (hive.node ref).conn = some held)
    (found : hive.conns[conn]? = some record) (other : record.owner ≠ ref) : held ≠ conn := by
  rintro rfl
  obtain ⟨-, heldRecord, heldFound, owner, -⟩ := linked.held attached
  rw [found] at heldFound
  cases heldFound
  exact other owner

/-- One connection and its owner change. -/
theorem Linked.update {hive after : HiveMind} {conn : ConnId} {record : Conn} {f : Conn → Conn}
    (linked : Linked hive) (found : hive.conns[conn]? = some record)
    (conns : after.conns = hive.conns.modify conn f)
    (others : ∀ ref, ref ≠ record.owner → (after.node ref).conn = (hive.node ref).conn ∧
      (after.node ref).stream = (hive.node ref).stream ∧
      (after.node ref).connected = (hive.node ref).connected)
    (idle : (after.node record.owner).conn = none → (after.node record.owner).connected = false)
    (held : ∀ {other : ConnId}, (after.node record.owner).conn = some other →
      (after.node record.owner).stream = some other ∧
      ∃ changed, after.conns[other]? = some changed ∧
        changed.owner = record.owner ∧ changed.closed = false ∧ changed.ended = false ∧
        ((after.node record.owner).connected = true → changed.established = true)) :
    Linked after := by
  constructor
  · intro ref none
    by_cases owner : ref = record.owner
    · subst owner
      exact idle none
    · obtain ⟨conn, -, connected⟩ := others ref owner
      rw [connected]
      exact linked.idle (conn ▸ none)
  · intro ref other attached
    by_cases owner : ref = record.owner
    · subst owner
      exact held attached
    · obtain ⟨connEq, streamEq, connectedEq⟩ := others ref owner
      rw [connEq] at attached
      have distinct := linked.held_ne attached found (Ne.symm owner)
      rw [streamEq, connectedEq, conns, List.getElem?_modify_ne _ _ (Ne.symm distinct)]
      exact linked.held attached

theorem openInvariant_linked (env : Env) : OpenInvariant env Linked where
  neutral := by
    intro before after linked same
    constructor
    · intro ref none
      rw [same.conn] at none
      rw [same.connected]
      exact linked.idle none
    · intro ref conn attached
      rw [same.conn] at attached
      rw [same.stream, same.connected, same.conns]
      exact linked.held attached
  opens := by
    intro hive ref unattached _ _ linked
    constructor
    · intro other none
      rw [openConn_node] at none ⊢
      split_ifs at none ⊢
      · contradiction
      · exact linked.idle none
    · intro other conn attached
      rw [openConn_node] at attached ⊢
      split_ifs at attached ⊢ with equal
      · cases attached
        refine ⟨rfl, Conn.opened ref, by simp [openConn_conns], equal.symm, rfl, rfl,
          fun connected => ?_⟩
        change (hive.node ref).connected = true at connected
        rw [linked.idle unattached] at connected
        contradiction
      · obtain ⟨stream, record, found, rest⟩ := linked.held attached
        exact ⟨stream, record, getElem?_openConn_conns ref found, rest⟩

theorem detach_conn (node : SNode) : node.detach.conn = none := by
  rw [SNode.detach]
  split_ifs with attached
  · rfl
  · exact Option.not_isSome_iff_eq_none.mp attached

theorem detach_connected (node : SNode) : node.detach.connected = false := by
  unfold SNode.detach
  split_ifs <;> rfl

theorem connInvariant_linked (env : Env) : ConnInvariant env Linked where
  toOpenInvariant := openInvariant_linked env
  disconnects := by
    intro hive ref linked
    have nodeEq : ∀ other, (hive.disconnect ref).node other =
        if other = ref then (hive.node ref).detach else hive.node other := by
      intro other
      have kept : (hive.closeConn ref).node = hive.node := by
        rw [closeConn]
        split <;> rfl
      rw [disconnect, modifyNode_node, kept]
    have dropped : ((hive.disconnect ref).node ref).conn = none := by
      rw [nodeEq, if_pos rfl, detach_conn]
    have silent : ((hive.disconnect ref).node ref).connected = false := by
      rw [nodeEq, if_pos rfl, detach_connected]
    cases attached : (hive.node ref).conn with
    | none =>
        have connsEq : (hive.disconnect ref).conns = hive.conns := by
          unfold disconnect closeConn
          rw [attached]
          rfl
        constructor
        · intro other none
          by_cases equal : other = ref
          · rw [equal, silent]
          · rw [nodeEq, if_neg equal] at none ⊢
            exact linked.idle none
        · intro other conn held
          by_cases equal : other = ref
          · rw [equal, dropped] at held
            contradiction
          · rw [nodeEq, if_neg equal] at held ⊢
            rw [connsEq]
            exact linked.held held
    | some conn =>
        obtain ⟨-, record, found, owner, -⟩ := linked.held attached
        subst owner
        refine linked.update (f := fun record => { record with closed := true }) found ?_ ?_
          (fun _ => silent) ?_
        · unfold disconnect closeConn
          rw [attached]
          rfl
        · intro other distinct
          rw [nodeEq, if_neg distinct]
          exact ⟨rfl, rfl, rfl⟩
        · intro other held
          rw [dropped] at held
          contradiction
  creates := by
    intro hive addr swarm linked
    have nodeEq : ∀ other, (hive.withBlank addr swarm).node other =
        if other = hive.nodeCount then SNode.create addr swarm else hive.node other :=
      fun other => Function.update_apply hive.node hive.nodeCount _ other
    constructor
    · intro other none
      rw [nodeEq] at none ⊢
      split_ifs at none ⊢
      · rfl
      · exact linked.idle none
    · intro other conn attached
      rw [nodeEq] at attached ⊢
      split_ifs at attached ⊢
      · contradiction
      · exact linked.held attached

/-! ## Callbacks -/

section Callbacks

variable {env : Env} {hive after : HiveMind} {moment : Moment} {conn : ConnId}

theorem markConnected_link (node : SNode) :
    node.markConnected.conn = node.conn ∧ node.markConnected.stream = node.stream ∧
      node.markConnected.connected = (node.conn.isSome || node.connected) := by
  rw [SNode.markConnected]
  simp only
  split_ifs with attached
  · simp [SNode.resetTimes, attached]
  · simp [attached]

/-- Node `ref` holds connection `held`, which is not established, and takes
it for connected. -/
def MarkedEarly (ref : NodeRef) (held : ConnId) (hive : HiveMind) : Prop :=
  (hive.node ref).conn = some held ∧ (hive.node ref).connected = true ∧
    ∃ record, hive.conns[held]? = some record ∧ record.established = false

theorem openInvariant_markedEarly (env : Env) (ref : NodeRef) (held : ConnId) :
    OpenInvariant env (MarkedEarly ref held) where
  neutral := by
    rintro before after ⟨attached, connected, found⟩ same
    rw [MarkedEarly]
    rw [same.conn, same.connected, same.conns]
    exact ⟨attached, connected, found⟩
  opens := by
    rintro hive other unattached _ _ ⟨attached, connected, record, found, pending⟩
    have distinct : ref ≠ other := by
      rintro rfl
      rw [unattached] at attached
      contradiction
    unfold MarkedEarly
    rw [openConn_node, if_neg distinct]
    exact ⟨attached, connected, record, getElem?_openConn_conns other found, pending⟩

theorem MarkedEarly.not_connectedLive {ref : NodeRef} {held : ConnId}
    (early : MarkedEarly ref held hive) : ¬ConnectedLive hive := by
  intro live
  obtain ⟨attached, connected, record, found, pending⟩ := early
  obtain ⟨conn, other, connEq, -, otherFound, -, established, -⟩ := live ref connected
  rw [attached] at connEq
  cases connEq
  rw [found] at otherFound
  cases otherFound
  rw [pending] at established
  contradiction

/-- The state in which `on_connected` calls `finished_connect`, with the slot
given back. -/
def connectedState (conn : ConnId) (record : Conn) (hive : HiveMind) : HiveMind :=
  { hive with
    conns := hive.conns.modify conn fun record =>
      { record with established := true, finishes := record.finishes + 1 }
    node := Function.update hive.node record.owner (hive.node record.owner).markConnected
    pendingConnects := hive.pendingConnects - 1 }

theorem OpenInvariant.deliverConnected {property : HiveMind → Prop}
    (closed : OpenInvariant env property) {record : Conn}
    (found : hive.conns[conn]? = some record)
    (holds : property (hive.connectedState conn record))
    (delivered : hive.deliverConnected env moment conn = some after) : property after := by
  rw [HiveMind.deliverConnected] at delivered
  rw [found] at delivered
  simp only at delivered
  split_ifs at delivered
  cases delivered
  have finished : property
      ((((hive.modifyConn conn fun record => { record with established := true }).modifyNode
        record.owner SNode.markConnected)).finishedConnectOf env moment conn) := by
    apply closed.finishedConnect moment
    simp only [modifyConn, modifyNode, List.modify_modify_eq]
    exact holds
  unfold onConnected
  simp only
  split_ifs
  · exact finished
  · exact closed.checkNodeSubs moment _ finished

theorem connectedState_node (record : Conn) (other : NodeRef) :
    (hive.connectedState conn record).node other =
      if other = record.owner then (hive.node record.owner).markConnected else hive.node other :=
  Function.update_apply hive.node record.owner _ other

theorem Linked.connectedState (linked : Linked hive) {record : Conn}
    (found : hive.conns[conn]? = some record)
    (current : CurrentStep hive (.connected moment conn)) :
    Linked (hive.connectedState conn record) := by
  obtain ⟨connEq, streamEq, connectedEq⟩ := markConnected_link (hive.node record.owner)
  apply linked.update found rfl
  · intro ref distinct
    rw [connectedState_node, if_neg distinct]
    exact ⟨rfl, rfl, rfl⟩
  · intro none
    rw [connectedState_node, if_pos rfl] at none ⊢
    rw [connEq] at none
    rw [connectedEq, none, linked.idle none]
    rfl
  · intro other attached
    rw [connectedState_node, if_pos rfl] at attached ⊢
    rw [connEq] at attached
    rw [streamEq]
    obtain ⟨stream, heldRecord, heldFound, owner, closed, ended, -⟩ := linked.held attached
    constructor
    · exact stream
    · change ∃ changed, (hive.conns.modify conn _)[other]? = some changed ∧ _
      by_cases equal : conn = other
      · subst equal
        rw [found] at heldFound
        cases heldFound
        refine ⟨{ record with established := true, finishes := record.finishes + 1 }, ?_, owner,
          closed, ended, fun _ => rfl⟩
        rw [List.getElem?_modify_eq, found]
        rfl
      · refine ⟨heldRecord, ?_, owner, closed, ended, fun _ => ?_⟩
        · rw [List.getElem?_modify_ne _ _ equal, heldFound]
        · exact (current record found other heldRecord attached heldFound).resolve_left
            (Ne.symm equal)

/-- An `on_connected` that finds a pending successor marks it. -/
theorem markedEarly_of_not_current
    (other : ¬CurrentStep hive (.connected moment conn)) :
    ∃ record held, hive.conns[conn]? = some record ∧
      MarkedEarly record.owner held (hive.connectedState conn record) := by
  simp only [CurrentStep, not_forall, not_or, Bool.not_eq_true] at other
  obtain ⟨record, found, held, heldRecord, attached, heldFound, distinct, pending⟩ := other
  obtain ⟨connEq, -, connectedEq⟩ := markConnected_link (hive.node record.owner)
  refine ⟨record, held, found, ?_⟩
  rw [MarkedEarly]
  rw [connectedState_node, if_pos rfl]
  refine ⟨connEq.trans attached, ?_, heldRecord, ?_, pending⟩
  · rw [connectedEq, attached]
    rfl
  · change (hive.conns.modify conn _)[held]? = some heldRecord
    rw [List.getElem?_modify_ne _ _ (Ne.symm distinct), heldFound]

theorem linked_deliverConnected (linked : Linked hive)
    (delivered : hive.deliverConnected env moment conn = some after) :
    (ConnectedLive after ↔ CurrentStep hive (.connected moment conn)) ∧
      (CurrentStep hive (.connected moment conn) → Linked after) := by
  have keeps : CurrentStep hive (.connected moment conn) → Linked after := by
    intro current
    cases found : hive.conns[conn]? with
    | none => simp [deliverConnected, found] at delivered
    | some record =>
        exact (openInvariant_linked env).deliverConnected found
          (linked.connectedState found current) delivered
  refine ⟨⟨fun live => ?_, fun current => (keeps current).connectedLive⟩, keeps⟩
  by_contra other
  obtain ⟨record, held, found, early⟩ := markedEarly_of_not_current other
  exact ((openInvariant_markedEarly env record.owner held).deliverConnected found early
    delivered).not_connectedLive live

/-- The state in which `on_disconnected` returns or, with the slot given back,
tries more connections. -/
def disconnectedState (moment : Moment) (conn : ConnId) (record : Conn) (hive : HiveMind) :
    HiveMind :=
  let failed := !(hive.node record.owner).connected
  { hive with
    conns := hive.conns.modify conn fun record =>
      { record with ended := true, finishes := record.finishes + failed.toNat }
    node := Function.update hive.node record.owner
      ((hive.node record.owner).markDisconnected true moment.steady)
    pendingConnects := hive.pendingConnects - failed.toNat }

theorem OpenInvariant.deliverDisconnected {property : HiveMind → Prop}
    (closed : OpenInvariant env property) {record : Conn}
    (found : hive.conns[conn]? = some record) (quicOut : hive.quicOut = true)
    (holds : property (hive.disconnectedState moment conn record))
    (delivered : hive.deliverDisconnected env moment conn = some after) : property after := by
  rw [HiveMind.deliverDisconnected] at delivered
  rw [found] at delivered
  simp only at delivered
  split_ifs at delivered
  cases delivered
  rw [onDisconnected]
  rw [disconnectedState] at holds
  simp only [modifyConn, modifyNode, quicOut, Bool.true_and] at holds ⊢
  cases connected : (hive.node record.owner).connected with
  | true =>
      simp only [connected, Bool.not_true, Bool.toNat_false, Nat.add_zero] at holds
      rw [if_neg (by simp)]
      simpa using holds
  | false =>
      simp only [connected, Bool.not_false, Bool.toNat_true] at holds
      rw [if_pos (by simp)]
      apply closed.finishedConnect moment
      simp only [modifyConn, List.modify_modify_eq]
      exact holds

theorem disconnectedState_node (record : Conn) (other : NodeRef) :
    (hive.disconnectedState moment conn record).node other =
      if other = record.owner then (hive.node record.owner).markDisconnected true moment.steady
      else hive.node other :=
  Function.update_apply hive.node record.owner _ other

theorem Linked.disconnectedState (linked : Linked hive) {record : Conn}
    (found : hive.conns[conn]? = some record) :
    Linked (hive.disconnectedState moment conn record) := by
  refine linked.update found rfl ?_ ?_ ?_
  · intro ref distinct
    rw [disconnectedState_node, if_neg distinct]
    exact ⟨rfl, rfl, rfl⟩
  · intro _
    rw [disconnectedState_node, if_pos rfl]
    unfold SNode.markDisconnected SNode.startCooldown
    simp only [if_true]
    split_ifs <;> rfl
  · intro other attached
    rw [disconnectedState_node, if_pos rfl] at attached
    contradiction

/-- Node `ref` is not connected and has failed `fails` times. -/
def Cooled (ref : NodeRef) (fails : Nat) (hive : HiveMind) : Prop :=
  (hive.node ref).connected = false ∧ (hive.node ref).cooldownFails = fails

theorem openInvariant_cooled (env : Env) (ref : NodeRef) (fails : Nat) :
    OpenInvariant env (Cooled ref fails) where
  neutral := by
    rintro before after ⟨connected, count⟩ same
    rw [Cooled]
    rw [same.connected, same.cooldownFails]
    exact ⟨connected, count⟩
  opens := by
    rintro hive other - - - ⟨connected, count⟩
    unfold Cooled
    rw [openConn_node]
    split_ifs with equal
    · subst equal
      exact ⟨connected, count⟩
    · exact ⟨connected, count⟩

/-- Every `on_disconnected` changes its node. -/
theorem not_sameLink_deliverDisconnected {record : Conn}
    (found : hive.conns[conn]? = some record) (quicOut : hive.quicOut = true)
    (delivered : hive.deliverDisconnected env moment conn = some after) :
    ¬SameLink (hive.node record.owner) (after.node record.owner) := by
  intro same
  cases connected : (hive.node record.owner).connected with
  | true =>
      have cooled : Cooled record.owner 0 after := by
        refine (openInvariant_cooled env record.owner 0).deliverDisconnected found quicOut ?_
          delivered
        rw [Cooled]
        rw [disconnectedState_node, if_pos rfl]
        simp [SNode.markDisconnected, SNode.startCooldown, connected]
      have kept := same.connected
      rw [cooled.1, connected] at kept
      contradiction
  | false =>
      have cooled : Cooled record.owner ((hive.node record.owner).cooldownFails + 1) after := by
        refine (openInvariant_cooled env record.owner _).deliverDisconnected found quicOut ?_
          delivered
        unfold Cooled
        rw [disconnectedState_node, if_pos rfl]
        simp [SNode.markDisconnected, SNode.startCooldown, connected]
      have kept := same.cooldownFails
      rw [cooled.2] at kept
      omega

theorem linked_deliverDisconnected (linked : Linked hive) (quicOut : hive.quicOut = true)
    (delivered : hive.deliverDisconnected env moment conn = some after) :
    (Undisturbed hive (.disconnected moment conn) after ↔
        CurrentStep hive (.disconnected moment conn)) ∧ Linked after := by
  cases found : hive.conns[conn]? with
  | none => simp [deliverDisconnected, found] at delivered
  | some record =>
      refine ⟨⟨fun undisturbed other otherFound => ?_, fun current other otherFound away => ?_⟩, ?_⟩
      · by_contra away
        exact not_sameLink_deliverDisconnected otherFound quicOut delivered
          (undisturbed other otherFound away)
      · exact absurd (current other otherFound) away
      · exact (openInvariant_linked env).deliverDisconnected found quicOut
          (linked.disconnectedState found) delivered

end Callbacks

/-! ## Runs -/

theorem linked_started (db : Storage.Database) (subscribers : Subscribers) :
    Linked (started db subscribers) where
  idle _ := rfl
  held attached := by contradiction

theorem linked_step {env : Env} {hive after : HiveMind} {event : Event} (linked : Linked hive)
    (quicOut : hive.quicOut = true) (taken : step env hive event = some after) :
    (ConnectedLive after ∧ Undisturbed hive event after ↔ CurrentStep hive event) ∧
      (CurrentStep hive event → Linked after) := by
  have quiet : Linked after → Undisturbed hive event after → CurrentStep hive event →
      (ConnectedLive after ∧ Undisturbed hive event after ↔ CurrentStep hive event) ∧
        (CurrentStep hive event → Linked after) :=
    fun kept undisturbed current =>
      ⟨iff_of_true ⟨kept.connectedLive, undisturbed⟩ current, fun _ => kept⟩
  cases event with
  | start now threads clock =>
      obtain ⟨db, subscribers, rfl⟩ := started_of_step taken
      exact quiet (linked_started db subscribers) trivial trivial
  | connected moment conn =>
      obtain ⟨exact_step, keeps⟩ := linked_deliverConnected linked (handle_of_step taken)
      exact ⟨(and_iff_left trivial).trans exact_step, keeps⟩
  | disconnected moment conn =>
      obtain ⟨exact_step, kept⟩ := linked_deliverDisconnected linked quicOut (handle_of_step taken)
      exact ⟨(and_iff_right kept.connectedLive).trans exact_step, fun _ => kept⟩
  | _ => exact quiet ((connInvariant_linked env).step rfl taken linked) trivial trivial

/-- In every run: no callback comes for a node that was dropped, each state has
live connections behind its connected nodes, and each `on_disconnected` of
another connection leaves the node alone, exactly when no callback comes for a
node that was dropped, and all callbacks arrive for the connection their node
holds (an `on_connected` may also find none, or an established one). -/
theorem callbacks_undisturbing_iff (env : Env) (events : List Event) :
    (NeverDestroyed env initial events ∧ Run.EveryStep (step env)
        (fun hive event next => ConnectedLive next ∧ Undisturbed hive event next) initial events) ↔
      NeverDestroyed env initial events ∧
        Run.EveryStep (step env) (fun hive event _ => CurrentStep hive event) initial events := by
  refine and_congr_right fun _ => Run.everyStep_iff
    (fun hive => Linked hive ∧ hive.quicOut = true) _ _ ⟨linked_started _ _, rfl⟩ ?_ ?_
  · intro hive event next kept taken
    exact (linked_step kept.1 kept.2 taken).1
  · intro hive event next kept taken current
    exact ⟨(linked_step kept.1 kept.2 taken).2 current, quicOut_step kept.2 taken⟩

/-- A node changes its address while its first connection is still being
established; that connection then comes up and goes down. -/
def lateCallbackRun : List Event :=
  [.snsResponse (Sample.moment 0) (.reply ⟨some [97], some 1, [Sample.snState 7]⟩),
    .snsResponse (Sample.moment 0) (.reply ⟨some [97], some 1,
      [{ Sample.snState 7 with storageLmqPort := some 22021 }]⟩),
    .connected (Sample.moment 0) 0,
    .disconnected (Sample.moment 0) 0]

/-- The first callback marks the new connection, the second one drops it. -/
theorem late_callbacks_disturb :
    ∃ readdressed marked dropped,
      Run.exec (step Sample.env) initial (lateCallbackRun.take 2) = some readdressed ∧
      step Sample.env readdressed (.connected (Sample.moment 0) 0) = some marked ∧
      step Sample.env marked (.disconnected (Sample.moment 0) 0) = some dropped ∧
      ¬ConnectedLive marked ∧
      ¬Undisturbed marked (.disconnected (Sample.moment 0) 0) dropped := by
  refine ⟨_, _, _, rfl, rfl, rfl, fun live => ?_, fun undisturbed => ?_⟩
  · obtain ⟨conn, record, attached, -, found, -, established, -⟩ := live 0 rfl
    cases attached
    cases found
    contradiction
  · have same := (undisturbed _ rfl (by decide)).connected
    contradiction

end Spns.HiveMind
