import Spns.HiveMind.ConnInvariant
import Spns.HiveMind.Invariants

/-!
# Freed connection slots

`finished_connect` gives the slot of a connection attempt back and tries more
connections.  It should leave either all slots in use, or no node that could
connect.

The test whether to try more is made before the slot is given back.  So it
fails exactly where all slots were taken: the freed slot stays empty, unless no
node needs it.
-/

namespace Spns.HiveMind

open Spns.Hive
open Spns.Lib
open Spns.Lib.Unordered

/-! ## The states in which `finished_connect` is called -/

/-- The state in which `on_connected` of a connection calls it. -/
def connectedFinish (conn : ConnId) (record : Conn) (hive : HiveMind) : HiveMind :=
  (hive.modifyConn conn fun record => { record with established := true }).modifyNode record.owner
    SNode.markConnected

/-- The state in which `on_disconnected` of a connection calls it. -/
def disconnectedFinish (moment : Moment) (conn : ConnId) (record : Conn) (hive : HiveMind) :
    HiveMind :=
  (hive.modifyConn conn fun record => { record with ended := true }).modifyNode record.owner
    (SNode.markDisconnected hive.quicOut moment.steady)

/-- The states between two events, and those in the middle of a callback. -/
inductive Finishing (env : Env) : HiveMind → Prop
  | reached {hive : HiveMind} (reached : Reached env hive) : Finishing env hive
  | connected {hive : HiveMind} (reached : Reached env hive) (conn : ConnId) (record : Conn)
      (found : hive.conns[conn]? = some record) : Finishing env (hive.connectedFinish conn record)
  | disconnected {hive : HiveMind} (reached : Reached env hive) (moment : Moment) (conn : ConnId)
      (record : Conn) (found : hive.conns[conn]? = some record) :
      Finishing env (hive.disconnectedFinish moment conn record)

/-- The node has a connection, open or in progress, or is still cooling
down. -/
def NeedsNone (now : SteadyTime) (hive : HiveMind) (ref : NodeRef) : Prop :=
  (hive.node ref).conn.isSome ∨ (hive.node ref).coolingDown now = true

/-- No node of `sns_` needs a connection. -/
def Served (now : SteadyTime) (hive : HiveMind) : Prop :=
  ∀ key ref, hive.sns.lookup key = some ref → NeedsNone now hive ref

/-- After `finished_connect` all slots are in use, or no node needs one. -/
def ReusesSlot (env : Env) (moment : Moment) (hive : HiveMind) : Prop :=
  (hive.finishedConnect env moment).pendingConnects = env.maxPendingConnects ∨
    Served moment.steady (hive.finishedConnect env moment)

/-! ## The counter stays within the limit -/

/-- No more slots are taken than there are. -/
def WithinSlots (env : Env) (hive : HiveMind) : Prop :=
  hive.pendingConnects ≤ env.maxPendingConnects

theorem connInvariant_withinSlots (env : Env) : ConnInvariant env (WithinSlots env) where
  neutral within same := by
    rw [WithinSlots, same.pendingConnects]
    exact within
  opens _ _ room _ := room
  disconnects := by
    intro hive ref within
    change (hive.closeConn ref).pendingConnects ≤ env.maxPendingConnects
    rw [closeConn]
    split <;> exact within
  creates _ _ within := within

theorem WithinSlots.step {env : Env} {hive after : HiveMind} {event : Event}
    (within : WithinSlots env hive) (taken : HiveMind.step env hive event = some after) :
    WithinSlots env after :=
  (connInvariant_withinSlots env).step_of_downward
    (fun _ _ _ atMost within => atMost.trans within)
    (fun _ _ => Int.natCast_nonneg _) taken within

theorem Reached.withinSlots {env : Env} {hive : HiveMind} (reached : Reached env hive) :
    WithinSlots env hive :=
  reached.invariant (Int.natCast_nonneg _) fun _ _ _ within taken => within.step taken

theorem Finishing.withinSlots {env : Env} {hive : HiveMind} (finishing : Finishing env hive) :
    WithinSlots env hive := by
  cases finishing with
  | reached reached => exact reached.withinSlots
  | connected reached conn record found => exact reached.withinSlots
  | disconnected reached moment conn record found => exact reached.withinSlots

/-! ## Trying more connections -/

theorem allowConnect_eq_granted {env : Env} {hive : HiveMind} (wired : hive.quicOut = true)
    (room : hive.pendingConnects < env.maxPendingConnects) :
    hive.allowConnect env = (hive.granted, true) := by
  have full : ¬hive.pendingConnects + 1 > env.maxPendingConnects :=
    not_lt.mpr (Int.add_one_le_iff.mpr room)
  rw [allowConnect, if_neg (by simp [wired])]
  simp only
  rw [if_neg full]
  rfl

/-- What `connect` does to a node that it can connect. -/
theorem connect_eq_openConn {env : Env} {now : SteadyTime} {hive : HiveMind} {ref : NodeRef}
    (needs : ¬NeedsNone now hive ref) (wired : hive.quicOut = true)
    (room : hive.pendingConnects < env.maxPendingConnects) :
    hive.connect env now ref = (hive.modifyNode ref SNode.clearCooldown).granted.openConn ref := by
  rw [NeedsNone, not_or] at needs
  rw [connect, if_neg needs.1, if_neg needs.2]
  simp only
  rw [@allowConnect_eq_granted env (hive.modifyNode ref SNode.clearCooldown) wired room]

/-- Connecting a node, this one or another, leaves a node that needs nothing
in that state. -/
theorem NeedsNone.connect {env : Env} {now : SteadyTime} {hive : HiveMind} {ref : NodeRef}
    (settled : NeedsNone now hive ref) (other : NodeRef) :
    NeedsNone now (hive.connect env now other) ref := by
  by_cases same : NeedsNone now hive other
  · rw [HiveMind.connect]
    rcases same with attached | cooling
    · rw [if_pos attached]
      exact settled
    · split_ifs
      · exact settled
      · exact settled
  · have different : ref ≠ other := by
      rintro rfl
      exact same settled
    have kept : (hive.connect env now other).node ref = hive.node ref := by
      rw [NeedsNone, not_or] at same
      rw [HiveMind.connect, if_neg same.1, if_neg same.2]
      simp only
      rcases allowConnect_cases env (hive.modifyNode other SNode.clearCooldown) with
        refused | ⟨-, -, allowed⟩
      · rw [refused, modifyNode_node, if_neg different]
      · rw [allowed, openConn_node, if_neg different, modifyNode_node, if_neg different]
    rw [NeedsNone, kept]
    exact settled

theorem NeedsNone.makeConns {env : Env} {now : SteadyTime} {hive : HiveMind} {ref : NodeRef}
    (settled : NeedsNone now hive ref) (refs : List NodeRef) :
    NeedsNone now (hive.makeConns env now refs) ref := by
  induction refs generalizing hive with
  | nil => exact settled
  | cons first rest ih =>
      rw [HiveMind.makeConns]
      split_ifs
      · exact settled
      · exact ih (settled.connect first)

/-- A visited node needs nothing afterwards. -/
theorem needsNone_connect {env : Env} {now : SteadyTime} {hive : HiveMind} (ref : NodeRef)
    (wired : hive.quicOut = true) (room : hive.pendingConnects < env.maxPendingConnects) :
    NeedsNone now (hive.connect env now ref) ref := by
  by_cases settled : NeedsNone now hive ref
  · exact settled.connect ref
  · rw [connect_eq_openConn settled wired room, NeedsNone, openConn_node, if_pos rfl]
    exact Or.inl rfl

/-- The loop ends with all slots taken or has visited all nodes. -/
theorem makeConns_cases {env : Env} {now : SteadyTime} {hive : HiveMind}
    (wired : hive.quicOut = true) (refs : List NodeRef) :
    (env.maxPendingConnects : Int) ≤ (hive.makeConns env now refs).pendingConnects ∨
      ∀ ref ∈ refs, NeedsNone now (hive.makeConns env now refs) ref := by
  induction refs generalizing hive with
  | nil => exact Or.inr (by simp)
  | cons first rest ih =>
      rw [makeConns]
      split_ifs with full
      · exact Or.inl full
      · have still : (hive.connect env now first).quicOut = true :=
          (connInvariant_quicOut env).connect now first wired
        refine (ih still).imp_right fun others => List.forall_mem_cons.mpr ⟨?_, others⟩
        exact (needsNone_connect first wired (not_le.mp full)).makeConns rest

theorem served_iff (now : SteadyTime) (hive : HiveMind) (order : List Nat) :
    Served now hive ↔ ∀ ref ∈ hive.nodeRefs order, NeedsNone now hive ref := by
  simp only [nodeRefs, mem_shuffle, List.mem_map, Served]
  constructor
  · rintro served ref ⟨entry, member, rfl⟩
    exact served entry.1 entry.2 ((Map.mem_entries_iff_lookup _ _ _).mp member)
  · intro settled key ref found
    exact settled ref ⟨⟨key, ref⟩, (Map.mem_entries_iff_lookup _ _ _).mpr found, rfl⟩

/-- A freed slot is reused exactly if there was another free one, or no node
needs it. -/
theorem reusesSlot_iff (env : Env) (moment : Moment) (hive : HiveMind)
    (finishing : Finishing env hive) (wired : hive.quicOut = true) :
    ReusesSlot env moment hive ↔
      hive.pendingConnects < env.maxPendingConnects ∨ Served moment.steady hive := by
  have within := finishing.withinSlots
  by_cases tryMore : hive.pendingConnects < env.maxPendingConnects
  · refine iff_of_true ?_ (Or.inl tryMore)
    let released := { hive with pendingConnects := hive.pendingConnects - 1 }
    have finished : hive.finishedConnect env moment =
        released.makeConns env moment.steady (hive.nodeRefs moment.nodeOrder) := if_pos tryMore
    have keeps := KeepsAccounts.makeConns env moment.steady (hive.nodeRefs moment.nodeOrder) released
    have after : WithinSlots env (hive.finishedConnect env moment) :=
      (connInvariant_withinSlots env).finishedConnect moment
        ((Int.sub_le_self _ Int.one_nonneg).trans within)
    rcases @makeConns_cases env moment.steady released wired (hive.nodeRefs moment.nodeOrder) with
      full | settled
    · refine Or.inl (Int.le_antisymm after ?_)
      rw [finished]
      exact full
    · refine Or.inr ((served_iff _ _ moment.nodeOrder).mpr ?_)
      rw [finished, nodeRefs, keeps.sns]
      exact settled
  · have finished : hive.finishedConnect env moment =
        { hive with pendingConnects := hive.pendingConnects - 1 } := if_neg tryMore
    have spare : (hive.finishedConnect env moment).pendingConnects ≠ env.maxPendingConnects := by
      rw [finished]
      rw [WithinSlots] at within
      simp only
      omega
    have same : Served moment.steady (hive.finishedConnect env moment) ↔
        Served moment.steady hive := by
      rw [finished]
      exact Iff.rfl
    rw [ReusesSlot, or_iff_right spare, or_iff_right tryMore, same]

/-! ## Two nodes and one slot -/

/-- The sample environment with a limit on connection attempts. -/
def limitedEnv (limit : Nat) : Env :=
  { Sample.env with maxPendingConnects := limit }

/-- Two service nodes are found; each of them tries to connect. -/
def twoNodesRun : List Event :=
  [.snsResponse (Sample.moment 0) (.reply ⟨some [97], some 1,
    [Sample.snState 7, { Sample.snState 7 with pubkeyEd25519 := some (List.replicate 64 49) }]⟩)]

/-- The key of the node that is updated last. -/
def secondKey : Ed25519PK :=
  FixedBytes.replicate 32 0

/-- When the first connection is established the only slot is free again, but
the second node gets no connection. -/
theorem not_reusesSlot_oneSlot :
    ∃ hive, Run.exec (step (limitedEnv 1)) initial twoNodesRun = some hive ∧
      hive.conns = [Conn.opened 0] ∧ hive.quicOut = true ∧
      ¬ReusesSlot (limitedEnv 1) (Sample.moment 0) (hive.connectedFinish 0 (Conn.opened 0)) := by
  have outcome : (Run.exec (step (limitedEnv 1)) initial twoNodesRun).map
      (fun hive => (hive.conns, hive.quicOut)) = some ([Conn.opened 0], true) := by
    decide +kernel
  have finished : (Run.exec (step (limitedEnv 1)) initial twoNodesRun).map
      (fun hive =>
        let after := (hive.connectedFinish 0 (Conn.opened 0)).finishedConnect (limitedEnv 1)
          (Sample.moment 0)
        (after.pendingConnects, after.sns.lookup secondKey, (after.node 1).conn,
          (after.node 1).coolingDown 0)) = some (0, some 1, none, false) := by
    decide +kernel
  obtain ⟨hive, run, facts⟩ := Option.map_eq_some_iff.mp outcome
  simp only [Prod.mk.injEq] at facts
  rw [run] at finished
  simp only [Option.map_some, Option.some.injEq, Prod.mk.injEq] at finished
  obtain ⟨pending, listed, unattached, calm⟩ := finished
  refine ⟨hive, run, facts.1, facts.2, ?_⟩
  rintro (full | served)
  · rw [pending] at full
    contradiction
  · rcases served secondKey 1 listed with attached | cooling
    · rw [unattached] at attached
      contradiction
    · have still : ((((hive.connectedFinish 0 (Conn.opened 0)).finishedConnect (limitedEnv 1)
          (Sample.moment 0)).node 1).coolingDown 0) = true := cooling
      rw [calm] at still
      contradiction

/-- With three slots none of them is needed. -/
theorem reusesSlot_threeSlots :
    ∃ hive, Run.exec (step (limitedEnv 3)) initial twoNodesRun = some hive ∧
      ReusesSlot (limitedEnv 3) (Sample.moment 0) (hive.connectedFinish 0 (Conn.opened 0)) := by
  have outcome : (Run.exec (step (limitedEnv 3)) initial twoNodesRun).map
      (fun hive => (hive.conns[0]?, hive.quicOut, hive.pendingConnects)) =
        some (some (Conn.opened 0), true, 2) := by
    decide +kernel
  obtain ⟨hive, run, facts⟩ := Option.map_eq_some_iff.mp outcome
  simp only [Prod.mk.injEq] at facts
  obtain ⟨found, wired, pending⟩ := facts
  refine ⟨hive, run, (reusesSlot_iff (limitedEnv 3) (Sample.moment 0) _
    (.connected ⟨twoNodesRun, run⟩ 0 (Conn.opened 0) found) wired).mpr (Or.inl ?_)⟩
  have free : hive.pendingConnects < (limitedEnv 3).maxPendingConnects := by
    rw [pending]
    decide
  exact free

end Spns.HiveMind
