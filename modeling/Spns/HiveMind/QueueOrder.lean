import Spns.Hive.FlowControl
import Spns.HiveMind.Scheduling

/-!
# The resubscription queue stays sorted

A check relies on a queue that is sorted by time: it stops at the first entry
that is not due, and it only sorts the tail that its own entries can have
disturbed.  Whatever calls are made on a node, and however the system clock is
set between them, the queue is sorted after each call, as long as no check
reads the clock in the last minutes of its range.  There the loop can push more
entries than the queue has, and it looks for them before the start of the queue.
The invariant also has that no entry lies before the epoch, where new accounts
are put.
-/

namespace Spns.Hive.SNode

open Spns
open Spns.Lib
open Spns.Lib.Unordered

/-! ## The calls -/

/-- The part of `check_subs` for a node that is not connected; `slot` is the
connection that `connect` opens when the server allows one. -/
def tryConnect (steady : SteadyTime) (slot : Option ConnId) (node : SNode) : SNode :=
  if node.conn.isSome then
    node
  else if node.coolingDown steady then
    node
  else
    match slot with
    | some conn => node.clearCooldown.attach conn
    | none => node.clearCooldown

/-- The operations on a node that read or write its queue; `turns` bounds the
turns of the loop of a check. -/
inductive Operation
  | addAccount (account : SwarmPubkey) (forceNow : Bool)
  | resetSwarm (swarm : UInt64)
  | removeStaleSwarmMembers (swarmIds : List UInt64)
  | onConnected (check : Check) (turns : Nat)
  | checkSubs (check : Check) (turns : Nat) (steady : SteadyTime) (slot : Option ConnId)

/-- `check_subs` -/
def checkSubsBy (sort : StdSort) (check : Check) (turns : Nat) (steady : SteadyTime)
    (slot : Option ConnId) (node : SNode) : Option SNode :=
  if node.connected then (node.checkWithin sort check turns).map Prod.fst
  else some (node.tryConnect steady slot)

theorem checkSubsBy_stableSort {check : Check} (room : check.HasRoom) {turns : Nat} {node : SNode}
    (enough : node.next.length < turns) (steady : SteadyTime) (slot : Option ConnId) :
    node.checkSubsBy stableSort check turns steady slot =
      some (node.checkSubs check.allSubs steady check.now check.delays slot) := by
  by_cases connected : node.connected = true
  · rw [checkSubsBy, if_pos connected, checkSubs_eq_checkQueue connected, checkWithin,
      passWithin_eq_checkPass room node enough, ← checkConnected_stableSort room]
    rfl
  · rw [checkSubsBy, if_neg connected]
    unfold SNode.checkSubs
    rw [if_neg connected]
    rfl

/-- The system clock can be read, not before its epoch. -/
def FromEpoch (check : Check) : Prop :=
  0 ≤ check.now ∧ IsInt64 check.now

instance (check : Check) : Decidable (FromEpoch check) :=
  inferInstanceAs (Decidable (_ ∧ _))

/-- One operation. -/
def operate (sort : StdSort) (node : SNode) : Operation → Option SNode
  | .addAccount account forceNow => some (node.addAccount account forceNow)
  | .resetSwarm swarm => some (node.resetSwarm swarm)
  | .removeStaleSwarmMembers swarmIds => some (node.removeStaleSwarmMembers swarmIds)
  | .onConnected check turns =>
      if FromEpoch check then
        if node.conn.isNone then some node.markConnected
        else (node.markConnected.checkWithin sort check turns).map Prod.fst
      else
        none
  | .checkSubs check turns steady slot =>
      if FromEpoch check then node.checkSubsBy sort check turns steady slot else none

/-! ## Each operation keeps the order -/

/-- The queue is sorted and starts at the epoch at the earliest. -/
structure Ordered (queue : List QueueEntry) : Prop where
  sorted : Sorted queue
  fromEpoch : ∀ entry ∈ queue, systemEpoch ≤ entry.time

/-- Only the times count. -/
theorem Ordered.of_times {queue other : List QueueEntry} (ordered : Ordered queue)
    (times : other.map QueueEntry.time = queue.map QueueEntry.time) : Ordered other := by
  constructor
  · have sorted := List.pairwise_map.mpr ordered.sorted
    rw [← times] at sorted
    exact List.pairwise_map.mp sorted
  · intro entry member
    have time : entry.time ∈ queue.map QueueEntry.time := times ▸ List.mem_map_of_mem member
    obtain ⟨old, oldMember, same⟩ := List.mem_map.mp time
    exact same ▸ ordered.fromEpoch old oldMember

theorem Ordered.cons_epoch {queue : List QueueEntry} (ordered : Ordered queue)
    (account : Option SwarmPubkey) : Ordered (⟨account, systemEpoch⟩ :: queue) where
  sorted := List.pairwise_cons.mpr ⟨ordered.fromEpoch, ordered.sorted⟩
  fromEpoch := List.forall_mem_cons.mpr ⟨Int.le_refl _, ordered.fromEpoch⟩

theorem map_time_clearFirst (id : AccountID) (queue : List QueueEntry) :
    (clearFirst id queue).map QueueEntry.time = queue.map QueueEntry.time := by
  induction queue with
  | nil => rfl
  | cons entry rest ih =>
      rw [clearFirst]
      split_ifs
      · rfl
      · rw [List.map_cons, List.map_cons, ih]

theorem Ordered.addAccount {node : SNode} (ordered : Ordered node.next) (account : SwarmPubkey)
    (forceNow : Bool) : Ordered (node.addAccount account forceNow).next := by
  rw [SNode.addAccount]
  split_ifs
  · exact (ordered.of_times (map_time_clearFirst account.id node.next)).cons_epoch _
  · exact ordered
  · exact ordered.cons_epoch _

theorem Ordered.removeStaleSwarmMembers {node : SNode} (ordered : Ordered node.next)
    (swarmIds : List UInt64) : Ordered (node.removeStaleSwarmMembers swarmIds).next := by
  apply ordered.of_times
  simp only [SNode.removeStaleSwarmMembers, List.map_map]
  refine List.map_congr_left fun entry _ => ?_
  simp only [Function.comp_apply]
  split_ifs <;> rfl

theorem ordered_resetTimes (node : SNode) : Ordered node.resetTimes.next := by
  have epoch : ∀ entry ∈ node.resetTimes.next, entry.time = systemEpoch := by
    intro entry member
    obtain ⟨old, -, rfl⟩ := List.mem_map.mp member
    rfl
  constructor
  · apply List.pairwise_of_forall_mem_list
    intro first firstMember last lastMember
    rw [epoch first firstMember, epoch last lastMember]
  · intro entry member
    rw [epoch entry member]

theorem Ordered.markConnected {node : SNode} (ordered : Ordered node.next) :
    Ordered node.markConnected.next := by
  simp only [SNode.markConnected]
  split_ifs
  · exact ordered_resetTimes _
  · exact ordered

/-- In a sorted queue, everything from the first late entry on is late. -/
theorem Sorted.dropWhile_time {queue : List QueueEntry} (sorted : Sorted queue) (bound : SysTime) :
    ∀ entry ∈ queue.dropWhile (fun entry => entry.time < bound), bound ≤ entry.time := by
  induction queue with
  | nil => simp
  | cons first rest ih =>
      obtain ⟨least, restSorted⟩ := List.pairwise_cons.mp sorted
      rw [List.dropWhile_cons]
      split_ifs with early
      · exact ih restSorted
      · have late : bound ≤ first.time := by simpa using early
        exact List.forall_mem_cons.mpr ⟨late, fun entry member => late.trans (least entry member)⟩

/-- The tail is sorted, and nothing in it lies before the part in front. -/
theorem Drains.sorted_resorted {check : Check} (room : check.HasRoom)
    {queue handled : List QueueEntry} {drained : Drained}
    (drains : Drains check queue [] [] handled drained) (sorted : Sorted drained.rest)
    (sort : StdSort) : Sorted (drained.toPass.resorted sort check.now) := by
  rw [resorted_toPass, room.earliestRenewal_eq]
  refine List.pairwise_append.mpr ⟨sorted.sublist (List.takeWhile_sublist _), sort.sorted _, ?_⟩
  intro first early last late
  have before : first.time < check.now + resubscribeMin * second := by
    simpa using List.mem_takeWhile_imp early
  have after : check.now + resubscribeMin * second ≤ last.time := by
    rw [(sort.perm _).mem_iff, List.mem_append] at late
    rcases late with untouched | pushed
    · exact sorted.dropWhile_time _ last untouched
    · rw [drains.added_eq] at pushed
      exact (renewals_time room last pushed).1
  exact before.le.trans after

theorem Drains.sorted_rest {check : Check} {queue added handled : List QueueEntry}
    {request : MonitorRequest} {drained : Drained}
    (drains : Drains check queue added request handled drained) (sorted : Sorted queue) :
    Sorted drained.rest := by
  rw [Sorted, drains.split] at sorted
  exact (List.pairwise_append.mp sorted).2.1

theorem Ordered.checkConnected {node : SNode} (ordered : Ordered node.next) (sort : StdSort)
    {check : Check} (room : check.HasRoom) (fromEpoch : 0 ≤ check.now) :
    Ordered (node.checkConnected sort check).1.next := by
  obtain ⟨handled, drains⟩ := exists_drains check node.next [] []
  rw [checkConnected_next sort room]
  constructor
  · exact drains.sorted_resorted room (drains.sorted_rest ordered.sorted) sort
  · intro entry member
    rw [(resorted_perm sort check.now _).mem_iff, List.mem_append] at member
    rcases member with old | pushed
    · apply ordered.fromEpoch
      rw [drains.split]
      exact List.mem_append_right handled old
    · rw [drains.added_eq] at pushed
      have bound := (renewals_time room entry pushed).1
      have later : (0 : Int) ≤ check.now + resubscribeMin * second :=
        Int.add_nonneg fromEpoch (by decide)
      exact later.trans bound

theorem Ordered.checkWithin {node after : SNode} (ordered : Ordered node.next) {sort : StdSort}
    {check : Check} (room : check.HasRoom) (fromEpoch : 0 ≤ check.now) {turns : Nat}
    (checked : (node.checkWithin sort check turns).map Prod.fst = some after) :
    Ordered after.next := by
  obtain ⟨result, ended, rfl⟩ := Option.map_eq_some_iff.mp checked
  rw [checkWithin_eq_some room ended]
  exact ordered.checkConnected sort room fromEpoch

theorem next_tryConnect (steady : SteadyTime) (slot : Option ConnId) (node : SNode) :
    (node.tryConnect steady slot).next = node.next := by
  unfold tryConnect
  split_ifs
  · rfl
  · rfl
  · cases slot <;> rfl

/-- A check that the operation makes has room. -/
def RoomForDelays (node : SNode) : Operation → Prop
  | .onConnected check _ => node.conn ≠ none → check.HasRoom
  | .checkSubs check _ _ _ => node.connected = true → check.HasRoom
  | _ => True

theorem Ordered.operate {sort : StdSort} {node after : SNode} {operation : Operation}
    (ordered : Ordered node.next) (room : node.RoomForDelays operation)
    (done : operate sort node operation = some after) : Ordered after.next := by
  cases operation with
  | addAccount account forceNow =>
      cases done
      exact ordered.addAccount account forceNow
  | resetSwarm swarm =>
      cases done
      exact ⟨List.Pairwise.nil, by simp [SNode.resetSwarm]⟩
  | removeStaleSwarmMembers swarmIds =>
      cases done
      exact ordered.removeStaleSwarmMembers swarmIds
  | onConnected check turns =>
      simp only [SNode.operate] at done
      split_ifs at done with fromEpoch gone
      · cases done
        exact ordered.markConnected
      · have attached : node.conn ≠ none := fun none => gone (Option.isNone_iff_eq_none.mpr none)
        exact ordered.markConnected.checkWithin (room attached) fromEpoch.1 done
  | checkSubs check turns steady slot =>
      simp only [SNode.operate] at done
      split_ifs at done with fromEpoch
      rw [checkSubsBy] at done
      split_ifs at done with connected
      · exact ordered.checkWithin (room connected) fromEpoch.1 done
      · cases done
        rw [next_tryConnect]
        exact ordered

/-! ## Runs -/

/-- What a check relies on after its loop: `std::prev` stays inside the queue,
and both assertions of `check_subs` hold. -/
structure PassSorted (sort : StdSort) (check : Check) (pass : Pass) : Prop where
  inside : pass.nextAdded ≤ pass.next.length
  untouched : Sorted pass.untouched
  resorted : Sorted (pass.resorted sort check.now)

/-- The loop of a check of the node ends, and the check can rely on it. -/
structure ChecksSorted (sort : StdSort) (check : Check) (node : SNode) : Prop where
  ends : ∃ turns pass, node.passWithin check turns = some pass
  sorted : ∀ turns pass, node.passWithin check turns = some pass → PassSorted sort check pass

theorem checksSorted {node : SNode} (sorted : Sorted node.next) (sort : StdSort) {check : Check}
    (room : check.HasRoom) : ChecksSorted sort check node := by
  obtain ⟨handled, drains⟩ := exists_drains check node.next [] []
  have rest := drains.sorted_rest sorted
  refine ⟨⟨_, _, passWithin_eq_checkPass room node (Nat.lt_succ_self _)⟩, ?_⟩
  intro turns pass looped
  rw [eq_checkPass room looped, checkPass_eq room]
  constructor
  · simp [Drained.toPass]
  · rw [untouched_toPass]
    exact rest
  · exact drains.sorted_resorted room rest sort

/-- In every run of a node with an empty queue whose checks have room: the
queue is sorted at the end, and the loop of a further check that has room ends
and meets its assertions, also that of the check that `on_connected` makes. -/
theorem always_sorted (sort : StdSort) (empty node : SNode) (noEntries : empty.next = [])
    (operations : List Operation)
    (room : Run.EveryStep (operate sort) (fun node operation _ => node.RoomForDelays operation)
      empty operations)
    (run : Run.exec (operate sort) empty operations = some node) :
    Sorted node.next ∧ ∀ check : Check, check.HasRoom →
      ChecksSorted sort check node ∧ ChecksSorted sort check node.markConnected := by
  have ordered : Ordered node.next := by
    refine Run.invariant_of_guard (fun node : SNode => Ordered node.next) _ ?_ ?_ room run
    · rw [noEntries]
      exact ⟨List.Pairwise.nil, by simp⟩
    · exact fun _ _ _ kept done met => kept.operate met done
  refine ⟨ordered.sorted, fun check checkRoom => ⟨?_, ?_⟩⟩
  · exact checksSorted ordered.sorted sort checkRoom
  · exact checksSorted ordered.markConnected.sorted sort checkRoom

/-- A check of two accounts that gives the first one the longer delay. -/
def unevenCheck (now : SysTime) : Check where
  allSubs := ((∅ : Subscribers).insert (Flow.plainAccount 1).id
    ⟨Flow.plainAccount 1, Flow.singleNamespaces 1⟩).insert (Flow.plainAccount 2).id
    ⟨Flow.plainAccount 2, Flow.singleNamespaces 1⟩
  now := now
  delays := fun count =>
    if count = 0 then ⟨resubscribeMax, by decide⟩ else shortestDelay

/-- The node of the runs below. -/
def emptyNode : SNode :=
  create ⟨FixedBytes.replicate 32 0, [], 0⟩ 0

/-- The clock is set back between two checks. -/
def clockSetBack : List Operation :=
  [.addAccount (Flow.plainAccount 1) false, .checkSubs (unevenCheck 0) 0 0 (some 0),
    .addAccount (Flow.plainAccount 2) false, .onConnected (unevenCheck (1700000000 * second)) 3,
    .addAccount (Flow.plainAccount 1) true,
    .checkSubs (unevenCheck (1600000000 * second)) 3 0 none, .removeStaleSwarmMembers [7]]

theorem hasRoom_unevenCheck {now : SysTime} (reading : IsInt64 now)
    (longest : IsInt64 (now + resubscribeMax * second)) : (unevenCheck now).HasRoom :=
  ⟨reading, longest⟩

theorem roomForDelays_clockSetBack :
    ∀ operation ∈ clockSetBack, ∀ node : SNode, node.RoomForDelays operation := by
  intro operation member node
  simp only [clockSetBack, List.mem_cons, List.not_mem_nil, or_false] at member
  rcases member with rfl | rfl | rfl | rfl | rfl | rfl | rfl
  · trivial
  · exact fun _ => hasRoom_unevenCheck (by decide) (by decide)
  · trivial
  · exact fun _ => hasRoom_unevenCheck (by decide) (by decide)
  · trivial
  · exact fun _ => hasRoom_unevenCheck (by decide) (by decide)
  · trivial

theorem clockSetBack_sorted :
    ∃ node, Run.exec (operate stableSort) emptyNode clockSetBack = some node ∧
      node.next.map QueueEntry.time = [(1600000000 + resubscribeMax) * second,
        (1700000000 + resubscribeMin) * second, (1700000000 + resubscribeMax) * second] ∧
      Sorted node.next := by
  have run : (Run.exec (operate stableSort) emptyNode clockSetBack).map
      (fun node => node.next.map QueueEntry.time) =
        some [(1600000000 + resubscribeMax) * second, (1700000000 + resubscribeMin) * second,
          (1700000000 + resubscribeMax) * second] := by
    decide +kernel
  obtain ⟨node, ran, times⟩ := Option.map_eq_some_iff.mp run
  have room := @Run.everyStep_of_forall _ _ (operate stableSort) _ _
    (fun operation member node _ => roomForDelays_clockSetBack operation member node) emptyNode
  exact ⟨node, ran, times, (always_sorted stableSort emptyNode node rfl clockSetBack room ran).1⟩

/-- The reading 50 minutes before the last one of the clock. -/
def lateReading : SysTime :=
  2 ^ 63 - 1 - 50 * 60 * second

/-- The longest delay wraps around and the account is renewed a second time in
the same loop: two entries were pushed, and the queue has one. -/
theorem not_checksSorted_lateReading :
    FromEpoch (unevenCheck lateReading) ∧ ∃ node, Run.exec (operate stableSort) emptyNode
        [.addAccount (Flow.plainAccount 1) false, .checkSubs (unevenCheck 0) 0 0 (some 0)] =
          some node ∧ node.conn ≠ none ∧
        ¬ChecksSorted stableSort (unevenCheck lateReading) node.markConnected := by
  refine ⟨by decide, ?_⟩
  have seen : (Run.exec (operate stableSort) emptyNode
      [.addAccount (Flow.plainAccount 1) false, .checkSubs (unevenCheck 0) 0 0 (some 0)]).map
        (fun node => (node.conn, (node.markConnected.passWithin (unevenCheck lateReading) 3).map
          fun pass => (pass.nextAdded, pass.next.length))) = some (some 0, some (2, 1)) := by
    decide +kernel
  obtain ⟨node, ran, facts⟩ := Option.map_eq_some_iff.mp seen
  obtain ⟨attached, ended⟩ := Prod.mk.inj facts
  obtain ⟨pass, looped, counts⟩ := Option.map_eq_some_iff.mp ended
  obtain ⟨added, length⟩ := Prod.mk.inj counts
  refine ⟨node, ran, by simp [attached], fun checks => ?_⟩
  have inside := (checks.sorted 3 pass looped).inside
  rw [added, length] at inside
  exact absurd inside (by decide)

end Spns.Hive.SNode
