import Spns.Storage.Serial

/-!
# Stages of a transaction

Every transaction in progress is in one of a few stages.  A stage says what the
transaction has written so far and what the committed tables look like at the
rows that it has written; the row locks keep the rest of the server away from
them.  An `add_subscription` whose query has become outdated ends in the stage
`lost`, where its inserts violate the foreign key, or, if it had no namespaces
to rewrite, in the stage `superseded`.
-/

namespace Spns.Storage

open Spns
open Spns.Hive
open Spns.Lib
open Spns.Lib.Replay

/-- The row id in the text of a statement. -/
def Statement.mentions (id : Nat) : Statement → Bool
  | .updateRow target _ => target = id
  | .deleteNamespaces target => target = id
  | .insertNamespace target _ => target = id
  | _ => false

/-- Whether a call deletes a stored subscription. -/
def Call.deletes (call : Call) (device : Device) (stored : Stored) : Bool :=
  match call.op with
  | .sweep doomed => doomed device stored
  | .put _ _ => false

/-- A row that is gone because of a transaction that would also have deleted
what the request puts there. -/
def DeletedFor (tables : Tables) (history : List Committed) (id : Nat) (request : AddRequest) :
    Prop :=
  (∀ row ∈ tables.subscriptions, row.id ≠ id) ∧
    ∃ done ∈ history, (∃ row ∈ done.deleted, row.id = id ∧ row.device = request.device) ∧
      done.call.deletes request.device request.stored = true

/-- How far an `add_subscription` has come with the namespaces of its row. -/
inductive Progress (id : Nat) (request : AddRequest) (slot : Tables) : List Statement → Prop
  | same (kept : slot.namespacesOf id = request.sub.namespaces) : Progress id request slot []
  | rewrite : Progress id request slot
      (.deleteNamespaces id :: insertStatements id request.sub.namespaces)
  | insert (done rest : List Int) (all : request.sub.namespaces = done ++ rest)
      (inserted : slot.subNamespaces = done.map fun ns => (id, ns)) :
      Progress id request slot (insertStatements id rest)

/-- The writes of an `add_subscription` that has updated or inserted its row. -/
structure Writes (tables : Tables) (request : AddRequest) (id : Nat) (writes : List Write)
    (newSub : Bool) : Prop where
  single : ∀ write ∈ writes, write.slot = id
  locked : writes.any (Write.locks id) = true
  row : ((tables.slot id).applyAll writes).subscriptions =
    [⟨id, request.device, request.data⟩]
  owner : ∀ old ∈ tables.subscriptions, old.id = id ↔ old.device = request.device
  isNew : newSub = true ↔ ∀ old ∈ tables.subscriptions, old.id ≠ id
  inserts : ∀ row, .insertRow row ∈ writes → row.id = id ∧ row.device = request.device ∧
    newSub = true
  claimed : newSub = true → writes.any (Write.claims request.device) = true

/-- A further write in the slot of the transaction's row that leaves the row
itself alone. -/
theorem Writes.concat {tables : Tables} {request : AddRequest} {id : Nat} {writes : List Write}
    {newSub : Bool} (written : Writes tables request id writes newSub) {write : Write}
    (slot : write.slot = id) (inserts : ∀ row, write ≠ .insertRow row)
    (keeps : ∀ tables : Tables, (tables.apply write).subscriptions = tables.subscriptions) :
    Writes tables request id (writes ++ [write]) newSub := by
  refine ⟨?_, ?_, ?_, written.owner, written.isNew, ?_, ?_⟩
  · intro other member
    rcases List.mem_append.mp member with old | isNew
    · exact written.single other old
    · rw [List.mem_singleton.mp isNew]
      exact slot
  · rw [List.any_append, written.locked, Bool.true_or]
  · rw [Tables.applyAll_append, Tables.applyAll_cons, Tables.applyAll_nil, keeps]
    exact written.row
  · intro row member
    rcases List.mem_append.mp member with old | isNew
    · exact written.inserts row old
    · exact absurd (List.mem_singleton.mp isNew).symm (inserts row)
  · intro isNew
    rw [List.any_append, written.claimed isNew, Bool.true_or]

/-- The stages of a transaction in progress. -/
inductive Stage (tables : Tables) (history : List Committed) : Transaction → Prop
  | reading (request : AddRequest) :
      Stage tables history ⟨.addSubscription request, [.selectRow request], [], false, []⟩
  | found (request : AddRequest) (id : Nat) (rest : List Statement)
      (rewrites : rest = [] ∨
        rest = .deleteNamespaces id :: insertStatements id request.sub.namespaces)
      (owner : ∀ row ∈ tables.subscriptions, row.id = id → row.device = request.device) :
      Stage tables history
        ⟨.addSubscription request, .updateRow id request :: rest, [], false, []⟩
  | inserting (request : AddRequest) :
      Stage tables history ⟨.addSubscription request, [.insertRow request], [], true, []⟩
  | writing (request : AddRequest) (id : Nat) (todo : List Statement) (writes : List Write)
      (newSub : Bool) (written : Writes tables request id writes newSub)
      (progress : Progress id request ((tables.slot id).applyAll writes) todo) :
      Stage tables history ⟨.addSubscription request, todo, writes, newSub, []⟩
  | lost (request : AddRequest) (id : Nat) (todo : List Statement)
      (stuck : todo = .deleteNamespaces id :: insertStatements id request.sub.namespaces ∨
        todo = insertStatements id request.sub.namespaces)
      (gone : ∀ row ∈ tables.subscriptions, row.id ≠ id) :
      Stage tables history ⟨.addSubscription request, todo, [], false, []⟩
  | superseded (request : AddRequest) (done : Committed) (member : done ∈ history)
      (hit : ∃ row ∈ done.deleted, row.device = request.device)
      (deletes : done.call.deletes request.device request.stored = true) :
      Stage tables history ⟨.addSubscription request, [], [], false, []⟩
  | deleting (call : Call) (todo : List Statement) (deleted : List Row)
      (doomed : Device → Stored → Bool) (sweeps : call.op = .sweep doomed)
      (conditions : ∀ statement ∈ todo, ∃ condition, statement = .deleteWhere condition ∧
        ∀ row namespaces, condition.test row = true →
          doomed row.device ⟨row.data, namespaces⟩ = true)
      (present : ∀ row ∈ deleted, row ∈ tables.subscriptions ∧
        doomed row.device ⟨row.data, tables.namespacesOf row.id⟩ = true) :
      Stage tables history
        ⟨call, todo, deleted.map fun row => .deleteRow row.id, false, deleted⟩

/-- A call starts in the stage of its first statement. -/
theorem Stage.start (tables : Tables) (history : List Committed) (call : Call) :
    Stage tables history (Transaction.start call) := by
  cases call with
  | addSubscription request => exact .reading request
  | removeSubscription device =>
      refine .deleting _ _ [] _ rfl ?_ (fun _ member => absurd member List.not_mem_nil)
      intro statement member
      exact ⟨_, List.mem_singleton.mp member, fun _ _ tested => tested⟩
  | dropRegistrations service svcids =>
      refine .deleting _ _ [] _ rfl ?_ (fun _ member => absurd member List.not_mem_nil)
      intro statement member
      obtain ⟨svcid, listed, rfl⟩ := List.mem_map.mp member
      refine ⟨_, rfl, ?_⟩
      intro row namespaces tested
      obtain ⟨service, svcid⟩ := of_decide_eq_true tested
      exact decide_eq_true ⟨service, svcid ▸ listed⟩
  | dbCleanup cutoff =>
      refine .deleting _ _ [] _ rfl ?_ (fun _ member => absurd member List.not_mem_nil)
      intro statement member
      exact ⟨_, List.mem_singleton.mp member, fun _ _ tested => tested⟩

/-! ## What keeps transactions apart -/

/-- Two transactions have written different rows, inserted for different
devices, and the statements of one do not name a row that the other inserted. -/
structure Transaction.Apart (txn other : Transaction) : Prop where
  rows : ∀ id, txn.locks id = true → other.locks id = false
  devices : ∀ device, txn.claims device = true → other.claims device = false
  names : ∀ statement ∈ txn.todo, ∀ row, .insertRow row ∈ other.writes →
    statement.mentions row.id = false

/-- A transaction holds the lock of every slot that it has written. -/
theorem Stage.locks_of_mem {tables : Tables} {history : List Committed} {txn : Transaction}
    (stage : Stage tables history txn) {write : Write} (member : write ∈ txn.writes) :
    txn.locks write.slot = true := by
  cases stage with
  | writing request id todo writes newSub written progress =>
      rw [written.single write member]
      exact written.locked
  | deleting call todo deleted doomed sweeps conditions present =>
      obtain ⟨row, _, rfl⟩ := List.mem_map.mp member
      exact List.any_eq_true.mpr ⟨_, member, decide_eq_true rfl⟩
  | _ => contradiction

theorem claims_of_mem {writes : List Write} {row : Row} (member : .insertRow row ∈ writes) :
    writes.any (Write.claims row.device) = true :=
  List.any_eq_true.mpr ⟨_, member, decide_eq_true rfl⟩

/-- The row that a transaction has inserted is not in the committed tables. -/
theorem Stage.inserted_absent {tables : Tables} {history : List Committed} {txn : Transaction}
    (stage : Stage tables history txn) {row : Row} (member : .insertRow row ∈ txn.writes) :
    ∀ old ∈ tables.subscriptions, old.id ≠ row.id ∧ old.device ≠ row.device := by
  cases stage with
  | writing request id todo writes newSub written progress =>
      obtain ⟨same, device, fresh⟩ := written.inserts row member
      intro old present
      have absent := written.isNew.mp fresh old present
      constructor
      · exact by rwa [same]
      · rw [device]
        exact fun here => absent ((written.owner old present).mpr here)
  | deleting call todo deleted doomed sweeps conditions present =>
      obtain ⟨_, _, equal⟩ := List.mem_map.mp member
      contradiction
  | _ => contradiction

/-! ## Commits of other transactions -/

section OtherCommit

variable {tables : Tables} {history : List Committed} {txn other : Transaction}

/-- A commit changes no slot that another transaction has locked. -/
theorem Stage.slot_after (stage : Stage tables history other) (apart : txn.Apart other) {id : Nat}
    (locked : txn.locks id = true) :
    (tables.applyAll other.writes).slot id = tables.slot id := by
  apply Tables.slot_applyAll_of_forall_ne
  rintro write member rfl
  have free := apart.rows _ locked
  rw [stage.locks_of_mem member] at free
  contradiction

theorem Stage.mem_after_iff (stage : Stage tables history other) (apart : txn.Apart other)
    {row : Row} (locked : txn.locks row.id = true) :
    row ∈ (tables.applyAll other.writes).subscriptions ↔ row ∈ tables.subscriptions := by
  rw [Tables.mem_iff_mem_slot, stage.slot_after apart locked, ← Tables.mem_iff_mem_slot]

/-- The writes of a transaction stay what they are. -/
theorem Writes.after {request : AddRequest} {id : Nat} {todo : List Statement}
    {writes : List Write} {newSub : Bool} (written : Writes tables request id writes newSub)
    (stage : Stage tables history other)
    (apart : (⟨.addSubscription request, todo, writes, newSub, []⟩ : Transaction).Apart other) :
    Writes (tables.applyAll other.writes) request id writes newSub := by
  have same := stage.slot_after apart written.locked
  have mem_iff : ∀ row, row.id = id →
      (row ∈ (tables.applyAll other.writes).subscriptions ↔ row ∈ tables.subscriptions) := by
    rintro row rfl
    exact stage.mem_after_iff apart written.locked
  refine ⟨written.single, written.locked, by rw [same]; exact written.row, ?_, ?_,
    written.inserts, written.claimed⟩
  · intro row member
    constructor
    · intro here
      exact (written.owner row ((mem_iff row here).mp member)).mp here
    · intro device
      rcases Tables.origin_of_mem_applyAll member with ⟨old, present, sameId, sameDevice⟩ |
        ⟨inserted, pending, sameId, sameDevice⟩
      · rw [← sameId]
        exact (written.owner old present).mpr (sameDevice.trans device)
      · -- an insert of the other transaction for the same device
        exfalso
        have elsewhere := stage.inserted_absent pending
        cases newSub with
        | true =>
            have free := apart.devices _ (written.claimed rfl)
            rw [← device, ← sameDevice] at free
            exact Bool.false_ne_true (free.symm.trans (claims_of_mem pending))
        | false =>
            have old : ¬ ∀ row ∈ tables.subscriptions, row.id ≠ id := fun absent =>
              Bool.false_ne_true (written.isNew.mpr absent)
            push Not at old
            obtain ⟨row, present, here⟩ := old
            apply (elsewhere row present).2
            rw [(written.owner row present).mp here, sameDevice, device]
  · rw [written.isNew]
    constructor
    · intro absent row member here
      exact absent row ((mem_iff row here).mp member) here
    · intro absent row member here
      exact absent row ((mem_iff row here).mpr member) here

/-- A commit leaves the other transactions in their stages. -/
theorem Stage.after (stage : Stage tables history txn) (committed : Stage tables history other)
    (apart : txn.Apart other) :
    Stage (tables.applyAll other.writes) (history ++ [other.finish]) txn := by
  -- a row that is named by the next statement and present now was present before
  have named : ∀ statement ∈ txn.todo, ∀ id, statement.mentions id = true →
      ∀ row ∈ (tables.applyAll other.writes).subscriptions, row.id = id →
        ∃ old ∈ tables.subscriptions, old.id = id ∧ old.device = row.device := by
    rintro statement next id mentions row member rfl
    rcases Tables.origin_of_mem_applyAll member with ⟨old, present, same⟩ |
      ⟨inserted, pending, sameId, _⟩
    · exact ⟨old, present, same⟩
    · have free := apart.names statement next inserted pending
      rw [sameId, mentions] at free
      contradiction
  cases stage with
  | reading request => exact .reading request
  | found request id rest rewrites owner =>
      apply Stage.found request id rest rewrites
      intro row member here
      obtain ⟨old, present, sameId, sameDevice⟩ :=
        named _ List.mem_cons_self id (decide_eq_true rfl) row member here
      rw [← sameDevice]
      exact owner old present sameId
  | inserting request => exact .inserting request
  | writing request id todo writes newSub written progress =>
      apply Stage.writing request id todo writes newSub (written.after committed apart)
      rw [committed.slot_after apart written.locked]
      exact progress
  | lost request id todo stuck gone =>
      apply Stage.lost request id todo stuck
      intro row member here
      have next : ∃ statement ∈ todo, statement.mentions id = true := by
        rcases stuck with rfl | rfl
        · exact ⟨_, List.mem_cons_self, decide_eq_true rfl⟩
        · obtain ⟨ns, listed⟩ := List.exists_mem_of_ne_nil _ request.sub.nonempty
          exact ⟨_, List.mem_map_of_mem listed, decide_eq_true rfl⟩
      obtain ⟨statement, inTodo, mentions⟩ := next
      obtain ⟨old, present, same, _⟩ := named statement inTodo id mentions row member here
      exact gone old present same
  | superseded request done member hit deletes =>
      exact .superseded request done (List.mem_append_left _ member) hit deletes
  | deleting call todo deleted doomed sweeps conditions present =>
      apply Stage.deleting call todo deleted doomed sweeps conditions
      intro row member
      have locked : Transaction.locks ⟨call, todo, deleted.map fun row => .deleteRow row.id,
          false, deleted⟩ row.id = true :=
        List.any_eq_true.mpr ⟨_, List.mem_map_of_mem member, decide_eq_true rfl⟩
      obtain ⟨stored, tested⟩ := present row member
      constructor
      · exact (committed.mem_after_iff apart locked).mpr stored
      · rw [← Tables.namespacesOf_slot, committed.slot_after apart locked, Tables.namespacesOf_slot]
        exact tested

end OtherCommit

end Spns.Storage
