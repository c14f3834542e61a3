import Spns.Lib.Run
import Spns.Lib.Unordered
import Spns.Storage.Tables

/-!
# Concurrent transactions

The database transactions of `add_subscription`, `remove_subscription`,
`on_drop_registrations` and `db_cleanup`, interleaved statement by statement
under `READ COMMITTED`.  A statement sees the committed tables together with
the writes of its own transaction.  A write to a row waits while another
transaction has written that row and is not finished, and an insert waits for
another pending insert for the same device; a statement that waits is not
enabled.  A violated constraint aborts the transaction, and any transaction may
be aborted at any time.

The counters in `service_stats` are left out: they only make transactions wait
for each other more often.
-/

namespace Spns.Storage

open Spns
open Spns.Hive
open Spns.Lib
open Spns.Lib.Unordered

/-! ## Calls and statements -/

/-- The `WHERE` clauses of the deletes. -/
inductive Condition
  | device (device : Device)
  | registration (service svcid : Bytes)
  | expired (cutoff : Int)
  deriving DecidableEq

/-- Whether a row meets a condition. -/
def Condition.test : Condition → Row → Bool
  | .device target, row => row.device = target
  | .registration service svcid, row => Database.dropMatches service svcid row
  | .expired cutoff, row => row.data.signatureTs ≤ cutoff

/-- The functions of the server that run a transaction. -/
inductive Call
  | addSubscription (request : AddRequest)
  | removeSubscription (device : Device)
  | dropRegistrations (service : Bytes) (svcids : List Bytes)
  | dbCleanup (cutoff : Int)

/-- The SQL statements with their parameters. -/
inductive Statement
  | selectRow (request : AddRequest)
  | updateRow (id : Nat) (request : AddRequest)
  | deleteNamespaces (id : Nat)
  | insertRow (request : AddRequest)
  | insertNamespace (id : Nat) (ns : Int)
  | deleteWhere (condition : Condition)

/-- The statements that a call starts with; the later ones of
`add_subscription` depend on what its query finds. -/
def Call.statements : Call → List Statement
  | .addSubscription request => [.selectRow request]
  | .removeSubscription device => [.deleteWhere (.device device)]
  | .dropRegistrations service svcids =>
      svcids.map fun svcid => .deleteWhere (.registration service svcid)
  | .dbCleanup cutoff => [.deleteWhere (.expired cutoff)]

/-- The loop that inserts the namespaces. -/
def insertStatements (id : Nat) (namespaces : List Int) : List Statement :=
  namespaces.map (Statement.insertNamespace id)

/-- What a call reports to its caller. -/
inductive Result
  | added (newSub : Bool)
  | removed (any : Bool)
  | none
  deriving DecidableEq

/-- A transaction in progress. -/
structure Transaction where
  call : Call
  todo : List Statement
  writes : List Write
  newSub : Bool
  deleted : List Row

/-- A transaction that has been committed, with the rows it deleted. -/
structure Committed where
  call : Call
  result : Result
  deleted : List Row

namespace Transaction

/-- A transaction at its beginning. -/
def start (call : Call) : Transaction :=
  ⟨call, call.statements, [], false, []⟩

/-- What the caller gets once the transaction is committed. -/
def result (txn : Transaction) : Result :=
  match txn.call with
  | .addSubscription _ => .added txn.newSub
  | .removeSubscription _ => .removed (!txn.deleted.isEmpty)
  | _ => .none

/-- The record of the committed transaction. -/
def finish (txn : Transaction) : Committed :=
  ⟨txn.call, txn.result, txn.deleted⟩

end Transaction

/-- The committed database, the transactions in progress on each connection and
the committed ones in the order of their commits. -/
structure Sessions where
  db : Database
  active : Map Nat Transaction
  history : List Committed

/-! ## Locks -/

/-- Whether a write locks the row with an id. -/
def Write.locks (id : Nat) : Write → Bool
  | .insertRow row => row.id = id
  | .updateRow target _ => target = id
  | .deleteRow target => target = id
  | .insertNamespace _ _ => false
  | .deleteNamespaces _ => false

/-- Whether a write inserts a row for a device. -/
def Write.claims (device : Device) : Write → Bool
  | .insertRow row => row.device = device
  | _ => false

namespace Transaction

/-- The transaction has written the row with this id. -/
def locks (txn : Transaction) (id : Nat) : Bool :=
  txn.writes.any (Write.locks id)

/-- The transaction has inserted a row for this device. -/
def claims (txn : Transaction) (device : Device) : Bool :=
  txn.writes.any (Write.claims device)

end Transaction

namespace Sessions

/-- The transactions on the other connections. -/
def others (sessions : Sessions) (conn : Nat) : List Transaction :=
  (sessions.active.entries.filter fun entry => entry.1 ≠ conn).map Sigma.snd

/-- Some other transaction has written the row. -/
def lockedByOthers (sessions : Sessions) (conn id : Nat) : Bool :=
  (sessions.others conn).any fun txn => txn.locks id

/-- Some other transaction has inserted a row for the device. -/
def claimedByOthers (sessions : Sessions) (conn : Nat) (device : Device) : Bool :=
  (sessions.others conn).any fun txn => txn.claims device

/-- What a statement of a transaction sees. -/
def view (sessions : Sessions) (txn : Transaction) : Tables :=
  sessions.db.tables.applyAll txn.writes

/-! ## Execution of one statement -/

/-- How a statement ends. -/
inductive Outcome
  | done (txn : Transaction) (nextId : Nat)
  | waits
  | violates

/-- Run one statement; `rest` are the statements after it. -/
def execute (sessions : Sessions) (conn : Nat) (txn : Transaction) (rest : List Statement) :
    Statement → Outcome
  | .selectRow request =>
      match (sessions.view txn).rowAt request.device with
      | some row =>
          let insertNs := (sessions.view txn).namespacesOf row.id ≠ request.sub.namespaces
          let rewrite :=
            if insertNs then
              .deleteNamespaces row.id :: insertStatements row.id request.sub.namespaces
            else []
          .done { txn with todo := .updateRow row.id request :: rewrite, newSub := false }
            sessions.db.nextId
      | none => .done { txn with todo := [.insertRow request], newSub := true } sessions.db.nextId
  | .updateRow id request =>
      if sessions.lockedByOthers conn id then .waits
      else if (sessions.view txn).subscriptions.any fun row => row.id = id then
        .done { txn with todo := rest, writes := txn.writes ++ [.updateRow id request.data] }
          sessions.db.nextId
      else .done { txn with todo := rest } sessions.db.nextId
  | .deleteNamespaces id =>
      if sessions.lockedByOthers conn id then .waits
      else if (sessions.view txn).subNamespaces.any fun pair => pair.1 = id then
        .done { txn with todo := rest, writes := txn.writes ++ [.deleteNamespaces id] }
          sessions.db.nextId
      else .done { txn with todo := rest } sessions.db.nextId
  | .insertRow request =>
      let id := sessions.db.nextId
      if sessions.claimedByOthers conn request.device then .waits
      else
        match (sessions.view txn).rowAt request.device with
        | some row => if sessions.lockedByOthers conn row.id then .waits else .violates
        | none =>
            .done
              { txn with
                todo := insertStatements id request.sub.namespaces
                writes := txn.writes ++ [.insertRow ⟨id, request.device, request.data⟩] }
              (id + 1)
  | .insertNamespace id ns =>
      if sessions.lockedByOthers conn id then .waits
      else if (sessions.view txn).subscriptions.all fun row => row.id ≠ id then .violates
      else if (id, ns) ∈ (sessions.view txn).subNamespaces then .violates
      else
        .done { txn with todo := rest, writes := txn.writes ++ [.insertNamespace id ns] }
          sessions.db.nextId
  | .deleteWhere condition =>
      let rows := (sessions.view txn).subscriptions.filter condition.test
      if rows.any fun row => sessions.lockedByOthers conn row.id then .waits
      else
        .done
          { txn with
            todo := rest
            writes := txn.writes ++ rows.map fun row => .deleteRow row.id
            deleted := txn.deleted ++ rows }
          sessions.db.nextId

/-! ## Steps -/

/-- What can happen on a connection. -/
inductive Event
  | start (conn : Nat) (call : Call)
  | execute (conn : Nat)
  | commit (conn : Nat)
  | abort (conn : Nat)

/-- One step; `none` where it is not enabled. -/
def step (sessions : Sessions) : Event → Option Sessions
  | .start conn call =>
      match sessions.active.lookup conn with
      | some _ => none
      | none =>
          some { sessions with active := sessions.active.insert conn (Transaction.start call) }
  | .execute conn =>
      match sessions.active.lookup conn with
      | none => none
      | some txn =>
          match txn.todo with
          | [] => none
          | statement :: rest =>
              match sessions.execute conn txn rest statement with
              | .waits => none
              | .violates => some { sessions with active := sessions.active.erase conn }
              | .done after nextId =>
                  some
                    { sessions with
                      db := { sessions.db with nextId := nextId }
                      active := sessions.active.insert conn after }
  | .commit conn =>
      match sessions.active.lookup conn with
      | none => none
      | some txn =>
          match txn.todo with
          | [] =>
              some
                { db := { sessions.db with tables := sessions.view txn }
                  active := sessions.active.erase conn
                  history := sessions.history ++ [txn.finish] }
          | _ :: _ => none
  | .abort conn =>
      match sessions.active.lookup conn with
      | none => none
      | some _ => some { sessions with active := sessions.active.erase conn }

/-- A fresh database without connections. -/
def initial : Sessions :=
  ⟨Database.empty, ∅, []⟩

end Sessions

/-! ## Serial execution -/

/-- A call run as a whole, with its result. -/
def Call.run (db : Database) : Call → Database × Result
  | .addSubscription request =>
      let (after, newSub) := db.addSubscription request
      (after, .added newSub)
  | .removeSubscription device =>
      let (after, any) := db.removeSubscription device
      (after, .removed any)
  | .dropRegistrations service svcids => (db.dropRegistrations service svcids, .none)
  | .dbCleanup cutoff => (db.cleanup cutoff, .none)

/-- Calls run one after the other. -/
def serial (db : Database) : List Call → Database × List Result
  | [] => (db, [])
  | call :: calls =>
      let (after, result) := call.run db
      let (final, results) := serial after calls
      (final, result :: results)

/-- What is stored and what the committed calls have reported is the outcome of
some serial execution of them. -/
def Sessions.Serializable (sessions : Sessions) : Prop :=
  ∃ order : List Committed, order.Perm sessions.history ∧
    (serial Database.empty (order.map Committed.call)).1.tables.contents =
      sessions.db.tables.contents ∧
    (serial Database.empty (order.map Committed.call)).2 = order.map Committed.result

end Spns.Storage
