import Spns.Hive.Subscription

/-!
# The subscription tables

The two tables of `schema.pgsql` that hold subscriptions, the row-level writes
that SQL statements perform on them, and the transactions of the server run
one after the other.  `sub_namespaces` references `subscriptions` with
`ON DELETE CASCADE`, so deleting a row also deletes its namespaces.

`Tables.contents` forgets the surrogate ids: it is the stored subscription of
each device, which is what the rest of the server depends on.
-/

namespace Spns.Storage

open Spns
open Spns.Hive

/-- `SERVICE_ID_MIN_SIZE` -/
def serviceIdMinSize : Nat := 32

/-- `SERVICE_ID_MAX_SIZE` -/
def serviceIdMaxSize : Nat := 999

/-- The unique key of `subscriptions`: one row for each account on a device. -/
structure Device where
  account : AccountID
  service : Bytes
  svcid : Bytes
  deriving DecidableEq

/-- The columns that an `UPDATE` of `add_subscription` sets. -/
structure RowData where
  sessionEd25519 : Option Ed25519PK
  subaccountTag : Option SubaccountTag
  subaccountSig : Option Signature
  signature : Signature
  signatureTs : Int
  wantData : Bool
  encKey : EncKey
  svcdata : Option Bytes
  deriving DecidableEq

/-- A row of `subscriptions`. -/
structure Row where
  id : Nat
  device : Device
  data : RowData
  deriving DecidableEq

/-- `subscriptions` and `sub_namespaces`. -/
structure Tables where
  subscriptions : List Row
  subNamespaces : List (Nat × Int)
  deriving DecidableEq

/-- Rows of `sub_namespaces` are compared by their columns. -/
instance (priority := high) lawfulBEq_namespaceRow : LawfulBEq (Nat × Int) := inferInstance

/-- The tables with the identity sequence of `subscriptions.id`. -/
structure Database where
  tables : Tables
  nextId : Nat

/-- A freshly created schema. -/
def Database.empty : Database :=
  ⟨⟨[], []⟩, 1⟩

/-- What the database stores for a device, without the surrogate id. -/
structure Stored where
  data : RowData
  namespaces : List Int
  deriving DecidableEq

/-- A row-level write. -/
inductive Write
  | insertRow (row : Row)
  | updateRow (id : Nat) (data : RowData)
  | deleteRow (id : Nat)
  | insertNamespace (id : Nat) (ns : Int)
  | deleteNamespaces (id : Nat)
  deriving DecidableEq

namespace Tables

/-- The effect of one write; deleting a row cascades to its namespaces. -/
def apply (tables : Tables) : Write → Tables
  | .insertRow row => { tables with subscriptions := tables.subscriptions ++ [row] }
  | .updateRow id data =>
      { tables with
        subscriptions := tables.subscriptions.map fun row =>
          if row.id = id then { row with data := data } else row }
  | .deleteRow id =>
      { subscriptions := tables.subscriptions.filter fun row => row.id ≠ id
        subNamespaces := tables.subNamespaces.filter fun pair => pair.1 ≠ id }
  | .insertNamespace id ns =>
      { tables with subNamespaces := tables.subNamespaces ++ [(id, ns)] }
  | .deleteNamespaces id =>
      { tables with subNamespaces := tables.subNamespaces.filter fun pair => pair.1 ≠ id }

/-- Writes in order. -/
def applyAll (tables : Tables) (writes : List Write) : Tables :=
  writes.foldl apply tables

@[simp]
theorem applyAll_nil (tables : Tables) : tables.applyAll [] = tables :=
  rfl

theorem applyAll_cons (tables : Tables) (write : Write) (writes : List Write) :
    tables.applyAll (write :: writes) = (tables.apply write).applyAll writes :=
  rfl

theorem applyAll_append (tables : Tables) (first second : List Write) :
    tables.applyAll (first ++ second) = (tables.applyAll first).applyAll second :=
  List.foldl_append

/-- The row of a device. -/
def rowAt (tables : Tables) (device : Device) : Option Row :=
  tables.subscriptions.find? fun row => row.device = device

/-- `ARRAY(SELECT namespace ... ORDER BY namespace)` -/
def namespacesOf (tables : Tables) (id : Nat) : List Int :=
  ((tables.subNamespaces.filter fun pair => pair.1 = id).map Prod.snd).insertionSort (· ≤ ·)

/-- The stored subscription of each device. -/
def contents (tables : Tables) (device : Device) : Option Stored :=
  (tables.rowAt device).map fun row => ⟨row.data, tables.namespacesOf row.id⟩

/-- The deletes of `DELETE FROM subscriptions WHERE ...`. -/
def deletesWhere (tables : Tables) (matching : Row → Bool) : List Write :=
  (tables.subscriptions.filter matching).map fun row => .deleteRow row.id

end Tables

/-! ## Requests -/

/-- The arguments of `add_subscription`. -/
structure AddRequest where
  pubkey : SwarmPubkey
  service : Bytes
  serviceId : Bytes
  serviceData : Option Bytes
  encKey : EncKey
  sub : Subscription

namespace AddRequest

/-- The device whose row the request inserts or updates. -/
def device (request : AddRequest) : Device :=
  ⟨request.pubkey.id, request.service, request.serviceId⟩

/-- The column values the request writes. -/
def data (request : AddRequest) : RowData where
  sessionEd25519 := if request.pubkey.sessionEd then some request.pubkey.ed25519 else none
  subaccountTag := request.sub.subaccount.map Subaccount.tag
  subaccountSig := request.sub.subaccount.map Subaccount.sig
  signature := request.sub.sig
  signatureTs := request.sub.sigTs
  wantData := request.sub.wantData
  encKey := request.encKey
  svcdata := request.serviceData

/-- What the database holds for the device once the request is stored. -/
def stored (request : AddRequest) : Stored :=
  ⟨request.data, request.sub.namespaces⟩

end AddRequest

/-- The `INSERT`s of a namespace list. -/
def insertNamespaces (id : Nat) (namespaces : List Int) : List Write :=
  namespaces.map (Write.insertNamespace id)

namespace Database

/-- The transaction of `add_subscription`; the flag is `new_sub`. -/
def addSubscription (db : Database) (request : AddRequest) : Database × Bool :=
  match db.tables.rowAt request.device with
  | some row =>
      let insertNs := db.tables.namespacesOf row.id ≠ request.sub.namespaces
      let rewrite :=
        if insertNs then
          .deleteNamespaces row.id :: insertNamespaces row.id request.sub.namespaces
        else []
      ({ db with tables := db.tables.applyAll (.updateRow row.id request.data :: rewrite) }, false)
  | none =>
      let row : Row := ⟨db.nextId, request.device, request.data⟩
      (⟨db.tables.applyAll
          (.insertRow row :: insertNamespaces db.nextId request.sub.namespaces), db.nextId + 1⟩,
        true)

/-- A transaction with a single `DELETE`; the flag says whether any row went. -/
def deleteWhere (db : Database) (matching : Row → Bool) : Database × Bool :=
  ({ db with tables := db.tables.applyAll (db.tables.deletesWhere matching) },
    db.tables.subscriptions.any matching)

/-- The transaction of `remove_subscription`. -/
def removeSubscription (db : Database) (device : Device) : Database × Bool :=
  db.deleteWhere fun row => row.device = device

/-- The test of one `DELETE` of `on_drop_registrations`. -/
def dropMatches (service svcid : Bytes) (row : Row) : Bool :=
  row.device.service = service ∧ row.device.svcid = svcid

/-- The transaction of `on_drop_registrations`. -/
def dropRegistrations (db : Database) (service : Bytes) (svcids : List Bytes) : Database :=
  svcids.foldl (fun db svcid => (db.deleteWhere (dropMatches service svcid)).1) db

/-- The transaction of `db_cleanup`, given the expiry cutoff in seconds. -/
def cleanup (db : Database) (cutoff : Int) : Database :=
  (db.deleteWhere fun row => row.data.signatureTs ≤ cutoff).1

end Database

end Spns.Storage
