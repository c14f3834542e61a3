import Mathlib.Data.Int.Order.Basic
import Spns.Lib.Run
import Spns.Lib.Unordered
import Spns.Storage.Tables

/-!
# Processing notifications

`process_notifications` takes batches of message notifications from the storage
servers, finds the subscriptions that match each one and hands a
`notifier.push` message to the registered service of each subscription.  Every
member of a swarm sends the same notification, so a filter with two
generations of keys drops the repeats.

The bencode reader is a parameter, as is the BLAKE2b function.  The state keeps
a trace of what was decided for each matching subscription, newest first: the
trace is not read by any function of the server, only by the results.
-/

namespace Spns.Notify

open Spns
open Spns.Hive (int64 second)
open Spns.Lib
open Spns.Lib.Bencode
open Spns.Lib.Unordered
open Spns.Storage

/-- A signed integer type of the source. -/
abbrev SignedInt (bits : Nat) :=
  { value : Int // -2 ^ (bits - 1) ≤ value ∧ value < 2 ^ (bits - 1) }

/-- A string that fits the address space: its size is a `size_t`. -/
abbrev StringView := { bytes : Bytes // bytes.length < 2 ^ 64 }

/-- Connection ids of OxenMQ; the server only stores and compares them. -/
abbrev ConnectionId := Nat

/-! ## Reading a notification -/

/-- `MSG_HASH_MIN_SIZE` -/
def msgHashMinSize : Nat := 32

/-- `MSG_HASH_MAX_SIZE` -/
def msgHashMaxSize : Nat := 99

/-- `oxenc::bt_dict_consumer` with read positions `π`; errors are the texts of
thrown exceptions. -/
structure DictConsumer (π : Type) where
  start : Bytes → Except String π
  skipUntil : π → Bytes → Except String (Bool × π)
  consumeString : π → Except String (StringView × π)
  consumeInteger : π → (bits : Nat) → Except String (SignedInt bits × π)
  maybeString : π → Bytes → Except String (Option StringView × π)

/-- A notification of a storage server. -/
structure Notification where
  account : AccountID
  hash : Bytes
  ns : SignedInt 16
  timestampMs : SignedInt 64
  expiryMs : SignedInt 64
  data : Option StringView
  minSize : msgHashMinSize ≤ hash.length
  maxSize : hash.length ≤ msgHashMaxSize

/-- `skip_until`, with the warning for a missing key. -/
def DictConsumer.require {π : Type} (dict : DictConsumer π) (position : π) (key : Bytes)
    (missing : String) : Except String π := do
  let (found, position) ← dict.skipUntil position key
  if found then pure position else throw missing

/-- Read one notification; the errors are the texts of the logged warnings. -/
def parseNotification {π : Type} (dict : DictConsumer π) (body : Bytes) :
    Except String Notification := do
  let position ← dict.start body
  let position ← dict.require position [64] "Unexpected notification: missing account (@)"
  let (accountStr, position) ← dict.consumeString position
  match asFixed 33 accountStr.val with
  | none => throw "Unexpected notification: wrong account size (@)"
  | some account =>
      let position ← dict.require position [104] "Unexpected notification: missing msg hash (h)"
      let (hash, position) ← dict.consumeString position
      if sized : msgHashMinSize ≤ hash.val.length ∧ hash.val.length ≤ msgHashMaxSize then
        let position ← dict.require position [110]
          "Unexpected notification: missing namespace (n)"
        let (ns, position) ← dict.consumeInteger position 16
        let position ← dict.require position [116]
          "Unexpected notification: missing message timestamp (t)"
        let (timestampMs, position) ← dict.consumeInteger position 64
        let position ← dict.require position [122]
          "Unexpected notification: missing message expiry (z)"
        let (expiryMs, position) ← dict.consumeInteger position 64
        let (data, _) ← dict.maybeString position [126]
        pure ⟨account, hash.val, ns, timestampMs, expiryMs, data, sized.1, sized.2⟩
      else throw "Unexpected notification: msg hash too small"

/-- The query of the matching subscriptions. -/
def matchingRows (tables : Tables) (account : AccountID) (ns : Int) : List Row :=
  tables.subscriptions.filter fun row =>
    row.device.account = account ∧ (row.id, ns) ∈ tables.subNamespaces

/-! ## The push message -/

/-- The message data that goes to a subscriber, when it wants any. -/
def pushData (notification : Notification) (row : Row) : Option Bytes :=
  if row.data.wantData then notification.data.map Subtype.val else none

/-- An entry that is only appended when there is a value. -/
def optionalEntry (key : UInt8) (value : Option Bytes) : List Entry :=
  (value.map fun bytes => ([key], encodeString bytes)).toList

/-- The entries of the push message in the order they are appended. -/
def pushEntries (notification : Notification) (row : Row) : List Entry :=
  [([], encodeString row.device.service)] ++
    optionalEntry 33 row.data.svcdata ++
    [([35], encodeString notification.hash),
      ([38], encodeString row.device.svcid),
      ([64], encodeString notification.account.val),
      ([94], encodeString row.data.encKey.val),
      ([110], encodeInt notification.ns.val),
      ([116], encodeInt notification.timestampMs.val),
      ([122], encodeInt notification.expiryMs.val)] ++
    optionalEntry 126 (pushData notification row)

/-- `size_needed` -/
def sizeNeeded (notification : Notification) (row : Row) : Nat :=
  2 + 35 +
  3 + 21 + row.device.svcid.length +
  3 + 35 +
  3 + 21 + notification.hash.length +
  3 + 36 +
  3 + 8 +
  3 + 15 +
  3 + 15 +
  (row.data.svcdata.elim 0 fun svcdata => 3 + 21 + svcdata.length) +
  ((pushData notification row).elim 0 fun data => 3 + 21 + data.length)

/-- The buffer after the resize for this message. -/
def resizedBuffer (bufSize : Nat) (notification : Notification) (row : Row) : Nat :=
  if bufSize < sizeNeeded notification row then sizeNeeded notification row else bufSize

/-- `blake2b(service, svcid, hash)`: the arguments are fed to one hash state,
one after the other. -/
def blake2b {κ : Type} (generichash : Bytes → κ) (args : List Bytes) : κ :=
  generichash args.flatten

/-! ## State and steps -/

/-- What happened to one matching subscription of a notification. -/
inductive Verdict
  | duplicate
  | unregistered
  | unbuildable
  | sent (conn : ConnectionId) (message : Bytes)
  deriving DecidableEq

/-- A notification for one device. -/
structure Triple where
  service : Bytes
  svcid : Bytes
  hash : Bytes
  deriving DecidableEq

/-- A verdict with the time of its batch. -/
structure Decision where
  time : Int
  triple : Triple
  verdict : Verdict
  deriving DecidableEq

/-- Whether a push was sent. -/
def Decision.isSent (decision : Decision) : Bool :=
  match decision.verdict with
  | .sent _ _ => true
  | _ => false

/-- What stays fixed during a run: the bencode reader, the hash function and
`config.filter_lifetime`, in seconds. -/
structure Env (π κ : Type) where
  dict : DictConsumer π
  generichash : Bytes → κ
  lifetime : Int

/-- The lifetime in ticks of the steady clock. -/
def Env.lifetimeTicks {π κ : Type} (env : Env π κ) : Int :=
  env.lifetime * second

/-- `now + config.filter_lifetime`, in the range of the clock. -/
def Env.rotateAfter {π κ : Type} (env : Env π κ) (now : Int) : Int :=
  int64 (now + env.lifetimeTicks)

/-- The parts of the server that notifications and registrations touch. -/
structure State (κ : Type) where
  filter : List κ
  filterRotate : List κ
  filterRotateTime : Int
  services : Map Bytes ConnectionId
  clock : Int
  trace : List Decision

variable {π κ : Type}

/-- A server started at `now`. -/
def initial (env : Env π κ) (now : Int) : State κ :=
  ⟨[], [], env.rotateAfter now, ∅, now, []⟩

/-- The filter key of a notification for a device. -/
def filterKey (env : Env π κ) (triple : Triple) : κ :=
  blake2b env.generichash [triple.service, triple.svcid, triple.hash]

/-- The device and message of a matching row. -/
def rowTriple (notification : Notification) (row : Row) : Triple :=
  ⟨row.device.service, row.device.svcid, notification.hash⟩

/-- Add a decision to the trace. -/
def State.decide (state : State κ) (triple : Triple) (verdict : Verdict) : State κ :=
  { state with trace := ⟨state.clock, triple, verdict⟩ :: state.trace }

/-- The filter rotation at the start of a batch. -/
def State.rotate (env : Env π κ) (now : Int) (state : State κ) : State κ :=
  if state.filterRotateTime ≤ now then
    { state with
      filterRotate := state.filter
      filter := []
      filterRotateTime := env.rotateAfter now
      clock := now }
  else { state with clock := now }

variable [DecidableEq κ]

/-- Whether a key is in either generation of the filter. -/
def State.filtered (state : State κ) (key : κ) : Bool :=
  key ∈ state.filterRotate ∨ key ∈ state.filter

/-- The body of the loop over the matching subscriptions; the number is the
size of the message buffer. -/
def processRow (env : Env π κ) (notification : Notification) (state : State κ × Nat)
    (row : Row) : State κ × Nat :=
  let (state, bufSize) := state
  let triple := rowTriple notification row
  let key := filterKey env triple
  if state.filtered key then
    (state.decide triple .duplicate, bufSize)
  else
    let inserted := { state with filter := key :: state.filter }
    match inserted.services.lookup row.device.service with
    | none => (inserted.decide triple .unregistered, bufSize)
    | some conn =>
        let bufSize := resizedBuffer bufSize notification row
        match Producer.build bufSize (pushEntries notification row) with
        | none => (inserted.decide triple .unbuildable, bufSize)
        | some message => (inserted.decide triple (.sent conn message), bufSize)

/-- The variable-length columns of a row fit the address space. -/
def Sized (row : Row) : Prop :=
  row.device.svcid.length < 2 ^ 64 ∧ ∀ svcdata ∈ row.data.svcdata, svcdata.length < 2 ^ 64

/-- A notification as it arrives, with the tables that its query sees. -/
structure Delivery where
  body : Bytes
  tables : Tables
  sized : ∀ row ∈ tables.subscriptions, Sized row

/-- One message of a batch. -/
def processMessage (env : Env π κ) (state : State κ × Nat) (delivery : Delivery) :
    State κ × Nat :=
  match parseNotification env.dict delivery.body with
  | .error _ => state
  | .ok notification =>
      (matchingRows delivery.tables notification.account notification.ns.val).foldl
        (processRow env notification) state

/-- `MAX_BATCH` -/
def maxBatch : Nat := 100

/-- One batch, processed on the loop thread. -/
def processBatch (env : Env π κ) (now : Int) (batch : List Delivery) (state : State κ) : State κ :=
  (batch.foldl (processMessage env) (state.rotate env now, 0)).1

/-- `on_reg_service`: the parts of the message and the connection it came on. -/
def onRegService (parts : List Bytes) (conn : ConnectionId) (state : State κ) : State κ :=
  match parts with
  | [service] =>
      if service = [] then state
      else if 32 < service.length then state
      else { state with services := state.services.insert service conn }
  | _ => state

/-- Batches and registrations, in the order the loop thread runs them. -/
inductive Event
  | batch (now : Int) (deliveries : List Delivery)
  | regService (parts : List Bytes) (conn : ConnectionId)

/-- One event.  A batch holds between one and `MAX_BATCH` notifications, and the
steady clock does not go back. -/
def step (env : Env π κ) (state : State κ) : Event → Option (State κ)
  | .batch now deliveries =>
      if state.clock ≤ now ∧ 1 ≤ deliveries.length ∧ deliveries.length ≤ maxBatch then
        some (processBatch env now deliveries state)
      else none
  | .regService parts conn => some (onRegService parts conn state)

/-! ## A small configuration

A bencode reader over the remaining bytes, and concrete arguments for the runs
that later modules look at. -/

namespace Sample

/-- The sized view of a string that was read. -/
def view (text : Bytes) : Except String StringView :=
  if sized : text.length < 2 ^ 64 then .ok ⟨text, sized⟩ else .error "string too long"

/-- An integer that was read, as a signed type. -/
def signed (bits : Nat) (value : Int) : Except String (SignedInt bits) :=
  if bounds : -2 ^ (bits - 1) ≤ value ∧ value < 2 ^ (bits - 1) then .ok ⟨value, bounds⟩
  else .error "integer out of range"

/-- The reader: a position is what is left of the dictionary. -/
def dict : DictConsumer Bytes where
  start
    | 100 :: rest => .ok rest
    | _ => .error "not a dict"
  skipUntil position key :=
    match Bencode.skipUntil (position.length + 1) position key with
    | some result => .ok result
    | none => .error "invalid dict"
  consumeString position := do
    match readString position with
    | some (text, rest) => pure (← view text, rest)
    | none => throw "invalid string"
  consumeInteger position bits := do
    match readInt position with
    | some (value, rest) => pure (← signed bits value, rest)
    | none => throw "invalid integer"
  maybeString position key := do
    match Bencode.skipUntil (position.length + 1) position key with
    | some (true, rest) =>
        match readString rest with
        | some (text, rest) => pure (some (← view text), rest)
        | none => throw "invalid string"
    | some (false, rest) => pure (none, rest)
    | none => throw "invalid dict"

/-- Ten minutes of filter lifetime, and a hash without collisions. -/
def env : Env Bytes Bytes where
  dict := dict
  generichash := id
  lifetime := 600

def account : AccountID := FixedBytes.replicate 33 5

def service : Bytes := [102, 99, 109]

/-- A row of `account` without service data. -/
def row : Row where
  id := 1
  device := ⟨account, service, List.replicate 32 97⟩
  data :=
    { sessionEd25519 := none
      subaccountTag := none
      subaccountSig := none
      signature := FixedBytes.replicate 64 7
      signatureTs := 1700000000
      wantData := true
      encKey := FixedBytes.replicate 32 2
      svcdata := none }

/-- The dictionary that a storage server sends for a message in namespace 0. -/
def body : Bytes :=
  100 :: Producer.encodeEntry ([64], encodeString account.val) ++
    Producer.encodeEntry ([104], encodeString (List.replicate 32 98)) ++
    Producer.encodeEntry ([110], encodeInt 0) ++
    Producer.encodeEntry ([116], encodeInt 1700000000000) ++
    Producer.encodeEntry ([122], encodeInt 1700001000000) ++ [101]

/-- The notification as it reaches a server that stores `row`. -/
def delivery : Delivery where
  body := body
  tables := ⟨[row], [(1, 0)]⟩
  sized := by
    intro stored member
    cases List.mem_singleton.mp member
    exact ⟨by decide, by simp [row]⟩

end Sample

end Spns.Notify
