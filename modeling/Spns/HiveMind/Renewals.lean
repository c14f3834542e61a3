import Spns.HiveMind.Loading

/-!
# Renewals out of order

A device renews a subscription by sending it again with a newer signature.
The memory of the server keeps the newer of two signatures, and so does the
loading loop.  The transaction of `add_subscription` reads the timestamp of the
stored signature as well, but it never compares it: the row always takes the
signature of the request that was applied last.
-/

namespace Spns.HiveMind

open Spns.Hive
open Spns.Lib
open Spns.Storage

/-- Two accepted requests of one device for the same upstream, signed at
different times. -/
structure Renewal (env : Env) (first second : AddRequest) : Prop where
  firstAccepted : first.Accepted env
  secondAccepted : second.Accepted env
  device : second.device = first.device
  upstream : (second.sub.offer second.pubkey.id).upstream =
    (first.sub.offer first.pubkey.id).upstream
  distinct : second.sub.sigTs ≠ first.sub.sigTs

/-- The request whose signature the rule of the memory selects. -/
def newerOf (first second : AddRequest) : AddRequest :=
  if second.sub.isNewer first.sub then second else first

/-- The state after both requests. -/
def addBoth (first second : AddRequest) (hive : HiveMind) : HiveMind :=
  ((hive.addSubscription first).1.addSubscription second).1

/-- The signature in the row of a device, with its timestamp. -/
def storedSignature (db : Database) (device : Device) : Option (Signature × Int) :=
  (db.tables.rowAt device).map fun row => (row.data.signature, row.data.signatureTs)

/-- The signature that a loading thread reads back for a device. -/
def recoveredSignature (env : Env) (db : Database) (device : Device) : Option (Signature × Int) :=
  (db.tables.rowAt device).bind fun row =>
    (loadRow env db.tables row).toOption.map fun loaded => (loaded.sig, loaded.sigTs)

/-- The database keeps the newer signature of the two, and a restart recovers
it. -/
def StorageKeepsNewer (env : Env) (hive : HiveMind) (first second : AddRequest) : Prop :=
  let newer := newerOf first second
  storedSignature (addBoth first second hive).db first.device =
      some (newer.sub.sig, newer.sub.sigTs) ∧
    recoveredSignature env (addBoth first second hive).db first.device =
      some (newer.sub.sig, newer.sub.sigTs)

/-! ## Both stores -/

theorem forceAccount_db (account : SwarmPubkey) (hive : HiveMind) :
    (hive.forceAccount account).db = hive.db := by
  rw [forceAccount]
  exact List.foldlRecOn (motive := fun current : HiveMind => current.db = hive.db) _ _ rfl
    fun current same _ _ => same

theorem addSubscription_db (request : AddRequest) (hive : HiveMind) :
    (hive.addSubscription request).1.db = (hive.db.addSubscription request).1 := by
  rw [addSubscription_eq]
  simp only
  split_ifs
  · rw [forceAccount_db]
  · rfl

/-- The row holds what was applied last, and a loading thread reads it back. -/
theorem signature_addSubscription {env : Env} {hive : HiveMind} (written : Written env hive.db)
    {request : AddRequest} (accepted : request.Accepted env) :
    storedSignature (hive.addSubscription request).1.db request.device =
        some (request.sub.sig, request.sub.sigTs) ∧
      recoveredSignature env (hive.addSubscription request).1.db request.device =
        some (request.sub.sig, request.sub.sigTs) := by
  rw [addSubscription_db]
  have after := written.addSubscription accepted
  obtain ⟨-, contents, -⟩ := Database.addSubscription_outcome written.sound request
  have stored : (hive.db.addSubscription request).1.tables.contents request.device =
      some request.stored := by
    rw [contents, Function.update_self]
  obtain ⟨row, found, equal⟩ := Option.map_eq_some_iff.mp stored
  have data : row.data = request.data := congrArg Stored.data equal
  obtain ⟨member, -⟩ := after.sound.valid.rowAt_eq_some_iff.mp found
  obtain ⟨_, _, loaded, read, -, -, offer⟩ := loadRow_written after member
  constructor
  · rw [storedSignature, found, Option.map_some, data]
    rfl
  · have sig : loaded.sig = row.data.signature := congrArg Offer.sig offer
    have sigTs : loaded.sigTs = row.data.signatureTs := congrArg Offer.sigTs offer
    rw [recoveredSignature, found, Option.bind_some, read]
    simp only [Except.toOption, Option.map_some, sig, sigTs, data]
    rfl

/-- The memory holds the upstream with a signature that is not older than
either of the two, whatever their order. -/
theorem holds_addBoth {env : Env} (hive : HiveMind) {first second : AddRequest}
    (renewal : Renewal env first second) :
    Holds (addBoth first second hive).subscribers
      ((newerOf first second).sub.offer first.pubkey.id) := by
  have account : second.pubkey.id = first.pubkey.id := congrArg Device.account renewal.device
  rw [addBoth, addSubscription_subscribers, addSubscription_subscribers, newerOf]
  split_ifs
  · rw [← account]
    exact holds_remember_self _ _ second.sub
  · exact (holds_remember_self _ _ first.sub).remember _ second.sub

/-- The memory always keeps the newer signature; the database does so exactly
when the newer request is applied last. -/
theorem storage_keeps_newer_iff (env : Env) (hive : HiveMind) (written : Written env hive.db)
    (first second : AddRequest) (renewal : Renewal env first second) :
    Holds (addBoth first second hive).subscribers
        ((newerOf first second).sub.offer first.pubkey.id) ∧
      (StorageKeepsNewer env hive first second ↔ first.sub.sigTs < second.sub.sigTs) := by
  refine ⟨holds_addBoth hive renewal, ?_⟩
  have between : Written env (hive.addSubscription first).1.db := by
    rw [addSubscription_db]
    exact written.addSubscription renewal.firstAccepted
  obtain ⟨stored, recovered⟩ := signature_addSubscription between renewal.secondAccepted
  rw [renewal.device] at stored recovered
  rw [StorageKeepsNewer, addBoth]
  simp only [stored, recovered, and_self, Option.some.injEq, Prod.mk.injEq, newerOf,
    Subscription.isNewer, decide_eq_true_eq]
  constructor
  · rintro ⟨-, same⟩
    by_contra older
    rw [if_neg (by omega)] at same
    exact renewal.distinct same
  · intro newer
    rw [if_pos newer]
    exact ⟨rfl, rfl⟩

/-! ## A late request -/

/-- A subscription of `Sample.account` that a subaccount has signed. -/
def subaccountRequest (sigTs : Int) : AddRequest :=
  { Sample.request sigTs with
    sub := { (Sample.request sigTs).sub with
      subaccount := some ⟨⟨List.replicate 36 3, rfl⟩, ⟨List.replicate 64 5, rfl⟩⟩ } }

theorem subaccountRequest_renewal :
    Renewal Sample.env (subaccountRequest 1700000001) (subaccountRequest 1700000000) where
  firstAccepted := ⟨⟨none, by decide, rfl⟩, 1700000001, rfl⟩
  secondAccepted := ⟨⟨none, by decide, rfl⟩, 1700000000, rfl⟩
  device := rfl
  upstream := rfl
  distinct := by decide

/-- The renewal is applied before the request that it renews; after a restart
the memory holds the older signature as well. -/
theorem late_request_loses_renewal :
    ¬StorageKeepsNewer Sample.env initial (subaccountRequest 1700000001)
        (subaccountRequest 1700000000) ∧
      (subscriptionsOf (addBoth (subaccountRequest 1700000001) (subaccountRequest 1700000000)
        initial).subscribers Sample.account).map Subscription.sigTs = [1700000001] ∧
      (Run.exec (step Sample.env) initial
          [.addSubscription (subaccountRequest 1700000001),
            .addSubscription (subaccountRequest 1700000000),
            .start (1700000002 * second) 1 fun _ => 1700000002 * second]).map (fun hive =>
        (subscriptionsOf hive.subscribers Sample.account).map Subscription.sigTs) =
          some [1700000000] := by
  refine ⟨?_, by decide +kernel, by decide +kernel⟩
  rintro ⟨stored, -⟩
  exact absurd stored (by decide +kernel)

theorem renewal_in_order_kept :
    StorageKeepsNewer Sample.env initial (subaccountRequest 1700000000)
      (subaccountRequest 1700000001) := by
  have renewal : Renewal Sample.env (subaccountRequest 1700000000)
      (subaccountRequest 1700000001) :=
    ⟨subaccountRequest_renewal.secondAccepted, subaccountRequest_renewal.firstAccepted, rfl, rfl,
      by decide⟩
  have written : Written Sample.env initial.db := ⟨[], by simp, rfl⟩
  exact (storage_keeps_newer_iff Sample.env initial written _ _ renewal).2.mpr (by decide)

end Spns.HiveMind
