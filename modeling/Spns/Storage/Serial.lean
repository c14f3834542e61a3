import Spns.Lib.Replay
import Spns.Storage.Slots
import Spns.Storage.Transactions

/-!
# Serial execution as a replay

Run as a whole, each transaction of the server either puts one stored
subscription at its device or sweeps away the subscriptions that meet a
condition.  A serial execution is therefore the replay of a log on the store
that maps devices to stored subscriptions.
-/

namespace Spns.Storage

open Spns
open Spns.Hive
open Spns.Lib
open Spns.Lib.Replay

/-- The tables meet their constraints and the identity sequence is ahead. -/
structure Database.Sound (db : Database) : Prop where
  valid : db.tables.Valid
  bound : ∀ row ∈ db.tables.subscriptions, row.id < db.nextId

theorem Database.empty_sound : Database.empty.Sound where
  valid :=
    { primary := fun _ member => absurd member List.not_mem_nil
      unique := fun _ member => absurd member List.not_mem_nil
      foreign := fun _ _ => rfl }
  bound := fun _ member => absurd member List.not_mem_nil

theorem Database.contents_empty : Database.empty.tables.contents = fun _ => none :=
  rfl

namespace Tables

theorem slot_eq_emptySlot {tables : Tables} (valid : tables.Valid) {id : Nat}
    (absent : ∀ row ∈ tables.subscriptions, row.id ≠ id) : tables.slot id = emptySlot := by
  have none : (tables.slot id).subscriptions = [] := by
    apply List.eq_nil_iff_forall_not_mem.mpr
    intro row member
    exact absent row (mem_slot.mp member).1 (mem_slot.mp member).2
  exact congrArg₂ Tables.mk none (valid.foreign id none)

theorem namespacesOf_rewrite (tables : Tables) (id : Nat) {namespaces : List Int}
    (sorted : namespaces.Pairwise (· < ·)) :
    (tables.applyAll (.deleteNamespaces id :: insertNamespaces id namespaces)).namespacesOf id =
      namespaces := by
  rw [← namespacesOf_slot, slot_applyAll_of_forall_eq, applyAll_cons, slot_deleteNamespaces,
    applyAll_insertNamespaces]
  · exact namespacesOf_pairs _ id sorted
  · intro write member
    rcases List.mem_cons.mp member with rfl | inserted
    · rfl
    · obtain ⟨ns, _, rfl⟩ := List.mem_map.mp inserted
      rfl

end Tables

theorem insertNamespaces_slot {id : Nat} {namespaces : List Int} :
    ∀ write ∈ insertNamespaces id namespaces, write.slot = id := by
  intro write member
  obtain ⟨ns, _, rfl⟩ := List.mem_map.mp member
  rfl

namespace Database

/-- A transaction that leaves the row and the namespaces of a request in one
slot keeps the database sound and stores the request for its device. -/
theorem Sound.store {db : Database} (sound : db.Sound) {request : AddRequest} {id nextId : Nat}
    {writes : List Write} (single : ∀ write ∈ writes, write.slot = id)
    (row : ((db.tables.slot id).applyAll writes).subscriptions =
      [⟨id, request.device, request.data⟩])
    (namespaces : ((db.tables.slot id).applyAll writes).namespacesOf id = request.sub.namespaces)
    (owner : ∀ old ∈ db.tables.subscriptions, old.id = id ↔ old.device = request.device)
    (ahead : db.nextId ≤ nextId) (below : id < nextId) :
    (⟨db.tables.applyAll writes, nextId⟩ : Database).Sound ∧
      (db.tables.applyAll writes).contents =
        Function.update db.tables.contents request.device (some request.stored) := by
  obtain ⟨valid, stored⟩ := sound.valid.applyAll_put ⟨id, request.device, request.data⟩ single row
    owner
  constructor
  · constructor
    · exact valid
    · intro other member
      by_cases here : other.id = id
      · exact here ▸ below
      · have same : (db.tables.applyAll writes).slot other.id = db.tables.slot other.id :=
          Tables.slot_applyAll_of_forall_ne fun write inside equal =>
            here (equal.symm.trans (single write inside))
        rw [Tables.mem_iff_mem_slot, same, ← Tables.mem_iff_mem_slot] at member
        exact (sound.bound other member).trans_le ahead
  · rw [stored, ← Tables.namespacesOf_slot, Tables.slot_applyAll_of_forall_eq single, namespaces]
    rfl

/-- The transaction of `add_subscription` stores the request for its device and
reports whether there was nothing before. -/
theorem addSubscription_outcome {db : Database} (sound : db.Sound) (request : AddRequest) :
    (db.addSubscription request).1.Sound ∧
      (db.addSubscription request).1.tables.contents =
        Function.update db.tables.contents request.device (some request.stored) ∧
      (db.addSubscription request).2 = (db.tables.contents request.device).isNone := by
  rw [addSubscription]
  cases found : db.tables.rowAt request.device with
  | some row =>
      obtain ⟨member, device⟩ := sound.valid.rowAt_eq_some_iff.mp found
      have before : db.tables.contents request.device = _ :=
        device ▸ sound.valid.contents_eq_some member
      have own := sound.valid.primary row member
      have owner : ∀ old ∈ db.tables.subscriptions,
          old.id = row.id ↔ old.device = request.device := by
        intro old other
        rw [← device]
        exact ⟨fun same => congrArg Row.device (sound.valid.eq_of_id other member same),
          fun same => sound.valid.unique old other row member same⟩
      have updated : ((db.tables.slot row.id).apply (.updateRow row.id request.data)).subscriptions =
          [⟨row.id, request.device, request.data⟩] := by
        simp [Tables.apply, own, device]
      suffices stored : _ ∧ _ from ⟨stored.1, stored.2, by rw [before]; rfl⟩
      by_cases same : db.tables.namespacesOf row.id = request.sub.namespaces
      · simp only [same, ne_eq, not_true_eq_false, if_false]
        apply sound.store _ _ _ owner (Nat.le_refl _) (sound.bound row member)
        · intro write inside
          rw [List.mem_singleton.mp inside]
          rfl
        · exact updated
        · rw [Tables.applyAll_cons, Tables.applyAll_nil, ← same]
          exact Tables.namespacesOf_slot db.tables row.id
      · simp only [ne_eq, same, not_false_eq_true, if_true]
        apply sound.store _ _ _ owner (Nat.le_refl _) (sound.bound row member)
        · intro write inside
          rcases List.mem_cons.mp inside with rfl | later
          · rfl
          · rcases List.mem_cons.mp later with rfl | inserted
            · rfl
            · exact insertNamespaces_slot write inserted
        · rw [Tables.applyAll_cons, Tables.applyAll_cons, Tables.applyAll_insertNamespaces]
          exact updated
        · rw [Tables.applyAll_cons]
          exact Tables.namespacesOf_rewrite _ row.id request.sub.sorted
  | none =>
      have absent := Tables.rowAt_eq_none_iff.mp found
      have unused : ∀ row ∈ db.tables.subscriptions, row.id ≠ db.nextId :=
        fun row member => Nat.ne_of_lt (sound.bound row member)
      have slot : (db.tables.slot db.nextId).applyAll
          (.insertRow ⟨db.nextId, request.device, request.data⟩ ::
            insertNamespaces db.nextId request.sub.namespaces) =
          ⟨[⟨db.nextId, request.device, request.data⟩],
            request.sub.namespaces.map fun ns => (db.nextId, ns)⟩ := by
        rw [Tables.slot_eq_emptySlot sound.valid unused, Tables.applyAll_cons,
          Tables.applyAll_insertNamespaces]
        rfl
      suffices stored : _ ∧ _ from
        ⟨stored.1, stored.2, by rw [Tables.contents_eq_none_iff.mpr absent]; rfl⟩
      apply sound.store _ _ _ _ (Nat.le_succ _) (Nat.lt_succ_self _)
      · intro write inside
        rcases List.mem_cons.mp inside with rfl | inserted
        · rfl
        · exact insertNamespaces_slot write inserted
      · rw [slot]
      · rw [slot]
        exact Tables.namespacesOf_pairs _ _ request.sub.sorted
      · intro old member
        exact iff_of_false (unused old member) (absent old member)

/-- A transaction that deletes some rows keeps the database sound and clears
their devices. -/
theorem Sound.deleted {db : Database} (sound : db.Sound) {rows : List Row}
    (present : ∀ row ∈ rows, row ∈ db.tables.subscriptions) :
    Sound { db with tables := db.tables.applyAll (rows.map fun row => .deleteRow row.id) } ∧
      (db.tables.applyAll (rows.map fun row => .deleteRow row.id)).contents = fun device =>
        if device ∈ rows.map Row.device then none else db.tables.contents device := by
  obtain ⟨valid, cleared⟩ := sound.valid.deleted present
  refine ⟨⟨valid, ?_⟩, cleared⟩
  intro row member
  apply sound.bound row
  rw [Tables.mem_iff_mem_slot, Tables.slot_applyAll_deletes] at member
  split at member
  · contradiction
  · exact (Tables.mem_slot.mp member).1

/-- A transaction with one delete sweeps away what its condition matches. -/
theorem deleteWhere_outcome {db : Database} (sound : db.Sound) (test : Row → Bool)
    (doomed : Device → Stored → Bool)
    (agrees : ∀ row, test row = doomed row.device ⟨row.data, db.tables.namespacesOf row.id⟩) :
    (db.deleteWhere test).1.Sound ∧
      (db.deleteWhere test).1.tables.contents =
        fun device => (Op.sweep doomed).act device (db.tables.contents device) := by
  obtain ⟨after, cleared⟩ := sound.deleted
    (fun row (member : row ∈ db.tables.subscriptions.filter test) =>
      (List.mem_filter.mp member).1)
  constructor
  · exact after
  · apply cleared.trans
    funext device
    cases stored : db.tables.contents device with
    | none => simp
    | some value =>
        obtain ⟨row, found, rfl⟩ := Option.map_eq_some_iff.mp stored
        obtain ⟨member, rfl⟩ := sound.valid.rowAt_eq_some_iff.mp found
        have matched : row.device ∈ (db.tables.subscriptions.filter test).map Row.device ↔
            test row = true := by
          constructor
          · intro inside
            obtain ⟨other, otherMatch, same⟩ := List.mem_map.mp inside
            obtain ⟨present, tested⟩ := List.mem_filter.mp otherMatch
            rwa [sound.valid.eq_of_device present member same] at tested
          · intro tested
            exact List.mem_map_of_mem (List.mem_filter.mpr ⟨member, tested⟩)
        rw [Op.act_sweep_some, ← agrees]
        simp only [matched]

/-- The delete of `remove_subscription` reports whether the device had a row. -/
theorem removeSubscription_reports {db : Database} (sound : db.Sound) (device : Device) :
    (db.removeSubscription device).2 = (db.tables.contents device).isSome := by
  cases stored : db.tables.contents device with
  | none =>
      have absent := Tables.contents_eq_none_iff.mp stored
      simpa [removeSubscription, deleteWhere] using absent
  | some value =>
      obtain ⟨row, found, _⟩ := Option.map_eq_some_iff.mp stored
      have present := sound.valid.rowAt_eq_some_iff.mp found
      simpa [removeSubscription, deleteWhere] using ⟨row, present⟩

/-- The test that a drop of several registrations amounts to. -/
def dropped (service : Bytes) (svcids : List Bytes) (key : Device) (_ : Stored) : Bool :=
  key.service = service ∧ key.svcid ∈ svcids

theorem dropRegistrations_outcome {db : Database} (sound : db.Sound) (service : Bytes)
    (svcids : List Bytes) :
    (db.dropRegistrations service svcids).Sound ∧
      (db.dropRegistrations service svcids).tables.contents =
        fun device => (Op.sweep (dropped service svcids)).act device
          (db.tables.contents device) := by
  induction svcids generalizing db with
  | nil =>
      constructor
      · exact sound
      · funext device
        change db.tables.contents device = _
        cases db.tables.contents device with
        | none => rfl
        | some stored => simp [Op.act_sweep_some, dropped]
  | cons svcid svcids ih =>
      have agrees : ∀ row, dropMatches service svcid row =
          dropped service [svcid] row.device ⟨row.data, db.tables.namespacesOf row.id⟩ := by
        intro row
        simp [dropMatches, dropped]
      obtain ⟨after, first⟩ := deleteWhere_outcome sound _ (dropped service [svcid]) agrees
      obtain ⟨final, rest⟩ := ih after
      refine ⟨final, rest.trans ?_⟩
      have split : dropped service (svcid :: svcids) = fun key stored =>
          dropped service [svcid] key stored || dropped service svcids key stored := by
        funext key stored
        simp [dropped, and_or_left]
      simp only [first, split, Op.act_sweep_sweep]

end Database

/-! ## Calls as operations -/

/-- What a call does to the stored subscriptions. -/
def Call.op : Call → Op Device Stored
  | .addSubscription request => .put request.device request.stored
  | .removeSubscription device => .sweep fun key _ => key = device
  | .dropRegistrations service svcids => .sweep (Database.dropped service svcids)
  | .dbCleanup cutoff => .sweep fun _ stored => stored.data.signatureTs ≤ cutoff

/-- The result of a call, from the devices at which it found something. -/
def Call.resultOf (found : Device → Bool) : Call → Result
  | .addSubscription request => .added (!found request.device)
  | .removeSubscription device => .removed (found device)
  | .dropRegistrations _ _ => .none
  | .dbCleanup _ => .none

theorem Call.run_outcome {db : Database} (sound : db.Sound) (call : Call) :
    (call.run db).1.Sound ∧
      (call.run db).1.tables.contents =
        (fun device => call.op.act device (db.tables.contents device)) ∧
      (call.run db).2 =
        call.resultOf fun device => call.op.finds device (db.tables.contents device) := by
  cases call with
  | addSubscription request =>
      obtain ⟨after, stored, isNew⟩ := Database.addSubscription_outcome sound request
      refine ⟨after, stored.trans ?_, ?_⟩
      · funext device
        simp [Call.op, Op.act, Function.update_apply]
      · simp [Call.run, Call.resultOf, Call.op, isNew]
  | removeSubscription device =>
      obtain ⟨after, cleared⟩ := Database.deleteWhere_outcome sound
        (fun row => row.device = device) (fun key _ => key = device) (fun _ => rfl)
      refine ⟨after, cleared, ?_⟩
      have reported := Database.removeSubscription_reports sound device
      cases stored : db.tables.contents device <;>
        simp [Call.run, Call.resultOf, Call.op, reported, stored]
  | dropRegistrations service svcids =>
      obtain ⟨after, cleared⟩ := Database.dropRegistrations_outcome sound service svcids
      exact ⟨after, cleared, rfl⟩
  | dbCleanup cutoff =>
      obtain ⟨after, cleared⟩ := Database.deleteWhere_outcome sound
        (fun row => row.data.signatureTs ≤ cutoff)
        (fun _ stored => stored.data.signatureTs ≤ cutoff) (fun _ => rfl)
      exact ⟨after, cleared, rfl⟩

/-- The operation of a committed transaction. -/
def Committed.op (done : Committed) : Op Device Stored :=
  done.call.op

/-- A replayed log is a serial execution: it leaves the same subscriptions and
gives the same results. -/
theorem serial_of_replays {db : Database} (sound : db.Sound) {log : List (Entry Committed Device)}
    {final : Device → Option Stored}
    (replays : Replays Committed.op db.tables.contents log final)
    (reported : ∀ entry ∈ log, entry.label.result = entry.label.call.resultOf entry.found) :
    (serial db (log.map fun entry => entry.label.call)).1.tables.contents = final ∧
      (serial db (log.map fun entry => entry.label.call)).2 =
        log.map fun entry => entry.label.result := by
  induction log generalizing db with
  | nil => exact ⟨funext replays, rfl⟩
  | cons entry rest ih =>
      obtain ⟨agrees, following⟩ := (replays_cons_iff entry rest _ final).mp replays
      obtain ⟨after, stored, result⟩ := Call.run_outcome sound entry.label.call
      have later : Replays Committed.op (entry.label.call.run db).1.tables.contents rest final := by
        rw [stored]
        exact following
      obtain ⟨contents, results⟩ := ih after later fun other member =>
        reported other (List.mem_cons_of_mem entry member)
      constructor
      · exact contents
      · have first : (entry.label.call.run db).2 = entry.label.result := by
          rw [result, reported entry List.mem_cons_self]
          exact congrArg (Call.resultOf · entry.label.call) (funext fun key => (agrees key).symm)
        exact congrArg₂ List.cons first results

/-- Whatever a serial execution stores for a device is what one of its requests
asked for, with its own namespaces and signature. -/
theorem contents_serial {db : Database} (sound : db.Sound) {calls : List Call} {device : Device}
    {stored : Stored} (found : (serial db calls).1.tables.contents device = some stored) :
    db.tables.contents device = some stored ∨
      ∃ request, Call.addSubscription request ∈ calls ∧ request.device = device ∧
        request.stored = stored := by
  induction calls generalizing db with
  | nil => exact Or.inl found
  | cons call calls ih =>
      obtain ⟨after, contents, _⟩ := call.run_outcome sound
      rcases ih after found with before | ⟨request, member, same⟩
      · rw [contents] at before
        cases call with
        | addSubscription request =>
            simp only [Call.op, Op.act] at before
            split at before
            · rename_i here
              exact Or.inr ⟨request, List.mem_cons_self, here.symm, Option.some.inj before⟩
            · exact Or.inl before
        | removeSubscription target => exact Or.inl (Option.filter_eq_some_iff.mp before).1
        | dropRegistrations service svcids => exact Or.inl (Option.filter_eq_some_iff.mp before).1
        | dbCleanup cutoff => exact Or.inl (Option.filter_eq_some_iff.mp before).1
      · exact Or.inr ⟨request, List.mem_cons_of_mem call member, same⟩

end Spns.Storage
