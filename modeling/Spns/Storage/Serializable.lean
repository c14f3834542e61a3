import Spns.Storage.Execution

/-!
# Serializability of the transactions

The invariant of every interleaving: the transactions in progress are in their
stages and out of each other's way, and the committed transactions, in some
order, replay to the committed contents.  A transaction that stores a
subscription goes to the end of that order when it commits.  A delete goes in
front of the requests whose subscriptions it has missed, and an update that
found its row gone goes in front of the delete that removed it.

The decision of `add_subscription` not to rewrite the namespaces is taken from
a query that locks nothing.  If the row has changed by the time it is updated,
no serial order explains what is stored.
-/

namespace Spns.Storage

open Spns
open Spns.Hive
open Spns.Lib
open Spns.Lib.Replay
open Spns.Lib.Unordered

/-! ## The order of the committed transactions -/

/-- The record of a committed transaction agrees with what it found. -/
structure Accurate (entry : Entry Committed Device) : Prop where
  result : entry.label.result = entry.label.call.resultOf entry.found
  deleted : ∀ row ∈ entry.label.deleted, entry.found row.device = true

/-- The committed transactions replay, in some order, to the contents. -/
def Explained (history : List Committed) (contents : Device → Option Stored) : Prop :=
  ∃ log : List (Entry Committed Device), (log.map Entry.label).Perm history ∧
    Replays Committed.op (fun _ => none) log contents ∧ ∀ entry ∈ log, Accurate entry

namespace Explained

variable {history : List Committed} {contents : Device → Option Stored}

/-- Add the entry of a transaction that has just been committed. -/
theorem of_perm (entry : Entry Committed Device) {log order : List (Entry Committed Device)}
    {after : Device → Option Stored} (recorded : (log.map Entry.label).Perm history)
    (accurate : ∀ old ∈ log, Accurate old) (perm : order.Perm (entry :: log))
    (replays : Replays Committed.op (fun _ => none) order after) (own : Accurate entry) :
    Explained (history ++ [entry.label]) after := by
  refine ⟨order, ?_, replays, ?_⟩
  · have labels := (perm.map Entry.label).trans (recorded.cons entry.label)
    exact labels.trans (List.perm_append_singleton entry.label history).symm
  · intro old member
    rcases List.mem_cons.mp (perm.subset member) with rfl | before
    · exact own
    · exact accurate old before

/-- A stored request goes to the end. -/
theorem put (explained : Explained history contents) (request : AddRequest) :
    Explained
      (history ++ [⟨.addSubscription request, .added (contents request.device).isNone, []⟩])
      (Function.update contents request.device (some request.stored)) := by
  obtain ⟨log, recorded, replays, accurate⟩ := explained
  let entry : Entry Committed Device :=
    ⟨⟨.addSubscription request, .added (contents request.device).isNone, []⟩,
      fun key => (Op.put request.device request.stored).finds key (contents key)⟩
  have stored : Function.update contents request.device (some request.stored) =
      fun key => (Committed.op entry.label).act key (contents key) := by
    funext key
    simp [entry, Committed.op, Call.op, Op.act, Function.update_apply]
  rw [stored]
  apply of_perm entry recorded accurate (List.perm_append_singleton entry log)
  · exact replays.concat entry fun _ => rfl
  · constructor
    · simp [entry, Call.resultOf]
    · exact fun _ member => absurd member List.not_mem_nil

/-- A request whose row was deleted goes in front of that delete. -/
theorem superseded (explained : Explained history contents) {request : AddRequest}
    {done : Committed} (member : done ∈ history)
    (hit : ∃ row ∈ done.deleted, row.device = request.device)
    (deletes : done.call.deletes request.device request.stored = true) :
    Explained (history ++ [⟨.addSubscription request, .added false, []⟩]) contents := by
  obtain ⟨log, recorded, replays, accurate⟩ := explained
  obtain ⟨sweeper, inLog, rfl⟩ := List.mem_map.mp (recorded.mem_iff.mpr member)
  obtain ⟨before, after, rfl⟩ := List.append_of_mem inLog
  obtain ⟨row, deleted, device⟩ := hit
  have found : sweeper.found request.device = true :=
    device ▸ (accurate sweeper inLog).deleted row deleted
  rw [Call.deletes] at deletes
  split at deletes
  · rename_i doomed sweeps
    apply of_perm ⟨⟨.addSubscription request, .added false, []⟩, fun key =>
      decide (key = request.device)⟩ recorded accurate List.perm_middle
    · exact replays.insert_put sweeps found _ rfl deletes
    · constructor
      · simp [Call.resultOf]
      · exact fun _ member => absurd member List.not_mem_nil
  · contradiction

/-- A delete goes in front of the requests that it has missed. -/
theorem sweep (explained : Explained history contents) {done : Committed}
    {doomed : Device → Stored → Bool} (sweeps : done.call.op = .sweep doomed)
    (present : ∀ row ∈ done.deleted, ∃ stored, contents row.device = some stored ∧
      doomed row.device stored = true)
    (result : done.result =
      done.call.resultOf fun device => decide (device ∈ done.deleted.map Row.device)) :
    Explained (history ++ [done])
      (fun device => if device ∈ done.deleted.map Row.device then none else contents device) := by
  obtain ⟨log, recorded, replays, accurate⟩ := explained
  let entry : Entry Committed Device :=
    ⟨done, fun device => decide (device ∈ done.deleted.map Row.device)⟩
  obtain ⟨order, perm, reordered⟩ := replays.sweep entry sweeps fun device found => by
    obtain ⟨row, member, rfl⟩ := List.mem_map.mp (of_decide_eq_true found)
    exact present row member
  apply of_perm entry recorded accurate perm
  · simpa [entry] using reordered
  · exact ⟨result, fun row member => decide_eq_true (List.mem_map_of_mem member)⟩

end Explained

/-! ## The invariant -/

/-- The row ids that a transaction knows of have been given out. -/
structure Transaction.Below (nextId : Nat) (txn : Transaction) : Prop where
  rows : ∀ id, txn.locks id = true → id < nextId
  names : ∀ statement ∈ txn.todo, ∀ id, statement.mentions id = true → id < nextId

namespace Sessions

/-- The invariant of all interleavings. -/
structure Inv (sessions : Sessions) : Prop where
  sound : sessions.db.Sound
  stage : ∀ conn txn, sessions.active.lookup conn = some txn →
    Stage sessions.db.tables sessions.history txn
  below : ∀ conn txn, sessions.active.lookup conn = some txn → txn.Below sessions.db.nextId
  apart : ∀ conn txn other otherTxn, conn ≠ other → sessions.active.lookup conn = some txn →
    sessions.active.lookup other = some otherTxn → txn.Apart otherTxn
  explained : Explained sessions.history sessions.db.tables.contents

theorem inv_initial : initial.Inv where
  sound := Database.empty_sound
  stage := fun _ _ found => by cases found
  below := fun _ _ found => by cases found
  apart := fun _ _ _ _ _ found => by cases found
  explained := ⟨[], List.Perm.nil, fun _ => rfl, fun _ member => absurd member List.not_mem_nil⟩

theorem start_mentions (call : Call) :
    ∀ statement ∈ (Transaction.start call).todo, ∀ id, statement.mentions id = false := by
  intro statement member id
  cases call with
  | addSubscription request =>
      cases List.mem_singleton.mp member
      rfl
  | removeSubscription device =>
      cases List.mem_singleton.mp member
      rfl
  | dropRegistrations service svcids =>
      obtain ⟨svcid, _, rfl⟩ := List.mem_map.mp member
      rfl
  | dbCleanup cutoff =>
      cases List.mem_singleton.mp member
      rfl

variable {sessions : Sessions}

theorem mem_others {conn : Nat} {txn : Transaction} :
    txn ∈ sessions.others conn ↔
      ∃ other, other ≠ conn ∧ sessions.active.lookup other = some txn := by
  simp only [others, List.mem_map, List.mem_filter, decide_eq_true_eq]
  constructor
  · rintro ⟨⟨other, found⟩, ⟨member, elsewhere⟩, rfl⟩
    exact ⟨other, elsewhere, (Map.mem_entries_iff_lookup _ _ _).mp member⟩
  · rintro ⟨other, elsewhere, found⟩
    exact ⟨⟨other, txn⟩, ⟨(Map.mem_entries_iff_lookup _ _ _).mpr found, elsewhere⟩, rfl⟩

theorem locks_of_unlocked {conn id : Nat} (unlocked : sessions.lockedByOthers conn id = false)
    {other : Nat} {txn : Transaction} (elsewhere : other ≠ conn)
    (found : sessions.active.lookup other = some txn) : txn.locks id = false := by
  have free := List.any_eq_false.mp unlocked txn (mem_others.mpr ⟨other, elsewhere, found⟩)
  rwa [Bool.not_eq_true] at free

theorem claims_of_unclaimed {conn : Nat} {device : Device}
    (unclaimed : sessions.claimedByOthers conn device = false) {other : Nat} {txn : Transaction}
    (elsewhere : other ≠ conn) (found : sessions.active.lookup other = some txn) :
    txn.claims device = false := by
  have free := List.any_eq_false.mp unclaimed txn (mem_others.mpr ⟨other, elsewhere, found⟩)
  rwa [Bool.not_eq_true] at free

/-- A transaction that enters a connection, or goes on there. -/
theorem Inv.insert (inv : sessions.Inv) (conn : Nat) {txn : Transaction} {nextId : Nat}
    (stage : Stage sessions.db.tables sessions.history txn) (below : txn.Below nextId)
    (ahead : sessions.db.nextId ≤ nextId)
    (apart : ∀ other otherTxn, other ≠ conn → sessions.active.lookup other = some otherTxn →
      txn.Apart otherTxn ∧ otherTxn.Apart txn) :
    Inv
      { sessions with
        db := { sessions.db with nextId := nextId }
        active := sessions.active.insert conn txn } := by
  have later : ∀ otherTxn : Transaction, otherTxn.Below sessions.db.nextId →
      otherTxn.Below nextId := fun _ before =>
    ⟨fun id locked => (before.rows id locked).trans_le ahead,
      fun statement member id mentions => (before.names statement member id mentions).trans_le ahead⟩
  refine ⟨⟨inv.sound.valid, ?_⟩, ?_, ?_, ?_, inv.explained⟩
  · exact fun row member => (inv.sound.bound row member).trans_le ahead
  · intro other otherTxn found
    rw [Map.lookup_insert_eq] at found
    split_ifs at found with here
    · cases found
      exact stage
    · exact inv.stage other otherTxn found
  · intro other otherTxn found
    rw [Map.lookup_insert_eq] at found
    split_ifs at found with here
    · cases found
      exact below
    · exact later otherTxn (inv.below other otherTxn found)
  · intro first firstTxn second secondTxn different firstFound secondFound
    rw [Map.lookup_insert_eq] at firstFound secondFound
    split_ifs at firstFound with firstHere
    · cases firstFound
      rw [if_neg (firstHere ▸ different.symm)] at secondFound
      exact (apart second secondTxn (firstHere ▸ different.symm) secondFound).1
    · split_ifs at secondFound with secondHere
      · cases secondFound
        exact (apart first firstTxn firstHere firstFound).2
      · exact inv.apart first firstTxn second secondTxn different firstFound secondFound

/-- A transaction that ends without effect. -/
theorem Inv.erase (inv : sessions.Inv) (conn : Nat) :
    Inv { sessions with active := sessions.active.erase conn } := by
  have before : ∀ other txn, (sessions.active.erase conn).lookup other = some txn →
      sessions.active.lookup other = some txn := by
    intro other txn found
    rw [Map.lookup_erase_eq] at found
    split_ifs at found
    exact found
  refine ⟨inv.sound, ?_, ?_, ?_, inv.explained⟩
  · exact fun other txn found => inv.stage other txn (before other txn found)
  · exact fun other txn found => inv.below other txn (before other txn found)
  · intro first firstTxn second secondTxn different firstFound secondFound
    exact inv.apart first firstTxn second secondTxn different (before _ _ firstFound)
      (before _ _ secondFound)

/-- A statement keeps its transaction away from the others. -/
theorem Inv.apart_of_moves (inv : sessions.Inv) {conn other nextId : Nat}
    {txn after otherTxn : Transaction} (found : sessions.active.lookup conn = some txn)
    (moves : sessions.Moves conn txn after nextId) (elsewhere : other ≠ conn)
    (otherFound : sessions.active.lookup other = some otherTxn) :
    after.Apart otherTxn ∧ otherTxn.Apart after := by
  have apart := inv.apart conn txn other otherTxn elsewhere.symm found otherFound
  have back := inv.apart other otherTxn conn txn elsewhere otherFound found
  have below := inv.below other otherTxn otherFound
  have stage := inv.stage other otherTxn otherFound
  have rows : ∀ id, after.locks id = true → otherTxn.locks id = false := by
    intro id locked
    rcases moves.rows id locked with old | ⟨unlocked, _⟩ | ⟨fresh, _⟩
    · exact apart.rows id old
    · exact locks_of_unlocked unlocked elsewhere otherFound
    · by_contra taken
      rw [Bool.not_eq_false] at taken
      exact absurd (below.rows id taken) (by omega)
  have devices : ∀ device, after.claims device = true → otherTxn.claims device = false := by
    intro device claimed
    rcases moves.devices device claimed with old | unclaimed
    · exact apart.devices device old
    · exact claims_of_unclaimed unclaimed elsewhere otherFound
  constructor
  · refine ⟨rows, devices, ?_⟩
    intro statement member row inserted
    by_contra mentions
    rw [Bool.not_eq_false] at mentions
    rcases moves.names statement member row.id mentions with ⟨old, planned, named⟩ |
      ⟨present, inTables, same⟩ | ⟨fresh, _⟩
    · rw [apart.names old planned row inserted] at named
      contradiction
    · exact (stage.inserted_absent inserted present inTables).1 same
    · exact absurd (below.rows row.id (stage.locks_of_mem inserted)) (by omega)
  · constructor
    · intro id locked
      by_contra taken
      rw [Bool.not_eq_false] at taken
      rw [rows id taken] at locked
      contradiction
    · intro device claimed
      by_contra taken
      rw [Bool.not_eq_false] at taken
      rw [devices device taken] at claimed
      contradiction
    · intro statement member row inserted
      rcases moves.inserted row inserted with old | fresh
      · exact back.names statement member row old
      · by_contra mentions
        rw [Bool.not_eq_false] at mentions
        exact absurd (below.names statement member row.id mentions) (by omega)

theorem Inv.below_of_moves (inv : sessions.Inv) {conn nextId : Nat} {txn after : Transaction}
    (found : sessions.active.lookup conn = some txn)
    (moves : sessions.Moves conn txn after nextId) : after.Below nextId := by
  have below := inv.below conn txn found
  constructor
  · intro id locked
    rcases moves.rows id locked with old | ⟨_, row, member, rfl⟩ | ⟨_, next⟩
    · exact (below.rows id old).trans_le moves.ahead
    · exact (inv.sound.bound row member).trans_le moves.ahead
    · omega
  · intro statement member id mentions
    rcases moves.names statement member id mentions with ⟨old, planned, named⟩ |
      ⟨row, inTables, rfl⟩ | ⟨_, next⟩
    · exact (below.names old planned id named).trans_le moves.ahead
    · exact (inv.sound.bound row inTables).trans_le moves.ahead
    · omega

/-! ## Commits -/

/-- What a commit stores and how it is explained. -/
theorem Inv.commit_explained (inv : sessions.Inv) {conn : Nat} {txn : Transaction}
    (found : sessions.active.lookup conn = some txn) (finished : txn.todo = []) :
    Database.Sound { sessions.db with tables := sessions.view txn } ∧
      Explained (sessions.history ++ [txn.finish]) (sessions.view txn).contents := by
  have below := inv.below conn txn found
  cases inv.stage conn txn found with
  | reading request => contradiction
  | found request id rest rewrites owner => contradiction
  | inserting request => contradiction
  | writing request id todo writes newSub written progress =>
      have namespaces : ((sessions.db.tables.slot id).applyAll writes).namespacesOf id =
          request.sub.namespaces := by
        cases progress with
        | same kept => exact kept
        | rewrite => contradiction
        | insert done rest all inserted =>
            cases rest with
            | cons ns rest => contradiction
            | nil =>
                rw [List.append_nil] at all
                rw [Tables.namespacesOf, inserted, ← all]
                exact Tables.namespacesOf_pairs [] id request.sub.sorted
      obtain ⟨sound, stored⟩ := inv.sound.store written.single written.row namespaces
        written.owner (Nat.le_refl _) (below.rows id written.locked)
      constructor
      · exact sound
      · have isNew : (sessions.db.tables.contents request.device).isNone = newSub := by
          rw [Bool.eq_iff_iff, written.isNew, Option.isNone_iff_eq_none,
            Tables.contents_eq_none_iff]
          exact forall₂_congr fun old member => not_congr (written.owner old member).symm
        have explained := inv.explained.put request
        rw [isNew, ← stored] at explained
        exact explained
  | lost request id todo stuck gone =>
      rcases stuck with rfl | rfl
      · contradiction
      · exact absurd (List.map_eq_nil_iff.mp finished) request.sub.nonempty
  | superseded request done member hit deletes =>
      exact ⟨inv.sound, inv.explained.superseded member hit deletes⟩
  | deleting call todo deleted doomed sweeps conditions present =>
      obtain ⟨sound, cleared⟩ := inv.sound.deleted fun row member => (present row member).1
      refine ⟨sound, ?_⟩
      refine cleared ▸ inv.explained.sweep sweeps ?_ ?_
      · intro row member
        obtain ⟨stored, dooms⟩ := present row member
        exact ⟨_, inv.sound.valid.contents_eq_some stored, dooms⟩
      · cases call with
        | addSubscription request => contradiction
        | removeSubscription device =>
            cases sweeps
            cases deleted with
            | nil => rfl
            | cons row rows =>
                have here : row.device = device :=
                  of_decide_eq_true (present row List.mem_cons_self).2
                simp [Transaction.finish, Transaction.result, Call.resultOf, here]
        | dropRegistrations service svcids => rfl
        | dbCleanup cutoff => rfl

theorem Inv.commit (inv : sessions.Inv) {conn : Nat} {txn : Transaction}
    (found : sessions.active.lookup conn = some txn) (finished : txn.todo = []) :
    Inv
      { db := { sessions.db with tables := sessions.view txn }
        active := sessions.active.erase conn
        history := sessions.history ++ [txn.finish] } := by
  have stage := inv.stage conn txn found
  have before : ∀ other otherTxn, (sessions.active.erase conn).lookup other = some otherTxn →
      other ≠ conn ∧ sessions.active.lookup other = some otherTxn := by
    intro other otherTxn otherFound
    rw [Map.lookup_erase_eq] at otherFound
    split_ifs at otherFound with here
    exact ⟨here, otherFound⟩
  obtain ⟨sound, explained⟩ := inv.commit_explained found finished
  refine ⟨sound, ?_, ?_, ?_, explained⟩
  · intro other otherTxn otherFound
    obtain ⟨elsewhere, was⟩ := before other otherTxn otherFound
    exact (inv.stage other otherTxn was).after stage
      (inv.apart other otherTxn conn txn elsewhere was found)
  · exact fun other otherTxn otherFound =>
      inv.below other otherTxn (before other otherTxn otherFound).2
  · intro first firstTxn second secondTxn different firstFound secondFound
    exact inv.apart first firstTxn second secondTxn different (before _ _ firstFound).2
      (before _ _ secondFound).2

/-! ## Runs -/

/-- An update that rewrites no namespaces finds its row with the namespaces of
the request, or finds it deleted by a transaction that would have deleted the
updated row as well. -/
def Undisturbed (sessions : Sessions) : Event → Prop
  | .execute conn =>
      ∀ txn id request, sessions.active.lookup conn = some txn →
        txn.todo = [.updateRow id request] →
          StillThere sessions.db.tables id request ∨
            DeletedFor sessions.db.tables sessions.history id request
  | _ => True

theorem Inv.step {next : Sessions} {event : Event} (inv : sessions.Inv)
    (taken : step sessions event = some next) (undisturbed : sessions.Undisturbed event) :
    next.Inv := by
  cases event with
  | start conn call =>
      simp only [Sessions.step] at taken
      split at taken
      · contradiction
      · cases taken
        apply inv.insert conn (Stage.start _ _ call) _ (Nat.le_refl _)
        · intro other otherTxn _ _
          constructor
          · refine ⟨fun _ locked => absurd locked Bool.false_ne_true,
              fun _ claimed => absurd claimed Bool.false_ne_true, ?_⟩
            intro statement member row _
            exact start_mentions call statement member row.id
          · refine ⟨fun _ _ => rfl, fun _ _ => rfl, ?_⟩
            intro _ _ row inserted
            contradiction
        · constructor
          · exact fun _ locked => absurd locked Bool.false_ne_true
          · intro statement member id mentions
            rw [start_mentions call statement member id] at mentions
            contradiction
  | execute conn =>
      simp only [Sessions.step] at taken
      split at taken
      · contradiction
      · rename_i txn found
        split at taken
        · contradiction
        · rename_i statement rest planned
          split at taken
          · contradiction
          · cases taken
            exact inv.erase conn
          · rename_i after nextId ran
            cases taken
            obtain ⟨stage, moves⟩ := execute_stage inv.sound (inv.stage conn txn found) planned
              (fun id request only => undisturbed txn id request found only) ran
            exact inv.insert conn stage (inv.below_of_moves found moves) moves.ahead
              fun other otherTxn elsewhere otherFound =>
                inv.apart_of_moves found moves elsewhere otherFound
  | commit conn =>
      simp only [Sessions.step] at taken
      split at taken
      · contradiction
      · rename_i txn found
        split at taken
        · rename_i finished
          cases taken
          exact inv.commit found finished
        · contradiction
  | abort conn =>
      simp only [Sessions.step] at taken
      split at taken
      · contradiction
      · cases taken
        exact inv.erase conn

theorem Inv.serializable (inv : sessions.Inv) : sessions.Serializable := by
  obtain ⟨log, recorded, replays, accurate⟩ := inv.explained
  obtain ⟨contents, results⟩ := serial_of_replays Database.empty_sound replays
    fun entry member => (accurate entry member).result
  refine ⟨log.map Entry.label, recorded, ?_, ?_⟩
  · rw [List.map_map]
    exact contents
  · rw [List.map_map, List.map_map]
    exact results

/-- Every interleaving in which no update without a rewrite is disturbed is
serializable, at each of its states. -/
theorem always_serializable (events : List Event)
    (undisturbed : Run.EveryStep step (fun sessions event _ => sessions.Undisturbed event) initial
      events) : Run.Always step Serializable initial events := by
  constructor
  · exact inv_initial.serializable
  · apply Run.EveryStep.of_guard Inv _ inv_initial _ undisturbed
    intro sessions event next inv taken met
    have kept := inv.step taken met
    exact ⟨kept, kept.serializable⟩

/-! ## Concrete interleavings -/

/-- A request of one device for one namespace. -/
def request (ns sigTs : Int) : AddRequest where
  pubkey := ⟨FixedBytes.replicate 33 3, FixedBytes.replicate 32 3, false, invalidSwarmId⟩
  service := [102]
  serviceId := List.replicate 32 1
  serviceData := none
  encKey := FixedBytes.replicate 32 2
  sub := Subscription.single ns sigTs (FixedBytes.replicate 64 7)

/-- The statements of a first subscription. -/
def subscribing : List Event :=
  [.start 0 (.addSubscription (request 0 100)), .execute 0, .execute 0, .execute 0, .commit 0]

/-- A cleanup between the query and the update of a renewal. -/
def cleaningRun : List Event :=
  subscribing ++
    [.start 1 (.addSubscription (request 0 200)), .execute 1, .start 2 (.dbCleanup 50),
      .execute 2, .execute 1, .commit 1, .commit 2]

/-- The test of `Undisturbed` on a concrete run. -/
def undisturbed (sessions : Sessions) : Event → Bool
  | .execute conn =>
      match sessions.active.lookup conn with
      | none => true
      | some txn =>
          match txn.todo with
          | [.updateRow id request] =>
              (sessions.db.tables.subscriptions.any fun row => row.id = id) &&
                sessions.db.tables.namespacesOf id == request.sub.namespaces
          | _ => true
  | _ => true

theorem undisturbed_sound (sessions : Sessions) (event : Event)
    (tested : undisturbed sessions event = true) : sessions.Undisturbed event := by
  cases event with
  | execute conn =>
      intro txn id request found planned
      simp only [undisturbed, found, planned, Bool.and_eq_true, List.any_eq_true,
        decide_eq_true_eq, beq_iff_eq] at tested
      exact Or.inl tested
  | _ => trivial

theorem cleaningRun_serializable :
    ∃ sessions, Run.exec step initial cleaningRun = some sessions ∧
      sessions.history.length = 3 ∧ sessions.Serializable := by
  have three : (Run.exec step initial cleaningRun).map (fun sessions => sessions.history.length) =
      some 3 := by decide +kernel
  obtain ⟨sessions, run, count⟩ := Option.map_eq_some_iff.mp three
  refine ⟨sessions, run, count, (always_serializable cleaningRun ?_).of_exec run⟩
  exact Run.EveryStep.of_testSteps undisturbed undisturbed_sound (by decide +kernel)

/-- A request for another namespace between the query and the update of a
renewal. -/
def rewritingRun : List Event :=
  subscribing ++
    [.start 1 (.addSubscription (request 0 200)), .execute 1,
      .start 2 (.addSubscription (request 1 150)), .execute 2, .execute 2, .execute 2, .execute 2,
      .commit 2, .execute 1, .commit 1]

/-- What a committed transaction was asked to store. -/
def asked (done : Committed) : Option Stored :=
  match done.call with
  | .addSubscription request => some request.stored
  | _ => none

/-- The renewal's signature ends up with the namespaces of the other request. -/
theorem rewritingRun_not_serializable :
    ∃ sessions, Run.exec step initial rewritingRun = some sessions ∧
      ¬ sessions.Serializable := by
  have seen : (Run.exec step initial rewritingRun).map (fun sessions =>
      (sessions.db.tables.contents (request 0 200).device, sessions.history.map asked)) =
      some (some ⟨(request 0 200).data, [1]⟩, [some (request 0 100).stored,
        some (request 1 150).stored, some (request 0 200).stored]) := by decide +kernel
  obtain ⟨sessions, run, both⟩ := Option.map_eq_some_iff.mp seen
  obtain ⟨stored, requests⟩ := Prod.mk.inj both
  refine ⟨sessions, run, ?_⟩
  rintro ⟨order, perm, contents, _⟩
  rw [← contents] at stored
  rcases contents_serial Database.empty_sound stored with before | ⟨source, member, _, equal⟩
  · contradiction
  · obtain ⟨done, inOrder, called⟩ := List.mem_map.mp member
    have wanted : asked done = some ⟨(request 0 200).data, [1]⟩ := by
      simp only [asked, called, equal]
    have listed : asked done ∈ sessions.history.map asked :=
      List.mem_map_of_mem (perm.subset inOrder)
    rw [requests, wanted] at listed
    exact absurd listed (by decide +kernel)

end Sessions

end Spns.Storage
