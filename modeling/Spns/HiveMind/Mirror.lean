import Spns.HiveMind.Renewals

/-!
# The memory mirrors the database

The database says who is notified, and the memory says what the service nodes
are asked to monitor.  The two are kept by different code: transactions on one
side, a map on the loop thread on the other, and a start fills the map from the
tables.  As long as requests come one at a time, whatever is stored is also held
in memory with a signature that is not older, except for signatures that the
last start found too old or too new to load.
-/

namespace Spns

open Spns.Hive
open Spns.Lib
open Spns.Lib.Unordered
open Spns.Storage

/-! ## What is stored -/

/-- What the memory should hold for a device. -/
def Storage.storedOffer (device : Device) (stored : Stored) : Offer where
  account := device.account
  subaccount :=
    match stored.data.subaccountTag, stored.data.subaccountSig with
    | some tag, some sig => some ⟨tag, sig⟩
    | _, _ => none
  namespaces := stored.namespaces
  wantData := stored.data.wantData
  sigTs := stored.data.signatureTs
  sig := stored.data.signature

theorem Storage.storedOffer_request (request : AddRequest) :
    storedOffer request.device request.stored = request.sub.offer request.pubkey.id := by
  rw [storedOffer, Subscription.offer]
  cases subaccount : request.sub.subaccount <;>
    simp [AddRequest.stored, AddRequest.data, AddRequest.device, subaccount]

namespace HiveMind

variable {env : Env}

/-- The device has this subscription stored. -/
def Stores (db : Database) (device : Device) (stored : Stored) : Prop :=
  db.tables.contents device = some stored

/-- Nothing is stored that was not stored before. -/
def Shrinks (before after : Database) : Prop :=
  ∀ device stored, Stores after device stored → Stores before device stored

theorem Shrinks.refl (db : Database) : Shrinks db db :=
  fun _ _ stores => stores

theorem shrinks_sweep {before after : Database} {doomed : Device → Stored → Bool}
    (swept : after.tables.contents =
      fun device => (Replay.Op.sweep doomed).act device (before.tables.contents device)) :
    Shrinks before after := by
  intro device stored stores
  rw [Stores, swept] at stores
  exact (Option.filter_eq_some_iff.mp stores).1

/-- Calls that add nothing. -/
theorem shrinks_call {db : Database} (sound : db.Sound) {call : Call}
    (deletes : ∀ request, call ≠ .addSubscription request) : Shrinks db (call.run db).1 := by
  have outcome := (call.run_outcome sound).2.1
  cases call with
  | addSubscription request => exact absurd rfl (deletes request)
  | removeSubscription device => exact shrinks_sweep outcome
  | dropRegistrations service svcids => exact shrinks_sweep outcome
  | dbCleanup cutoff => exact shrinks_sweep outcome

/-- A quiet event leaves the database alone, or is a call that adds nothing. -/
theorem quiet_db {hive after : HiveMind} {event : Event} (quiet : event.isQuiet = true)
    (taken : step env hive event = some after) :
    after.db = hive.db ∨ ∃ call : Call, (∀ request, call ≠ .addSubscription request) ∧
      after.db = (call.run hive.db).1 := by
  replace taken := handle_of_step taken
  cases event with
  | start => contradiction
  | addSubscription => contradiction
  | snsResponse => contradiction
  | removeSubscription now request =>
      rw [handle] at taken
      cases removed : hive.removeSubscription env now request with
      | error failure =>
          rw [removed] at taken
          cases taken
          exact Or.inl rfl
      | ok result =>
          rw [removed] at taken
          cases taken
          rw [removeSubscription] at removed
          split_ifs at removed
          split at removed
          · contradiction
          · cases removed
            exact Or.inr ⟨.removeSubscription _, fun _ other => by contradiction, rfl⟩
  | dropRegistrations service svcids =>
      cases taken
      exact Or.inr ⟨.dropRegistrations service svcids, fun _ other => by contradiction, rfl⟩
  | dbCleanup now =>
      cases taken
      exact Or.inr ⟨.dbCleanup _, fun _ other => by contradiction, rfl⟩
  | checkSubs moment =>
      cases taken
      exact Or.inl (KeepsAccounts.checkSubs env moment hive).db
  | checkMySubs moment ref =>
      cases taken
      exact Or.inl (KeepsAccounts.checkNodeSubs env moment ref hive).db
  | connect moment ref =>
      cases taken
      exact Or.inl (KeepsAccounts.connect env moment.steady ref hive).db
  | connectTo moment ref addr =>
      cases taken
      exact Or.inl (KeepsAccounts.connectTo env moment.steady ref addr hive).db
  | disconnect ref =>
      cases taken
      exact Or.inl (KeepsAccounts.disconnect ref hive).db
  | connected moment conn => exact Or.inl (KeepsAccounts.deliverConnected taken).db
  | disconnected moment conn => exact Or.inl (KeepsAccounts.deliverDisconnected taken).db

theorem Looped.db {moment : Moment} {reply : SnsReply} {hive committed updated : HiveMind}
    {listing : Map Ed25519PK SnDetails} {changed : List NodeRef}
    (looped : Looped env moment reply hive committed listing updated changed) :
    updated.db = hive.db := by
  have drops := (looped.indexed.dropNodes listing).2
  rw [looped.updating.db, drops.db, looped.commits.unchanged]

/-- Service node updates have no part in the database. -/
theorem onSnsResponse_db {hive : HiveMind} (sound : Sound hive) (env : Env) (moment : Moment)
    (data : SnsData) : (hive.onSnsResponse env moment data).1.db = hive.db := by
  cases data with
  | unexpectedParts => rfl
  | badStatus => rfl
  | invalidJson => rfl
  | badStates => rfl
  | reply reply =>
      have response := sound.indexed.response env moment reply
      generalize hive.onSnsResponse env moment (.reply reply) = result at response ⊢
      cases response with
      | refused what _ => rfl
      | unparsed committed what commits _ => rw [commits.unchanged]
      | interrupted committed listing updated changed what looped => exact looped.db
      | completed committed listing updated changed looped placed =>
          have pruned := (sound.of_looped looped).pruneSwarms
          have rechecked := pruned.tracked.recheck pruned.indexed env moment
          simp only
          split_ifs
          · exact rechecked.db.trans looped.db
          · exact looped.db

/-! ## The invariant -/

/-- The signature was too old or too new at some reading of the clock of the
last start. -/
def Skipped (clock : Option (Nat → SysTime)) (stored : Stored) : Prop :=
  ∃ readings ∈ clock, ∃ reading,
    stored.data.signatureTs ≤ floorSeconds (readings reading) - signatureExpiry + 5 ∨
      floorSeconds (readings reading) + signatureEarly ≤ stored.data.signatureTs

/-- The clock of the last start. -/
def lastClock (clock : Option (Nat → SysTime)) : Event → Option (Nat → SysTime)
  | .start _ _ readings => some readings
  | _ => clock

/-- Everything that is stored is held, except what the last start has skipped. -/
structure Mirrored (env : Env) (hive : HiveMind) (clock : Option (Nat → SysTime)) : Prop where
  written : Written env hive.db
  held : ∀ device stored, Stores hive.db device stored →
    Holds hive.subscribers (storedOffer device stored) ∨ Skipped clock stored

/-- Loading threads are started, and requests have been accepted by the request
handler. -/
def Proper (env : Env) : Event → Prop
  | .start _ threads _ => 1 ≤ threads
  | .addSubscription request => request.Accepted env
  | _ => True

variable {hive after : HiveMind} {clock : Option (Nat → SysTime)}

theorem Mirrored.of_shrinks (mirrored : Mirrored env hive clock) (written : Written env after.db)
    (shrinks : Shrinks hive.db after.db)
    (same : ∀ id, subscriptionsOf after.subscribers id = subscriptionsOf hive.subscribers id) :
    Mirrored env after clock := by
  refine ⟨written, fun device stored stores => ?_⟩
  rcases mirrored.held device stored (shrinks device stored stores) with held | skipped
  · left
    obtain ⟨sub, member, newer⟩ := held
    rw [← same] at member
    exact ⟨sub, member, newer⟩
  · exact Or.inr skipped

theorem Mirrored.addSubscription (mirrored : Mirrored env hive clock) {request : AddRequest}
    (accepted : request.Accepted env) :
    Mirrored env (hive.addSubscription request).1 clock := by
  constructor
  · rw [addSubscription_db]
    exact mirrored.written.addSubscription accepted
  · intro device stored stores
    obtain ⟨-, contents, -⟩ := Database.addSubscription_outcome mirrored.written.sound request
    rw [Stores, addSubscription_db, contents, Function.update_apply] at stores
    rw [addSubscription_subscribers]
    split_ifs at stores with here
    · left
      obtain rfl := Option.some.inj stores
      rw [here, storedOffer_request]
      exact holds_remember_self _ _ request.sub
    · rcases mirrored.held device stored stores with held | skipped
      · exact Or.inl (held.remember _ request.sub)
      · exact Or.inr skipped

/-- A start that succeeds holds every row that it does not skip. -/
theorem holds_or_skipped {db : Database} (written : Written env db) {threads : Nat}
    (started : 1 ≤ threads) {readings : Nat → SysTime} {subscribers : Subscribers}
    (loaded : loadSavedSubscriptions env db.tables threads readings = .ok subscribers) {row : Row}
    (member : row ∈ db.tables.subscriptions) :
    Holds subscribers (row.offer db.tables) ∨
      Skipped (some readings) ⟨row.data, db.tables.namespacesOf row.id⟩ := by
  obtain ⟨rows, collected, wellFormed, every⟩ := collectRows_written written started
  obtain ⟨final, ran, -, holds⟩ := loadLoop_holds env readings rows.length wellFormed ⟨∅, 0, 0, 0⟩
  rw [loadSavedSubscriptions] at loaded
  split_ifs at loaded
  simp only [collected, ran] at loaded
  cases loaded
  obtain ⟨copy, inside, offer⟩ := every row member
  rw [← offer]
  by_cases usable : ∀ reading, ¬outsideCutoff (floorSeconds (readings reading)) copy = true
  · exact Or.inl (holds copy inside usable)
  · right
    push Not at usable
    obtain ⟨reading, outside⟩ := usable
    have sigTs : copy.sigTs = row.data.signatureTs := congrArg Offer.sigTs offer
    rw [outsideCutoff, sigTs, Bool.or_eq_true, decide_eq_true_eq, decide_eq_true_eq] at outside
    exact ⟨readings, rfl, reading, outside⟩

theorem Mirrored.start (mirrored : Mirrored env hive clock) {now : SysTime} {threads : Nat}
    {readings : Nat → SysTime} (started : 1 ≤ threads)
    (launched : HiveMind.start env now threads readings hive.db = .ok after) :
    Mirrored env after (some readings) := by
  have written : Written env (dbCleanup now hive.db) :=
    mirrored.written.run (.dbCleanup _) fun _ other => by contradiction
  unfold HiveMind.start at launched
  simp only at launched
  split at launched
  · contradiction
  · rename_i subscribers loaded
    cases launched
    refine ⟨written, fun device stored stores => ?_⟩
    obtain ⟨row, found, rfl⟩ := Option.map_eq_some_iff.mp stores
    obtain ⟨member, rfl⟩ := written.sound.valid.rowAt_eq_some_iff.mp found
    exact holds_or_skipped written started loaded member

/-- What one event keeps. -/
theorem Mirrored.step {event : Event} (mirrored : Mirrored env hive clock) (sound : Sound hive)
    (taken : HiveMind.step env hive event = some after) (proper : Proper env event) :
    Mirrored env after (lastClock clock event) := by
  rcases step_cases taken with ⟨now, threads, readings, rfl, launched⟩ | ⟨request, rfl, rfl⟩ |
    ⟨moment, data, rfl, rfl⟩ | ⟨quiet, keeps⟩
  · exact mirrored.start proper launched
  · exact mirrored.addSubscription proper
  · have db := onSnsResponse_db sound env moment data
    refine mirrored.of_shrinks (db.symm ▸ mirrored.written) ?_
      (sound.onSnsResponse_subscriptionsOf env moment data)
    rw [db]
    exact Shrinks.refl _
  · have unread : lastClock clock event = clock := by
      cases event with
      | start now threads readings => contradiction
      | _ => rfl
    have same : ∀ id, subscriptionsOf after.subscribers id = subscriptionsOf hive.subscribers id :=
      fun id => congrArg (subscriptionsOf · id) keeps.subscribers
    rw [unread]
    rcases quiet_db quiet taken with db | ⟨call, deletes, db⟩
    · exact mirrored.of_shrinks (db.symm ▸ mirrored.written) (db.symm ▸ Shrinks.refl _) same
    · refine mirrored.of_shrinks ?_ ?_ same
      · rw [db]
        exact mirrored.written.run call fun request equal => absurd equal (deletes request)
      · rw [db]
        exact shrinks_call mirrored.written.sound deletes

theorem mirrored_initial (env : Env) : Mirrored env initial none where
  written := ⟨⟨[], fun _ member => absurd member List.not_mem_nil, rfl⟩⟩
  held device stored stores := by
    have empty : initial.db.tables.contents device = none := rfl
    rw [Stores, empty] at stores
    contradiction

/-- What a run keeps. -/
theorem Mirrored.exec {events : List Event} (mirrored : Mirrored env hive clock)
    (sound : Sound hive) (run : Run.exec (HiveMind.step env) hive events = some after)
    (proper : ∀ event ∈ events, Proper env event) :
    Mirrored env after (events.foldl lastClock clock) := by
  induction events generalizing hive clock with
  | nil =>
      obtain rfl : hive = after := Option.some.inj run
      exact mirrored
  | cons event events ih =>
      obtain ⟨next, taken, rest⟩ := (Run.exec_cons_eq_some_iff _ _ _ _ _).mp run
      obtain ⟨first, others⟩ := List.forall_mem_cons.mp proper
      exact ih (mirrored.step sound taken first) (sound.step taken) rest others

/-! ## Results -/

/-- After any requests, one at a time, cleanups, service node updates,
connections and restarts, the memory has an entry for every stored subscription,
for the same subaccount, namespaces and data, with a signature at least as new,
unless the signature of the row was outside the window when the server was last
started. -/
theorem stored_subscriptions_held (env : Env) {events : List Event} {hive : HiveMind}
    (run : Run.exec (step env) initial events = some hive)
    (proper : ∀ event ∈ events, Proper env event) :
    ∀ row ∈ hive.db.tables.subscriptions,
      (∃ sub ∈ subscriptionsOf hive.subscribers row.device.account,
        sub.subaccount.map Subaccount.tag = row.data.subaccountTag ∧
        sub.namespaces = hive.db.tables.namespacesOf row.id ∧
        sub.wantData = row.data.wantData ∧ row.data.signatureTs ≤ sub.sigTs) ∨
      ∃ readings ∈ events.foldl lastClock none, ∃ reading,
        ¬Loadable (floorSeconds (readings reading)) row := by
  intro row member
  have mirrored := (mirrored_initial env).exec sound_initial run proper
  have stores := mirrored.written.sound.valid.contents_eq_some member
  rcases mirrored.held row.device _ stores with held | ⟨readings, last, reading, outside⟩
  · exact Or.inl (exists_of_holds mirrored.written member held)
  · right
    refine ⟨readings, last, reading, fun inside => ?_⟩
    rcases outside with old | early
    · exact Int.not_lt.mpr old inside.1
    · exact Int.not_lt.mpr early inside.2

/-- One device subscribes, the server is restarted, and another one follows. -/
def restartedRun : List Event :=
  [.addSubscription (deviceRequest 1), .start (1700000002 * second) 1 fun _ => 1700000002 * second,
    .addSubscription (deviceRequest 2)]

theorem restartedRun_proper : ∀ event ∈ restartedRun, Proper Sample.env event := by
  intro event member
  simp only [restartedRun, List.mem_cons, List.not_mem_nil, or_false] at member
  rcases member with rfl | rfl | rfl
  · exact deviceRequest_accepted 1
  · exact Nat.le_refl 1
  · exact deviceRequest_accepted 2

theorem restartedRun_held :
    ∃ hive, Run.exec (step Sample.env) initial restartedRun = some hive ∧
      hive.db.tables.subscriptions.length = 2 ∧
      ∀ row ∈ hive.db.tables.subscriptions,
        (∃ sub ∈ subscriptionsOf hive.subscribers row.device.account,
          sub.subaccount.map Subaccount.tag = row.data.subaccountTag ∧
          sub.namespaces = hive.db.tables.namespacesOf row.id ∧
          sub.wantData = row.data.wantData ∧ row.data.signatureTs ≤ sub.sigTs) ∨
        ∃ readings ∈ restartedRun.foldl lastClock none, ∃ reading,
          ¬Loadable (floorSeconds (readings reading)) row := by
  obtain ⟨hive, run, stored⟩ : ∃ hive, Run.exec (step Sample.env) initial restartedRun = some hive ∧
      hive.db.tables.subscriptions.length = 2 :=
    ⟨_, rfl, by decide +kernel⟩
  exact ⟨hive, run, stored, stored_subscriptions_held Sample.env run restartedRun_proper⟩

end HiveMind

end Spns
