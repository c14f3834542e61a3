import Spns.HiveMind.Invariants

/-!
# Monitoring coverage

Every account of `subscribers_` should be monitored by every node of its
swarm.  Service node updates that run to completion restore this by a full
recheck.  `add_subscription` forces the account onto the nodes of its swarm
only when the database had no row for the device; a row that start-up found
too close to its expiry to load stays in the database although its account is
unknown in memory.
-/

namespace Spns.HiveMind

open Spns.Hive
open Spns.Lib
open Spns.Lib.Unordered
open Spns.Storage

/-! ## Service node updates -/

theorem Covered.of_commits {reply : SnsReply} {hive committed : HiveMind} (covered : Covered hive)
    (commits : Commits reply hive committed) (same : committed.swarmIds = hive.swarmIds) :
    Covered committed := by
  rw [commits.unchanged, same]
  exact ⟨covered.cached, covered.monitored⟩

theorem Covered.of_looped {env : Env} {moment : Moment} {reply : SnsReply}
    {hive committed updated : HiveMind} {listing : Map Ed25519PK SnDetails}
    {changed : List NodeRef} (covered : Covered hive)
    (looped : Looped env moment reply hive committed listing updated changed)
    (calm : hive.disturbs env moment (.reply reply) = false) : Covered updated := by
  have quiet := mt looped.disturbs_iff.mpr (Bool.eq_false_iff.mp calm)
  rw [not_or, not_not, not_not] at quiet
  obtain ⟨sameIds, idle⟩ := quiet
  have drops := (looped.indexed.dropNodes listing).2
  have dropped := (covered.of_commits looped.commits sameIds).of_keepsMembers drops.toKeepsMembers
    fun swarm ref member => drops.subset member
  have keeps := looped.updating.idle idle
  refine dropped.of_keepsMembers keeps.toKeepsMembers fun swarm ref member => ?_
  rwa [keeps.swarmNodes] at member

theorem Covered.pruneSwarms {hive : HiveMind} (covered : Covered hive) :
    Covered hive.pruneSwarms := by
  refine covered.of_keepsMembers (keepsMembers_pruneSwarms hive) fun swarm ref member => ?_
  rwa [swarmNodes_pruneSwarms] at member

/-- A call that makes no recheck due keeps coverage, however it ends. -/
theorem Covered.of_calm {hive : HiveMind} (covered : Covered hive) (sound : Sound hive) (env : Env)
    (moment : Moment) (data : SnsData) (calm : hive.disturbs env moment data = false) :
    Covered (hive.onSnsResponse env moment data).1 := by
  cases data with
  | unexpectedParts => exact covered
  | badStatus => exact covered
  | invalidJson => exact covered
  | badStates => exact covered
  | reply reply =>
      have response := sound.indexed.response env moment reply
      generalize hive.onSnsResponse env moment (.reply reply) = result at response ⊢
      cases response with
      | refused what _ => exact covered
      | unparsed committed what commits disturbs_iff =>
          have same := mt disturbs_iff.mpr (Bool.eq_false_iff.mp calm)
          exact covered.of_commits commits (not_not.mp same)
      | interrupted committed listing updated changed what looped =>
          exact covered.of_looped looped calm
      | completed committed listing updated changed looped placed =>
          simp only [calm]
          exact (covered.of_looped looped calm).pruneSwarms

/-- Nothing but a reply makes a recheck due. -/
theorem exists_reply_of_disturbs {hive : HiveMind} {env : Env} {moment : Moment} {data : SnsData}
    (disturbed : hive.disturbs env moment data = true) : ∃ reply, data = .reply reply := by
  cases data with
  | unexpectedParts => contradiction
  | badStatus => contradiction
  | invalidJson => contradiction
  | badStates => contradiction
  | reply reply => exact ⟨reply, rfl⟩

/-- A completed call that makes a recheck due establishes coverage. -/
theorem Sound.covered_of_disturbs {hive : HiveMind} (sound : Sound hive) {env : Env}
    {moment : Moment} {data : SnsData} (disturbed : hive.disturbs env moment data = true)
    (completed : (hive.onSnsResponse env moment data).2 = .completed) :
    Covered (hive.onSnsResponse env moment data).1 := by
  obtain ⟨reply, rfl⟩ := exists_reply_of_disturbs disturbed
  have response := sound.indexed.response env moment reply
  generalize hive.onSnsResponse env moment (.reply reply) = result at response completed ⊢
  cases response with
  | refused what _ => contradiction
  | unparsed committed what commits disturbs_iff => contradiction
  | interrupted committed listing updated changed what looped => contradiction
  | completed committed listing updated changed looped placed =>
      simp only [disturbed, if_true]
      have pruned := (sound.of_looped looped).pruneSwarms
      exact (pruned.tracked.recheck pruned.indexed env moment).covered pruned.tracked
        pruned.indexed

/-- Only a reply disturbs, so a call that neither fails nor completes is calm. -/
theorem outcome_of_disturbs {hive : HiveMind} {env : Env} {moment : Moment} {data : SnsData}
    (sound : Sound hive) (disturbed : hive.disturbs env moment data = true)
    (unfailed : ∀ what, (hive.onSnsResponse env moment data).2 ≠ .failed what) :
    (hive.onSnsResponse env moment data).2 = .completed := by
  obtain ⟨reply, rfl⟩ := exists_reply_of_disturbs disturbed
  have response := sound.indexed.response env moment reply
  generalize hive.onSnsResponse env moment (.reply reply) = result at response unfailed ⊢
  cases response with
  | refused what _ => exact absurd rfl (unfailed what)
  | unparsed committed what commits disturbs_iff => exact absurd rfl (unfailed what)
  | interrupted committed listing updated changed what looped =>
      exact absurd rfl (unfailed what)
  | completed committed listing updated changed looped placed => rfl

/-! ## Additions -/

theorem addSubscription_newSub (db : Database) (request : AddRequest) :
    (db.addSubscription request).2 = true ↔ db.tables.rowAt request.device = none := by
  rw [Database.addSubscription]
  cases db.tables.rowAt request.device <;> simp

/-- The account of an addition is monitored afterwards: the row is new, or the
account was already known, or its swarm has no node. -/
def AddsMonitored (hive : HiveMind) (request : AddRequest) : Prop :=
  hive.db.tables.rowAt request.device = none ∨ request.pubkey.id ∈ hive.subscribers ∨
    hive.swarmNodes (swarmOf hive.swarmIds request.pubkey.id) = []

/-- Everything `add_subscription` does to accounts and nodes. -/
theorem Sound.addSubscription_effect {hive : HiveMind} (sound : Sound hive)
    (request : AddRequest) :
    let after := (hive.addSubscription request).1
    let located : SwarmPubkey :=
      { request.pubkey with swarm := swarmOf hive.swarmIds request.pubkey.id }
    after.swarmIds = hive.swarmIds ∧
      after.subscribers = HiveMind.remember hive.subscribers located request.sub ∧
      (∀ swarm, after.swarmNodes swarm = hive.swarmNodes swarm) ∧
      ∀ ref id, id ∈ (after.node ref).subs ↔
        (hive.db.tables.rowAt request.device = none ∧
          ref ∈ hive.swarmNodes located.swarm ∧ id = request.pubkey.id) ∨
        id ∈ (hive.node ref).subs := by
  intro after located
  have same := addSubscription_eq request hive
  simp only at same
  by_cases fresh : hive.db.tables.rowAt request.device = none
  · rw [if_pos ((addSubscription_newSub hive.db request).mpr fresh)] at same
    have indexed : Indexed
        { hive with
          db := (hive.db.addSubscription request).1
          subscribers := HiveMind.remember hive.subscribers located request.sub } :=
      sound.indexed.of_sameIndex ⟨rfl, fun _ => rfl, rfl, fun _ => rfl⟩
    simp only [after, same]
    refine ⟨?_, ?_, (indexed.sameIndex_forceAccount located).swarmNodes, ?_⟩
    · rw [indexed.forceAccount_eq located]
    · rw [indexed.forceAccount_eq located]
    · intro ref id
      simp only [fresh, true_and]
      exact indexed.mem_subs_forceAccount located ref id
  · rw [if_neg (mt (addSubscription_newSub hive.db request).mp fresh)] at same
    simp only [after, same, true_and]
    refine ⟨rfl, fun _ => rfl, fun ref id => ?_⟩
    simp [fresh]

theorem covered_addSubscription_iff {hive : HiveMind} (covered : Covered hive)
    (sound : Sound hive) (request : AddRequest) :
    Covered (hive.addSubscription request).1 ↔ AddsMonitored hive request := by
  obtain ⟨swarmIds, subscribers, swarmNodes, subs⟩ := sound.addSubscription_effect request
  constructor
  · intro after
    by_cases monitored : AddsMonitored hive request
    · exact monitored
    · -- A node of the swarm held only known accounts and was not given this one.
      simp only [AddsMonitored, not_or] at monitored
      obtain ⟨stored, unknown, nodes⟩ := monitored
      obtain ⟨ref, member⟩ := List.exists_mem_of_ne_nil _ nodes
      have registered : request.pubkey.id ∈ (hive.addSubscription request).1.subscribers := by
        rw [subscribers]
        exact mem_remember.mpr (Or.inl rfl)
      have held := after.monitored registered ref (by rw [swarmIds, swarmNodes]; exact member)
      rcases (subs ref request.pubkey.id).mp held with ⟨fresh, -⟩ | old
      · exact absurd fresh stored
      · exact absurd (sound.tracked.known old) unknown
  · intro monitored
    constructor
    · intro id subscriber found
      rw [subscribers, lookup_remember] at found
      rw [swarmIds]
      split_ifs at found with equal
      · cases found
        simp only at equal ⊢
        cases old : hive.subscribers.lookup request.pubkey.id with
        | none => rw [equal]; rfl
        | some existing => rw [equal]; exact covered.cached old
      · exact covered.cached found
    · intro id member ref inside
      rw [subscribers, mem_remember] at member
      rw [swarmIds, swarmNodes] at inside
      rw [subs]
      by_cases known : id ∈ hive.subscribers
      · exact Or.inr (covered.monitored known ref inside)
      · have equal : id = request.pubkey.id := member.resolve_right known
        subst equal
        rcases monitored with fresh | old | none
        · exact Or.inl ⟨fresh, inside, rfl⟩
        · exact absurd old known
        · rw [none] at inside
          contradiction

/-! ## Runs -/

/-- No response leaves through the exception handler. -/
def Completes (env : Env) (hive : HiveMind) : Event → Prop
  | .snsResponse moment data => ∀ what, (hive.onSnsResponse env moment data).2 ≠ .failed what
  | _ => True

/-- Every addition meets `AddsMonitored`. -/
def MonitoredStep (hive : HiveMind) : Event → Prop
  | .addSubscription request => AddsMonitored hive request
  | _ => True

theorem covered_started {db : Database} {subscribers : Subscribers}
    (unplaced : ∀ id subscriber, subscribers.lookup id = some subscriber →
      subscriber.key.swarm = invalidSwarmId) : Covered (started db subscribers) where
  cached found := unplaced _ _ found
  monitored _ ref inside := by simp [started, swarmNodes, Map.getD] at inside

theorem covered_start {env : Env} {now : SysTime} {threads : Nat} {clock : Nat → SysTime}
    {db : Database} {hive : HiveMind} (launched : start env now threads clock db = .ok hive) :
    Covered hive := by
  have keys := start_keys launched
  obtain ⟨subs, -, -, rfl⟩ := start_ok launched
  exact covered_started fun id subscriber found => (keys id subscriber found).2

theorem covered_step_iff {env : Env} {hive after : HiveMind} {event : Event}
    (covered : Covered hive) (sound : Sound hive) (taken : step env hive event = some after)
    (completes : Completes env hive event) : Covered after ↔ MonitoredStep hive event := by
  rcases step_cases taken with ⟨now, threads, clock, rfl, launched⟩ | ⟨request, rfl, rfl⟩ |
    ⟨moment, data, rfl, rfl⟩ | ⟨quiet, keeps⟩
  · exact iff_of_true (covered_start launched) trivial
  · exact covered_addSubscription_iff covered sound request
  · refine iff_of_true ?_ trivial
    cases disturbed : hive.disturbs env moment data with
    | false => exact covered.of_calm sound env moment data disturbed
    | true =>
        exact sound.covered_of_disturbs disturbed (outcome_of_disturbs sound disturbed completes)
  · apply iff_of_true
    · have stored : Covered { hive with db := after.db } := ⟨covered.cached, covered.monitored⟩
      refine stored.of_keepsMembers keeps.toKeepsMembers fun swarm ref member => ?_
      rwa [keeps.swarmNodes] at member
    · cases event with
      | addSubscription request => contradiction
      | _ => trivial

/-- In a run from the first start of the server whose responses all complete,
accounts are covered in every state exactly when every addition finds no row
of its device, or a known account, or a swarm without nodes. -/
theorem always_covered_iff (env : Env) (events : List Event)
    (completes : Run.EveryStep (step env) (fun hive event _ => Completes env hive event)
      initial events) :
    Run.Always (step env) Covered initial events ↔
      Run.EveryStep (step env) (fun hive event _ => MonitoredStep hive event) initial events := by
  have start : Covered initial := covered_started fun id subscriber found => by simp at found
  have exact_run := Run.everyStep_iff_of_assumed
    (fun hive => Covered hive ∧ Sound hive)
    (fun hive event _ => MonitoredStep hive event)
    (fun _ _ next => Covered next)
    ⟨start, sound_initial⟩
    (fun hive event next kept taken met => covered_step_iff kept.1 kept.2 taken met)
    (fun hive event next kept taken met guarded =>
      ⟨(covered_step_iff kept.1 kept.2 taken met).mpr guarded, kept.2.step taken⟩)
    completes
  exact (and_iff_right start).trans exact_run

/-- The subscription was signed at `1700000000`; the server restarts three
seconds before it expires, learns of one node, and gets a renewed signature. -/
def expiringRun : List Event :=
  let late : SysTime := (1700000000 + signatureExpiry - 3) * second
  [.addSubscription (Sample.request 1700000000),
    .start late 1 fun _ => late,
    .snsResponse (Sample.moment late) (.reply ⟨some [97], some 1, [Sample.snState 7]⟩),
    .addSubscription (Sample.request (1700000000 + signatureExpiry - 2))]

/-- `Completes` as a test. -/
def completesTest (env : Env) (hive : HiveMind) : Event → Bool
  | .snsResponse moment data => (hive.onSnsResponse env moment data).2 = .completed
  | _ => true

theorem completes_of_test {env : Env} (hive : HiveMind) (event : Event)
    (tested : completesTest env hive event = true) : Completes env hive event := by
  cases event with
  | snsResponse moment data =>
      intro what failed
      simp [completesTest, failed] at tested
  | _ => trivial

/-- The renewal finds the old row, so the account stays unmonitored. -/
theorem not_always_covered_expiringRun :
    (expiringRun.filterMap Event.systemTime).Pairwise (· ≤ ·) ∧
      Run.EveryStep (step Sample.env) (fun hive event _ => Completes Sample.env hive event)
        initial expiringRun ∧
      ¬Run.Always (step Sample.env) Covered initial expiringRun := by
  refine ⟨by decide, Run.EveryStep.of_testSteps _ completes_of_test rfl, fun always => ?_⟩
  have outcome : (Run.exec (step Sample.env) initial expiringRun).map
      (fun hive => (hive.swarmIds, hive.subscribers.keys, hive.swarmNodes 7,
        (hive.node 0).subs.keys)) = some ([7], [Sample.account], [0], []) := rfl
  obtain ⟨final, run, facts⟩ := Option.map_eq_some_iff.mp outcome
  simp only [Prod.mk.injEq] at facts
  obtain ⟨ids, keys, nodes, subs⟩ := facts
  have registered : Sample.account ∈ final.subscribers := by
    rw [AList.mem_keys, keys]
    exact List.mem_cons_self
  have held := (always.of_exec run).monitored registered 0 (by
    rw [ids]
    exact nodes ▸ List.mem_cons_self)
  rw [AList.mem_keys, subs] at held
  contradiction

/-- Every addition is the first one of its device. -/
def freshTest (hive : HiveMind) : Event → Bool
  | .addSubscription request => (hive.db.tables.rowAt request.device).isNone
  | _ => true

theorem monitoredStep_of_freshTest (hive : HiveMind) (event : Event)
    (tested : freshTest hive event = true) : MonitoredStep hive event := by
  cases event with
  | addSubscription request => exact Or.inl (Option.isNone_iff_eq_none.mp tested)
  | _ => trivial

/-- A subscription that is added after the first response is covered. -/
theorem always_covered_of_fresh :
    Run.Always (step Sample.env) Covered initial
      [.snsResponse (Sample.moment 0) (.reply ⟨some [97], some 1, [Sample.snState 7]⟩),
        .addSubscription (Sample.request 1700000000)] := by
  apply (always_covered_iff Sample.env _ (Run.EveryStep.of_testSteps _ completes_of_test rfl)).mpr
  exact Run.EveryStep.of_testSteps freshTest monitoredStep_of_freshTest rfl

end Spns.HiveMind
