import Spns.Hive.CheckLoop
import Spns.Lib.Run

/-!
# Flow control towards a storage server

A check stops at `SUBS_REQUEST_LIMIT` subscriptions, so that the rest waits for
the response: its handler schedules another check.  A run of one connected node
interleaves ticks of the timer, scheduled checks, new accounts and the answers
to the requests.

Nothing remembers that a response is awaited.  The entries behind the limit are
still due, and the next tick sends them.
-/

namespace Spns.Hive

open Spns
open Spns.Lib
open Spns.Lib.Unordered

/-- A connected node with its requests in flight and the checks that were
scheduled by responses. -/
structure Flow where
  node : SNode
  /-- The requests without an answer, oldest first; `true` for one that was
  sent because a check hit the limit. -/
  inFlight : List Bool
  /-- `check_my_subs` calls that wait in the loop. -/
  scheduled : Nat

/-- The events of a node whose connection stays up; `turns` bounds the turns of
the loop of a check. -/
inductive FlowEvent
  /-- A call of `HiveMind::check_subs`. -/
  | tick (check : Check) (turns : Nat)
  /-- A scheduled `check_my_subs`. -/
  | continuation (check : Check) (turns : Nat)
  | addAccount (account : SwarmPubkey) (forceNow : Bool)
  /-- The answer to one of the requests: a response, or a failure or
  timeout. -/
  | answer (request : Nat) (success : Bool)

namespace Flow

/-- `check_subs`: at most one request is sent.  It is possible for a reading of
the clock, if its loop ends within so many turns. -/
def checkSubs (sort : SNode.StdSort) (check : Check) (turns : Nat) (flow : Flow) : Option Flow :=
  if IsInt64 check.now then
    (flow.node.passWithin check turns).map fun pass =>
      { flow with
        node := flow.node.finishPass sort check pass
        inFlight := flow.inFlight ++ pass.requests.map fun _ => pass.rateLimited }
  else none

/-- One event.  The handler of a response schedules another check if the
request had hit the limit; after a failure it does not. -/
def step (sort : SNode.StdSort) (flow : Flow) : FlowEvent → Option Flow
  | .tick check turns => if flow.node.connected then flow.checkSubs sort check turns else none
  | .continuation check turns =>
      if flow.node.connected ∧ 0 < flow.scheduled then
        { flow with scheduled := flow.scheduled - 1 }.checkSubs sort check turns
      else none
  | .addAccount account forceNow =>
      some { flow with node := flow.node.addAccount account forceNow }
  | .answer request success =>
      (flow.inFlight[request]?).map fun rateLimited =>
        { flow with
          inFlight := flow.inFlight.eraseIdx request
          scheduled := flow.scheduled + if success && rateLimited then 1 else 0 }

/-- The requests that a check sends. -/
def sentBy (check : Check) (turns : Nat) (flow : Flow) : List MonitorRequest :=
  ((flow.node.passWithin check turns).map SNode.Pass.requests).getD []

/-- The requests that an event sends. -/
def sent (flow : Flow) : FlowEvent → List MonitorRequest
  | .tick check turns => flow.sentBy check turns
  | .continuation check turns => flow.sentBy check turns
  | _ => []

/-- A request that was sent because of the limit has no answer yet. -/
def Limited (flow : Flow) : Prop :=
  true ∈ flow.inFlight

/-- The event sends nothing as long as the answer to such a request is
missing. -/
def Waits (flow : Flow) (event : FlowEvent) (_ : Flow) : Prop :=
  flow.Limited → flow.sent event = []

/-- The entries that a check reaches: those before the first one that is not
due yet. -/
def dueEntries (check : Check) (flow : Flow) : List QueueEntry :=
  flow.node.next.takeWhile fun entry => entry.time ≤ check.now

/-- No account that is due has a subscription which storage servers accept. -/
def NothingDue (check : Check) (flow : Flow) : Prop :=
  ∀ entry ∈ flow.dueEntries check, ∀ account, entry.account = some account →
    ∀ subscriber, check.allSubs.lookup account.id = some subscriber →
      ∀ sub ∈ subscriber.subscriptions, SNode.inWindow check.now sub = false

/-- Checks while a limited request is in flight come when nothing is due. -/
def QuietWhileLimited (flow : Flow) (event : FlowEvent) (_ : Flow) : Prop :=
  flow.Limited →
    match event with
    | .tick check _ => flow.NothingDue check
    | .continuation check _ => flow.NothingDue check
    | _ => True

/-! ## What a check sends -/

/-- The loop never takes anything out of the request. -/
theorem drain_request_ne_nil {allSubs : Subscribers} {now : SysTime} {delays : Nat → Delay}
    {queue added : List QueueEntry} {request : MonitorRequest} (some : request ≠ []) :
    (SNode.drain allSubs now delays queue added request).request ≠ [] := by
  induction queue generalizing added request with
  | nil => exact some
  | cons entry rest ih =>
      rw [SNode.drain]
      split_ifs with later
      · exact some
      · split
        · exact ih some
        · split
          · exact ih some
          · simp only
            split_ifs
            · exact List.append_ne_nil_of_left_ne_nil some _
            · exact ih (List.append_ne_nil_of_left_ne_nil some _)

/-- The subscriptions of one entry that go into a request. -/
theorem filter_inWindow_eq_nil (now : SysTime) (account : SwarmPubkey) (subs : List Subscription) :
    (subs.filter (SNode.inWindow now)).map (SNode.monitorEntry account) = [] ↔
      ∀ sub ∈ subs, SNode.inWindow now sub = false := by
  rw [List.map_eq_nil_iff, List.filter_eq_nil_iff]
  simp only [Bool.not_eq_true]

theorem drain_request_eq_nil_iff (allSubs : Subscribers) (now : SysTime) (delays : Nat → Delay)
    (queue added : List QueueEntry) :
    (SNode.drain allSubs now delays queue added []).request = [] ↔
      ∀ entry ∈ queue.takeWhile fun entry => entry.time ≤ now, ∀ account,
        entry.account = some account → ∀ subscriber,
          allSubs.lookup account.id = some subscriber →
            ∀ sub ∈ subscriber.subscriptions, SNode.inWindow now sub = false := by
  induction queue generalizing added with
  | nil => simp [SNode.drain]
  | cons entry rest ih =>
      rw [SNode.drain]
      by_cases later : entry.time > now
      · rw [if_pos later, List.takeWhile_cons_of_neg (by simpa using later)]
        simp
      · rw [if_neg later, List.takeWhile_cons_of_pos (by simpa using later)]
        simp only [List.forall_mem_cons]
        cases account : entry.account with
        | none => simp [ih]
        | some key =>
            cases found : allSubs.lookup key.id with
            | none => simp [found, ih]
            | some subscriber =>
                simp only [List.nil_append, Option.some.injEq, forall_eq', found]
                rw [← filter_inWindow_eq_nil now key subscriber.subscriptions]
                by_cases empty : (subscriber.subscriptions.filter (SNode.inWindow now)).map
                    (SNode.monitorEntry key) = []
                · rw [empty, if_neg (by decide), ih]
                  simp
                · simp only [empty, false_and, iff_false]
                  split_ifs
                  · exact empty
                  · exact drain_request_ne_nil empty

/-- A check sends nothing exactly when nothing is due. -/
theorem sentBy_eq_nil_iff {check : Check} {turns : Nat} {flow : Flow} {pass : SNode.Pass}
    (reading : IsInt64 check.now) (looped : flow.node.passWithin check turns = some pass) :
    flow.sentBy check turns = [] ↔ flow.NothingDue check := by
  rw [sentBy, looped, Option.map_some, Option.getD_some]
  by_cases room : check.HasRoom
  · rw [SNode.Pass.requests, NothingDue, dueEntries,
      ← drain_request_eq_nil_iff check.allSubs check.now check.delays _ [],
      SNode.eq_checkPass room looped, SNode.checkPass_eq room]
    simp only [SNode.Drained.toPass, List.length_eq_zero_iff]
    split_ifs with empty
    · exact iff_of_true rfl empty
    · exact iff_of_false id empty
  · have quiet := inWindow_eq_false reading room
    exact iff_of_true (SNode.requests_quiet quiet looped) fun _ _ _ _ _ _ sub _ => quiet sub

/-- The facts about a check that has been made. -/
theorem checkSubs_eq_some {sort : SNode.StdSort} {check : Check} {turns : Nat} {flow after : Flow}
    (checked : flow.checkSubs sort check turns = some after) :
    IsInt64 check.now ∧ ∃ pass, flow.node.passWithin check turns = some pass := by
  rw [checkSubs] at checked
  split_ifs at checked with reading
  obtain ⟨pass, looped, -⟩ := Option.map_eq_some_iff.mp checked
  exact ⟨reading, pass, looped⟩

/-- One step waits exactly when it meets the condition. -/
theorem waits_iff {sort : SNode.StdSort} {flow after : Flow} {event : FlowEvent}
    (taken : step sort flow event = some after) :
    flow.Waits event after ↔ flow.QuietWhileLimited event after := by
  cases event with
  | tick check turns =>
      simp only [step] at taken
      split_ifs at taken
      obtain ⟨reading, pass, looped⟩ := checkSubs_eq_some taken
      exact imp_congr_right fun _ => sentBy_eq_nil_iff reading looped
  | continuation check turns =>
      simp only [step] at taken
      split_ifs at taken
      obtain ⟨reading, pass, looped⟩ := checkSubs_eq_some taken
      exact imp_congr_right fun _ => sentBy_eq_nil_iff reading looped
  | addAccount account forceNow => exact imp_congr_right fun _ => iff_of_true rfl trivial
  | answer request success => exact imp_congr_right fun _ => iff_of_true rfl trivial

/-- Along every run of a node: no request is sent before the answer to a
limited one exactly when every check made in between finds nothing due. -/
theorem always_waits_iff (sort : SNode.StdSort) (flow : Flow) (events : List FlowEvent) :
    Run.EveryStep (step sort) Waits flow events ↔
      Run.EveryStep (step sort) QuietWhileLimited flow events :=
  Run.everyStep_iff (fun _ => True) QuietWhileLimited Waits trivial
    (fun _ _ _ _ taken => waits_iff taken) fun _ _ _ _ _ _ => trivial

/-! ## A tick that does not wait -/

/-- A connected node without accounts. -/
def idle : Flow where
  node := { SNode.create ⟨FixedBytes.replicate 32 0, [], 0⟩ 0 with connected := true }
  inFlight := []
  scheduled := 0

/-- The account whose id has 33 equal bytes. -/
def plainAccount (byte : UInt8) : SwarmPubkey :=
  ⟨FixedBytes.replicate 33 byte, FixedBytes.replicate 32 byte, false, 0⟩

/-- Subscriptions for one namespace each, signed at 1700000000. -/
def singleNamespaces (count : Nat) : List Subscription :=
  (List.range count).map fun number =>
    Subscription.single number 1700000000 (FixedBytes.replicate 64 7)

/-- One account fills a request, a second one has a single subscription. -/
def busyCheck : Check where
  allSubs := ((∅ : Subscribers).insert (plainAccount 1).id ⟨plainAccount 1, singleNamespaces 2000⟩).insert
    (plainAccount 2).id ⟨plainAccount 2, singleNamespaces 1⟩
  now := 1700000000 * second
  delays := fun _ => shortestDelay

/-- Two ticks with no answer in between. -/
def impatientRun : List FlowEvent :=
  [.addAccount (plainAccount 2) false, .addAccount (plainAccount 1) false, .tick busyCheck 3] ++
    [.tick busyCheck 3]

/-- The second tick sends although the first request is limited and has no
answer. -/
theorem not_always_waits_impatientRun :
    ¬Run.EveryStep (step SNode.stableSort) Waits idle impatientRun := by
  intro always
  have outcome : (Run.exec (step SNode.stableSort) idle [.addAccount (plainAccount 2) false,
      .addAccount (plainAccount 1) false, .tick busyCheck 3]).map (fun flow =>
        (flow.inFlight, (flow.sent (.tick busyCheck 3)).map List.length,
          (step SNode.stableSort flow (.tick busyCheck 3)).isSome)) =
      some ([true], [1], true) := by
    decide +kernel
  obtain ⟨flow, run, facts⟩ := Option.map_eq_some_iff.mp outcome
  simp only [Prod.mk.injEq] at facts
  obtain ⟨limited, sent, goesOn⟩ := facts
  obtain ⟨after, taken⟩ := Option.isSome_iff_exists.mp goesOn
  have waits := always.last run taken
  have nothing : flow.sent (.tick busyCheck 3) = [] := by
    apply waits
    rw [Limited, limited]
    exact List.mem_singleton_self true
  rw [nothing] at sent
  exact List.cons_ne_nil 1 [] sent.symm

end Flow

end Spns.Hive
