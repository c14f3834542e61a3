import Mathlib.Data.List.TakeWhile
import Spns.Hive.SNode

/-!
# The loop of a check

`check_subs` takes entries from the front of the queue and pushes renewed ones
to its back, in one deque.  It stops at the first entry that is not due, which
may be one that it has pushed itself, or at the limit of a request.  After that
it sorts the tail of the deque, from the first entry that a renewed one could
precede.

This module has the loop as the source writes it, turn by turn.  If the reading
of the clock leaves room for the longest delay, it ends on every queue and does
what `drain` says.  Later readings make the times of renewed entries wrap
around: these entries are due at once, and the loop can go on with them for
ever.  No signature is in the window then, so nothing is sent.  The order that
`std::sort` gives to entries of equal times is left open.
-/

namespace Spns.Hive

open Spns
open Spns.Lib.Unordered

/-- What a check reads. -/
structure Check where
  allSubs : Subscribers
  now : SysTime
  delays : Nat → Delay

/-- The clock can be read, and the longest delay after the reading is still a
point of the clock. -/
structure Check.HasRoom (check : Check) : Prop where
  reading : IsInt64 check.now
  longest : IsInt64 (check.now + resubscribeMax * second)

/-! ## The range of the clock -/

section HasRoom

variable {check : Check} (room : check.HasRoom)

include room

theorem Check.HasRoom.int64_add {delay : Int} (atLeast : 0 ≤ delay)
    (atMost : delay ≤ resubscribeMax) :
    int64 (check.now + delay * second) = check.now + delay * second := by
  apply int64_eq
  have reading := room.reading
  have longest := room.longest
  simp only [IsInt64, resubscribeMax, second] at *
  omega

theorem Check.HasRoom.renewAt_eq (delay : Delay) :
    SNode.renewAt check.now delay = check.now + delay.val * second :=
  room.int64_add (Int.le_trans (by decide) delay.property.1) delay.property.2

theorem Check.HasRoom.earliestRenewal_eq :
    SNode.earliestRenewal check.now = check.now + resubscribeMin * second :=
  room.int64_add (by decide) (by decide)

end HasRoom

/-- Past the readings that have room, the end of the window wraps around and
lies before its start. -/
theorem inWindow_eq_false {check : Check} (reading : IsInt64 check.now) (late : ¬check.HasRoom)
    (sub : Subscription) : SNode.inWindow check.now sub = false := by
  have past : ¬IsInt64 (check.now + resubscribeMax * second) := fun longest =>
    late ⟨reading, longest⟩
  have reversed : SNode.sigMax check.now < SNode.sigMin check.now := by
    simp only [IsInt64, SNode.sigMin, SNode.sigMax, int64, Int.bmod_def, resubscribeMax, second,
      signatureExpiry, signatureEarly] at *
    change (_ : Int) < _
    omega
  rw [SNode.inWindow, decide_eq_false_iff_not]
  rintro ⟨low, high⟩
  exact absurd (low.trans high) (not_le.mpr reversed)

namespace SNode

/-! ## The loop -/

/-- The variables of the loop. -/
structure Pass where
  next : List QueueEntry
  request : MonitorRequest
  subreqCount : Nat
  nextAdded : Nat
  rateLimited : Bool

/-- What follows a turn of the loop. -/
inductive Turn
  | again (pass : Pass)
  | stop (pass : Pass)

/-- The variables before the first turn. -/
def Pass.start (queue : List QueueEntry) : Pass :=
  ⟨queue, [], 0, 0, false⟩

/-- The dicts that an account contributes to the request. -/
def dicts (check : Check) (account : SwarmPubkey) (subscriber : Subscriber) : MonitorRequest :=
  (subscriber.subscriptions.filter (inWindow check.now)).map (monitorEntry account)

/-- One turn of the loop, from the test of its condition on. -/
def Pass.turn (check : Check) (pass : Pass) : Turn :=
  match pass.next with
  | [] => .stop pass
  | front :: rest =>
      if front.time > check.now then
        .stop pass
      else
        match front.account with
        | none => .again { pass with next := rest }
        | some account =>
            match check.allSubs.lookup account.id with
            | none => .again { pass with next := rest }
            | some subscriber =>
                let renewed : Pass :=
                  { pass with
                    next := rest ++ [⟨some account, renewAt check.now (check.delays pass.nextAdded)⟩]
                    request := pass.request ++ dicts check account subscriber
                    subreqCount := pass.subreqCount + (dicts check account subscriber).length
                    nextAdded := pass.nextAdded + 1 }
                if subsRequestLimit ≤ renewed.subreqCount then
                  .stop { renewed with rateLimited := true }
                else
                  .again renewed

/-- At most `fuel` turns; `none` where these are not enough. -/
def Pass.loop (check : Check) : Nat → Pass → Option Pass
  | 0, _ => none
  | fuel + 1, pass =>
      match pass.turn check with
      | .stop final => some final
      | .again following => loop check fuel following

/-! ## The sort at the end -/

/-- A queue in the order of its times. -/
def Sorted (queue : List QueueEntry) : Prop :=
  queue.Pairwise fun first last => first.time ≤ last.time

/-- `std::sort` by time. -/
structure StdSort where
  sort : List QueueEntry → List QueueEntry
  perm : ∀ queue, (sort queue).Perm queue
  sorted : ∀ queue, Sorted (sort queue)

/-- The entries before `std::prev(next_.end(), next_added)`. -/
def Pass.untouched (pass : Pass) : List QueueEntry :=
  pass.next.take (pass.next.length - pass.nextAdded)

/-- The entries that the loop has pushed. -/
def Pass.pushed (pass : Pass) : List QueueEntry :=
  pass.next.drop (pass.next.length - pass.nextAdded)

/-- The queue after the partial sort.  On the sorted range that it is given,
`partition_point` is the first entry that fails the test. -/
def Pass.resorted (sort : StdSort) (now : SysTime) (pass : Pass) : List QueueEntry :=
  let point := pass.untouched.findIdx fun entry => earliestRenewal now ≤ entry.time
  pass.next.take point ++ sort.sort (pass.next.drop point)

/-- The requests that are sent after the loop. -/
def Pass.requests (pass : Pass) : List MonitorRequest :=
  if pass.subreqCount = 0 then [] else [pass.request]

/-- The variables after a loop of at most so many turns. -/
def passWithin (check : Check) (turns : Nat) (node : SNode) : Option Pass :=
  (Pass.start node.next).loop check turns

/-- The node after the loop. -/
def finishPass (sort : StdSort) (check : Check) (node : SNode) (pass : Pass) : SNode :=
  { node with next := pass.resorted sort check.now }

/-- `check_subs` of a connected node, with the requests that it sends, if its
loop ends within so many turns. -/
def checkWithin (sort : StdSort) (check : Check) (turns : Nat) (node : SNode) :
    Option (SNode × List MonitorRequest) :=
  (node.passWithin check turns).map fun pass => (node.finishPass sort check pass, pass.requests)

/-- The variables after the loop, for a check that has room. -/
def checkPass (check : Check) (node : SNode) : Pass :=
  (node.passWithin check (node.next.length + 1)).getD (Pass.start node.next)

/-- `check_subs` of a connected node, for a check that has room. -/
def checkConnected (sort : StdSort) (check : Check) (node : SNode) :
    SNode × List MonitorRequest :=
  (node.finishPass sort check (node.checkPass check), (node.checkPass check).requests)

/-- The loop has one outcome, however many turns are allowed. -/
theorem Pass.loop_unique {check : Check} {first last : Nat} {pass one other : Pass}
    (here : pass.loop check first = some one) (there : pass.loop check last = some other) :
    one = other := by
  induction first generalizing pass last with
  | zero => contradiction
  | succ first ih =>
      cases last with
      | zero => contradiction
      | succ last =>
          rw [Pass.loop] at here there
          cases turned : pass.turn check with
          | stop final =>
              rw [turned] at here there
              exact Option.some.inj (here.symm.trans there)
          | again following =>
              rw [turned] at here there
              exact ih here there

/-! ## Late readings -/

theorem dicts_eq_nil {check : Check} (none : ∀ sub, inWindow check.now sub = false)
    (account : SwarmPubkey) (subscriber : Subscriber) : dicts check account subscriber = [] := by
  rw [dicts, List.map_eq_nil_iff, List.filter_eq_nil_iff]
  intro sub _
  simp [none sub]

/-- Without a signature in the window the loop puts nothing into the request. -/
theorem Pass.loop_quiet {check : Check} (none : ∀ sub, inWindow check.now sub = false)
    {turns : Nat} {pass final : Pass} (empty : pass.request = []) (zero : pass.subreqCount = 0)
    (looped : pass.loop check turns = some final) :
    final.request = [] ∧ final.subreqCount = 0 := by
  have silent := dicts_eq_nil none
  induction turns generalizing pass with
  | zero => contradiction
  | succ turns ih =>
      rw [Pass.loop] at looped
      cases next : pass.next with
      | nil =>
          simp only [Pass.turn, next, Option.some.injEq] at looped
          exact looped ▸ ⟨empty, zero⟩
      | cons front rest =>
          simp only [Pass.turn, next] at looped
          by_cases later : front.time > check.now
          · rw [if_pos later] at looped
            exact Option.some.inj looped ▸ ⟨empty, zero⟩
          · rw [if_neg later] at looped
            cases owner : front.account with
            | none =>
                simp only [owner] at looped
                exact @ih { pass with next := rest } empty zero looped
            | some account =>
                cases found : check.allSubs.lookup account.id with
                | none =>
                    simp only [owner, found] at looped
                    exact @ih { pass with next := rest } empty zero looped
                | some subscriber =>
                    simp only [owner, found, silent, empty, zero, List.append_nil, List.length_nil,
                      Nat.add_zero] at looped
                    rw [if_neg (by decide)] at looped
                    exact ih rfl rfl looped

/-! ## The loop is a drain -/

/-- The account and the subscriptions that a turn renews, if the entry is not
just taken off. -/
def renewal (check : Check) (entry : QueueEntry) : Option (SwarmPubkey × Subscriber) :=
  entry.account.bind fun account => (check.allSubs.lookup account.id).map (Prod.mk account)

/-- An entry is just taken off if it was erased or its account is gone. -/
theorem renewal_eq_none {check : Check} {entry : QueueEntry} (skip : renewal check entry = none) :
    entry.account = none ∨
      ∃ account, entry.account = some account ∧ check.allSubs.lookup account.id = none := by
  cases owner : entry.account with
  | none => exact Or.inl rfl
  | some account =>
      rw [renewal, owner, Option.bind_some, Option.map_eq_none_iff] at skip
      exact Or.inr ⟨account, rfl, skip⟩

theorem renewal_eq_some {check : Check} {entry : QueueEntry} {account : SwarmPubkey}
    {subscriber : Subscriber} (renew : renewal check entry = some (account, subscriber)) :
    entry.account = some account ∧ check.allSubs.lookup account.id = some subscriber := by
  obtain ⟨key, owner, found⟩ := Option.bind_eq_some_iff.mp renew
  obtain ⟨held, lookup, equal⟩ := Option.map_eq_some_iff.mp found
  cases equal
  exact ⟨owner, lookup⟩

/-- The entry that takes the place of a renewed one. -/
def renewedEntry (check : Check) (count : Nat) (account : SwarmPubkey) : QueueEntry :=
  ⟨some account, renewAt check.now (check.delays count)⟩

/-- The loop of a check, without pushed entries. -/
def drainFor (check : Check) (queue added : List QueueEntry) (request : MonitorRequest) : Drained :=
  drain check.allSubs check.now check.delays queue added request

theorem drainFor_nil (check : Check) (added : List QueueEntry) (request : MonitorRequest) :
    drainFor check [] added request = ⟨[], added, request, false⟩ :=
  rfl

theorem drainFor_future {check : Check} {entry : QueueEntry} (future : check.now < entry.time)
    (rest added : List QueueEntry) (request : MonitorRequest) :
    drainFor check (entry :: rest) added request = ⟨entry :: rest, added, request, false⟩ :=
  if_pos future

theorem drainFor_skip {check : Check} {entry : QueueEntry} (due : entry.time ≤ check.now)
    (skip : renewal check entry = none) (rest added : List QueueEntry) (request : MonitorRequest) :
    drainFor check (entry :: rest) added request = drainFor check rest added request := by
  rw [drainFor, drain, if_neg (not_lt.mpr due)]
  rcases renewal_eq_none skip with erased | ⟨account, owner, gone⟩
  · simp only [erased]
    rfl
  · simp only [owner, gone]
    rfl

theorem drainFor_renew {check : Check} {entry : QueueEntry} {account : SwarmPubkey}
    {subscriber : Subscriber} (due : entry.time ≤ check.now)
    (renew : renewal check entry = some (account, subscriber)) (rest added : List QueueEntry)
    (request : MonitorRequest) :
    drainFor check (entry :: rest) added request =
      let request := request ++ dicts check account subscriber
      let added := added ++ [renewedEntry check added.length account]
      if subsRequestLimit ≤ request.length then ⟨rest, added, request, true⟩
      else drainFor check rest added request := by
  obtain ⟨owner, lookup⟩ := renewal_eq_some renew
  rw [drainFor, drain, if_neg (not_lt.mpr due)]
  simp only [owner, lookup]
  rfl

theorem turn_skip {check : Check} {entry : QueueEntry} (due : entry.time ≤ check.now)
    (skip : renewal check entry = none) {pass : Pass} {rest : List QueueEntry}
    (next : pass.next = entry :: rest) : pass.turn check = .again { pass with next := rest } := by
  simp only [Pass.turn, next]
  rw [if_neg (not_lt.mpr due)]
  rcases renewal_eq_none skip with erased | ⟨account, owner, gone⟩
  · simp only [erased]
  · simp only [owner, gone]

theorem turn_renew {check : Check} {entry : QueueEntry} {account : SwarmPubkey}
    {subscriber : Subscriber} (due : entry.time ≤ check.now)
    (renew : renewal check entry = some (account, subscriber)) {pass : Pass}
    {rest : List QueueEntry} (next : pass.next = entry :: rest) :
    pass.turn check =
      let renewed : Pass :=
        { pass with
          next := rest ++ [renewedEntry check pass.nextAdded account]
          request := pass.request ++ dicts check account subscriber
          subreqCount := pass.subreqCount + (dicts check account subscriber).length
          nextAdded := pass.nextAdded + 1 }
      if subsRequestLimit ≤ renewed.subreqCount then .stop { renewed with rateLimited := true }
      else .again renewed := by
  obtain ⟨owner, lookup⟩ := renewal_eq_some renew
  simp only [Pass.turn, next]
  rw [if_neg (not_lt.mpr due)]
  simp only [owner, lookup]
  rfl

/-- If renewed entries are due at once and nothing is in the window, a queue
with nothing but due entries is never used up. -/
theorem Pass.loop_eq_none {check : Check} (quiet : ∀ sub, inWindow check.now sub = false)
    (wraps : ∀ count, renewAt check.now (check.delays count) ≤ check.now) {pass : Pass}
    (zero : pass.subreqCount = 0) (due : ∀ entry ∈ pass.next, entry.time ≤ check.now)
    {entry : QueueEntry} (queued : entry ∈ pass.next)
    (renews : (renewal check entry).isSome = true) (turns : Nat) :
    pass.loop check turns = none := by
  induction turns generalizing pass entry with
  | zero => rfl
  | succ turns ih =>
      cases next : pass.next with
      | nil =>
          rw [next] at queued
          contradiction
      | cons front rest =>
          rw [next] at due queued
          obtain ⟨frontDue, restDue⟩ := List.forall_mem_cons.mp due
          rw [Pass.loop]
          cases renew : renewal check front with
          | none =>
              have behind : entry ∈ rest := by
                refine (List.mem_cons.mp queued).resolve_left fun first => ?_
                rw [first, renew] at renews
                contradiction
              rw [turn_skip frontDue renew next]
              exact @ih { pass with next := rest } zero restDue entry behind renews
          | some renewed =>
              obtain ⟨account, subscriber⟩ := renewed
              have again : (renewal check (renewedEntry check pass.nextAdded account)).isSome =
                  true := by
                rw [renewal, renewedEntry, Option.bind_some, (renewal_eq_some renew).2]
                rfl
              rw [turn_renew frontDue renew next]
              simp only [dicts_eq_nil quiet account subscriber, zero, List.length_nil,
                Nat.add_zero]
              rw [if_neg (by decide)]
              apply ih rfl _ (List.mem_append_right rest (List.mem_singleton_self _)) again
              intro other member
              rcases List.mem_append.mp member with old | new
              · exact restDue other old
              · rw [List.mem_singleton.mp new]
                exact wraps pass.nextAdded

/-- The variables of the loop when `drain` has its result. -/
def Drained.toPass (drained : Drained) : Pass :=
  ⟨drained.rest ++ drained.added, drained.request, drained.request.length, drained.added.length,
    drained.rateLimited⟩

/-- A renewed entry is due again after the shortest delay at the earliest and
after the longest one at the latest. -/
theorem renewedEntry_time {check : Check} (room : check.HasRoom) (count : Nat)
    (account : SwarmPubkey) :
    check.now + resubscribeMin * second ≤ (renewedEntry check count account).time ∧
      (renewedEntry check count account).time ≤ check.now + resubscribeMax * second := by
  have bounds := (check.delays count).property
  rw [renewedEntry, room.renewAt_eq]
  constructor
  · exact Int.add_le_add_left (Int.mul_le_mul_of_nonneg_right bounds.1 (by decide)) check.now
  · exact Int.add_le_add_left (Int.mul_le_mul_of_nonneg_right bounds.2 (by decide)) check.now

theorem lt_renewedEntry_time {check : Check} (room : check.HasRoom) (count : Nat)
    (account : SwarmPubkey) : check.now < (renewedEntry check count account).time :=
  (Int.lt_add_of_pos_right check.now (by decide)).trans_le
    (renewedEntry_time room count account).1

/-- The loop on a queue to which it has pushed `added`. -/
theorem loop_eq_drainFor {check : Check} (room : check.HasRoom) (queue added : List QueueEntry)
    (request : MonitorRequest) (later : ∀ entry ∈ added, check.now < entry.time) (fuel : Nat)
    (enough : queue.length < fuel) :
    Pass.loop check fuel ⟨queue ++ added, request, request.length, added.length, false⟩ =
      some (drainFor check queue added request).toPass := by
  induction queue generalizing added request fuel with
  | nil =>
      obtain ⟨fuel, rfl⟩ := Nat.exists_eq_succ_of_ne_zero (Nat.ne_of_gt enough)
      rw [Pass.loop, Pass.turn, drainFor_nil]
      cases added with
      | nil => rfl
      | cons first rest => simp [later first List.mem_cons_self, Drained.toPass]
  | cons entry rest ih =>
      obtain ⟨fuel, rfl⟩ := Nat.exists_eq_succ_of_ne_zero (Nat.ne_of_gt (Nat.zero_lt_of_lt enough))
      have enough : rest.length < fuel := Nat.lt_of_succ_lt_succ enough
      rw [Pass.loop]
      by_cases future : check.now < entry.time
      · rw [drainFor_future future, Pass.turn]
        simp [future, Drained.toPass]
      · have due : entry.time ≤ check.now := not_lt.mp future
        cases renew : renewal check entry with
        | none =>
            rw [turn_skip due renew rfl, drainFor_skip due renew]
            exact ih added request later fuel enough
        | some renewed =>
            obtain ⟨account, subscriber⟩ := renewed
            have front : (⟨entry :: rest ++ added, request, request.length, added.length,
                false⟩ : Pass).next = entry :: (rest ++ added) := rfl
            rw [turn_renew due renew front, drainFor_renew due renew]
            have still : ∀ other ∈ added ++ [renewedEntry check added.length account],
                check.now < other.time := by
              intro other member
              rcases List.mem_append.mp member with old | new
              · exact later other old
              · rw [List.mem_singleton.mp new]
                exact lt_renewedEntry_time room added.length account
            have onward := ih _ (request ++ dicts check account subscriber) still fuel enough
            simp only [List.length_append, List.length_singleton, List.append_assoc] at onward ⊢
            split_ifs with limit
            · simp [Drained.toPass]
            · exact onward

/-- The loop ends, in no more turns than the queue has entries and one. -/
theorem passWithin_eq {check : Check} (room : check.HasRoom) (node : SNode) {turns : Nat}
    (enough : node.next.length < turns) :
    node.passWithin check turns = some (drainFor check node.next [] []).toPass := by
  have looped := loop_eq_drainFor room node.next [] [] (by simp) turns enough
  rw [List.append_nil] at looped
  exact looped

theorem checkPass_eq {check : Check} (room : check.HasRoom) (node : SNode) :
    node.checkPass check = (drainFor check node.next [] []).toPass := by
  rw [checkPass, passWithin_eq room node (Nat.lt_succ_self _), Option.getD_some]

theorem passWithin_eq_checkPass {check : Check} (room : check.HasRoom) (node : SNode)
    {turns : Nat} (enough : node.next.length < turns) :
    node.passWithin check turns = some (node.checkPass check) := by
  rw [passWithin_eq room node enough, checkPass_eq room]

/-- Within any number of turns, a check that has room does one thing. -/
theorem eq_checkPass {check : Check} (room : check.HasRoom) {node : SNode} {turns : Nat}
    {pass : Pass} (looped : node.passWithin check turns = some pass) :
    pass = node.checkPass check :=
  Pass.loop_unique looped (passWithin_eq_checkPass room node (Nat.lt_succ_self _))

theorem checkWithin_eq_some {sort : StdSort} {check : Check} (room : check.HasRoom) {node : SNode}
    {turns : Nat} {result : SNode × List MonitorRequest}
    (checked : node.checkWithin sort check turns = some result) :
    result = node.checkConnected sort check := by
  obtain ⟨pass, looped, rfl⟩ := Option.map_eq_some_iff.mp checked
  rw [eq_checkPass room looped]
  rfl

/-- Without a signature in the window nothing is sent. -/
theorem requests_quiet {check : Check} (none : ∀ sub, inWindow check.now sub = false)
    {node : SNode} {turns : Nat} {pass : Pass} (looped : node.passWithin check turns = some pass) :
    pass.requests = [] := by
  obtain ⟨-, zero⟩ := Pass.loop_quiet none rfl rfl looped
  rw [Pass.requests, if_pos zero]

theorem untouched_toPass (drained : Drained) : drained.toPass.untouched = drained.rest := by
  simp [Pass.untouched, Drained.toPass]

theorem pushed_toPass (drained : Drained) : drained.toPass.pushed = drained.added := by
  simp [Pass.pushed, Drained.toPass]

/-- The sort leaves the entries alone that no renewed one can precede. -/
theorem resorted_toPass (sort : StdSort) (now : SysTime) (drained : Drained) :
    drained.toPass.resorted sort now =
      drained.rest.takeWhile (fun entry => entry.time < earliestRenewal now) ++
        sort.sort (drained.rest.dropWhile (fun entry => entry.time < earliestRenewal now) ++
          drained.added) := by
  have test : (fun entry : QueueEntry => decide (earliestRenewal now ≤ entry.time)) =
      fun entry => !decide (entry.time < earliestRenewal now) := by
    funext entry
    rw [← decide_not, decide_eq_decide]
    exact not_lt.symm
  rw [Pass.resorted, untouched_toPass, test, List.takeWhile_eq_take_findIdx_not,
    List.dropWhile_eq_drop_findIdx_not]
  simp only [Drained.toPass]
  rw [List.take_append_of_le_length List.findIdx_le_length,
    List.drop_append_of_le_length List.findIdx_le_length]

theorem resorted_perm (sort : StdSort) (now : SysTime) (drained : Drained) :
    (drained.toPass.resorted sort now).Perm (drained.rest ++ drained.added) := by
  rw [resorted_toPass]
  apply ((sort.perm _).append_left _).trans
  rw [← List.append_assoc, List.takeWhile_append_dropWhile]

theorem checkConnected_next (sort : StdSort) {check : Check} (room : check.HasRoom)
    (node : SNode) :
    (node.checkConnected sort check).1.next =
      (drainFor check node.next [] []).toPass.resorted sort check.now := by
  rw [checkConnected, checkPass_eq room]
  rfl

theorem checkConnected_requests (sort : StdSort) {check : Check} (room : check.HasRoom)
    (node : SNode) :
    (node.checkConnected sort check).2 =
      if (drainFor check node.next [] []).request = [] then []
      else [(drainFor check node.next [] []).request] := by
  rw [checkConnected, checkPass_eq room]
  simp only [Pass.requests, Drained.toPass, List.length_eq_zero_iff]

/-- `std::sort` as a stable sort. -/
def stableSort : StdSort where
  sort := List.insertionSort fun first last => first.time ≤ last.time
  perm queue := List.perm_insertionSort _ queue
  sorted queue := List.pairwise_insertionSort _ queue

theorem checkConnected_stableSort {check : Check} (room : check.HasRoom) (node : SNode) :
    node.checkConnected stableSort check =
      node.checkQueue check.allSubs check.now check.delays := by
  rw [checkConnected, checkPass_eq room, finishPass, resorted_toPass, checkQueue]
  simp only [Pass.requests, Drained.toPass, List.length_eq_zero_iff]
  rfl

/-! ## What the loop does to the queue -/

/-- What an entry contributes to the request. -/
def contribution (check : Check) (entry : QueueEntry) : MonitorRequest :=
  (renewal check entry).elim [] fun renewed => dicts check renewed.1 renewed.2

/-- The entries that the loop pushes for those it takes off, when it has
already pushed `count`. -/
def renewals (check : Check) : Nat → List QueueEntry → List QueueEntry
  | _, [] => []
  | count, entry :: rest =>
      match renewal check entry with
      | none => renewals check count rest
      | some (account, _) => renewedEntry check count account :: renewals check (count + 1) rest

/-- Renewed entries are due after the shortest delay at the earliest. -/
theorem renewals_time {check : Check} (room : check.HasRoom) {count : Nat}
    {handled : List QueueEntry} :
    ∀ entry ∈ renewals check count handled,
      check.now + resubscribeMin * second ≤ entry.time ∧
        entry.time ≤ check.now + resubscribeMax * second := by
  induction handled generalizing count with
  | nil => simp [renewals]
  | cons first rest ih =>
      rw [renewals]
      cases renewal check first with
      | none => exact ih
      | some renewed =>
          exact List.forall_mem_cons.mpr ⟨renewedEntry_time room count renewed.1, ih⟩

/-- The loop has taken `handled` off the queue. -/
structure Drains (check : Check) (queue added : List QueueEntry) (request : MonitorRequest)
    (handled : List QueueEntry) (drained : Drained) : Prop where
  split : queue = handled ++ drained.rest
  due : ∀ entry ∈ handled, entry.time ≤ check.now
  pushed : drained.added = added ++ renewals check added.length handled
  sent : drained.request = request ++ handled.flatMap (contribution check)
  /-- Without the limit it stops at an entry that is not due. -/
  stopped : drained.rateLimited = false → ∀ entry ∈ drained.rest.head?, check.now < entry.time
  /-- It only reaches the limit by renewing something. -/
  progress : drained.rateLimited = true → renewals check added.length handled ≠ []

section Drains

variable {check : Check} {entry : QueueEntry} {rest added handled : List QueueEntry}
  {request : MonitorRequest} {drained : Drained}

/-- A turn that just takes its entry off. -/
theorem Drains.skip (drains : Drains check rest added request handled drained)
    (due : entry.time ≤ check.now) (skip : renewal check entry = none) :
    Drains check (entry :: rest) added request (entry :: handled) drained := by
  have same : renewals check added.length (entry :: handled) =
      renewals check added.length handled := by
    rw [renewals, skip]
  have nothing : contribution check entry = [] := by
    rw [contribution, skip, Option.elim_none]
  refine ⟨?_, ?_, ?_, ?_, drains.stopped, ?_⟩
  · rw [List.cons_append, ← drains.split]
  · exact List.forall_mem_cons.mpr ⟨due, drains.due⟩
  · rw [same, drains.pushed]
  · rw [List.flatMap_cons, nothing, List.nil_append, drains.sent]
  · rw [same]
    exact drains.progress

variable {account : SwarmPubkey} {subscriber : Subscriber}

theorem renewals_cons (renew : renewal check entry = some (account, subscriber)) (count : Nat)
    (handled : List QueueEntry) :
    renewals check count (entry :: handled) =
      renewedEntry check count account :: renewals check (count + 1) handled := by
  rw [renewals, renew]

theorem contribution_eq (renew : renewal check entry = some (account, subscriber)) :
    contribution check entry = dicts check account subscriber := by
  rw [contribution, renew, Option.elim_some]

/-- A turn that renews its entry, with the turns after it. -/
theorem Drains.renew (due : entry.time ≤ check.now)
    (renew : renewal check entry = some (account, subscriber))
    (drains : Drains check rest (added ++ [renewedEntry check added.length account])
      (request ++ dicts check account subscriber) handled drained) :
    Drains check (entry :: rest) added request (entry :: handled) drained := by
  refine ⟨?_, ?_, ?_, ?_, drains.stopped, ?_⟩
  · rw [List.cons_append, ← drains.split]
  · exact List.forall_mem_cons.mpr ⟨due, drains.due⟩
  · rw [renewals_cons renew, drains.pushed, List.append_assoc, List.length_append,
      List.length_singleton, List.singleton_append]
  · rw [List.flatMap_cons, contribution_eq renew, drains.sent, List.append_assoc]
  · rw [renewals_cons renew]
    exact fun _ => List.cons_ne_nil _ _

/-- A turn that renews its entry and reaches the limit. -/
theorem Drains.limit (due : entry.time ≤ check.now)
    (renew : renewal check entry = some (account, subscriber)) (rest added : List QueueEntry)
    (request : MonitorRequest) :
    Drains check (entry :: rest) added request [entry]
      ⟨rest, added ++ [renewedEntry check added.length account],
        request ++ dicts check account subscriber, true⟩ := by
  refine ⟨rfl, ?_, ?_, ?_, ?_, ?_⟩
  · exact List.forall_mem_singleton.mpr due
  · rw [renewals_cons renew, renewals]
  · rw [List.flatMap_singleton, contribution_eq renew]
  · intro limited
    contradiction
  · rw [renewals_cons renew]
    exact fun _ => List.cons_ne_nil _ _

end Drains

/-- A loop that starts with nothing pushed. -/
theorem Drains.added_eq {check : Check} {queue handled : List QueueEntry}
    {request : MonitorRequest} {drained : Drained}
    (drains : Drains check queue [] request handled drained) :
    drained.added = renewals check 0 handled :=
  drains.pushed

/-- A loop that starts with an empty request. -/
theorem Drains.request_eq {check : Check} {queue added handled : List QueueEntry}
    {drained : Drained} (drains : Drains check queue added [] handled drained) :
    drained.request = handled.flatMap (contribution check) :=
  drains.sent

/-- Every run of the loop takes a part off the front of the queue. -/
theorem exists_drains (check : Check) (queue added : List QueueEntry) (request : MonitorRequest) :
    ∃ handled, Drains check queue added request handled (drainFor check queue added request) := by
  induction queue generalizing added request with
  | nil => exact ⟨[], by simp [drainFor_nil], by simp, by simp [drainFor_nil, renewals],
      by simp [drainFor_nil], by simp [drainFor_nil], by simp [drainFor_nil]⟩
  | cons entry rest ih =>
      by_cases future : check.now < entry.time
      · rw [drainFor_future future]
        exact ⟨[], rfl, by simp, by simp [renewals], by simp, by simpa using future, by simp⟩
      · have due : entry.time ≤ check.now := not_lt.mp future
        cases renew : renewal check entry with
        | none =>
            rw [drainFor_skip due renew]
            obtain ⟨handled, drains⟩ := ih added request
            exact ⟨entry :: handled, drains.skip due renew⟩
        | some renewed =>
            obtain ⟨account, subscriber⟩ := renewed
            rw [drainFor_renew due renew]
            simp only
            split_ifs with full
            · exact ⟨[entry], Drains.limit due renew rest added request⟩
            · obtain ⟨handled, drains⟩ := ih (added ++ [renewedEntry check added.length account])
                (request ++ dicts check account subscriber)
              exact ⟨entry :: handled, drains.renew due renew⟩

end SNode

end Spns.Hive
