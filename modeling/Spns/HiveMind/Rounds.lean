import Spns.Hive.RequestLimit
import Spns.HiveMind.QueueOrder

/-!
# Rounds of checks

A node that is checked again and again, by ticks and by the continuations of
rate-limited requests.  One check may stop at the limit and leave accounts
behind that are due.  Within the shortest delay after the first check, no
renewed account comes due again, so the due accounts are used up: each of them
is renewed by exactly one check.

The window of the signatures is computed in the range of the clock, where it
can wrap around, and so can the time of a signature.  A device may choose the
timestamp so that it does, and the subscription is sent although its signature
is outside of the window.
-/

namespace Spns.Hive

open Spns
open Spns.Lib
open Spns.Lib.Unordered

/-! ## The window of the signatures -/

/-- A signature that the storage servers accept at `now`. -/
def Subscription.acceptedAt (now : SysTime) (sub : Subscription) : Bool :=
  now - signatureExpiry * second + 10 * second ≤ sub.sigTs * second ∧
    sub.sigTs * second ≤ now + signatureEarly * second

/-- The window lies in the range of the clock. -/
structure Check.HasWindow (check : Check) : Prop where
  low : IsInt64 (check.now - signatureExpiry * second + 10 * second)
  high : IsInt64 (check.now + signatureEarly * second)

/-- The window ends after the longest delay. -/
theorem Check.HasWindow.hasRoom {check : Check} (window : check.HasWindow) : check.HasRoom := by
  have low := window.low
  have high := window.high
  simp only [IsInt64, signatureExpiry, signatureEarly, second] at low high
  constructor
  · simp only [IsInt64]
    omega
  · simp only [IsInt64, resubscribeMax, second]
    omega

/-- In the range of the clock the test of the loop is exact. -/
theorem Check.HasWindow.inWindow_eq {check : Check} (window : check.HasWindow) {sub : Subscription}
    (signed : IsInt64 (sub.sigTs * second)) :
    SNode.inWindow check.now sub = sub.acceptedAt check.now := by
  rw [SNode.inWindow, SNode.sigMin, SNode.sigMax, int64_eq window.low, int64_eq window.high,
    int64_eq signed]
  rfl

namespace SNode

/-! ## The states between the checks -/

/-- The node before each check. -/
def rounds (sort : StdSort) (checks : Nat → Check) (node : SNode) : Nat → SNode
  | 0 => node
  | round + 1 => ((rounds sort checks node round).checkConnected sort (checks round)).1

/-- The accounts that a check renews, in the order in which it does. -/
def renewedBy (check : Check) (node : SNode) : List SwarmPubkey :=
  (node.checkPass check).pushed.filterMap QueueEntry.account

/-- The dicts of the subscriptions of an account that storage servers accept
at the time of the check. -/
def acceptable (check : Check) (account : SwarmPubkey) : MonitorRequest :=
  ((check.allSubs.lookup account.id).map fun subscriber =>
    (subscriber.subscriptions.filter (Subscription.acceptedAt check.now)).map
      (monitorEntry account)).getD []

/-- The times of all signatures of the accounts lie in the range of the
clock. -/
def Signed (check : Check) (ids : List AccountID) : Prop :=
  ∀ id ∈ ids, ∀ subscriber, check.allSubs.lookup id = some subscriber →
    ∀ sub ∈ subscriber.subscriptions, IsInt64 (sub.sigTs * second)

/-- The entries of an account. -/
def entriesOf (id : AccountID) (queue : List QueueEntry) : List QueueEntry :=
  queue.filter fun entry => entry.account.map SwarmPubkey.id = some id

/-- A sorted queue with at most one entry for each account, and checks within
the shortest delay which know all of the accounts. -/
structure CheckedSoon (checks : Nat → Check) (node : SNode) : Prop where
  sorted : Sorted node.next
  one : node.liveIds.Nodup
  known : ∀ round, ∀ id ∈ node.liveIds, id ∈ (checks round).allSubs
  forward : ∀ round, (checks round).now ≤ (checks (round + 1)).now
  within : ∀ round, (checks round).now < (checks 0).now + resubscribeMin * second

/-- Nothing that the checks compare lies outside of the range of the clock. -/
structure Checked (checks : Nat → Check) (node : SNode) : Prop extends CheckedSoon checks node where
  window : ∀ round, (checks round).HasWindow
  signed : ∀ round, Signed (checks round) node.liveIds

/-- The check of one round renews the account, and no other one does.  Its
subscriptions are in the request of that check, and from then on its only entry
lies between the shortest and the longest delay after it. -/
structure RenewedOnce (sort : StdSort) (checks : Nat → Check) (node : SNode)
    (account : SwarmPubkey) (round : Nat) : Prop where
  mem : account ∈ renewedBy (checks round) (rounds sort checks node round)
  once : ((renewedBy (checks round) (rounds sort checks node round)).map SwarmPubkey.id).Nodup
  only : ∀ other, account.id ∈
    (renewedBy (checks other) (rounds sort checks node other)).map SwarmPubkey.id → other = round
  request : ((rounds sort checks node round).checkPass (checks round)).request =
    (renewedBy (checks round) (rounds sort checks node round)).flatMap (acceptable (checks round))
  entry : ∀ later, round < later → ∃ time,
    (checks round).now + resubscribeMin * second ≤ time ∧
      time ≤ (checks round).now + resubscribeMax * second ∧
      entriesOf account.id (rounds sort checks node later).next = [⟨some account, time⟩]

/-! ## One check -/

/-- The loop sends the subscriptions that are accepted. -/
theorem dicts_eq {check : Check} (window : check.HasWindow) {account : SwarmPubkey}
    {subscriber : Subscriber}
    (signed : ∀ sub ∈ subscriber.subscriptions, IsInt64 (sub.sigTs * second)) :
    dicts check account subscriber =
      (subscriber.subscriptions.filter (Subscription.acceptedAt check.now)).map
        (monitorEntry account) := by
  rw [dicts, List.filter_congr fun sub member => window.inWindow_eq (signed sub member)]

/-- The request has what the entries taken off contribute. -/
theorem flatMap_contribution {check : Check} (window : check.HasWindow)
    {handled : List QueueEntry} (signed : Signed check (queueIds handled)) :
    handled.flatMap (contribution check) =
      (handled.filterMap QueueEntry.account).flatMap (acceptable check) := by
  induction handled with
  | nil => rfl
  | cons entry rest ih =>
      rw [List.flatMap_cons, contribution, renewal]
      cases account : entry.account with
      | none =>
          rw [queueIds_cons_none account] at signed
          rw [List.filterMap_cons_none account, Option.bind_none, Option.elim_none,
            List.nil_append, ih signed]
      | some key =>
          rw [queueIds_cons_some account] at signed
          obtain ⟨own, others⟩ := List.forall_mem_cons.mp signed
          rw [List.filterMap_cons_some account, List.flatMap_cons, acceptable, Option.bind_some,
            ih others]
          cases found : check.allSubs.lookup key.id with
          | none => rfl
          | some subscriber =>
              rw [Option.map_some, Option.elim_some, Option.map_some, Option.getD_some,
                dicts_eq window (own subscriber found)]

/-- What a check with the known accounts does: it takes `handled` off and
leaves `rest`. -/
structure RoundSpec (sort : StdSort) (check : Check) (node : SNode)
    (handled rest : List QueueEntry) : Prop where
  split : node.next = handled ++ rest
  due : ∀ entry ∈ handled, entry.time ≤ check.now
  perm : (node.checkConnected sort check).1.next.Perm (rest ++ renewals check 0 handled)
  accounts : (renewals check 0 handled).filterMap QueueEntry.account =
    handled.filterMap QueueEntry.account
  renewed : renewedBy check node = handled.filterMap QueueEntry.account
  request : (node.checkPass check).request = (renewedBy check node).flatMap (acceptable check)
  sorted : Sorted (node.checkConnected sort check).1.next
  /-- Without the limit nothing is due after the check. -/
  done : (node.checkPass check).rateLimited = false →
    ∀ entry ∈ (node.checkConnected sort check).1.next, check.now < entry.time
  progress : (node.checkPass check).rateLimited = true → handled ≠ []

/-- In a sorted queue nothing is due behind an entry that is not. -/
theorem Sorted.lt_of_head {queue : List QueueEntry} (sorted : Sorted queue) {now : SysTime}
    (head : ∀ entry ∈ queue.head?, now < entry.time) : ∀ entry ∈ queue, now < entry.time := by
  cases queue with
  | nil => simp
  | cons first rest =>
      have future : now < first.time := head first rfl
      exact List.forall_mem_cons.mpr ⟨future, fun entry member =>
        future.trans_le (List.rel_of_pairwise_cons sorted member)⟩

theorem exists_roundSpec {check : Check} {node : SNode} (sorted : Sorted node.next)
    (known : ∀ id ∈ node.liveIds, id ∈ check.allSubs) (window : check.HasWindow)
    (signed : Signed check node.liveIds) (sort : StdSort) :
    ∃ handled rest, RoundSpec sort check node handled rest := by
  obtain ⟨handled, drains⟩ := exists_drains check node.next [] []
  have room := window.hasRoom
  have pushed := drains.added_eq
  have perm := resorted_perm sort check.now (drainFor check node.next [] [])
  rw [← checkConnected_next sort room, pushed] at perm
  have accounts := accounts_renewals (drains.known known) 0
  have renewed : renewedBy check node = handled.filterMap QueueEntry.account := by
    rw [renewedBy, checkPass_eq room, pushed_toPass, pushed, accounts]
  have handledSigned : Signed check (queueIds handled) := by
    intro id member
    apply signed id
    rw [liveIds, drains.split, queueIds_append]
    exact List.mem_append_left _ member
  have restSorted := drains.sorted_rest sorted
  refine ⟨handled, (drainFor check node.next [] []).rest, drains.split, drains.due, perm, accounts,
    renewed, ?_, ?_, ?_, ?_⟩
  · rw [renewed, ← flatMap_contribution window handledSigned, checkPass_eq room]
    exact drains.request_eq
  · rw [checkConnected_next sort room]
    exact drains.sorted_resorted room restSorted sort
  · intro unlimited entry member
    rw [checkPass_eq room] at unlimited
    rw [perm.mem_iff, List.mem_append] at member
    rcases member with old | new
    · exact restSorted.lt_of_head (drains.stopped unlimited) entry old
    · exact (Int.lt_add_of_pos_right check.now (by decide)).trans_le
        (renewals_time room entry new).1
  · intro limited none
    rw [checkPass_eq room] at limited
    apply drains.progress limited
    rw [none]
    rfl

/-! ## The queue over the rounds -/

section Rounds

variable {sort : StdSort} {checks : Nat → Check} {node : SNode}

/-- A check of the same accounts in a sorted queue. -/
theorem Checked.exists_roundSpec_of_perm (checked : Checked checks node) (sort : StdSort)
    {round : Nat} (sorted : Sorted (rounds sort checks node round).next)
    (perm : (rounds sort checks node round).liveAccounts.Perm node.liveAccounts) :
    ∃ handled rest, RoundSpec sort (checks round) (rounds sort checks node round) handled rest := by
  have same : ∀ id ∈ (rounds sort checks node round).liveIds, id ∈ node.liveIds :=
    fun id member => (perm.map SwarmPubkey.id).mem_iff.mp member
  apply exists_roundSpec sorted _ (checked.window round)
  · exact fun id member => checked.signed round id (same id member)
  · exact fun id member => checked.known round id (same id member)

/-- The accounts stay the same, and the queue stays sorted. -/
theorem Checked.accounts_rounds (checked : Checked checks node) (round : Nat) :
    Sorted (rounds sort checks node round).next ∧
      (rounds sort checks node round).liveAccounts.Perm node.liveAccounts := by
  induction round with
  | zero => exact ⟨checked.sorted, List.Perm.refl _⟩
  | succ round ih =>
      obtain ⟨sorted, perm⟩ := ih
      obtain ⟨handled, rest, spec⟩ := checked.exists_roundSpec_of_perm sort sorted perm
      refine ⟨spec.sorted, ?_⟩
      have moved := spec.perm.filterMap QueueEntry.account
      rw [List.filterMap_append, spec.accounts] at moved
      have before : (rounds sort checks node round).liveAccounts =
          handled.filterMap QueueEntry.account ++ rest.filterMap QueueEntry.account := by
        rw [liveAccounts, spec.split, List.filterMap_append]
      rw [before] at perm
      exact (moved.trans List.perm_append_comm).trans perm

theorem Checked.roundSpec (checked : Checked checks node) (sort : StdSort) (round : Nat) :
    ∃ handled rest, RoundSpec sort (checks round) (rounds sort checks node round) handled rest := by
  obtain ⟨sorted, perm⟩ := checked.accounts_rounds round
  exact checked.exists_roundSpec_of_perm sort sorted perm

theorem Checked.nodup_rounds (checked : Checked checks node) (sort : StdSort) (round : Nat) :
    (rounds sort checks node round).liveIds.Nodup :=
  ((checked.accounts_rounds round).2.map SwarmPubkey.id).nodup_iff.mpr checked.one

theorem Checked.now_le (checked : Checked checks node) {first last : Nat} (order : first ≤ last) :
    (checks first).now ≤ (checks last).now :=
  monotone_nat_of_le_succ checked.forward order

/-- Nothing that a check renews comes due within the shortest delay after the
first check. -/
theorem Checked.renewals_after (checked : Checked checks node) {round count : Nat}
    {handled : List QueueEntry} {entry : QueueEntry}
    (member : entry ∈ renewals (checks round) count handled) :
    (checks 0).now + resubscribeMin * second ≤ entry.time := by
  have started : (checks 0).now + resubscribeMin * second ≤
      (checks round).now + resubscribeMin * second :=
    Int.add_le_add_right (checked.now_le (Nat.zero_le round)) _
  exact started.trans (renewals_time (checked.window round).hasRoom entry member).1

/-- The number of entries that can come due in the rounds. -/
def earlyCount (checks : Nat → Check) (queue : List QueueEntry) : Nat :=
  queue.countP fun entry => entry.time < (checks 0).now + resubscribeMin * second

/-- A check lowers it by the number of entries that it takes off. -/
theorem Checked.earlyCount_round (checked : Checked checks node) {round : Nat}
    {handled rest : List QueueEntry}
    (spec : RoundSpec sort (checks round) (rounds sort checks node round) handled rest) :
    earlyCount checks (rounds sort checks node (round + 1)).next + handled.length =
      earlyCount checks (rounds sort checks node round).next := by
  have handledEarly : handled.countP (fun entry =>
      entry.time < (checks 0).now + resubscribeMin * second) = handled.length := by
    rw [List.countP_eq_length]
    intro entry member
    exact decide_eq_true ((spec.due entry member).trans_lt (checked.within round))
  have renewedLate : (renewals (checks round) 0 handled).countP (fun entry =>
      entry.time < (checks 0).now + resubscribeMin * second) = 0 := by
    rw [List.countP_eq_zero]
    intro entry member
    simpa using checked.renewals_after member
  have after := spec.perm.countP_eq fun entry =>
    decide (entry.time < (checks 0).now + resubscribeMin * second)
  rw [List.countP_append, renewedLate] at after
  rw [earlyCount, earlyCount, spec.split, List.countP_append, handledEarly, rounds, after]
  omega

/-- The limit stops only finitely many checks, and one of the first ones ends
without it. -/
theorem Checked.exists_unlimited (checked : Checked checks node) (sort : StdSort) :
    (∃ round, round ≤ node.next.length ∧
        ((rounds sort checks node round).checkPass (checks round)).rateLimited = false) ∧
      ∃ bound, ∀ round, bound ≤ round →
        ((rounds sort checks node round).checkPass (checks round)).rateLimited = false := by
  have never : ∀ round, earlyCount checks (rounds sort checks node (round + 1)).next ≤
      earlyCount checks (rounds sort checks node round).next := by
    intro round
    obtain ⟨handled, rest, spec⟩ := checked.roundSpec sort round
    have step := checked.earlyCount_round spec
    omega
  have shrinks : ∀ round,
      ((rounds sort checks node round).checkPass (checks round)).rateLimited = true →
      earlyCount checks (rounds sort checks node (round + 1)).next <
        earlyCount checks (rounds sort checks node round).next := by
    intro round limited
    obtain ⟨handled, rest, spec⟩ := checked.roundSpec sort round
    have step := checked.earlyCount_round spec
    have some := List.length_pos_of_ne_nil (spec.progress limited)
    omega
  constructor
  · obtain ⟨round, small, unlimited⟩ := Run.exists_not_fires
      (fun round => earlyCount checks (rounds sort checks node round).next)
      (fun round => ((rounds sort checks node round).checkPass (checks round)).rateLimited = true)
      shrinks
    exact ⟨round, small.trans List.countP_le_length, Bool.eq_false_iff.mpr unlimited⟩
  · obtain ⟨bound, unlimited⟩ := Run.eventually_not_fires
      (fun round => earlyCount checks (rounds sort checks node round).next)
      (fun round => ((rounds sort checks node round).checkPass (checks round)).rateLimited = true)
      never shrinks
    exact ⟨bound, fun round later => Bool.eq_false_iff.mpr (unlimited round later)⟩

/-! ## One account -/

theorem mem_queueIds {queue : List QueueEntry} {entry : QueueEntry} {account : SwarmPubkey}
    (member : entry ∈ queue) (live : entry.account = some account) :
    account.id ∈ queueIds queue :=
  List.mem_map_of_mem (List.mem_filterMap.mpr ⟨entry, member, live⟩)

/-- The only entry of an account. -/
theorem entriesOf_eq_singleton {queue : List QueueEntry} (nodup : (queueIds queue).Nodup)
    {entry : QueueEntry} {account : SwarmPubkey} (live : entry.account = some account)
    (member : entry ∈ queue) : entriesOf account.id queue = [entry] := by
  induction queue with
  | nil => contradiction
  | cons first rest ih =>
      rw [entriesOf, List.filter_cons]
      rcases List.mem_cons.mp member with rfl | later
      · rw [queueIds_cons_some live, List.nodup_cons] at nodup
        have others : rest.filter (fun other =>
            other.account.map SwarmPubkey.id = some account.id) = [] := by
          rw [List.filter_eq_nil_iff]
          intro other otherMem same
          obtain ⟨key, otherLive, sameId⟩ := Option.map_eq_some_iff.mp (of_decide_eq_true same)
          exact nodup.1 (sameId ▸ mem_queueIds otherMem otherLive)
        rw [if_pos (by simp [live]), others]
      · cases owner : first.account with
        | none =>
            rw [queueIds_cons_none owner] at nodup
            rw [if_neg (by simp)]
            exact ih nodup later
        | some key =>
            rw [queueIds_cons_some owner, List.nodup_cons] at nodup
            have different : key.id ≠ account.id := by
              intro same
              exact nodup.1 (same ▸ mem_queueIds later live)
            rw [if_neg (by simpa using different)]
            exact ih nodup.2 later

/-- An entry that no check takes off stays in the queue. -/
theorem Checked.entry_stays (checked : Checked checks node) {entry : QueueEntry}
    {account : SwarmPubkey} (live : entry.account = some account) (member : entry ∈ node.next)
    {round : Nat} (spared : ∀ other, other < round →
      account ∉ renewedBy (checks other) (rounds sort checks node other)) :
    entry ∈ (rounds sort checks node round).next := by
  induction round with
  | zero => exact member
  | succ round ih =>
      obtain ⟨handled, rest, spec⟩ := checked.roundSpec sort round
      have before := ih fun other earlier => spared other (Nat.lt_succ_of_lt earlier)
      rw [spec.split, List.mem_append] at before
      rw [rounds, spec.perm.mem_iff]
      rcases before with taken | left
      · have renewed : account ∈ renewedBy (checks round) (rounds sort checks node round) := by
          rw [spec.renewed]
          exact List.mem_filterMap.mpr ⟨entry, taken, live⟩
        exact absurd renewed (spared round (Nat.lt_succ_self round))
      · exact List.mem_append_left _ left

/-- A renewed account has a late entry from then on, and is not renewed
again. -/
theorem Checked.entry_after (checked : Checked checks node) {account : SwarmPubkey} {round : Nat}
    (renewed : account ∈ renewedBy (checks round) (rounds sort checks node round)) :
    ∃ time, (checks round).now + resubscribeMin * second ≤ time ∧
      time ≤ (checks round).now + resubscribeMax * second ∧
      ∀ later, round < later →
        ⟨some account, time⟩ ∈ (rounds sort checks node later).next ∧
        account.id ∉ (renewedBy (checks later) (rounds sort checks node later)).map
          SwarmPubkey.id := by
  obtain ⟨handled, rest, spec⟩ := checked.roundSpec sort round
  rw [spec.renewed, ← spec.accounts] at renewed
  obtain ⟨⟨owner, time⟩, pushed, equal⟩ := List.mem_filterMap.mp renewed
  cases equal
  have bounds := renewals_time (checked.window round).hasRoom _ pushed
  have late : ∀ other, (checks other).now < time := fun other =>
    (checked.within other).trans_le (checked.renewals_after pushed)
  have stays : ∀ later, round + 1 ≤ later →
      ⟨some account, time⟩ ∈ (rounds sort checks node later).next := by
    intro later after
    induction later, after using Nat.le_induction with
    | base =>
        rw [rounds, spec.perm.mem_iff]
        exact List.mem_append_right rest pushed
    | succ later _ ih =>
        obtain ⟨taken, left, spec⟩ := checked.roundSpec sort later
        rw [rounds, spec.perm.mem_iff]
        rw [spec.split, List.mem_append] at ih
        rcases ih with due | waiting
        · exact absurd (spec.due _ due) (not_le.mpr (late later))
        · exact List.mem_append_left _ waiting
  refine ⟨time, bounds.1, bounds.2, fun later after => ⟨stays later after, ?_⟩⟩
  -- Two live entries of the account would have the same id.
  obtain ⟨taken, left, spec⟩ := checked.roundSpec sort later
  have present := stays later after
  have nodup := checked.nodup_rounds sort later
  rw [spec.split, List.mem_append] at present
  rw [liveIds, spec.split, queueIds_append] at nodup
  rw [spec.renewed]
  rcases present with due | waiting
  · exact absurd (spec.due _ due) (not_le.mpr (late later))
  · exact fun again => List.disjoint_of_nodup_append nodup again (mem_queueIds waiting rfl)

/-- Some check renews an account that is due at the first one. -/
theorem Checked.exists_renewedBy (checked : Checked checks node) (sort : StdSort)
    {entry : QueueEntry} {account : SwarmPubkey} (live : entry.account = some account)
    (member : entry ∈ node.next) (due : entry.time ≤ (checks 0).now) :
    ∃ round, account ∈ renewedBy (checks round) (rounds sort checks node round) := by
  obtain ⟨last, -, unlimited⟩ := (checked.exists_unlimited sort).1
  obtain ⟨handled, rest, spec⟩ := checked.roundSpec sort last
  by_contra! spared
  have stays : entry ∈ (rounds sort checks node (last + 1)).next :=
    checked.entry_stays live member fun other _ => spared other
  have future := spec.done unlimited entry stays
  exact absurd (due.trans (checked.now_le (Nat.zero_le last))) (not_le.mpr future)

theorem Checked.renewedOnce (checked : Checked checks node) {account : SwarmPubkey} {round : Nat}
    (renewed : account ∈ renewedBy (checks round) (rounds sort checks node round)) :
    RenewedOnce sort checks node account round := by
  obtain ⟨handled, rest, spec⟩ := checked.roundSpec sort round
  obtain ⟨time, atLeast, atMost, after⟩ := checked.entry_after renewed
  refine ⟨renewed, ?_, ?_, spec.request, ?_⟩
  · have nodup := checked.nodup_rounds sort round
    rw [liveIds, spec.split, queueIds_append] at nodup
    rw [spec.renewed]
    exact nodup.of_append_left
  · intro other again
    rcases Nat.lt_trichotomy other round with earlier | same | later
    · -- the earlier renewal rules out this one
      obtain ⟨key, keyRenewed, sameId⟩ := List.mem_map.mp again
      obtain ⟨_, -, -, never⟩ := checked.entry_after keyRenewed
      have absent := (never round earlier).2
      rw [sameId] at absent
      exact absurd (List.mem_map_of_mem renewed) absent
    · exact same
    · exact absurd again (after other later).2
  · intro later afterwards
    exact ⟨time, atLeast, atMost, entriesOf_eq_singleton (checked.nodup_rounds sort later) rfl
      (after later afterwards).1⟩

end Rounds

/-- Checks of a connected node within the shortest delay, in the range of the
clock: every loop ends; one of the first checks, and all from some check on,
leave nothing due; each account that was due at the first check is renewed
exactly once; and the entries that are not due at a check are kept. -/
theorem every_due_account_renewed_once (sort : StdSort) (checks : Nat → Check) (node : SNode)
    (checked : Checked checks node) :
    (∀ round turns, (rounds sort checks node round).next.length < turns →
        (rounds sort checks node round).passWithin (checks round) turns =
          some ((rounds sort checks node round).checkPass (checks round))) ∧
      (∃ round, round ≤ node.next.length ∧
        ∀ entry ∈ (rounds sort checks node (round + 1)).next, (checks round).now < entry.time) ∧
      (∃ bound, ∀ round, bound ≤ round →
        ∀ entry ∈ (rounds sort checks node (round + 1)).next, (checks round).now < entry.time) ∧
      (∀ entry ∈ node.next, ∀ account, entry.account = some account →
        entry.time ≤ (checks 0).now → ∃ round, RenewedOnce sort checks node account round) ∧
      ∀ round, List.Subperm
        ((rounds sort checks node round).next.filter fun entry => (checks round).now < entry.time)
        (rounds sort checks node (round + 1)).next := by
  have done : ∀ round,
      ((rounds sort checks node round).checkPass (checks round)).rateLimited = false →
      ∀ entry ∈ (rounds sort checks node (round + 1)).next, (checks round).now < entry.time := by
    intro round unlimited
    obtain ⟨handled, rest, spec⟩ := checked.roundSpec sort round
    exact spec.done unlimited
  obtain ⟨⟨first, small, firstDone⟩, bound, laterDone⟩ := checked.exists_unlimited sort
  refine ⟨?_, ⟨first, small, done first firstDone⟩,
    ⟨bound, fun round later => done round (laterDone round later)⟩, ?_, ?_⟩
  · exact fun round turns enough =>
      passWithin_eq_checkPass (checked.window round).hasRoom _ enough
  · intro entry member account live due
    obtain ⟨round, renewed⟩ := checked.exists_renewedBy sort live member due
    exact ⟨round, checked.renewedOnce renewed⟩
  · intro round
    obtain ⟨handled, rest, spec⟩ := checked.roundSpec sort round
    have none : handled.filter (fun entry => (checks round).now < entry.time) = [] := by
      rw [List.filter_eq_nil_iff]
      intro entry member
      simpa using spec.due entry member
    rw [spec.split, List.filter_append, none, List.nil_append]
    have kept : List.Subperm rest (rounds sort checks node (round + 1)).next :=
      (List.sublist_append_left rest _).subperm.trans spec.perm.symm.subperm
    exact List.filter_sublist.subperm.trans kept

/-- A node with two new accounts, the first of which fills a request. -/
def twoAccounts : SNode :=
  (Flow.idle.node.addAccount (Flow.plainAccount 2) false).addAccount (Flow.plainAccount 1) false

theorem busyCheck_subscriptions {id : AccountID} {subscriber : Subscriber}
    (found : Flow.busyCheck.allSubs.lookup id = some subscriber) :
    ∃ count, subscriber.subscriptions = Flow.singleNamespaces count := by
  rw [Flow.busyCheck, Map.lookup_insert_eq] at found
  split_ifs at found
  · refine ⟨1, ?_⟩
    rw [← Option.some.inj found]
  · rw [Map.lookup_insert_eq] at found
    split_ifs at found
    · refine ⟨2000, ?_⟩
      rw [← Option.some.inj found]
    · contradiction

theorem checked_twoAccounts : Checked (fun _ => Flow.busyCheck) twoAccounts where
  sorted := by
    have times : twoAccounts.next.map QueueEntry.time = [systemEpoch, systemEpoch] := by
      decide +kernel
    have sorted : (twoAccounts.next.map QueueEntry.time).Pairwise (· ≤ ·) := by
      rw [times]
      decide
    exact List.pairwise_map.mp sorted
  one := by decide +kernel
  known := by
    intro _ id member
    have ids : twoAccounts.liveIds = [(Flow.plainAccount 1).id, (Flow.plainAccount 2).id] := by
      decide +kernel
    rw [ids] at member
    have keys : Flow.busyCheck.allSubs.keys =
        [(Flow.plainAccount 2).id, (Flow.plainAccount 1).id] := by
      decide +kernel
    rw [AList.mem_keys, keys]
    simpa [or_comm] using member
  forward _ := Int.le_refl _
  within _ := Int.lt_add_of_pos_right _ (by decide)
  window _ := ⟨by decide, by decide⟩
  signed _ := by
    intro id _ subscriber found sub member
    have signedAt : sub.sigTs = 1700000000 := by
      obtain ⟨count, all⟩ := busyCheck_subscriptions found
      rw [all] at member
      obtain ⟨number, -, rfl⟩ := List.mem_map.mp member
      rfl
    rw [signedAt]
    decide

/-- The second account has to wait for another check, and is renewed too. -/
theorem twoAccounts_renewed_once :
    (twoAccounts.checkPass Flow.busyCheck).rateLimited = true ∧
      ∃ round, RenewedOnce stableSort (fun _ => Flow.busyCheck) twoAccounts (Flow.plainAccount 2)
        round := by
  refine ⟨by decide +kernel, ?_⟩
  obtain ⟨-, -, -, renewed, -⟩ := every_due_account_renewed_once stableSort
    (fun _ => Flow.busyCheck) twoAccounts checked_twoAccounts
  have member : ⟨some (Flow.plainAccount 2), systemEpoch⟩ ∈ twoAccounts.next := by
    decide +kernel
  exact renewed _ member _ rfl (by decide)

/-! ## Signatures that wrap around -/

/-- A subscription that was signed `2 ^ 63` seconds before the check. -/
def wrappedCheck : Check where
  allSubs := (∅ : Subscribers).insert (Flow.plainAccount 1).id ⟨Flow.plainAccount 1,
    [Subscription.single 0 (1700000000 - 2 ^ 63) (FixedBytes.replicate 64 7)]⟩
  now := 1700000000 * second
  delays := fun _ => shortestDelay

/-- The same check 40 minutes before the last reading of the clock. -/
def lateCheck : Check :=
  { wrappedCheck with now := 2 ^ 63 - 1 - 40 * 60 * second }

/-- The subscription is sent, although its signature is not accepted any more;
and the late check never ends. -/
theorem wrappedCheck_not_renewed_once :
    (CheckedSoon (fun _ => wrappedCheck) oneAccount ∧
        ∃ entry ∈ oneAccount.next, entry.account = some (Flow.plainAccount 1) ∧
          entry.time ≤ wrappedCheck.now ∧ ¬∃ round,
            RenewedOnce stableSort (fun _ => wrappedCheck) oneAccount (Flow.plainAccount 1) round) ∧
      CheckedSoon (fun _ => lateCheck) oneAccount ∧
        ∀ turns, oneAccount.passWithin lateCheck turns = none := by
  have queue : oneAccount.next = [⟨some (Flow.plainAccount 1), systemEpoch⟩] := rfl
  have scheduled : ∀ now, CheckedSoon (fun _ => { wrappedCheck with now := now }) oneAccount := by
    intro now
    have ids : oneAccount.liveIds = [(Flow.plainAccount 1).id] := rfl
    refine ⟨?_, ?_, ?_, fun _ => Int.le_refl _, fun _ => Int.lt_add_of_pos_right _ (by decide)⟩
    · rw [queue]
      exact List.pairwise_singleton _ _
    · rw [ids]
      exact List.nodup_singleton _
    · intro _ id member
      rw [ids] at member
      rw [List.mem_singleton.mp member]
      exact (AList.mem_insert _).mpr (Or.inl rfl)
  refine ⟨⟨scheduled _, ⟨some (Flow.plainAccount 1), systemEpoch⟩, ?_, rfl, by decide, ?_⟩,
    scheduled _, ?_⟩
  · rw [queue]
    exact List.mem_singleton_self _
  · rintro ⟨round, renewed⟩
    have first : (renewedBy wrappedCheck oneAccount).map SwarmPubkey.id =
        [(Flow.plainAccount 1).id] := by
      decide +kernel
    have start := renewed.only 0 (by
      rw [rounds, first]
      exact List.mem_singleton_self _)
    subst start
    have lengths : (oneAccount.checkPass wrappedCheck).request.length = 1 ∧
        ((renewedBy wrappedCheck oneAccount).flatMap (acceptable wrappedCheck)).length = 0 := by
      decide +kernel
    have same := congrArg List.length renewed.request
    rw [rounds, lengths.1, lengths.2] at same
    contradiction
  · intro turns
    have known : (renewal lateCheck ⟨some (Flow.plainAccount 1), systemEpoch⟩).isSome = true := by
      decide +kernel
    have late : ¬lateCheck.HasRoom := fun room => absurd room.longest (by decide)
    have wraps : renewAt lateCheck.now shortestDelay ≤ lateCheck.now := by decide
    apply Pass.loop_eq_none (inWindow_eq_false (by decide) late) (fun _ => wraps) rfl _ _ known
    · rw [Pass.start, queue]
      exact List.forall_mem_singleton.mpr (by decide)
    · rw [Pass.start, queue]
      exact List.mem_singleton_self _

end SNode

end Spns.Hive
