import Spns.Hive.FlowControl

/-!
# The limit of a monitor request

`SUBS_REQUEST_LIMIT` is the maximum number of subscriptions in one request.
The loop of `check_subs` compares with it after it has appended all usable
subscriptions of an account, and an account may have any number of them.  So
a request is within the limit if the counts of the due accounts, added up in
the order of the queue, do not jump over it.  A loop that comes back to renewed
entries sends nothing, so it makes no difference here.
-/

namespace Spns.Hive.SNode

open Spns
open Spns.Lib.Unordered

/-- The number of subscriptions that an entry adds to a request. -/
def usableCount (check : Check) (entry : QueueEntry) : Nat :=
  (contribution check entry).length

/-- The entries before the first one that is not due. -/
def dueEntries (check : Check) (queue : List QueueEntry) : List QueueEntry :=
  queue.takeWhile fun entry => entry.time ≤ check.now

/-- The requests that `check_subs` sends if its loop ends within so many turns;
a node without a connection sends none. -/
def monitorRequests (check : Check) (turns : Nat) (node : SNode) : Option (List MonitorRequest) :=
  if node.connected then (node.passWithin check turns).map Pass.requests else some []

/-- Every request that a check sends is within the limit. -/
def WithinLimit (check : Check) (node : SNode) : Prop :=
  ∀ turns requests, node.monitorRequests check turns = some requests →
    ∀ request ∈ requests, request.length ≤ subsRequestLimit

/-- Added to `count`, the counts of the entries stay below the limit, or meet
it after some of the entries. -/
def MeetsLimit (check : Check) (count : Nat) (entries : List QueueEntry) : Prop :=
  count + (entries.map (usableCount check)).sum < subsRequestLimit ∨
    ∃ front, front <+: entries ∧ count + (front.map (usableCount check)).sum = subsRequestLimit

theorem meetsLimit_nil {check : Check} {count : Nat} (below : count < subsRequestLimit) :
    MeetsLimit check count [] :=
  Or.inl below

theorem meetsLimit_cons {check : Check} {count : Nat} (below : count < subsRequestLimit)
    (entry : QueueEntry) (rest : List QueueEntry) :
    MeetsLimit check count (entry :: rest) ↔
      MeetsLimit check (count + usableCount check entry) rest := by
  rw [MeetsLimit, MeetsLimit, List.map_cons, List.sum_cons, ← Nat.add_assoc]
  refine or_congr_right ⟨?_, ?_⟩
  · rintro ⟨front, start, met⟩
    rcases List.prefix_cons_iff.mp start with rfl | ⟨later, rfl, inner⟩
    · exact absurd met (Nat.ne_of_lt below)
    · rw [List.map_cons, List.sum_cons, ← Nat.add_assoc] at met
      exact ⟨later, inner, met⟩
  · rintro ⟨front, start, met⟩
    refine ⟨entry :: front, List.prefix_cons_iff.mpr (Or.inr ⟨front, rfl, start⟩), ?_⟩
    rw [List.map_cons, List.sum_cons, ← Nat.add_assoc]
    exact met

/-- Past the limit nothing brings the count back. -/
theorem meetsLimit_iff_eq {check : Check} {count : Nat} (reached : subsRequestLimit ≤ count)
    (entries : List QueueEntry) : MeetsLimit check count entries ↔ count = subsRequestLimit := by
  constructor
  · rintro (below | ⟨front, -, met⟩)
    · omega
    · omega
  · intro equal
    exact Or.inr ⟨[], List.nil_prefix, equal⟩

/-- The loop with a request that is not full yet. -/
theorem drainFor_request_le_iff (check : Check) (queue added : List QueueEntry)
    (request : MonitorRequest) (below : request.length < subsRequestLimit) :
    (drainFor check queue added request).request.length ≤ subsRequestLimit ↔
      MeetsLimit check request.length (dueEntries check queue) := by
  induction queue generalizing added request with
  | nil => exact iff_of_true below.le (meetsLimit_nil below)
  | cons entry rest ih =>
      by_cases future : check.now < entry.time
      · rw [drainFor_future future, dueEntries, List.takeWhile_cons_of_neg (by simpa using future)]
        exact iff_of_true below.le (meetsLimit_nil below)
      · have due : entry.time ≤ check.now := not_lt.mp future
        rw [dueEntries, List.takeWhile_cons_of_pos (by simpa using due), meetsLimit_cons below]
        cases renew : renewal check entry with
        | none =>
            have nothing : usableCount check entry = 0 := by
              rw [usableCount, contribution, renew, Option.elim_none, List.length_nil]
            rw [drainFor_skip due renew, nothing, Nat.add_zero]
            exact ih added request below
        | some renewed =>
            obtain ⟨account, subscriber⟩ := renewed
            have appended : (request ++ dicts check account subscriber).length =
                request.length + usableCount check entry := by
              rw [usableCount, contribution_eq renew, List.length_append]
            rw [drainFor_renew due renew, ← appended]
            simp only
            split_ifs with full
            · rw [meetsLimit_iff_eq full]
              exact ⟨fun atMost => Nat.le_antisymm atMost full, Nat.le_of_eq⟩
            · exact ih _ _ (not_le.mp full)

/-- Accounts without a usable subscription do not reach the limit. -/
theorem meetsLimit_of_none {check : Check} (none : ∀ sub, inWindow check.now sub = false)
    (entries : List QueueEntry) : MeetsLimit check 0 entries := by
  have zero : ∀ entry, usableCount check entry = 0 := by
    intro entry
    rw [usableCount, contribution]
    cases renewal check entry with
    | none => rfl
    | some renewed => simp [dicts, none]
  have sum : (entries.map (usableCount check)).sum = 0 := by
    induction entries with
    | nil => rfl
    | cons entry rest ih => rw [List.map_cons, List.sum_cons, zero, ih]
  refine Or.inl ?_
  rw [sum]
  decide

/-- A check sends what the loop has put into the request. -/
theorem withinLimit_of_connected {check : Check} {node : SNode} (connected : node.connected = true) :
    WithinLimit check node ↔ ∀ turns pass, node.passWithin check turns = some pass →
      ∀ request ∈ pass.requests, request.length ≤ subsRequestLimit := by
  simp only [WithinLimit, monitorRequests, if_pos connected, Option.map_eq_some_iff]
  constructor
  · exact fun within turns pass looped => within turns _ ⟨pass, looped, rfl⟩
  · rintro within turns _ ⟨pass, looped, rfl⟩
    exact within turns pass looped

/-- A check keeps its request within the limit exactly if the node is not
connected, or the counts of its due accounts do not jump over the limit. -/
theorem requests_within_limit_iff (check : Check) (node : SNode) (reading : IsInt64 check.now) :
    WithinLimit check node ↔
      node.connected = false ∨ MeetsLimit check 0 (dueEntries check node.next) := by
  cases connected : node.connected with
  | false =>
      refine iff_of_true (fun turns requests sent => ?_) (Or.inl rfl)
      rw [monitorRequests, connected] at sent
      cases sent
      simp
  | true =>
      rw [withinLimit_of_connected connected, or_iff_right (by decide)]
      by_cases room : check.HasRoom
      · have within := drainFor_request_le_iff check node.next [] [] (by decide)
        rw [List.length_nil] at within
        rw [← within]
        have requests : (node.checkPass check).requests =
            if (drainFor check node.next [] []).request = [] then []
            else [(drainFor check node.next [] []).request] :=
          checkConnected_requests stableSort room node
        constructor
        · intro every
          have sent := every _ _ (passWithin_eq_checkPass room node (Nat.lt_succ_self _))
          rw [requests] at sent
          split_ifs at sent with empty
          · rw [empty]
            decide
          · exact sent _ (List.mem_singleton_self _)
        · intro atMost turns pass looped request member
          rw [eq_checkPass room looped, requests] at member
          split_ifs at member
          · contradiction
          · rw [List.mem_singleton.mp member]
            exact atMost
      · have quiet := inWindow_eq_false reading room
        refine iff_of_true ?_ (meetsLimit_of_none quiet _)
        intro turns pass looped request member
        rw [requests_quiet quiet looped] at member
        contradiction

/-- A connected node with one new account. -/
def oneAccount : SNode :=
  Flow.idle.node.addAccount (Flow.plainAccount 1) false

/-- The account has one subscription more than a request may contain. -/
def crowdedCheck : Check where
  allSubs := (∅ : Subscribers).insert (Flow.plainAccount 1).id
    ⟨Flow.plainAccount 1, Flow.singleNamespaces 2001⟩
  now := 1700000000 * second
  delays := fun _ => shortestDelay

theorem crowdedCheck_exceeds_limit : ¬WithinLimit crowdedCheck oneAccount := by
  intro within
  have sent : (oneAccount.monitorRequests crowdedCheck 2).map (List.map List.length) =
      some [2001] := by
    decide +kernel
  obtain ⟨requests, found, lengths⟩ := Option.map_eq_some_iff.mp sent
  have member : 2001 ∈ requests.map List.length := by
    rw [lengths]
    exact List.mem_singleton_self 2001
  obtain ⟨request, requestMem, length⟩ := List.mem_map.mp member
  have bound := within 2 requests found request requestMem
  rw [length] at bound
  exact absurd bound (by decide)

/-- With the subscriptions of the other check the account fits into one request. -/
theorem busyCheck_within_limit : WithinLimit Flow.busyCheck oneAccount := by
  apply (requests_within_limit_iff Flow.busyCheck oneAccount (by decide)).mpr
  refine Or.inr (Or.inr ⟨dueEntries Flow.busyCheck oneAccount.next, List.prefix_refl _, ?_⟩)
  decide +kernel

end Spns.Hive.SNode
