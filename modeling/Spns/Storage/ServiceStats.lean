import Spns.Lib.Locking
import Spns.Notify.WellFormed

/-!
# Statistics of the services

The notifiers report statistics every few seconds, every batch of notifications
adds to two counters of the server itself, and every subscription to one of the
server and one of its service.  All of this goes into one table, in transactions
of several threads that may run at the same time.

A report writes the rows of its service in any order, but first the one that
says when the service was last heard of, where it meets all other reports of
the service.  A subscription writes a row of the service last.
-/

namespace Spns.Storage

open Spns
open Spns.Lib
open Spns.Lib.Bencode
open Spns.Lib.Locking
open Spns.Notify

/-- The primary key of `service_stats`. -/
structure StatKey where
  service : Bytes
  name : Bytes
  deriving DecidableEq

/-- `val_str` or `val_int`: the table has a check that one of them is null and
the other one is not. -/
inductive StatValue where
  | str (text : Bytes)
  | int (value : Int)
  deriving DecidableEq

/-- The range of a `BIGINT`. -/
def InBigint (value : Int) : Prop :=
  -2 ^ 63 ≤ value ∧ value < 2 ^ 63

instance (value : Int) : Decidable (InBigint value) :=
  inferInstanceAs (Decidable (_ ∧ _))

/-- Both forms of `set_stat`. -/
def setStat (service name : Bytes) (value : StatValue) : Locking.Write StatKey StatValue :=
  ⟨⟨service, name⟩, fun _ => some value⟩

/-- `COALESCE(service_stats.val_int, 0)` -/
def coalesce : StatValue → Int
  | .str _ => 0
  | .int value => value

/-- `increment_stat`; a sum that is no `BIGINT` is an error. -/
def incrementStat (service name : Bytes) (incr : Int) : Locking.Write StatKey StatValue where
  row := ⟨service, name⟩
  update
    | none => some (.int incr)
    | some value =>
        if InBigint (coalesce value + incr) then some (.int (coalesce value + incr)) else none

/-! ## Reports -/

/-- The turn of the loop of `on_service_stats` for an entry; `none` is an
exception. -/
def entryStatement (service key : Bytes) (item : Item) : Option (Locking.Write StatKey StatValue) :=
  match key with
  | 43 :: name => (integerOf 64 item).map fun value => incrementStat service name value.val
  | _ =>
      match item with
      | .integer _ => (integerOf 64 item).map fun value => setStat service key (.int value.val)
      | .string text => some (setStat service key (.str text))
      | .other => none

/-- The statements of the loop, and whether it gets to the end. -/
def entryStatements (service : Bytes) : Contents → List (Locking.Write StatKey StatValue) × Bool
  | .finished => ([], true)
  | .unreadable => ([], false)
  | .entry key item rest =>
      match entryStatement service key item with
      | none => ([], false)
      | some write =>
          let (writes, complete) := entryStatements service rest
          (write :: writes, complete)

/-- `last.<service>` -/
def lastName (service : Bytes) : Bytes :=
  [108, 97, 115, 116, 46] ++ service

/-- The transactions that write to `service_stats`, by their statements on it. -/
inductive StatsCall where
  /-- A report with its time; the contents are `none` when the second part of the
  message is no dictionary. -/
  | serviceStats (service : Bytes) (named : service ≠ []) (now : Int) (contents : Option Contents)
  /-- The end of `add_subscription`. -/
  | subscribed (service : Bytes) (newSub : Bool)
  /-- The end of a batch. -/
  | processed (notifyCount size : Int)

/-- `on_service_stats` up to its transaction. -/
def onServiceStats (dictionary : Bytes → Option Contents) (now : Int) :
    (parts : List Bytes) → Option StatsCall
  | [service, report] =>
      if named : service ≠ [] then some (.serviceStats service named now (dictionary report))
      else none
  | _ => none

/-- `subscription` or `sub_renew` -/
def subscribedName (newSub : Bool) : Bytes :=
  if newSub then [115, 117, 98, 115, 99, 114, 105, 112, 116, 105, 111, 110]
  else [115, 117, 98, 95, 114, 101, 110, 101, 119]

namespace StatsCall

def writes : StatsCall → List (Locking.Write StatKey StatValue)
  | .serviceStats service _ now (some contents) =>
      setStat [] (lastName service) (.int now) :: (entryStatements service contents).1
  | .serviceStats _ _ _ none => []
  | .subscribed service newSub =>
      [incrementStat [] (subscribedName newSub) 1, incrementStat service (subscribedName newSub) 1]
  | .processed notifyCount size =>
      [incrementStat [] [110, 111, 116, 105, 102, 105, 99, 97, 116, 105, 111, 110, 115] notifyCount,
        incrementStat [] [112, 117, 115, 104, 101, 115] size]

/-- An exception in the loop leaves the transaction without its commit. -/
def commits : StatsCall → Bool
  | .serviceStats service _ _ (some contents) => (entryStatements service contents).2
  | .serviceStats _ _ _ none => false
  | .subscribed _ _ => true
  | .processed _ _ => true

end StatsCall

def statsProgram : Program StatKey StatValue StatsCall :=
  ⟨StatsCall.writes, StatsCall.commits⟩

/-! ## Rows of transactions -/

theorem row_of_entryStatement {service key : Bytes} {item : Item}
    {write : Locking.Write StatKey StatValue} (stated : entryStatement service key item = some write) :
    write.row.service = service := by
  unfold entryStatement at stated
  split at stated
  · obtain ⟨value, -, rfl⟩ := Option.map_eq_some_iff.mp stated
    rfl
  · split at stated
    · obtain ⟨value, -, rfl⟩ := Option.map_eq_some_iff.mp stated
      rfl
    · cases stated
      rfl
    · contradiction

theorem row_of_mem_entryStatements {service : Bytes} {contents : Contents}
    {write : Locking.Write StatKey StatValue} (member : write ∈ (entryStatements service contents).1) :
    write.row.service = service := by
  induction contents with
  | finished => exact absurd member List.not_mem_nil
  | unreadable => exact absurd member List.not_mem_nil
  | entry key item rest ih =>
      rw [entryStatements] at member
      split at member
      · exact absurd member List.not_mem_nil
      · rename_i first stated
        rcases List.mem_cons.mp member with rfl | later
        · exact row_of_entryStatement stated
        · exact ih later

/-- The rows of a transaction. -/
def StatsCall.Owns (key : StatKey) : StatsCall → Prop
  | .serviceStats service _ _ _ => key = ⟨[], lastName service⟩ ∨ key.service = service
  | .subscribed service newSub =>
      key = ⟨[], subscribedName newSub⟩ ∨ key = ⟨service, subscribedName newSub⟩
  | .processed _ _ =>
      key.service = [] ∧
        (key.name = [110, 111, 116, 105, 102, 105, 99, 97, 116, 105, 111, 110, 115] ∨
          key.name = [112, 117, 115, 104, 101, 115])

theorem owns_of_mem_writes {call : StatsCall} {write : Locking.Write StatKey StatValue}
    (member : write ∈ call.writes) : call.Owns write.row := by
  match call with
  | .serviceStats service named now (some contents) =>
      rcases List.mem_cons.mp member with rfl | later
      · exact Or.inl rfl
      · exact Or.inr (row_of_mem_entryStatements later)
  | .serviceStats service named now none => exact absurd member List.not_mem_nil
  | .subscribed service newSub =>
      simp only [StatsCall.writes, List.mem_cons, List.not_mem_nil, or_false] at member
      rcases member with rfl | rfl
      · exact Or.inl rfl
      · exact Or.inr rfl
  | .processed notifyCount size =>
      simp only [StatsCall.writes, List.mem_cons, List.not_mem_nil, or_false] at member
      rcases member with rfl | rfl
      · exact ⟨rfl, Or.inl rfl⟩
      · exact ⟨rfl, Or.inr rfl⟩

/-- The first row of a transaction. -/
def gate : StatsCall → StatKey
  | .serviceStats service _ _ _ => ⟨[], lastName service⟩
  | .subscribed _ newSub => ⟨[], subscribedName newSub⟩
  | .processed _ _ => ⟨[], [110, 111, 116, 105, 102, 105, 99, 97, 116, 105, 111, 110, 115]⟩

theorem row_eq_gate {call : StatsCall} {write : Locking.Write StatKey StatValue}
    {rest : List (Locking.Write StatKey StatValue)} (split : call.writes = write :: rest) :
    write.row = gate call := by
  match call with
  | .serviceStats service named now (some contents) =>
      obtain ⟨rfl, -⟩ := List.cons.inj split
      rfl
  | .serviceStats service named now none => cases split
  | .subscribed service newSub =>
      obtain ⟨rfl, -⟩ := List.cons.inj split
      rfl
  | .processed notifyCount size =>
      obtain ⟨rfl, -⟩ := List.cons.inj split
      rfl

/-- A transaction that has not begun waits for one that has.  A subscription
that has begun waits for reports only, and a report for subscriptions that have
written everything. -/
def statsRank (session : Session StatKey StatValue StatsCall) : Nat :=
  if session.label.writes.length ≤ session.todo.length then 3
  else
    match session.label with
    | .serviceStats _ _ _ _ => 1
    | .subscribed _ _ => if session.todo.isEmpty then 0 else 2
    | .processed _ _ => 0

theorem statsRank_run (label : StatsCall) (write : Locking.Write StatKey StatValue)
    (rest : List (Locking.Write StatKey StatValue)) (own other : Table StatKey StatValue) :
    statsRank ⟨label, rest, other⟩ ≤ statsRank ⟨label, write :: rest, own⟩ := by
  simp only [statsRank, List.length_cons, List.isEmpty_cons, Bool.false_eq_true, if_false]
  cases label <;> simp only <;> split_ifs <;> omega

section Waiting

variable {base : Table StatKey StatValue} {state : Locking.State StatKey StatValue StatsCall}
  {session : Session StatKey StatValue StatsCall}

/-- What is known of a transaction that has written a row. -/
structure Begun (session : Session StatKey StatValue StatsCall) (key : StatKey) : Prop where
  short : ¬session.label.writes.length ≤ session.todo.length
  first : ∃ gate rest, session.label.writes = gate :: rest ∧ (session.own gate.row).isSome = true
  /-- The row is among the statements before the ones to do. -/
  done : ∃ done write, session.label.writes = done ++ session.todo ∧ write ∈ done ∧ write.row = key

theorem begun_of_written (serial : Serial statsProgram base state) {id : Nat}
    (found : state.sessions.lookup id = some session) {key : StatKey}
    (written : (session.own key).isSome = true) : Begun session key := by
  obtain ⟨done, partway⟩ := serial.partway id session found
  obtain ⟨write, member, same⟩ := (partway.written key).mp written
  have split : session.label.writes = done ++ session.todo := partway.split
  refine ⟨?_, partway.first written, done, write, split, member, same⟩
  have some := List.length_pos_of_mem member
  rw [split, List.length_append]
  omega

/-- Two transactions that have begun differ in their first rows. -/
theorem gate_ne (serial : Serial statsProgram base state) {id holder : Nat}
    (different : holder ≠ id) {waiting : Session StatKey StatValue StatsCall}
    (found : state.sessions.lookup id = some waiting)
    (holding : state.sessions.lookup holder = some session) {key other : StatKey}
    (begun : Begun waiting key) (held : Begun session other) :
    gate waiting.label ≠ gate session.label := by
  obtain ⟨first, rest, split, own⟩ := begun.first
  obtain ⟨otherFirst, otherRest, otherSplit, otherOwn⟩ := held.first
  rw [row_eq_gate split] at own
  rw [row_eq_gate otherSplit] at otherOwn
  intro same
  rw [same, serial.exclusive holder id session waiting _ different holding found otherOwn] at own
  contradiction

theorem Begun.owns {key : StatKey} (begun : Begun session key) : session.label.Owns key := by
  obtain ⟨done, write, split, member, rfl⟩ := begun.done
  exact owns_of_mem_writes (split ▸ List.mem_append_left _ member)

/-- The second and last row of a subscription. -/
theorem todo_of_subscribed {service : Bytes} {newSub : Bool}
    (label : session.label = .subscribed service newSub) {key : StatKey} (begun : Begun session key)
    (second : key ≠ ⟨[], subscribedName newSub⟩) : session.todo = [] := by
  obtain ⟨done, write, split, member, rfl⟩ := begun.done
  rw [label, StatsCall.writes] at split
  match done with
  | [] => exact absurd member List.not_mem_nil
  | [first] =>
      obtain ⟨rfl, -⟩ := List.cons.inj split
      rw [List.mem_singleton.mp member] at second
      exact absurd rfl second
  | [_, _] => exact (List.cons.inj (List.cons.inj split).2).2.symm
  | _ :: _ :: _ :: _ => cases (List.cons.inj (List.cons.inj split).2).2

/-- A report that has begun waits for a row of its service. -/
theorem waits_of_report {service : Bytes} (isService : service ≠ []) {key : StatKey}
    (ofService : key.service = service) (held : Begun session key)
    (apart : ∀ named now contents,
      gate (.serviceStats service named now contents) ≠ gate session.label) :
    statsRank session < 1 := by
  have rows := held.owns
  rw [statsRank, if_neg held.short]
  cases label : session.label with
  | serviceStats other named now contents =>
      rw [label] at rows
      rcases rows with last | own
      · rw [last] at ofService
        exact absurd ofService.symm isService
      · obtain rfl : other = service := own.symm.trans ofService
        exact absurd (congrArg gate label.symm) (apart named now contents)
  | subscribed other newSub =>
      have second : key ≠ ⟨[], subscribedName newSub⟩ := by
        rintro rfl
        exact isService ofService.symm
      simp only [todo_of_subscribed label held second, List.isEmpty_nil, if_true]
      exact Nat.zero_lt_one
  | processed notifyCount size => exact Nat.zero_lt_one

/-- A subscription that has begun waits for the row of its service. -/
theorem waits_of_subscribed {service : Bytes} {newSub : Bool}
    (held : Begun session ⟨service, subscribedName newSub⟩)
    (apart : gate (.subscribed service newSub) ≠ gate session.label) : statsRank session < 2 := by
  have rows := held.owns
  rw [statsRank, if_neg held.short]
  cases label : session.label with
  | serviceStats other named now contents => exact Nat.one_lt_two
  | subscribed other again =>
      rw [label] at rows
      simp only [StatsCall.Owns, StatKey.mk.injEq] at rows
      have name : subscribedName newSub = subscribedName again := rows.elim And.right And.right
      refine absurd ?_ apart
      rw [label, gate, gate, name]
  | processed notifyCount size => exact Nat.zero_lt_two

/-- A batch that has begun does not wait. -/
theorem not_waits_of_processed
    (held : Begun session ⟨[], [112, 117, 115, 104, 101, 115]⟩)
    (apart : ∀ notifyCount size, gate (.processed notifyCount size) ≠ gate session.label) : False := by
  have rows := held.owns
  cases label : session.label with
  | serviceStats service named now contents =>
      rw [label] at rows
      simp only [StatsCall.Owns, StatKey.mk.injEq, lastName] at rows
      rcases rows with ⟨-, last⟩ | own
      · cases last
      · exact named own.symm
  | subscribed service newSub =>
      rw [label] at rows
      simp only [StatsCall.Owns, StatKey.mk.injEq] at rows
      have name : [112, 117, 115, 104, 101, 115] = subscribedName newSub :=
        rows.elim And.right And.right
      cases newSub <;> exact absurd name (by decide)
  | processed notifyCount size =>
      exact apart notifyCount size (by rw [label])

end Waiting

theorem ranked_statsRank : Ranked statsProgram statsRank where
  run label write rest own value := statsRank_run label write rest own _
  waits := by
    intro base state serial id holder label write rest own session different found holding written
    have held := begun_of_written serial holding written
    by_cases fresh : label.writes.length ≤ (write :: rest).length
    · rw [statsRank, if_neg held.short, statsRank, if_pos fresh]
      cases session.label with
      | subscribed service newSub => simp only; split_ifs <;> omega
      | _ => simp only; omega
    · obtain ⟨done, partway⟩ := serial.partway id _ found
      have split : label.writes = done ++ write :: rest := partway.split
      match done with
      | [] => exact absurd (split ▸ le_rfl) fresh
      | first :: later =>
          have begun := begun_of_written serial found
            ((partway.written first.row).mpr ⟨first, List.mem_cons_self, rfl⟩)
          have apart : gate label ≠ gate session.label :=
            gate_ne serial different found holding begun held
          rw [statsRank.eq_def ⟨label, write :: rest, own⟩, if_neg fresh]
          match label with
          | .serviceStats service named now (some contents) =>
              have entries : (entryStatements service contents).1 = later ++ write :: rest :=
                (List.cons.inj split).2
              have ofService := row_of_mem_entryStatements
                (entries ▸ List.mem_append_right later List.mem_cons_self)
              exact waits_of_report named ofService held fun _ _ _ => apart
          | .serviceStats service named now none => cases split
          | .subscribed service newSub =>
              have second : write = incrementStat service (subscribedName newSub) 1 := by
                match later with
                | [] => exact (List.cons.inj (List.cons.inj split).2).1.symm
                | [_] => cases (List.cons.inj (List.cons.inj split).2).2
                | _ :: _ :: _ => cases (List.cons.inj (List.cons.inj split).2).2
              rw [second] at held
              exact waits_of_subscribed held apart
          | .processed notifyCount size =>
              have second : write =
                  incrementStat [] [112, 117, 115, 104, 101, 115] size := by
                match later with
                | [] => exact (List.cons.inj (List.cons.inj split).2).1.symm
                | [_] => cases (List.cons.inj (List.cons.inj split).2).2
                | _ :: _ :: _ => cases (List.cons.inj (List.cons.inj split).2).2
              rw [second] at held
              exact (not_waits_of_processed held fun _ _ => apart).elim

/-! ## Amounts -/

/-- The number in a row; a text counts as nothing. -/
def amount (table : Table StatKey StatValue) (key : StatKey) : Int :=
  (table key).elim 0 coalesce

/-- What the entries with a mark before this name come to. -/
def added (name : Bytes) : Contents → Int
  | .entry key (.integer value) rest => (if key = 43 :: name then value else 0) + added name rest
  | .entry _ _ rest => added name rest
  | _ => 0

/-- No entry replaces the statistic of this name. -/
def Avoids (name : Bytes) : Contents → Prop
  | .entry key _ rest => key ≠ name ∧ Avoids name rest
  | _ => True

theorem amount_of_incrementStat {table after : Table StatKey StatValue} {service name : Bytes}
    {incr : Int} (ran : (incrementStat service name incr).run table = some after) :
    amount after ⟨service, name⟩ = amount table ⟨service, name⟩ + incr := by
  obtain ⟨value, updated, rfl⟩ := Option.map_eq_some_iff.mp ran
  simp only [incrementStat] at updated ⊢
  rw [amount, Function.update_self, Option.elim_some, amount]
  cases found : table ⟨service, name⟩ with
  | none =>
      rw [found] at updated
      cases updated
      rw [Option.elim_none, zero_add]
      rfl
  | some before =>
      rw [found] at updated
      simp only at updated
      split_ifs at updated
      cases updated
      rfl

theorem integerOf_eq_some {bits : Nat} {item : Item} {value : SignedInt bits}
    (read : integerOf bits item = some value) : item = .integer value.val := by
  cases item with
  | integer number =>
      rw [integerOf] at read
      split_ifs at read
      cases read
      rfl
  | _ => cases read

/-- One entry of a report. -/
theorem amount_of_entryStatement {table after : Table StatKey StatValue} {service name key : Bytes}
    {item : Item} {write : Locking.Write StatKey StatValue} {rest : Contents} (avoids : key ≠ name)
    (stated : entryStatement service key item = some write) (ran : write.run table = some after) :
    amount after ⟨service, name⟩ + added name rest =
      amount table ⟨service, name⟩ + added name (.entry key item rest) := by
  unfold entryStatement at stated
  split at stated
  · rename_i marked
    obtain ⟨value, read, rfl⟩ := Option.map_eq_some_iff.mp stated
    rw [integerOf_eq_some read, added]
    by_cases same : marked = name
    · rw [← same, amount_of_incrementStat ran, if_pos rfl]
      omega
    · have other : (incrementStat service marked value.val).row ≠ ⟨service, name⟩ :=
        fun equal => same (StatKey.mk.inj equal).2
      have apart : 43 :: marked ≠ 43 :: name := fun equal => same (List.cons.inj equal).2
      rw [amount, Write.run_other ran other, ← amount, if_neg apart]
      omega
  · rename_i unmarked
    have other : write.row ≠ ⟨service, name⟩ := by
      split at stated
      · obtain ⟨value, -, rfl⟩ := Option.map_eq_some_iff.mp stated
        exact fun equal => avoids (StatKey.mk.inj equal).2
      · cases stated
        exact fun equal => avoids (StatKey.mk.inj equal).2
      · contradiction
    have apart : key ≠ 43 :: name := fun equal => unmarked name equal
    rw [amount, Write.run_other ran other, ← amount]
    cases item with
    | integer value => rw [added, if_neg apart, zero_add]
    | _ => rfl

theorem amount_of_entryStatements {table after : Table StatKey StatValue} {service name : Bytes}
    {contents : Contents} (avoids : Avoids name contents)
    (complete : (entryStatements service contents).2 = true)
    (ran : runAll table (entryStatements service contents).1 = some after) :
    amount after ⟨service, name⟩ = amount table ⟨service, name⟩ + added name contents := by
  induction contents generalizing table with
  | finished =>
      obtain rfl := Option.some.inj ran
      exact (add_zero _).symm
  | unreadable => cases complete
  | entry key item rest ih =>
      rw [entryStatements] at complete ran
      cases stated : entryStatement service key item with
      | none =>
          rw [stated] at complete
          cases complete
      | some write =>
          rw [stated] at complete ran
          rw [runAll, List.foldlM_cons] at ran
          obtain ⟨between, first, following⟩ := Option.bind_eq_some_iff.mp ran
          rw [ih avoids.2 complete following]
          exact amount_of_entryStatement avoids.1 stated first

namespace StatsCall

/-- What a call is to add to a statistic of a service. -/
def reported (service name : Bytes) : StatsCall → Int
  | .serviceStats sender _ _ (some contents) => if sender = service then added name contents else 0
  | .subscribed sender newSub => if sender = service ∧ subscribedName newSub = name then 1 else 0
  | _ => 0

/-- A call only ever adds to a statistic of a service. -/
def OnlyAdds (service name : Bytes) : StatsCall → Prop
  | .serviceStats sender _ _ (some contents) => sender = service → Avoids name contents
  | _ => True

variable {service name : Bytes}

theorem amount_of_writes (isService : service ≠ []) {call : StatsCall}
    (adds : call.OnlyAdds service name) (commits : call.commits = true)
    {table after : Table StatKey StatValue} (ran : runAll table call.writes = some after) :
    amount after ⟨service, name⟩ = amount table ⟨service, name⟩ + call.reported service name := by
  match call with
  | .serviceStats sender named now (some contents) =>
      rw [StatsCall.writes, runAll, List.foldlM_cons] at ran
      obtain ⟨between, first, following⟩ := Option.bind_eq_some_iff.mp ran
      have last : (setStat [] (lastName sender) (.int now)).row ≠ ⟨service, name⟩ :=
        fun equal => isService (StatKey.mk.inj equal).1.symm
      have same : amount between ⟨service, name⟩ = amount table ⟨service, name⟩ := by
        rw [amount, Write.run_other first last, amount]
      by_cases own : sender = service
      · subst own
        rw [reported, if_pos rfl, amount_of_entryStatements (adds rfl) commits following, same]
      · have others : ∀ write ∈ (entryStatements sender contents).1,
            write.row ≠ ⟨service, name⟩ := by
          intro write member equal
          exact own (row_of_mem_entryStatements member ▸ congrArg StatKey.service equal)
        rw [reported, if_neg own, add_zero, ← same, amount, runAll_other following others, amount]
  | .serviceStats sender named now none => cases commits
  | .subscribed sender newSub =>
      rw [StatsCall.writes, runAll, List.foldlM_cons] at ran
      obtain ⟨between, first, following⟩ := Option.bind_eq_some_iff.mp ran
      rw [List.foldlM_cons] at following
      obtain ⟨last, second, finished⟩ := Option.bind_eq_some_iff.mp following
      obtain rfl : last = after := Option.some.inj finished
      have own : (incrementStat [] (subscribedName newSub) 1).row ≠ ⟨service, name⟩ :=
        fun equal => isService (StatKey.mk.inj equal).1.symm
      have same : amount between ⟨service, name⟩ = amount table ⟨service, name⟩ := by
        rw [amount, Write.run_other first own, amount]
      rw [reported, ← same]
      split_ifs with here
      · obtain ⟨rfl, rfl⟩ := here
        exact amount_of_incrementStat second
      · have other : (incrementStat sender (subscribedName newSub) 1).row ≠ ⟨service, name⟩ :=
          fun equal => here ⟨(StatKey.mk.inj equal).1, (StatKey.mk.inj equal).2⟩
        rw [amount, Write.run_other second other, add_zero, amount]
  | .processed notifyCount size =>
      have others : ∀ write ∈ (StatsCall.processed notifyCount size).writes,
          write.row ≠ ⟨service, name⟩ := by
        intro write member equal
        simp only [StatsCall.writes, List.mem_cons, List.not_mem_nil, or_false] at member
        rcases member with rfl | rfl <;> exact isService (StatKey.mk.inj equal).1.symm
      rw [amount, runAll_other ran others, ← amount]
      exact (add_zero _).symm

/-- The committed calls have added what they are to add. -/
theorem amount_of_replay (isService : service ≠ []) {log : List StatsCall}
    (adds : ∀ call ∈ log, call.OnlyAdds service name) (commits : ∀ call ∈ log, call.commits = true)
    {table after : Table StatKey StatValue} (ran : replay statsProgram table log = some after) :
    amount after ⟨service, name⟩ =
      amount table ⟨service, name⟩ + (log.map fun call => call.reported service name).sum := by
  induction log generalizing table with
  | nil =>
      obtain rfl := Option.some.inj ran
      exact (add_zero _).symm
  | cons call rest ih =>
      rw [replay, List.foldlM_cons] at ran
      obtain ⟨between, first, following⟩ := Option.bind_eq_some_iff.mp ran
      obtain ⟨here, later⟩ := List.forall_mem_cons.mp adds
      obtain ⟨commitsHere, commitsLater⟩ := List.forall_mem_cons.mp commits
      rw [ih later commitsLater following, amount_of_writes isService here commitsHere first,
        List.map_cons, List.sum_cons, add_assoc]

end StatsCall

/-! ## What is reported -/

/-- The transactions on the table: they act like the committed ones, one after
the other, and never block each other for good. -/
structure Orderly (base : Table StatKey StatValue)
    (state : Locking.State StatKey StatValue StatsCall) : Prop where
  replayed : replay statsProgram base state.log = some state.table
  /-- Only reports that can be read to their end are committed. -/
  complete : ∀ call ∈ state.log, call.commits = true
  ends : ∀ id, ∃ events after, (∀ event ∈ events, event.isProgress = true) ∧
    Run.exec (Locking.step statsProgram) state events = some after ∧ after.sessions.lookup id = none

/-- However reports, subscriptions and batches interleave: the table is what the
committed ones leave one after the other, and every transaction can end without
any being given up. -/
theorem service_stats_orderly (base : Table StatKey StatValue)
    {events : List (Locking.Event StatsCall)} {state : Locking.State StatKey StatValue StatsCall}
    (run : Run.exec (Locking.step statsProgram) (Locking.initial base) events = some state) :
    Orderly base state := by
  have serial := serial_of_exec run
  exact ⟨serial.replayed, serial.commits, serial.exists_end ranked_statsRank⟩

/-- A report of three notifications from `apns`, a batch of two, and a new
subscription for the same service. -/
def interleavedCalls : List (Locking.Event StatsCall) :=
  [.start 1 (.serviceStats [97, 112, 110, 115] (by decide) 1000
      (some (.entry [43, 110, 111, 116, 105, 102, 105, 101, 115] (.integer 3) .finished))),
    .start 2 (.processed 2 1), .run 1, .run 2, .start 3 (.subscribed [97, 112, 110, 115] true),
    .run 3, .run 1, .run 3, .run 2, .finish 2, .finish 3, .finish 1]

theorem interleavedCalls_orderly :
    ∃ state, Run.exec (Locking.step statsProgram) (Locking.initial fun _ => none)
      interleavedCalls = some state ∧ state.log.length = 3 ∧ Orderly (fun _ => none) state := by
  have ends : ((Run.exec (Locking.step statsProgram) (Locking.initial fun _ => none)
      interleavedCalls).map fun state => state.log.length) = some 3 := by
    decide +kernel
  obtain ⟨state, run, all⟩ := Option.map_eq_some_iff.mp ends
  exact ⟨state, run, all, service_stats_orderly _ run⟩

end Spns.Storage
