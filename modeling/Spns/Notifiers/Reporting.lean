import Mathlib.Data.List.Sort
import Spns.Lib.BencodeValue
import Spns.Lib.Totals
import Spns.Notifiers.Delivery
import Spns.Storage.ServiceStats

/-!
# From the notifiers to the database

A timer of a notifier sends its counters to the server and sets them back.  The
server adds what it is sent to the counters in the database, in transactions
that may run at the same time, end in an exception or be rolled back.  Nothing
waits for an answer: the books balance because every count is in one place at
any time.
-/

namespace Spns.Notifiers

open Spns
open Spns.Lib
open Spns.Lib.Bencode
open Spns.Lib.Locking
open Spns.Lib.Unordered
open Spns.Storage

/-! ## Messages -/

/-- The counters of a report. -/
inductive Counter where
  | notifies
  | notifyRetries
  | failures
  deriving DecidableEq

namespace Counter

/-- The name in the database. -/
def name : Counter → Bytes
  | .notifies => [110, 111, 116, 105, 102, 105, 101, 115]
  | .notifyRetries => [110, 111, 116, 105, 102, 121, 95, 114, 101, 116, 114, 105, 101, 115]
  | .failures => [102, 97, 105, 108, 117, 114, 101, 115]

/-- What a report says. -/
def ofReport (report : Report) : Counter → Nat
  | .notifies => report.notifies
  | .notifyRetries => report.notifyRetries
  | .failures => report.failures

/-- What is counted since the last report. -/
def ofStats (stats : NotifyStats) : Counter → Nat
  | .notifies => stats.notifies
  | .notifyRetries => stats.notifyRetries
  | .failures => stats.failures

/-- What was counted before. -/
def collected (stats : NotifyStats) : Counter → Nat
  | .notifies => stats.totalNotifies
  | .notifyRetries => stats.totalRetries
  | .failures => stats.totalFailures

end Counter

/-- `notifies_per_day.<m>m` -/
def perDayName (minutes : Nat) : Bytes :=
  [110, 111, 116, 105, 102, 105, 101, 115, 95, 112, 101, 114, 95, 100, 97, 121, 46] ++
    (decimalDigits minutes ++ [109])

/-- The dictionary of `collect`, in the order of insertion. -/
def reportFields (report : Report) : List (Bytes × Int) :=
  [(43 :: Counter.notifies.name, (report.notifies : Int)),
    (43 :: Counter.notifyRetries.name, (report.notifyRetries : Int)),
    (43 :: Counter.failures.name, (report.failures : Int))] ++
    report.perDay.map fun entry => (perDayName entry.1, entry.2)

/-- Bencoded dictionaries have their keys in order. -/
def sortedFields (report : Report) : List (Bytes × Int) :=
  (reportFields report).insertionSort fun first second => ¬second.1 < first.1

/-- The integers that `bt_serialize` takes. -/
def Serializable (value : Int) : Prop :=
  -2 ^ 63 ≤ value ∧ value < 2 ^ 64

instance (value : Int) : Decidable (Serializable value) :=
  inferInstanceAs (Decidable (_ ∧ _))

/-- A dictionary of integers. -/
def encodeIntegers (fields : List (Bytes × Int)) : Bytes :=
  encode (.dict (fields.map fun field => (field.1, Value.int field.2)))

/-- `bt_serialize` of a report; `none` is an exception. -/
def serializeReport (report : Report) : Option Bytes :=
  if ∀ field ∈ sortedFields report, Serializable field.2 then
    some (encodeIntegers (sortedFields report))
  else none

/-- The entries of a dictionary of integers. -/
def integerContents : List (Bytes × Int) → Contents
  | [] => .finished
  | (key, value) :: rest => .entry key (.integer value) (integerContents rest)

/-- `oxenc::bt_dict_consumer` at the beginning of a message: it finds the
entries of a dictionary with ascending keys. -/
structure DictReader where
  contents : Bytes → Option Contents
  contents_encode : ∀ fields : List (Bytes × Int), (fields.map Prod.fst).Pairwise (· < ·) →
    (∀ field ∈ fields, Serializable field.2) →
    contents (encodeIntegers fields) = some (integerContents fields)

/-! ## The system -/

/-- A notifier, its reports on the way to the server, and the database.  What
will not get into the database any more is lost. -/
structure Reporting where
  handler : ApnsHandler
  inFlight : List Bytes
  db : Locking.State StatKey StatValue StatsCall
  lost : Counter → Int

inductive ReportingEvent where
  /-- An event of the coroutines. -/
  | deliver (event : ApnsEvent)
  /-- The timer. -/
  | ping (now : ℚ)
  /-- The server begins with a report, in any order. -/
  | receive (index id : Nat) (now : Int)
  /-- The connection breaks, for example. -/
  | drop (index : Nat)
  /-- A transaction that has nothing to do with the notifier. -/
  | other (id : Nat) (call : StatsCall)
  | run (id : Nat)
  | finish (id : Nat)
  | rollback (id : Nat)

namespace Reporting

def initial (base : Table StatKey StatValue) : Reporting where
  handler := .initial
  inFlight := []
  db := Locking.initial base
  lost := fun _ => 0

/-- The call is a report of the service. -/
def concerns (service : Bytes) : StatsCall → Bool
  | .serviceStats sender _ _ _ => sender = service
  | _ => false

/-- What a report on its way is to add. -/
def carried (reader : DictReader) (counter : Counter) (body : Bytes) : Int :=
  (reader.contents body).elim 0 (added counter.name)

/-- The transaction has ended without a commit. -/
def isGivenUp (before after : Locking.State StatKey StatValue StatsCall) (id : Nat) : Bool :=
  (after.sessions.lookup id).isNone && after.log.length = before.log.length

/-- An event of a transaction in progress. -/
def goOn (service : Bytes) (reporting : Reporting) (id : Nat) (event : Locking.Event StatsCall) :
    Option Reporting := do
  let session ← reporting.db.sessions.lookup id
  let db ← Locking.step statsProgram reporting.db event
  some { reporting with
    db := db
    lost := fun counter =>
      if isGivenUp reporting.db db id then
        reporting.lost counter + session.label.reported service counter.name
      else reporting.lost counter }

def step (reader : DictReader) (service : Bytes) (maxRetries : Int) (reporting : Reporting) :
    ReportingEvent → Option Reporting
  | .deliver (.collect _) => none
  | .deliver event =>
      (reporting.handler.step maxRetries event).map fun handler =>
        { reporting with handler := handler }
  | .ping now =>
      match reporting.handler.stats.collect now with
      | .error _ => some reporting
      | .ok (report, stats) =>
          let handler := { reporting.handler with stats := stats }
          match serializeReport report with
          | some body =>
              some { reporting with handler := handler, inFlight := reporting.inFlight ++ [body] }
          | none =>
              some { reporting with
                handler := handler
                lost := fun counter => reporting.lost counter + counter.ofReport report }
  | .receive index id now => do
      let body ← reporting.inFlight[index]?
      let call ← onServiceStats reader.contents now [service, body]
      let db ← Locking.step statsProgram reporting.db (.start id call)
      some { reporting with db := db, inFlight := reporting.inFlight.eraseIdx index }
  | .drop index => do
      let body ← reporting.inFlight[index]?
      some { reporting with
        inFlight := reporting.inFlight.eraseIdx index
        lost := fun counter => reporting.lost counter + carried reader counter body }
  | .other id call =>
      if concerns service call then none
      else
        (Locking.step statsProgram reporting.db (.start id call)).map fun db =>
          { reporting with db := db }
  | .run id => reporting.goOn service id (.run id)
  | .finish id => reporting.goOn service id (.finish id)
  | .rollback id => reporting.goOn service id (.rollback id)

end Reporting

/-! ## Reports as the server reads them -/

theorem dictContents_encodeIntegers (fields : List (Bytes × Int)) :
    dictContents (encodeIntegers fields) = some (integerContents fields) := by
  rw [encodeIntegers, encode, dictContents, Option.some.injEq]
  induction fields with
  | nil => exact entries_end []
  | cons field rest ih =>
      obtain ⟨key, value⟩ := field
      rw [List.map_cons, encodeFields, encode, ← List.append_assoc, integerContents, ← ih]
      exact entries_integer key value _

/-- The reader as a program. -/
def dictReader : DictReader where
  contents := dictContents
  contents_encode fields _ _ := dictContents_encodeIntegers fields

theorem added_integerContents (name : Bytes) (fields : List (Bytes × Int)) :
    added name (integerContents fields) =
      (fields.map fun field => if field.1 = 43 :: name then field.2 else 0).sum := by
  induction fields with
  | nil => rfl
  | cons field rest ih =>
      rw [integerContents, added, ih, List.map_cons, List.sum_cons]

theorem avoids_integerContents {name : Bytes} {fields : List (Bytes × Int)}
    (others : ∀ field ∈ fields, field.1 ≠ name) : Avoids name (integerContents fields) := by
  induction fields with
  | nil => trivial
  | cons field rest ih =>
      obtain ⟨here, later⟩ := List.forall_mem_cons.mp others
      exact ⟨here, ih later⟩

theorem sortedFields_perm (report : Report) : (sortedFields report).Perm (reportFields report) :=
  List.perm_insertionSort _ _

theorem perDayName_ne_marked (minutes : Nat) (name : Bytes) : perDayName minutes ≠ 43 :: name := by
  intro same
  exact absurd (List.cons.inj same).1 (by decide)

theorem marked_ne_name (other counter : Counter) : 43 :: other.name ≠ counter.name := by
  intro same
  cases counter <;> exact absurd (List.cons.inj same).1 (by decide)

theorem perDayName_ne_name (minutes : Nat) (counter : Counter) :
    perDayName minutes ≠ counter.name := by
  intro same
  have length := congrArg List.length same
  simp only [perDayName, List.length_append, List.length_cons, List.length_nil] at length
  cases counter <;> simp only [Counter.name, List.length_cons, List.length_nil] at length <;> omega

theorem perDayName_injective {minutes other : Nat} (same : perDayName minutes = perDayName other) :
    minutes = other := by
  have digits := List.append_cancel_right (List.append_cancel_left same)
  rw [← digitsValue_decimalDigits minutes, digits, digitsValue_decimalDigits]

/-- The entries of a report add its counters. -/
theorem added_report (report : Report) (counter : Counter) :
    added counter.name (integerContents (sortedFields report)) = counter.ofReport report := by
  have rates : (report.perDay.map fun entry =>
      if perDayName entry.1 = 43 :: counter.name then entry.2 else 0).sum = 0 := by
    refine List.sum_eq_zero fun value member => ?_
    obtain ⟨entry, -, rfl⟩ := List.mem_map.mp member
    exact if_neg (perDayName_ne_marked entry.1 counter.name)
  rw [added_integerContents, ((sortedFields_perm report).map _).sum_eq, reportFields,
    List.map_append, List.sum_append, List.map_map]
  refine (congrArg (_ + ·) rates).trans ?_
  cases counter <;> simp [Counter.name, Counter.ofReport]

theorem avoids_report (report : Report) (counter : Counter) :
    Avoids counter.name (integerContents (sortedFields report)) := by
  refine avoids_integerContents fun field member => ?_
  rcases List.mem_append.mp ((sortedFields_perm report).mem_iff.mp member) with marked | rate
  · simp only [List.mem_cons, List.not_mem_nil, or_false] at marked
    rcases marked with rfl | rfl | rfl <;> exact marked_ne_name _ counter
  · obtain ⟨entry, -, rfl⟩ := List.mem_map.mp rate
    exact perDayName_ne_name entry.1 counter

/-- The windows of a report are reported once, in their order. -/
theorem perDay_sublist {now : ℚ} {hist : List Sample} {minutes : List Nat}
    {perDay result : List (Nat × Int)}
    (reported : minutes.foldlM (reportWindow now hist) perDay = .ok result) :
    ∃ more, result = perDay ++ more ∧ (more.map Prod.fst).Sublist minutes := by
  induction minutes generalizing perDay with
  | nil =>
      cases reported
      exact ⟨[], (List.append_nil _).symm, List.Sublist.slnil⟩
  | cons first rest ih =>
      rw [List.foldlM_cons] at reported
      cases turn : reportWindow now hist perDay first with
      | error raised =>
          rw [turn] at reported
          cases reported
      | ok between =>
          rw [turn, Fallible.ok_bind] at reported
          obtain ⟨more, split, sublist⟩ := ih reported
          simp only [reportWindow] at turn
          split_ifs at turn
          · obtain ⟨rate, -, appended⟩ := Fallible.bind_eq_ok_iff.mp turn
            cases appended
            refine ⟨_ :: more, split.trans (List.append_assoc _ _ _), ?_⟩
            exact sublist.cons_cons first
          · cases turn
            exact ⟨more, split, sublist.cons first⟩

theorem nodup_reportFields {stats after : NotifyStats} {now : ℚ} {report : Report}
    (collected : stats.collect now = .ok (report, after)) :
    ((reportFields report).map Prod.fst).Nodup := by
  have windowsOnce : (report.perDay.map Prod.fst).Nodup := by
    rw [NotifyStats.collect] at collected
    cases found : windows.foldlM (reportWindow now stats.notifyHist) [] with
    | error raised =>
        rw [found] at collected
        cases collected
    | ok perDay =>
        rw [found] at collected
        cases collected
        obtain ⟨more, rfl, sublist⟩ := perDay_sublist found
        exact sublist.nodup (by decide)
  have counters : [43 :: Counter.notifies.name, 43 :: Counter.notifyRetries.name,
      43 :: Counter.failures.name].Nodup := by
    decide
  rw [reportFields, List.map_append, List.nodup_append]
  refine ⟨counters, ?_, ?_⟩
  · have names := windowsOnce.map fun first second same => perDayName_injective same
    rwa [List.map_map] at names ⊢
  · intro key marked other rate same
    rw [List.map_map] at rate
    obtain ⟨entry, -, rfl⟩ := List.mem_map.mp rate
    simp only [List.map_cons, List.map_nil, List.mem_cons, List.not_mem_nil, or_false] at marked
    rcases marked with rfl | rfl | rfl <;> exact perDayName_ne_marked entry.1 _ same.symm

theorem ascending_sortedFields {report : Report}
    (once : ((reportFields report).map Prod.fst).Nodup) :
    ((sortedFields report).map Prod.fst).Pairwise (· < ·) := by
  have transitive : IsTrans (Bytes × Int) fun first second => ¬second.1 < first.1 :=
    ⟨fun _ _ _ below above => List.le_trans below above⟩
  have total : Std.Total fun first second : Bytes × Int => ¬second.1 < first.1 :=
    ⟨fun first second => List.le_total first.1 second.1⟩
  have sorted : (sortedFields report).Pairwise fun first second => ¬second.1 < first.1 :=
    List.pairwise_insertionSort _ _
  have different : ((sortedFields report).map Prod.fst).Nodup :=
    ((sortedFields_perm report).map Prod.fst).nodup_iff.mpr once
  rw [List.pairwise_map]
  refine (sorted.and (List.pairwise_map.mp different)).imp ?_
  rintro first second ⟨notAbove, apart⟩
  by_contra notBelow
  exact apart (List.le_antisymm notAbove notBelow)

/-! ## Balance -/

/-- The message is one that `ping` has sent. -/
def IsReport (reader : DictReader) (body : Bytes) : Prop :=
  ∃ report, reader.contents body = some (integerContents (sortedFields report))

/-- The call does nothing to the counters of a service but add. -/
structure Adds (service : Bytes) (counter : Counter) (call : StatsCall) : Prop where
  onlyAdds : call.OnlyAdds service counter.name
  nonneg : 0 ≤ call.reported service counter.name

theorem isReport_of_serializeReport (reader : DictReader) {report : Report} {body : Bytes}
    (once : ((reportFields report).map Prod.fst).Nodup)
    (serialized : serializeReport report = some body) :
    reader.contents body = some (integerContents (sortedFields report)) := by
  rw [serializeReport] at serialized
  split_ifs at serialized with serializable
  cases serialized
  exact reader.contents_encode _ (ascending_sortedFields once) serializable

theorem Reporting.carried_of_report {reader : DictReader} {report : Report} {body : Bytes}
    (read : reader.contents body = some (integerContents (sortedFields report)))
    (counter : Counter) : carried reader counter body = counter.ofReport report := by
  rw [carried, read, Option.elim_some, added_report]

theorem IsReport.carried_nonneg {reader : DictReader} {body : Bytes} (sent : IsReport reader body)
    (counter : Counter) : 0 ≤ Reporting.carried reader counter body := by
  obtain ⟨report, read⟩ := sent
  rw [Reporting.carried_of_report read]
  exact Int.natCast_nonneg _

/-- A report becomes a call that adds what it carries. -/
theorem IsReport.call {reader : DictReader} {body service : Bytes} {now : Int} {call : StatsCall}
    (sent : IsReport reader body)
    (called : onServiceStats reader.contents now [service, body] = some call) (counter : Counter) :
    Adds service counter call ∧
      call.reported service counter.name = Reporting.carried reader counter body := by
  obtain ⟨report, read⟩ := sent
  rw [onServiceStats, read] at called
  split_ifs at called
  cases called
  have reported : added counter.name (integerContents (sortedFields report)) =
      Reporting.carried reader counter body := by
    rw [added_report, Reporting.carried_of_report read]
  refine ⟨⟨fun _ => avoids_report report counter, ?_⟩, ?_⟩
  · rw [StatsCall.reported, if_pos rfl, added_report]
    exact Int.natCast_nonneg _
  · rw [StatsCall.reported, if_pos rfl, reported]

theorem subscribedName_ne_name (newSub : Bool) (counter : Counter) :
    subscribedName newSub ≠ counter.name := by
  cases newSub <;> cases counter <;> decide

theorem adds_of_not_concerns {service : Bytes} {call : StatsCall}
    (other : Reporting.concerns service call = false) (counter : Counter) :
    Adds service counter call ∧ call.reported service counter.name = 0 := by
  match call with
  | .serviceStats sender named now (some contents) =>
      have apart : sender ≠ service := of_decide_eq_false other
      have nothing : (StatsCall.serviceStats sender named now (some contents)).reported service
          counter.name = 0 := if_neg apart
      exact ⟨⟨fun same => absurd same apart, nothing.ge⟩, nothing⟩
  | .serviceStats sender named now none => exact ⟨⟨trivial, le_rfl⟩, rfl⟩
  | .subscribed sender newSub =>
      have nothing : (StatsCall.subscribed sender newSub).reported service counter.name = 0 :=
        if_neg fun both => subscribedName_ne_name newSub counter both.2
      exact ⟨⟨trivial, nothing.ge⟩, nothing⟩
  | .processed notifyCount size => exact ⟨⟨trivial, le_rfl⟩, rfl⟩

/-- Only the timer moves counts. -/
theorem ApnsHandler.collected_of_step {maxRetries : Int} {handler next : ApnsHandler}
    {event : ApnsEvent} (taken : handler.step maxRetries event = some next)
    (noTimer : ∀ now, event ≠ .collect now) (counter : Counter) :
    counter.collected next.stats = counter.collected handler.stats := by
  cases event with
  | push id =>
      simp only [ApnsHandler.step] at taken
      split at taken <;> cases taken
      rfl
  | respond id response =>
      simp only [ApnsHandler.step] at taken
      split at taken <;> cases taken
      simp only [ApnsHandler.onResponse]
      split_ifs <;> cases counter <;> rfl
  | raise id =>
      simp only [ApnsHandler.step] at taken
      split at taken <;> cases taken
      rfl
  | wake id =>
      simp only [ApnsHandler.step] at taken
      split at taken <;> cases taken
      rfl
  | collect now => exact absurd rfl (noTimer now)

namespace Reporting

/-- What the reports on their way carry. -/
def onTheWay (reader : DictReader) (counter : Counter) (reporting : Reporting) : Int :=
  (reporting.inFlight.map (carried reader counter)).sum

/-- What the transactions in progress are to add. -/
def inTransactions (service : Bytes) (counter : Counter) (reporting : Reporting) : Int :=
  Map.total (fun session => session.label.reported service counter.name) reporting.db.sessions

/-- What the committed transactions have added. -/
def committed (service : Bytes) (counter : Counter) (reporting : Reporting) : Int :=
  (reporting.db.log.map fun call => call.reported service counter.name).sum

/-- Every count is in one place. -/
structure Balanced (reader : DictReader) (service : Bytes) (maxRetries : Int)
    (base : Table StatKey StatValue) (reporting : Reporting) : Prop where
  accounted : reporting.handler.Accounted maxRetries
  serial : Serial statsProgram base reporting.db
  reports : ∀ body ∈ reporting.inFlight, IsReport reader body
  sessions : ∀ id session, reporting.db.sessions.lookup id = some session →
    ∀ counter, Adds service counter session.label
  logged : ∀ call ∈ reporting.db.log, ∀ counter, Adds service counter call
  lost_nonneg : ∀ counter, 0 ≤ reporting.lost counter
  balance : ∀ counter, counter.collected reporting.handler.stats =
    reporting.onTheWay reader counter + reporting.inTransactions service counter +
      reporting.committed service counter + reporting.lost counter

variable {reader : DictReader} {service : Bytes} {maxRetries : Int}
  {base : Table StatKey StatValue} {reporting next : Reporting}

theorem balanced_initial : (initial base).Balanced reader service maxRetries base where
  accounted := ApnsHandler.accounted_initial
  serial := serial_initial
  reports _ member := absurd member List.not_mem_nil
  sessions _ _ found := by cases found
  logged _ member := absurd member List.not_mem_nil
  lost_nonneg _ := le_rfl
  balance counter := by cases counter <;> rfl

theorem onTheWay_eraseIdx {index : Nat} {body : Bytes} (found : reporting.inFlight[index]? = some body)
    (counter : Counter) : reporting.onTheWay reader counter =
      carried reader counter body +
        ((reporting.inFlight.eraseIdx index).map (carried reader counter)).sum := by
  obtain ⟨inside, rfl⟩ := List.getElem?_eq_some_iff.mp found
  have perm := (List.getElem_cons_eraseIdx_perm inside).map (carried reader counter)
  rw [onTheWay, ← perm.sum_eq, List.map_cons, List.sum_cons]

theorem step_deliver {event : ApnsEvent} (noTimer : ∀ now, event ≠ .collect now) :
    reporting.step reader service maxRetries (.deliver event) =
      (reporting.handler.step maxRetries event).map fun handler =>
        { reporting with handler := handler } := by
  cases event with
  | collect now => exact absurd rfl (noTimer now)
  | _ => rfl

theorem Balanced.deliver (balanced : reporting.Balanced reader service maxRetries base)
    {event : ApnsEvent} (noTimer : ∀ now, event ≠ .collect now) {handler : ApnsHandler}
    (taken : reporting.handler.step maxRetries event = some handler) :
    Balanced reader service maxRetries base { reporting with handler := handler } where
  accounted := balanced.accounted.step taken
  serial := balanced.serial
  reports := balanced.reports
  sessions := balanced.sessions
  logged := balanced.logged
  lost_nonneg := balanced.lost_nonneg
  balance counter := by
    rw [ApnsHandler.collected_of_step taken noTimer]
    exact balanced.balance counter

/-- The timer moves the counters of a report to the totals. -/
theorem collected_of_collect {stats after : NotifyStats} {now : ℚ} {report : Report}
    (done : stats.collect now = .ok (report, after)) (counter : Counter) :
    counter.collected after = counter.collected stats + counter.ofReport report := by
  obtain ⟨notifies, retries, failures, -, -, -, allNotifies, allRetries, allFailures⟩ :=
    ApnsHandler.collect_totals done
  cases counter <;> simp only [Counter.collected, Counter.ofReport, *]

theorem Balanced.ping (balanced : reporting.Balanced reader service maxRetries base) {now : ℚ}
    (taken : reporting.step reader service maxRetries (.ping now) = some next) :
    next.Balanced reader service maxRetries base := by
  simp only [Reporting.step] at taken
  cases done : reporting.handler.stats.collect now with
  | error raised =>
      rw [done] at taken
      cases taken
      exact balanced
  | ok result =>
      obtain ⟨report, stats⟩ := result
      have collects : reporting.handler.step maxRetries (.collect now) =
          some { reporting.handler with stats := stats } := by
        simp only [ApnsHandler.step, done]
      have accounted := balanced.accounted.step collects
      rw [done] at taken
      simp only at taken
      split at taken <;> cases taken
      · rename_i body serialized
        have read := isReport_of_serializeReport reader (nodup_reportFields done) serialized
        refine ⟨accounted, balanced.serial, ?_, balanced.sessions, balanced.logged,
          balanced.lost_nonneg, fun counter => ?_⟩
        · intro other member
          rcases List.mem_append.mp member with before | last
          · exact balanced.reports other before
          · exact List.mem_singleton.mp last ▸ ⟨report, read⟩
        · have before := balanced.balance counter
          have moved := collected_of_collect done counter
          have carries := carried_of_report read counter
          simp only [onTheWay, List.map_append, List.map_singleton, List.sum_append,
            List.sum_singleton, inTransactions, committed] at before ⊢
          omega
      · refine ⟨accounted, balanced.serial, balanced.reports, balanced.sessions, balanced.logged,
          fun counter => ?_, fun counter => ?_⟩
        · exact add_nonneg (balanced.lost_nonneg counter) (Int.natCast_nonneg _)
        · have before := balanced.balance counter
          have moved := collected_of_collect done counter
          simp only [onTheWay, inTransactions, committed] at before ⊢
          omega

/-- The begin of a transaction. -/
theorem Balanced.start (balanced : reporting.Balanced reader service maxRetries base) {id : Nat}
    {call : StatsCall} {db : Locking.State StatKey StatValue StatsCall}
    (taken : Locking.step statsProgram reporting.db (.start id call) = some db) :
    db.sessions = reporting.db.sessions.insert id ⟨call, call.writes, fun _ => none⟩ ∧
      reporting.db.sessions.lookup id = none ∧ db.log = reporting.db.log ∧
      Serial statsProgram base db := by
  have serial := balanced.serial.step taken
  simp only [Locking.step] at taken
  split at taken <;> cases taken
  rename_i fresh
  exact ⟨rfl, fresh, rfl, serial⟩

/-- A transaction more, whose call may have been on its way. -/
theorem Balanced.started (balanced : reporting.Balanced reader service maxRetries base) {id : Nat}
    {call : StatsCall} {db : Locking.State StatKey StatValue StatsCall}
    (taken : Locking.step statsProgram reporting.db (.start id call) = some db)
    (adds : ∀ counter, Adds service counter call) {left : List Bytes}
    (fewer : ∀ body ∈ left, body ∈ reporting.inFlight)
    (moved : ∀ counter, reporting.onTheWay reader counter =
      call.reported service counter.name + (left.map (carried reader counter)).sum) :
    Balanced reader service maxRetries base { reporting with db := db, inFlight := left } := by
  obtain ⟨sessions, fresh, log, serial⟩ := balanced.start taken
  refine ⟨balanced.accounted, serial, fun body member => balanced.reports body (fewer body member),
    ?_, ?_, balanced.lost_nonneg, fun counter => ?_⟩
  · intro other session found
    rw [sessions, Map.lookup_insert_eq] at found
    split_ifs at found
    · cases found
      exact adds
    · exact balanced.sessions other session found
  · rw [log]
    exact balanced.logged
  · have before := balanced.balance counter
    have before_ := moved counter
    simp only [onTheWay, inTransactions, committed, sessions, log,
      Map.total_insert_of_none fresh] at before before_ ⊢
    omega

/-- An event of a transaction in progress. -/
theorem Balanced.goOn (balanced : reporting.Balanced reader service maxRetries base) {id : Nat}
    {event : Locking.Event StatsCall} (goesOn : event.goesOnWith = some id)
    (taken : reporting.goOn service id event = some next) :
    next.Balanced reader service maxRetries base := by
  obtain ⟨session, found, rest⟩ := Option.bind_eq_some_iff.mp taken
  obtain ⟨db, moved, same⟩ := Option.bind_eq_some_iff.mp rest
  cases same
  have serial := balanced.serial.step moved
  have adds := balanced.sessions id session found
  have erased : ∀ other another, (reporting.db.sessions.erase id).lookup other = some another →
      ∀ counter, Adds service counter another.label := fun other another foundOther =>
    balanced.sessions other another (lookup_erase_cases foundOther).2
  have absent : (reporting.db.sessions.erase id).lookup id = none := AList.lookup_erase _ _
  obtain ⟨other, foundAgain, fate⟩ := exists_fate goesOn moved
  obtain rfl : session = other := Option.some.inj (found.symm.trans foundAgain)
  cases fate with
  | @goesOn after label sessions log =>
      have still : isGivenUp reporting.db db id = false := by
        rw [isGivenUp, sessions, AList.lookup_insert]
        rfl
      refine ⟨balanced.accounted, serial, balanced.reports, ?_, ?_, ?_, fun counter => ?_⟩
      · intro another current foundOther
        simp only [sessions, Map.lookup_insert_eq] at foundOther
        split_ifs at foundOther
        · cases foundOther
          rw [label]
          exact adds
        · exact balanced.sessions another current foundOther
      · rw [log]
        exact balanced.logged
      · simp only [still, Bool.false_eq_true, if_false]
        exact balanced.lost_nonneg
      · have before := balanced.balance counter
        simp only [onTheWay, inTransactions, committed, sessions, log, still, label,
          Map.total_insert_of_some found, Bool.false_eq_true, if_false] at before ⊢
        omega
  | givenUp sessions log =>
      have ended : isGivenUp reporting.db db id = true := by
        rw [isGivenUp, sessions, absent, log]
        simp
      refine ⟨balanced.accounted, serial, balanced.reports, ?_, ?_, ?_, fun counter => ?_⟩
      · rw [sessions]
        exact erased
      · rw [log]
        exact balanced.logged
      · intro counter
        simp only [ended, if_true]
        exact add_nonneg (balanced.lost_nonneg counter) (adds counter).nonneg
      · have before := balanced.balance counter
        simp only [onTheWay, inTransactions, committed, sessions, log, ended,
          Map.total_erase found, if_true] at before ⊢
        omega
  | committed sessions log =>
      have kept : isGivenUp reporting.db db id = false := by
        rw [isGivenUp, sessions, absent, log, List.length_append]
        simp
      refine ⟨balanced.accounted, serial, balanced.reports, ?_, ?_, ?_, fun counter => ?_⟩
      · rw [sessions]
        exact erased
      · intro call member
        rw [log] at member
        rcases List.mem_append.mp member with before | last
        · exact balanced.logged call before
        · exact List.mem_singleton.mp last ▸ adds
      · simp only [kept, Bool.false_eq_true, if_false]
        exact balanced.lost_nonneg
      · have before := balanced.balance counter
        simp only [onTheWay, inTransactions, Reporting.committed, sessions, log, kept,
          Map.total_erase found, List.map_append, List.map_singleton, List.sum_append,
          List.sum_singleton, Bool.false_eq_true, if_false] at before ⊢
        omega

theorem Balanced.step (balanced : reporting.Balanced reader service maxRetries base)
    {event : ReportingEvent}
    (taken : reporting.step reader service maxRetries event = some next) :
    next.Balanced reader service maxRetries base := by
  cases event with
  | deliver event =>
      have noTimer : ∀ now, event ≠ .collect now := by
        rintro now rfl
        cases taken
      rw [step_deliver noTimer] at taken
      obtain ⟨handler, moved, rfl⟩ := Option.map_eq_some_iff.mp taken
      exact balanced.deliver noTimer moved
  | ping now => exact balanced.ping taken
  | receive index id now =>
      obtain ⟨body, found, rest⟩ := Option.bind_eq_some_iff.mp taken
      obtain ⟨call, called, rest⟩ := Option.bind_eq_some_iff.mp rest
      obtain ⟨db, begun, same⟩ := Option.bind_eq_some_iff.mp rest
      cases same
      have sent := balanced.reports body (List.mem_of_getElem? found)
      refine balanced.started begun (fun counter => (sent.call called counter).1)
        (fun other member => (List.eraseIdx_sublist _ _).subset member) fun counter => ?_
      rw [(sent.call called counter).2]
      exact onTheWay_eraseIdx found counter
  | drop index =>
      obtain ⟨body, found, same⟩ := Option.bind_eq_some_iff.mp taken
      cases same
      have sent := balanced.reports body (List.mem_of_getElem? found)
      refine ⟨balanced.accounted, balanced.serial, ?_, balanced.sessions, balanced.logged,
        fun counter => ?_, fun counter => ?_⟩
      · exact fun other member => balanced.reports other ((List.eraseIdx_sublist _ _).subset member)
      · exact add_nonneg (balanced.lost_nonneg counter) (sent.carried_nonneg counter)
      · have before := balanced.balance counter
        rw [onTheWay_eraseIdx found] at before
        simp only [onTheWay, inTransactions, committed] at before ⊢
        omega
  | other id call =>
      simp only [Reporting.step] at taken
      split_ifs at taken with own
      obtain ⟨db, begun, rfl⟩ := Option.map_eq_some_iff.mp taken
      have apart := adds_of_not_concerns (Bool.eq_false_iff.mpr own)
      refine balanced.started begun (fun counter => (apart counter).1) (fun _ member => member)
        fun counter => ?_
      rw [(apart counter).2, zero_add, onTheWay]
  | run id => exact balanced.goOn rfl taken
  | finish id => exact balanced.goOn rfl taken
  | rollback id => exact balanced.goOn rfl taken

/-! ## The books -/

/-- What a counter in the database has gained. -/
def gained (service : Bytes) (base : Table StatKey StatValue) (counter : Counter)
    (reporting : Reporting) : Int :=
  amount reporting.db.table ⟨service, counter.name⟩ - amount base ⟨service, counter.name⟩

/-- What the notifier has collected is on its way, in a transaction, in the
database or lost, and there is nothing else in the database.  A push is
underway, has raised an exception, or is counted once. -/
structure Books (reader : DictReader) (service : Bytes) (base : Table StatKey StatValue)
    (reporting : Reporting) : Prop where
  balance : ∀ counter, counter.collected reporting.handler.stats =
    reporting.onTheWay reader counter + reporting.inTransactions service counter +
      reporting.gained service base counter + reporting.lost counter
  gained_le : ∀ counter,
    reporting.gained service base counter ≤ counter.collected reporting.handler.stats
  pushes : reporting.handler.pushes = reporting.handler.deliveries.entries.length +
    reporting.handler.ended.countP (fun ended => ended.outcome = .raised) +
    (Counter.notifies.collected reporting.handler.stats +
      Counter.notifies.ofStats reporting.handler.stats) +
    (Counter.failures.collected reporting.handler.stats +
      Counter.failures.ofStats reporting.handler.stats)

theorem length_eq_countP (ended : List Ended) :
    ended.length = ended.countP (fun ended => ended.outcome = .raised) +
      ended.countP (fun ended => ended.outcome = .notified) +
      ended.countP (fun ended => ended.outcome = .failed) := by
  induction ended with
  | nil => rfl
  | cons first rest ih =>
      simp only [List.length_cons, List.countP_cons, ih]
      cases first.outcome <;> simp <;> omega

theorem Balanced.gained_eq (balanced : reporting.Balanced reader service maxRetries base)
    (isService : service ≠ []) (counter : Counter) :
    reporting.gained service base counter = reporting.committed service counter := by
  have replayed := StatsCall.amount_of_replay isService
    (fun call member => (balanced.logged call member counter).onlyAdds)
    balanced.serial.commits balanced.serial.replayed
  rw [gained, replayed, committed]
  omega

theorem Balanced.books (balanced : reporting.Balanced reader service maxRetries base)
    (isService : service ≠ []) : reporting.Books reader service base where
  balance counter := by
    rw [balanced.gained_eq isService]
    exact balanced.balance counter
  gained_le counter := by
    have onTheWay : 0 ≤ reporting.onTheWay reader counter := by
      refine List.sum_nonneg fun value member => ?_
      obtain ⟨body, sent, rfl⟩ := List.mem_map.mp member
      exact (balanced.reports body sent).carried_nonneg counter
    have inTransactions : 0 ≤ reporting.inTransactions service counter := by
      refine List.sum_nonneg fun value member => ?_
      obtain ⟨⟨id, session⟩, listed, rfl⟩ := List.mem_map.mp member
      exact (balanced.sessions id session
        ((Map.mem_entries_iff_lookup _ _ _).mp listed) counter).nonneg
    have lost := balanced.lost_nonneg counter
    have balance := balanced.balance counter
    rw [balanced.gained_eq isService]
    omega
  pushes := by
    have pushes := balanced.accounted.pushes
    rw [length_eq_countP, ← balanced.accounted.notifies, ← balanced.accounted.failures] at pushes
    simp only [Counter.collected, Counter.ofStats]
    omega

/-- However deliveries, reports and transactions interleave, the books
balance. -/
theorem reports_balance (reader : DictReader) {service : Bytes} (isService : service ≠ [])
    (maxRetries : Int) (base : Table StatKey StatValue) {events : List ReportingEvent}
    (run : Run.exec (step reader service maxRetries) (initial base) events = some reporting) :
    reporting.Books reader service base :=
  Balanced.books
    (Run.Reachable.invariant ⟨events, run⟩ balanced_initial fun _ _ _ balanced taken =>
      balanced.step taken)
    isService

/-- A push that succeeds at the retry, and its report, while the server ends a
batch. -/
def reportedRetry : List ReportingEvent :=
  [.deliver (.push 1), .deliver (.respond 1 ApnsHandler.overloaded), .deliver (.wake 1),
    .deliver (.respond 1 ApnsHandler.delivered), .ping 0, .other 1 (.processed 1 1), .run 1,
    .receive 0 2 1000, .run 2, .run 2, .run 2, .run 1, .run 2, .finish 2, .finish 1]

theorem reportedRetry_balances :
    ∃ reporting, Run.exec (step dictReader [97, 112, 110, 115] 1) (initial fun _ => none)
        reportedRetry = some reporting ∧
      amount reporting.db.table ⟨[97, 112, 110, 115], Counter.notifyRetries.name⟩ = 1 ∧
      reporting.Books dictReader [97, 112, 110, 115] (fun _ => none) := by
  have ends : ((Run.exec (step dictReader [97, 112, 110, 115] 1) (initial fun _ => none)
      reportedRetry).map fun reporting => amount reporting.db.table
        ⟨[97, 112, 110, 115], Counter.notifyRetries.name⟩) = some 1 := by
    decide +kernel
  obtain ⟨reporting, run, stored⟩ := Option.map_eq_some_iff.mp ends
  exact ⟨reporting, run, stored, reports_balance dictReader (by decide) 1 _ run⟩

end Reporting

end Spns.Notifiers
