import Mathlib.Logic.Function.Basic
import Spns.Lib.Run
import Spns.Lib.Unordered

/-!
# Transactions with row locks

Transactions whose statements write one row each.  A statement sees what the
last committed transaction has left in its row, and holds the row until its
transaction ends; a statement that another transaction keeps from its row
waits.  Committed transactions can therefore be replayed one after the other.

Locks that are taken in different orders can block each other for good.  That
does not happen when the transaction that holds a row always has a smaller rank
than one that waits for it.
-/

namespace Spns.Lib.Locking

open Spns.Lib.Unordered

variable {ρ ν τ : Type}

/-- The rows of a table. -/
abbrev Table (ρ ν : Type) := ρ → Option ν

/-- A statement that writes one row, from what it finds there; `none` is an
error. -/
structure Write (ρ ν : Type) where
  row : ρ
  update : Option ν → Option ν

/-- What transactions do: the statements they consist of, and whether they
commit after the last one. -/
structure Program (ρ ν τ : Type) where
  writes : τ → List (Write ρ ν)
  commits : τ → Bool

/-- A transaction in progress, with the values that it has written. -/
structure Session (ρ ν τ : Type) where
  label : τ
  todo : List (Write ρ ν)
  own : Table ρ ν

/-- The committed rows, the transactions in progress, and the committed ones in
the order of their commits. -/
structure State (ρ ν τ : Type) where
  table : Table ρ ν
  sessions : Map Nat (Session ρ ν τ)
  log : List τ

inductive Event (τ : Type) where
  | start (id : Nat) (label : τ)
  /-- The next statement. -/
  | run (id : Nat)
  /-- The end of the transaction, after its last statement. -/
  | finish (id : Nat)
  /-- The connection is lost, for example. -/
  | rollback (id : Nat)

/-- A table as a transaction with own values sees it. -/
def overlay (own table : Table ρ ν) : Table ρ ν :=
  fun row => (own row).or (table row)

/-- Another transaction has written the row. -/
def State.locked (state : State ρ ν τ) (id : Nat) (row : ρ) : Bool :=
  state.sessions.entries.any fun entry => entry.1 ≠ id && (entry.2.own row).isSome

variable [DecidableEq ρ]

/-- A statement on a table. -/
def Write.run (table : Table ρ ν) (write : Write ρ ν) : Option (Table ρ ν) :=
  (write.update (table write.row)).map fun value => Function.update table write.row (some value)

/-- Statements one after the other. -/
def runAll (table : Table ρ ν) (writes : List (Write ρ ν)) : Option (Table ρ ν) :=
  writes.foldlM Write.run table

/-- Whole transactions one after the other. -/
def replay (program : Program ρ ν τ) (table : Table ρ ν) (log : List τ) : Option (Table ρ ν) :=
  log.foldlM (fun table label => runAll table (program.writes label)) table

/-- One event.  A statement with an error ends its transaction. -/
def step (program : Program ρ ν τ) (state : State ρ ν τ) : Event τ → Option (State ρ ν τ)
  | .start id label =>
      match state.sessions.lookup id with
      | some _ => none
      | none =>
          some { state with
            sessions := state.sessions.insert id ⟨label, program.writes label, fun _ => none⟩ }
  | .run id =>
      match state.sessions.lookup id with
      | some ⟨label, write :: rest, own⟩ =>
          if state.locked id write.row then none
          else
            match write.update (overlay own state.table write.row) with
            | none => some { state with sessions := state.sessions.erase id }
            | some value =>
                some { state with
                  sessions := state.sessions.insert id
                    ⟨label, rest, Function.update own write.row (some value)⟩ }
      | _ => none
  | .finish id =>
      match state.sessions.lookup id with
      | some ⟨label, [], own⟩ =>
          if program.commits label then
            some ⟨overlay own state.table, state.sessions.erase id, state.log ++ [label]⟩
          else some { state with sessions := state.sessions.erase id }
      | _ => none
  | .rollback id =>
      match state.sessions.lookup id with
      | some _ => some { state with sessions := state.sessions.erase id }
      | none => none

/-- A table without transactions. -/
def initial (table : Table ρ ν) : State ρ ν τ :=
  ⟨table, ∅, []⟩

/-! ## Rows and locks -/

omit [DecidableEq ρ] in
theorem locked_iff {state : State ρ ν τ} {id : Nat} {row : ρ} :
    state.locked id row = true ↔ ∃ other session, other ≠ id ∧
      state.sessions.lookup other = some session ∧ (session.own row).isSome = true := by
  rw [State.locked, List.any_eq_true]
  constructor
  · rintro ⟨⟨other, session⟩, member, test⟩
    obtain ⟨different, written⟩ := Bool.and_eq_true_iff.mp test
    exact ⟨other, session, of_decide_eq_true different,
      (Map.mem_entries_iff_lookup _ _ _).mp member, written⟩
  · rintro ⟨other, session, different, found, written⟩
    exact ⟨⟨other, session⟩, (Map.mem_entries_iff_lookup _ _ _).mpr found,
      Bool.and_eq_true_iff.mpr ⟨decide_eq_true different, written⟩⟩

omit [DecidableEq ρ] in
theorem overlay_none (table : Table ρ ν) : overlay (fun _ => none) table = table := by
  funext row
  rfl

theorem overlay_update (own table : Table ρ ν) (row : ρ) (value : ν) :
    overlay (Function.update own row (some value)) table =
      Function.update (overlay own table) row (some value) := by
  funext other
  rw [overlay, Function.update_apply, Function.update_apply]
  split_ifs
  · rfl
  · rfl

theorem runAll_append (table : Table ρ ν) (first second : List (Write ρ ν)) :
    runAll table (first ++ second) = (runAll table first).bind fun table => runAll table second :=
  List.foldlM_append

/-- A statement leaves the other rows alone. -/
theorem Write.run_other {table after : Table ρ ν} {write : Write ρ ν} {row : ρ}
    (ran : write.run table = some after) (other : write.row ≠ row) : after row = table row := by
  obtain ⟨value, -, rfl⟩ := Option.map_eq_some_iff.mp ran
  exact Function.update_of_ne other.symm _ _

theorem runAll_other {table after : Table ρ ν} {writes : List (Write ρ ν)} {row : ρ}
    (ran : runAll table writes = some after) (others : ∀ write ∈ writes, write.row ≠ row) :
    after row = table row := by
  induction writes generalizing table with
  | nil =>
      obtain rfl := Option.some.inj ran
      rfl
  | cons write rest ih =>
      rw [runAll, List.foldlM_cons] at ran
      obtain ⟨between, first, following⟩ := Option.bind_eq_some_iff.mp ran
      obtain ⟨here, later⟩ := List.forall_mem_cons.mp others
      exact (ih following later).trans (Write.run_other first here)

theorem replay_concat (program : Program ρ ν τ) (table : Table ρ ν) (log : List τ) (label : τ) :
    replay program table (log ++ [label]) =
      (replay program table log).bind fun table => runAll table (program.writes label) := by
  rw [replay, List.foldlM_append]
  refine congrArg _ (funext fun table => ?_)
  rw [List.foldlM_cons]
  exact bind_pure _

/-! ## Serial execution -/

/-- The transaction has run its first statements, on this table or any other
that agrees on their rows. -/
structure Partway (program : Program ρ ν τ) (table : Table ρ ν) (session : Session ρ ν τ)
    (done : List (Write ρ ν)) : Prop where
  split : program.writes session.label = done ++ session.todo
  written : ∀ row, (session.own row).isSome = true ↔ ∃ write ∈ done, write.row = row
  ran : ∀ other : Table ρ ν, (∀ write ∈ done, other write.row = table write.row) →
    runAll other done = some (overlay session.own other)

/-- Every transaction in progress has run its first statements, no two have
written the same row, and the committed ones replay to the table. -/
structure Serial (program : Program ρ ν τ) (base : Table ρ ν) (state : State ρ ν τ) : Prop where
  replayed : replay program base state.log = some state.table
  commits : ∀ label ∈ state.log, program.commits label = true
  partway : ∀ id session, state.sessions.lookup id = some session →
    ∃ done, Partway program state.table session done
  exclusive : ∀ id other session another row, id ≠ other →
    state.sessions.lookup id = some session → state.sessions.lookup other = some another →
    (session.own row).isSome = true → another.own row = none

variable {program : Program ρ ν τ} {base : Table ρ ν} {state next : State ρ ν τ}

theorem serial_initial : Serial program base (initial base) where
  replayed := rfl
  commits _ member := absurd member List.not_mem_nil
  partway _ _ found := by cases found
  exclusive _ _ _ _ _ _ found := by cases found

omit [DecidableEq ρ] in
theorem lookup_erase_cases {sessions : Map Nat (Session ρ ν τ)} {id other : Nat}
    {session : Session ρ ν τ} (found : (sessions.erase id).lookup other = some session) :
    other ≠ id ∧ sessions.lookup other = some session := by
  rw [Map.lookup_erase_eq] at found
  split_ifs at found with same
  exact ⟨same, found⟩

/-- Ending a transaction without a commit. -/
theorem Serial.erase (serial : Serial program base state) (id : Nat) :
    Serial program base { state with sessions := state.sessions.erase id } where
  replayed := serial.replayed
  commits := serial.commits
  partway other session found := serial.partway other session (lookup_erase_cases found).2
  exclusive first second session another row different found secondFound :=
    serial.exclusive first second session another row different (lookup_erase_cases found).2
      (lookup_erase_cases secondFound).2

theorem Serial.starts (serial : Serial program base state) (id : Nat) (label : τ) :
    Serial program base { state with
      sessions := state.sessions.insert id ⟨label, program.writes label, fun _ => none⟩ } := by
  refine ⟨serial.replayed, serial.commits, ?_, ?_⟩
  · intro other session found
    simp only [Map.lookup_insert_eq] at found
    split_ifs at found with here
    · obtain rfl := Option.some.inj found
      refine ⟨[], rfl, fun row => ?_, fun table _ => ?_⟩
      · simp
      · rw [overlay_none]
        rfl
    · exact serial.partway other session found
  · intro first second session another row different found secondFound written
    simp only [Map.lookup_insert_eq] at found secondFound
    split_ifs at found secondFound with firstHere secondHere secondHere
    · exact absurd (firstHere.trans secondHere.symm) different
    · obtain rfl := Option.some.inj found
      cases written
    · obtain rfl := Option.some.inj secondFound
      rfl
    · exact serial.exclusive first second session another row different found secondFound written

omit [DecidableEq ρ] in
/-- A row that nobody else has locked is in no other transaction. -/
theorem own_eq_none {id other : Nat} {row : ρ} (unlocked : state.locked id row = false)
    {session : Session ρ ν τ} (found : state.sessions.lookup other = some session)
    (different : other ≠ id) : session.own row = none := by
  cases written : session.own row with
  | none => rfl
  | some value =>
      have locked := locked_iff.mpr ⟨other, session, different, found, by rw [written]; rfl⟩
      rw [unlocked] at locked
      contradiction

/-- One more statement of a transaction. -/
theorem Partway.run {table : Table ρ ν} {label : τ} {write : Write ρ ν}
    {rest done : List (Write ρ ν)} {own : Table ρ ν}
    (partway : Partway program table ⟨label, write :: rest, own⟩ done) {value : ν}
    (updated : write.update (overlay own table write.row) = some value) :
    Partway program table ⟨label, rest, Function.update own write.row (some value)⟩
      (done ++ [write]) := by
  refine ⟨?_, fun row => ?_, fun other agree => ?_⟩
  · rw [partway.split, List.append_assoc, List.singleton_append]
  · simp only [Function.update_apply, List.mem_append, List.mem_singleton]
    split_ifs with here
    · exact iff_of_true rfl ⟨write, Or.inr rfl, here.symm⟩
    · rw [partway.written]
      constructor
      · rintro ⟨earlier, member, same⟩
        exact ⟨earlier, Or.inl member, same⟩
      · rintro ⟨earlier, member | rfl, same⟩
        · exact ⟨earlier, member, same⟩
        · exact absurd same.symm here
  · have before := partway.ran other fun earlier member =>
      agree earlier (List.mem_append_left _ member)
    have same : overlay own other write.row = overlay own table write.row := by
      rw [overlay, overlay, agree write (List.mem_append_right _ List.mem_cons_self)]
    rw [runAll_append, before, Option.bind_some, overlay_update, runAll, List.foldlM_cons,
      Write.run, same, updated]
    rfl

/-- A statement that finds its row unlocked. -/
theorem Serial.run (serial : Serial program base state) {id : Nat} {label : τ}
    {write : Write ρ ν} {rest : List (Write ρ ν)} {own : Table ρ ν}
    (found : state.sessions.lookup id = some ⟨label, write :: rest, own⟩)
    (unlocked : state.locked id write.row = false) {value : ν}
    (updated : write.update (overlay own state.table write.row) = some value) :
    Serial program base { state with
      sessions := state.sessions.insert id
        ⟨label, rest, Function.update own write.row (some value)⟩ } := by
  refine ⟨serial.replayed, serial.commits, ?_, ?_⟩
  · intro other session otherFound
    simp only [Map.lookup_insert_eq] at otherFound
    split_ifs at otherFound with here
    · obtain rfl := Option.some.inj otherFound
      obtain ⟨done, partway⟩ := serial.partway id _ found
      exact ⟨done ++ [write], partway.run updated⟩
    · exact serial.partway other session otherFound
  · intro first second session another row different firstFound secondFound written
    simp only [Map.lookup_insert_eq] at firstFound secondFound
    split_ifs at firstFound secondFound with firstHere secondHere secondHere
    · exact absurd (firstHere.trans secondHere.symm) different
    · obtain rfl := Option.some.inj firstFound
      simp only [Function.update_apply] at written
      split_ifs at written with here
      · exact here ▸ own_eq_none unlocked secondFound secondHere
      · exact serial.exclusive id second _ another row (Ne.symm secondHere) found secondFound written
    · obtain rfl := Option.some.inj secondFound
      simp only [Function.update_apply]
      split_ifs with here
      · rw [here, own_eq_none unlocked firstFound firstHere] at written
        contradiction
      · exact serial.exclusive first id session _ row firstHere firstFound found written
    · exact serial.exclusive first second session another row different firstFound secondFound
        written

/-- A commit changes only rows that no other transaction has written. -/
theorem Serial.commit (serial : Serial program base state) {id : Nat} {label : τ}
    {own : Table ρ ν} (found : state.sessions.lookup id = some ⟨label, [], own⟩)
    (commits : program.commits label = true) :
    Serial program base
      ⟨overlay own state.table, state.sessions.erase id, state.log ++ [label]⟩ := by
  obtain ⟨done, partway⟩ := serial.partway id _ found
  have whole : program.writes label = done := partway.split.trans (List.append_nil done)
  refine ⟨?_, ?_, ?_, (serial.erase id).exclusive⟩
  · rw [replay_concat, serial.replayed, Option.bind_some, whole]
    exact partway.ran state.table fun _ _ => rfl
  · intro other member
    rcases List.mem_append.mp member with before | last
    · exact serial.commits other before
    · exact List.mem_singleton.mp last ▸ commits
  · intro other session otherFound
    obtain ⟨different, earlier⟩ := lookup_erase_cases otherFound
    obtain ⟨otherDone, otherPartway⟩ := serial.partway other session earlier
    refine ⟨otherDone, otherPartway.split, otherPartway.written, fun table agree => ?_⟩
    apply otherPartway.ran table
    intro write member
    have written := (otherPartway.written write.row).mpr ⟨write, member, rfl⟩
    have free : own write.row = none :=
      serial.exclusive other id session _ write.row different earlier found written
    have same : overlay own state.table write.row = state.table write.row := by
      rw [overlay, free, Option.none_or]
    exact (agree write member).trans same

theorem Serial.step (serial : Serial program base state) {event : Event τ}
    (taken : Locking.step program state event = some next) : Serial program base next := by
  cases event with
  | start id label =>
      simp only [Locking.step] at taken
      split at taken <;> cases taken
      exact serial.starts id label
  | run id =>
      simp only [Locking.step] at taken
      split at taken
      · rename_i label write rest own found
        split_ifs at taken with locked
        split at taken <;> cases taken
        · exact serial.erase id
        · rename_i value updated
          exact serial.run found (Bool.eq_false_iff.mpr locked) updated
      · contradiction
  | finish id =>
      simp only [Locking.step] at taken
      split at taken
      · rename_i label own found
        split_ifs at taken with commits <;> cases taken
        · exact serial.commit found commits
        · exact serial.erase id
      · contradiction
  | rollback id =>
      simp only [Locking.step] at taken
      split at taken <;> cases taken
      exact serial.erase id

/-- However transactions interleave, the committed ones replay to the table. -/
theorem serial_of_exec {events : List (Event τ)}
    (run : Run.exec (Locking.step program) (initial base) events = some state) :
    Serial program base state :=
  Run.Reachable.invariant ⟨events, run⟩ serial_initial fun _ _ _ serial taken => serial.step taken

/-! ## What becomes of a transaction -/

/-- The transaction that an event goes on with. -/
def Event.goesOnWith : Event τ → Option Nat
  | .start _ _ => none
  | .run id => some id
  | .finish id => some id
  | .rollback id => some id

/-- It is still there, has been given up, or is committed. -/
inductive Fate (state next : State ρ ν τ) (id : Nat) (session : Session ρ ν τ) : Prop where
  | goesOn {after : Session ρ ν τ} (label : after.label = session.label)
      (sessions : next.sessions = state.sessions.insert id after) (log : next.log = state.log)
  | givenUp (sessions : next.sessions = state.sessions.erase id) (log : next.log = state.log)
  | committed (sessions : next.sessions = state.sessions.erase id)
      (log : next.log = state.log ++ [session.label])

theorem exists_fate {event : Event τ} {id : Nat} (goesOn : event.goesOnWith = some id)
    (taken : Locking.step program state event = some next) :
    ∃ session, state.sessions.lookup id = some session ∧ Fate state next id session := by
  cases event with
  | start other label => contradiction
  | run other =>
      obtain rfl := Option.some.inj goesOn
      simp only [Locking.step] at taken
      split at taken
      · rename_i label write rest own found
        refine ⟨_, found, ?_⟩
        split_ifs at taken
        split at taken <;> cases taken
        · exact .givenUp rfl rfl
        · rename_i value updated
          have label : (⟨label, rest, Function.update own write.row (some value)⟩ :
              Session ρ ν τ).label = label := rfl
          exact .goesOn label rfl rfl
      · contradiction
  | finish other =>
      obtain rfl := Option.some.inj goesOn
      simp only [Locking.step] at taken
      split at taken
      · rename_i label own found
        refine ⟨_, found, ?_⟩
        split_ifs at taken <;> cases taken
        · exact .committed rfl rfl
        · exact .givenUp rfl rfl
      · contradiction
  | rollback other =>
      obtain rfl := Option.some.inj goesOn
      simp only [Locking.step] at taken
      split at taken <;> cases taken
      rename_i session found
      exact ⟨session, found, .givenUp rfl rfl⟩

/-! ## No deadlock -/

/-- Statements and ends of transactions. -/
def Event.isProgress : Event τ → Bool
  | .run _ => true
  | .finish _ => true
  | _ => false

omit [DecidableEq ρ] in
theorem lookup_written (state : State ρ ν τ) (id : Nat) (session : Session ρ ν τ) :
    ({ state with sessions := state.sessions.insert id session } : State ρ ν τ).sessions.lookup id =
      some session :=
  AList.lookup_insert _

/-- A rank that is smaller for the transaction that holds a row than for one
that waits for it, and that statements do not increase. -/
structure Ranked (program : Program ρ ν τ) (rank : Session ρ ν τ → Nat) : Prop where
  run : ∀ label write rest (own : Table ρ ν) value,
    rank ⟨label, rest, Function.update own write.row (some value)⟩ ≤ rank ⟨label, write :: rest, own⟩
  waits : ∀ {base : Table ρ ν} {state : State ρ ν τ}, Serial program base state →
    ∀ {id holder label write rest own session}, holder ≠ id →
      state.sessions.lookup id = some ⟨label, write :: rest, own⟩ →
      state.sessions.lookup holder = some session → (session.own write.row).isSome = true →
      rank session < rank ⟨label, write :: rest, own⟩

/-- A transaction that has written a row has written its first one. -/
theorem Partway.first {table : Table ρ ν} {session : Session ρ ν τ} {done : List (Write ρ ν)}
    (partway : Partway program table session done) {row : ρ}
    (written : (session.own row).isSome = true) :
    ∃ gate rest, program.writes session.label = gate :: rest ∧
      (session.own gate.row).isSome = true := by
  obtain ⟨write, member, -⟩ := (partway.written row).mp written
  obtain ⟨first, later, rfl⟩ := List.exists_cons_of_ne_nil (List.ne_nil_of_mem member)
  refine ⟨first, later ++ session.todo, ?_, (partway.written first.row).mpr ?_⟩
  · rw [partway.split, List.cons_append]
  · exact ⟨first, List.mem_cons_self, rfl⟩

/-- A run of progress that ends a transaction.  Others are left alone or have
ended as well. -/
structure Ends (program : Program ρ ν τ) (state after : State ρ ν τ) (id : Nat)
    (events : List (Event τ)) : Prop where
  progress : ∀ event ∈ events, event.isProgress = true
  run : Run.exec (Locking.step program) state events = some after
  ended : after.sessions.lookup id = none
  others : ∀ other, other ≠ id →
    after.sessions.lookup other = state.sessions.lookup other ∨ after.sessions.lookup other = none

/-- One event that removes the transaction. -/
theorem ends_of_erased {after : State ρ ν τ} {id : Nat} {event : Event τ}
    (progress : event.isProgress = true) (taken : Locking.step program state event = some after)
    (erased : after.sessions = state.sessions.erase id) :
    Ends program state after id [event] := by
  have removed : ∀ other, after.sessions.lookup other =
      if other = id then none else state.sessions.lookup other := by
    intro other
    rw [erased, Map.lookup_erase_eq]
  refine ⟨?_, (Run.exec_cons_eq_some_iff _ _ _ _ _).mpr ⟨after, taken, rfl⟩, ?_, ?_⟩
  · exact List.forall_mem_singleton.mpr progress
  · rw [removed, if_pos rfl]
  · intro other different
    rw [removed, if_neg different]
    exact Or.inl rfl

theorem exists_ends_of_finished {id : Nat} {label : τ} {own : Table ρ ν}
    (found : state.sessions.lookup id = some ⟨label, [], own⟩) :
    ∃ events after, Ends program state after id events := by
  cases commits : program.commits label with
  | true =>
      refine ⟨[.finish id], ⟨overlay own state.table, state.sessions.erase id, state.log ++ [label]⟩,
        ends_of_erased rfl ?_ rfl⟩
      simp only [Locking.step, found, commits, if_true]
  | false =>
      refine ⟨[.finish id], { state with sessions := state.sessions.erase id },
        ends_of_erased rfl ?_ rfl⟩
      simp [Locking.step, found, commits]

theorem ends_of_failed {id : Nat} {label : τ} {write : Write ρ ν} {rest : List (Write ρ ν)}
    {own : Table ρ ν} (found : state.sessions.lookup id = some ⟨label, write :: rest, own⟩)
    (unlocked : state.locked id write.row = false)
    (failed : write.update (overlay own state.table write.row) = none) :
    Ends program state { state with sessions := state.sessions.erase id } id [.run id] := by
  refine ends_of_erased rfl ?_ rfl
  simp only [Locking.step, found, unlocked, Bool.false_eq_true, if_false, failed]

theorem Ends.of_run {id : Nat} {label : τ} {write : Write ρ ν} {rest : List (Write ρ ν)}
    {own : Table ρ ν} (found : state.sessions.lookup id = some ⟨label, write :: rest, own⟩)
    (unlocked : state.locked id write.row = false) {value : ν}
    (updated : write.update (overlay own state.table write.row) = some value)
    {after : State ρ ν τ} {events : List (Event τ)}
    (ends : Ends program { state with
      sessions := state.sessions.insert id
        ⟨label, rest, Function.update own write.row (some value)⟩ } after id events) :
    Ends program state after id (.run id :: events) where
  progress := List.forall_mem_cons.mpr ⟨rfl, ends.progress⟩
  run := by
    refine (Run.exec_cons_eq_some_iff _ _ _ _ _).mpr ⟨_, ?_, ends.run⟩
    simp only [Locking.step, found, unlocked, Bool.false_eq_true, if_false, updated]
  ended := ends.ended
  others other different := by
    have left := ends.others other different
    rwa [AList.lookup_insert_ne different] at left

/-- First the transaction that holds a row, then the one that waits for it. -/
theorem Ends.append {middle after : State ρ ν τ} {holder id : Nat} {first second : List (Event τ)}
    (released : Ends program state middle holder first) (ends : Ends program middle after id second) :
    Ends program state after id (first ++ second) where
  progress := List.forall_mem_append.mpr ⟨released.progress, ends.progress⟩
  run := by
    rw [Run.exec_append, released.run]
    exact ends.run
  ended := ends.ended
  others other different := by
    rcases ends.others other different with same | gone
    · by_cases here : other = holder
      · rw [here] at same ⊢
        exact Or.inr (same.trans released.ended)
      · rw [same]
        exact released.others other here
    · exact Or.inr gone

theorem Serial.of_ends (serial : Serial program base state) {after : State ρ ν τ} {id : Nat}
    {events : List (Event τ)} (ends : Ends program state after id events) :
    Serial program base after :=
  Run.Reachable.invariant ⟨events, ends.run⟩ serial fun _ _ _ kept taken => kept.step taken

/-- The row that a transaction has held is free once it has ended. -/
theorem Serial.unlocked_of_ends (serial : Serial program base state) {middle : State ρ ν τ}
    {holder id : Nat} {events : List (Event τ)} (released : Ends program state middle holder events)
    {session : Session ρ ν τ} (holding : state.sessions.lookup holder = some session) {row : ρ}
    (written : (session.own row).isSome = true) : middle.locked id row = false := by
  by_contra still
  obtain ⟨third, another, -, found, again⟩ := locked_iff.mp (eq_true_of_ne_false still)
  have other : third ≠ holder := by
    rintro rfl
    rw [released.ended] at found
    contradiction
  rcases released.others third other with same | gone
  · rw [same] at found
    rw [serial.exclusive holder third session another row (Ne.symm other) holding found
      written] at again
    contradiction
  · rw [gone] at found
    contradiction

/-- The induction is on the rank of the transaction, which is larger than that
of the one it waits for, and then on its statements. -/
theorem Ranked.exists_ends {rank : Session ρ ν τ → Nat} (ranked : Ranked program rank)
    (bound : Nat) (serial : Serial program base state) {id : Nat} {session : Session ρ ν τ}
    (found : state.sessions.lookup id = some session) (below : rank session < bound) :
    ∃ events after, Ends program state after id events := by
  induction bound generalizing state id session with
  | zero => omega
  | succ bound ihRank =>
      obtain ⟨label, todo, own⟩ := session
      induction todo generalizing state own with
      | nil => exact exists_ends_of_finished found
      | cons write rest ih =>
          have goesOn : ∀ {middle : State ρ ν τ}, Serial program base middle →
              middle.sessions.lookup id = some ⟨label, write :: rest, own⟩ →
              middle.locked id write.row = false →
              ∃ events after, Ends program middle after id events := by
            intro middle serial found unlocked
            cases updated : write.update (overlay own middle.table write.row) with
            | none => exact ⟨_, _, ends_of_failed found unlocked updated⟩
            | some value =>
                have smaller := ranked.run label write rest own value
                obtain ⟨events, after, ends⟩ := ih (serial.run found unlocked updated) _
                  (lookup_written middle id _) (smaller.trans_lt below)
                exact ⟨_, after, ends.of_run found unlocked updated⟩
          cases locked : state.locked id write.row with
          | false => exact goesOn serial found locked
          | true =>
              obtain ⟨holder, session, different, holding, written⟩ := locked_iff.mp locked
              have smaller := ranked.waits serial different found holding written
              obtain ⟨first, middle, released⟩ := ihRank serial holding (by omega)
              rcases released.others id (Ne.symm different) with same | gone
              · obtain ⟨second, after, ends⟩ := goesOn (serial.of_ends released)
                  (same.trans found) (serial.unlocked_of_ends released holding written)
                exact ⟨first ++ second, after, released.append ends⟩
              · refine ⟨first, middle, released.progress, released.run, gone, ?_⟩
                intro other apart
                by_cases here : other = holder
                · exact Or.inr (here ▸ released.ended)
                · exact released.others other here

/-- Every transaction can be brought to its end. -/
theorem Serial.exists_end (serial : Serial program base state) {rank : Session ρ ν τ → Nat}
    (ranked : Ranked program rank) (id : Nat) :
    ∃ events after, (∀ event ∈ events, event.isProgress = true) ∧
      Run.exec (Locking.step program) state events = some after ∧
      after.sessions.lookup id = none := by
  cases found : state.sessions.lookup id with
  | none => exact ⟨[], state, fun _ member => absurd member List.not_mem_nil, rfl, found⟩
  | some session =>
      obtain ⟨events, after, ends⟩ :=
        ranked.exists_ends (rank session + 1) serial found (Nat.lt_succ_self _)
      exact ⟨events, after, ends.progress, ends.run, ends.ended⟩

end Spns.Lib.Locking
