import Mathlib.Data.Int.Order.Basic
import Mathlib.Data.List.Nodup
import Mathlib.Logic.Function.Basic
import Spns.Lib.Run

/-!
# The pool of database connections

`PGConnPool` keeps connections that nobody uses in a queue, with the time at
which each was put there.  Its mutex is held for single queue operations only,
so `get` and `release` of different callers interleave between them, and
connections die at any time.  The queue stays ordered by time: returned
connections go to its back, and the clock does not run backwards.  This is
what makes it right to trim the queue from the front.
-/

namespace Spns.Storage

open Spns.Lib

/-- A database connection, by the number of its creation. -/
abbrev Connection := Nat

/-- Whoever calls the pool: one `PGConn` object and the calls that make and
destroy it. -/
abbrev Caller := Nat

/-- The public settings of the pool: a time in milliseconds and a number. -/
structure PoolLimits where
  maxIdleTime : Int
  maxIdle : Int
  deriving DecidableEq

/-- The values that the settings have in a new pool. -/
def PoolLimits.initial : PoolLimits where
  maxIdleTime := 30 * 1000
  maxIdle := -1

/-- A queued connection with the time, in nanoseconds, since which it is idle. -/
structure IdleConn where
  conn : Connection
  since : Int
  deriving DecidableEq

structure PGConnPool where
  limits : PoolLimits
  /-- `idle_conns_`, the front first. -/
  idleConns : List IdleConn
  /-- `count_`. -/
  count : Nat
  /-- The number of the next connection. -/
  nextConn : Connection

namespace PGConnPool

/-- Pop from the front while there are more than `maxIdle` connections. -/
def dropExcess (maxIdle : Int) : List IdleConn → List IdleConn
  | [] => []
  | front :: rest =>
      if maxIdle < ((front :: rest).length : Int) then dropExcess maxIdle rest else front :: rest

/-- Pop from the front while it is idle since a time before `cutoff`. -/
def dropExpired (cutoff : Int) : List IdleConn → List IdleConn
  | [] => []
  | front :: rest => if front.since < cutoff then dropExpired cutoff rest else front :: rest

/-- The first half of `clear_idle_conns`. -/
def trimCount (limits : PoolLimits) (idle : List IdleConn) : List IdleConn :=
  if 0 ≤ limits.maxIdle then dropExcess limits.maxIdle idle else idle

/-- Its second half; the clock counts nanoseconds. -/
def trimTime (limits : PoolLimits) (now : Int) (idle : List IdleConn) : List IdleConn :=
  if 0 < limits.maxIdleTime then dropExpired (now - limits.maxIdleTime * 1000000) idle else idle

/-- What `clear_idle_conns` leaves in the queue. -/
def trim (limits : PoolLimits) (now : Int) (idle : List IdleConn) : List IdleConn :=
  trimTime limits now (trimCount limits idle)

def clearIdleConns (now : Int) (pool : PGConnPool) : PGConnPool :=
  { pool with idleConns := trim pool.limits now pool.idleConns }

/-- `pop_conn`: the connection that was used last, if there is one. -/
def popConn (pool : PGConnPool) : Option Connection × PGConnPool :=
  match pool.idleConns.getLast? with
  | some last => (some last.conn, { pool with idleConns := pool.idleConns.dropLast })
  | none => (none, pool)

/-- `make_conn` when the connection is established. -/
def makeConn (pool : PGConnPool) : Connection × PGConnPool :=
  (pool.nextConn, { pool with count := pool.count + 1, nextConn := pool.nextConn + 1 })

/-- The first critical section of `release`. -/
def addIdle (now : Int) (conn : Connection) (pool : PGConnPool) : PGConnPool :=
  { pool with idleConns := pool.idleConns ++ [⟨conn, now⟩] }

end PGConnPool

/-- Where a caller is between two critical sections. -/
inductive Phase where
  /-- Without a `PGConn`. -/
  | outside
  /-- In the loop of `get`, before `pop_conn`. -/
  | popping
  /-- In the loop of `get`, before `is_open`. -/
  | testing (conn : Connection)
  /-- In `get`, before `clear_idle_conns`. -/
  | trimming (conn : Option Connection)
  /-- In `get`, before `make_conn`. -/
  | connecting
  /-- With a `PGConn` that has a connection. -/
  | holding (conn : Connection)
  /-- With a `PGConn` whose connection is closed. -/
  | closed
  /-- In `release`, before `clear_idle_conns`. -/
  | returned
  deriving DecidableEq

/-- The connection that a caller owns. -/
def Phase.conn : Phase → Option Connection
  | .testing conn => some conn
  | .trimming conn => conn
  | .holding conn => some conn
  | _ => none

/-- The pool, its callers, the steady clock and the connections that died. -/
structure PoolSystem where
  pool : PGConnPool
  callers : Caller → Phase
  clock : Int
  dead : Connection → Bool

inductive PoolEvent where
  | tick (elapsed : Nat)
  | die (conn : Connection)
  | configure (limits : PoolLimits)
  | get (caller : Caller)
  | popConn (caller : Caller)
  | isOpen (caller : Caller)
  /-- In `get` or `release` of a caller, or called from outside. -/
  | clearIdleConns (caller : Option Caller)
  /-- `make_conn`, which throws if the database cannot be reached. -/
  | makeConn (caller : Caller) (connects : Bool)
  | close (caller : Caller)
  /-- The destructor of `PGConn`. -/
  | destroy (caller : Caller)

namespace PoolSystem

/-- The caller goes on, and the pool is what its step left. -/
def proceed (system : PoolSystem) (caller : Caller) (phase : Phase) (pool : PGConnPool) : PoolSystem :=
  { system with pool := pool, callers := Function.update system.callers caller phase }

def step (system : PoolSystem) : PoolEvent → Option PoolSystem
  | .tick elapsed => some { system with clock := system.clock + elapsed }
  | .die conn => some { system with dead := Function.update system.dead conn true }
  | .configure limits => some { system with pool := { system.pool with limits := limits } }
  | .get caller =>
      match system.callers caller with
      | .outside => some (system.proceed caller .popping system.pool)
      | _ => none
  | .popConn caller =>
      match system.callers caller with
      | .popping =>
          match system.pool.popConn with
          | (some conn, pool) => some (system.proceed caller (.testing conn) pool)
          | (none, pool) => some (system.proceed caller (.trimming none) pool)
      | _ => none
  | .isOpen caller =>
      match system.callers caller with
      | .testing conn =>
          -- a dead connection is dropped, and the loop tries the next one
          if system.dead conn then some (system.proceed caller .popping system.pool)
          else some (system.proceed caller (.trimming (some conn)) system.pool)
      | _ => none
  | .clearIdleConns none =>
      some { system with pool := system.pool.clearIdleConns system.clock }
  | .clearIdleConns (some caller) =>
      match system.callers caller with
      | .trimming (some conn) =>
          some (system.proceed caller (.holding conn) (system.pool.clearIdleConns system.clock))
      | .trimming none =>
          some (system.proceed caller .connecting (system.pool.clearIdleConns system.clock))
      | .returned =>
          some (system.proceed caller .outside (system.pool.clearIdleConns system.clock))
      | _ => none
  | .makeConn caller connects =>
      match system.callers caller with
      | .connecting =>
          if connects then
            some (system.proceed caller (.holding system.pool.makeConn.1) system.pool.makeConn.2)
          else
            some (system.proceed caller .outside
              { system.pool with count := system.pool.count + 1 })
      | _ => none
  | .close caller =>
      match system.callers caller with
      | .holding _ => some (system.proceed caller .closed system.pool)
      | _ => none
  | .destroy caller =>
      match system.callers caller with
      | .holding conn =>
          some (system.proceed caller .returned (system.pool.addIdle system.clock conn))
      | .closed => some (system.proceed caller .outside system.pool)
      | _ => none

/-- The loop of the constructor: `waits` are the times that the connections
take. -/
def addInitial (waits : Nat → Nat) : (remaining : Nat) → PoolSystem → PoolSystem
  | 0, system => system
  | remaining + 1, system =>
      let clock := system.clock + waits remaining
      let (conn, pool) := system.pool.makeConn
      addInitial waits remaining { system with pool := pool.addIdle clock conn, clock := clock }

/-- The constructor of the pool, which connects once in any case. -/
def construct (initialConns clock : Int) (waits : Nat → Nat) : PoolSystem :=
  let (conn, pool) := PGConnPool.makeConn ⟨PoolLimits.initial, [], 0, 0⟩
  let system : PoolSystem := ⟨pool, fun _ => .outside, clock, fun _ => false⟩
  if 0 < initialConns then
    addInitial waits (initialConns - 1).toNat { system with pool := pool.addIdle clock conn }
  else
    system

end PoolSystem

/-! ## Trimming -/

/-- What one trim of a queue does at one time. -/
structure Trimmed (limits : PoolLimits) (now : Int) (before after : List IdleConn) : Prop where
  timely : 0 < limits.maxIdleTime →
    ∀ entry ∈ after, now - entry.since ≤ limits.maxIdleTime * 1000000
  few : 0 ≤ limits.maxIdle → (after.length : Int) ≤ limits.maxIdle
  /-- What is dropped was at the front, and idle for at least as long as what
  is left. -/
  longest : ∃ dropped, before = dropped ++ after ∧
    ∀ entry ∈ dropped, ∀ kept ∈ after, entry.since ≤ kept.since

/-- A queue that is ordered by the times since which its connections are
idle. -/
def Ordered (idle : List IdleConn) : Prop :=
  idle.Pairwise fun first second => first.since ≤ second.since

namespace PGConnPool

theorem dropExcess_suffix (maxIdle : Int) (idle : List IdleConn) :
    dropExcess maxIdle idle <:+ idle := by
  induction idle with
  | nil => exact List.suffix_rfl
  | cons front rest ih =>
      rw [dropExcess]
      split_ifs with excess
      · exact ih.trans (List.suffix_cons front rest)
      · exact List.suffix_rfl

theorem length_dropExcess_le {maxIdle : Int} (limited : 0 ≤ maxIdle) (idle : List IdleConn) :
    ((dropExcess maxIdle idle).length : Int) ≤ maxIdle := by
  induction idle with
  | nil => exact limited
  | cons front rest ih =>
      rw [dropExcess]
      split_ifs with excess
      · exact ih
      · exact Int.not_lt.mp excess

theorem dropExpired_suffix (cutoff : Int) (idle : List IdleConn) :
    dropExpired cutoff idle <:+ idle := by
  induction idle with
  | nil => exact List.suffix_rfl
  | cons front rest ih =>
      rw [dropExpired]
      split_ifs with expired
      · exact ih.trans (List.suffix_cons front rest)
      · exact List.suffix_rfl

/-- In an ordered queue nothing behind the new front is older than it. -/
theorem cutoff_le_of_mem_dropExpired {cutoff : Int} {idle : List IdleConn} (ordered : Ordered idle) :
    ∀ entry ∈ dropExpired cutoff idle, cutoff ≤ entry.since := by
  induction idle with
  | nil => simp [dropExpired]
  | cons front rest ih =>
      obtain ⟨first, others⟩ := List.pairwise_cons.mp ordered
      rw [dropExpired]
      split_ifs with expired
      · exact ih others
      · intro entry member
        have timely : cutoff ≤ front.since := Int.not_lt.mp expired
        rcases List.mem_cons.mp member with rfl | later
        · exact timely
        · exact Int.le_trans timely (first entry later)

theorem trimCount_suffix (limits : PoolLimits) (idle : List IdleConn) :
    trimCount limits idle <:+ idle := by
  rw [trimCount]
  split_ifs
  · exact dropExcess_suffix limits.maxIdle idle
  · exact List.suffix_rfl

theorem trimTime_suffix (limits : PoolLimits) (now : Int) (idle : List IdleConn) :
    trimTime limits now idle <:+ idle := by
  rw [trimTime]
  split_ifs
  · exact dropExpired_suffix _ idle
  · exact List.suffix_rfl

theorem trim_suffix (limits : PoolLimits) (now : Int) (idle : List IdleConn) :
    trim limits now idle <:+ idle :=
  (trimTime_suffix limits now _).trans (trimCount_suffix limits idle)

/-- Trimming an ordered queue from the front drops the right connections. -/
theorem trimmed_trim (limits : PoolLimits) (now : Int) {idle : List IdleConn}
    (ordered : Ordered idle) : Trimmed limits now idle (trim limits now idle) where
  timely limited entry member := by
    rw [trim, trimTime, if_pos limited] at member
    have recent := cutoff_le_of_mem_dropExpired
      (ordered.sublist (trimCount_suffix limits idle).sublist) entry member
    omega
  few limited := by
    have fewer := (trimTime_suffix limits now (trimCount limits idle)).length_le
    have few := length_dropExcess_le limited idle
    rw [trimCount, if_pos limited] at fewer
    rw [trim, trimCount, if_pos limited]
    omega
  longest := by
    obtain ⟨dropped, split⟩ := trim_suffix limits now idle
    refine ⟨dropped, split.symm, ?_⟩
    rw [← split] at ordered
    exact (List.pairwise_append.mp ordered).2.2

end PGConnPool

/-! ## Ownership -/

namespace PoolSystem

/-- The connections in the queue. -/
def idle (system : PoolSystem) : List Connection :=
  system.pool.idleConns.map IdleConn.conn

/-- Nobody shares a connection, and the queue is in order. -/
structure Safe (system : PoolSystem) : Prop where
  /-- No connection is owned by two callers. -/
  exclusive : ∀ first second conn, (system.callers first).conn = some conn →
    (system.callers second).conn = some conn → first = second
  /-- No connection is both owned and idle. -/
  notIdle : ∀ caller conn, (system.callers caller).conn = some conn → conn ∉ system.idle
  idleOnce : system.idle.Nodup
  ordered : Ordered system.pool.idleConns

/-- What makes this inductive: the numbers of new connections and the times of
new entries are not below those in use. -/
structure Invariant (system : PoolSystem) : Prop extends Safe system where
  ownedBefore : ∀ caller conn, (system.callers caller).conn = some conn →
    conn < system.pool.nextConn
  idleBefore : ∀ conn ∈ system.idle, conn < system.pool.nextConn
  past : ∀ entry ∈ system.pool.idleConns, entry.since ≤ system.clock

theorem proceed_callers_self (system : PoolSystem) (caller : Caller) (phase : Phase)
    (pool : PGConnPool) : (system.proceed caller phase pool).callers caller = phase := by
  simp [proceed]

theorem proceed_callers_of_ne (system : PoolSystem) {caller other : Caller}
    (different : other ≠ caller) (phase : Phase) (pool : PGConnPool) :
    (system.proceed caller phase pool).callers other = system.callers other := by
  simp [proceed, different]

/-- A step of one caller: its connection was its own, idle or is new, and what
is idle now was idle or its own before. -/
theorem Invariant.proceed {system : PoolSystem} (invariant : system.Invariant) {caller : Caller}
    {phase : Phase} {pool : PGConnPool}
    (grows : system.pool.nextConn ≤ pool.nextConn)
    (owned : ∀ conn, phase.conn = some conn → conn ∉ pool.idleConns.map IdleConn.conn ∧
      conn < pool.nextConn ∧
      ((system.callers caller).conn = some conn ∨ conn ∈ system.idle ∨ system.pool.nextConn ≤ conn))
    (idle : ∀ conn ∈ pool.idleConns.map IdleConn.conn,
      conn ∈ system.idle ∨ (system.callers caller).conn = some conn)
    (idleOnce : (pool.idleConns.map IdleConn.conn).Nodup) (ordered : Ordered pool.idleConns)
    (past : ∀ entry ∈ pool.idleConns, entry.since ≤ system.clock) :
    (system.proceed caller phase pool).Invariant := by
  have mine := system.proceed_callers_self caller phase pool
  have theirs : ∀ other, other ≠ caller →
      (system.proceed caller phase pool).callers other = system.callers other :=
    fun other different => system.proceed_callers_of_ne different phase pool
  -- nobody else owns what the caller owns now
  have alone : ∀ other conn, other ≠ caller → (system.callers other).conn = some conn →
      phase.conn ≠ some conn := by
    intro other conn different theirOwn myOwn
    rcases (owned conn myOwn).2.2 with before | queued | new
    · exact different (invariant.exclusive other caller conn theirOwn before)
    · exact invariant.notIdle other conn theirOwn queued
    · exact Nat.not_lt.mpr new (invariant.ownedBefore other conn theirOwn)
  refine ⟨⟨?_, ?_, idleOnce, ordered⟩, ?_, ?_, past⟩
  · intro first second conn firstOwns secondOwns
    by_cases isFirst : first = caller
    · subst isFirst
      rw [mine] at firstOwns
      by_contra different
      rw [theirs second (Ne.symm different)] at secondOwns
      exact alone second conn (Ne.symm different) secondOwns firstOwns
    · rw [theirs first isFirst] at firstOwns
      by_cases isSecond : second = caller
      · subst isSecond
        rw [mine] at secondOwns
        exact absurd secondOwns (alone first conn isFirst firstOwns)
      · rw [theirs second isSecond] at secondOwns
        exact invariant.exclusive first second conn firstOwns secondOwns
  · intro other conn owns
    by_cases isCaller : other = caller
    · subst isCaller
      rw [mine] at owns
      exact (owned conn owns).1
    · rw [theirs other isCaller] at owns
      intro queued
      rcases idle conn queued with before | own
      · exact invariant.notIdle other conn owns before
      · exact isCaller (invariant.exclusive other caller conn owns own)
  · intro other conn owns
    by_cases isCaller : other = caller
    · subst isCaller
      rw [mine] at owns
      exact (owned conn owns).2.1
    · rw [theirs other isCaller] at owns
      exact Nat.lt_of_lt_of_le (invariant.ownedBefore other conn owns) grows
  · intro conn queued
    rcases idle conn queued with before | own
    · exact Nat.lt_of_lt_of_le (invariant.idleBefore conn before) grows
    · exact Nat.lt_of_lt_of_le (invariant.ownedBefore caller conn own) grows

/-- A step that adds nothing to the queue, after which the caller has at most
the connection that it had. -/
theorem Invariant.shrink {system : PoolSystem} (invariant : system.Invariant) {caller : Caller}
    {phase : Phase} {pool : PGConnPool} (grows : system.pool.nextConn ≤ pool.nextConn)
    (fewer : pool.idleConns.Sublist system.pool.idleConns)
    (owned : ∀ conn, phase.conn = some conn → (system.callers caller).conn = some conn) :
    (system.proceed caller phase pool).Invariant := by
  have idle : (pool.idleConns.map IdleConn.conn).Sublist system.idle := fewer.map IdleConn.conn
  apply invariant.proceed grows
  · intro conn owns
    have before := owned conn owns
    exact ⟨fun queued => invariant.notIdle caller conn before (idle.subset queued),
      Nat.lt_of_lt_of_le (invariant.ownedBefore caller conn before) grows, Or.inl before⟩
  · exact fun conn queued => Or.inl (idle.subset queued)
  · exact invariant.idleOnce.sublist idle
  · exact invariant.ordered.sublist fewer
  · exact fun entry member => invariant.past entry (fewer.subset member)

/-- A step that is not a caller's. -/
theorem Invariant.environment {system : PoolSystem} (invariant : system.Invariant)
    {next : PoolSystem} (callers : next.callers = system.callers)
    (clock : system.clock ≤ next.clock) (conns : next.pool.nextConn = system.pool.nextConn)
    (fewer : next.pool.idleConns.Sublist system.pool.idleConns) : next.Invariant := by
  have idle : next.idle.Sublist system.idle := fewer.map IdleConn.conn
  refine ⟨⟨?_, ?_, invariant.idleOnce.sublist idle, invariant.ordered.sublist fewer⟩, ?_, ?_, ?_⟩
  · rw [callers]
    exact invariant.exclusive
  · rw [callers]
    exact fun caller conn owns queued => invariant.notIdle caller conn owns (idle.subset queued)
  · rw [callers, conns]
    exact invariant.ownedBefore
  · rw [conns]
    exact fun conn queued => invariant.idleBefore conn (idle.subset queued)
  · exact fun entry member => Int.le_trans (invariant.past entry (fewer.subset member)) clock

theorem Invariant.popConn {system : PoolSystem} (invariant : system.Invariant) {caller : Caller}
    {conn : Connection} {pool : PGConnPool} (popped : system.pool.popConn = (some conn, pool)) :
    (system.proceed caller (.testing conn) pool).Invariant := by
  rw [PGConnPool.popConn] at popped
  split at popped
  case h_2 => simp at popped
  case h_1 last found =>
    simp only [Prod.mk.injEq, Option.some.injEq] at popped
    obtain ⟨rfl, rfl⟩ := popped
    have split : system.pool.idleConns = system.pool.idleConns.dropLast ++ [last] :=
      (List.dropLast_append_getLast? last found).symm
    have idle : system.idle = system.pool.idleConns.dropLast.map IdleConn.conn ++ [last.conn] := by
      rw [PoolSystem.idle, ← List.map_singleton, ← List.map_append, ← split]
    have once := invariant.idleOnce
    rw [idle, List.nodup_append] at once
    have queued : last.conn ∈ system.idle := by simp [idle]
    have fewer := List.dropLast_sublist system.pool.idleConns
    refine invariant.proceed (Nat.le_refl _) ?_ ?_ once.1 (invariant.ordered.sublist fewer) ?_
    · intro conn owns
      obtain rfl := Option.some.inj owns
      exact ⟨fun left => once.2.2 last.conn left last.conn (List.mem_singleton_self _) rfl,
        invariant.idleBefore last.conn queued, Or.inr (Or.inl queued)⟩
    · exact fun conn left => Or.inl (idle ▸ List.mem_append_left _ left)
    · exact fun entry member => invariant.past entry (fewer.subset member)

/-- `make_conn` gives a connection that nobody has. -/
theorem Invariant.makeConn {system : PoolSystem} (invariant : system.Invariant) (caller : Caller) :
    (system.proceed caller (.holding system.pool.makeConn.1) system.pool.makeConn.2).Invariant := by
  apply invariant.proceed (Nat.le_succ _)
  · intro conn owns
    obtain rfl := Option.some.inj owns
    exact ⟨fun queued => Nat.lt_irrefl _ (invariant.idleBefore _ queued), Nat.lt_succ_self _,
      Or.inr (Or.inr (Nat.le_refl _))⟩
  · exact fun conn queued => Or.inl queued
  · exact invariant.idleOnce
  · exact invariant.ordered
  · exact invariant.past

/-- The queue of a connection that was not in it, at a time that no entry is
after. -/
theorem nodup_addIdle {idle : List Connection} {conn : Connection} (once : idle.Nodup)
    (new : conn ∉ idle) : (idle ++ [conn]).Nodup := by
  refine List.nodup_append.mpr ⟨once, List.nodup_singleton conn, ?_⟩
  rintro other before _ isNew rfl
  exact new (List.mem_singleton.mp isNew ▸ before)

theorem ordered_addIdle {idle : List IdleConn} {now : Int} (ordered : Ordered idle)
    (past : ∀ entry ∈ idle, entry.since ≤ now) (conn : Connection) :
    Ordered (idle ++ [⟨conn, now⟩]) := by
  refine List.pairwise_append.mpr ⟨ordered, List.pairwise_singleton _ _, ?_⟩
  intro entry member new isNew
  obtain rfl := List.mem_singleton.mp isNew
  exact past entry member

theorem past_addIdle {idle : List IdleConn} {now : Int}
    (past : ∀ entry ∈ idle, entry.since ≤ now) (conn : Connection) :
    ∀ entry ∈ idle ++ [⟨conn, now⟩], entry.since ≤ now := by
  intro entry member
  rcases List.mem_append.mp member with before | isNew
  · exact past entry before
  · obtain rfl := List.mem_singleton.mp isNew
    exact Int.le_refl _

/-- `release` of the connection that the caller holds. -/
theorem Invariant.release {system : PoolSystem} (invariant : system.Invariant) {caller : Caller}
    {conn : Connection} (held : system.callers caller = .holding conn) :
    (system.proceed caller .returned (system.pool.addIdle system.clock conn)).Invariant := by
  have owns : (system.callers caller).conn = some conn := by rw [held, Phase.conn]
  have idle : (system.pool.addIdle system.clock conn).idleConns.map IdleConn.conn =
      system.idle ++ [conn] := by
    simp [PGConnPool.addIdle, PoolSystem.idle]
  refine invariant.proceed (Nat.le_refl _) ?_ ?_ ?_ ?_ ?_
  · intro other owned
    exact absurd owned (by simp [Phase.conn])
  · intro other queued
    rw [idle] at queued
    rcases List.mem_append.mp queued with before | isNew
    · exact Or.inl before
    · exact Or.inr (by rw [owns, List.mem_singleton.mp isNew])
  · rw [idle]
    exact nodup_addIdle invariant.idleOnce (invariant.notIdle caller conn owns)
  · exact ordered_addIdle invariant.ordered invariant.past conn
  · exact past_addIdle invariant.past conn

/-- Every step keeps the invariant. -/
theorem Invariant.step {system next : PoolSystem} (invariant : system.Invariant)
    {event : PoolEvent} (taken : system.step event = some next) : next.Invariant := by
  have cleared := (PGConnPool.trim_suffix system.pool.limits system.clock
    system.pool.idleConns).sublist
  cases event with
  | tick elapsed =>
      obtain rfl := Option.some.inj taken
      exact invariant.environment rfl (Int.le_add_of_nonneg_right (Int.natCast_nonneg elapsed)) rfl
        (List.Sublist.refl _)
  | die conn =>
      obtain rfl := Option.some.inj taken
      exact invariant.environment rfl (Int.le_refl _) rfl (List.Sublist.refl _)
  | configure limits =>
      obtain rfl := Option.some.inj taken
      exact invariant.environment rfl (Int.le_refl _) rfl (List.Sublist.refl _)
  | get caller =>
      simp only [PoolSystem.step] at taken
      split at taken <;> cases taken
      exact invariant.shrink (Nat.le_refl _) (List.Sublist.refl _) (by simp [Phase.conn])
  | popConn caller =>
      simp only [PoolSystem.step] at taken
      split at taken
      case h_2 => cases taken
      case h_1 popping =>
        split at taken <;> cases taken
        case h_1 conn pool popped => exact invariant.popConn popped
        case h_2 pool popped =>
          have same : pool = system.pool := by
            rw [PGConnPool.popConn] at popped
            split at popped <;> simp_all
          subst same
          exact invariant.shrink (Nat.le_refl _) (List.Sublist.refl _) (by simp [Phase.conn])
  | isOpen caller =>
      simp only [PoolSystem.step] at taken
      split at taken
      case h_2 => cases taken
      case h_1 conn testing =>
        split_ifs at taken <;> cases taken
        · exact invariant.shrink (Nat.le_refl _) (List.Sublist.refl _) (by simp [Phase.conn])
        · exact invariant.shrink (Nat.le_refl _) (List.Sublist.refl _)
            (by simp [Phase.conn, testing])
  | clearIdleConns caller =>
      cases caller with
      | none =>
          obtain rfl := Option.some.inj taken
          exact invariant.environment rfl (Int.le_refl _) rfl cleared
      | some caller =>
          simp only [PoolSystem.step] at taken
          split at taken <;> cases taken
          case h_1 conn trimming =>
            exact invariant.shrink (Nat.le_refl _) cleared (by simp [Phase.conn, trimming])
          case h_2 trimming =>
            exact invariant.shrink (Nat.le_refl _) cleared (by simp [Phase.conn])
          case h_3 returned =>
            exact invariant.shrink (Nat.le_refl _) cleared (by simp [Phase.conn])
  | makeConn caller connects =>
      simp only [PoolSystem.step] at taken
      split at taken
      case h_2 => cases taken
      case h_1 connecting =>
        split_ifs at taken <;> cases taken
        · exact invariant.makeConn caller
        · exact invariant.shrink (Nat.le_refl _) (List.Sublist.refl _) (by simp [Phase.conn])
  | close caller =>
      simp only [PoolSystem.step] at taken
      split at taken <;> cases taken
      exact invariant.shrink (Nat.le_refl _) (List.Sublist.refl _) (by simp [Phase.conn])
  | destroy caller =>
      simp only [PoolSystem.step] at taken
      split at taken <;> cases taken
      case h_1 conn holding => exact invariant.release holding
      case h_2 closed =>
        exact invariant.shrink (Nat.le_refl _) (List.Sublist.refl _) (by simp [Phase.conn])

/-- The constructor puts a new connection into the queue. -/
theorem Invariant.addFresh {system : PoolSystem} (invariant : system.Invariant) :
    Invariant { system with
      pool := system.pool.makeConn.2.addIdle system.clock system.pool.makeConn.1 } := by
  have idle : (system.pool.makeConn.2.addIdle system.clock system.pool.makeConn.1).idleConns.map
      IdleConn.conn = system.idle ++ [system.pool.nextConn] := by
    simp [PGConnPool.addIdle, PGConnPool.makeConn, PoolSystem.idle]
  have new : system.pool.nextConn ∉ system.idle :=
    fun queued => Nat.lt_irrefl _ (invariant.idleBefore _ queued)
  refine ⟨⟨invariant.exclusive, ?_, ?_, ordered_addIdle invariant.ordered invariant.past _⟩, ?_, ?_,
    past_addIdle invariant.past _⟩
  · intro caller conn owns queued
    rw [PoolSystem.idle, idle] at queued
    rcases List.mem_append.mp queued with before | isNew
    · exact invariant.notIdle caller conn owns before
    · obtain rfl := List.mem_singleton.mp isNew
      exact Nat.lt_irrefl _ (invariant.ownedBefore caller _ owns)
  · rw [PoolSystem.idle, idle]
    exact nodup_addIdle invariant.idleOnce new
  · exact fun caller conn owns => Nat.lt_succ_of_lt (invariant.ownedBefore caller conn owns)
  · intro conn queued
    rw [PoolSystem.idle, idle] at queued
    rcases List.mem_append.mp queued with before | isNew
    · exact Nat.lt_succ_of_lt (invariant.idleBefore conn before)
    · obtain rfl := List.mem_singleton.mp isNew
      exact Nat.lt_succ_self _

theorem Invariant.addInitial {waits : Nat → Nat} {remaining : Nat} {system : PoolSystem}
    (invariant : system.Invariant) : (addInitial waits remaining system).Invariant := by
  induction remaining generalizing system with
  | zero => exact invariant
  | succ remaining ih =>
      have waited : Invariant { system with clock := system.clock + waits remaining } :=
        invariant.environment rfl (Int.le_add_of_nonneg_right (Int.natCast_nonneg _)) rfl
          (List.Sublist.refl _)
      exact ih waited.addFresh

/-- Before there are callers and queued connections there is nothing to
share. -/
theorem invariant_of_unused {system : PoolSystem} (callers : system.callers = fun _ => .outside)
    (empty : system.pool.idleConns = []) : system.Invariant := by
  have unowned : ∀ caller conn, (system.callers caller).conn ≠ some conn := by
    simp [callers, Phase.conn]
  have idle : system.idle = [] := by rw [PoolSystem.idle, empty, List.map_nil]
  refine ⟨⟨?_, ?_, ?_, ?_⟩, ?_, ?_, ?_⟩
  · exact fun first second conn owns _ => absurd owns (unowned first conn)
  · exact fun caller conn owns => absurd owns (unowned caller conn)
  · rw [idle]
    exact List.nodup_nil
  · rw [empty]
    exact List.Pairwise.nil
  · exact fun caller conn owns => absurd owns (unowned caller conn)
  · simp [idle]
  · simp [empty]

theorem invariant_construct (initialConns clock : Int) (waits : Nat → Nat) :
    (construct initialConns clock waits).Invariant := by
  rw [construct]
  split_ifs with some
  · have empty : Invariant ⟨⟨PoolLimits.initial, [], 0, 0⟩, fun _ => .outside, clock,
        fun _ => false⟩ := invariant_of_unused rfl rfl
    exact empty.addFresh.addInitial
  · exact invariant_of_unused rfl rfl

/-- A step that runs `clear_idle_conns`. -/
theorem idleConns_of_clearIdleConns {system next : PoolSystem} {caller : Option Caller}
    (taken : system.step (.clearIdleConns caller) = some next) :
    next.pool.idleConns =
      PGConnPool.trim system.pool.limits system.clock system.pool.idleConns := by
  cases caller with
  | none =>
      obtain rfl := Option.some.inj taken
      rfl
  | some caller =>
      simp only [PoolSystem.step] at taken
      split at taken <;> cases taken <;> rfl

/-- In every state that a pool and its callers reach, nobody shares a
connection and the queue is in order, and each `clear_idle_conns` trims the
queue to the limits that are set then. -/
theorem safe_and_trimmed (initialConns clock : Int) (waits : Nat → Nat) {system : PoolSystem}
    (reached : Run.Reachable step (construct initialConns clock waits) system) :
    system.Safe ∧
      ∀ caller next, system.step (.clearIdleConns caller) = some next →
        Trimmed system.pool.limits system.clock system.pool.idleConns next.pool.idleConns := by
  have invariant : system.Invariant :=
    reached.invariant (invariant_construct initialConns clock waits)
      fun _ _ _ kept taken => kept.step taken
  refine ⟨invariant.toSafe, fun caller next taken => ?_⟩
  rw [idleConns_of_clearIdleConns taken]
  exact PGConnPool.trimmed_trim system.pool.limits system.clock invariant.ordered

/-- Two callers: one gets the initial connection, the other a new one.  The
new one comes back first, and it is dropped when the other comes back a minute
later. -/
theorem trimmed_after_two_callers :
    ∃ system next, Run.exec step (construct 1 0 fun _ => 0)
        [.get 0, .get 1, .popConn 0, .popConn 1, .isOpen 0, .clearIdleConns (some 1),
          .makeConn 1 true, .clearIdleConns (some 0), .destroy 1, .tick 60000000000,
          .destroy 0] = some system ∧
      system.step (.clearIdleConns (some 0)) = some next ∧
      next.pool.idleConns = [⟨0, 60000000000⟩] ∧ system.Safe ∧
      Trimmed system.pool.limits system.clock system.pool.idleConns next.pool.idleConns := by
  obtain ⟨system, next, run, taken, left⟩ : ∃ system next,
      Run.exec step (construct 1 0 fun _ => 0)
        [.get 0, .get 1, .popConn 0, .popConn 1, .isOpen 0, .clearIdleConns (some 1),
          .makeConn 1 true, .clearIdleConns (some 0), .destroy 1, .tick 60000000000,
          .destroy 0] = some system ∧
      system.step (.clearIdleConns (some 0)) = some next ∧
      next.pool.idleConns = [⟨0, 60000000000⟩] := ⟨_, _, rfl, rfl, rfl⟩
  obtain ⟨safe, trimmed⟩ := safe_and_trimmed 1 0 (fun _ => 0) ⟨_, run⟩
  exact ⟨system, next, run, taken, left, safe, trimmed (some 0) next taken⟩

end PoolSystem

end Spns.Storage
