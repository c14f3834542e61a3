import Spns.HiveMind.Coverage

/-!
# Service node updates that fail half-way

A call of `on_sns_response` that throws has already committed the block and
may have changed the indexes, while the flags that would trigger a recheck
are gone with its stack frame.  The ghost flag of the runs below remembers
what the handler forgets: a recheck has become due in a call that failed and
none has been made since.  A later call repairs the state if it makes a
recheck due itself.
-/

namespace Spns.HiveMind

open Spns.Hive
open Spns.Lib
open Spns.Lib.Unordered
open Spns.Storage

/-- One call of `on_sns_response`. -/
abbrev SnsCall := Moment × SnsData

/-- A recheck is still due after the call. -/
def owedAfter (env : Env) (state : HiveMind × Bool) (call : SnsCall) : Bool :=
  let disturbed := state.1.disturbs env call.1 call.2
  match (state.1.onSnsResponse env call.1 call.2).2 with
  | .completed => state.2 && !disturbed
  | _ => state.2 || disturbed

/-- Runs of calls, with the ghost flag. -/
def respond (env : Env) (state : HiveMind × Bool) (call : SnsCall) : Option (HiveMind × Bool) :=
  some ((state.1.onSnsResponse env call.1 call.2).1, owedAfter env state call)

/-- Replies with the same block hash list the same swarm ids. -/
def SameHashSameIds (calls : List SnsCall) : Prop :=
  ∀ first ∈ calls, ∀ second ∈ calls, ∀ reply other ids otherIds,
    first.2 = .reply reply → second.2 = .reply other → reply.blockHash.isSome →
    reply.blockHash = other.blockHash → reply.swarmIds = some ids →
    other.swarmIds = some otherIds → ids = otherIds

/-- The state agrees with the reply alone. -/
def ConsistentWith (data : SnsData) (hive : HiveMind) : Prop :=
  Covered hive ∧ ∀ reply, data = .reply reply → reply.swarmIds = some hive.swarmIds

/-- No failed call has left a recheck due, or this call makes one due itself;
and the empty block hash is not used for swarms as long as no block is known. -/
def Repairs (env : Env) (state : HiveMind × Bool) (call : SnsCall) : Prop :=
  (state.2 = false ∨ state.1.disturbs env call.1 call.2 = true) ∧
    (state.1.lastBlock = ([], -1) → ∀ reply ids, call.2 = .reply reply →
      reply.blockHash = some [] → reply.swarmIds = some ids → ids = [])

/-- `listing` gives the swarm ids of every block hash in the reply. -/
def Lists (listing : Bytes → List UInt64) (data : SnsData) : Prop :=
  ∀ reply hash ids, data = .reply reply → reply.blockHash = some hash →
    reply.swarmIds = some ids → ids = listing hash

theorem SameHashSameIds.exists_listing {calls : List SnsCall} (same : SameHashSameIds calls) :
    ∃ listing, ∀ call ∈ calls, Lists listing call.2 := by
  classical
  let shows : Bytes → List UInt64 → Prop := fun hash ids =>
    ∃ call ∈ calls, ∃ reply, call.2 = .reply reply ∧ reply.blockHash = some hash ∧
      reply.swarmIds = some ids
  refine ⟨fun hash => if known : ∃ ids, shows hash ids then known.choose else [], ?_⟩
  intro call member reply hash ids isReply hashEq idsEq
  have known : ∃ ids, shows hash ids := ⟨ids, call, member, reply, isReply, hashEq, idsEq⟩
  simp only [dif_pos known]
  obtain ⟨other, otherMember, otherReply, isOther, otherHash, otherIds⟩ := known.choose_spec
  exact same call member other otherMember reply otherReply ids _ isReply isOther
    (by simp [hashEq]) (hashEq.trans otherHash.symm) idsEq otherIds

/-- The known swarm ids are those of the known block. -/
def BlockKnown (listing : Bytes → List UInt64) (hive : HiveMind) : Prop :=
  hive.swarmIds = listing hive.lastBlock.1 ∨ hive.lastBlock = ([], -1) ∧ hive.swarmIds = []

/-! ## One call -/

/-- A call changes block and swarm ids by committing, or not at all. -/
theorem Sound.response_block {hive : HiveMind} (sound : Sound hive) (env : Env) (moment : Moment)
    (reply : SnsReply) :
    let result := hive.onSnsResponse env moment (.reply reply)
    (result.2 ≠ .completed ∧ result.1 = hive) ∨
      ∃ committed, Commits reply hive committed ∧ result.1.lastBlock = committed.lastBlock ∧
        result.1.swarmIds = committed.swarmIds ∧
        (result.2 = .completed → ∃ ids, reply.swarmIds = some ids) := by
  have response := sound.indexed.response env moment reply
  generalize hive.onSnsResponse env moment (.reply reply) = result at response ⊢
  have looped_block : ∀ {committed updated : HiveMind} {listing : Map Ed25519PK SnDetails}
      {changed : List NodeRef}, Looped env moment reply hive committed listing updated changed →
      updated.lastBlock = committed.lastBlock ∧ updated.swarmIds = committed.swarmIds := by
    intro committed updated listing changed looped
    have drops := (looped.indexed.dropNodes listing).2
    exact ⟨looped.updating.lastBlock.trans drops.lastBlock,
      looped.updating.swarmIds.trans drops.swarmIds⟩
  cases response with
  | refused what _ => exact Or.inl ⟨by simp, rfl⟩
  | unparsed committed what commits _ =>
      exact Or.inr ⟨committed, commits, rfl, rfl, by simp⟩
  | interrupted committed listing updated changed what looped =>
      obtain ⟨block, ids⟩ := looped_block looped
      exact Or.inr ⟨committed, looped.commits, block, ids, by simp⟩
  | completed committed listing updated changed looped placed =>
      obtain ⟨block, ids⟩ := looped_block looped
      have pruned := (sound.of_looped looped).pruneSwarms
      have rechecked := pruned.tracked.recheck pruned.indexed env moment
      refine Or.inr ⟨committed, looped.commits, ?_, ?_,
        fun _ => SnsReply.swarmIds_of_parsed looped.parsed⟩
      · simp only
        split_ifs
        · exact rechecked.lastBlock.trans block
        · exact block
      · simp only
        split_ifs
        · exact rechecked.swarmIds.trans ids
        · exact ids

theorem BlockKnown.of_commits {listing : Bytes → List UInt64} {reply : SnsReply}
    {hive committed : HiveMind} (known : BlockKnown listing hive)
    (lists : Lists listing (.reply reply)) (commits : Commits reply hive committed) :
    BlockKnown listing committed := by
  rcases commits.source with ⟨-, rfl⟩ | ids
  · exact known
  · exact Or.inl (lists reply committed.lastBlock.1 committed.swarmIds rfl commits.hash ids)

theorem BlockKnown.onSnsResponse {listing : Bytes → List UInt64} {hive : HiveMind}
    (known : BlockKnown listing hive) (sound : Sound hive) (env : Env) (call : SnsCall)
    (lists : Lists listing call.2) :
    BlockKnown listing (hive.onSnsResponse env call.1 call.2).1 := by
  obtain ⟨moment, data⟩ := call
  cases data with
  | unexpectedParts => exact known
  | badStatus => exact known
  | invalidJson => exact known
  | badStates => exact known
  | reply reply =>
      rcases sound.response_block env moment reply with ⟨-, same⟩ |
        ⟨committed, commits, block, ids, -⟩
      · simp only
        rw [same]
        exact known
      · have after := known.of_commits lists commits
        rw [BlockKnown]
        simp only
        rw [block, ids]
        exact after

/-- After a completed call the swarm ids are those of its reply. -/
theorem BlockKnown.swarmIds_of_completed {listing : Bytes → List UInt64} {hive : HiveMind}
    (known : BlockKnown listing hive) (sound : Sound hive) {env : Env} {moment : Moment}
    {reply : SnsReply} (lists : Lists listing (.reply reply))
    (firstBlock : hive.lastBlock = ([], -1) → ∀ ids, reply.blockHash = some [] →
      reply.swarmIds = some ids → ids = [])
    (ended : (hive.onSnsResponse env moment (.reply reply)).2 = .completed) :
    reply.swarmIds = some (hive.onSnsResponse env moment (.reply reply)).1.swarmIds := by
  rcases sound.response_block env moment reply with ⟨incomplete, -⟩ |
    ⟨committed, commits, -, sameIds, listed⟩
  · exact absurd ended incomplete
  · rw [sameIds]
    rcases commits.source with ⟨sameBlock, rfl⟩ | ids
    · obtain ⟨ids, idsEq⟩ := listed ended
      rw [idsEq]
      rcases known with current | ⟨fresh, none⟩
      · rw [current, lists reply _ ids rfl sameBlock idsEq]
      · rw [none, firstBlock fresh ids (by rw [sameBlock, fresh]) idsEq]
    · exact ids

/-- Coverage holds as long as no recheck is due. -/
theorem covered_of_not_owed {hive : HiveMind} {owed : Bool} (sound : Sound hive)
    (covered : owed = false → Covered hive) (env : Env) (call : SnsCall)
    (settled : owedAfter env (hive, owed) call = false) :
    Covered (hive.onSnsResponse env call.1 call.2).1 := by
  rw [owedAfter] at settled
  cases disturbed : hive.disturbs env call.1 call.2 with
  | false =>
      refine (covered ?_).of_calm sound env call.1 call.2 disturbed
      rw [disturbed] at settled
      split at settled <;> simpa using settled
  | true =>
      rw [disturbed] at settled
      split at settled
      · rename_i ended
        exact sound.covered_of_disturbs disturbed ended
      · simp at settled

/-! ## Runs of calls -/

/-- The server has just been started, and `on_sns_response` is called on any
replies, failing wherever it may.  Every completed call that meets `Repairs`
leaves a state that agrees with its own reply. -/
theorem consistent_after_completed_call (env : Env) (now : SysTime) (threads : Nat)
    (clock : Nat → SysTime) (db : Database) {hive : HiveMind}
    (launched : start env now threads clock db = .ok hive) (calls : List SnsCall)
    (same : SameHashSameIds calls) :
    Run.EveryStep (respond env)
      (fun state call next =>
        (state.1.onSnsResponse env call.1 call.2).2 = .completed → Repairs env state call →
          ConsistentWith call.2 next.1)
      (hive, false) calls := by
  obtain ⟨listing, lists⟩ := same.exists_listing
  have fresh : hive.lastBlock = ([], -1) ∧ hive.swarmIds = [] := by
    obtain ⟨subs, -, -, rfl⟩ := start_ok launched
    exact ⟨rfl, rfl⟩
  refine Run.EveryStep.of_guard
    (fun state => Sound state.1 ∧ (state.2 = false → Covered state.1) ∧
      BlockKnown listing state.1)
    (fun _ call _ => Lists listing call.2)
    ⟨Sound.start launched, fun _ => covered_start launched, Or.inr fresh⟩ ?_
    (Run.everyStep_of_forall (fun call member _ _ => lists call member) _)
  rintro ⟨hive, owed⟩ call next ⟨sound, covered, known⟩ taken listed
  cases taken
  have after : owedAfter env (hive, owed) call = false →
      Covered (hive.onSnsResponse env call.1 call.2).1 :=
    covered_of_not_owed sound covered env call
  refine ⟨⟨sound.onSnsResponse env call.1 call.2, after,
    known.onSnsResponse sound env call listed⟩, fun ended repairs => ⟨after ?_, ?_⟩⟩
  · rcases repairs.1 with paid | disturbed
    · simp only at paid
      simp [owedAfter, ended, paid]
    · simp only at disturbed
      simp [owedAfter, ended, disturbed]
  · intro reply isReply
    obtain ⟨moment, data⟩ := call
    cases isReply
    exact known.swarmIds_of_completed sound listed
      (fun first ids hash idsEq => repairs.2 first reply ids rfl hash idsEq) ended

/-- The second call throws at an entry without a public key, after the swarm
ids have been committed; the third one lists the same block. -/
def failingCalls : List SnsCall :=
  [(Sample.moment 0, .reply ⟨some [97], some 1, [Sample.snState 7]⟩),
    (Sample.moment 0, .reply ⟨some [98], some 2,
      [Sample.snState 7, { Sample.snState 0 with pubkeyEd25519 := none }]⟩),
    (Sample.moment 0, .reply ⟨some [98], some 2,
      [Sample.snState 7, { Sample.snState 0 with publicIp := some [] }]⟩)]

/-- A database with one subscription, and the time of its signature. -/
def storedDb : Database :=
  (Database.empty.addSubscription (Sample.request 1700000000)).1

def storedTime : SysTime := 1700000000 * second

theorem sameHashSameIds_failingCalls : SameHashSameIds failingCalls := by
  intro first firstMem second secondMem reply other ids otherIds isReply isOther _ hash idsEq
    otherEq
  simp only [failingCalls, List.mem_cons, List.not_mem_nil, or_false] at firstMem secondMem
  rcases firstMem with rfl | rfl | rfl <;> rcases secondMem with rfl | rfl | rfl <;>
    cases isReply <;> cases isOther <;> first
      | contradiction
      | exact Option.some.inj (idsEq.symm.trans otherEq)

/-- The third call completes, but the account still has its old swarm. -/
theorem failed_call_poisons_next :
    ∃ hive, start Sample.env storedTime 1 (fun _ => storedTime) storedDb = .ok hive ∧
      SameHashSameIds failingCalls ∧
      ¬Run.EveryStep (respond Sample.env)
        (fun state call next =>
          (state.1.onSnsResponse Sample.env call.1 call.2).2 = .completed →
            ConsistentWith call.2 next.1)
        (hive, false) failingCalls := by
  refine ⟨_, rfl, sameHashSameIds_failingCalls, fun holds => ?_⟩
  obtain ⟨-, afterFirst⟩ := holds _ rfl
  obtain ⟨-, afterSecond⟩ := afterFirst _ rfl
  obtain ⟨third, -⟩ := afterSecond _ rfl
  have cached := @(third rfl).1.cached Sample.account _ rfl
  exact absurd cached (by decide)

/-- Without the failing call in between, the last one is consistent. -/
theorem consistent_without_failure :
    ∃ hive next last, start Sample.env storedTime 1 (fun _ => storedTime) storedDb = .ok hive ∧
      Run.exec (respond Sample.env) (hive, false) (failingCalls.take 1) = some next ∧
      Run.exec (respond Sample.env) next (failingCalls.drop 2) = some last ∧
      ∀ call ∈ failingCalls.drop 2, ConsistentWith call.2 last.1 := by
  refine ⟨_, _, _, rfl, rfl, rfl, ?_⟩
  have same : SameHashSameIds (failingCalls.eraseIdx 1) := fun first firstMem second secondMem =>
    sameHashSameIds_failingCalls first (List.mem_of_mem_eraseIdx firstMem) second
      (List.mem_of_mem_eraseIdx secondMem)
  have steps := consistent_after_completed_call Sample.env storedTime 1 (fun _ => storedTime)
    storedDb rfl _ same
  obtain ⟨-, rest⟩ := steps _ rfl
  obtain ⟨last, -⟩ := rest _ rfl
  intro call member
  cases List.mem_singleton.mp member
  refine last rfl ⟨Or.inl rfl, fun initial => ?_⟩
  exact absurd initial (by decide)

end Spns.HiveMind
