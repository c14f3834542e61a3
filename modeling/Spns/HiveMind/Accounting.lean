import Spns.HiveMind.ConnInvariant
import Spns.Lib.Count

/-!
# Counting connection attempts

`allow_connect` takes a slot of `pending_connects_` for every connection that
is opened, and `finished_connect` should give it back once, when the
connection is established or, if it never is, when it ends.  `on_connected`
always gives it back.  `on_disconnected` decides by `connected_` of the node,
which speaks about the ended connection only as long as nobody has closed or
replaced that connection in between.  If the node has been dropped in between,
there is no `connected_` any more, and what `on_disconnected` does is undefined.
-/

namespace Spns.HiveMind

open Spns.Hive
open Spns.Lib
open Spns.Lib.Unordered

/-- How often `finished_connect` is due for a connection. -/
def finishesDue (record : Conn) : Nat :=
  if record.established || record.ended then 1 else 0

/-- The accounting of connection attempts is exact. -/
structure Balanced (env : Env) (hive : HiveMind) : Prop where
  /-- Every successful `allow_connect` has opened a connection. -/
  opened : hive.connectCount = hive.conns.length
  pending : hive.pendingConnects = hive.conns.countP Conn.isPending
  range : 0 ≤ hive.pendingConnects ∧ hive.pendingConnects ≤ (env.maxPendingConnects : Int)
  finishes : ∀ {conn : ConnId} {record : Conn}, hive.conns[conn]? = some record →
    record.finishes = finishesDue record

/-! ## Changing one record -/

section Update

variable {env : Env} {hive : HiveMind} {conn : ConnId} {record : Conn}

/-- One connection changes, and the counter with it. -/
theorem Balanced.update (balanced : Balanced env hive) (found : hive.conns[conn]? = some record)
    (f : Conn → Conn) (pending : Int)
    (moves : (f record).isPending = true → record.isPending = true)
    (count : pending + (if record.isPending then 1 else 0) =
      hive.pendingConnects + if (f record).isPending then 1 else 0)
    (finishes : (f record).finishes = finishesDue (f record)) :
    Balanced env { hive with conns := hive.conns.modify conn f, pendingConnects := pending } := by
  have exact_count : pending = (hive.conns.modify conn f).countP Conn.isPending := by
    have moved := Count.countP_modify Conn.isPending f found
    have before := balanced.pending
    split_ifs at moved count <;> omega
  have below : pending ≤ hive.pendingConnects := by
    cases wasPending : record.isPending <;> cases isPending : (f record).isPending <;>
      simp only [wasPending, isPending, if_true] at count
    · omega
    · rw [moves isPending] at wasPending
      contradiction
    · omega
    · omega
  have low : 0 ≤ pending := by omega
  refine ⟨?_, exact_count, ⟨low, below.trans balanced.range.2⟩, ?_⟩
  · rw [List.length_modify]
    exact balanced.opened
  · intro other changed otherFound
    by_cases equal : conn = other
    · subst equal
      rw [List.getElem?_modify_eq, found] at otherFound
      cases otherFound
      exact finishes
    · rw [List.getElem?_modify_ne _ _ equal] at otherFound
      exact balanced.finishes otherFound

theorem Balanced.close (balanced : Balanced env hive) (conn : ConnId) :
    Balanced env (hive.modifyConn conn fun record => { record with closed := true }) := by
  cases found : hive.conns[conn]? with
  | none =>
      have outside := List.modify_eq_self (f := fun record : Conn => { record with closed := true })
        (List.getElem?_eq_none_iff.mp found)
      rw [modifyConn]
      rw [outside]
      exact balanced
  | some record =>
      have kept := balanced.finishes found
      exact balanced.update found _ hive.pendingConnects (fun pending => pending) rfl kept

end Update

/-- The accounting only reads the counters and the records. -/
theorem Balanced.congr {env : Env} {before after : HiveMind} (balanced : Balanced env before)
    (pendingConnects : after.pendingConnects = before.pendingConnects)
    (connectCount : after.connectCount = before.connectCount)
    (conns : after.conns = before.conns) : Balanced env after where
  opened := by rw [connectCount, conns, balanced.opened]
  pending := by rw [pendingConnects, conns, balanced.pending]
  range := by
    rw [pendingConnects]
    exact balanced.range
  finishes found := by
    rw [conns] at found
    exact balanced.finishes found

theorem connInvariant_balanced (env : Env) : ConnInvariant env (Balanced env) where
  neutral balanced same :=
    balanced.congr same.pendingConnects same.connectCount same.conns
  opens := by
    intro hive ref _ _ room balanced
    constructor
    · simp [granted, openConn, modifyNode, balanced.opened]
    · simp [granted, openConn, modifyNode, balanced.pending, Conn.opened, Conn.isPending]
    · have low := balanced.range.1
      constructor
      · change 0 ≤ hive.pendingConnects + 1
        omega
      · exact room
    · intro conn record found
      rw [openConn_conns, List.getElem?_append] at found
      split_ifs at found
      · exact balanced.finishes found
      · rw [List.getElem?_singleton] at found
        split_ifs at found
        cases found
        rfl
  disconnects := by
    intro hive ref balanced
    have closed : Balanced env (hive.closeConn ref) := by
      rw [closeConn]
      split
      · exact balanced.close _
      · exact balanced
    exact closed.congr rfl rfl rfl
  creates _ _ balanced := balanced.congr rfl rfl rfl

/-! ## Callbacks -/

section Callbacks

variable {env : Env} {hive after : HiveMind} {moment : Moment} {conn : ConnId}

/-- `on_connected` gives the slot of its connection back. -/
theorem Balanced.deliverConnected (balanced : Balanced env hive)
    (delivered : hive.deliverConnected env moment conn = some after) : Balanced env after := by
  rw [HiveMind.deliverConnected] at delivered
  split at delivered
  · rename_i record found
    split_ifs at delivered with done
    cases delivered
    simp only [Bool.or_eq_true, not_or, Bool.not_eq_true] at done
    have due := balanced.finishes found
    have settled := balanced.update found
      (fun record => { record with established := true, finishes := record.finishes + 1 })
      (hive.pendingConnects - 1) (by simp [Conn.isPending])
      (by simp [Conn.isPending, done])
      (by simp [finishesDue, due, done])
    have finished : ∀ (node : NodeRef → SNode),
        Balanced env (({ hive with node := node }.modifyConn conn fun record =>
          { record with established := true }).finishedConnectOf env moment conn) := by
      intro node
      refine (connInvariant_balanced env).finishedConnect moment (settled.congr rfl rfl ?_)
      simp only [modifyConn, List.modify_modify_eq]
      rfl
    unfold onConnected
    simp only
    split_ifs
    · exact finished _
    · exact (connInvariant_balanced env).checkNodeSubs moment _ (finished _)
  · contradiction

/-- Connection `conn` has ended after `count` calls of `finished_connect`. -/
def EndedAfter (conn : ConnId) (count : Nat) (hive : HiveMind) : Prop :=
  ∃ record, hive.conns[conn]? = some record ∧ record.ended = true ∧ record.finishes = count

theorem connInvariant_endedAfter (env : Env) (conn : ConnId) (count : Nat) :
    ConnInvariant env (EndedAfter conn count) where
  neutral := by
    rintro before after ⟨record, found, ended, finishes⟩ same
    exact ⟨record, same.conns ▸ found, ended, finishes⟩
  opens := by
    rintro hive ref _ _ _ ⟨record, found, ended, finishes⟩
    exact ⟨record, getElem?_openConn_conns ref found, ended, finishes⟩
  disconnects := by
    rintro hive ref ⟨record, found, ended, finishes⟩
    change ∃ record, (hive.closeConn ref).conns[conn]? = some record ∧ _
    rw [closeConn]
    split
    · rename_i held _
      by_cases equal : held = conn
      · subst equal
        refine ⟨{ record with closed := true }, ?_, ended, finishes⟩
        simp [modifyConn, found]
      · refine ⟨record, ?_, ended, finishes⟩
        simp [modifyConn, List.getElem?_modify_ne _ _ equal, found]
    · exact ⟨record, found, ended, finishes⟩
  creates := by
    rintro hive addr swarm ⟨record, found, ended, finishes⟩
    exact ⟨record, found, ended, finishes⟩

theorem Balanced.count_of_endedAfter (balanced : Balanced env hive) {count : Nat}
    (ended : EndedAfter conn count hive) : count = 1 := by
  obtain ⟨record, found, isEnded, rfl⟩ := ended
  rw [balanced.finishes found, finishesDue, isEnded, Bool.or_true, if_pos rfl]

/-- Whether `on_disconnected` takes the connection for a failed attempt agrees
with whether it was ever established. -/
def EndsAsBegun (hive : HiveMind) (conn : ConnId) : Prop :=
  ∀ record, hive.conns[conn]? = some record →
    (hive.node record.owner).connected = record.established

/-- `on_disconnected` keeps the books exactly in that case. -/
theorem balanced_deliverDisconnected_iff (balanced : Balanced env hive)
    (quicOut : hive.quicOut = true)
    (delivered : hive.deliverDisconnected env moment conn = some after) :
    Balanced env after ↔ EndsAsBegun hive conn := by
  rw [deliverDisconnected] at delivered
  split at delivered
  · rename_i record found
    split_ifs at delivered with done
    cases delivered
    rw [Bool.not_eq_true] at done
    have due := balanced.finishes found
    have guard : EndsAsBegun hive conn ↔
        (hive.node record.owner).connected = record.established := by
      refine ⟨fun holds => holds record found, fun holds other otherFound => ?_⟩
      rw [found] at otherFound
      cases otherFound
      exact holds
    rw [guard]
    rw [onDisconnected]
    have wired : (hive.modifyConn conn fun record => { record with ended := true }).quicOut =
        true := quicOut
    have owner : ((hive.modifyConn conn fun record => { record with ended := true }).node
        record.owner).connected = (hive.node record.owner).connected := rfl
    simp only [wired, owner, Bool.true_and]
    -- With `connected_` set the slot is kept, otherwise it is given back.
    cases connected : (hive.node record.owner).connected with
    | true =>
        rw [if_neg (by simp)]
        cases established : record.established with
        | true =>
            refine iff_of_true ?_ rfl
            refine (balanced.update found (fun record => { record with ended := true })
              hive.pendingConnects (by simp [Conn.isPending]) (by simp [Conn.isPending, established])
              (by simp [finishesDue, due, established])).congr rfl rfl rfl
        | false =>
            refine iff_of_false (fun books => ?_) (by simp)
            have ended : EndedAfter conn 0 (((hive.modifyConn conn fun record =>
                { record with ended := true }).modifyNode record.owner
                  (SNode.markDisconnected true moment.steady))) := by
              refine ⟨{ record with ended := true }, ?_, rfl, ?_⟩
              · simp [modifyNode, modifyConn, found]
              · simp [due, finishesDue, established, done]
            exact absurd (books.count_of_endedAfter ended) (by simp)
    | false =>
        rw [if_pos (by simp)]
        cases established : record.established with
        | false =>
            refine iff_of_true ?_ rfl
            have settled := balanced.update found
              (fun record => { record with ended := true, finishes := record.finishes + 1 })
              (hive.pendingConnects - 1) (by simp [Conn.isPending])
              (by simp [Conn.isPending, established, done])
              (by simp [finishesDue, due, established, done])
            refine (connInvariant_balanced env).finishedConnect moment (settled.congr rfl rfl ?_)
            simp only [modifyConn, modifyNode, List.modify_modify_eq]
            rfl
        | true =>
            refine iff_of_false (fun books => ?_) (by simp)
            have ended : EndedAfter conn 2 (((hive.modifyConn conn fun record =>
                { record with ended := true }).modifyNode record.owner
                  (SNode.markDisconnected true moment.steady)).finishedConnectOf env moment
                    conn) := by
              refine (connInvariant_endedAfter env conn 2).finishedConnect moment
                ⟨{ record with ended := true, finishes := record.finishes + 1 }, ?_, rfl, ?_⟩
              · simp [modifyNode, modifyConn, found]
              · simp [due, finishesDue, established]
            exact absurd (books.count_of_endedAfter ended) (by simp)
  · contradiction

end Callbacks

/-! ## Runs -/

/-- Every `on_disconnected` meets `EndsAsBegun`. -/
def EndingStep (hive : HiveMind) : Event → Prop
  | .disconnected _ conn => EndsAsBegun hive conn
  | _ => True

theorem balanced_started (env : Env) (db : Storage.Database) (subscribers : Subscribers) :
    Balanced env (started db subscribers) where
  opened := rfl
  pending := rfl
  range := ⟨le_refl _, Int.natCast_nonneg _⟩
  finishes found := by simp [started] at found

theorem balanced_step_iff {env : Env} {hive after : HiveMind} {event : Event}
    (balanced : Balanced env hive) (wired : hive.quicOut = true)
    (taken : step env hive event = some after) : Balanced env after ↔ EndingStep hive event := by
  cases event with
  | start now threads clock =>
      obtain ⟨db, subscribers, rfl⟩ := started_of_step taken
      exact iff_of_true (balanced_started env db subscribers) trivial
  | connected moment conn =>
      exact iff_of_true (balanced.deliverConnected (handle_of_step taken)) trivial
  | disconnected moment conn =>
      exact balanced_deliverDisconnected_iff balanced wired (handle_of_step taken)
  | _ => exact iff_of_true ((connInvariant_balanced env).step rfl taken balanced) trivial

/-- In every run: no callback comes for a node that was dropped, and the
accounting is exact in all states, exactly when no callback comes for a node
that was dropped, and every `on_disconnected` finds `connected_` of its node set
just in case its own connection was established. -/
theorem always_balanced_iff (env : Env) (events : List Event) :
    (NeverDestroyed env initial events ∧
        Run.Always (step env) (Balanced env) initial events) ↔
      NeverDestroyed env initial events ∧
        Run.EveryStep (step env) (fun hive event _ => EndingStep hive event) initial events := by
  have fresh : Balanced env initial := balanced_started env _ _
  refine and_congr_right fun _ => (and_iff_right fresh).trans (Run.everyStep_iff
    (fun hive => Balanced env hive ∧ hive.quicOut = true) _ _ ⟨fresh, rfl⟩ ?_ ?_)
  · intro hive event next kept taken
    exact balanced_step_iff kept.1 kept.2 taken
  · intro hive event next kept taken met
    exact ⟨(balanced_step_iff kept.1 kept.2 taken).mpr met, quicOut_step kept.2 taken⟩

/-- A node connects, changes its address, and the callback of the connection
that was closed for it arrives last. -/
def readdressedRun : List Event :=
  [.snsResponse (Sample.moment 0) (.reply ⟨some [97], some 1, [Sample.snState 7]⟩),
    .connected (Sample.moment 0) 0,
    .snsResponse (Sample.moment 0) (.reply ⟨some [97], some 1,
      [{ Sample.snState 7 with storageLmqPort := some 22021 }]⟩),
    .disconnected (Sample.moment 0) 0]

/-- The slot of the first connection is given back twice. -/
theorem not_always_balanced_readdressedRun :
    ¬Run.Always (step Sample.env) (Balanced Sample.env) initial readdressedRun := by
  intro always
  have outcome : (Run.exec (step Sample.env) initial readdressedRun).map
      (fun hive => (hive.pendingConnects, hive.conns.countP Conn.isPending)) = some (0, 1) := rfl
  obtain ⟨final, run, facts⟩ := Option.map_eq_some_iff.mp outcome
  have pending := (always.of_exec run).pending
  simp only [Prod.mk.injEq] at facts
  rw [facts.1, facts.2] at pending
  contradiction

/-- A node connects, the next update does not list it, and the callback of its
connection comes after that. -/
def droppedRun : List Event :=
  [.snsResponse (Sample.moment 0) (.reply ⟨some [97], some 1, [Sample.snState 7]⟩),
    .connected (Sample.moment 0) 0,
    .snsResponse (Sample.moment 0) (.reply ⟨some [98], some 2, []⟩)]

/-- The callback that is due for the connection of a dropped node runs on an
object that was destroyed. -/
theorem droppedRun_usesDestroyed :
    ∃ hive, Run.exec (step Sample.env) initial droppedRun = some hive ∧
      hive.UsesDestroyed Sample.env (.disconnected (Sample.moment 0) 0) := by
  refine ⟨_, rfl, rfl, 0, rfl, ?_⟩
  decide

end Spns.HiveMind
