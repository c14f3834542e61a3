import Spns.Storage.Stages

/-!
# Execution of a statement

One lemma for each stage says to which stage its next statement leads, and what
new locks, inserts and row ids the transaction then has.
-/

namespace Spns.Storage

open Spns
open Spns.Hive
open Spns.Lib
open Spns.Lib.Replay

namespace Sessions

/-- The row that a query has found is still there with the namespaces of the
request. -/
def StillThere (tables : Tables) (id : Nat) (request : AddRequest) : Prop :=
  (∃ row ∈ tables.subscriptions, row.id = id) ∧
    tables.namespacesOf id = request.sub.namespaces

/-- What a statement may add to a transaction. -/
structure Moves (sessions : Sessions) (conn : Nat) (before after : Transaction) (nextId : Nat) :
    Prop where
  rows : ∀ id, after.locks id = true → before.locks id = true ∨
    (sessions.lockedByOthers conn id = false ∧
      ∃ row ∈ sessions.db.tables.subscriptions, row.id = id) ∨
    (id = sessions.db.nextId ∧ nextId = id + 1)
  devices : ∀ device, after.claims device = true → before.claims device = true ∨
    sessions.claimedByOthers conn device = false
  inserted : ∀ row, .insertRow row ∈ after.writes → .insertRow row ∈ before.writes ∨
    row.id = sessions.db.nextId
  names : ∀ statement ∈ after.todo, ∀ id, statement.mentions id = true →
    (∃ old ∈ before.todo, old.mentions id = true) ∨
    (∃ row ∈ sessions.db.tables.subscriptions, row.id = id) ∨
    (id = sessions.db.nextId ∧ nextId = id + 1)
  ahead : sessions.db.nextId ≤ nextId

/-- A statement without writes whose successors were planned before. -/
theorem Moves.of_suffix {sessions : Sessions} {conn : Nat} {before after : Transaction}
    (writes : after.writes = before.writes) (todo : ∀ statement ∈ after.todo, statement ∈ before.todo) :
    sessions.Moves conn before after sessions.db.nextId := by
  refine ⟨?_, ?_, ?_, ?_, Nat.le_refl _⟩
  · intro id locked
    rw [Transaction.locks, writes] at locked
    exact Or.inl locked
  · intro device claimed
    rw [Transaction.claims, writes] at claimed
    exact Or.inl claimed
  · intro row member
    rw [writes] at member
    exact Or.inl member
  · intro statement member id mentions
    exact Or.inl ⟨statement, todo statement member, mentions⟩

variable {sessions : Sessions} {conn : Nat} {after : Transaction} {nextId : Nat}

theorem insertStatements_mentions {id other : Nat} {namespaces : List Int} {statement : Statement}
    (member : statement ∈ insertStatements id namespaces)
    (mentions : statement.mentions other = true) : other = id := by
  obtain ⟨ns, _, rfl⟩ := List.mem_map.mp member
  exact (of_decide_eq_true mentions).symm

/-- The query of `add_subscription`. -/
theorem execute_reading (sound : sessions.db.Sound) {history : List Committed}
    {request : AddRequest} {rest : List Statement}
    (ran : sessions.execute conn
      ⟨.addSubscription request, [.selectRow request], [], false, []⟩ rest (.selectRow request) =
        .done after nextId) :
    Stage sessions.db.tables history after ∧
      sessions.Moves conn ⟨.addSubscription request, [.selectRow request], [], false, []⟩ after
        nextId := by
  have whole : sessions.view ⟨.addSubscription request, [.selectRow request], [], false, []⟩ =
      sessions.db.tables := rfl
  simp only [execute, whole] at ran
  split at ran
  · rename_i row found
    obtain ⟨member, device⟩ := sound.valid.rowAt_eq_some_iff.mp found
    cases ran
    constructor
    · apply Stage.found
      · split
        · exact Or.inr rfl
        · exact Or.inl rfl
      · intro other present same
        rw [sound.valid.eq_of_id present member same]
        exact device
    · refine ⟨fun _ locked => Or.inl locked, fun _ claimed => Or.inl claimed,
        fun _ inserted => Or.inl inserted, ?_, Nat.le_refl _⟩
      intro statement inTodo id mentions
      refine Or.inr (Or.inl ⟨row, member, ?_⟩)
      rcases List.mem_cons.mp inTodo with rfl | later
      · exact of_decide_eq_true mentions
      · split at later
        · rcases List.mem_cons.mp later with rfl | inserts
          · exact of_decide_eq_true mentions
          · exact (insertStatements_mentions inserts mentions).symm
        · contradiction
  · cases ran
    constructor
    · exact .inserting request
    · refine ⟨fun _ locked => Or.inl locked, fun _ claimed => Or.inl claimed,
        fun _ inserted => Or.inl inserted, ?_, Nat.le_refl _⟩
      intro statement inTodo id mentions
      cases List.mem_singleton.mp inTodo
      contradiction

/-- The update of `add_subscription`. -/
theorem execute_found (sound : sessions.db.Sound) {request : AddRequest} {id : Nat}
    {rest : List Statement}
    (rewrites : rest = [] ∨
      rest = .deleteNamespaces id :: insertStatements id request.sub.namespaces)
    (owner : ∀ row ∈ sessions.db.tables.subscriptions, row.id = id → row.device = request.device)
    (undisturbed : rest = [] → StillThere sessions.db.tables id request ∨
      DeletedFor sessions.db.tables sessions.history id request)
    (ran : sessions.execute conn
      ⟨.addSubscription request, .updateRow id request :: rest, [], false, []⟩ rest
        (.updateRow id request) = .done after nextId) :
    Stage sessions.db.tables sessions.history after ∧
      sessions.Moves conn
        ⟨.addSubscription request, .updateRow id request :: rest, [], false, []⟩ after nextId := by
  have whole : sessions.view ⟨.addSubscription request, .updateRow id request :: rest, [], false,
      []⟩ = sessions.db.tables := rfl
  simp only [execute, whole] at ran
  split at ran
  · contradiction
  · rename_i unlocked
    split at ran
    · rename_i present
      obtain ⟨row, member, here⟩ := List.any_eq_true.mp present
      have here : row.id = id := of_decide_eq_true here
      have device := owner row member here
      cases ran
      constructor
      · apply Stage.writing request id rest
        · constructor
          · intro write inside
            cases List.mem_singleton.mp inside
            rfl
          · simp [Write.locks]
          · have own := sound.valid.primary row member
            rw [here] at own
            simp [Tables.applyAll_cons, Tables.apply, own, here, device]
          · intro old inside
            constructor
            · exact owner old inside
            · intro same
              rw [← here]
              exact sound.valid.unique old inside row member (same.trans device.symm)
          · exact iff_of_false Bool.false_ne_true fun absent => absent row member here
          · intro inserted inside
            cases List.mem_singleton.mp inside
          · exact fun isNew => absurd isNew Bool.false_ne_true
        · rcases rewrites with rfl | rfl
          · apply Progress.same
            rcases undisturbed rfl with ⟨_, same⟩ | ⟨gone, _⟩
            · rw [← same]
              exact Tables.namespacesOf_slot sessions.db.tables id
            · exact absurd here (gone row member)
          · exact Progress.rewrite
      · refine ⟨?_, fun _ claimed => Or.inl ?_, ?_, ?_, Nat.le_refl _⟩
        · intro other locked
          have same : id = other := by simpa [Transaction.locks, Write.locks] using locked
          rw [Bool.not_eq_true] at unlocked
          exact Or.inr (Or.inl ⟨same ▸ unlocked, row, member, same ▸ here⟩)
        · simp [Transaction.claims, Write.claims] at claimed
        · intro inserted inside
          cases List.mem_singleton.mp inside
        · intro statement inTodo other mentions
          exact Or.inl ⟨statement, List.mem_cons_of_mem _ inTodo, mentions⟩
    · rename_i absent
      have gone : ∀ row ∈ sessions.db.tables.subscriptions, row.id ≠ id := by
        intro row member here
        exact absent (List.any_eq_true.mpr ⟨row, member, decide_eq_true here⟩)
      cases ran
      constructor
      · rcases rewrites with rfl | rfl
        · rcases undisturbed rfl with ⟨⟨row, member, here⟩, _⟩ | ⟨_, done, finished, hit, deletes⟩
          · exact absurd here (gone row member)
          · obtain ⟨row, inside, _, device⟩ := hit
            exact .superseded request done finished ⟨row, inside, device⟩ deletes
        · exact .lost request id _ (Or.inl rfl) gone
      · exact Moves.of_suffix rfl fun statement inside => List.mem_cons_of_mem _ inside

/-- The insert of `add_subscription`. -/
theorem execute_inserting (sound : sessions.db.Sound) {history : List Committed}
    {request : AddRequest} {rest : List Statement}
    (ran : sessions.execute conn
      ⟨.addSubscription request, [.insertRow request], [], true, []⟩ rest (.insertRow request) =
        .done after nextId) :
    Stage sessions.db.tables history after ∧
      sessions.Moves conn ⟨.addSubscription request, [.insertRow request], [], true, []⟩ after
        nextId := by
  have whole : sessions.view ⟨.addSubscription request, [.insertRow request], [], true, []⟩ =
      sessions.db.tables := rfl
  simp only [execute, whole] at ran
  split at ran
  · contradiction
  · rename_i unclaimed
    split at ran
    · split at ran <;> contradiction
    · rename_i found
      have absent := Tables.rowAt_eq_none_iff.mp found
      have unused : ∀ row ∈ sessions.db.tables.subscriptions, row.id ≠ sessions.db.nextId :=
        fun row member => Nat.ne_of_lt (sound.bound row member)
      cases ran
      constructor
      · apply Stage.writing request sessions.db.nextId
        · constructor
          · intro write inside
            cases List.mem_singleton.mp inside
            rfl
          · simp [Write.locks]
          · rw [Tables.slot_eq_emptySlot sound.valid unused]
            rfl
          · intro old inside
            exact iff_of_false (unused old inside) (absent old inside)
          · exact iff_of_true rfl unused
          · intro row inside
            cases List.mem_singleton.mp inside
            exact ⟨rfl, rfl, rfl⟩
          · intro _
            simp [Write.claims]
        · apply Progress.insert [] request.sub.namespaces rfl
          rw [Tables.slot_eq_emptySlot sound.valid unused]
          rfl
      · refine ⟨?_, ?_, ?_, ?_, Nat.le_succ _⟩
        · intro id locked
          have same : sessions.db.nextId = id := by
            simpa [Transaction.locks, Write.locks] using locked
          exact Or.inr (Or.inr ⟨same.symm, by rw [same]⟩)
        · intro device claimed
          have same : request.device = device := by
            simpa [Transaction.claims, Write.claims] using claimed
          rw [Bool.not_eq_true] at unclaimed
          exact Or.inr (same ▸ unclaimed)
        · intro row inside
          cases List.mem_singleton.mp inside
          exact Or.inr rfl
        · intro statement inTodo id mentions
          have same := insertStatements_mentions inTodo mentions
          exact Or.inr (Or.inr ⟨same, by rw [same]⟩)

/-- A further write in a slot that the transaction has locked already. -/
theorem Moves.of_write {before after : Transaction} {write : Write}
    (writes : after.writes = before.writes ++ [write])
    (locks : ∀ id, write.locks id = false) (inserts : ∀ row, write ≠ .insertRow row)
    (todo : ∀ statement ∈ after.todo, statement ∈ before.todo) :
    sessions.Moves conn before after sessions.db.nextId := by
  refine ⟨?_, ?_, ?_, ?_, Nat.le_refl _⟩
  · intro id locked
    rw [Transaction.locks, writes] at locked
    simpa [locks, Transaction.locks] using Or.inl locked
  · intro device claimed
    rw [Transaction.claims, writes, List.any_append, Bool.or_eq_true] at claimed
    rcases claimed with old | isNew
    · exact Or.inl old
    · cases write with
      | insertRow row => exact absurd rfl (inserts row)
      | _ => simp [Write.claims] at isNew
  · intro row member
    rw [writes] at member
    rcases List.mem_append.mp member with old | isNew
    · exact Or.inl old
    · exact absurd (List.mem_singleton.mp isNew).symm (inserts row)
  · intro statement member id mentions
    exact Or.inl ⟨statement, todo statement member, mentions⟩

/-- The slot that a transaction sees of its own row. -/
theorem view_slot {request : AddRequest} {id : Nat} {writes : List Write} {newSub : Bool}
    (written : Writes sessions.db.tables request id writes newSub) (todo : List Statement) :
    (sessions.view ⟨.addSubscription request, todo, writes, newSub, []⟩).slot id =
      (sessions.db.tables.slot id).applyAll writes :=
  Tables.slot_applyAll_of_forall_eq written.single

/-- The namespace statements of `add_subscription`. -/
theorem execute_writing {history : List Committed} {request : AddRequest} {id : Nat}
    {writes : List Write} {newSub : Bool}
    (written : Writes sessions.db.tables request id writes newSub) {statement : Statement}
    {rest : List Statement}
    (progress : Progress id request ((sessions.db.tables.slot id).applyAll writes)
      (statement :: rest))
    (ran : sessions.execute conn
      ⟨.addSubscription request, statement :: rest, writes, newSub, []⟩ rest statement =
        .done after nextId) :
    Stage sessions.db.tables history after ∧
      sessions.Moves conn ⟨.addSubscription request, statement :: rest, writes, newSub, []⟩ after
        nextId := by
  have own := view_slot written (statement :: rest)
  generalize planned : statement :: rest = todo at progress own ran
  cases progress with
  | same kept => contradiction
  | rewrite =>
      cases planned
      simp only [execute] at ran
      split at ran
      · contradiction
      · split at ran
        · cases ran
          refine ⟨?_, Moves.of_write rfl (fun _ => rfl) (by simp) fun _ inside =>
            List.mem_cons_of_mem _ inside⟩
          apply Stage.writing request id _ _ _
            (written.concat rfl (by simp) fun _ => rfl)
          apply Progress.insert [] request.sub.namespaces rfl
          rw [Tables.applyAll_append, ← own]
          exact congrArg Tables.subNamespaces (Tables.slot_deleteNamespaces _ id)
        · rename_i nothing
          cases ran
          constructor
          · apply Stage.writing request id _ _ _ written
            apply Progress.insert [] request.sub.namespaces rfl
            rw [← own, List.map_nil]
            apply List.filter_eq_nil_iff.mpr
            intro pair member here
            exact nothing (List.any_eq_true.mpr ⟨pair, member, here⟩)
          · exact Moves.of_suffix rfl fun _ inside => List.mem_cons_of_mem _ inside
  | insert done left all inserted =>
      cases left with
      | nil => contradiction
      | cons ns left =>
          cases planned
          simp only [execute] at ran
          split at ran
          · contradiction
          · split at ran
            · contradiction
            · split at ran
              · contradiction
              · cases ran
                refine ⟨?_, Moves.of_write rfl (fun _ => rfl) (by simp) fun _ inside =>
                  List.mem_cons_of_mem _ inside⟩
                apply Stage.writing request id _ _ _
                  (written.concat rfl (by simp) fun _ => rfl)
                apply Progress.insert (done ++ [ns]) left (by simp [all])
                rw [Tables.applyAll_append, Tables.applyAll_cons, Tables.applyAll_nil]
                simp [Tables.apply, inserted]

/-- A rewrite of namespaces whose row is gone cannot finish. -/
theorem execute_lost (sound : sessions.db.Sound) {history : List Committed}
    {request : AddRequest} {id : Nat} {statement : Statement} {rest : List Statement}
    (stuck : statement :: rest =
        .deleteNamespaces id :: insertStatements id request.sub.namespaces ∨
      statement :: rest = insertStatements id request.sub.namespaces)
    (gone : ∀ row ∈ sessions.db.tables.subscriptions, row.id ≠ id)
    (ran : sessions.execute conn
      ⟨.addSubscription request, statement :: rest, [], false, []⟩ rest statement =
        .done after nextId) :
    Stage sessions.db.tables history after ∧
      sessions.Moves conn ⟨.addSubscription request, statement :: rest, [], false, []⟩ after
        nextId := by
  have whole : sessions.view ⟨.addSubscription request, statement :: rest, [], false, []⟩ =
      sessions.db.tables := rfl
  rcases stuck with first | inserts
  · obtain ⟨rfl, rfl⟩ := List.cons.inj first
    simp only [execute, whole] at ran
    split at ran
    · contradiction
    · split at ran
      · rename_i present
        obtain ⟨pair, member, here⟩ := List.any_eq_true.mp present
        have empty := Tables.slot_eq_emptySlot sound.valid gone
        have inside : pair ∈ (sessions.db.tables.slot id).subNamespaces :=
          List.mem_filter.mpr ⟨member, here⟩
        rw [empty] at inside
        contradiction
      · cases ran
        exact ⟨.lost request id _ (Or.inr rfl) gone,
          Moves.of_suffix rfl fun _ inside => List.mem_cons_of_mem _ inside⟩
  · -- the foreign key of the first insert is violated
    cases namespaces : request.sub.namespaces with
    | nil => exact absurd namespaces request.sub.nonempty
    | cons ns left =>
        rw [namespaces] at inserts
        obtain ⟨rfl, _⟩ := List.cons.inj inserts
        simp only [execute, whole] at ran
        split at ran
        · contradiction
        · rw [if_pos (List.all_eq_true.mpr fun row member => decide_eq_true (gone row member))] at ran
          contradiction

/-- The deletes. -/
theorem execute_deleting {history : List Committed} {call : Call} {statement : Statement}
    {rest : List Statement} {deleted : List Row} {doomed : Device → Stored → Bool}
    (sweeps : call.op = .sweep doomed)
    (conditions : ∀ planned ∈ statement :: rest, ∃ condition,
      planned = .deleteWhere condition ∧ ∀ row namespaces, condition.test row = true →
        doomed row.device ⟨row.data, namespaces⟩ = true)
    (present : ∀ row ∈ deleted, row ∈ sessions.db.tables.subscriptions ∧
      doomed row.device ⟨row.data, sessions.db.tables.namespacesOf row.id⟩ = true)
    (ran : sessions.execute conn
      ⟨call, statement :: rest, deleted.map fun row => .deleteRow row.id, false, deleted⟩ rest
        statement = .done after nextId) :
    Stage sessions.db.tables history after ∧
      sessions.Moves conn
        ⟨call, statement :: rest, deleted.map fun row => .deleteRow row.id, false, deleted⟩ after
        nextId := by
  obtain ⟨condition, rfl, dooms⟩ := conditions statement List.mem_cons_self
  simp only [execute] at ran
  split at ran
  · contradiction
  · rename_i unlocked
    have seen : ∀ row ∈ (sessions.view ⟨call, .deleteWhere condition :: rest,
        deleted.map fun row => .deleteRow row.id, false, deleted⟩).subscriptions,
        row ∈ sessions.db.tables.subscriptions := by
      intro row member
      rw [Tables.mem_iff_mem_slot, view, Tables.slot_applyAll_deletes] at member
      split at member
      · contradiction
      · exact (Tables.mem_slot.mp member).1
    generalize (sessions.view ⟨call, .deleteWhere condition :: rest,
        deleted.map fun row => .deleteRow row.id, false, deleted⟩).subscriptions = visible at *
    cases ran
    constructor
    · rw [← List.map_append]
      apply Stage.deleting call rest _ doomed sweeps
      · exact fun planned member => conditions planned (List.mem_cons_of_mem _ member)
      · intro row member
        rcases List.mem_append.mp member with old | isNew
        · exact present row old
        · obtain ⟨inside, tested⟩ := List.mem_filter.mp isNew
          exact ⟨seen row inside, dooms row _ tested⟩
    · refine ⟨?_, ?_, ?_, ?_, Nat.le_refl _⟩
      · intro id locked
        rw [Transaction.locks, List.any_append, Bool.or_eq_true] at locked
        rcases locked with old | isNew
        · exact Or.inl old
        · obtain ⟨write, member, locks⟩ := List.any_eq_true.mp isNew
          obtain ⟨row, matched, rfl⟩ := List.mem_map.mp member
          have here : row.id = id := of_decide_eq_true locks
          refine Or.inr (Or.inl ⟨?_, row, seen row (List.mem_filter.mp matched).1, here⟩)
          rw [← here]
          by_contra taken
          rw [Bool.not_eq_false] at taken
          exact unlocked (List.any_eq_true.mpr ⟨row, matched, taken⟩)
      · intro device claimed
        obtain ⟨write, member, claims⟩ := List.any_eq_true.mp claimed
        rw [← List.map_append] at member
        obtain ⟨row, _, rfl⟩ := List.mem_map.mp member
        contradiction
      · intro row member
        rw [← List.map_append] at member
        obtain ⟨_, _, equal⟩ := List.mem_map.mp member
        contradiction
      · intro planned member id mentions
        exact Or.inl ⟨planned, List.mem_cons_of_mem _ member, mentions⟩

/-- Every statement leads from a stage to a stage, provided that an update
without a rewrite still finds what its query has found. -/
theorem execute_stage (sound : sessions.db.Sound) {txn : Transaction} {statement : Statement}
    {rest : List Statement} (stage : Stage sessions.db.tables sessions.history txn)
    (planned : txn.todo = statement :: rest)
    (undisturbed : ∀ id request, txn.todo = [.updateRow id request] →
      StillThere sessions.db.tables id request ∨
        DeletedFor sessions.db.tables sessions.history id request)
    (ran : sessions.execute conn txn rest statement = .done after nextId) :
    Stage sessions.db.tables sessions.history after ∧ sessions.Moves conn txn after nextId := by
  cases stage with
  | reading request =>
      obtain ⟨rfl, _⟩ := List.cons.inj planned
      exact execute_reading sound ran
  | found request id later rewrites owner =>
      obtain ⟨rfl, rfl⟩ := List.cons.inj planned
      apply execute_found sound rewrites owner _ ran
      rintro rfl
      exact undisturbed id request rfl
  | inserting request =>
      obtain ⟨rfl, _⟩ := List.cons.inj planned
      exact execute_inserting sound ran
  | writing request id todo writes newSub written progress =>
      cases planned
      exact execute_writing written progress ran
  | lost request id todo stuck gone =>
      cases planned
      exact execute_lost sound stuck gone ran
  | superseded request done member hit deletes => contradiction
  | deleting call todo deleted doomed sweeps conditions present =>
      cases planned
      exact execute_deleting sweeps conditions present ran

end Sessions

end Spns.Storage
