import Mathlib.Data.List.Induction
import Mathlib.Data.List.Perm.Basic
import Mathlib.Logic.Function.Basic
import Mathlib.Tactic.Common

/-!
# Replaying a log on a keyed store

A store maps keys to values.  Its operations put a value at one key or sweep
away every entry that passes a test, so what an operation does at a key depends
on nothing but the value there.  A log entry carries a label that determines
its operation and the keys at which it found something to replace or to
delete; a log replays when, run from start to end, every entry finds exactly
that.

The results say how a replayed log may be extended other than at its end.  A
sweep that is to miss some of the entries it would delete is placed before the
operations that have put them there; a put that is to have no effect is placed
before the sweep that deletes what it has put.
-/

namespace Spns.Lib.Replay

universe u v w

/-- An operation on a keyed store. -/
inductive Op (κ : Type u) (ν : Type v)
  | put (key : κ) (value : ν)
  | sweep (doomed : κ → ν → Bool)

/-- A log entry: what was run and the keys at which it found something. -/
structure Entry (α : Type w) (κ : Type u) where
  label : α
  found : κ → Bool

variable {κ : Type u} {ν : Type v} {α : Type w} [DecidableEq κ]

namespace Op

/-- The value at a key after the operation. -/
def act (op : Op κ ν) (key : κ) (value : Option ν) : Option ν :=
  match op with
  | .put target new => if key = target then some new else value
  | .sweep doomed => value.filter fun present => !doomed key present

/-- Whether the operation replaces or deletes a value at a key. -/
def finds (op : Op κ ν) (key : κ) (value : Option ν) : Bool :=
  match op with
  | .put target _ => key = target ∧ value.isSome
  | .sweep doomed => value.any (doomed key)

@[simp]
theorem act_put_self (key : κ) (new : ν) (value : Option ν) :
    (Op.put key new).act key value = some new :=
  if_pos rfl

theorem act_put_of_ne {key target : κ} (other : key ≠ target) (new : ν) (value : Option ν) :
    (Op.put target new).act key value = value :=
  if_neg other

@[simp]
theorem finds_put_self (key : κ) (new : ν) (value : Option ν) :
    (Op.put key new).finds key value = value.isSome := by
  simp [finds]

theorem finds_put_of_ne {key target : κ} (other : key ≠ target) (new : ν) (value : Option ν) :
    (Op.put target new).finds key value = false := by
  simp [finds, other]

@[simp]
theorem act_sweep_none (doomed : κ → ν → Bool) (key : κ) :
    (Op.sweep doomed).act key none = none :=
  rfl

@[simp]
theorem finds_sweep_none (doomed : κ → ν → Bool) (key : κ) :
    (Op.sweep doomed).finds key none = false :=
  rfl

theorem act_sweep_some (doomed : κ → ν → Bool) (key : κ) (value : ν) :
    (Op.sweep doomed).act key (some value) = if doomed key value then none else some value := by
  cases test : doomed key value <;> simp [act, Option.filter, test]

@[simp]
theorem finds_sweep_some (doomed : κ → ν → Bool) (key : κ) (value : ν) :
    (Op.sweep doomed).finds key (some value) = doomed key value :=
  rfl

/-- Two sweeps in a row are one. -/
theorem act_sweep_sweep (first second : κ → ν → Bool) (key : κ) (value : Option ν) :
    (Op.sweep second).act key ((Op.sweep first).act key value) =
      (Op.sweep fun key present => first key present || second key present).act key value := by
  cases value with
  | none => rfl
  | some present => cases test : first key present <;> simp [act_sweep_some, test]

end Op

/-- A log replays at one key, from one value to another. -/
def ReplaysAt (op : α → Op κ ν) (key : κ) : Option ν → List (Entry α κ) → Option ν → Prop
  | start, [], final => start = final
  | start, entry :: rest, final =>
      entry.found key = (op entry.label).finds key start ∧
        ReplaysAt op key ((op entry.label).act key start) rest final

/-- A log replays from one store to another. -/
def Replays (op : α → Op κ ν) (start : κ → Option ν) (log : List (Entry α κ))
    (final : κ → Option ν) : Prop :=
  ∀ key, ReplaysAt op key (start key) log (final key)

variable {op : α → Op κ ν} {key : κ}

theorem replaysAt_append_iff (first second : List (Entry α κ)) (start final : Option ν) :
    ReplaysAt op key start (first ++ second) final ↔
      ∃ middle, ReplaysAt op key start first middle ∧ ReplaysAt op key middle second final := by
  induction first generalizing start with
  | nil => simp [ReplaysAt]
  | cons entry rest ih =>
      simp only [List.cons_append, ReplaysAt, ih]
      constructor
      · rintro ⟨agrees, middle, before, after⟩
        exact ⟨middle, ⟨agrees, before⟩, after⟩
      · rintro ⟨middle, ⟨agrees, before⟩, after⟩
        exact ⟨agrees, middle, before, after⟩

theorem replays_cons_iff (entry : Entry α κ) (rest : List (Entry α κ)) (start final : κ → Option ν) :
    Replays op start (entry :: rest) final ↔
      (∀ key, entry.found key = (op entry.label).finds key (start key)) ∧
        Replays op (fun key => (op entry.label).act key (start key)) rest final :=
  forall_and

/-- Add an entry at the end. -/
theorem Replays.concat {start final : κ → Option ν} {log : List (Entry α κ)}
    (replays : Replays op start log final) (entry : Entry α κ)
    (agrees : ∀ key, entry.found key = (op entry.label).finds key (final key)) :
    Replays op start (log ++ [entry]) (fun key => (op entry.label).act key (final key)) := by
  intro key
  rw [replaysAt_append_iff]
  exact ⟨final key, replays key, agrees key, rfl⟩

/-- Add a put without effect in front of the sweep that undoes it. -/
theorem Replays.insert_put {start final : κ → Option ν} {before after : List (Entry α κ)}
    {sweeper : Entry α κ} (replays : Replays op start (before ++ sweeper :: after) final)
    {doomed : κ → ν → Bool} (sweeps : op sweeper.label = .sweep doomed) {target : κ}
    (swept : sweeper.found target = true) (label : α) {value : ν} (puts : op label = .put target value)
    (dooms : doomed target value = true) :
    Replays op start (before ++ ⟨label, fun key => decide (key = target)⟩ :: sweeper :: after)
      final := by
  intro key
  obtain ⟨middle, first, agrees, rest⟩ := (replaysAt_append_iff _ _ _ _).mp (replays key)
  rw [replaysAt_append_iff]
  refine ⟨middle, first, ?_⟩
  by_cases here : key = target
  · subst here
    rw [swept, sweeps] at agrees
    obtain ⟨present, rfl⟩ : ∃ present, middle = some present := by
      cases middle with
      | none => simp at agrees
      | some present => exact ⟨present, rfl⟩
    have doomedBefore : doomed key present = true := agrees.symm
    rw [sweeps, Op.act_sweep_some, if_pos doomedBefore] at rest
    simp only [ReplaysAt, puts, sweeps, swept, Op.act_put_self, Op.finds_put_self,
      Op.finds_sweep_some, dooms, Op.act_sweep_some, if_true]
    exact ⟨by simp, trivial, rest⟩
  · simp only [ReplaysAt, puts, Op.act_put_of_ne here, Op.finds_put_of_ne here]
    exact ⟨decide_eq_false here, agrees, rest⟩

/-! ## Moving puts to the end -/

/-- The entry puts a value where there was none. -/
def isBirth (op : α → Op κ ν) (key : κ) (entry : Entry α κ) : Bool :=
  match op entry.label with
  | .put target _ => target = key ∧ entry.found key = false
  | .sweep _ => false

/-- The entry is one of the puts since the last birth at a spared key. -/
def isLate (op : α → Op κ ν) (spared : κ → Bool) (entry : Entry α κ) (rest : List (Entry α κ)) :
    Bool :=
  match op entry.label with
  | .put target _ => spared target && rest.all fun later => !isBirth op target later
  | .sweep _ => false

/-- The log without the late puts. -/
def kept (op : α → Op κ ν) (spared : κ → Bool) : List (Entry α κ) → List (Entry α κ)
  | [] => []
  | entry :: rest =>
      if isLate op spared entry rest then kept op spared rest else entry :: kept op spared rest

/-- The late puts, in order. -/
def late (op : α → Op κ ν) (spared : κ → Bool) : List (Entry α κ) → List (Entry α κ)
  | [] => []
  | entry :: rest =>
      if isLate op spared entry rest then entry :: late op spared rest else late op spared rest

theorem kept_append_late_perm (spared : κ → Bool) (log : List (Entry α κ)) :
    (kept op spared log ++ late op spared log).Perm log := by
  induction log with
  | nil => exact List.Perm.nil
  | cons entry rest ih =>
      unfold kept late
      split
      · exact List.perm_middle.trans (ih.cons entry)
      · exact ih.cons entry

/-- Without a birth, an absent value stays absent. -/
theorem ReplaysAt.eq_none {log : List (Entry α κ)} {final : Option ν}
    (replays : ReplaysAt op key none log final)
    (unborn : log.all (fun entry => !isBirth op key entry) = true) : final = none := by
  induction log with
  | nil => exact replays.symm
  | cons entry rest ih =>
      obtain ⟨agrees, following⟩ := replays
      rw [List.all_cons, Bool.and_eq_true] at unborn
      apply ih _ unborn.2
      have unborn := unborn.1
      rw [isBirth] at unborn
      cases effect : op entry.label with
      | put target new =>
          rw [effect] at agrees following unborn
          by_cases here : key = target
          · subst here
            simp only [Op.finds_put_self, Option.isSome_none] at agrees
            simp [agrees] at unborn
          · rwa [Op.act_put_of_ne here] at following
      | sweep doomed =>
          rw [effect] at following
          exact following

/-- At a key that is not spared the late puts do nothing. -/
theorem ReplaysAt.split_of_not_spared {spared : κ → Bool} {log : List (Entry α κ)}
    {start final : Option ν} (replays : ReplaysAt op key start log final)
    (outside : spared key = false) :
    ReplaysAt op key start (kept op spared log) final ∧
      ∀ value, ReplaysAt op key value (late op spared log) value := by
  induction log generalizing start with
  | nil => exact ⟨replays, fun _ => rfl⟩
  | cons entry rest ih =>
      obtain ⟨agrees, following⟩ := replays
      unfold kept late
      split
      · rename_i moved
        rw [isLate] at moved
        cases effect : op entry.label with
        | put target new =>
            rw [effect] at agrees following moved
            have elsewhere : key ≠ target := by
              rintro rfl
              simp [outside] at moved
            rw [Op.act_put_of_ne elsewhere] at following
            rw [Op.finds_put_of_ne elsewhere] at agrees
            refine ⟨(ih following).1, fun value => ?_⟩
            simp only [ReplaysAt, effect, Op.act_put_of_ne elsewhere,
              Op.finds_put_of_ne elsewhere]
            exact ⟨agrees, (ih following).2 value⟩
        | sweep doomed => simp [effect] at moved
      · exact ⟨⟨agrees, (ih following).1⟩, (ih following).2⟩

/-- At a spared key without a birth, every put is late and nothing is deleted. -/
theorem ReplaysAt.split_of_unborn {spared : κ → Bool} {log : List (Entry α κ)} {start final : ν}
    (replays : ReplaysAt op key (some start) log (some final)) (inside : spared key = true)
    (unborn : log.all (fun entry => !isBirth op key entry) = true) :
    ReplaysAt op key none (kept op spared log) none ∧
      ReplaysAt op key (some start) (late op spared log) (some final) := by
  induction log generalizing start with
  | nil => exact ⟨rfl, replays⟩
  | cons entry rest ih =>
      obtain ⟨agrees, following⟩ := replays
      rw [List.all_cons, Bool.and_eq_true] at unborn
      cases effect : op entry.label with
      | put target new =>
          rw [effect] at agrees following
          by_cases here : key = target
          · subst here
            rw [Op.act_put_self] at following
            have moved : isLate op spared entry rest = true := by
              simp [isLate, effect, inside, unborn.2]
            simp only [kept, late, moved, if_true, ReplaysAt, effect, Op.act_put_self]
            exact ⟨(ih following unborn.2).1, agrees, (ih following unborn.2).2⟩
          · rw [Op.act_put_of_ne here] at following
            rw [Op.finds_put_of_ne here] at agrees
            have result := ih following unborn.2
            unfold kept late
            split
            · constructor
              · exact result.1
              · simp only [ReplaysAt, effect, Op.act_put_of_ne here, Op.finds_put_of_ne here]
                exact ⟨agrees, result.2⟩
            · constructor
              · simp only [ReplaysAt, effect, Op.act_put_of_ne here, Op.finds_put_of_ne here]
                exact ⟨agrees, result.1⟩
              · exact result.2
      | sweep doomed =>
          rw [effect, Op.act_sweep_some] at following
          rw [effect, Op.finds_sweep_some] at agrees
          have stays : isLate op spared entry rest = false := by simp [isLate, effect]
          have survives : doomed key start = false := by
            by_contra doomedHere
            rw [Bool.not_eq_false] at doomedHere
            rw [if_pos doomedHere] at following
            exact Option.some_ne_none final (following.eq_none unborn.2)
          rw [if_neg (by simp [survives])] at following
          have result := ih following unborn.2
          simp only [kept, late, stays, Bool.false_eq_true, if_false, ReplaysAt, effect,
            Op.act_sweep_none, Op.finds_sweep_none]
          exact ⟨⟨agrees.trans survives, result.1⟩, result.2⟩

/-- At a spared key the log without the late puts leaves nothing, and the late
puts bring the value back. -/
theorem ReplaysAt.split_of_spared {spared : κ → Bool} {log : List (Entry α κ)}
    {start : Option ν} {final : ν} (replays : ReplaysAt op key start log (some final))
    (inside : spared key = true)
    (born : log.all (fun entry => !isBirth op key entry) = false) :
    ReplaysAt op key start (kept op spared log) none ∧
      ReplaysAt op key none (late op spared log) (some final) := by
  induction log generalizing start with
  | nil => simp at born
  | cons entry rest ih =>
      obtain ⟨agrees, following⟩ := replays
      cases again : rest.all fun later => !isBirth op key later with
      | false =>
          -- a later birth: this entry is not late at the key
          have result := ih following again
          cases effect : op entry.label with
          | put target new =>
              by_cases here : key = target
              · subst here
                have stays : isLate op spared entry rest = false := by
                  simp [isLate, effect, again]
                simp only [kept, late, stays, Bool.false_eq_true, if_false, ReplaysAt]
                exact ⟨⟨agrees, result.1⟩, result.2⟩
              · have inert : (op entry.label).finds key none = entry.found key := by
                  rw [agrees, effect, Op.finds_put_of_ne here, Op.finds_put_of_ne here]
                have still : (op entry.label).act key none = none := by
                  rw [effect, Op.act_put_of_ne here]
                unfold kept late
                split
                · rw [effect, Op.act_put_of_ne here] at result
                  refine ⟨result.1, inert.symm, ?_⟩
                  rw [still]
                  exact result.2
                · exact ⟨⟨agrees, result.1⟩, result.2⟩
          | sweep doomed =>
              have stays : isLate op spared entry rest = false := by simp [isLate, effect]
              simp only [kept, late, stays, Bool.false_eq_true, if_false, ReplaysAt]
              exact ⟨⟨agrees, result.1⟩, result.2⟩
      | true =>
          -- the last birth is this entry
          have birth : isBirth op key entry = true := by simpa [again] using born
          rw [isBirth] at birth
          cases effect : op entry.label with
          | put target new =>
              rw [effect] at agrees following birth
              obtain ⟨rfl, missing⟩ := of_decide_eq_true birth
              rw [missing, Op.finds_put_self] at agrees
              rw [Op.act_put_self] at following
              cases start with
              | some present => simp at agrees
              | none =>
                  have result := following.split_of_unborn inside again
                  have moved : isLate op spared entry rest = true := by
                    simp [isLate, effect, inside, again]
                  simp only [kept, late, moved, if_true, ReplaysAt, effect, Op.act_put_self,
                    Op.finds_put_self]
                  exact ⟨result.1, missing, result.2⟩
          | sweep doomed => simp [effect] at birth

/-- Add a sweep that deletes only part of what it could: it is placed in front
of the puts that have brought the rest. -/
theorem Replays.sweep {final : κ → Option ν} {log : List (Entry α κ)}
    (replays : Replays op (fun _ => none) log final) (sweeper : Entry α κ)
    {doomed : κ → ν → Bool} (sweeps : op sweeper.label = .sweep doomed)
    (deletes : ∀ key, sweeper.found key = true → ∃ value, final key = some value ∧
      doomed key value = true) :
    ∃ order : List (Entry α κ), order.Perm (sweeper :: log) ∧
      Replays op (fun _ => none) order
        (fun key => if sweeper.found key then none else final key) := by
  let spared : κ → Bool := fun key => (final key).any (doomed key) && !sweeper.found key
  refine ⟨kept op spared log ++ sweeper :: late op spared log, ?_, ?_⟩
  · exact List.perm_middle.trans ((kept_append_late_perm spared log).cons sweeper)
  · intro key
    rw [replaysAt_append_iff]
    have replaysHere := replays key
    cases inside : spared key with
    | false =>
        obtain ⟨first, second⟩ := replaysHere.split_of_not_spared inside
        refine ⟨final key, first, ?_⟩
        simp only [ReplaysAt, sweeps]
        cases deleted : sweeper.found key with
        | true =>
            obtain ⟨value, present, dooms⟩ := deletes key deleted
            rw [present, Op.act_sweep_some, Op.finds_sweep_some, if_pos dooms]
            exact ⟨dooms.symm, second none⟩
        | false =>
            have misses : (final key).any (doomed key) = false := by
              simpa [spared, deleted] using inside
            cases present : final key with
            | none => exact ⟨rfl, second none⟩
            | some value =>
                rw [present, Option.any_some] at misses
                rw [Op.act_sweep_some, Op.finds_sweep_some, if_neg (by simp [misses])]
                exact ⟨misses.symm, second (some value)⟩
    | true =>
        obtain ⟨dooms, remains⟩ := Bool.and_eq_true_iff.mp inside
        rw [Bool.not_eq_true'] at remains
        obtain ⟨value, present⟩ : ∃ value, final key = some value := by
          cases present : final key with
          | none => simp [present] at dooms
          | some value => exact ⟨value, rfl⟩
        rw [present] at replaysHere
        have born : log.all (fun entry => !isBirth op key entry) = false := by
          by_contra unborn
          rw [Bool.not_eq_false] at unborn
          exact Option.some_ne_none value (replaysHere.eq_none unborn)
        obtain ⟨first, second⟩ := replaysHere.split_of_spared inside born
        refine ⟨none, first, ?_⟩
        simp only [ReplaysAt, sweeps, remains, present]
        exact ⟨rfl, second⟩

/-! ## What is still there -/

/-- The operation leaves a value at a key alone. -/
def Op.Spares (op : Op κ ν) (key : κ) (value : ν) : Prop :=
  match op with
  | .put target _ => target ≠ key
  | .sweep doomed => doomed key value = false

/-- The value that a log leaves at a key. -/
def replayAt (op : α → Op κ ν) (key : κ) (start : Option ν) (log : List α) : Option ν :=
  log.foldl (fun value label => (op label).act key value) start

/-- An entry of the log put a value at a key, and everything behind it has
spared that value. -/
def InForce (op : α → Op κ ν) (key : κ) (value : ν) (label : α) (log : List α) : Prop :=
  ∃ before after, log = before ++ label :: after ∧ op label = .put key value ∧
    ∀ later ∈ after, (op later).Spares key value

theorem replayAt_concat (start : Option ν) (log : List α) (label : α) :
    replayAt op key start (log ++ [label]) = (op label).act key (replayAt op key start log) :=
  List.foldl_append

theorem Op.act_some_eq_some_iff (op : Op κ ν) (key : κ) (before value : ν) :
    op.act key (some before) = some value ↔
      op = .put key value ∨ before = value ∧ op.Spares key value := by
  cases op with
  | put target new =>
      by_cases here : key = target
      · subst here
        simp [Op.Spares]
      · simp [Op.act_put_of_ne here, Op.Spares, Ne.symm here]
  | sweep doomed =>
      rw [Op.act_sweep_some, Op.Spares]
      cases test : doomed key before with
      | true =>
          have gone : ¬(before = value ∧ doomed key value = false) := by
            rintro ⟨rfl, spared⟩
            rw [test] at spared
            contradiction
          simpa using gone
      | false =>
          simp only [Bool.false_eq_true, if_false, Option.some.injEq, reduceCtorEq, false_or]
          constructor
          · rintro rfl
            exact ⟨rfl, test⟩
          · exact And.left

theorem Op.act_none_eq_some_iff (op : Op κ ν) (key : κ) (value : ν) :
    op.act key none = some value ↔ op = .put key value := by
  cases op with
  | put target new =>
      by_cases here : key = target
      · subst here
        simp
      · simp [Op.act_put_of_ne here, Ne.symm here]
  | sweep doomed => simp

omit [DecidableEq κ] in
theorem inForce_nil (value : ν) (label : α) : ¬InForce op key value label [] := by
  rintro ⟨before, after, split, -⟩
  simp at split

omit [DecidableEq κ] in
/-- A longer log: the last entry is the one in force, or it spares what was. -/
theorem inForce_concat_iff (value : ν) (label last : α) (log : List α) :
    InForce op key value label (log ++ [last]) ↔
      last = label ∧ op label = .put key value ∨
        InForce op key value label log ∧ (op last).Spares key value := by
  constructor
  · rintro ⟨before, after, split, puts, spared⟩
    rcases List.eq_nil_or_concat after with rfl | ⟨front, final, rfl⟩
    · obtain ⟨-, same⟩ := List.append_inj' split rfl
      exact Or.inl ⟨(List.cons.inj same).1, puts⟩
    · have split : log ++ [last] = (before ++ label :: front) ++ [final] := by
        rw [split, List.concat_eq_append, List.append_assoc, List.cons_append]
      obtain ⟨rfl, same⟩ := List.append_inj' split rfl
      obtain rfl := (List.cons.inj same).1
      rw [List.concat_eq_append] at spared
      refine Or.inr ⟨⟨before, front, rfl, puts, fun later member => ?_⟩, ?_⟩
      · exact spared later (List.mem_append_left _ member)
      · exact spared last (List.mem_append_right _ (List.mem_singleton_self last))
  · rintro (⟨rfl, puts⟩ | ⟨⟨before, after, rfl, puts, spared⟩, last_spares⟩)
    · exact ⟨log, [], rfl, puts, fun _ member => absurd member List.not_mem_nil⟩
    · refine ⟨before, after ++ [last], by simp, puts, fun later member => ?_⟩
      rcases List.mem_append.mp member with inside | final
      · exact spared later inside
      · exact List.mem_singleton.mp final ▸ last_spares

omit [DecidableEq κ] in
/-- What is in force is from the second part of a log, or the second part has
spared it. -/
theorem InForce.of_append {value : ν} {label : α} {first second : List α}
    (inForce : InForce op key value label (first ++ second)) :
    label ∈ second ∨
      InForce op key value label first ∧ ∀ later ∈ second, (op later).Spares key value := by
  induction second using List.reverseRecOn with
  | nil =>
      rw [List.append_nil] at inForce
      exact Or.inr ⟨inForce, fun _ member => absurd member List.not_mem_nil⟩
  | append_singleton second last ih =>
      rw [← List.append_assoc, inForce_concat_iff] at inForce
      rcases inForce with ⟨rfl, -⟩ | ⟨earlier, spared⟩
      · exact Or.inl (List.mem_append_right _ (List.mem_singleton_self last))
      · rcases ih earlier with inside | ⟨before, others⟩
        · exact Or.inl (List.mem_append_left _ inside)
        · refine Or.inr ⟨before, fun later member => ?_⟩
          rcases List.mem_append.mp member with inside | final
          · exact others later inside
          · exact List.mem_singleton.mp final ▸ spared

/-- A log that starts from nothing leaves exactly what is in force. -/
theorem replayAt_eq_some_iff (log : List α) (value : ν) :
    replayAt op key none log = some value ↔ ∃ label, InForce op key value label log := by
  induction log using List.reverseRecOn with
  | nil =>
      simp only [replayAt, List.foldl_nil, reduceCtorEq, false_iff, not_exists]
      exact inForce_nil value
  | append_singleton log last ih =>
      simp only [replayAt_concat, inForce_concat_iff, exists_or]
      cases left : replayAt op key none log with
      | none =>
          have never : ¬∃ label, InForce op key value label log := by
            rw [← ih, left]
            exact (Option.some_ne_none value).symm
          rw [Op.act_none_eq_some_iff]
          constructor
          · exact fun puts => Or.inl ⟨last, rfl, puts⟩
          · rintro (⟨label, rfl, puts⟩ | ⟨label, earlier, -⟩)
            · exact puts
            · exact absurd ⟨label, earlier⟩ never
      | some before =>
          rw [left, Option.some.injEq] at ih
          rw [Op.act_some_eq_some_iff, ih]
          constructor
          · rintro (puts | ⟨⟨label, earlier⟩, spared⟩)
            · exact Or.inl ⟨last, rfl, puts⟩
            · exact Or.inr ⟨label, earlier, spared⟩
          · rintro (⟨label, rfl, puts⟩ | ⟨label, earlier, spared⟩)
            · exact Or.inl puts
            · exact Or.inr ⟨⟨label, earlier⟩, spared⟩

omit [DecidableEq κ] in
/-- At most one entry is in force at a key. -/
theorem InForce.unique {log : List α} {value other : ν} {label rival : α}
    (first : InForce op key value label log) (second : InForce op key other rival log) :
    label = rival ∧ value = other := by
  have not_spared {last : α} {new old : ν} (puts : op last = .put key new) :
      ¬(op last).Spares key old := by
    rw [puts]
    exact fun spares => spares rfl
  induction log using List.reverseRecOn with
  | nil => exact absurd first (inForce_nil value label)
  | append_singleton log last ih =>
      rw [inForce_concat_iff] at first second
      rcases first with ⟨rfl, puts⟩ | ⟨earlier, spared⟩
      · rcases second with ⟨rfl, again⟩ | ⟨-, spared⟩
        · rw [puts] at again
          cases again
          exact ⟨rfl, rfl⟩
        · exact absurd spared (not_spared puts)
      · rcases second with ⟨rfl, again⟩ | ⟨sooner, -⟩
        · exact absurd spared (not_spared again)
        · exact ih earlier sooner

end Spns.Lib.Replay
