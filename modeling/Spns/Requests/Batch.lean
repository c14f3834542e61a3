import Spns.HiveMind.Subscribers
import Spns.Lib.Count
import Spns.Lib.Run
import Spns.Requests.Validation

/-!
# One reply for each batch

A request with several elements is answered once, with the outcomes of all
elements in their order.  The dispatch loop decides an element itself when it
throws; otherwise it sends a request to the notification service, and the
handler of the answer decides the element on another thread, at any later
time.  Whoever decides an element writes its outcome into the shared response
and then counts down the shared counter; who counts down to zero replies.

An event below is one access to the shared state.
-/

namespace Spns.Requests

open Spns
open Spns.Lib

/-- How far one element of a batch is. -/
inductive Phase
  | waiting
  /-- The `notifier.validate` request has been sent. -/
  | requested (prepared : Prepared)
  /-- In `sub_json_set_one_response`, before the write. -/
  | decided (outcome : Json)
  /-- Before the countdown. -/
  | written (outcome : Json)
  /-- The countdown gave zero, before the reply. -/
  | last (outcome : Json)
  | finished (outcome : Json)

namespace Phase

/-- The outcome, once the element is decided. -/
def outcome : Phase → Option Json
  | .waiting => none
  | .requested _ => none
  | .decided outcome => some outcome
  | .written outcome => some outcome
  | .last outcome => some outcome
  | .finished outcome => some outcome

/-- The element has not been counted yet. -/
def isPending : Phase → Bool
  | .last _ => false
  | .finished _ => false
  | _ => true

def isWaiting : Phase → Bool
  | .waiting => true
  | _ => false

def isLast : Phase → Bool
  | .last _ => true
  | _ => false

/-- The outcome is being set. -/
def isSetting : Phase → Bool
  | .decided _ => true
  | .written _ => true
  | .last _ => true
  | _ => false

/-- The outcome is in the response. -/
def isStored : Phase → Bool
  | .waiting => false
  | .requested _ => false
  | .decided _ => false
  | _ => true

end Phase

/-- The state that the threads of one request share. -/
structure Batch where
  multi : Bool
  elements : List Json
  /-- Position of the dispatch loop. -/
  next : Nat
  /-- The element whose outcome the dispatch loop itself is setting. -/
  busy : Option Nat
  phases : List Phase
  response : List Json
  remaining : Int
  replies : List Json

/-- One access to the shared state. -/
inductive BatchEvent
  /-- The dispatch loop handles its next element; `submit` is what
  `omq_.request` does. -/
  | dispatch (around : Surroundings) (submit : Except String Unit)
  /-- The notification service answers, or the request fails. -/
  | answer (index : Nat) (success : Bool) (data : List String) (call : Except CallFailure Bool)
  /-- Whoever has decided an element goes on. -/
  | advance (index : Nat)

namespace Batch

/-- The batch before its dispatch loop. -/
def start (multi : Bool) (elements : List Json) : Batch where
  multi := multi
  elements := elements
  next := 0
  busy := none
  phases := List.replicate elements.length .waiting
  response := List.replicate elements.length (.object [])
  remaining := int32 elements.length
  replies := []

/-- What the dispatch loop does for an element inside its `try`. -/
def dispatched (env : Env) (subscribe : Bool) (around : Surroundings)
    (submit : Except String Unit) (element : Json) : Except Thrown Prepared := do
  let prepared ← prepare env subscribe around element
  orThrow submit
  pure prepared

/-- The reply of a complete batch. -/
def payload (batch : Batch) : Json :=
  if batch.multi then .array batch.response else batch.response.headD .null

/-- The loop goes on once it has set the outcome of its element. -/
def released (batch : Batch) (index : Nat) : Option Nat :=
  if batch.busy = some index then none else batch.busy

/-- `sub_json_set_one_response`, access by access. -/
def advance (batch : Batch) (index : Nat) : Option Batch :=
  match batch.phases[index]? with
  | some (.decided outcome) =>
      some { batch with
        phases := batch.phases.set index (.written outcome)
        response := batch.response.set index outcome }
  | some (.written outcome) =>
      let remaining := int32 (batch.remaining - 1)
      if remaining = 0 then
        some { batch with remaining := remaining, phases := batch.phases.set index (.last outcome) }
      else
        some { batch with
          remaining := remaining
          phases := batch.phases.set index (.finished outcome)
          busy := batch.released index }
  | some (.last outcome) =>
      some { batch with
        replies := batch.replies ++ [batch.payload]
        phases := batch.phases.set index (.finished outcome)
        busy := batch.released index }
  | _ => none

/-- One event of a batch. -/
def step (env : Env) (subscribe : Bool) (batch : Batch) : BatchEvent → Option Batch
  | .dispatch around submit =>
      match batch.busy, batch.elements[batch.next]? with
      | none, some element =>
          match dispatched env subscribe around submit element with
          | .ok prepared =>
              some { batch with
                next := batch.next + 1
                phases := batch.phases.set batch.next (.requested prepared) }
          | .error thrown =>
              some { batch with
                next := batch.next + 1
                busy := some batch.next
                phases := batch.phases.set batch.next
                  (.decided (errorJson thrown.error.1.toInt thrown.error.2)) }
      | _, _ => none
  | .answer index success data call =>
      match batch.phases[index]? with
      | some (.requested prepared) =>
          some { batch with
            phases := batch.phases.set index
              (.decided (onNotifierValidation prepared success data call)) }
      | _ => none
  | .advance index => batch.advance index

/-- How many elements have not been counted yet. -/
def pending (batch : Batch) : Nat :=
  batch.phases.countP Phase.isPending

/-! ## What an event can do -/

/-- The ways in which an event changes a batch. -/
inductive Moves (batch : Batch) : Batch → Prop
  | request (prepared : Prepared) (idle : batch.busy = none)
      (inside : batch.next < batch.elements.length) :
      Moves batch { batch with
        next := batch.next + 1
        phases := batch.phases.set batch.next (.requested prepared) }
  | refuse (outcome : Json) (decided : Decided outcome) (idle : batch.busy = none)
      (inside : batch.next < batch.elements.length) :
      Moves batch { batch with
        next := batch.next + 1
        busy := some batch.next
        phases := batch.phases.set batch.next (.decided outcome) }
  | answer (index : Nat) (prepared : Prepared) (outcome : Json) (decided : Decided outcome)
      (here : batch.phases[index]? = some (.requested prepared)) :
      Moves batch { batch with phases := batch.phases.set index (.decided outcome) }
  | write (index : Nat) (outcome : Json)
      (here : batch.phases[index]? = some (.decided outcome)) :
      Moves batch { batch with
        phases := batch.phases.set index (.written outcome)
        response := batch.response.set index outcome }
  | count (index : Nat) (outcome : Json)
      (here : batch.phases[index]? = some (.written outcome))
      (more : int32 (batch.remaining - 1) ≠ 0) :
      Moves batch { batch with
        remaining := int32 (batch.remaining - 1)
        phases := batch.phases.set index (.finished outcome)
        busy := batch.released index }
  | countLast (index : Nat) (outcome : Json)
      (here : batch.phases[index]? = some (.written outcome))
      (zero : int32 (batch.remaining - 1) = 0) :
      Moves batch { batch with
        remaining := int32 (batch.remaining - 1)
        phases := batch.phases.set index (.last outcome) }
  | reply (index : Nat) (outcome : Json)
      (here : batch.phases[index]? = some (.last outcome)) :
      Moves batch { batch with
        replies := batch.replies ++ [batch.payload]
        phases := batch.phases.set index (.finished outcome)
        busy := batch.released index }

theorem moves_of_advance {batch after : Batch} {index : Nat}
    (taken : batch.advance index = some after) : Moves batch after := by
  rw [advance] at taken
  split at taken
  · rename_i outcome here
    cases taken
    exact .write index outcome here
  · rename_i outcome here
    simp only at taken
    split_ifs at taken with zero
    · cases taken
      exact .countLast index outcome here zero
    · cases taken
      exact .count index outcome here zero
  · rename_i outcome here
    cases taken
    exact .reply index outcome here
  · contradiction

theorem moves_of_step {env : Env} {subscribe : Bool} {batch after : Batch} {event : BatchEvent}
    (taken : batch.step env subscribe event = some after) : Moves batch after := by
  cases event with
  | dispatch around submit =>
      rw [step] at taken
      split at taken
      · rename_i element idle found
        have inside := (List.getElem?_eq_some_iff.mp found).1
        split at taken
        · rename_i prepared _
          cases taken
          exact .request prepared idle inside
        · cases taken
          exact .refuse _ (decided_errorJson _ _) idle inside
      · contradiction
  | answer index success data call =>
      rw [step] at taken
      split at taken
      · rename_i prepared here
        cases taken
        exact .answer index prepared _ (decided_onNotifierValidation _ _ _ _) here
      · contradiction
  | advance index => exact moves_of_advance taken

/-! ## The invariant -/

/-- The phases agree with the position of the loop, and what is stored with the
phases. -/
structure Layout (batch : Batch) : Prop where
  sized : batch.phases.length = batch.elements.length
  responses : batch.response.length = batch.elements.length
  waiting : ∀ {index : Nat} {phase : Phase}, batch.phases[index]? = some phase →
    (phase.isWaiting = true ↔ batch.next ≤ index)
  busy : ∀ {index : Nat}, batch.busy = some index →
    ∃ phase, batch.phases[index]? = some phase ∧ phase.isSetting = true
  stored : ∀ {index : Nat} {phase : Phase}, batch.phases[index]? = some phase →
    phase.isStored = true → batch.response[index]? = phase.outcome
  decided : ∀ {index : Nat} {phase : Phase} {outcome : Json},
    batch.phases[index]? = some phase → phase.outcome = some outcome → Decided outcome

/-- The counter is the number of elements that are not counted, and the reply
is sent once that number is zero. -/
structure Countdown (batch : Batch) : Prop where
  small : batch.phases.length < 2 ^ 31
  counter : batch.remaining = batch.pending
  replied : batch.phases.countP Phase.isLast + batch.replies.length =
    if batch.pending = 0 then 1 else 0
  content : ∀ reply ∈ batch.replies, reply = batch.payload

theorem layout_start (multi : Bool) (elements : List Json) : Layout (start multi elements) where
  sized := List.length_replicate
  responses := List.length_replicate
  waiting := by
    intro index phase found
    have waiting := List.eq_of_mem_replicate (List.mem_of_getElem? found)
    subst waiting
    exact iff_of_true rfl (Nat.zero_le index)
  busy := fun none => nomatch none
  stored := by
    intro index phase found stored
    have waiting := List.eq_of_mem_replicate (List.mem_of_getElem? found)
    subst waiting
    contradiction
  decided := by
    intro index phase outcome found decided
    have waiting := List.eq_of_mem_replicate (List.mem_of_getElem? found)
    subst waiting
    contradiction

theorem pending_start (multi : Bool) (elements : List Json) :
    (start multi elements).pending = elements.length := by
  rw [pending, start, List.countP_replicate]
  rfl

theorem int32_of_lt {count : Nat} (small : count < 2 ^ 31) : int32 count = count := by
  rw [int32]
  apply Int.bmod_eq_of_le <;> omega

theorem countdown_start {multi : Bool} {elements : List Json} (some : elements ≠ [])
    (small : elements.length < 2 ^ 31) : Countdown (start multi elements) where
  small := by
    rw [start, List.length_replicate]
    exact small
  counter := by
    rw [pending_start, start]
    rw [int32_of_lt small]
  replied := by
    rw [pending_start, if_neg (List.length_pos_of_ne_nil some).ne', start, List.countP_replicate]
    rfl
  content := fun reply member => absurd member List.not_mem_nil

/-- The phase at an index after another one was set. -/
theorem phase_set_cases {phases : List Phase} {index other : Nat} {new phase : Phase}
    (found : (phases.set index new)[other]? = some phase) :
    (other = index ∧ phase = new) ∨ (other ≠ index ∧ phases[other]? = some phase) := by
  rw [List.getElem?_set] at found
  split_ifs at found with same inside
  · exact Or.inl ⟨same.symm, (Option.some.inj found).symm⟩
  · exact Or.inr ⟨Ne.symm same, found⟩

theorem phase_set_self {phases : List Phase} {index : Nat} {old : Phase}
    (here : phases[index]? = some old) (new : Phase) :
    (phases.set index new)[index]? = some new := by
  rw [List.getElem?_set_self (List.getElem?_eq_some_iff.mp here).1]

/-- The next element of the loop is waiting. -/
theorem Layout.next_waiting {batch : Batch} (layout : Layout batch)
    (inside : batch.next < batch.elements.length) :
    batch.phases[batch.next]? = some .waiting := by
  have bound : batch.next < batch.phases.length := by
    rw [layout.sized]
    exact inside
  have found := List.getElem?_eq_getElem bound
  have waiting := (layout.waiting found).mpr (Nat.le_refl _)
  rw [found]
  cases phase : batch.phases[batch.next] with
  | waiting => rfl
  | _ =>
      rw [phase] at waiting
      contradiction

/-- One phase changes, and with it at most the response at its index. -/
theorem Layout.change {batch after : Batch} (layout : Layout batch) {index : Nat} {old new : Phase}
    (here : batch.phases[index]? = some old)
    (elements : after.elements = batch.elements)
    (phases : after.phases = batch.phases.set index new)
    (responses : after.response.length = batch.response.length)
    (others : ∀ other, other ≠ index → after.response[other]? = batch.response[other]?)
    (next : ∀ other, other ≠ index → (after.next ≤ other ↔ batch.next ≤ other))
    (waiting : new.isWaiting = true ↔ after.next ≤ index)
    (busy : ∀ other, after.busy = some other →
      (other = index ∧ new.isSetting = true) ∨ (other ≠ index ∧ batch.busy = some other))
    (stored : new.isStored = true → after.response[index]? = new.outcome)
    (decided : ∀ outcome, new.outcome = some outcome → Decided outcome) : Layout after where
  sized := by rw [phases, List.length_set, layout.sized, elements]
  responses := by rw [responses, layout.responses, elements]
  waiting := by
    intro other phase found
    rw [phases] at found
    rcases phase_set_cases found with ⟨rfl, rfl⟩ | ⟨different, before⟩
    · exact waiting
    · exact (layout.waiting before).trans (next other different).symm
  busy := by
    intro other held
    rw [phases]
    rcases busy other held with ⟨rfl, setting⟩ | ⟨different, before⟩
    · exact ⟨new, phase_set_self here new, setting⟩
    · obtain ⟨phase, found, setting⟩ := layout.busy before
      refine ⟨phase, ?_, setting⟩
      rw [List.getElem?_set_ne (Ne.symm different)]
      exact found
  stored := by
    intro other phase found isStored
    rw [phases] at found
    rcases phase_set_cases found with ⟨rfl, rfl⟩ | ⟨different, before⟩
    · exact stored isStored
    · rw [others other different]
      exact layout.stored before isStored
  decided := by
    intro other phase outcome found isDecided
    rw [phases] at found
    rcases phase_set_cases found with ⟨rfl, rfl⟩ | ⟨different, before⟩
    · exact decided outcome isDecided
    · exact layout.decided before isDecided

theorem released_cases {batch : Batch} {index other : Nat}
    (held : batch.released index = some other) : other ≠ index ∧ batch.busy = some other := by
  rw [released] at held
  split_ifs at held with same
  refine ⟨?_, held⟩
  rintro rfl
  exact same held

/-- The loop may be waiting for the element whose phase changes. -/
theorem busy_cases {batch : Batch} {index : Nat} {new : Phase} (setting : new.isSetting = true)
    (other : Nat) (held : batch.busy = some other) :
    (other = index ∧ new.isSetting = true) ∨ (other ≠ index ∧ batch.busy = some other) := by
  by_cases same : other = index
  · exact Or.inl ⟨same, setting⟩
  · exact Or.inr ⟨same, held⟩

/-- An element whose outcome is in the response goes on with this outcome. -/
theorem Layout.change_stored {batch after : Batch} (layout : Layout batch) {index : Nat}
    {old new : Phase} (here : batch.phases[index]? = some old) (isStored : old.isStored = true)
    (elements : after.elements = batch.elements) (response : after.response = batch.response)
    (next : after.next = batch.next) (phases : after.phases = batch.phases.set index new)
    (outcome : new.outcome = old.outcome) (waiting : new.isWaiting = old.isWaiting)
    (busy : ∀ other, after.busy = some other →
      (other = index ∧ new.isSetting = true) ∨ (other ≠ index ∧ batch.busy = some other)) :
    Layout after := by
  refine layout.change here elements phases ?_ ?_ ?_ ?_ busy ?_ ?_
  · rw [response]
  · intro other _
    rw [response]
  · intro other _
    rw [next]
  · rw [waiting, next]
    exact layout.waiting here
  · intro _
    rw [response, outcome]
    exact layout.stored here isStored
  · intro found same
    rw [outcome] at same
    exact layout.decided here same

theorem Layout.step {batch after : Batch} (layout : Layout batch) (taken : Moves batch after) :
    Layout after := by
  cases taken with
  | request prepared idle inside =>
      refine layout.change (layout.next_waiting inside) rfl rfl rfl (fun _ _ => rfl) ?_ ?_ ?_ ?_ ?_
      · intro other different
        simp only
        omega
      · exact iff_of_false Bool.false_ne_true (Nat.not_succ_le_self _)
      · intro other held
        exact nomatch idle.symm.trans held
      · intro stored
        contradiction
      · intro outcome decided
        contradiction
  | refuse outcome decided idle inside =>
      refine layout.change (layout.next_waiting inside) rfl rfl rfl (fun _ _ => rfl) ?_ ?_ ?_ ?_ ?_
      · intro other different
        simp only
        omega
      · exact iff_of_false Bool.false_ne_true (Nat.not_succ_le_self _)
      · intro other held
        exact Or.inl ⟨(Option.some.inj held).symm, rfl⟩
      · intro stored
        contradiction
      · intro found same
        cases same
        exact decided
  | answer index prepared outcome decided here =>
      have dispatched := layout.waiting here
      refine layout.change here rfl rfl rfl (fun _ _ => rfl) (fun _ _ => Iff.rfl)
        dispatched (busy_cases rfl) ?_ ?_
      · intro stored
        contradiction
      · intro found same
        cases same
        exact decided
  | write index outcome here =>
      have inside : index < batch.response.length := by
        rw [layout.responses, ← layout.sized]
        exact (List.getElem?_eq_some_iff.mp here).1
      have dispatched := layout.waiting here
      refine layout.change here rfl rfl List.length_set ?_ (fun _ _ => Iff.rfl)
        dispatched (busy_cases rfl) ?_ (fun _ same => layout.decided here same)
      · intro other different
        exact List.getElem?_set_ne (Ne.symm different)
      · intro _
        exact List.getElem?_set_self inside
  | count index outcome here more =>
      exact layout.change_stored here rfl rfl rfl rfl rfl rfl rfl
        (fun _ held => Or.inr (released_cases held))
  | countLast index outcome here zero =>
      exact layout.change_stored here rfl rfl rfl rfl rfl rfl rfl (busy_cases rfl)
  | reply index outcome here =>
      exact layout.change_stored here rfl rfl rfl rfl rfl rfl rfl
        (fun _ held => Or.inr (released_cases held))

/-- Nothing is sent as long as an element is not counted. -/
theorem Countdown.unreplied {batch : Batch} (countdown : Countdown batch)
    (left : batch.pending ≠ 0) :
    batch.replies = [] ∧ batch.phases.countP Phase.isLast = 0 := by
  have before := countdown.replied
  rw [if_neg left] at before
  exact ⟨List.eq_nil_of_length_eq_zero (by omega), by omega⟩

/-- Changing a phase that stays uncounted. -/
theorem Countdown.change {batch after : Batch} (countdown : Countdown batch) {index : Nat}
    {old new : Phase} (here : batch.phases[index]? = some old)
    (phases : after.phases = batch.phases.set index new) (oldPending : old.isPending = true)
    (newPending : new.isPending = true) (remaining : after.remaining = batch.remaining)
    (replies : after.replies = batch.replies) : Countdown after := by
  have pendings := Count.countP_set Phase.isPending here new
  have lasts := Count.countP_set Phase.isLast here new
  have oldLast : old.isLast = false := by
    cases old <;> first | rfl | contradiction
  have newLast : new.isLast = false := by
    cases new <;> first | rfl | contradiction
  rw [oldPending, newPending, ← phases] at pendings
  rw [oldLast, newLast, ← phases] at lasts
  have same : after.pending = batch.pending := Nat.add_right_cancel pendings
  have positive : batch.pending ≠ 0 := by
    have member := List.countP_pos_iff.mpr ⟨old, List.mem_of_getElem? here, oldPending⟩
    exact Nat.ne_of_gt member
  obtain ⟨none, noLast⟩ := countdown.unreplied positive
  constructor
  · rw [phases, List.length_set]
    exact countdown.small
  · rw [remaining, countdown.counter, same]
  · rw [same, if_neg positive, replies, none, Nat.add_right_cancel lasts, noLast]
    rfl
  · intro reply member
    rw [replies, none] at member
    contradiction

/-- The counter does not wrap around. -/
theorem Countdown.counted {batch : Batch} (countdown : Countdown batch) {index : Nat}
    {old : Phase} (here : batch.phases[index]? = some old) (oldPending : old.isPending = true)
    (new : Phase) (newPending : new.isPending = false) :
    int32 (batch.remaining - 1) = ((batch.phases.set index new).countP Phase.isPending : Nat) ∧
      (batch.phases.set index new).countP Phase.isPending + 1 = batch.pending := by
  have pendings := Count.countP_set Phase.isPending here new
  rw [oldPending, newPending] at pendings
  have moved : (batch.phases.set index new).countP Phase.isPending + 1 = batch.pending := pendings
  refine ⟨?_, moved⟩
  have bound : batch.pending ≤ batch.phases.length := List.countP_le_length
  have small := countdown.small
  have value : batch.remaining - 1 =
      (((batch.phases.set index new).countP Phase.isPending : Nat) : Int) := by
    rw [countdown.counter, ← moved]
    push_cast
    omega
  rw [value]
  exact int32_of_lt (by omega)

theorem Countdown.step {batch after : Batch} (countdown : Countdown batch) (layout : Layout batch)
    (taken : Moves batch after) : Countdown after := by
  cases taken with
  | request prepared idle inside =>
      exact countdown.change (layout.next_waiting inside) rfl rfl rfl rfl rfl
  | refuse outcome decided idle inside =>
      exact countdown.change (layout.next_waiting inside) rfl rfl rfl rfl rfl
  | answer index prepared outcome decided here => exact countdown.change here rfl rfl rfl rfl rfl
  | write index outcome here => exact countdown.change here rfl rfl rfl rfl rfl
  | count index outcome here more =>
      obtain ⟨counter, moved⟩ := countdown.counted here rfl (.finished outcome) rfl
      have lasts := Nat.add_right_cancel (Count.countP_set Phase.isLast here (.finished outcome))
      obtain ⟨none, noLast⟩ := countdown.unreplied (by omega)
      have left : (batch.phases.set index (.finished outcome)).countP Phase.isPending ≠ 0 := by
        intro zero
        rw [counter, zero] at more
        contradiction
      constructor
      · rw [List.length_set]
        exact countdown.small
      · exact counter
      · rw [pending, if_neg left, lasts, noLast, none]
        rfl
      · intro reply member
        rw [none] at member
        contradiction
  | countLast index outcome here zero =>
      obtain ⟨counter, moved⟩ := countdown.counted here rfl (.last outcome) rfl
      have lasts := Count.countP_set Phase.isLast here (.last outcome)
      obtain ⟨none, noLast⟩ := countdown.unreplied (by omega)
      have done : (batch.phases.set index (.last outcome)).countP Phase.isPending = 0 := by
        rw [zero] at counter
        omega
      constructor
      · rw [List.length_set]
        exact countdown.small
      · exact counter
      · rw [pending, if_pos done]
        simp only [Phase.isLast, if_true, Bool.false_eq_true, if_false] at lasts ⊢
        rw [none, List.length_nil]
        omega
      · intro reply member
        rw [none] at member
        contradiction
  | reply index outcome here =>
      have pendings := Nat.add_right_cancel
        (Count.countP_set Phase.isPending here (.finished outcome))
      have lasts := Count.countP_set Phase.isLast here (.finished outcome)
      simp only [Phase.isLast, if_true, Bool.false_eq_true, if_false] at lasts
      have before := countdown.replied
      have done : batch.pending = 0 := by
        by_contra left
        have noLast := (countdown.unreplied left).2
        omega
      rw [if_pos done] at before
      have none : batch.replies = [] := List.eq_nil_of_length_eq_zero (by omega)
      constructor
      · rw [List.length_set]
        exact countdown.small
      · rw [pending, pendings]
        exact countdown.counter
      · have counted : (batch.phases.set index (.finished outcome)).countP Phase.isPending = 0 :=
          pendings.trans done
        rw [pending, if_pos counted, List.length_append, List.length_singleton]
        simp only
        omega
      · intro reply member
        rw [none] at member
        exact List.mem_singleton.mp member

/-! ## Every run ends -/

/-- How many events an element still needs. -/
def phaseWeight : Phase → Nat
  | .waiting => 5
  | .requested _ => 4
  | .decided _ => 3
  | .written _ => 2
  | .last _ => 1
  | .finished _ => 0

/-- A bound on the number of events that are left. -/
def weight (batch : Batch) : Nat :=
  (batch.phases.map phaseWeight).sum

theorem sum_set_lt {weights : List Nat} {index old new : Nat} (here : weights[index]? = some old)
    (less : new < old) : (weights.set index new).sum < weights.sum := by
  induction weights generalizing index with
  | nil => simp at here
  | cons first rest ih =>
      cases index with
      | zero =>
          cases here
          simpa using less
      | succ index =>
          simpa using ih here

theorem weight_set_lt {batch after : Batch} {index : Nat} {old new : Phase}
    (here : batch.phases[index]? = some old) (phases : after.phases = batch.phases.set index new)
    (less : phaseWeight new < phaseWeight old) : after.weight < batch.weight := by
  rw [weight, weight, phases, List.map_set]
  apply sum_set_lt _ less
  rw [List.getElem?_map, here]
  rfl

/-- Every event brings the batch closer to its end. -/
theorem Layout.weight_lt {batch after : Batch} (layout : Layout batch) (taken : Moves batch after) :
    after.weight < batch.weight := by
  cases taken with
  | request prepared idle inside =>
      exact weight_set_lt (layout.next_waiting inside) rfl (by simp [phaseWeight])
  | refuse outcome decided idle inside =>
      exact weight_set_lt (layout.next_waiting inside) rfl (by simp [phaseWeight])
  | answer index prepared outcome decided here =>
      exact weight_set_lt here rfl (by simp [phaseWeight])
  | write index outcome here => exact weight_set_lt here rfl (by simp [phaseWeight])
  | count index outcome here more => exact weight_set_lt here rfl (by simp [phaseWeight])
  | countLast index outcome here zero => exact weight_set_lt here rfl (by simp [phaseWeight])
  | reply index outcome here => exact weight_set_lt here rfl (by simp [phaseWeight])

/-! ## Outcomes -/

/-- The outcome of the element at an index, once it is decided. -/
def outcomeAt (batch : Batch) (index : Nat) : Option Json :=
  (batch.phases[index]?).bind Phase.outcome

theorem outcomeAt_set {batch after : Batch} {index : Nat} {old new : Phase}
    (here : batch.phases[index]? = some old) (phases : after.phases = batch.phases.set index new)
    (kept : ∀ outcome, old.outcome = some outcome → new.outcome = some outcome) {other : Nat}
    {outcome : Json} (decided : batch.outcomeAt other = some outcome) :
    after.outcomeAt other = some outcome := by
  rw [outcomeAt, phases]
  by_cases same : other = index
  · subst same
    rw [outcomeAt, here] at decided
    rw [phase_set_self here]
    exact kept outcome decided
  · rw [List.getElem?_set_ne (Ne.symm same)]
    exact decided

/-- No element is decided twice. -/
theorem Layout.outcomeAt_kept {batch after : Batch} (layout : Layout batch)
    (taken : Moves batch after) {index : Nat} {outcome : Json}
    (decided : batch.outcomeAt index = some outcome) : after.outcomeAt index = some outcome := by
  cases taken with
  | request prepared idle inside =>
      exact outcomeAt_set (layout.next_waiting inside) rfl (fun _ none => nomatch none) decided
  | refuse _ _ idle inside =>
      exact outcomeAt_set (layout.next_waiting inside) rfl (fun _ none => nomatch none) decided
  | answer _ prepared _ _ here => exact outcomeAt_set here rfl (fun _ none => nomatch none) decided
  | write _ _ here =>
      refine outcomeAt_set here rfl ?_ decided
      exact fun _ same => same
  | count _ _ here more =>
      refine outcomeAt_set here rfl ?_ decided
      exact fun _ same => same
  | countLast _ _ here zero =>
      refine outcomeAt_set here rfl ?_ decided
      exact fun _ same => same
  | reply _ _ here =>
      refine outcomeAt_set here rfl ?_ decided
      exact fun _ same => same

/-- No event is possible any more. -/
def Finished (env : Env) (subscribe : Bool) (batch : Batch) : Prop :=
  ∀ event, batch.step env subscribe event = none

/-- Every element of a batch that cannot go on is finished. -/
theorem Layout.finished {env : Env} {subscribe : Bool} {batch : Batch} (layout : Layout batch)
    (stuck : Finished env subscribe batch) {phase : Phase} (member : phase ∈ batch.phases) :
    ∃ outcome, phase = .finished outcome := by
  have settled : ∀ {index : Nat} {phase : Phase}, batch.phases[index]? = some phase →
      phase.isSetting = true → False := by
    intro index phase found setting
    have none : batch.advance index = none := stuck (.advance index)
    rw [advance, found] at none
    cases phase with
    | decided outcome => contradiction
    | written outcome =>
        simp only at none
        split_ifs at none
    | last outcome => contradiction
    | waiting => contradiction
    | requested prepared => contradiction
    | finished outcome => contradiction
  obtain ⟨index, found⟩ := List.mem_iff_getElem?.mp member
  cases phase with
  | finished outcome => exact ⟨outcome, rfl⟩
  | decided outcome => exact (settled found rfl).elim
  | written outcome => exact (settled found rfl).elim
  | last outcome => exact (settled found rfl).elim
  | requested prepared =>
      have none := stuck (.answer index true [] (.ok true))
      simp only [Batch.step, found] at none
      contradiction
  | waiting =>
      have below := (layout.waiting found).mp rfl
      have bound := (List.getElem?_eq_some_iff.mp found).1
      have inside : batch.next < batch.elements.length := by
        rw [layout.sized] at bound
        omega
      cases held : batch.busy with
      | some other =>
          obtain ⟨phase, setting, isSetting⟩ := layout.busy held
          exact (settled setting isSetting).elim
      | none =>
          have none := stuck (.dispatch ⟨[], 0⟩ (.ok ()))
          simp only [Batch.step, held, List.getElem?_eq_getElem inside] at none
          split at none <;> contradiction

/-- A batch that cannot go on has been answered. -/
theorem replied_of_finished {env : Env} {subscribe : Bool} {batch : Batch} (layout : Layout batch)
    (countdown : Countdown batch) (stuck : Finished env subscribe batch) :
    batch.replies.length = 1 := by
  have counted : batch.pending = 0 := by
    apply List.countP_eq_zero.mpr
    intro phase member
    obtain ⟨outcome, rfl⟩ := layout.finished stuck member
    exact Bool.false_ne_true
  have noLast : batch.phases.countP Phase.isLast = 0 := by
    apply List.countP_eq_zero.mpr
    intro phase member
    obtain ⟨outcome, rfl⟩ := layout.finished stuck member
    exact Bool.false_ne_true
  have replied := countdown.replied
  rw [if_pos counted, noLast] at replied
  omega

/-- Once a reply is sent every element is decided and stored. -/
theorem decided_of_replied {batch : Batch} (layout : Layout batch) (countdown : Countdown batch)
    (replied : batch.replies ≠ []) :
    batch.phases.map Phase.outcome = batch.response.map some := by
  have counted : batch.pending = 0 := by
    by_contra left
    have none := countdown.replied
    rw [if_neg left] at none
    have length := List.length_pos_of_ne_nil replied
    omega
  have stored : ∀ {index : Nat} {phase : Phase}, batch.phases[index]? = some phase →
      batch.response[index]? = phase.outcome := by
    intro index phase found
    have notPending := List.countP_eq_zero.mp counted phase (List.mem_of_getElem? found)
    apply layout.stored found
    cases phase <;> first | rfl | exact absurd rfl notPending
  apply List.ext_getElem?
  intro index
  rw [List.getElem?_map, List.getElem?_map]
  by_cases inside : index < batch.phases.length
  · have found := List.getElem?_eq_getElem inside
    have outcome := stored found
    have bound : index < batch.response.length := by
      rw [layout.responses, ← layout.sized]
      exact inside
    rw [found, Option.map_some, ← outcome, List.getElem?_eq_getElem bound]
    rfl
  · rw [List.getElem?_eq_none (by omega), List.getElem?_eq_none]
    · rfl
    · rw [layout.responses, ← layout.sized]
      omega

end Batch

/-! ## The handler -/

/-- `parse_sub_unsub`; the error is the reply.  There is no body when the
message has no part. -/
def parseSubUnsub (parse : Bytes → Option Json) (body : Option Bytes) : Except Json Json :=
  match body with
  | none => .error (errorJson SubscribeCode.badInput.toInt "Invalid request: missing request data")
  | some bytes =>
      match parse bytes with
      | none => .error (errorJson SubscribeCode.badInput.toInt "Invalid JSON")
      | some (.array elements) => .ok (.array elements)
      | some (.object fields) => .ok (.object fields)
      | some _ =>
          .error (errorJson SubscribeCode.badInput.toInt
            "Invalid JSON: expected object or array of objects")

/-- `on_sub_unsub_impl` up to its loop: a reply at once, or a batch.  The text
about an empty list is not formatted in the source either. -/
def onSubUnsub (parse : Bytes → Option Json) (body : Option Bytes) : Except Json Batch :=
  match parseSubUnsub parse body with
  | .error reply => .error reply
  | .ok (.array []) =>
      .error (errorJson SubscribeCode.badInput.toInt
        "Invalid request: \x7b\x7d list cannot be empty")
  | .ok (.array elements) => .ok (Batch.start true elements)
  | .ok args => .ok (Batch.start false [args])

/-- A request that is an object or a list that is not empty. -/
inductive Batched : Json → Bool → List Json → Prop
  | object (fields : List (String × Json)) : Batched (.object fields) false [.object fields]
  | array (elements : List Json) (some : elements ≠ []) : Batched (.array elements) true elements

/-- The reply to a batch with these outcomes. -/
def replyOf (multi : Bool) (outcomes : List Json) : Json :=
  if multi then .array outcomes else outcomes.headD .null

/-- What a batch looks like in every state: at most one reply, which has the
outcomes of all elements in their places. -/
structure Replies (multi : Bool) (elements : List Json) (batch : Batch) : Prop where
  once : batch.replies.length ≤ 1
  complete : ∀ reply ∈ batch.replies, ∃ outcomes : List Json,
    outcomes.length = elements.length ∧ batch.phases.map Phase.outcome = outcomes.map some ∧
      (∀ outcome ∈ outcomes, Decided outcome) ∧ reply = replyOf multi outcomes

/-- A list has no more elements than its text has bytes. -/
def ElementsTakeSpace (parse : Bytes → Option Json) : Prop :=
  ∀ body elements, parse body = some (.array elements) → elements.length ≤ body.length

namespace Batch

/-- The shape of the batch never changes. -/
theorem shape_of_moves {batch after : Batch} (taken : Moves batch after) :
    after.multi = batch.multi ∧ after.elements = batch.elements := by
  cases taken <;> exact ⟨rfl, rfl⟩

/-- The invariant of a batch from its start. -/
structure Inv (multi : Bool) (elements : List Json) (batch : Batch) : Prop where
  multi : batch.multi = multi
  elements : batch.elements = elements
  layout : Layout batch
  countdown : Countdown batch

theorem Inv.step {multi : Bool} {elements : List Json} {batch after : Batch}
    (inv : Inv multi elements batch) (taken : Moves batch after) : Inv multi elements after := by
  obtain ⟨sameMulti, sameElements⟩ := shape_of_moves taken
  exact ⟨sameMulti.trans inv.multi, sameElements.trans inv.elements, inv.layout.step taken,
    inv.countdown.step inv.layout taken⟩

theorem Inv.replies {multi : Bool} {elements : List Json} {batch : Batch}
    (inv : Inv multi elements batch) : Replies multi elements batch where
  once := by
    have replied := inv.countdown.replied
    split_ifs at replied <;> omega
  complete := by
    intro reply member
    have outcomes := decided_of_replied inv.layout inv.countdown (List.ne_nil_of_mem member)
    refine ⟨batch.response, ?_, outcomes, ?_, ?_⟩
    · rw [inv.layout.responses, inv.elements]
    · intro outcome stored
      have found : some outcome ∈ batch.phases.map Phase.outcome := by
        rw [outcomes]
        exact List.mem_map_of_mem stored
      obtain ⟨phase, phaseMem, equal⟩ := List.mem_map.mp found
      obtain ⟨index, here⟩ := List.mem_iff_getElem?.mp phaseMem
      exact inv.layout.decided here equal
    · rw [inv.countdown.content reply member, payload, inv.multi, replyOf]

end Batch

theorem Batched.ne_nil {args : Json} {multi : Bool} {elements : List Json}
    (batched : Batched args multi elements) : elements ≠ [] := by
  cases batched with
  | object fields => exact List.cons_ne_nil _ _
  | array elements some => exact some

theorem Batched.starts {args : Json} {multi : Bool} {elements : List Json}
    (batched : Batched args multi elements) {parse : Bytes → Option Json} {body : Bytes}
    (parsed : parse body = some args) :
    onSubUnsub parse (some body) = .ok (Batch.start multi elements) := by
  cases batched with
  | object fields => simp [onSubUnsub, parseSubUnsub, parsed]
  | array elements some =>
      cases elements with
      | nil => contradiction
      | cons first rest => simp [onSubUnsub, parseSubUnsub, parsed]

theorem Batched.length_lt {args : Json} {multi : Bool} {elements : List Json}
    (batched : Batched args multi elements) {parse : Bytes → Option Json}
    (space : ElementsTakeSpace parse) {body : Bytes} (parsed : parse body = some args)
    (short : body.length < 2 ^ 31) : elements.length < 2 ^ 31 := by
  cases batched with
  | object fields => exact Nat.one_lt_two_pow (by decide)
  | array elements some => exact (space body elements parsed).trans_lt short

/-- A request that is an object or a list starts a batch.  Whatever its
elements are and however the loop and the handlers interleave: no outcome
changes once it is decided, at most one reply is ever sent, and only with the
outcomes of all elements in their places, each with exactly one of success and
error; no run goes on forever, and when nothing can go on the reply has been
sent. -/
theorem one_reply_for_each_batch (env : Env) (subscribe : Bool) (parse : Bytes → Option Json)
    (space : ElementsTakeSpace parse) (body : Bytes) (short : body.length < 2 ^ 31)
    (args : Json) (parsed : parse body = some args) (multi : Bool) (elements : List Json)
    (batched : Batched args multi elements) :
    onSubUnsub parse (some body) = .ok (Batch.start multi elements) ∧
      (∀ events, Run.EveryStep (Batch.step env subscribe) (fun before _ after =>
        ∀ index outcome, before.outcomeAt index = some outcome →
          after.outcomeAt index = some outcome) (Batch.start multi elements) events) ∧
      (∀ batch, Run.Reachable (Batch.step env subscribe) (Batch.start multi elements) batch →
        Replies multi elements batch ∧
          (Batch.Finished env subscribe batch → batch.replies.length = 1)) ∧
      ∃ bound, ∀ events batch,
        Run.exec (Batch.step env subscribe) (Batch.start multi elements) events = some batch →
          events.length ≤ bound := by
  have initial : Batch.Inv multi elements (Batch.start multi elements) :=
    ⟨rfl, rfl, Batch.layout_start multi elements,
      Batch.countdown_start batched.ne_nil (batched.length_lt space parsed short)⟩
  refine ⟨batched.starts parsed, ?_, ?_, ?_⟩
  · intro events
    apply Run.EveryStep.of_guard (Batch.Inv multi elements) (fun _ _ _ => True) initial
    · intro before event after inv taken _
      have moves := Batch.moves_of_step taken
      exact ⟨inv.step moves, fun _ _ decided => inv.layout.outcomeAt_kept moves decided⟩
    · exact Run.everyStep_of_forall (fun _ _ _ _ => trivial) _
  · intro batch reachable
    have inv : Batch.Inv multi elements batch :=
      reachable.invariant initial fun _ _ _ inv taken => inv.step (Batch.moves_of_step taken)
    exact ⟨inv.replies, Batch.replied_of_finished inv.layout inv.countdown⟩
  · refine ⟨(Batch.start multi elements).weight, ?_⟩
    intro events batch run
    have used := Run.length_add_weight_le Batch.Layout Batch.weight initial.layout
      (fun _ _ _ layout taken => layout.step (Batch.moves_of_step taken))
      (fun _ _ _ layout taken => layout.weight_lt (Batch.moves_of_step taken)) run
    omega

/-- A parser for the one text `[1,2]`. -/
def parseOneTwo (body : Bytes) : Option Json :=
  if body = [91, 49, 44, 50, 93] then some (.array [.integer 1, .integer 2]) else none

/-- Both elements are refused; the second one sends the reply. -/
def refusingRun : List BatchEvent :=
  [.dispatch ⟨[], 0⟩ (.ok ()), .advance 0, .advance 0, .dispatch ⟨[], 0⟩ (.ok ()), .advance 1,
    .advance 1, .advance 1]

theorem refusingRun_replies_once :
    ∃ batch, Run.exec (Batch.step Sample.env true) (Batch.start true [.integer 1, .integer 2])
        refusingRun = some batch ∧ batch.replies.length = 1 ∧
      Replies true [.integer 1, .integer 2] batch := by
  have space : ElementsTakeSpace parseOneTwo := by
    intro body elements parsed
    unfold parseOneTwo at parsed
    split_ifs at parsed with text
    cases parsed
    rw [text]
    decide
  have replied : (Run.exec (Batch.step Sample.env true) (Batch.start true [.integer 1, .integer 2])
      refusingRun).map (fun batch => batch.replies.length) = some 1 := rfl
  obtain ⟨batch, run, once⟩ := Option.map_eq_some_iff.mp replied
  obtain ⟨-, -, reached, -⟩ := one_reply_for_each_batch Sample.env true parseOneTwo space
    [91, 49, 44, 50, 93] (by decide) (.array [.integer 1, .integer 2]) rfl true
    [.integer 1, .integer 2] (.array _ (List.cons_ne_nil _ _))
  exact ⟨batch, run, once, (reached batch ⟨refusingRun, run⟩).1⟩

end Spns.Requests
