import Mathlib.Algebra.BigOperators.Fin
import Spns.Notify.Receive

/-!
# How the threads come to rest

The processing thread waits for the loop thread while that processes a batch,
and the loop thread waits for room in its socket while it passes messages on.
When nothing arrives any more, the threads either process all that was sent or
come to wait for each other, and then they do so for ever.  The second does not
happen as long as the callbacks find room for all of their messages.
-/

namespace Spns.Notify

open Spns
open Spns.Lib

variable {π κ : Type}

/-- What the threads do when nothing comes from outside. -/
def ReceiverEvent.Internal : ReceiverEvent → Prop
  | .passOn _ | .returned | .receive _ | .nothingWaiting | .processBatch _ _ => True
  | .arrive _ | .notification _ _ _ | .quit _ | .regService _ _ => False

/-- There are as many addresses as 64-bit numbers. -/
def ptrAt (index : Fin (256 ^ 8)) : Ptr :=
  ⟨List.ofFn fun place => UInt8.ofFin (finFunctionFinEquiv.symm index place), List.length_ofFn⟩

theorem ptrAt_injective : Function.Injective ptrAt := by
  intro first second same
  have places := List.ofFn_injective (Subtype.mk.inj same)
  apply finFunctionFinEquiv.symm.injective
  funext place
  exact congrArg UInt8.toFin (congrFun places place)

theorem exists_ptrs {count : Nat} (addressable : count ≤ 256 ^ 8) :
    ∃ ptrs : List Ptr, ptrs.length = count ∧ ptrs.Nodup :=
  ⟨List.ofFn fun index : Fin count => ptrAt (index.castLE addressable), List.length_ofFn,
    List.nodup_ofFn.mpr (ptrAt_injective.comp (Fin.castLE_injective addressable))⟩

namespace Receiver

/-! ## At rest -/

/-- Nothing is left to do. -/
structure Idle (state : Receiver κ) : Prop where
  receiving : state.phase = .receiving true
  channel : state.channel = []
  callback : state.callback = none

/-- The loop thread waits for room in its socket, and the processing thread for
the loop thread. -/
structure Blocked (pipe : Pipe) (loop : Thread) (state : Receiver κ) : Prop where
  submitted : ∃ wait, state.phase = .submitted wait
  callback : ∃ body rest, state.callback = some (body :: rest)
  full : ¬state.HasRoom pipe loop

/-- The messages that the open callback has still to pass on. -/
def pending (state : Receiver κ) : List Bytes :=
  state.callback.getD []

/-- The steps that the messages, the open callback and an empty `recv` can
still take. -/
def work (state : Receiver κ) : Nat :=
  5 * state.pending.length + (if state.callback.isSome then 1 else 0) +
    4 * state.channel.length + 2 * state.process.length +
    (if state.phase = .receiving false then 1 else 0)

/-- The socket of the loop thread takes so many more commands even if none are
taken out of it meanwhile. -/
def Takes (pipe : Pipe) (loop : Thread) (more : Nat) (state : Receiver κ) : Prop :=
  ∀ index < more, pipe.accepts (state.written loop + index) (state.taken loop) = true

/-- The open callback finds room for what it has still to pass on. -/
def Roomy (pipe : Pipe) (loop : Thread) (state : Receiver κ) : Prop :=
  ∀ rest, state.callback = some rest → state.Takes pipe loop rest.length

/-- The callbacks that begin find room for their messages. -/
def Fits (pipe : Pipe) (loop : Thread) (state : Receiver κ) : ReceiverEvent → Prop
  | .arrive bodies => state.Takes pipe loop bodies.length
  | .quit thread => thread ≠ loop
  | _ => True

/-! ## Steps -/

theorem channel_of_onMessageNotification {state next : Receiver κ} {pipe : Pipe}
    {thread : Thread} {ptr : Ptr} {body : Bytes}
    (sent : state.onMessageNotification pipe thread ptr body = some next) :
    state.HasRoom pipe thread ∧ next.callback = state.callback ∧
      next.channel = state.channel ++ [(thread, pushCommand ptr)] ∧ next.taken = state.taken := by
  rw [onMessageNotification] at sent
  split_ifs at sent with may
  cases sent
  exact ⟨may.2.1, rfl, rfl, rfl⟩

theorem written_of_append {state next : Receiver κ} {thread : Thread} {cmd : Bytes}
    (channel : next.channel = state.channel ++ [(thread, cmd)]) (taken : next.taken = state.taken)
    (other : Thread) :
    next.written other = state.written other + if thread = other then 1 else 0 := by
  rw [written, written, queued, queued, channel, taken, List.filter_append, List.length_append]
  split_ifs with own <;> simp [own, Nat.add_assoc]

theorem written_quit (state : Receiver κ) {thread other : Thread} (apart : thread ≠ other) :
    written other { state with channel := state.channel ++ [(thread, quitCommand)] } =
      state.written other := by
  have writes : written other { state with channel := state.channel ++ [(thread, quitCommand)] } =
      state.written other + if thread = other then 1 else 0 :=
    written_of_append (by rfl) (by rfl) other
  rwa [if_neg apart, Nat.add_zero] at writes

theorem takeFirst_length {thread : Thread} {channel rest : List (Thread × Bytes)} {cmd : Bytes}
    (found : takeFirst thread channel = some (cmd, rest)) : channel.length = rest.length + 1 := by
  obtain ⟨before, after, rfl, rfl, -⟩ := takeFirst_eq_some found
  simp
  omega

theorem taken_le_take (state : Receiver κ) (thread : Thread) (rest : List (Thread × Bytes))
    (other : Thread) : state.taken other ≤ (state.take thread rest).taken other := by
  change state.taken other ≤ Function.update state.taken thread (state.taken thread + 1) other
  rw [Function.update_apply]
  split_ifs with own
  · rw [own]
    exact Nat.le_succ _
  · exact Nat.le_refl _

theorem proceed_eq (wait : Bool) (state : Receiver κ) :
    ∃ phase, state.proceed wait = { state with phase := phase } ∧
      (phase = .receiving wait ∨ phase = .submitted wait) := by
  rw [proceed]
  split_ifs
  · exact ⟨.receiving wait, rfl, Or.inl rfl⟩
  · exact ⟨.submitted wait, rfl, Or.inr rfl⟩

/-- A command adds at most one message to those in hand. -/
theorem onCommand_process (cmd : Bytes) (state : Receiver κ) :
    (state.onCommand cmd).callback = state.callback ∧
      (state.onCommand cmd).channel = state.channel ∧ (state.onCommand cmd).taken = state.taken ∧
      (state.onCommand cmd).process.length ≤ state.process.length + 1 := by
  rw [onCommand]
  split
  · exact ⟨rfl, rfl, rfl, Nat.zero_le _⟩
  · obtain ⟨phase, same, -⟩ :=
      proceed_eq false { state with process := state.process ++ [_] }
    rw [same]
    exact ⟨rfl, rfl, rfl, Nat.le_of_eq List.length_append⟩
  · obtain ⟨phase, same, -⟩ := proceed_eq false state
    rw [same]
    exact ⟨rfl, rfl, rfl, Nat.le_succ _⟩

/-- Deliveries of the messages in hand, whatever the tables are. -/
theorem exists_deliveries (state : Receiver κ) :
    ∃ deliveries : List Delivery, deliveries.map Delivery.body = state.held.map Notice.body := by
  refine ⟨state.held.map fun notice => ⟨notice.body, ⟨[], []⟩, fun _ member => ?_⟩, ?_⟩
  · exact absurd member List.not_mem_nil
  · rw [List.map_map]
    rfl

/-- An idle server has no objects. -/
theorem Sound.of_idle {state : Receiver κ} (sound : Sound state) (idle : state.Idle) :
    state.process = [] ∧ ∀ ptr, state.heap ptr = none := by
  have staged := sound.staged
  rw [Staged, idle.receiving] at staged
  have empty : state.process = [] := staged.2.1 rfl
  refine ⟨empty, fun ptr => ?_⟩
  have alive := sound.kept.alive ptr
  rw [empty, idle.channel] at alive
  simpa [posted] using alive

/-- A command that is taken still counts as written. -/
theorem written_of_takeFirst {thread : Thread} {state : Receiver κ} {rest : List (Thread × Bytes)}
    {cmd : Bytes} (found : takeFirst thread state.channel = some (cmd, rest)) (other : Thread) :
    ((state.take thread rest).onCommand cmd).written other = state.written other := by
  obtain ⟨-, channel, counts, -⟩ := onCommand_process cmd (state.take thread rest)
  obtain ⟨before, after, split, rfl, -⟩ := takeFirst_eq_some found
  rw [written, written, queued, queued, channel, counts, split]
  simp only [take, List.filter_append, List.filter_cons, List.length_append]
  by_cases own : thread = other
  · subst own
    simp
    omega
  · simp [own, Function.update_of_ne (Ne.symm own)]

section Steps

variable [DecidableEq κ] {env : Env π κ} {pipe : Pipe} {loop : Thread} {state next : Receiver κ}
  {event : ReceiverEvent}

/-- The threads do not make work for themselves. -/
theorem Sound.work_lt (sound : Sound state) (internal : event.Internal)
    (taken : state.step env pipe loop event = some next) : next.work < state.work := by
  cases step_cases taken with
  | arrive => exact internal.elim
  | passOn callback sent =>
      obtain ⟨phase, process, -⟩ := onMessageNotification_eq_some sent
      obtain ⟨-, open', channel, -⟩ := channel_of_onMessageNotification sent
      simp only [work, pending, open', channel, phase, process, callback, Option.getD_some,
        Option.isSome_some, List.length_append, List.length_cons, List.length_nil]
      omega
  | returned done =>
      simp [work, pending, done]
  | notification => exact internal.elim
  | quit => exact internal.elim
  | @receive thread wait cmd rest receiving found =>
      obtain ⟨callback, channel, -, process⟩ := onCommand_process cmd (state.take thread rest)
      have fewer := takeFirst_length found
      simp only [work, pending, callback, channel, take_callback, take_channel, take_process]
        at process ⊢
      split_ifs <;> omega
  | nothingWaiting receiving =>
      obtain ⟨phase, same, cases⟩ := proceed_eq true state
      have other : phase ≠ .receiving false := by
        rcases cases with rfl | rfl <;> decide
      simp [work, pending, same, receiving, other]
  | processBatch submitted =>
      have some := sound.staged
      rw [Staged, submitted] at some
      have many := List.length_pos_iff.mpr some.1
      simp only [work, pending, deleteProcess, submitted, List.length_nil]
      split_ifs <;> omega
  | regService => exact internal.elim

theorem Roomy.step (roomy : Roomy pipe loop state) (fair : pipe.Fair)
    (fits : Fits pipe loop state event) (taken : state.step env pipe loop event = some next) :
    Roomy pipe loop next := by
  intro rest open' index less
  cases step_cases taken with
  | arrive =>
      cases open'
      exact fits index less
  | @passOn ptr body others next callback sent =>
      obtain ⟨-, same, channel, counts⟩ := channel_of_onMessageNotification sent
      obtain rfl : others = rest := Option.some.inj (same.symm.trans open')
      have room := roomy _ callback (1 + index) (by rw [List.length_cons]; omega)
      rw [written_of_append channel counts, if_pos rfl, counts, Nat.add_assoc]
      exact room
  | returned => contradiction
  | notification other sent =>
      obtain ⟨-, same, channel, counts⟩ := channel_of_onMessageNotification sent
      rw [written_of_append channel counts, if_neg other, counts]
      exact roomy rest (same ▸ open') index less
  | quit =>
      rw [written_quit state fits]
      exact roomy rest open' index less
  | @receive thread wait cmd left receiving found =>
      obtain ⟨same, -, counts, -⟩ := onCommand_process cmd (state.take thread left)
      have room := roomy rest (same ▸ open') index less
      rw [written_of_takeFirst found, counts]
      exact fair.mono (taken_le_take state thread left loop) room
  | nothingWaiting =>
      obtain ⟨phase, same, -⟩ := proceed_eq true state
      rw [same] at open' ⊢
      exact roomy rest open' index less
  | processBatch => exact roomy rest open' index less
  | regService => exact roomy rest open' index less

/-- Threads that wait for each other wait for ever. -/
theorem Blocked.step (blocked : Blocked pipe loop state)
    (taken : state.step env pipe loop event = some next) :
    Blocked pipe loop next ∧ next.handled = state.handled := by
  obtain ⟨⟨wait, submitted⟩, ⟨body, rest, callback⟩, full⟩ := blocked
  cases step_cases taken with
  | arrive free => simp [callback] at free
  | passOn _ sent =>
      exact absurd (channel_of_onMessageNotification sent).1 full
  | returned done => simp [callback] at done
  | notification other sent =>
      obtain ⟨phase, -, -, handled, -⟩ := onMessageNotification_eq_some sent
      obtain ⟨-, same, channel, counts⟩ := channel_of_onMessageNotification sent
      refine ⟨⟨⟨wait, phase.trans submitted⟩, ⟨body, rest, same.trans callback⟩, ?_⟩, handled⟩
      rw [HasRoom, written_of_append channel counts, if_neg other, counts]
      exact full
  | @quit thread _ room =>
      have other : thread ≠ loop := fun own => full (own ▸ room)
      refine ⟨⟨⟨wait, submitted⟩, ⟨body, rest, callback⟩, ?_⟩, rfl⟩
      rw [HasRoom, written_quit state other]
      exact full
  | receive receiving => simp [submitted] at receiving
  | nothingWaiting receiving => simp [submitted] at receiving
  | processBatch _ free => simp [callback] at free
  | regService free => simp [callback] at free

/-! ## Threads that have stopped -/

/-- The next message is passed on. -/
theorem step_passOn (env : Env π κ) {body : Bytes} {rest : List Bytes} {ptr : Ptr}
    (running : state.phase ≠ .closed) (callback : state.callback = some (body :: rest))
    (room : state.HasRoom pipe loop) (free : state.heap ptr = none) :
    state.step env pipe loop (.passOn ptr) = some { state with
      callback := some rest
      heap := Function.update state.heap ptr (some ⟨loop, body⟩)
      channel := state.channel ++ [(loop, pushCommand ptr)]
      sent := state.sent ++ [⟨loop, body⟩] } := by
  simp only [Receiver.step, callback]
  exact if_pos ⟨running, room, free⟩

/-- A callback that does not wait for room goes on. -/
theorem exists_internal_of_callback (env : Env π κ) {bodies : List Bytes}
    (running : state.phase ≠ .closed) (memory : ∃ ptr, state.heap ptr = none)
    (callback : state.callback = some bodies)
    (room : bodies ≠ [] → state.HasRoom pipe loop) :
    ∃ event : ReceiverEvent, event.Internal ∧
      ∃ next, state.step env pipe loop event = some next := by
  cases bodies with
  | nil => exact ⟨.returned, trivial, _, if_pos callback⟩
  | cons body rest =>
      obtain ⟨ptr, free⟩ := memory
      have available := room (List.cons_ne_nil body rest)
      exact ⟨.passOn ptr, trivial, _, step_passOn env running callback available free⟩

/-- A server that runs has a step to take unless it is idle or blocked. -/
theorem exists_internal (env : Env π κ) (fair : pipe.Fair)
    (running : state.phase ≠ .closed) (memory : ∃ ptr, state.heap ptr = none)
    (busy : ¬state.Idle) (unblocked : ¬state.Blocked pipe loop) :
    ∃ event : ReceiverEvent, event.Internal ∧
      ∃ next, state.step env pipe loop event = some next := by
  cases phase : state.phase with
  | closed => exact absurd phase running
  | receiving wait =>
      cases channel : state.channel with
      | cons entry rest =>
          refine ⟨.receive entry.1, trivial, (state.take entry.1 rest).onCommand entry.2, ?_⟩
          simp [Receiver.step, phase, channel, takeFirst]
      | nil =>
          cases wait with
          | false => exact ⟨.nothingWaiting, trivial, _, if_pos ⟨phase, channel⟩⟩
          | true =>
              have some : state.callback ≠ none := fun none => busy ⟨phase, channel, none⟩
              obtain ⟨bodies, callback⟩ := Option.ne_none_iff_exists'.mp some
              refine exists_internal_of_callback env running memory callback fun _ => ?_
              rw [HasRoom, written, queued, channel]
              exact fair.empty (state.taken loop)
  | submitted wait =>
      cases callback : state.callback with
      | none =>
          obtain ⟨deliveries, same⟩ := exists_deliveries state
          refine ⟨.processBatch state.notify.clock deliveries, trivial, ?_⟩
          simp only [Receiver.step, phase]
          exact ⟨_, if_pos ⟨callback, le_refl _, same⟩⟩
      | some bodies =>
          refine exists_internal_of_callback env running memory callback fun more => ?_
          obtain ⟨body, rest, rfl⟩ := List.exists_cons_of_ne_nil more
          by_contra full
          exact unblocked ⟨⟨wait, phase⟩, ⟨body, rest, callback⟩, full⟩

theorem Idle.step_eq_none (idle : Idle state) (internal : event.Internal) :
    state.step env pipe loop event = none := by
  obtain ⟨receiving, empty, closed⟩ := idle
  by_contra enabled
  obtain ⟨next, taken⟩ := Option.ne_none_iff_exists'.mp enabled
  cases step_cases taken with
  | arrive => exact internal
  | passOn callback => simp [closed] at callback
  | returned done => simp [closed] at done
  | notification => exact internal
  | quit => exact internal
  | receive _ found =>
      rw [empty] at found
      contradiction
  | nothingWaiting other => simp [receiving] at other
  | processBatch submitted => simp [receiving] at submitted
  | regService => exact internal

theorem Blocked.step_eq_none (blocked : Blocked pipe loop state) (internal : event.Internal) :
    state.step env pipe loop event = none := by
  obtain ⟨⟨wait, submitted⟩, ⟨body, rest, callback⟩, full⟩ := blocked
  by_contra enabled
  obtain ⟨next, taken⟩ := Option.ne_none_iff_exists'.mp enabled
  cases step_cases taken with
  | arrive => exact internal
  | passOn _ sent =>
      exact absurd (channel_of_onMessageNotification sent).1 full
  | returned done => simp [callback] at done
  | notification => exact internal
  | quit => exact internal
  | receive receiving => simp [submitted] at receiving
  | nothingWaiting receiving => simp [submitted] at receiving
  | processBatch _ free => simp [callback] at free
  | regService => exact internal

end Steps

/-! ## Runs -/

variable [DecidableEq κ]

/-- What the threads have come to after these events, and what they can still
come to. -/
structure Settles (env : Env π κ) (pipe : Pipe) (loop : Thread) (started : Int)
    (events : List ReceiverEvent) (state : Receiver κ) : Prop where
  /-- When nothing comes from outside, they take no more than so many steps. -/
  bounded : ∀ {steps final}, (∀ event ∈ steps, event.Internal) →
    Run.exec (step env pipe loop) state steps = some final → steps.length ≤ state.work
  /-- They stop when there is nothing to do, or when they wait for each other. -/
  stops : state.phase ≠ .closed → (∃ ptr, state.heap ptr = none) →
    ((∀ event : ReceiverEvent, event.Internal → state.step env pipe loop event = none) ↔
      state.Idle ∨ state.Blocked pipe loop)
  /-- Then all that was sent has been processed, in the order of its sender. -/
  done : state.Idle → ∀ thread,
    ofThread thread state.handled.flatten = ofThread thread state.sent
  /-- Or nothing will be processed any more, whatever comes from outside. -/
  stuck : state.Blocked pipe loop → ∀ {later final},
    Run.exec (step env pipe loop) state later = some final →
      final.Blocked pipe loop ∧ final.handled = state.handled
  /-- That never happens if the callbacks find room for their messages. -/
  free : Run.EveryStep (step env pipe loop) (fun state event _ => Fits pipe loop state event)
      (initial env started) events → ¬state.Blocked pipe loop

/-- From every state that a server reaches, the threads come to rest, and this
is how. -/
theorem settles_of_exec {env : Env π κ} {pipe : Pipe} {loop : Thread} {started : Int}
    {events : List ReceiverEvent} {state : Receiver κ} (fair : pipe.Fair)
    (run : Run.exec (step env pipe loop) (initial env started) events = some state) :
    Settles env pipe loop started events state := by
  have sound : Sound state := Run.Reachable.invariant ⟨events, run⟩ (sound_initial env started)
    fun _ _ _ sound taken => sound.step taken
  refine ⟨?_, ?_, ?_, ?_, ?_⟩
  · intro steps final internal rest
    have used := Run.length_add_weight_le_of_guard Sound (fun _ event _ => event.Internal) work
      sound (fun _ _ _ kept taken _ => kept.step taken)
      (fun _ _ _ kept taken met => kept.work_lt met taken)
      (Run.everyStep_of_forall (fun event member _ _ => internal event member) state) rest
    omega
  · intro running memory
    constructor
    · intro stopped
      by_contra other
      rw [not_or] at other
      obtain ⟨event, internal, next, taken⟩ :=
        exists_internal env fair running memory other.1 other.2
      rw [stopped event internal] at taken
      contradiction
    · rintro (idle | blocked) event internal
      · exact idle.step_eq_none internal
      · exact blocked.step_eq_none internal
  · intro idle thread
    have staged := sound.staged
    rw [Staged, idle.receiving] at staged
    rw [← sound.kept.order thread, staged.2.2, held, staged.2.1 rfl, underway, idle.channel]
    simp [posted]
  · intro blocked later final rest
    have reached : Run.Reachable (step env pipe loop) state final := ⟨later, rest⟩
    apply reached.invariant
    · exact ⟨blocked, rfl⟩
    · rintro current event next ⟨still, same⟩ taken
      obtain ⟨after, kept⟩ := still.step taken
      exact ⟨after, kept.trans same⟩
  · intro fits blocked
    have empty : Roomy pipe loop (initial env started) := by
      intro rest open'
      contradiction
    have roomy : Roomy pipe loop state := Run.invariant_of_guard (Roomy pipe loop)
      (fun state event _ => Fits pipe loop state event) empty
      (fun _ _ _ kept taken met => kept.step fair met taken) fits run
    obtain ⟨-, ⟨body, rest, callback⟩, full⟩ := blocked
    exact full (roomy _ callback 0 (Nat.succ_pos _))

/-- One message is being processed, one fills the socket, and one finds no room. -/
def blockedEvents : List ReceiverEvent :=
  [.arrive [Sample.body, Sample.body, Sample.body],
    .passOn (samplePtr 1),
    .receive 0,
    .nothingWaiting,
    .passOn (samplePtr 2)]

theorem settles_of_exec_blockedEvents :
    ∃ state, Run.exec (step Sample.env (.highWaterMark 1) 0) (initial Sample.env 0) blockedEvents = some state ∧
      state.phase = .submitted true ∧ state.callback = some [Sample.body] ∧
      state.channel.length = 1 ∧ Settles Sample.env (.highWaterMark 1) 0 0 blockedEvents state := by
  have outcome : (Run.exec (step Sample.env (.highWaterMark 1) 0) (initial Sample.env 0) blockedEvents).map
      (fun state => (state.phase, state.callback, state.channel.length)) =
        some (.submitted true, some [Sample.body], 1) := by
    decide +kernel
  obtain ⟨state, run, found⟩ := Option.map_eq_some_iff.mp outcome
  obtain ⟨phase, rest⟩ := Prod.mk.inj found
  obtain ⟨callback, channel⟩ := Prod.mk.inj rest
  exact ⟨state, run, phase, callback, channel, settles_of_exec (Pipe.fair_highWaterMark 1) run⟩

/-! ## Bursts -/

/-- Messages are passed on as long as there is room. -/
theorem exists_filling (env : Env π κ) {pipe : Pipe} {loop : Thread} {ptrs : List Ptr}
    {bodies : List Bytes} {state : Receiver κ} (running : state.phase ≠ .closed)
    (callback : state.callback = some bodies) (more : ptrs.length ≤ bodies.length)
    (room : state.Takes pipe loop ptrs.length) (once : ptrs.Nodup)
    (free : ∀ ptr ∈ ptrs, state.heap ptr = none) :
    ∃ final, Run.exec (step env pipe loop) state (ptrs.map .passOn) = some final ∧
      final.phase = state.phase ∧ final.callback = some (bodies.drop ptrs.length) ∧
      final.written loop = state.written loop + ptrs.length ∧ final.taken = state.taken := by
  induction ptrs generalizing state bodies with
  | nil => exact ⟨state, rfl, rfl, callback, rfl, rfl⟩
  | cons ptr ptrs ih =>
      cases bodies with
      | nil => simp at more
      | cons body bodies =>
          rw [List.nodup_cons] at once
          rw [List.forall_mem_cons] at free
          have available : state.HasRoom pipe loop := room 0 (Nat.succ_pos _)
          have taken := step_passOn env running callback available free.1
          generalize same : ({ state with
            callback := some bodies
            heap := Function.update state.heap ptr (some ⟨loop, body⟩)
            channel := state.channel ++ [(loop, pushCommand ptr)]
            sent := state.sent ++ [⟨loop, body⟩] } : Receiver κ) = next at taken
          have phase : next.phase = state.phase := by rw [← same]
          have counts : next.taken = state.taken := by rw [← same]
          have writes : next.written loop = state.written loop + 1 := by
            rw [written_of_append (by rw [← same]) counts, if_pos rfl]
          have left : next.Takes pipe loop ptrs.length := by
            intro index less
            rw [writes, counts, Nat.add_right_comm]
            exact room (index + 1) (Nat.succ_lt_succ less)
          have others : ∀ other ∈ ptrs, next.heap other = none := by
            intro other member
            have different : other ≠ ptr := fun equal => once.1 (equal ▸ member)
            rw [← same]
            exact (Function.update_of_ne different _ _).trans (free.2 other member)
          obtain ⟨final, run, following, remaining, full, kept⟩ := ih (phase ▸ running)
            (by rw [← same]) (Nat.le_of_succ_le_succ more) left once.2 others
          refine ⟨final, ?_, following.trans phase, remaining, ?_, kept.trans counts⟩
          · rw [List.map_cons, Run.exec, taken]
            exact run
          · rw [full, writes, List.length_cons]
            omega

/-- The first message of a burst keeps the processing thread busy. -/
theorem exists_submitted (env : Env π κ) {pipe : Pipe} (loop : Thread) {state : Receiver κ}
    (fair : pipe.Fair) (sound : Sound state) (idle : state.Idle) (ptr : Ptr) (body : Bytes)
    (rest : List Bytes) :
    ∃ next, Run.exec (step env pipe loop) state
        [.arrive (body :: rest), .passOn ptr, .receive loop, .nothingWaiting] = some next ∧
      next.phase = .submitted true ∧ next.callback = some rest ∧
      next.written loop = state.taken loop + 1 ∧ next.taken loop = state.taken loop + 1 ∧
      ∀ other, other ≠ ptr → next.heap other = none := by
  obtain ⟨empty, free⟩ := sound.of_idle idle
  obtain ⟨receiving, channel, closed⟩ := idle
  let opened : Receiver κ := { state with callback := some (body :: rest) }
  let passed : Receiver κ := { state with
    callback := some rest
    heap := Function.update state.heap ptr (some ⟨loop, body⟩)
    channel := [(loop, pushCommand ptr)]
    sent := state.sent ++ [⟨loop, body⟩] }
  have arrived : state.step env pipe loop (.arrive (body :: rest)) = some opened :=
    if_pos closed
  have passing : opened.step env pipe loop (.passOn ptr) = some passed := by
    have room : opened.HasRoom pipe loop := by
      simpa [HasRoom, written, queued, opened, channel] using fair.empty (state.taken loop)
    have running : opened.phase ≠ .closed := by simp [opened, receiving]
    rw [step_passOn env running rfl room (free ptr)]
    simp [opened, passed, channel]
  let handed : Receiver κ := { passed.take loop [] with process := [ptr] }
  have received : passed.step env pipe loop (.receive loop) =
      some { handed with phase := .receiving false } := by
    simp [Receiver.step, passed, handed, receiving, takeFirst, onCommand, empty, proceed, maxBatch,
      take]
  have waiting : Receiver.step env pipe loop { handed with phase := .receiving false }
      .nothingWaiting = some { handed with phase := .submitted true } := by
    simp [Receiver.step, handed, proceed]
  refine ⟨{ handed with phase := .submitted true }, ?_, rfl, rfl, ?_, ?_, ?_⟩
  · simp only [Run.exec, arrived, passing, received, waiting, Option.bind_some]
  · simp [written, queued, handed, take, passed]
  · simp [handed, take, passed]
  · intro other different
    exact (Function.update_of_ne different _ _).trans (free other)

/-- The threads have so much of a burst behind them. -/
structure Bursting (loop : Thread) (before burst : Nat) (state : Receiver κ) : Prop where
  sent : state.written loop + state.pending.length = before + burst
  own : ∀ entry ∈ state.channel, entry.1 = loop
  inHand : before + state.process.length ≤ state.taken loop

theorem Bursting.step {env : Env π κ} {pipe : Pipe} {loop : Thread} {before burst : Nat}
    {state next : Receiver κ} {event : ReceiverEvent} (bursting : Bursting loop before burst state)
    (internal : event.Internal) (taken : state.step env pipe loop event = some next) :
    Bursting loop before burst next := by
  obtain ⟨sent, own, inHand⟩ := bursting
  cases step_cases taken with
  | arrive => exact internal.elim
  | @passOn ptr body rest _ callback passed =>
      obtain ⟨-, process, -⟩ := onMessageNotification_eq_some passed
      obtain ⟨-, open', channel, counts⟩ := channel_of_onMessageNotification passed
      refine ⟨?_, ?_, ?_⟩
      · have writes : next.written loop = state.written loop + 1 := by
          rw [written_of_append channel counts, if_pos rfl]
          rfl
        simp only [pending, callback, Option.getD_some, List.length_cons] at sent
        simp only [pending, open', Option.getD_some, writes]
        omega
      · rw [channel]
        intro entry member
        rcases List.mem_append.mp member with old | new
        · exact own entry old
        · rw [List.mem_singleton.mp new]
      · rw [process, counts]
        exact inHand
  | returned done =>
      refine ⟨?_, own, inHand⟩
      simpa [pending, done, written, queued] using sent
  | notification => exact internal.elim
  | quit => exact internal.elim
  | @receive thread wait cmd rest receiving found =>
      obtain ⟨callback, channel, counts, process⟩ := onCommand_process cmd (state.take thread rest)
      obtain ⟨first, others, whole, rfl, -⟩ := takeFirst_eq_some found
      obtain rfl : thread = loop := own (thread, cmd) (by simp [whole])
      refine ⟨?_, ?_, ?_⟩
      · rw [written_of_takeFirst found, pending, callback]
        exact sent
      · rw [channel]
        intro entry member
        apply own
        rw [whole]
        exact List.mem_append.mpr ((List.mem_append.mp member).imp_right (List.mem_cons_of_mem _))
      · have one : (state.take thread (first ++ others)).taken thread = state.taken thread + 1 :=
          Function.update_self _ _ _
        rw [take_process] at process
        rw [counts, one]
        omega
  | nothingWaiting =>
      obtain ⟨phase, same, -⟩ := proceed_eq true state
      rw [same]
      exact ⟨sent, own, inHand⟩
  | processBatch => exact ⟨sent, own, le_trans (Nat.le_add_right _ _) inHand⟩
  | regService => exact internal.elim

/-- The message that the loop thread waits with after a burst finds no room, and
no more than the first one of the burst has to have been taken for that. -/
theorem refused_of_blocked {env : Env π κ} {pipe : Pipe} {loop : Thread}
    {state burst final : Receiver κ} {bodies : List Bytes} {steps : List ReceiverEvent}
    (fair : pipe.Fair) (sound : Sound state) (idle : state.Idle)
    (arrived : state.step env pipe loop (.arrive bodies) = some burst)
    (internal : ∀ event ∈ steps, event.Internal)
    (rest : Run.exec (step env pipe loop) burst steps = some final)
    (blocked : final.Blocked pipe loop) :
    ∃ sent, 1 ≤ sent ∧ sent < bodies.length ∧
      pipe.accepts (state.taken loop + sent) (state.taken loop + 1) = false := by
  have begun : Sound burst ∧ Bursting loop (state.taken loop) bodies.length burst := by
    refine ⟨sound.step arrived, ?_⟩
    cases step_cases arrived with
    | arrive =>
        constructor <;>
          simp [pending, written, queued, idle.channel, (sound.of_idle idle).1]
  have settled : Sound final ∧ Bursting loop (state.taken loop) bodies.length final := by
    refine Run.invariant_of_guard
      (fun current => Sound current ∧ Bursting loop (state.taken loop) bodies.length current)
      (fun _ event _ => event.Internal) begun ?_
      (Run.everyStep_of_forall (fun event member _ _ => internal event member) burst) rest
    rintro current event next ⟨kept, bursting⟩ taken met
    exact ⟨kept.step taken, bursting.step met taken⟩
  obtain ⟨⟨wait, submitted⟩, ⟨body, left, callback⟩, full⟩ := blocked
  obtain ⟨kept, sent, -, inHand⟩ := settled
  have staged := kept.staged
  rw [Staged, submitted] at staged
  have busy := List.length_pos_iff.mpr staged.1
  simp only [pending, callback, Option.getD_some, List.length_cons] at sent
  have below : final.taken loop ≤ final.written loop := Nat.le_add_right _ _
  refine ⟨final.written loop - state.taken loop, by omega, by omega, ?_⟩
  rw [Nat.add_sub_of_le (by omega)]
  by_contra accepted
  exact full (fair.mono (by omega) (Bool.not_eq_false _ ▸ accepted))

/-- Of the messages after the first that find no room there is an earliest one. -/
theorem exists_first_refused {pipe : Pipe} {before burst : Nat}
    (finds : ∃ sent, 1 ≤ sent ∧ sent < burst ∧
      pipe.accepts (before + sent) (before + 1) = false) :
    ∃ sent, 1 ≤ sent ∧ sent < burst ∧ pipe.accepts (before + sent) (before + 1) = false ∧
      ∀ index, 1 ≤ index → index < sent →
        pipe.accepts (before + index) (before + 1) = true := by
  obtain ⟨later, less, refused⟩ := Nat.find_spec finds
  refine ⟨Nat.find finds, later, less, refused, ?_⟩
  intro index positive earlier
  by_contra refuses
  exact Nat.find_min finds earlier ⟨positive, earlier.trans less, eq_false_of_ne_true refuses⟩

/-- While the first message of a burst is being processed, the others are passed
on until one finds no room. -/
theorem exists_blocked {env : Env π κ} {pipe : Pipe} {loop : Thread} {state : Receiver κ}
    {bodies : List Bytes} {sent : Nat} (fair : pipe.Fair) (sound : Sound state)
    (idle : state.Idle) (addressable : bodies.length ≤ 2 ^ 64) (later : 1 ≤ sent)
    (less : sent < bodies.length)
    (refused : pipe.accepts (state.taken loop + sent) (state.taken loop + 1) = false)
    (accepted : ∀ index, 1 ≤ index → index < sent →
      pipe.accepts (state.taken loop + index) (state.taken loop + 1) = true) :
    ∃ steps final, (∀ event ∈ steps, event.Internal) ∧
      Run.exec (step env pipe loop) state (.arrive bodies :: steps) = some final ∧
      final.Blocked pipe loop := by
  have enough : sent ≤ 256 ^ 8 := by
    rw [show 256 ^ 8 = 2 ^ 64 by decide]
    omega
  obtain ⟨ptrs, count, once⟩ := exists_ptrs enough
  obtain ⟨ptr, others, rfl⟩ := List.exists_cons_of_length_pos (by omega : 0 < ptrs.length)
  obtain ⟨body, rest, rfl⟩ := List.exists_cons_of_length_pos (by omega : 0 < bodies.length)
  rw [List.length_cons] at count less
  rw [List.nodup_cons] at once
  obtain ⟨busy, begun, submitted, callback, writes, counts, free⟩ :=
    exists_submitted env loop fair sound idle ptr body rest
  have running : busy.phase ≠ .closed := by simp [submitted]
  have room : busy.Takes pipe loop others.length := by
    intro index below
    rw [writes, counts, Nat.add_assoc]
    exact accepted (1 + index) (by omega) (by omega)
  obtain ⟨final, filled, phase, left, full, kept⟩ := exists_filling env running callback
    (by omega) room once.2 fun other member => free other fun same => once.1 (same ▸ member)
  refine ⟨[.passOn ptr, .receive loop, .nothingWaiting] ++ others.map .passOn, final, ?_, ?_,
    ⟨true, phase.trans submitted⟩, ?_, ?_⟩
  · intro event member
    simp only [List.mem_append, List.mem_cons, List.not_mem_nil, or_false, List.mem_map] at member
    rcases member with (rfl | rfl | rfl) | ⟨other, -, rfl⟩ <;> trivial
  · rw [← List.cons_append, Run.exec_append, begun]
    exact filled
  · have some : 0 < (rest.drop others.length).length := by
      rw [List.length_drop]
      omega
    obtain ⟨next, more, same⟩ := List.exists_cons_of_length_pos some
    exact ⟨next, more, left.trans (congrArg Option.some same)⟩
  · have total : busy.written loop + others.length = state.taken loop + sent := by omega
    rw [HasRoom, full, kept, counts, total, refused]
    exact Bool.false_ne_true

/-- A burst of messages that reaches an idle server can stop the threads for
good if and only if one of its messages after the first finds no room although
the first has been taken: that one is being processed meanwhile. -/
theorem burst_blocks_iff {env : Env π κ} {pipe : Pipe} {loop : Thread} {started : Int}
    {events : List ReceiverEvent} {state : Receiver κ} (fair : pipe.Fair)
    (run : Run.exec (step env pipe loop) (initial env started) events = some state)
    (idle : state.Idle) {bodies : List Bytes} (addressable : bodies.length ≤ 2 ^ 64) :
    (∃ steps final, (∀ event ∈ steps, event.Internal) ∧
      Run.exec (step env pipe loop) state (.arrive bodies :: steps) = some final ∧
      final.Blocked pipe loop) ↔
      ∃ sent, 1 ≤ sent ∧ sent < bodies.length ∧
        pipe.accepts (state.taken loop + sent) (state.taken loop + 1) = false := by
  have sound : Sound state := Run.Reachable.invariant ⟨events, run⟩ (sound_initial env started)
    fun _ _ _ sound taken => sound.step taken
  constructor
  · rintro ⟨steps, final, internal, executed, blocked⟩
    obtain ⟨burst, arrived, rest⟩ := (Run.exec_cons_eq_some_iff _ _ _ _ _).mp executed
    exact refused_of_blocked fair sound idle arrived internal rest blocked
  · intro finds
    obtain ⟨sent, later, less, refused, accepted⟩ := exists_first_refused finds
    exact exists_blocked fair sound idle addressable later less refused accepted

/-- A new server is stopped by a burst of 2001 messages. -/
theorem burst_blocks_iff_freshServer :
    ∃ state : Receiver Bytes,
      Run.exec (step Sample.env sampleSocket 0) (initial Sample.env 0) [.nothingWaiting] =
        some state ∧
      state.Idle ∧ ∃ steps final, (∀ event ∈ steps, event.Internal) ∧
        Run.exec (step Sample.env sampleSocket 0) state
          (.arrive (List.replicate 2001 Sample.body) :: steps) = some final ∧
        final.Blocked sampleSocket 0 := by
  have run : Run.exec (step Sample.env sampleSocket 0) (initial Sample.env 0) [.nothingWaiting] =
      some { initial Sample.env 0 with phase := .receiving true } := rfl
  have idle : Idle { initial Sample.env 0 with phase := .receiving true } := ⟨rfl, rfl, rfl⟩
  have addressable : (List.replicate 2001 Sample.body).length ≤ 2 ^ 64 := by
    rw [List.length_replicate]
    decide
  refine ⟨_, run, idle, (burst_blocks_iff (Pipe.fair_highWaterMark 2000) run idle addressable).mpr ?_⟩
  rw [List.length_replicate]
  exact (Pipe.highWaterMark_refuses_iff (by decide) 0 2001).mpr (by decide)

end Receiver

end Spns.Notify
