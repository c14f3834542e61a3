import Spns.Notify.Core

/-!
# Receiving notifications

A notification that a service node sends is put into an object of its own, and
the address of the object goes through a socket to the thread that runs
`process_notifications`.  That thread takes what is waiting, up to a hundred
messages, and has the loop thread process them as one batch; it waits for a
message only with empty hands.

The sockets keep what each thread sends in order, but not what different
threads send.  When the socket of a thread has room for one more command is up
to its library, like `new`, the clock and the tables that a batch sees are up
to the outside.
-/

namespace Spns.Notify

open Spns
open Spns.Lib
open Spns.Lib.Unordered

variable {π κ : Type}

/-! ## Commands -/

/-- `std::thread::id` -/
abbrev Thread := Nat

/-- The address of an object, as its bytes are in memory. -/
abbrev Ptr := FixedBytes 8

/-- The text `QUIT`. -/
def quitCommand : Bytes := [81, 85, 73, 84]

/-- The text `PUSH`. -/
def pushTag : Bytes := [80, 85, 83, 72]

/-- The command for a message. -/
def pushCommand (ptr : Ptr) : Bytes :=
  pushTag ++ ptr.val

/-- What the processing thread takes a command for. -/
inductive Command
  | quit
  | push (ptr : Ptr)
  | unexpected
  deriving DecidableEq

/-- The tests of `process_notifications` on a command. -/
def readCommand (cmd : Bytes) : Command :=
  if cmd = quitCommand then .quit
  else if cmd.take 4 = pushTag then
    match asFixed 8 (cmd.drop 4) with
    | some ptr => .push ptr
    | none => .unexpected
  else .unexpected

@[simp]
theorem readCommand_quitCommand : readCommand quitCommand = .quit :=
  if_pos rfl

@[simp]
theorem readCommand_pushCommand (ptr : Ptr) : readCommand (pushCommand ptr) = .push ptr := by
  have longer : pushCommand ptr ≠ quitCommand := by
    intro same
    have sizes := congrArg List.length same
    simp [pushCommand, pushTag, quitCommand, ptr.property] at sizes
  have tagged : (pushCommand ptr).take 4 = pushTag := rfl
  have address : (pushCommand ptr).drop 4 = ptr.val := rfl
  rw [readCommand, if_neg longer, if_pos tagged, address, asFixed, dif_pos ptr.property]

/-! ## The sockets -/

/-- A socket of the library: whether it takes one more command after so many
have been written to it, and so many of these have been taken out of it. -/
structure Pipe where
  accepts : (written taken : Nat) → Bool

namespace Pipe

/-- What the threads rely on: an empty socket has room, and commands that are
taken out never make less room. -/
structure Fair (pipe : Pipe) : Prop where
  empty : ∀ count, pipe.accepts count count = true
  mono : ∀ {written taken more}, taken ≤ more → pipe.accepts written taken = true →
    pipe.accepts written more = true

/-- A ZeroMQ socket with this high-water mark, or without one for `0`: its
sender hears of the commands that are taken in portions of half the mark. -/
def highWaterMark (mark : Nat) : Pipe where
  accepts written taken :=
    let portion := (mark + 1) / 2
    decide (mark = 0 ∨ written - taken / portion * portion < mark)

theorem fair_highWaterMark (mark : Nat) : (highWaterMark mark).Fair where
  empty count := by
    simp only [highWaterMark, decide_eq_true_eq]
    rcases Nat.eq_zero_or_pos mark with none | some
    · exact Or.inl none
    · right
      have portion : 0 < (mark + 1) / 2 := by omega
      have left := Nat.mod_lt count portion
      have split := Nat.div_add_mod' count ((mark + 1) / 2)
      omega
  mono {written taken more} later accepted := by
    simp only [highWaterMark, decide_eq_true_eq] at accepted ⊢
    refine accepted.imp_right fun below => lt_of_le_of_lt ?_ below
    exact Nat.sub_le_sub_left (Nat.mul_le_mul_right _ (Nat.div_le_div_right later)) written

/-- Of a burst after `count` commands that have all been taken, a command finds
no room although the first one has been taken. -/
theorem highWaterMark_refuses_iff {mark : Nat} (positive : 0 < mark) (count burst : Nat) :
    (∃ sent, 1 ≤ sent ∧ sent < burst ∧
      (highWaterMark mark).accepts (count + sent) (count + 1) = false) ↔
      mark + (count + 1) / ((mark + 1) / 2) * ((mark + 1) / 2) < count + burst := by
  have heard := Nat.div_mul_le_self (count + 1) ((mark + 1) / 2)
  have unheard := Nat.lt_div_mul_add (a := count + 1) (b := (mark + 1) / 2) (by omega)
  simp only [highWaterMark, decide_eq_false_iff_not, not_or, Nat.not_lt]
  constructor
  · rintro ⟨sent, -, less, -, refused⟩
    omega
  · intro large
    refine ⟨mark + (count + 1) / ((mark + 1) / 2) * ((mark + 1) / 2) - count, ?_, ?_, ?_, ?_⟩ <;>
      omega

end Pipe

/-! ## The threads -/

/-- A message object, with the thread that made it. -/
structure Notice where
  sender : Thread
  body : Bytes
  deriving DecidableEq

/-- Where the processing thread is.  The flag says that its next `recv` waits
for a command. -/
inductive Phase
  | receiving (wait : Bool)
  /-- A batch has been handed to the loop thread. -/
  | submitted (wait : Bool)
  | closed
  deriving DecidableEq

/-- The objects and the threads, with a record of what was sent and of what
became of it. -/
structure Receiver (κ : Type) where
  /-- The message objects that are alive. -/
  heap : Ptr → Option Notice
  /-- What is in the sockets, with the thread that has sent it, oldest first. -/
  channel : List (Thread × Bytes)
  /-- How many commands of a thread have been taken. -/
  taken : Thread → Nat
  process : List Ptr
  phase : Phase
  /-- The messages that a callback on the loop thread has still to pass on. -/
  callback : Option (List Bytes)
  notify : State κ
  sent : List Notice
  handled : List (List Notice)
  dropped : List Notice

inductive ReceiverEvent
  /-- These messages have arrived, and their callbacks run on the loop thread. -/
  | arrive (bodies : List Bytes)
  /-- The next one of them is passed on. -/
  | passOn (ptr : Ptr)
  /-- The callbacks have returned. -/
  | returned
  /-- A message is passed on by another thread. -/
  | notification (thread : Thread) (ptr : Ptr) (body : Bytes)
  /-- The destructor of the server. -/
  | quit (thread : Thread)
  /-- `recv` takes a command that this thread has sent. -/
  | receive (thread : Thread)
  /-- `recv` finds none. -/
  | nothingWaiting
  /-- The loop thread processes the batch. -/
  | processBatch (now : Int) (deliveries : List Delivery)
  | regService (parts : List Bytes) (conn : ConnectionId)

/-- The oldest command of a thread, and the channel without it. -/
def takeFirst (thread : Thread) :
    List (Thread × Bytes) → Option (Bytes × List (Thread × Bytes))
  | [] => none
  | (sender, cmd) :: rest =>
      if sender = thread then some (cmd, rest)
      else (takeFirst thread rest).map fun (found, left) => (found, (sender, cmd) :: left)

/-- The addresses in a channel. -/
def posted (channel : List (Thread × Bytes)) : List Ptr :=
  channel.filterMap fun entry =>
    match readCommand entry.2 with
    | .push ptr => some ptr
    | _ => none

namespace Receiver

/-- A server that is started at `now`. -/
def initial (env : Env π κ) (now : Int) : Receiver κ where
  heap := fun _ => none
  channel := []
  taken := fun _ => 0
  process := []
  phase := .receiving false
  callback := none
  notify := Notify.initial env now
  sent := []
  handled := []
  dropped := []

/-- How many commands of a thread wait in its socket. -/
def queued (thread : Thread) (state : Receiver κ) : Nat :=
  (state.channel.filter fun entry => entry.1 = thread).length

/-- How many commands a thread has written. -/
def written (thread : Thread) (state : Receiver κ) : Nat :=
  state.taken thread + state.queued thread

/-- `send` does not block. -/
def HasRoom (pipe : Pipe) (thread : Thread) (state : Receiver κ) : Prop :=
  pipe.accepts (state.written thread) (state.taken thread) = true

instance (pipe : Pipe) (thread : Thread) (state : Receiver κ) :
    Decidable (state.HasRoom pipe thread) :=
  inferInstanceAs (Decidable (_ = _))

/-- `on_message_notification` on a thread: the object is made at an address
where none is, and its address is sent. -/
def onMessageNotification (pipe : Pipe) (thread : Thread) (ptr : Ptr) (body : Bytes)
    (state : Receiver κ) : Option (Receiver κ) :=
  if state.phase ≠ .closed ∧ state.HasRoom pipe thread ∧ state.heap ptr = none then
    some { state with
      heap := Function.update state.heap ptr (some ⟨thread, body⟩)
      channel := state.channel ++ [(thread, pushCommand ptr)]
      sent := state.sent ++ [⟨thread, body⟩] }
  else none

/-- The messages in `process`. -/
def held (state : Receiver κ) : List Notice :=
  state.process.filterMap state.heap

/-- The messages on their way to the processing thread. -/
def underway (state : Receiver κ) : List Notice :=
  (posted state.channel).filterMap state.heap

/-- The objects in `process` are deleted. -/
def deleteProcess (state : Receiver κ) : Receiver κ :=
  { state with
    heap := fun ptr => if ptr ∈ state.process then none else state.heap ptr
    process := [] }

/-- The end of a turn of the loop: go on, or process what there is. -/
def proceed (wait : Bool) (state : Receiver κ) : Receiver κ :=
  if state.process = [] ∨ wait = false ∧ state.process.length < maxBatch then
    { state with phase := .receiving wait }
  else
    { state with phase := .submitted wait }

/-- A command of this thread is taken, which leaves `channel`. -/
def take (thread : Thread) (channel : List (Thread × Bytes)) (state : Receiver κ) : Receiver κ :=
  { state with
    channel := channel
    taken := Function.update state.taken thread (state.taken thread + 1) }

@[simp]
theorem take_callback (thread : Thread) (channel : List (Thread × Bytes)) (state : Receiver κ) :
    (state.take thread channel).callback = state.callback :=
  rfl

@[simp]
theorem take_channel (thread : Thread) (channel : List (Thread × Bytes)) (state : Receiver κ) :
    (state.take thread channel).channel = channel :=
  rfl

@[simp]
theorem take_process (thread : Thread) (channel : List (Thread × Bytes)) (state : Receiver κ) :
    (state.take thread channel).process = state.process :=
  rfl

/-- What follows a `recv` that has taken a command. -/
def onCommand (cmd : Bytes) (state : Receiver κ) : Receiver κ :=
  match readCommand cmd with
  | .quit => { state.deleteProcess with phase := .closed, dropped := state.held }
  | .push ptr => { state with process := state.process ++ [ptr] }.proceed false
  | .unexpected => state.proceed false

variable [DecidableEq κ]

/-- One step of a thread; `loop` is the loop thread, which does one thing at a
time. -/
def step (env : Env π κ) (pipe : Pipe) (loop : Thread) (state : Receiver κ) :
    ReceiverEvent → Option (Receiver κ)
  | .arrive bodies =>
      if state.callback = none then some { state with callback := some bodies } else none
  | .passOn ptr =>
      match state.callback with
      | some (body :: rest) =>
          { state with callback := some rest }.onMessageNotification pipe loop ptr body
      | _ => none
  | .returned =>
      if state.callback = some [] then some { state with callback := none } else none
  | .notification thread ptr body =>
      if thread ≠ loop then state.onMessageNotification pipe thread ptr body else none
  | .quit thread =>
      if state.phase ≠ .closed ∧ state.HasRoom pipe thread then
        some { state with channel := state.channel ++ [(thread, quitCommand)] }
      else none
  | .receive thread =>
      match state.phase, takeFirst thread state.channel with
      | .receiving _, some (cmd, rest) => some ((state.take thread rest).onCommand cmd)
      | _, _ => none
  | .nothingWaiting =>
      if state.phase = .receiving false ∧ state.channel = [] then some (state.proceed true)
      else none
  | .processBatch now deliveries =>
      match state.phase with
      | .submitted wait =>
          if state.callback = none ∧ state.notify.clock ≤ now ∧
              deliveries.map Delivery.body = state.held.map Notice.body then
            some { state.deleteProcess with
              phase := .receiving wait
              notify := Notify.processBatch env now deliveries state.notify
              handled := state.handled ++ [state.held] }
          else none
      | _ => none
  | .regService parts conn =>
      if state.callback = none then
        some { state with notify := onRegService parts conn state.notify }
      else none

/-- All that a step can be. -/
inductive Stepped (env : Env π κ) (pipe : Pipe) (loop : Thread) (state : Receiver κ) :
    ReceiverEvent → Receiver κ → Prop
  | arrive {bodies : List Bytes} (free : state.callback = none) :
      Stepped env pipe loop state (.arrive bodies) { state with callback := some bodies }
  | passOn {ptr : Ptr} {body : Bytes} {rest : List Bytes} {next : Receiver κ}
      (callback : state.callback = some (body :: rest))
      (sent : { state with callback := some rest }.onMessageNotification pipe loop ptr body =
        some next) :
      Stepped env pipe loop state (.passOn ptr) next
  | returned (done : state.callback = some []) :
      Stepped env pipe loop state .returned { state with callback := none }
  | notification {thread : Thread} {ptr : Ptr} {body : Bytes} {next : Receiver κ}
      (other : thread ≠ loop)
      (sent : state.onMessageNotification pipe thread ptr body = some next) :
      Stepped env pipe loop state (.notification thread ptr body) next
  | quit {thread : Thread} (running : state.phase ≠ .closed)
      (room : state.HasRoom pipe thread) :
      Stepped env pipe loop state (.quit thread)
        { state with channel := state.channel ++ [(thread, quitCommand)] }
  | receive {thread : Thread} {wait : Bool} {cmd : Bytes} {rest : List (Thread × Bytes)}
      (receiving : state.phase = .receiving wait)
      (found : takeFirst thread state.channel = some (cmd, rest)) :
      Stepped env pipe loop state (.receive thread)
        ((state.take thread rest).onCommand cmd)
  | nothingWaiting (receiving : state.phase = .receiving false) (empty : state.channel = []) :
      Stepped env pipe loop state .nothingWaiting (state.proceed true)
  | processBatch {now : Int} {deliveries : List Delivery} {wait : Bool}
      (submitted : state.phase = .submitted wait) (free : state.callback = none)
      (later : state.notify.clock ≤ now)
      (same : deliveries.map Delivery.body = state.held.map Notice.body) :
      Stepped env pipe loop state (.processBatch now deliveries)
        { state.deleteProcess with
          phase := .receiving wait
          notify := Notify.processBatch env now deliveries state.notify
          handled := state.handled ++ [state.held] }
  | regService {parts : List Bytes} {conn : ConnectionId} (free : state.callback = none) :
      Stepped env pipe loop state (.regService parts conn)
        { state with notify := onRegService parts conn state.notify }

theorem step_cases {env : Env π κ} {pipe : Pipe} {loop : Thread} {state next : Receiver κ}
    {event : ReceiverEvent} (taken : state.step env pipe loop event = some next) :
    Stepped env pipe loop state event next := by
  cases event with
  | arrive bodies =>
      simp only [step] at taken
      split_ifs at taken with free
      cases taken
      exact .arrive free
  | passOn ptr =>
      simp only [step] at taken
      split at taken
      · rename_i callback
        exact .passOn callback taken
      · contradiction
  | returned =>
      simp only [step] at taken
      split_ifs at taken with done
      cases taken
      exact .returned done
  | notification thread ptr body =>
      simp only [step] at taken
      split_ifs at taken with other
      exact .notification other taken
  | quit thread =>
      simp only [step] at taken
      split_ifs at taken with may
      cases taken
      exact .quit may.1 may.2
  | receive thread =>
      simp only [step] at taken
      split at taken
      · rename_i receiving found
        cases taken
        exact .receive receiving found
      · contradiction
  | nothingWaiting =>
      simp only [step] at taken
      split_ifs at taken with idle
      cases taken
      exact .nothingWaiting idle.1 idle.2
  | processBatch now deliveries =>
      simp only [step] at taken
      split at taken
      · rename_i submitted
        split_ifs at taken with ready
        cases taken
        exact .processBatch submitted ready.1 ready.2.1 ready.2.2
      · contradiction
  | regService parts conn =>
      simp only [step] at taken
      split_ifs at taken with free
      cases taken
      exact .regService free

end Receiver

/-! ## The channel -/

@[simp]
theorem posted_append (first second : List (Thread × Bytes)) :
    posted (first ++ second) = posted first ++ posted second :=
  List.filterMap_append

theorem posted_cons_push {entry : Thread × Bytes} {ptr : Ptr} (channel : List (Thread × Bytes))
    (push : readCommand entry.2 = .push ptr) : posted (entry :: channel) = ptr :: posted channel := by
  rw [posted, List.filterMap_cons, push]
  rfl

theorem posted_cons_other {entry : Thread × Bytes} (channel : List (Thread × Bytes))
    (other : ∀ ptr, readCommand entry.2 ≠ .push ptr) : posted (entry :: channel) = posted channel := by
  rw [posted, List.filterMap_cons]
  cases read : readCommand entry.2 with
  | push ptr => exact absurd read (other ptr)
  | quit => rfl
  | unexpected => rfl

@[simp]
theorem posted_pushCommand (thread : Thread) (ptr : Ptr) :
    posted [(thread, pushCommand ptr)] = [ptr] :=
  posted_cons_push [] (readCommand_pushCommand ptr)

@[simp]
theorem posted_quitCommand (thread : Thread) : posted [(thread, quitCommand)] = [] := by
  simp [posted]

theorem mem_posted_iff {channel : List (Thread × Bytes)} {ptr : Ptr} :
    ptr ∈ posted channel ↔ ∃ entry ∈ channel, readCommand entry.2 = .push ptr := by
  rw [posted, List.mem_filterMap]
  refine exists_congr fun entry => and_congr_right fun _ => ?_
  cases readCommand entry.2 <;> simp

/-- A thread's oldest command has none of the same thread before it. -/
theorem takeFirst_eq_some {thread : Thread} {channel rest : List (Thread × Bytes)} {cmd : Bytes}
    (found : takeFirst thread channel = some (cmd, rest)) :
    ∃ before after, channel = before ++ (thread, cmd) :: after ∧ rest = before ++ after ∧
      ∀ entry ∈ before, entry.1 ≠ thread := by
  induction channel generalizing rest with
  | nil => contradiction
  | cons entry channel ih =>
      obtain ⟨sender, other⟩ := entry
      rw [takeFirst] at found
      split_ifs at found with own
      · cases found
        exact ⟨[], channel, by rw [own]; rfl, rfl, fun _ member => absurd member List.not_mem_nil⟩
      · obtain ⟨⟨inner, left⟩, taken, same⟩ := Option.map_eq_some_iff.mp found
        cases same
        obtain ⟨before, after, rfl, rfl, others⟩ := ih taken
        refine ⟨(sender, other) :: before, after, rfl, rfl, ?_⟩
        exact List.forall_mem_cons.mpr ⟨own, others⟩

/-! ## The invariant -/

/-- The messages of one thread. -/
def ofThread (thread : Thread) (notices : List Notice) : List Notice :=
  notices.filter fun notice => notice.sender = thread

@[simp]
theorem ofThread_append (thread : Thread) (first second : List Notice) :
    ofThread thread (first ++ second) = ofThread thread first ++ ofThread thread second :=
  List.filter_append first second

/-- A message may be taken before those of other threads. -/
theorem ofThread_move {others : List Notice} {notice : Notice}
    (apart : ∀ other ∈ others, other.sender ≠ notice.sender) (thread : Thread)
    (rest : List Notice) :
    ofThread thread (others ++ notice :: rest) = ofThread thread (notice :: (others ++ rest)) := by
  rw [ofThread, ofThread, List.filter_append, List.filter_cons, List.filter_cons,
    List.filter_append]
  split_ifs with own
  · have none : others.filter (fun other => decide (other.sender = thread)) = [] := by
      refine List.filter_eq_nil_iff.mpr fun other member same => ?_
      exact apart other member ((of_decide_eq_true same).trans (of_decide_eq_true own).symm)
    rw [none, List.nil_append, List.nil_append]
  · rfl

namespace Receiver

/-- Every object has one owner, and what a thread has sent is in order. -/
structure Kept (state : Receiver κ) : Prop where
  alive : ∀ ptr, (state.heap ptr).isSome ↔ ptr ∈ state.process ∨ ptr ∈ posted state.channel
  once : (state.process ++ posted state.channel).Nodup
  sender : ∀ entry ∈ state.channel, ∀ ptr, readCommand entry.2 = .push ptr →
    ∀ notice, state.heap ptr = some notice → notice.sender = entry.1
  order : ∀ thread,
    ofThread thread (state.handled.flatten ++ state.dropped ++ state.held ++ state.underway) =
      ofThread thread state.sent

/-- What the phase says about the messages in hand. -/
def Staged (state : Receiver κ) : Prop :=
  match state.phase with
  | .receiving wait => state.process.length < maxBatch ∧ (wait = true → state.process = []) ∧
      state.dropped = []
  | .submitted _ => state.process ≠ [] ∧ state.process.length ≤ maxBatch ∧ state.dropped = []
  | .closed => state.process = []

theorem kept_initial (env : Env π κ) (now : Int) : Kept (initial env now) where
  alive ptr := by simp [initial, posted]
  once := List.nodup_nil
  sender entry member := absurd member List.not_mem_nil
  order thread := rfl

theorem staged_initial (env : Env π κ) (now : Int) : Staged (initial env now) :=
  ⟨Nat.zero_lt_succ 99, fun _ => rfl, rfl⟩

/-- All messages in hand are alive. -/
theorem Kept.length_held {state : Receiver κ} (kept : Kept state) :
    state.held.length = state.process.length := by
  have all : ∀ ptrs : List Ptr, (∀ ptr ∈ ptrs, (state.heap ptr).isSome) →
      (ptrs.filterMap state.heap).length = ptrs.length := by
    intro ptrs present
    induction ptrs with
    | nil => rfl
    | cons ptr ptrs ih =>
        obtain ⟨here, others⟩ := List.forall_mem_cons.mp present
        obtain ⟨notice, found⟩ := Option.isSome_iff_exists.mp here
        rw [List.filterMap_cons_some found, List.length_cons, List.length_cons, ih others]
  exact all state.process fun ptr member => (kept.alive ptr).mpr (Or.inl member)

theorem staged_proceed {state : Receiver κ} {wait : Bool}
    (few : state.process.length ≤ maxBatch) (calm : state.dropped = []) :
    Staged (state.proceed wait) := by
  rw [proceed]
  split_ifs with goOn
  · refine ⟨?_, ?_, calm⟩
    · rcases goOn with empty | ⟨-, below⟩
      · rw [empty]
        decide
      · exact below
    · intro waits
      rcases goOn with empty | ⟨busy, -⟩
      · exact empty
      · rw [waits] at busy
        contradiction
  · rw [not_or] at goOn
    exact ⟨goOn.1, few, calm⟩

theorem Kept.proceed {state : Receiver κ} (kept : Kept state) (wait : Bool) :
    Kept (state.proceed wait) := by
  rw [Receiver.proceed]
  split_ifs
  · exact ⟨kept.alive, kept.once, kept.sender, kept.order⟩
  · exact ⟨kept.alive, kept.once, kept.sender, kept.order⟩

/-! ### Sending -/

/-- The new object is at no address that is in use. -/
theorem Kept.onMessageNotification {state next : Receiver κ} (kept : Kept state) {pipe : Pipe}
    {thread : Thread} {ptr : Ptr} {body : Bytes}
    (sent : state.onMessageNotification pipe thread ptr body = some next) : Kept next := by
  rw [Receiver.onMessageNotification] at sent
  split_ifs at sent with may
  obtain ⟨-, -, free⟩ := may
  cases sent
  have unused : ptr ∉ state.process ∧ ptr ∉ posted state.channel := by
    have dead := mt (kept.alive ptr).mpr (by simp [free])
    exact not_or.mp dead
  have same : ∀ ptrs : List Ptr, ptr ∉ ptrs →
      ptrs.filterMap (Function.update state.heap ptr (some ⟨thread, body⟩)) =
        ptrs.filterMap state.heap := by
    intro ptrs absent
    refine List.filterMap_congr fun other member => Function.update_of_ne ?_ _ _
    rintro rfl
    exact absent member
  refine ⟨?_, ?_, ?_, ?_⟩
  · intro other
    by_cases equal : other = ptr
    · subst equal
      simp
    · simp [kept.alive other, equal]
  · simp only [posted_append, posted_pushCommand, ← List.append_assoc]
    refine List.nodup_append.mpr ⟨kept.once, List.nodup_singleton ptr, ?_⟩
    rintro old member new inside rfl
    rw [List.mem_singleton] at inside
    subst inside
    exact (List.mem_append.mp member).elim unused.1 unused.2
  · intro entry member other push notice found
    rcases List.mem_append.mp member with old | new
    · have known : other ∈ posted state.channel := mem_posted_iff.mpr ⟨entry, old, push⟩
      have different : other ≠ ptr := fun equal => unused.2 (equal ▸ known)
      simp only [Function.update_of_ne different] at found
      exact kept.sender entry old other push notice found
    · rw [List.mem_singleton] at new
      subst new
      rw [readCommand_pushCommand, Command.push.injEq] at push
      subst push
      simp only [Function.update_self, Option.some.injEq] at found
      exact found ▸ rfl
  · intro other
    have before := kept.order other
    simp only [held, underway] at before
    simp only [held, underway, posted_append, posted_pushCommand, List.filterMap_append,
      same _ unused.1, same _ unused.2]
    rw [← List.append_assoc, ofThread_append, before, ofThread_append]
    simp

theorem Kept.sendQuit {state : Receiver κ} (kept : Kept state) (thread : Thread) :
    Kept { state with channel := state.channel ++ [(thread, quitCommand)] } where
  alive ptr := by simp [kept.alive ptr]
  once := by simpa using kept.once
  sender entry member ptr push := by
    rcases List.mem_append.mp member with old | new
    · exact kept.sender entry old ptr push
    · rw [List.mem_singleton] at new
      subst new
      rw [readCommand_quitCommand] at push
      contradiction
  order other := by simpa [held, underway] using kept.order other

/-! ### Receiving -/

/-- A message that is taken out of the channel is in hand instead. -/
theorem Kept.take {state : Receiver κ} (kept : Kept state) {thread : Thread} {cmd : Bytes}
    {before after : List (Thread × Bytes)} (channel : state.channel = before ++ (thread, cmd) :: after)
    (others : ∀ entry ∈ before, entry.1 ≠ thread) {ptr : Ptr} (push : readCommand cmd = .push ptr)
    (taken : Thread → Nat) :
    Kept { state with
      channel := before ++ after
      taken := taken
      process := state.process ++ [ptr] } := by
  have addresses : posted state.channel = posted before ++ ptr :: posted after := by
    rw [channel, posted_append, posted_cons_push after push]
  have here : (thread, cmd) ∈ state.channel := by simp [channel]
  have inside : ∀ entry ∈ before ++ after, entry ∈ state.channel := by
    intro entry member
    rw [channel]
    exact List.mem_append.mpr ((List.mem_append.mp member).imp_right (List.mem_cons_of_mem _))
  obtain ⟨notice, found⟩ := Option.isSome_iff_exists.mp
    ((kept.alive ptr).mpr (Or.inr (by simp [addresses])))
  have own : notice.sender = thread := kept.sender _ here ptr push notice found
  refine ⟨?_, ?_, ?_, ?_⟩
  · intro other
    rw [kept.alive other, addresses, posted_append]
    simp only [List.mem_append, List.mem_cons, List.not_mem_nil, or_false]
    tauto
  · have once := kept.once
    rw [addresses] at once
    simp only [posted_append, List.append_assoc, List.singleton_append]
    exact (List.Perm.append_left _ List.perm_middle).nodup_iff.mp once
  · exact fun entry member => kept.sender entry (inside entry member)
  · intro other
    have apart : ∀ first ∈ (posted before).filterMap state.heap,
        first.sender ≠ notice.sender := by
      intro first member
      obtain ⟨source, known, alive⟩ := List.mem_filterMap.mp member
      obtain ⟨entry, listed, pushed⟩ := mem_posted_iff.mp known
      have origin := kept.sender entry (inside entry (List.mem_append_left _ listed)) source pushed
        first alive
      rw [origin, own]
      exact others entry listed
    let front := (posted before).filterMap state.heap
    let back := (posted after).filterMap state.heap
    have inHand : (state.process ++ [ptr]).filterMap state.heap = state.held ++ [notice] := by
      rw [List.filterMap_append, List.filterMap_cons_some found]
      rfl
    have left : (posted (before ++ after)).filterMap state.heap = front ++ back := by
      rw [posted_append, List.filterMap_append]
    have whole : state.underway = front ++ notice :: back := by
      rw [underway, addresses, List.filterMap_append, List.filterMap_cons_some found]
    calc
      ofThread other (state.handled.flatten ++ state.dropped ++
            (state.process ++ [ptr]).filterMap state.heap ++
            (posted (before ++ after)).filterMap state.heap) =
          ofThread other (state.handled.flatten ++ state.dropped ++ state.held) ++
            ofThread other (notice :: (front ++ back)) := by
        rw [inHand, left, ← ofThread_append]
        simp
      _ = ofThread other (state.handled.flatten ++ state.dropped ++ state.held) ++
            ofThread other (front ++ notice :: back) := by
        rw [ofThread_move apart]
      _ = ofThread other state.sent := by
        rw [← whole, ← ofThread_append, kept.order other]

/-- A command that is no message leaves the objects alone. -/
theorem Kept.skip {state : Receiver κ} (kept : Kept state) {entry : Thread × Bytes}
    {before after : List (Thread × Bytes)} (channel : state.channel = before ++ entry :: after)
    (other : ∀ ptr, readCommand entry.2 ≠ .push ptr) (taken : Thread → Nat) :
    Kept { state with channel := before ++ after, taken := taken } := by
  have addresses : posted state.channel = posted (before ++ after) := by
    rw [channel, posted_append, posted_append, posted_cons_other after other]
  refine ⟨?_, ?_, ?_, ?_⟩
  · intro ptr
    rw [kept.alive ptr, addresses]
  · exact addresses ▸ kept.once
  · intro first member
    apply kept.sender first
    rw [channel]
    exact List.mem_append.mpr ((List.mem_append.mp member).imp_right (List.mem_cons_of_mem _))
  · intro thread
    rw [← kept.order thread, held, held, underway, underway, addresses]

/-- The messages in hand are deleted; `done` says what has become of them. -/
theorem Kept.deleteProcess {state next : Receiver κ} (kept : Kept state)
    (objects : next.heap = state.deleteProcess.heap) (hands : next.process = [])
    (channel : next.channel = state.channel) (sent : next.sent = state.sent)
    (done : ∀ thread, ofThread thread (next.handled.flatten ++ next.dropped) =
      ofThread thread (state.handled.flatten ++ state.dropped ++ state.held)) : Kept next := by
  have apart : ∀ ptr ∈ posted state.channel, ptr ∉ state.process := fun ptr inside member =>
    (List.nodup_append.mp kept.once).2.2 ptr member ptr inside rfl
  refine ⟨?_, ?_, ?_, ?_⟩
  · intro ptr
    rw [objects, hands, channel]
    simp only [Receiver.deleteProcess, List.not_mem_nil, false_or]
    split_ifs with deleted
    · simp only [Option.isSome_none, Bool.false_eq_true, false_iff]
      exact fun inside => apart ptr inside deleted
    · rw [kept.alive ptr, or_iff_right deleted]
  · rw [hands, channel, List.nil_append]
    exact kept.once.of_append_right
  · intro entry member ptr push notice found
    rw [channel] at member
    rw [objects] at found
    simp only [Receiver.deleteProcess] at found
    split_ifs at found
    exact kept.sender entry member ptr push notice found
  · intro thread
    have same : next.underway = state.underway := by
      rw [underway, underway, channel, objects]
      exact List.filterMap_congr fun ptr inside => if_neg (apart ptr inside)
    have empty : next.held = [] := by
      rw [held, hands, List.filterMap_nil]
    rw [sent, ← kept.order thread, empty, same, List.append_nil, ofThread_append, done,
      ← ofThread_append]

/-! ## Whole runs -/

/-- What holds in every state. -/
structure Sound (state : Receiver κ) : Prop where
  kept : Kept state
  staged : Staged state
  sizes : ∀ batch ∈ state.handled, 1 ≤ batch.length ∧ batch.length ≤ maxBatch

theorem sound_initial (env : Env π κ) (now : Int) : Sound (initial env now) :=
  ⟨kept_initial env now, staged_initial env now, fun _ member => absurd member List.not_mem_nil⟩

theorem proceed_handled (wait : Bool) (state : Receiver κ) :
    (state.proceed wait).handled = state.handled ∧ (state.proceed wait).notify = state.notify := by
  rw [proceed]
  split_ifs <;> exact ⟨rfl, rfl⟩

theorem onCommand_handled (cmd : Bytes) (state : Receiver κ) :
    (state.onCommand cmd).handled = state.handled ∧
      (state.onCommand cmd).notify = state.notify := by
  rw [onCommand]
  split
  · exact ⟨rfl, rfl⟩
  · exact proceed_handled false _
  · exact proceed_handled false state

/-- The loop goes on from a command in any of its three branches. -/
theorem Sound.receive {state : Receiver κ} (sound : Sound state) {wait : Bool}
    (receiving : state.phase = .receiving wait) {thread : Thread} {cmd : Bytes}
    {rest : List (Thread × Bytes)} (taken : takeFirst thread state.channel = some (cmd, rest)) :
    Sound ((state.take thread rest).onCommand cmd) := by
  obtain ⟨before, after, channel, rfl, others⟩ := takeFirst_eq_some taken
  have staged := sound.staged
  rw [Staged, receiving] at staged
  obtain ⟨few, -, calm⟩ := staged
  refine ⟨?_, ?_, ?_⟩
  · rw [onCommand]
    split
    · rename_i quit
      have skipped := sound.kept.skip channel fun ptr push => by
        rw [quit] at push
        contradiction
      refine (skipped _).deleteProcess rfl rfl rfl rfl fun thread => ?_
      simp only [Receiver.deleteProcess, Receiver.take, calm, List.append_nil]
    · rename_i ptr push
      exact (sound.kept.take channel others push _).proceed false
    · rename_i unexpected
      have skipped := sound.kept.skip channel fun ptr push => by
        rw [unexpected] at push
        contradiction
      exact (skipped _).proceed false
  · rw [onCommand]
    split
    · exact rfl
    · refine staged_proceed ?_ calm
      rw [List.length_append]
      exact few
    · exact staged_proceed (Nat.le_of_lt few) calm
  · intro batch member
    rw [(onCommand_handled cmd _).1] at member
    exact sound.sizes batch member

theorem Sound.processBatch {state : Receiver κ} (sound : Sound state) {wait : Bool}
    (submitted : state.phase = .submitted wait) (notify : State κ) :
    Sound { state.deleteProcess with
      phase := .receiving wait
      notify := notify
      handled := state.handled ++ [state.held] } := by
  have staged := sound.staged
  rw [Staged, submitted] at staged
  obtain ⟨some, few, calm⟩ := staged
  refine ⟨sound.kept.deleteProcess rfl rfl rfl rfl fun thread => ?_, ?_, ?_⟩
  · simp only [Receiver.deleteProcess, calm, List.flatten_append, List.append_nil,
      List.flatten_cons, List.flatten_nil]
  · exact ⟨Nat.zero_lt_succ 99, fun _ => rfl, calm⟩
  · intro batch member
    rcases List.mem_append.mp member with old | new
    · exact sound.sizes batch old
    · rw [List.mem_singleton] at new
      rw [new, sound.kept.length_held]
      exact ⟨List.length_pos_iff.mpr some, few⟩

theorem onMessageNotification_eq_some {state next : Receiver κ} {pipe : Pipe} {thread : Thread}
    {ptr : Ptr} {body : Bytes}
    (sent : state.onMessageNotification pipe thread ptr body = some next) :
    next.phase = state.phase ∧ next.process = state.process ∧ next.dropped = state.dropped ∧
      next.handled = state.handled ∧ next.notify = state.notify := by
  rw [onMessageNotification] at sent
  split_ifs at sent
  cases sent
  exact ⟨rfl, rfl, rfl, rfl, rfl⟩

theorem Sound.onMessageNotification {state next : Receiver κ} (sound : Sound state)
    {pipe : Pipe} {thread : Thread} {ptr : Ptr} {body : Bytes}
    (sent : state.onMessageNotification pipe thread ptr body = some next) : Sound next := by
  obtain ⟨phase, process, dropped, handled, -⟩ := onMessageNotification_eq_some sent
  refine ⟨sound.kept.onMessageNotification sent, ?_, handled ▸ sound.sizes⟩
  have staged := sound.staged
  rw [Staged] at staged ⊢
  rw [phase, process, dropped]
  exact staged

/-- Changes that concern neither the messages nor the processing thread. -/
theorem Sound.of_same {state : Receiver κ} (sound : Sound state) (callback : Option (List Bytes))
    (notify : State κ) : Sound { state with callback := callback, notify := notify } :=
  ⟨⟨sound.kept.alive, sound.kept.once, sound.kept.sender, sound.kept.order⟩, sound.staged,
    sound.sizes⟩

variable [DecidableEq κ]

theorem Sound.step {env : Env π κ} {pipe : Pipe} {loop : Thread} {state next : Receiver κ}
    {event : ReceiverEvent} (sound : Sound state)
    (taken : state.step env pipe loop event = some next) : Sound next := by
  cases step_cases taken with
  | arrive => exact sound.of_same _ state.notify
  | passOn _ sent => exact (sound.of_same _ state.notify).onMessageNotification sent
  | returned => exact sound.of_same none state.notify
  | notification _ sent => exact sound.onMessageNotification sent
  | quit => exact ⟨sound.kept.sendQuit _, sound.staged, sound.sizes⟩
  | receive receiving found => exact sound.receive receiving found
  | nothingWaiting receiving =>
      have staged := sound.staged
      rw [Staged, receiving] at staged
      exact ⟨sound.kept.proceed true, staged_proceed (Nat.le_of_lt staged.1) staged.2.2,
        (proceed_handled true state).1 ▸ sound.sizes⟩
  | processBatch submitted => exact sound.processBatch submitted _
  | regService => exact sound.of_same state.callback _

end Receiver

/-! ## What is processed -/

namespace ReceiverEvent

/-- The events that concern the filter and the registrations. -/
def notifyEvents : ReceiverEvent → List Event
  | .processBatch now deliveries => [.batch now deliveries]
  | .regService parts conn => [.regService parts conn]
  | _ => []

/-- The bodies of a batch. -/
def batches : ReceiverEvent → List (List Bytes)
  | .processBatch _ deliveries => [deliveries.map Delivery.body]
  | _ => []

end ReceiverEvent

namespace Receiver

/-- The bodies of the batches that have been handled. -/
def handledBodies (state : Receiver κ) : List (List Bytes) :=
  state.handled.map fun batch => batch.map Notice.body

variable [DecidableEq κ]

/-- What the step is for the state of `process_notifications`. -/
structure Processes (env : Env π κ) (state : Receiver κ) (event : ReceiverEvent)
    (next : Receiver κ) : Prop where
  notify : Run.exec (Notify.step env) state.notify event.notifyEvents = some next.notify
  handled : next.handledBodies = state.handledBodies ++ event.batches

theorem processes_of_same {env : Env π κ} {state next : Receiver κ} {event : ReceiverEvent}
    (same : next.handled = state.handled ∧ next.notify = state.notify)
    (silent : event.notifyEvents = []) (none : event.batches = []) :
    Processes env state event next where
  notify := by
    rw [silent, same.2]
    rfl
  handled := by rw [handledBodies, handledBodies, same.1, none, List.append_nil]

theorem Sound.processes {env : Env π κ} {pipe : Pipe} {loop : Thread}
    {state next : Receiver κ} {event : ReceiverEvent} (sound : Sound state)
    (taken : state.step env pipe loop event = some next) : Processes env state event next := by
  cases step_cases taken with
  | arrive => exact processes_of_same ⟨rfl, rfl⟩ rfl rfl
  | passOn _ sent => exact processes_of_same (onMessageNotification_eq_some sent).2.2.2 rfl rfl
  | returned => exact processes_of_same ⟨rfl, rfl⟩ rfl rfl
  | notification _ sent =>
      exact processes_of_same (onMessageNotification_eq_some sent).2.2.2 rfl rfl
  | quit => exact processes_of_same ⟨rfl, rfl⟩ rfl rfl
  | @receive thread _ _ rest =>
      exact processes_of_same (onCommand_handled _ (state.take thread rest)) rfl rfl
  | nothingWaiting => exact processes_of_same (proceed_handled true state) rfl rfl
  | @processBatch now deliveries wait submitted _ later same =>
      have staged := sound.staged
      rw [Staged, submitted] at staged
      have count : deliveries.length = state.process.length := by
        rw [← sound.kept.length_held, ← List.length_map (f := Delivery.body), same,
          List.length_map]
      have sized : state.notify.clock ≤ now ∧ 1 ≤ deliveries.length ∧
          deliveries.length ≤ maxBatch := by
        rw [count]
        exact ⟨later, List.length_pos_iff.mpr staged.1, staged.2.1⟩
      constructor
      · simp only [ReceiverEvent.notifyEvents, Run.exec, Notify.step, if_pos sized]
        rfl
      · simp [handledBodies, ReceiverEvent.batches, same]
  | regService => exact ⟨rfl, (List.append_nil _).symm⟩

/-- What a run has made of the messages that were sent to the server. -/
structure Receives (env : Env π κ) (started : Int) (events : List ReceiverEvent)
    (state : Receiver κ) : Prop where
  /-- For the filter and the services it is a run of `process_notifications`. -/
  notify : Run.exec (Notify.step env) (Notify.initial env started)
    (events.flatMap ReceiverEvent.notifyEvents) = some state.notify
  /-- Its batches hold the messages that count as handled. -/
  handled : state.handledBodies = events.flatMap ReceiverEvent.batches
  sizes : ∀ batch ∈ state.handled, 1 ≤ batch.length ∧ batch.length ≤ maxBatch
  /-- What a thread has sent is handled once, in order: first come the messages
  in batches, then those in hand and last those on their way. -/
  order : ∀ thread,
    ofThread thread (state.handled.flatten ++ state.dropped ++ state.held ++ state.underway) =
      ofThread thread state.sent
  /-- Only the end of the server drops messages. -/
  dropped : state.phase ≠ .closed → state.dropped = []
  /-- There is nothing in hand while `recv` waits. -/
  idle : state.phase = .receiving true → state.process = []
  /-- Addresses are those of objects, and each object has one owner. -/
  alive : ∀ ptr, (state.heap ptr).isSome ↔ ptr ∈ state.process ∨ ptr ∈ posted state.channel
  once : (state.process ++ posted state.channel).Nodup

/-- However the threads take turns, the processing thread gets each message once
and in order, and hands on batches as `process_notifications` expects them. -/
theorem receives_of_exec {env : Env π κ} {pipe : Pipe} {loop : Thread} {started : Int}
    {events : List ReceiverEvent} {state : Receiver κ}
    (run : Run.exec (step env pipe loop) (initial env started) events = some state) :
    Receives env started events state := by
  have sound : Sound state := Run.Reachable.invariant ⟨events, run⟩ (sound_initial env started)
    fun _ _ _ sound taken => sound.step taken
  have logged :
      Run.exec (fun log bodies => some (log ++ [bodies])) (initial env started).handledBodies
        (events.flatMap ReceiverEvent.batches) = some state.handledBodies :=
    Run.exec_flatMap_of_simulates handledBodies ReceiverEvent.batches Sound
      (sound_initial env started)
      (fun _ _ _ sound taken => ⟨sound.step taken,
        (Run.exec_log _ _).trans (congrArg some (sound.processes taken).handled.symm)⟩) run
  have staged := sound.staged
  rw [Staged] at staged
  refine ⟨?_, ?_, sound.sizes, sound.kept.order, ?_, ?_, sound.kept.alive, sound.kept.once⟩
  · exact Run.exec_flatMap_of_simulates notify ReceiverEvent.notifyEvents Sound
      (sound_initial env started)
      (fun _ _ _ sound taken => ⟨sound.step taken, (sound.processes taken).notify⟩) run
  · rw [Run.exec_log] at logged
    exact (Option.some.inj logged).symm
  · intro running
    split at staged
    · exact staged.2.2
    · exact staged.2.2
    · rename_i closed
      exact absurd closed running
  · intro waiting
    rw [waiting] at staged
    exact staged.2.1 rfl

/-- Addresses as the run of the witness takes them. -/
def samplePtr (index : UInt8) : Ptr :=
  FixedBytes.replicate 8 index

/-- The sockets that the server makes. -/
def sampleSocket : Pipe :=
  .highWaterMark 2000

/-- Two messages arrive while a third one comes in on thread `2`, and the
processing thread takes that one first. -/
def sampleEvents : List ReceiverEvent :=
  [.arrive [Sample.body, [100, 101]],
    .passOn (samplePtr 1),
    .notification 2 (samplePtr 2) Sample.body,
    .receive 2,
    .passOn (samplePtr 3),
    .returned,
    .receive 0,
    .receive 0,
    .nothingWaiting,
    .processBatch 5 [Sample.delivery, Sample.delivery, { Sample.delivery with body := [100, 101] }],
    .notification 2 (samplePtr 1) Sample.body,
    .quit 0,
    .receive 2,
    .receive 0]

theorem receives_of_exec_sampleEvents :
    ∃ state, Run.exec (step Sample.env sampleSocket 0) (initial Sample.env 0) sampleEvents = some state ∧
      state.handled.map (fun batch => batch.map Notice.sender) = [[2, 0, 0]] ∧
      state.dropped.map Notice.sender = [2] ∧
      Receives Sample.env 0 sampleEvents state := by
  have outcome : (Run.exec (step Sample.env sampleSocket 0) (initial Sample.env 0) sampleEvents).map
      (fun state => (state.handled.map (fun batch => batch.map Notice.sender),
        state.dropped.map Notice.sender)) = some ([[2, 0, 0]], [2]) := by
    decide +kernel
  obtain ⟨state, run, found⟩ := Option.map_eq_some_iff.mp outcome
  obtain ⟨handled, dropped⟩ := Prod.mk.inj found
  exact ⟨state, run, handled, dropped, receives_of_exec run⟩

end Receiver

end Spns.Notify
