import Spns.Notify.Filter
import Spns.Notify.WellFormed

/-!
# Routing notifications

What `process_notifications` is for, stated without its parser, its vectors and
its buffer: every well-formed notification of a batch goes to the registered
services of the matching subscriptions that the filter does not hold back, and
everything else is passed over.  The server sends exactly these pushes, and it
makes no difference to them which malformed bodies come in between and where
one batch ends and the next begins.
-/

namespace Spns.Notify

open Spns
open Spns.Lib
open Spns.Lib.Bencode
open Spns.Lib.Unordered
open Spns.Storage

variable {π κ : Type}

/-! ## What a push says -/

/-- The fields of a push message. -/
structure PushMessage where
  service : Bytes
  svcid : Bytes
  svcdata : Option Bytes
  encKey : EncKey
  hash : Bytes
  account : AccountID
  ns : Int
  timestampMs : Int
  expiryMs : Int
  data : Option Bytes

namespace PushMessage

/-- The message as a dictionary. -/
def entries (message : PushMessage) : List Entry :=
  [([], encodeString message.service)] ++
    optionalEntry 33 message.svcdata ++
    [([35], encodeString message.hash),
      ([38], encodeString message.svcid),
      ([64], encodeString message.account.val),
      ([94], encodeString message.encKey.val),
      ([110], encodeInt message.ns),
      ([116], encodeInt message.timestampMs),
      ([122], encodeInt message.expiryMs)] ++
    optionalEntry 126 message.data

/-- The bytes of the message. -/
def encode (message : PushMessage) : Bytes :=
  Producer.encodeDict message.entries

/-- An entry that is only there with a value. -/
def optionalContents (key : UInt8) (value : Option Bytes) (rest : Contents) : Contents :=
  match value with
  | none => rest
  | some text => .entry [key] (.string text) rest

/-- What the notifier finds in the message. -/
def contents (message : PushMessage) : Contents :=
  .entry [] (.string message.service) <|
  optionalContents 33 message.svcdata <|
  .entry [35] (.string message.hash) <|
  .entry [38] (.string message.svcid) <|
  .entry [64] (.string message.account.val) <|
  .entry [94] (.string message.encKey.val) <|
  .entry [110] (.integer message.ns) <|
  .entry [116] (.integer message.timestampMs) <|
  .entry [122] (.integer message.expiryMs) <|
  optionalContents 126 message.data .finished

theorem entries_optionalEntry (key : UInt8) (value : Option Bytes) (rest : Bytes) :
    Bencode.entries ((optionalEntry key value).flatMap Producer.encodeEntry ++ rest) =
      optionalContents key value (Bencode.entries rest) := by
  cases value with
  | none => rfl
  | some text =>
      simp only [optionalEntry, Option.map_some, Option.toList_some, List.flatMap_cons,
        List.flatMap_nil, List.append_nil]
      exact entries_string [key] text rest

/-- The fields can be read back from the bytes. -/
theorem dictContents_encode (message : PushMessage) :
    dictContents message.encode = some message.contents := by
  rw [encode, Producer.encodeDict, List.cons_append, dictContents, entries, contents]
  simp only [List.flatMap_append, List.flatMap_cons, List.flatMap_nil, List.append_assoc,
    List.append_nil, entries_string, entries_integer, entries_optionalEntry, entries_end]

theorem encode_injective : Function.Injective encode := by
  intro first second same
  have read : first.contents = second.contents := by
    apply Option.some.inj
    rw [← dictContents_encode, same, dictContents_encode]
  rcases first with ⟨service, svcid, svcdata, encKey, hash, account, ns, timestampMs, expiryMs, data⟩
  rcases second with ⟨_, _, otherSvcdata, _, _, _, _, _, _, otherData⟩
  cases svcdata <;> cases otherSvcdata <;> cases data <;> cases otherData <;>
    simp_all [contents, optionalContents, Subtype.ext_iff]

end PushMessage

/-- The message for a subscription: its own service data and key, and the
message data only if it asked for data. -/
def pushMessage (notification : Notification) (row : Row) : PushMessage where
  service := row.device.service
  svcid := row.device.svcid
  svcdata := row.data.svcdata
  encKey := row.data.encKey
  hash := notification.hash
  account := notification.account
  ns := notification.ns.val
  timestampMs := notification.timestampMs.val
  expiryMs := notification.expiryMs.val
  data := if row.data.wantData then notification.data.map Subtype.val else none

/-- A message and the connection that it goes to. -/
structure Push where
  conn : ConnectionId
  message : PushMessage

/-- The push on the wire. -/
def Push.wire (push : Push) : ConnectionId × Bytes :=
  (push.conn, push.message.encode)

theorem Push.wire_injective : Function.Injective Push.wire := by
  rintro ⟨conn, message⟩ ⟨otherConn, otherMessage⟩ same
  obtain ⟨conns, bytes⟩ := Prod.mk.inj same
  rw [Push.mk.injEq]
  exact ⟨conns, PushMessage.encode_injective bytes⟩

/-! ## The reference semantics -/

/-- The pushes for the subscriptions that a notification matches, with the keys
of the filter before and after. -/
inductive Offers (env : Env π κ) (services : Map Bytes ConnectionId)
    (notification : Notification) : Set κ → List Row → List Push → Set κ → Prop
  | done (seen : Set κ) : Offers env services notification seen [] [] seen
  | filtered {seen after : Set κ} {row : Row} {rows : List Row} {pushes : List Push}
      (known : filterKey env (rowTriple notification row) ∈ seen)
      (rest : Offers env services notification seen rows pushes after) :
      Offers env services notification seen (row :: rows) pushes after
  | unregistered {seen after : Set κ} {row : Row} {rows : List Row} {pushes : List Push}
      (fresh : filterKey env (rowTriple notification row) ∉ seen)
      (absent : services.lookup row.device.service = none)
      (rest : Offers env services notification
        (insert (filterKey env (rowTriple notification row)) seen) rows pushes after) :
      Offers env services notification seen (row :: rows) pushes after
  | pushed {seen after : Set κ} {row : Row} {rows : List Row} {pushes : List Push}
      {conn : ConnectionId}
      (fresh : filterKey env (rowTriple notification row) ∉ seen)
      (present : services.lookup row.device.service = some conn)
      (rest : Offers env services notification
        (insert (filterKey env (rowTriple notification row)) seen) rows pushes after) :
      Offers env services notification seen (row :: rows)
        (⟨conn, pushMessage notification row⟩ :: pushes) after

/-- The pushes for the bodies of a batch. -/
inductive Routes (env : Env π κ) (reading : env.dict.Reading)
    (services : Map Bytes ConnectionId) : Set κ → List Delivery → List Push → Set κ → Prop
  | done (seen : Set κ) : Routes env reading services seen [] [] seen
  | malformed {seen after : Set κ} {delivery : Delivery} {batch : List Delivery}
      {pushes : List Push}
      (unread : ∀ notification, ¬reading.WellFormed delivery.body notification)
      (rest : Routes env reading services seen batch pushes after) :
      Routes env reading services seen (delivery :: batch) pushes after
  | wellFormed {seen middle after : Set κ} {delivery : Delivery} {batch : List Delivery}
      {notification : Notification} {pushes later : List Push}
      (read : reading.WellFormed delivery.body notification)
      (offers : Offers env services notification seen
        (matchingRows delivery.tables notification.account notification.ns.val) pushes middle)
      (rest : Routes env reading services middle batch later after) :
      Routes env reading services seen (delivery :: batch) (pushes ++ later) after

theorem Offers.functional {env : Env π κ} {services : Map Bytes ConnectionId}
    {notification : Notification} {seen after other : Set κ} {rows : List Row}
    {pushes others : List Push} (first : Offers env services notification seen rows pushes after)
    (second : Offers env services notification seen rows others other) :
    pushes = others ∧ after = other := by
  induction first generalizing others other with
  | done seen =>
      cases second
      exact ⟨rfl, rfl⟩
  | filtered known rest ih =>
      cases second with
      | filtered _ more => exact ih more
      | unregistered fresh _ _ => exact absurd known fresh
      | pushed fresh _ _ => exact absurd known fresh
  | unregistered fresh absent rest ih =>
      cases second with
      | filtered known _ => exact absurd known fresh
      | unregistered _ _ more => exact ih more
      | pushed _ present _ =>
          rw [absent] at present
          contradiction
  | pushed fresh present rest ih =>
      cases second with
      | filtered known _ => exact absurd known fresh
      | unregistered _ absent _ =>
          rw [present] at absent
          contradiction
      | pushed _ same more =>
          cases Option.some.inj (present.symm.trans same)
          obtain ⟨rfl, rfl⟩ := ih more
          exact ⟨rfl, rfl⟩

theorem Offers.append {env : Env π κ} {services : Map Bytes ConnectionId}
    {notification : Notification} {seen middle after : Set κ} {first second : List Row}
    {pushes later : List Push} (before : Offers env services notification seen first pushes middle)
    (behind : Offers env services notification middle second later after) :
    Offers env services notification seen (first ++ second) (pushes ++ later) after := by
  induction before with
  | done seen => exact behind
  | filtered known rest ih => exact .filtered known (ih behind)
  | unregistered fresh absent rest ih => exact .unregistered fresh absent (ih behind)
  | pushed fresh present rest ih => exact .pushed fresh present (ih behind)

theorem Routes.functional {env : Env π κ} {reading : env.dict.Reading}
    {services : Map Bytes ConnectionId} {seen after other : Set κ} {batch : List Delivery}
    {pushes others : List Push} (first : Routes env reading services seen batch pushes after)
    (second : Routes env reading services seen batch others other) :
    pushes = others ∧ after = other := by
  induction first generalizing others other with
  | done seen =>
      cases second
      exact ⟨rfl, rfl⟩
  | malformed unread rest ih =>
      cases second with
      | malformed _ more => exact ih more
      | wellFormed read _ _ => exact absurd read (unread _)
  | wellFormed read offers rest ih =>
      cases second with
      | malformed unread _ => exact absurd read (unread _)
      | wellFormed again offered more =>
          have same := (parseNotification_eq_ok_iff reading _ _).mpr read
          rw [(parseNotification_eq_ok_iff reading _ _).mpr again] at same
          cases same
          obtain ⟨rfl, rfl⟩ := offers.functional offered
          obtain ⟨rfl, rfl⟩ := ih more
          exact ⟨rfl, rfl⟩

theorem Routes.append {env : Env π κ} {reading : env.dict.Reading}
    {services : Map Bytes ConnectionId} {seen middle after : Set κ} {first second : List Delivery}
    {pushes later : List Push} (before : Routes env reading services seen first pushes middle)
    (behind : Routes env reading services middle second later after) :
    Routes env reading services seen (first ++ second) (pushes ++ later) after := by
  induction before with
  | done seen => exact behind
  | malformed unread rest ih => exact .malformed unread (ih behind)
  | wellFormed read offers rest ih =>
      rw [List.append_assoc]
      exact .wellFormed read offers (ih behind)

/-! ## What the server sent -/

/-- The push of a decision. -/
def Decision.push (decision : Decision) : Option (ConnectionId × Bytes) :=
  match decision.verdict with
  | .sent conn message => some (conn, message)
  | _ => none

/-- The `notifier.push` messages so far, oldest first. -/
def State.pushes (state : State κ) : List (ConnectionId × Bytes) :=
  (state.trace.filterMap Decision.push).reverse

/-- The keys in the filter. -/
def State.seen (state : State κ) : Set κ :=
  { key | key ∈ state.filterRotate ∨ key ∈ state.filter }

/-- The services of the state have been registered by calls of `on_reg_service`;
the rest of it is arbitrary. -/
inductive State.Registered : State κ → Prop
  | start {state : State κ} (none : state.services = ∅) : state.Registered
  | call {state : State κ} (parts : List Bytes) (conn : ConnectionId)
      (before : state.Registered) : (onRegService parts conn state).Registered

theorem State.Registered.named {state : State κ} (registered : state.Registered) :
    ∀ service conn, state.services.lookup service = some conn → service.length ≤ 32 := by
  induction registered with
  | start none =>
      intro service conn found
      rw [none] at found
      cases found
  | call parts conn before ih => exact named_onRegService ih

theorem pushes_decide_sent (state : State κ) (triple : Triple) (conn : ConnectionId)
    (message : Bytes) :
    (state.decide triple (.sent conn message)).pushes = state.pushes ++ [(conn, message)] := by
  rw [State.pushes, State.decide, List.filterMap_cons]
  exact List.reverse_cons

theorem pushes_decide_unsent (state : State κ) (triple : Triple) {verdict : Verdict}
    (unsent : Decision.push ⟨state.clock, triple, verdict⟩ = none) :
    (state.decide triple verdict).pushes = state.pushes := by
  rw [State.pushes, State.decide, List.filterMap_cons, unsent]
  rfl

theorem seen_remember (state : State κ) (key : κ) :
    (state.remember key).seen = insert key state.seen := by
  ext other
  change other ∈ state.filterRotate ∨ other ∈ key :: state.filter ↔
    other = key ∨ other ∈ state.filterRotate ∨ other ∈ state.filter
  rw [List.mem_cons]
  exact or_left_comm

variable [DecidableEq κ]

theorem filtered_iff_mem_seen (state : State κ) (key : κ) :
    state.filtered key = true ↔ key ∈ state.seen := by
  rw [State.filtered, decide_eq_true_eq]
  rfl

/-- The server went on from `state` to `next` and sent these pushes. -/
structure Adds (state next : State κ) (pushes : List Push) : Prop where
  services : next.services = state.services
  rotateTime : next.filterRotateTime = state.filterRotateTime
  pushes : next.pushes = state.pushes ++ pushes.map Push.wire

omit [DecidableEq κ] in
theorem Adds.refl (state : State κ) : Adds state state [] :=
  ⟨rfl, rfl, (List.append_nil _).symm⟩

omit [DecidableEq κ] in
theorem Adds.trans {state middle next : State κ} {pushes later : List Push}
    (first : Adds state middle pushes) (second : Adds middle next later) :
    Adds state next (pushes ++ later) := by
  constructor
  · exact second.services.trans first.services
  · exact second.rotateTime.trans first.rotateTime
  · rw [second.pushes, first.pushes, List.map_append, List.append_assoc]

/-- One subscription of a notification. -/
theorem processRow_offers (env : Env π κ) {state : State κ} (notification : Notification)
    (named : ∀ service conn, state.services.lookup service = some conn → service.length ≤ 32)
    {row : Row} (sized : Sized row) (bufSize : Nat) :
    ∃ pushes, Offers env state.services notification state.seen [row] pushes
        (processRow env notification (state, bufSize) row).1.seen ∧
      Adds state (processRow env notification (state, bufSize) row).1 pushes := by
  have seen := filtered_iff_mem_seen state (filterKey env (rowTriple notification row))
  have remembered := seen_remember state (filterKey env (rowTriple notification row))
  cases known : state.filtered (filterKey env (rowTriple notification row)) with
  | true =>
      have after : (processRow env notification (state, bufSize) row).1 =
          state.decide (rowTriple notification row) .duplicate := by
        simp [processRow, known]
      rw [after]
      refine ⟨[], .filtered (seen.mp known) (.done _), rfl, rfl, ?_⟩
      rw [pushes_decide_unsent _ _ rfl]
      exact (List.append_nil _).symm
  | false =>
      have fresh : filterKey env (rowTriple notification row) ∉ state.seen := by
        intro member
        rw [seen.mpr member] at known
        contradiction
      cases found : state.services.lookup row.device.service with
      | none =>
          have after : (processRow env notification (state, bufSize) row).1 =
              (state.remember (filterKey env (rowTriple notification row))).decide
                (rowTriple notification row) .unregistered := by
            simp [processRow, known, found, State.remember]
          rw [after]
          refine ⟨[], .unregistered fresh found ?_, rfl, rfl, ?_⟩
          · rw [← remembered]
            exact .done _
          · rw [pushes_decide_unsent _ _ rfl]
            exact (List.append_nil _).symm
      | some conn =>
          obtain ⟨message, built⟩ := Option.isSome_iff_exists.mp
            (build_pushEntries_isSome bufSize notification sized (named _ conn found))
          have exactly : message = (pushMessage notification row).encode :=
            Producer.eq_encodeDict_of_build built
          have after : (processRow env notification (state, bufSize) row).1 =
              (state.remember (filterKey env (rowTriple notification row))).decide
                (rowTriple notification row) (.sent conn message) := by
            simp [processRow, known, found, built, State.remember]
          rw [after]
          refine ⟨[⟨conn, pushMessage notification row⟩], .pushed fresh found ?_, rfl, rfl, ?_⟩
          · rw [← remembered]
            exact .done _
          · rw [pushes_decide_sent, exactly]
            rfl

/-- The loop over the subscriptions of a notification. -/
theorem foldl_processRow_offers (env : Env π κ) {state : State κ} (notification : Notification)
    (named : ∀ service conn, state.services.lookup service = some conn → service.length ≤ 32)
    {rows : List Row} (sized : ∀ row ∈ rows, Sized row) (bufSize : Nat) :
    ∃ pushes, Offers env state.services notification state.seen rows pushes
        (rows.foldl (processRow env notification) (state, bufSize)).1.seen ∧
      Adds state (rows.foldl (processRow env notification) (state, bufSize)).1 pushes := by
  induction rows generalizing state bufSize with
  | nil => exact ⟨[], .done _, .refl state⟩
  | cons row rows ih =>
      obtain ⟨pushes, offers, adds⟩ :=
        processRow_offers env notification named (sized row List.mem_cons_self) bufSize
      rw [← adds.services] at named
      obtain ⟨later, more, further⟩ := ih named
        (fun other member => sized other (List.mem_cons_of_mem row member))
        (processRow env notification (state, bufSize) row).2
      rw [adds.services] at more
      exact ⟨pushes ++ later, offers.append more, adds.trans further⟩

/-- The loop over the bodies of a batch.  The size of the buffer that earlier
messages have left behind is not a part of the result. -/
theorem foldl_processMessage_routes {env : Env π κ} (reading : env.dict.Reading)
    {state : State κ}
    (named : ∀ service conn, state.services.lookup service = some conn → service.length ≤ 32)
    (batch : List Delivery) (bufSize : Nat) :
    ∃ pushes, Routes env reading state.services state.seen batch pushes
        (batch.foldl (processMessage env) (state, bufSize)).1.seen ∧
      Adds state (batch.foldl (processMessage env) (state, bufSize)).1 pushes := by
  induction batch generalizing state bufSize with
  | nil => exact ⟨[], .done _, .refl state⟩
  | cons delivery batch ih =>
      rw [List.foldl_cons]
      cases read : parseNotification env.dict delivery.body with
      | error text =>
          have same : processMessage env (state, bufSize) delivery = (state, bufSize) := by
            rw [processMessage, read]
          obtain ⟨pushes, routes, adds⟩ := ih named bufSize
          rw [same]
          refine ⟨pushes, .malformed ?_ routes, adds⟩
          intro notification wellFormed
          rw [(parseNotification_eq_ok_iff reading _ _).mpr wellFormed] at read
          contradiction
      | ok notification =>
          have rows : processMessage env (state, bufSize) delivery =
              (matchingRows delivery.tables notification.account notification.ns.val).foldl
                (processRow env notification) (state, bufSize) := by
            rw [processMessage, read]
          have sized : ∀ row ∈ matchingRows delivery.tables notification.account
              notification.ns.val, Sized row :=
            fun row matching => delivery.sized row (List.mem_filter.mp matching).1
          obtain ⟨pushes, offers, adds⟩ :=
            foldl_processRow_offers env notification named sized bufSize
          rw [← rows] at offers adds
          rw [← adds.services] at named
          obtain ⟨later, routes, further⟩ :=
            ih named (processMessage env (state, bufSize) delivery).2
          rw [adds.services] at routes
          have wellFormed := (parseNotification_eq_ok_iff reading _ _).mp read
          exact ⟨pushes ++ later, .wellFormed wellFormed offers routes, adds.trans further⟩

omit [DecidableEq κ] in
theorem services_rotate (env : Env π κ) (now : Int) (state : State κ) :
    (state.rotate env now).services = state.services := by
  rw [State.rotate]
  split <;> rfl

omit [DecidableEq κ] in
theorem pushes_rotate (env : Env π κ) (now : Int) (state : State κ) :
    (state.rotate env now).pushes = state.pushes := by
  rw [State.rotate]
  split <;> rfl

omit [DecidableEq κ] in
theorem rotate_of_lt {env : Env π κ} {now : Int} {state : State κ}
    (early : now < state.filterRotateTime) :
    state.rotate env now = { state with clock := now } := by
  rw [State.rotate, if_neg (not_le.mpr early)]

/-- One batch, after the rotation at its start. -/
theorem processBatch_routes {env : Env π κ} (reading : env.dict.Reading) {state : State κ}
    (named : ∀ service conn, state.services.lookup service = some conn → service.length ≤ 32)
    (now : Int) (batch : List Delivery) :
    ∃ pushes, Routes env reading state.services (state.rotate env now).seen batch pushes
        (processBatch env now batch state).seen ∧
      Adds (state.rotate env now) (processBatch env now batch state) pushes := by
  have same := services_rotate env now state
  rw [← same] at named ⊢
  exact foldl_processMessage_routes reading named batch 0

/-! ## Grouping into batches -/

/-- One batch after the other, each with its time. -/
def processBatches (env : Env π κ) (batches : List (Int × List Delivery)) (state : State κ) :
    State κ :=
  batches.foldl (fun state batch => processBatch env batch.1 batch.2 state) state

/-- Batches without a rotation in between are routed as one. -/
theorem processBatches_routes {env : Env π κ} (reading : env.dict.Reading) {state : State κ}
    (named : ∀ service conn, state.services.lookup service = some conn → service.length ≤ 32)
    {batches : List (Int × List Delivery)}
    (early : ∀ batch ∈ batches, batch.1 < state.filterRotateTime) :
    ∃ pushes, Routes env reading state.services state.seen (batches.flatMap Prod.snd) pushes
        (processBatches env batches state).seen ∧
      Adds state (processBatches env batches state) pushes := by
  induction batches generalizing state with
  | nil => exact ⟨[], .done _, .refl state⟩
  | cons batch batches ih =>
      obtain ⟨pushes, routes, adds⟩ := processBatch_routes reading named batch.1 batch.2
      rw [rotate_of_lt (early batch List.mem_cons_self)] at routes adds
      have begins : Adds state (processBatch env batch.1 batch.2 state) pushes :=
        ⟨adds.services, adds.rotateTime, adds.pushes⟩
      rw [← begins.services] at named
      have still : ∀ other ∈ batches,
          other.1 < (processBatch env batch.1 batch.2 state).filterRotateTime := by
        intro other member
        rw [begins.rotateTime]
        exact early other (List.mem_cons_of_mem batch member)
      obtain ⟨later, more, further⟩ := ih named still
      rw [begins.services] at more
      exact ⟨pushes ++ later, routes.append more, begins.trans further⟩

/-- The events of a run as the loop thread handles them. -/
def handle (env : Env π κ) (state : State κ) : Event → State κ
  | .batch now deliveries => processBatch env now deliveries state
  | .regService parts conn => onRegService parts conn state

open Classical in
/-- The event without the malformed bodies. -/
noncomputable def wellFormedOnly {env : Env π κ} (reading : env.dict.Reading) : Event → Event
  | .batch now deliveries =>
      .batch now (deliveries.filter fun delivery =>
        ∃ notification, reading.WellFormed delivery.body notification)
  | .regService parts conn => .regService parts conn

/-- A malformed body leaves everything as it was, the buffer included. -/
theorem processMessage_malformed {env : Env π κ} (reading : env.dict.Reading)
    (state : State κ × Nat) {delivery : Delivery}
    (malformed : ¬∃ notification, reading.WellFormed delivery.body notification) :
    processMessage env state delivery = state := by
  rw [processMessage]
  cases read : parseNotification env.dict delivery.body with
  | error text => rfl
  | ok notification =>
      exact absurd ⟨notification, (parseNotification_eq_ok_iff reading _ _).mp read⟩ malformed

theorem handle_wellFormedOnly {env : Env π κ} (reading : env.dict.Reading) (state : State κ)
    (event : Event) : handle env state (wellFormedOnly reading event) = handle env state event := by
  cases event with
  | regService parts conn => rfl
  | batch now deliveries =>
      simp only [wellFormedOnly, handle, processBatch]
      generalize (state.rotate env now, 0) = before
      induction deliveries generalizing before with
      | nil => rfl
      | cons delivery deliveries ih =>
          rw [List.filter_cons]
          split_ifs with wellFormed
          · exact ih _
          · rw [List.foldl_cons, processMessage_malformed reading before (by simpa using wellFormed)]
            exact ih before

theorem foldl_handle_wellFormedOnly {env : Env π κ} (reading : env.dict.Reading)
    (state : State κ) (events : List Event) :
    (events.map (wellFormedOnly reading)).foldl (handle env) state =
      events.foldl (handle env) state := by
  induction events generalizing state with
  | nil => rfl
  | cons event events ih =>
      rw [List.map_cons, List.foldl_cons, List.foldl_cons, handle_wellFormedOnly]
      exact ih (handle env state event)

/-- Exact routing.  Whatever the bodies, the tables, the filter and the
registered services, a batch sends the pushes of the reference semantics in
their order and leaves its filter.  Cutting the batch into several, with no
rotation in between, changes neither.  In every run of batches and
registrations, all the malformed bodies can be left out without any
difference. -/
theorem routing_exact (env : Env π κ) (reading : env.dict.Reading) (state : State κ)
    (registered : state.Registered) (now : Int) (batch : List Delivery) :
    (∀ pushes after,
      Routes env reading state.services (state.rotate env now).seen batch pushes after ↔
        (processBatch env now batch state).pushes = state.pushes ++ pushes.map Push.wire ∧
          (processBatch env now batch state).seen = after) ∧
    (∀ others : List (Int × List Delivery),
      (∀ other ∈ others, other.1 < (state.rotate env now).filterRotateTime) →
        (processBatches env ((now, batch) :: others) state).pushes =
            (processBatch env now (batch ++ others.flatMap Prod.snd) state).pushes ∧
          (processBatches env ((now, batch) :: others) state).seen =
            (processBatch env now (batch ++ others.flatMap Prod.snd) state).seen) ∧
    ∀ events : List Event,
      (events.map (wellFormedOnly reading)).foldl (handle env) state =
        events.foldl (handle env) state := by
  have named := registered.named
  obtain ⟨sent, routes, adds⟩ := processBatch_routes reading named now batch
  have said : (processBatch env now batch state).pushes = state.pushes ++ sent.map Push.wire := by
    rw [adds.pushes, pushes_rotate]
  refine ⟨?_, ?_, foldl_handle_wellFormedOnly reading state⟩
  · intro pushes after
    constructor
    · intro given
      obtain ⟨rfl, rfl⟩ := given.functional routes
      exact ⟨said, rfl⟩
    · rintro ⟨same, rfl⟩
      have wires : sent.map Push.wire = pushes.map Push.wire :=
        List.append_cancel_left (said.symm.trans same)
      rw [← List.map_injective_iff.mpr Push.wire_injective wires]
      exact routes
  · intro others early
    rw [← adds.rotateTime] at early
    have kept : (processBatch env now batch state).services = state.services :=
      adds.services.trans (services_rotate env now state)
    obtain ⟨later, more, further⟩ := processBatches_routes reading (kept ▸ named) early
    rw [kept] at more
    obtain ⟨all, together, whole⟩ :=
      processBatch_routes reading named now (batch ++ others.flatMap Prod.snd)
    obtain ⟨same, seen⟩ := (routes.append more).functional together
    constructor
    · exact (adds.trans further).pushes.trans (same ▸ whole.pushes.symm)
    · exact seen

/-- The sample service has registered and nothing has arrived yet. -/
def registeredState : State Bytes :=
  onRegService [Sample.service] 7 (initial Sample.env 0)

theorem sampleHash_min : msgHashMinSize ≤ (List.replicate 32 98 : Bytes).length := by decide

theorem sampleHash_max : (List.replicate 32 98 : Bytes).length ≤ msgHashMaxSize := by decide

/-- The notification of the sample body. -/
def sampleNotification : Notification where
  account := Sample.account
  hash := List.replicate 32 98
  ns := ⟨0, by decide⟩
  timestampMs := ⟨1700000000000, by decide⟩
  expiryMs := ⟨1700001000000, by decide⟩
  data := none
  minSize := sampleHash_min
  maxSize := sampleHash_max

/-- The sample notification between a body that breaks off and a repeat. -/
def garbledBatch : List Delivery :=
  [{ Sample.delivery with body := [100, 49] }, Sample.delivery, Sample.delivery]

theorem garbledBatch_routed :
    ∃ after, Routes Sample.env Sample.reading registeredState.services
      (registeredState.rotate Sample.env 10).seen garbledBatch
      [⟨7, pushMessage sampleNotification Sample.row⟩] after := by
  have registered : registeredState.Registered := .call [Sample.service] 7 (.start rfl)
  have sent : (processBatch Sample.env 10 garbledBatch registeredState).pushes =
      registeredState.pushes ++
        [Push.wire ⟨7, pushMessage sampleNotification Sample.row⟩] := by
    decide +kernel
  have exactly := routing_exact Sample.env Sample.reading registeredState registered 10 garbledBatch
  exact ⟨_, (exactly.1 _ _).mpr ⟨sent, rfl⟩⟩

end Spns.Notify
