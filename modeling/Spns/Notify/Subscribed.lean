import Spns.Notify.Routing
import Spns.Storage.Serial

/-!
# Subscriptions and notifications on one database

Requests change the database on their own threads while the loop thread works
through batches of notifications, one query for each.  A transaction is one
event here: no two of them overlap, but they come between any two queries, also
within one batch.

What a device has asked for last decides what is sent to it: a push goes to
exactly the devices with a request in force, and what a removal, a drop or a
cleanup has taken away is never used again.
-/

namespace Spns.Notify

open Spns
open Spns.Lib
open Spns.Lib.Bencode
open Spns.Lib.Replay
open Spns.Lib.Unordered
open Spns.Storage

variable {π κ : Type}

/-! ## The system -/

/-- The strings of a request fit the address space. -/
def SizedCall : Call → Prop
  | .addSubscription request =>
      request.serviceId.length < 2 ^ 64 ∧
        ∀ serviceData ∈ request.serviceData, serviceData.length < 2 ^ 64
  | _ => True

/-- The database and the part of the server that processes notifications. -/
structure Server (κ : Type) where
  db : Database
  sound : db.Sound
  sized : ∀ row ∈ db.tables.subscriptions, Sized row
  notify : State κ
  /-- The size of the message buffer, while a batch is processed. -/
  batch : Option Nat

inductive ServerEvent
  /-- A transaction of another thread, from its first statement to the commit. -/
  | transaction (call : Call) (sized : SizedCall call)
  | regService (parts : List Bytes) (conn : ConnectionId)
  | beginBatch (now : Int)
  /-- The next notification of the batch. -/
  | message (body : Bytes)
  | endBatch

/-- What a call leaves at a device, given what was there. -/
theorem contents_run {db : Database} (sound : db.Sound) (call : Call) (device : Device) :
    (call.run db).1.tables.contents device = call.op.act device (db.tables.contents device) :=
  congrFun (call.run_outcome sound).2.1 device

/-- Rows stay within the address space, because requests are. -/
theorem sized_run {db : Database} (sound : db.Sound)
    (sized : ∀ row ∈ db.tables.subscriptions, Sized row) {call : Call} (given : SizedCall call) :
    ∀ row ∈ (call.run db).1.tables.subscriptions, Sized row := by
  intro row member
  have stored := (call.run_outcome sound).1.valid.contents_eq_some member
  rw [contents_run sound] at stored
  have earlier : ∀ {value : Stored}, db.tables.contents row.device = some value →
      value.data = row.data → Sized row := by
    intro value found same
    obtain ⟨old, present, rfl⟩ := Option.map_eq_some_iff.mp found
    obtain ⟨inside, device⟩ := sound.valid.rowAt_eq_some_iff.mp present
    obtain ⟨svcid, svcdata⟩ := sized old inside
    exact ⟨device ▸ svcid, same ▸ svcdata⟩
  cases call with
  | addSubscription request =>
      simp only [Call.op, Op.act] at stored
      split at stored
      case isTrue here =>
        have data : request.data = row.data := congrArg Stored.data (Option.some.inj stored)
        rw [Sized, here, ← data]
        exact given
      case isFalse => exact earlier stored rfl
  | removeSubscription target => exact earlier (Option.filter_eq_some_iff.mp stored).1 rfl
  | dropRegistrations service svcids => exact earlier (Option.filter_eq_some_iff.mp stored).1 rfl
  | dbCleanup cutoff => exact earlier (Option.filter_eq_some_iff.mp stored).1 rfl

namespace Server

/-- A server that is started on an empty database. -/
def initial (env : Env π κ) (now : Int) : Server κ where
  db := Database.empty
  sound := Database.empty_sound
  sized := fun _ member => absurd member List.not_mem_nil
  notify := Notify.initial env now
  batch := none

/-- What the device has stored. -/
def contents (server : Server κ) (device : Device) : Option Stored :=
  server.db.tables.contents device

/-- A message as it meets the database. -/
def delivery (server : Server κ) (body : Bytes) : Delivery :=
  ⟨body, server.db.tables, server.sized⟩

variable [DecidableEq κ]

/-- One event.  The loop thread handles a batch as a whole, and the steady
clock does not go back. -/
def step (env : Env π κ) (server : Server κ) : ServerEvent → Option (Server κ)
  | .transaction call sized =>
      some { server with
        db := (call.run server.db).1
        sound := (call.run_outcome server.sound).1
        sized := sized_run server.sound server.sized sized }
  | .regService parts conn =>
      match server.batch with
      | none => some { server with notify := onRegService parts conn server.notify }
      | some _ => none
  | .beginBatch now =>
      match server.batch with
      | none =>
          if server.notify.clock ≤ now then
            some { server with notify := server.notify.rotate env now, batch := some 0 }
          else none
      | some _ => none
  | .message body =>
      match server.batch with
      | none => none
      | some bufSize =>
          let (notify, bufSize) := processMessage env (server.notify, bufSize) (server.delivery body)
          some { server with notify := notify, batch := some bufSize }
  | .endBatch =>
      match server.batch with
      | none => none
      | some _ => some { server with batch := none }

end Server

/-! ## Requests in force -/

/-- The committed transactions of a run, in order. -/
def calls (events : List ServerEvent) : List Call :=
  events.filterMap fun
    | .transaction call _ => some call
    | _ => none

theorem calls_append (first second : List ServerEvent) :
    calls (first ++ second) = calls first ++ calls second :=
  List.filterMap_append

/-- The request was committed, and nothing since then has replaced or deleted
what it stored. -/
def Current (log : List Call) (request : AddRequest) : Prop :=
  InForce Call.op request.device request.stored (.addSubscription request) log

/-- A device has at most one current request. -/
theorem Current.unique {log : List Call} {request other : AddRequest}
    (first : Current log request) (second : Current log other)
    (same : request.device = other.device) : request = other := by
  rw [Current, ← same] at second
  exact Call.addSubscription.inj (InForce.unique first second).1

/-- What the tables have for a device is what its current request stored. -/
theorem exists_current {log : List Call} {device : Device} {stored : Stored}
    (found : replayAt Call.op device none log = some stored) :
    ∃ request, Current log request ∧ request.device = device ∧ request.stored = stored := by
  obtain ⟨call, before, after, split, puts, spared⟩ := (replayAt_eq_some_iff log stored).mp found
  cases call with
  | addSubscription request =>
      obtain ⟨rfl, rfl⟩ := Op.put.inj puts
      exact ⟨request, ⟨before, after, split, puts, spared⟩, rfl, rfl⟩
  | removeSubscription target => cases puts
  | dropRegistrations service svcids => cases puts
  | dbCleanup cutoff => cases puts

/-- The push message that a request asks for. -/
def requestedMessage (notification : Notification) (request : AddRequest) : PushMessage where
  service := request.service
  svcid := request.serviceId
  svcdata := request.serviceData
  encKey := request.encKey
  hash := notification.hash
  account := notification.account
  ns := notification.ns.val
  timestampMs := notification.timestampMs.val
  expiryMs := notification.expiryMs.val
  data := if request.sub.wantData then notification.data.map Subtype.val else none

/-- The request asks for the notification. -/
def AsksFor (notification : Notification) (request : AddRequest) : Prop :=
  request.pubkey.id = notification.account ∧ notification.ns.val ∈ request.sub.namespaces

/-- A request as a row; the surrogate id is of no interest. -/
def requestedRow (request : AddRequest) : Row :=
  ⟨0, request.device, request.data⟩

/-- A row without its surrogate id. -/
def unnumbered (row : Row) : Row :=
  { row with id := 0 }

/-- The surrogate ids of rows have no influence on what is sent. -/
theorem Offers.unnumbered {env : Env π κ} {services : Map Bytes ConnectionId}
    {notification : Notification} {seen after : Set κ} {rows : List Row} {pushes : List Push}
    (offers : Offers env services notification seen rows pushes after) :
    Offers env services notification seen (rows.map unnumbered) pushes after := by
  induction offers with
  | done seen => exact .done seen
  | filtered known rest ih => exact .filtered known ih
  | unregistered fresh absent rest ih => exact .unregistered fresh absent ih
  | pushed fresh present rest ih => exact .pushed fresh present ih

/-- What is pushed comes from one of the rows. -/
theorem Offers.origin {env : Env π κ} {services : Map Bytes ConnectionId}
    {notification : Notification} {seen after : Set κ} {rows : List Row} {pushes : List Push}
    (offers : Offers env services notification seen rows pushes after) {push : Push}
    (sent : push ∈ pushes) : ∃ row ∈ rows, push.message = pushMessage notification row ∧
      services.lookup row.device.service = some push.conn := by
  induction offers with
  | done seen => exact absurd sent List.not_mem_nil
  | filtered known rest ih =>
      obtain ⟨row, member, found⟩ := ih sent
      exact ⟨row, List.mem_cons_of_mem _ member, found⟩
  | unregistered fresh absent rest ih =>
      obtain ⟨row, member, found⟩ := ih sent
      exact ⟨row, List.mem_cons_of_mem _ member, found⟩
  | pushed fresh present rest ih =>
      rcases List.mem_cons.mp sent with rfl | later
      · exact ⟨_, List.mem_cons_self, rfl, present⟩
      · obtain ⟨row, member, found⟩ := ih later
        exact ⟨row, List.mem_cons_of_mem _ member, found⟩

/-! ## Rows and requests -/

theorem mem_namespacesOf_iff (tables : Tables) (id : Nat) (ns : Int) :
    ns ∈ tables.namespacesOf id ↔ (id, ns) ∈ tables.subNamespaces := by
  rw [Tables.namespacesOf, List.mem_insertionSort]
  constructor
  · intro member
    obtain ⟨pair, inside, rfl⟩ := List.mem_map.mp member
    obtain ⟨present, here⟩ := List.mem_filter.mp inside
    rwa [← of_decide_eq_true here]
  · intro present
    exact List.mem_map.mpr ⟨(id, ns), List.mem_filter.mpr ⟨present, decide_eq_true rfl⟩, rfl⟩

/-- The rows that the query finds, in terms of what devices have stored. -/
theorem mem_matchingRows_iff {db : Database} (sound : db.Sound) {account : AccountID} {ns : Int}
    {row : Row} :
    row ∈ matchingRows db.tables account ns ↔
      db.tables.rowAt row.device = some row ∧ row.device.account = account ∧
        ns ∈ db.tables.namespacesOf row.id := by
  rw [matchingRows, List.mem_filter, decide_eq_true_eq, sound.valid.rowAt_eq_some_iff,
    mem_namespacesOf_iff]
  simp only [and_true]

/-- A row and the request that it is from. -/
structure Comes (log : List Call) (tables : Tables) (row : Row) (request : AddRequest) : Prop where
  current : Current log request
  device : request.device = row.device
  stored : request.stored = ⟨row.data, tables.namespacesOf row.id⟩

/-- A request for each row, in the same order. -/
theorem exists_requests_of_rows {log : List Call} {tables : Tables} {rows : List Row}
    (origin : ∀ row ∈ rows, ∃ request, Comes log tables row request) :
    ∃ requests : List AddRequest, rows.map unnumbered = requests.map requestedRow ∧
      ∀ request ∈ requests, ∃ row ∈ rows, Comes log tables row request := by
  induction rows with
  | nil => exact ⟨[], rfl, fun _ member => absurd member List.not_mem_nil⟩
  | cons row rows ih =>
      obtain ⟨⟨request, comes⟩, others⟩ := List.forall_mem_cons.mp origin
      obtain ⟨requests, same, back⟩ := ih others
      have data : request.data = row.data := congrArg Stored.data comes.stored
      refine ⟨request :: requests, ?_, ?_⟩
      · rw [List.map_cons, List.map_cons, same, requestedRow, comes.device, data, unnumbered]
      · intro other member
        rcases List.mem_cons.mp member with rfl | later
        · exact ⟨row, List.mem_cons_self, comes⟩
        · obtain ⟨source, inside, found⟩ := back other later
          exact ⟨source, List.mem_cons_of_mem row inside, found⟩

theorem nodup_subscriptions {tables : Tables} (valid : tables.Valid) :
    tables.subscriptions.Nodup := by
  rw [List.nodup_iff_count_eq_one]
  intro row member
  have own : (tables.subscriptions.filter fun other => other.id = row.id) = [row] :=
    valid.primary row member
  rw [← List.count_filter (p := fun other : Row => other.id = row.id) (decide_eq_true rfl), own]
  exact List.count_singleton_self

theorem nodup_devices_matchingRows {tables : Tables} (valid : tables.Valid) (account : AccountID)
    (ns : Int) : ((matchingRows tables account ns).map Row.device).Nodup := by
  apply List.Nodup.map_on
  · intro first member second other same
    exact valid.eq_of_device (List.mem_filter.mp member).1 (List.mem_filter.mp other).1 same
  · exact (nodup_subscriptions valid).filter _

/-- The rows of the query are those of the current requests that ask for the
notification. -/
theorem exists_requests {db : Database} (sound : db.Sound) {log : List Call}
    (replayed : ∀ device, db.tables.contents device = replayAt Call.op device none log)
    (notification : Notification) :
    ∃ requests : List AddRequest,
      (matchingRows db.tables notification.account notification.ns.val).map unnumbered =
        requests.map requestedRow ∧
      (requests.map AddRequest.device).Nodup ∧
      ∀ request, request ∈ requests ↔ Current log request ∧ AsksFor notification request := by
  have origin : ∀ row ∈ matchingRows db.tables notification.account notification.ns.val,
      ∃ request, Comes log db.tables row request := by
    intro row member
    have stored := sound.valid.contents_eq_some (List.mem_filter.mp member).1
    obtain ⟨request, current, device, stores⟩ := exists_current ((replayed _).symm.trans stored)
    exact ⟨request, current, device, stores⟩
  obtain ⟨requests, same, back⟩ := exists_requests_of_rows origin
  have devices : requests.map AddRequest.device =
      (matchingRows db.tables notification.account notification.ns.val).map Row.device := by
    have both := congrArg (List.map Row.device) same
    rw [List.map_map, List.map_map] at both
    exact both.symm
  refine ⟨requests, same, ?_, ?_⟩
  · rw [devices]
    exact nodup_devices_matchingRows sound.valid _ _
  · intro request
    constructor
    · intro member
      obtain ⟨row, matching, comes⟩ := back request member
      obtain ⟨-, account, ns⟩ := (mem_matchingRows_iff sound).mp matching
      refine ⟨comes.current, ?_, ?_⟩
      · rw [← account, ← comes.device]
        rfl
      · have namespaces : request.sub.namespaces = db.tables.namespacesOf row.id :=
          congrArg Stored.namespaces comes.stored
        rwa [namespaces]
    · rintro ⟨current, account, ns⟩
      have stored : db.tables.contents request.device = some request.stored := by
        rw [replayed]
        exact (replayAt_eq_some_iff _ _).mpr ⟨_, current⟩
      obtain ⟨row, found, contents⟩ := Option.map_eq_some_iff.mp stored
      obtain ⟨inside, device⟩ := sound.valid.rowAt_eq_some_iff.mp found
      have namespaces : db.tables.namespacesOf row.id = request.sub.namespaces :=
        congrArg Stored.namespaces contents
      have matching : row ∈ matchingRows db.tables notification.account notification.ns.val := by
        rw [mem_matchingRows_iff sound, device, namespaces]
        exact ⟨found, account, ns⟩
      have listed : request.device ∈ requests.map AddRequest.device := by
        rw [devices, ← device]
        exact List.mem_map_of_mem matching
      obtain ⟨other, member, sameDevice⟩ := List.mem_map.mp listed
      obtain ⟨source, _, comes⟩ := back other member
      exact comes.current.unique current sameDevice ▸ member

/-! ## Runs -/

namespace Server

variable [DecidableEq κ] {env : Env π κ}

/-- The names of the registered services are short enough. -/
def Named (server : Server κ) : Prop :=
  ∀ service conn, server.notify.services.lookup service = some conn → service.length ≤ 32

/-- What a message does to the part that processes notifications. -/
structure Serves (env : Env π κ) (reading : env.dict.Reading) (log : List Call)
    (before after : State κ) (body : Bytes) : Prop where
  wellFormed : ∀ notification, reading.WellFormed body notification →
    ∃ (requests : List AddRequest) (pushes : List Push),
      (requests.map AddRequest.device).Nodup ∧
      (∀ request, request ∈ requests ↔ Current log request ∧ AsksFor notification request) ∧
      Offers env before.services notification before.seen (requests.map requestedRow) pushes
        after.seen ∧
      after.pushes = before.pushes ++ pushes.map Push.wire
  malformed : (∀ notification, ¬reading.WellFormed body notification) → after = before

/-- The database always holds what the transactions so far have left. -/
theorem contents_of_exec {server after : Server κ} {events : List ServerEvent}
    (run : Run.exec (step env) server events = some after) (device : Device) :
    after.contents device = replayAt Call.op device (server.contents device) (calls events) := by
  induction events generalizing server with
  | nil =>
      obtain rfl : server = after := Option.some.inj run
      rfl
  | cons event events ih =>
      obtain ⟨next, taken, rest⟩ := (Run.exec_cons_eq_some_iff _ _ _ _ _).mp run
      rw [ih rest]
      cases event with
      | transaction call sized =>
          obtain rfl := Option.some.inj taken
          rw [contents, contents_run server.sound]
          rfl
      | regService parts conn =>
          simp only [step] at taken
          split at taken <;> cases taken
          rfl
      | beginBatch now =>
          simp only [step] at taken
          split at taken
          · split at taken <;> cases taken
            rfl
          · cases taken
      | message body =>
          simp only [step] at taken
          split at taken <;> cases taken
          rfl
      | endBatch =>
          simp only [step] at taken
          split at taken <;> cases taken
          rfl

/-- An event without a message leaves the services in order and sends nothing. -/
theorem silent_of_step {server next : Server κ} (named : server.Named) {event : ServerEvent}
    (taken : step env server event = some next) (silent : ∀ body, event ≠ .message body) :
    next.Named ∧ next.notify.pushes = server.notify.pushes := by
  cases event with
  | transaction call sized =>
      obtain rfl := Option.some.inj taken
      exact ⟨named, rfl⟩
  | regService parts conn =>
      simp only [step] at taken
      split at taken <;> cases taken
      refine ⟨named_onRegService named, ?_⟩
      obtain ⟨services, same⟩ := exists_onRegService_eq parts conn server.notify
      rw [same]
      rfl
  | beginBatch now =>
      simp only [step] at taken
      split at taken
      · split at taken <;> cases taken
        refine ⟨?_, pushes_rotate env now server.notify⟩
        intro service conn found
        rw [services_rotate] at found
        exact named service conn found
      · cases taken
  | message body => exact absurd rfl (silent body)
  | endBatch =>
      simp only [step] at taken
      split at taken <;> cases taken
      exact ⟨named, rfl⟩

/-- What a message does, in terms of the rows that its query finds. -/
theorem message_cases {server next : Server κ} (named : server.Named) {body : Bytes}
    (taken : step env server (.message body) = some next) :
    (∃ text, parseNotification env.dict body = .error text ∧ next.notify = server.notify) ∨
      ∃ notification pushes, parseNotification env.dict body = .ok notification ∧
        Offers env server.notify.services notification server.notify.seen
          (matchingRows server.db.tables notification.account notification.ns.val) pushes
          next.notify.seen ∧
        Adds server.notify next.notify pushes := by
  simp only [step] at taken
  split at taken <;> cases taken
  rename_i bufSize _
  cases read : parseNotification env.dict body with
  | error text =>
      left
      refine ⟨text, rfl, ?_⟩
      simp only [processMessage, delivery, read]
  | ok notification =>
      right
      simp only [processMessage, delivery, read]
      obtain ⟨pushes, offers, adds⟩ := foldl_processRow_offers env notification named
        (fun row member => server.sized row (List.mem_filter.mp member).1) bufSize
      exact ⟨notification, pushes, rfl, offers, adds⟩

theorem named_of_step {server next : Server κ} (named : server.Named) {event : ServerEvent}
    (taken : step env server event = some next) : next.Named := by
  by_cases silent : ∀ body, event ≠ .message body
  · exact (silent_of_step named taken silent).1
  · push Not at silent
    obtain ⟨body, rfl⟩ := silent
    intro service conn found
    rcases message_cases named taken with ⟨_, _, same⟩ | ⟨_, _, _, _, adds⟩
    · rw [same] at found
      exact named service conn found
    · rw [adds.services] at found
      exact named service conn found

/-- A message is served according to what the transactions so far have left. -/
theorem serves_of_step (reading : env.dict.Reading) {server next : Server κ}
    (named : server.Named) {log : List Call}
    (replayed : ∀ device, server.contents device = replayAt Call.op device none log)
    {body : Bytes} (taken : step env server (.message body) = some next) :
    Serves env reading log server.notify next.notify body := by
  rcases message_cases named taken with ⟨text, read, same⟩ | ⟨notification, pushes, read, offers, adds⟩
  · refine ⟨fun notification wellFormed => ?_, fun _ => same⟩
    rw [(parseNotification_eq_ok_iff reading _ _).mpr wellFormed] at read
    contradiction
  · have wellFormed := (parseNotification_eq_ok_iff reading _ _).mp read
    refine ⟨fun other again => ?_, fun malformed => absurd wellFormed (malformed notification)⟩
    rw [(parseNotification_eq_ok_iff reading _ _).mpr again] at read
    obtain rfl := Except.ok.inj read
    obtain ⟨requests, same, nodup, exactly⟩ := exists_requests server.sound replayed other
    exact ⟨requests, pushes, nodup, exactly, same ▸ offers.unnumbered, adds.pushes⟩

/-- A push is for a request in force when a notification that it asks for was
processed. -/
def Justified (reading : env.dict.Reading) (log : List Call) (events : List ServerEvent)
    (push : Push) : Prop :=
  ∃ before body later notification request,
    events = before ++ .message body :: later ∧ reading.WellFormed body notification ∧
      Current (log ++ calls before) request ∧ AsksFor notification request ∧
      push.message = requestedMessage notification request

omit [DecidableEq κ] in
theorem Justified.cons {reading : env.dict.Reading} {log : List Call} {event : ServerEvent}
    {events : List ServerEvent} {push : Push}
    (justified : Justified reading (log ++ calls [event]) events push) :
    Justified reading log (event :: events) push := by
  obtain ⟨before, body, later, notification, request, split, read, current, rest⟩ := justified
  refine ⟨event :: before, body, later, notification, request, ?_, read, ?_, rest⟩
  · rw [split, List.cons_append]
  · rwa [List.append_assoc, ← calls_append] at current

/-- Every push of a run is justified. -/
theorem justified_of_exec (reading : env.dict.Reading) {server after : Server κ}
    {events : List ServerEvent} {log : List Call} (named : server.Named)
    (replayed : ∀ device, server.contents device = replayAt Call.op device none log)
    (run : Run.exec (step env) server events = some after) :
    ∃ sent : List Push, after.notify.pushes = server.notify.pushes ++ sent.map Push.wire ∧
      ∀ push ∈ sent, Justified reading log events push := by
  induction events generalizing server log with
  | nil =>
      obtain rfl : server = after := Option.some.inj run
      exact ⟨[], (List.append_nil _).symm, fun _ member => absurd member List.not_mem_nil⟩
  | cons event events ih =>
      obtain ⟨next, taken, rest⟩ := (Run.exec_cons_eq_some_iff _ _ _ _ _).mp run
      have following : ∀ device,
          next.contents device = replayAt Call.op device none (log ++ calls [event]) := by
        intro device
        have single : Run.exec (step env) server [event] = some next :=
          (Run.exec_cons_eq_some_iff _ _ _ _ _).mpr ⟨next, taken, rfl⟩
        rw [contents_of_exec single, replayed, replayAt, replayAt, replayAt, List.foldl_append]
      obtain ⟨sent, added, justified⟩ := ih (named_of_step named taken) following rest
      by_cases silent : ∀ body, event ≠ .message body
      · rw [(silent_of_step named taken silent).2] at added
        exact ⟨sent, added, fun push member => (justified push member).cons⟩
      · push Not at silent
        obtain ⟨body, rfl⟩ := silent
        have serves := serves_of_step reading named replayed taken
        by_cases wellFormed : ∃ notification, reading.WellFormed body notification
        · obtain ⟨notification, read⟩ := wellFormed
          obtain ⟨requests, pushes, -, exactly, offers, here⟩ := serves.wellFormed notification read
          refine ⟨pushes ++ sent, ?_, fun push member => ?_⟩
          · rw [added, here, List.map_append, List.append_assoc]
          · rcases List.mem_append.mp member with now | later
            · obtain ⟨row, asked, message, -⟩ := offers.origin now
              obtain ⟨request, found, rfl⟩ := List.mem_map.mp asked
              obtain ⟨current, asks⟩ := (exactly request).mp found
              refine ⟨[], body, events, notification, request, rfl, read, ?_, asks, message⟩
              rwa [calls, List.filterMap_nil, List.append_nil]
            · exact (justified push later).cons
        · push Not at wellFormed
          rw [serves.malformed wellFormed] at added
          exact ⟨sent, added, fun push member => (justified push member).cons⟩

end Server

/-! ## Results -/

section Results

variable [DecidableEq κ] {env : Env π κ}

theorem named_of_exec {server after : Server κ} {events : List ServerEvent}
    (named : server.Named) (run : Run.exec (Server.step env) server events = some after) :
    after.Named :=
  Run.Reachable.invariant ⟨events, run⟩ named fun _ _ _ kept taken => Server.named_of_step kept taken

omit [DecidableEq κ] in
theorem named_initial (env : Env π κ) (now : Int) : (Server.initial env now).Named := by
  intro service conn found
  cases found

/-- Whatever transactions have run before, one at a time, a message is pushed to
exactly the devices whose current requests ask for it, as far as their services
are registered and the filter has not seen them. -/
theorem message_serves_current_requests (reading : env.dict.Reading) (now : Int)
    {events : List ServerEvent} {server after : Server κ}
    (run : Run.exec (Server.step env) (Server.initial env now) events = some server) {body : Bytes}
    (taken : Server.step env server (.message body) = some after) :
    Server.Serves env reading (calls events) server.notify after.notify body :=
  Server.serves_of_step reading (named_of_exec (named_initial env now) run)
    (fun device => Server.contents_of_exec run device) taken

/-- A request for all messages of the sample account. -/
def sampleRequest : AddRequest where
  pubkey := ⟨Sample.account, FixedBytes.replicate 32 3, false, invalidSwarmId⟩
  service := Sample.service
  serviceId := List.replicate 32 97
  serviceData := none
  encKey := FixedBytes.replicate 32 2
  sub := Hive.Subscription.single 0 1700000000 (FixedBytes.replicate 64 7)

theorem sampleRequest_sized : SizedCall (.addSubscription sampleRequest) :=
  ⟨by decide, by simp [sampleRequest]⟩

/-- A service registers, the request is committed, and a batch begins. -/
def subscribedRun : List ServerEvent :=
  [.regService [Sample.service] 7, .transaction (.addSubscription sampleRequest) sampleRequest_sized,
    .beginBatch 10]

theorem subscribedRun_serves :
    ∃ server after, Run.exec (Server.step Sample.env) (Server.initial Sample.env 0) subscribedRun =
        some server ∧
      Server.step Sample.env server (.message Sample.body) = some after ∧
      after.notify.pushes = [Push.wire ⟨7, requestedMessage sampleNotification sampleRequest⟩] ∧
      Server.Serves Sample.env Sample.reading (calls subscribedRun) server.notify after.notify
        Sample.body := by
  obtain ⟨server, after, run, taken, pushed⟩ : ∃ server after,
      Run.exec (Server.step Sample.env) (Server.initial Sample.env 0) subscribedRun = some server ∧
        Server.step Sample.env server (.message Sample.body) = some after ∧
        after.notify.pushes = [Push.wire ⟨7, requestedMessage sampleNotification sampleRequest⟩] :=
    ⟨_, _, rfl, rfl, by decide +kernel⟩
  exact ⟨server, after, run, taken, pushed, message_serves_current_requests Sample.reading 0 run taken⟩

/-- The call takes away what the request has stored. -/
def Takes (request : AddRequest) : Call → Prop
  | .addSubscription other => other.device = request.device
  | .removeSubscription device => device = request.device
  | .dropRegistrations service svcids =>
      request.service = service ∧ request.serviceId ∈ svcids
  | .dbCleanup cutoff => request.sub.sigTs ≤ cutoff

theorem spares_iff_not_takes (call : Call) (request : AddRequest) :
    call.op.Spares request.device request.stored ↔ ¬Takes request call := by
  cases call with
  | addSubscription other => exact Iff.rfl
  | removeSubscription device =>
      rw [Call.op, Op.Spares, decide_eq_false_iff_not, Takes, eq_comm]
  | dropRegistrations service svcids =>
      rw [Call.op, Op.Spares, Database.dropped, decide_eq_false_iff_not]
      rfl
  | dbCleanup cutoff =>
      rw [Call.op, Op.Spares, decide_eq_false_iff_not]
      rfl

/-- What a committed call takes away is never used again: whatever follows, a
later push is for a request committed with or after the call, or for one that
the call has spared. -/
theorem nothing_sent_for_taken_requests (reading : env.dict.Reading) (now : Int)
    {before between : List ServerEvent} {call : Call} {sized : SizedCall call}
    {middle server : Server κ}
    (start : Run.exec (Server.step env) (Server.initial env now) before = some middle)
    (run : Run.exec (Server.step env) middle (.transaction call sized :: between) = some server) :
    ∃ sent : List Push, server.notify.pushes = middle.notify.pushes ++ sent.map Push.wire ∧
      ∀ push ∈ sent, ∃ notification request, AsksFor notification request ∧
        push.message = requestedMessage notification request ∧
        (.addSubscription request ∈ call :: calls between ∨
          Current (calls before) request ∧ ¬Takes request call) := by
  have named := named_of_exec (named_initial env now) start
  obtain ⟨sent, added, justified⟩ := Server.justified_of_exec reading named
    (fun device => Server.contents_of_exec start device) run
  refine ⟨sent, added, fun push member => ?_⟩
  obtain ⟨front, body, later, notification, request, split, -, current, asks, message⟩ :=
    justified push member
  refine ⟨notification, request, asks, message, ?_⟩
  cases front with
  | nil => cases (List.cons.inj split).1
  | cons first front =>
      obtain ⟨rfl, rest⟩ := List.cons.inj split
      rcases InForce.of_append current with behind | ⟨earlier, spared⟩
      · left
        have log : call :: calls between =
            calls (.transaction call sized :: front) ++ calls (.message body :: later) := by
          rw [rest, ← calls_append]
          rfl
        rw [log]
        exact List.mem_append_left _ behind
      · right
        exact ⟨earlier, (spares_iff_not_takes call request).mp (spared call List.mem_cons_self)⟩

/-- The device unsubscribes, and then the notification arrives. -/
theorem unsubscribed_device_spared :
    ∃ middle server, Run.exec (Server.step Sample.env) (Server.initial Sample.env 0)
        (subscribedRun ++ [.endBatch]) = some middle ∧
      Run.exec (Server.step Sample.env) middle
        [.transaction (.removeSubscription sampleRequest.device) trivial, .beginBatch 20,
          .message Sample.body] = some server ∧
      ∃ sent : List Push, server.notify.pushes = middle.notify.pushes ++ sent.map Push.wire ∧
        ∀ push ∈ sent, ∃ notification request, AsksFor notification request ∧
          push.message = requestedMessage notification request ∧
          (.addSubscription request ∈ [Call.removeSubscription sampleRequest.device] ∨
            Current [.addSubscription sampleRequest] request ∧
              ¬Takes request (.removeSubscription sampleRequest.device)) := by
  obtain ⟨middle, server, start, run⟩ : ∃ middle server,
      Run.exec (Server.step Sample.env) (Server.initial Sample.env 0)
          (subscribedRun ++ [.endBatch]) = some middle ∧
        Run.exec (Server.step Sample.env) middle
          [.transaction (.removeSubscription sampleRequest.device) trivial, .beginBatch 20,
            .message Sample.body] = some server :=
    ⟨_, _, rfl, rfl⟩
  exact ⟨middle, server, start, run, nothing_sent_for_taken_requests Sample.reading 0 start run⟩

end Results

end Spns.Notify
