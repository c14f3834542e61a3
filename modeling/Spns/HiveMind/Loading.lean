import Spns.HiveMind.Dedup
import Spns.Lib.Decimal
import Spns.Storage.Serial

/-!
# Reloading the server's own data

Start-up rebuilds every stored subscription through the constructor that has
validated it before, and an exception there ends the process.  Whatever the
writers leave in the tables has been asked for by one accepted request, so the
constructor only has to agree with itself and with the window of the loading
loop.  What remains are the computations with the number of rows: it is read
as an `int`, and so is the capacity that the threads reserve.
-/

namespace Spns

open Spns.Hive
open Spns.Lib.Bencode
open Spns.Storage

/-! ## Accepted requests -/

namespace Hive.Subscription

/-- The constructor accepts every namespace list that is strictly sorted. -/
theorem namespaceError_of_pairwise {namespaces : List Int}
    (sorted : namespaces.Pairwise (· < ·)) : namespaceError namespaces = none := by
  induction sorted with
  | nil => rfl
  | @cons first rest above _ ih =>
      cases rest with
      | nil => rfl
      | cons second rest =>
          have less := above second List.mem_cons_self
          rw [namespaceError, if_neg (by omega), if_neg (by omega)]
          exact ih

end Hive.Subscription

namespace Storage.AddRequest

/-- The arguments of `add_subscription` as the request handler makes them: the
key and the subscription have passed their constructors, and a Session key is
given exactly for accounts with prefix 5. -/
structure Accepted (env : Env) (request : AddRequest) : Prop where
  pubkey : ∃ ed : Option Ed25519PK, (ed.isSome = true ↔ request.pubkey.id.byteAt 0 = 5) ∧
    SwarmPubkey.make env.toCurve request.pubkey.id ed false = .ok request.pubkey
  sub : ∃ now, Subscription.make env.verify request.pubkey request.sub.subaccount
    request.sub.namespaces request.sub.wantData request.sub.sigTs request.sub.sig false now =
      .ok request.sub

variable {env : Env} {request : AddRequest}

/-- The constructor makes the same key again from what is stored of it. -/
theorem Accepted.make_stored (accepted : Accepted env request) :
    SwarmPubkey.make env.toCurve request.pubkey.id request.data.sessionEd25519 true =
      .ok request.pubkey := by
  obtain ⟨ed, given, made⟩ := accepted.pubkey
  have shape := SwarmPubkey.eq_of_make made
  have stored : request.data.sessionEd25519 = ed := by
    rw [AddRequest.data, shape]
    cases ed <;> rfl
  rw [stored]
  cases ed with
  | none => exact made
  | some key =>
      rw [SwarmPubkey.make, if_neg (not_not.mpr (given.mp rfl)), if_pos rfl]
      exact congrArg Except.ok shape.symm

theorem Accepted.sigTs_ne_zero (accepted : Accepted env request) : request.sub.sigTs ≠ 0 := by
  obtain ⟨now, made⟩ := accepted.sub
  exact (Subscription.make_accepts_iff.mp ⟨_, made⟩).2.2.1

end Storage.AddRequest

/-! ## What the writers leave -/

namespace Storage

/-- The database after calls whose requests were all accepted, each run to
completion. -/
structure Written (env : Env) (db : Database) : Prop where
  calls : ∃ calls : List Call, (∀ request, .addSubscription request ∈ calls → request.Accepted env) ∧
    db = (serial Database.empty calls).1

theorem serial_sound {db : Database} (sound : db.Sound) (calls : List Call) :
    (serial db calls).1.Sound := by
  induction calls generalizing db with
  | nil => exact sound
  | cons call calls ih => exact ih (call.run_outcome sound).1

theorem serial_concat (db : Database) (calls : List Call) (call : Call) :
    (serial db (calls ++ [call])).1 = (call.run (serial db calls).1).1 := by
  induction calls generalizing db with
  | nil => rfl
  | cons first rest ih => exact ih (first.run db).1

variable {env : Env} {db : Database}

theorem Written.run (written : Written env db) (call : Call)
    (accepted : ∀ request, call = .addSubscription request → request.Accepted env) :
    Written env (call.run db).1 where
  calls := by
    obtain ⟨calls, earlier, rfl⟩ := written.calls
    refine ⟨calls ++ [call], ?_, ?_⟩
    · intro request member
      rcases List.mem_append.mp member with before | last
      · exact earlier request before
      · exact accepted request (List.mem_singleton.mp last).symm
    · rw [serial_concat]

theorem Written.addSubscription (written : Written env db) {request : AddRequest}
    (accepted : request.Accepted env) : Written env (db.addSubscription request).1 := by
  apply written.run (.addSubscription request)
  rintro other ⟨⟩
  exact accepted

theorem Written.sound (written : Written env db) : db.Sound := by
  obtain ⟨calls, -, rfl⟩ := written.calls
  exact serial_sound Database.empty_sound calls

/-- Every row is what one accepted request has asked for. -/
theorem Written.row (written : Written env db) {row : Row} (member : row ∈ db.tables.subscriptions) :
    ∃ request : AddRequest, request.Accepted env ∧ request.device = row.device ∧
      request.data = row.data ∧ request.sub.namespaces = db.tables.namespacesOf row.id := by
  have contents := written.sound.valid.contents_eq_some member
  obtain ⟨calls, accepted, rfl⟩ := written.calls
  rcases contents_serial Database.empty_sound contents with before | ⟨request, inside, device, stored⟩
  · rw [Database.contents_empty] at before
    contradiction
  · rw [AddRequest.stored, Stored.mk.injEq] at stored
    exact ⟨request, accepted request inside, device, stored.1, stored.2⟩

end Storage

/-! ## Collecting the rows -/

theorem mapM_ok_of_forall {α β ε : Type} {f : α → Except ε β} {items : List α}
    (fine : ∀ item ∈ items, ∃ result, f item = .ok result) :
    ∃ results, items.mapM f = .ok results ∧
      ∀ item ∈ items, ∃ result ∈ results, f item = .ok result := by
  induction items with
  | nil => exact ⟨[], rfl, fun item member => absurd member List.not_mem_nil⟩
  | cons item rest ih =>
      obtain ⟨result, first⟩ := fine item List.mem_cons_self
      obtain ⟨results, mapped, found⟩ := ih fun other member =>
        fine other (List.mem_cons_of_mem item member)
      refine ⟨result :: results, ?_, ?_⟩
      · rw [List.mapM_cons, first, mapped]
        rfl
      · intro other member
        rcases List.mem_cons.mp member with rfl | later
        · exact ⟨result, List.mem_cons_self, first⟩
        · obtain ⟨source, sourceMem, equal⟩ := found other later
          exact ⟨source, List.mem_cons_of_mem result sourceMem, equal⟩

namespace LoadedRow

/-- What the constructor needs apart from the window. -/
structure WellFormed (row : LoadedRow) : Prop where
  nonempty : row.namespaces ≠ []
  sorted : row.namespaces.Pairwise (· < ·)
  sigTs : row.sigTs ≠ 0

end LoadedRow

/-- What start-up should hold for a row. -/
def Storage.Row.offer (tables : Tables) (row : Row) : Offer where
  account := row.device.account
  subaccount :=
    match row.data.subaccountTag, row.data.subaccountSig with
    | some tag, some sig => some ⟨tag, sig⟩
    | _, _ => none
  namespaces := tables.namespacesOf row.id
  wantData := row.data.wantData
  sigTs := row.data.signatureTs
  sig := row.data.signature

namespace HiveMind

variable {env : Env} {db : Database}

/-- A row offers the subscription of the request that wrote it. -/
theorem exists_offer_eq (written : Written env db) {row : Row}
    (member : row ∈ db.tables.subscriptions) :
    ∃ request : AddRequest, request.Accepted env ∧ request.device = row.device ∧
      request.data = row.data ∧ row.offer db.tables = request.sub.offer request.pubkey.id := by
  obtain ⟨request, accepted, device, data, namespaces⟩ := written.row member
  refine ⟨request, accepted, device, data, ?_⟩
  rw [Row.offer, ← namespaces, ← data, ← device]
  cases subaccount : request.sub.subaccount with
  | none => simp [AddRequest.data, AddRequest.device, Subscription.offer, subaccount]
  | some sub => simp [AddRequest.data, AddRequest.device, Subscription.offer, subaccount]

/-- A loading thread can read every row; it gets the key and the subscription
of the request that wrote it. -/
theorem loadRow_written (written : Written env db) {row : Row}
    (member : row ∈ db.tables.subscriptions) :
    ∃ request : AddRequest, request.Accepted env ∧ ∃ loaded,
      loadRow env db.tables row = .ok loaded ∧ loaded.pubkey = request.pubkey ∧
      loaded.offer = request.sub.offer request.pubkey.id ∧
      loaded.offer = row.offer db.tables := by
  obtain ⟨request, accepted, device, data, offer⟩ := exists_offer_eq written member
  have account : row.device.account = request.pubkey.id := by
    rw [← device]
    rfl
  have read : loadRow env db.tables row =
      .ok ⟨request.pubkey, (row.offer db.tables).subaccount, row.data.signature,
        row.data.signatureTs, row.data.wantData, db.tables.namespacesOf row.id⟩ := by
    have made : SwarmPubkey.make env.toCurve row.device.account row.data.sessionEd25519 true =
        .ok request.pubkey := by
      rw [account, ← data]
      exact accepted.make_stored
    rw [loadRow, made]
    rfl
  have same : (⟨request.pubkey, (row.offer db.tables).subaccount, row.data.signature,
      row.data.signatureTs, row.data.wantData, db.tables.namespacesOf row.id⟩ : LoadedRow).offer =
        row.offer db.tables := by
    rw [LoadedRow.offer, ← account]
    rfl
  exact ⟨request, accepted, _, read, rfl, same.trans offer, same⟩

theorem request_of_loadRow (written : Written env db) {row : Row}
    (member : row ∈ db.tables.subscriptions) {loaded : LoadedRow}
    (read : loadRow env db.tables row = .ok loaded) :
    ∃ request : AddRequest, request.Accepted env ∧ loaded.pubkey = request.pubkey ∧
      loaded.offer = request.sub.offer request.pubkey.id ∧
      loaded.offer = row.offer db.tables := by
  obtain ⟨request, accepted, other, otherRead, same⟩ := loadRow_written written member
  rw [read] at otherRead
  exact ⟨request, accepted, Except.ok.inj otherRead ▸ same⟩

/-- What a loading thread reads is what the constructor needs. -/
theorem wellFormed_of_offer_eq {loaded : LoadedRow} {request : AddRequest}
    (accepted : request.Accepted env)
    (offer : loaded.offer = request.sub.offer request.pubkey.id) : loaded.WellFormed where
  nonempty := by
    have namespaces : loaded.namespaces = request.sub.namespaces := congrArg Offer.namespaces offer
    exact namespaces ▸ request.sub.nonempty
  sorted := by
    have namespaces : loaded.namespaces = request.sub.namespaces := congrArg Offer.namespaces offer
    exact namespaces ▸ request.sub.sorted
  sigTs := by
    have sigTs : loaded.sigTs = request.sub.sigTs := congrArg Offer.sigTs offer
    exact sigTs ▸ accepted.sigTs_ne_zero

/-- The threads collect every row, whatever their number. -/
theorem collectRows_written (written : Written env db) {threads : Nat} (some : 1 ≤ threads) :
    ∃ rows, collectRows env db.tables threads = .ok rows ∧ (∀ row ∈ rows, row.WellFormed) ∧
      ∀ row ∈ db.tables.subscriptions, ∃ loaded ∈ rows, loaded.offer = row.offer db.tables := by
  have stored : ∀ {row}, row ∈ ((List.range threads).flatMap fun i =>
      db.tables.subscriptions.filter fun row => row.id % threads = i) ↔
        row ∈ db.tables.subscriptions := by
    intro row
    simp only [List.mem_flatMap, List.mem_range, List.mem_filter, decide_eq_true_eq]
    constructor
    · rintro ⟨thread, -, member, -⟩
      exact member
    · intro member
      exact ⟨row.id % threads, Nat.mod_lt _ some, member, rfl⟩
  obtain ⟨rows, collected, found⟩ := mapM_ok_of_forall (f := loadRow env db.tables)
    (by
      intro row member
      obtain ⟨_, _, loaded, read, _⟩ := loadRow_written written (stored.mp member)
      exact ⟨loaded, read⟩)
  refine ⟨rows, collected, ?_, ?_⟩
  · intro loaded member
    obtain ⟨row, rowMem, read⟩ := mem_of_mapM_ok collected member
    obtain ⟨request, accepted, -, offered, -⟩ := request_of_loadRow written (stored.mp rowMem) read
    exact wellFormed_of_offer_eq accepted offered
  · intro row member
    obtain ⟨loaded, loadedMem, read⟩ := found row (stored.mpr member)
    obtain ⟨_, _, _, _, offer⟩ := request_of_loadRow written member read
    exact ⟨loaded, loadedMem, offer⟩

/-! ## The loading loop -/

/-- The account has an entry of the offer's upstream that is not older. -/
def Holds (subscribers : Subscribers) (offer : Offer) : Prop :=
  ∃ sub ∈ subscriptionsOf subscribers offer.account,
    (sub.offer offer.account).upstream = offer.upstream ∧ offer.sigTs ≤ sub.sigTs

theorem le_sigTs_renewedBy (existing sub : Subscription) :
    existing.sigTs ≤ (existing.renewedBy sub).sigTs ∧ sub.sigTs ≤ (existing.renewedBy sub).sigTs := by
  simp only [Subscription.renewedBy, Subscription.isNewer, decide_eq_true_eq]
  split_ifs with newer
  · exact ⟨Int.le_of_lt newer, Int.le_refl _⟩
  · exact ⟨Int.le_refl _, Int.not_lt.mp newer⟩

/-- Merging keeps every entry and never makes it older. -/
theorem exists_mem_mergeSubscription (id : AccountID) (sub : Subscription)
    {subs : List Subscription} {old : Subscription} (member : old ∈ subs) :
    ∃ kept ∈ mergeSubscription sub subs,
      (kept.offer id).upstream = (old.offer id).upstream ∧ old.sigTs ≤ kept.sigTs := by
  rcases mergeSubscription_cases sub subs with
    ⟨before, existing, after, rfl, -, merged⟩ | ⟨-, merged⟩
  · rw [merged]
    rcases List.mem_append.mp member with first | second
    · exact ⟨old, List.mem_append_left _ first, rfl, Int.le_refl _⟩
    · rcases List.mem_cons.mp second with rfl | later
      · exact ⟨old.renewedBy sub, by simp, Subscription.upstream_renewedBy old sub id,
          (le_sigTs_renewedBy old sub).1⟩
      · exact ⟨old, by simp [later], rfl, Int.le_refl _⟩
  · rw [merged]
    exact ⟨old, List.mem_append_left _ member, rfl, Int.le_refl _⟩

/-- Merging leaves an entry for what is merged. -/
theorem exists_merged (id : AccountID) (sub : Subscription) (subs : List Subscription) :
    ∃ kept ∈ mergeSubscription sub subs,
      (kept.offer id).upstream = (sub.offer id).upstream ∧ sub.sigTs ≤ kept.sigTs := by
  rcases mergeSubscription_cases sub subs with
    ⟨before, existing, after, -, same, merged⟩ | ⟨-, merged⟩
  · rw [merged]
    have matching := ((Subscription.isSame_iff existing sub id).mp same).2
    exact ⟨existing.renewedBy sub, by simp,
      (Subscription.upstream_renewedBy existing sub id).trans matching,
      (le_sigTs_renewedBy existing sub).2⟩
  · rw [merged]
    exact ⟨sub, by simp, rfl, Int.le_refl _⟩

theorem Holds.remember {subscribers : Subscribers} {offer : Offer}
    (holds : Holds subscribers offer) (pubkey : SwarmPubkey) (sub : Subscription) :
    Holds (remember subscribers pubkey sub) offer := by
  obtain ⟨old, member, upstream, newer⟩ := holds
  rw [Holds, subscriptionsOf_remember]
  split_ifs with same
  · obtain ⟨kept, keptMem, keptUpstream, keptNewer⟩ :=
      exists_mem_mergeSubscription offer.account sub member
    exact ⟨kept, keptMem, keptUpstream.trans upstream, newer.trans keptNewer⟩
  · exact ⟨old, member, upstream, newer⟩

theorem holds_remember_self (subscribers : Subscribers) (pubkey : SwarmPubkey)
    (sub : Subscription) : Holds (remember subscribers pubkey sub) (sub.offer pubkey.id) := by
  have account : (sub.offer pubkey.id).account = pubkey.id := rfl
  rw [Holds, subscriptionsOf_remember, account, if_pos rfl]
  exact exists_merged pubkey.id sub _

/-- A row inside the window is never rejected: the window of the loop lies
inside the one of the constructor. -/
theorem mergeRow_isOk (env : Env) {sysNow : Int} (subscribers : Subscribers) {row : LoadedRow}
    (wellFormed : row.WellFormed) (inside : ¬outsideCutoff sysNow row = true) :
    ∃ after, mergeRow env sysNow subscribers row = .ok after := by
  rw [outsideCutoff, Bool.or_eq_true, decide_eq_true_eq, decide_eq_true_eq, not_or] at inside
  obtain ⟨recent, early⟩ := inside
  have small : int64 (sysNow - row.sigTs) = sysNow - row.sigTs ∧
      int64 (row.sigTs - sysNow) = row.sigTs - sysNow := by
    simp only [int64, signatureExpiry, signatureEarly] at *
    constructor <;> apply Int.bmod_eq_of_le <;> omega
  obtain ⟨sub, made⟩ : ∃ sub, Subscription.make env.verify row.pubkey row.subaccount row.namespaces
      row.wantData row.sigTs row.sig true sysNow = .ok sub := by
    apply Subscription.make_accepts_iff.mpr
    refine ⟨wellFormed.nonempty, Subscription.namespaceError_of_pairwise wellFormed.sorted,
      wellFormed.sigTs, ?_, ?_, fun validated => by contradiction⟩
    · rw [small.1]
      omega
    · rw [small.2]
      omega
  rw [mergeRow]
  simp only [made]
  split
  · exact ⟨_, rfl⟩
  · exact ⟨_, rfl⟩

/-- The loading loop ends without an exception, keeps what the map held and
holds every row that stays inside the window. -/
theorem loadLoop_holds (env : Env) (clock : Nat → SysTime) (total : Nat) {rows : List LoadedRow}
    (wellFormed : ∀ row ∈ rows, row.WellFormed) (state : LoadState) :
    ∃ final, loadLoop env clock total rows state = .ok final ∧
      (∀ offer, Holds state.subscribers offer → Holds final.subscribers offer) ∧
      ∀ row ∈ rows, (∀ reading, ¬outsideCutoff (floorSeconds (clock reading)) row = true) →
        Holds final.subscribers row.offer := by
  induction rows generalizing state with
  | nil => exact ⟨state, rfl, fun _ holds => holds, fun _ member => absurd member List.not_mem_nil⟩
  | cons row rows ih =>
      have later := fun other member => wellFormed other (List.mem_cons_of_mem row member)
      rw [loadLoop]
      simp only
      by_cases outside : outsideCutoff (floorSeconds (clock state.clockReads)) row = true
      · rw [if_pos outside]
        obtain ⟨final, ran, kept, loaded⟩ := ih later { state with rawCount := state.rawCount + 1 }
        refine ⟨final, ran, kept, ?_⟩
        intro other member inside
        rcases List.mem_cons.mp member with rfl | rest
        · exact absurd outside (inside state.clockReads)
        · exact loaded other rest inside
      · rw [if_neg outside]
        obtain ⟨after, merged⟩ := mergeRow_isOk env state.subscribers
          (wellFormed row List.mem_cons_self) outside
        obtain ⟨sub, offer, rfl⟩ := mergeRow_ok merged
        rw [merged]
        simp only
        obtain ⟨final, ran, kept, loaded⟩ := ih later _
        refine ⟨final, ran, fun other holds => kept other (holds.remember row.pubkey sub), ?_⟩
        intro other member inside
        rcases List.mem_cons.mp member with rfl | rest
        · exact kept _ (offer ▸ holds_remember_self state.subscribers _ sub)
        · exact loaded other rest inside

/-! ## Start-up -/

/-- The row is inside the window of the loading loop at a time in seconds. -/
def Loadable (sysNow : Int) (row : Row) : Prop :=
  sysNow - signatureExpiry + 5 < row.data.signatureTs ∧
    row.data.signatureTs < sysNow + signatureEarly

/-- The row count fits into an `int` and gives a capacity that is not
negative. -/
def RowsFit (total threads : Nat) : Prop :=
  total < 2 ^ 31 ∧ 0 ≤ reserveCount total threads

/-- Start-up holds an entry for every row that is usable at each reading of
the clock. -/
def LoadsUsable (env : Env) (db : Database) (threads : Nat) (clock : Nat → SysTime) : Prop :=
  ∃ subscribers, loadSavedSubscriptions env db.tables threads clock = .ok subscribers ∧
    ∀ row ∈ db.tables.subscriptions, (∀ reading, Loadable (floorSeconds (clock reading)) row) →
      ∃ sub ∈ subscriptionsOf subscribers row.device.account,
        sub.subaccount.map Subaccount.tag = row.data.subaccountTag ∧
        sub.namespaces = db.tables.namespacesOf row.id ∧
        sub.wantData = row.data.wantData ∧ row.data.signatureTs ≤ sub.sigTs

theorem tag_offer (written : Written env db) {row : Row}
    (member : row ∈ db.tables.subscriptions) :
    (row.offer db.tables).subaccount.map Subaccount.tag = row.data.subaccountTag := by
  obtain ⟨request, -, -, data, offer⟩ := exists_offer_eq written member
  rw [offer, ← data]
  rfl

theorem exists_of_holds (written : Written env db) {row : Row}
    (member : row ∈ db.tables.subscriptions) {subscribers : Subscribers}
    (holds : Holds subscribers (row.offer db.tables)) :
    ∃ sub ∈ subscriptionsOf subscribers row.device.account,
      sub.subaccount.map Subaccount.tag = row.data.subaccountTag ∧
      sub.namespaces = db.tables.namespacesOf row.id ∧
      sub.wantData = row.data.wantData ∧ row.data.signatureTs ≤ sub.sigTs := by
  obtain ⟨sub, subMem, upstream, newer⟩ := holds
  simp only [Offer.upstream, Prod.mk.injEq, tag_offer written member] at upstream
  exact ⟨sub, subMem, upstream.2.1, upstream.2.2.1, upstream.2.2.2, newer⟩

/-- On data that the server has written itself, start-up succeeds and loses
nothing that is still usable exactly when the row count fits. -/
theorem loads_usable_iff (env : Env) (db : Database) (written : Written env db) (threads : Nat)
    (some : 1 ≤ threads) (clock : Nat → SysTime) :
    LoadsUsable env db threads clock ↔ RowsFit db.tables.subscriptions.length threads := by
  constructor
  · rintro ⟨subscribers, loaded, -⟩
    rw [loadSavedSubscriptions] at loaded
    split_ifs at loaded with large negative
    exact ⟨Nat.not_le.mp large, Int.not_lt.mp negative⟩
  · rintro ⟨small, capacity⟩
    obtain ⟨rows, collected, wellFormed, every⟩ := collectRows_written written some
    obtain ⟨final, ran, -, holds⟩ := loadLoop_holds env clock rows.length wellFormed ⟨∅, 0, 0, 0⟩
    refine ⟨final.subscribers, ?_, ?_⟩
    · rw [loadSavedSubscriptions]
      simp only [collected, ran]
      rw [if_neg (Nat.not_le.mpr small), if_neg (Int.not_lt.mpr capacity)]
    · intro row member usable
      obtain ⟨loaded, loadedMem, offer⟩ := every row member
      apply exists_of_holds written member
      rw [← offer]
      apply holds loaded loadedMem
      intro reading outside
      have sigTs : loaded.sigTs = row.data.signatureTs := congrArg Offer.sigTs offer
      have window := usable reading
      rw [outsideCutoff, sigTs, Bool.or_eq_true, decide_eq_true_eq, decide_eq_true_eq] at outside
      rw [Loadable] at window
      omega

/-! ## Many devices -/

/-- A subscription of `Sample.account` on the device with this number. -/
def deviceRequest (number : Nat) : AddRequest :=
  { Sample.request 1700000000 with serviceId := List.replicate 32 1 ++ decimalDigits number }

theorem deviceRequest_accepted (number : Nat) : (deviceRequest number).Accepted Sample.env where
  pubkey := by
    have otherPrefix : Sample.account.byteAt 0 ≠ 5 := by decide
    exact ⟨none, iff_of_false Bool.false_ne_true otherPrefix, rfl⟩
  sub := ⟨1700000000, rfl⟩

theorem deviceRequest_device_injective {first second : Nat}
    (same : (deviceRequest first).device = (deviceRequest second).device) : first = second := by
  have ids : List.replicate 32 1 ++ decimalDigits first =
      List.replicate 32 1 ++ decimalDigits second := congrArg Device.svcid same
  exact decimalDigits_injective (List.append_cancel_left ids)

/-- The calls that subscribe the first devices. -/
def deviceCalls (count : Nat) : List Call :=
  (List.range count).map fun number => .addSubscription (deviceRequest number)

theorem deviceCalls_written (count : Nat) :
    Written Sample.env (serial Database.empty (deviceCalls count)).1 where
  calls := by
    refine ⟨deviceCalls count, ?_, rfl⟩
    intro request member
    obtain ⟨number, -, equal⟩ := List.mem_map.mp member
    cases equal
    exact deviceRequest_accepted number

/-- Every device has a row of its own. -/
theorem length_deviceCalls (count : Nat) :
    (serial Database.empty (deviceCalls count)).1.tables.subscriptions.length = count := by
  induction count with
  | zero => rfl
  | succ count ih =>
      have fresh : (serial Database.empty (deviceCalls count)).1.tables.rowAt
          (deviceRequest count).device = none := by
        cases found : (serial Database.empty (deviceCalls count)).1.tables.rowAt
            (deviceRequest count).device with
        | none => rfl
        | some row =>
            have stored : (serial Database.empty (deviceCalls count)).1.tables.contents
                (deviceRequest count).device = some _ := congrArg (Option.map _) found
            rcases contents_serial Database.empty_sound stored with
              before | ⟨request, member, device, -⟩
            · rw [Database.contents_empty] at before
              contradiction
            · obtain ⟨number, below, equal⟩ := List.mem_map.mp member
              cases equal
              have same := deviceRequest_device_injective device
              exact absurd (List.mem_range.mp below) (by omega)
      have calls : deviceCalls (count + 1) =
          deviceCalls count ++ [.addSubscription (deviceRequest count)] := by
        rw [deviceCalls, List.range_succ, List.map_append]
        rfl
      rw [calls, serial_concat]
      simp only [Call.run, Database.addSubscription, fresh, Tables.applyAll_cons,
        Tables.applyAll_insertNamespaces, Tables.apply, List.length_append, List.length_singleton]
      rw [ih]

/-- One row more than an eleventh of the largest `int`. -/
theorem reload_of_many_devices_fails (clock : Nat → SysTime) :
    loadSavedSubscriptions Sample.env
      (serial Database.empty (deviceCalls 195225787)).1.tables 1 clock =
        .error "vector::reserve" := by
  rw [loadSavedSubscriptions]
  simp only [length_deviceCalls]
  rw [if_neg (by decide), if_pos (by decide)]

theorem not_loads_usable_many_devices :
    ∃ db, Written Sample.env db ∧ db.tables.subscriptions.length = 195225787 ∧
      ¬LoadsUsable Sample.env db 1 fun _ => 1700000000 * second := by
  refine ⟨_, deviceCalls_written 195225787, length_deviceCalls 195225787, ?_⟩
  rintro ⟨subscribers, loaded, -⟩
  rw [reload_of_many_devices_fails] at loaded
  contradiction

/-- With fewer rows the reload succeeds, for example with a thousand. -/
theorem loads_usable_thousand_devices :
    LoadsUsable Sample.env (serial Database.empty (deviceCalls 1000)).1 4
      fun _ => 1700000000 * second := by
  apply (loads_usable_iff _ _ (deviceCalls_written 1000) 4 (by decide) _).mpr
  rw [length_deviceCalls]
  exact ⟨by decide, by decide⟩

end HiveMind

end Spns
