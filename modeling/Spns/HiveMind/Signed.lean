import Spns.HiveMind.Loading

/-!
# Keys and signatures in memory

A subscription is signed under the key of its request.  From there the two go
separate ways: the server keeps one key for each account, and the signatures
of all the subscriptions of the account with it.  As long as no account is
used with two Ed25519 keys, every subscription in memory is signed under the
key that it is kept with, also after a refresh of its signature and after a
reload of the tables.
-/

namespace Spns

open Spns.Hive
open Spns.Lib.Unordered
open Spns.Storage

namespace SwarmPubkey

/-- The key without its cached swarm. -/
def identity (key : SwarmPubkey) : AccountID × Ed25519PK × Bool :=
  (key.id, key.ed25519, key.sessionEd)

/-- The key belongs to its account: a Session key converts to the account id,
any other key is a part of it. -/
structure Genuine (env : Env) (key : SwarmPubkey) : Prop where
  session : key.sessionEd = true ↔ key.id.byteAt 0 = 5
  converts : key.sessionEd = true →
    ∃ derived, env.toCurve key.ed25519 = some derived ∧ 5 :: derived.val = key.id.val
  own : key.sessionEd = false → key.ed25519 = key.id.slice 1 32 (by decide)

variable {env : Env} {key other : SwarmPubkey}

theorem identity_eq_iff :
    key.identity = other.identity ↔
      key.id = other.id ∧ key.ed25519 = other.ed25519 ∧ key.sessionEd = other.sessionEd := by
  simp only [identity, Prod.mk.injEq]

theorem Genuine.of_identity_eq (genuine : key.Genuine env)
    (same : key.identity = other.identity) : other.Genuine env := by
  obtain ⟨id, ed25519, sessionEd⟩ := identity_eq_iff.mp same
  constructor
  · rw [← sessionEd, ← id]
    exact genuine.session
  · rw [← sessionEd, ← ed25519, ← id]
    exact genuine.converts
  · rw [← sessionEd, ← ed25519, ← id]
    exact genuine.own

/-- Keys of one account are the same as soon as their Ed25519 parts are. -/
theorem Genuine.identity_eq (first : key.Genuine env) (second : other.Genuine env)
    (id : key.id = other.id) (ed25519 : key.ed25519 = other.ed25519) :
    key.identity = other.identity := by
  have sessions : key.sessionEd = true ↔ other.sessionEd = true := by
    rw [first.session, second.session, id]
  exact identity_eq_iff.mpr ⟨id, ed25519, Bool.eq_iff_iff.mpr sessions⟩

/-- A key that has passed the validation of its constructor. -/
theorem genuine_of_make {id : AccountID} {ed : Option Ed25519PK}
    (given : ed.isSome = true ↔ key.id.byteAt 0 = 5)
    (made : make env.toCurve id ed false = .ok key) : key.Genuine env := by
  have shape := eq_of_make made
  subst shape
  refine ⟨given, ?_, ?_⟩
  · intro session
    obtain ⟨session, rfl⟩ := Option.isSome_iff_exists.mp session
    rw [make] at made
    split_ifs at made with _ skipped
    · exact skipped.elim
    · split at made
      · contradiction
      · rename_i derived converted
        split_ifs at made with same
        exact ⟨derived, converted, same⟩
  · intro none
    rw [Option.isSome_eq_false_iff, Option.isNone_iff_eq_none] at none
    rw [none]
    rfl

end SwarmPubkey

/-! ## Signatures -/

namespace Hive.Subscription

/-- The signature of the subscription is good under this key. -/
def SignedBy (env : Env) (key : SwarmPubkey) (sub : Subscription) : Prop :=
  verifyStorageSignature env.verify (monitorMessage key sub.namespaces sub.wantData sub.sigTs)
    sub.sig key sub.subaccount = .ok ()

variable {env : Env} {key other : SwarmPubkey} {sub existing : Subscription}

theorem SignedBy.of_identity_eq (signed : sub.SignedBy env key)
    (same : key.identity = other.identity) : sub.SignedBy env other := by
  rcases key with ⟨id, ed25519, sessionEd, swarm⟩
  rcases other with ⟨_, _, _, otherSwarm⟩
  obtain ⟨rfl, rfl, rfl⟩ := SwarmPubkey.identity_eq_iff.mp same
  exact signed

/-- Only the offered parts are signed. -/
theorem SignedBy.of_offer_eq {id : AccountID} (signed : sub.SignedBy env key)
    (same : sub.offer id = existing.offer id) : existing.SignedBy env key := by
  simp only [offer, Offer.mk.injEq, true_and] at same
  obtain ⟨subaccount, namespaces, wantData, sigTs, sig⟩ := same
  rw [SignedBy] at signed ⊢
  rw [← subaccount, ← namespaces, ← wantData, ← sigTs, ← sig]
  exact signed

/-- A refreshed entry keeps its subaccount and takes the signature of the other,
which is for the same tag, namespaces and flag. -/
theorem SignedBy.renewedBy (old : existing.SignedBy env key) (new : sub.SignedBy env key)
    (same : existing.isSame sub = true) : (existing.renewedBy sub).SignedBy env key := by
  rw [Subscription.renewedBy]
  split_ifs
  · simp only [isSame, isSameParts, Bool.and_eq_true, beq_iff_eq,
      Subaccount.isSameOptional_eq_true_iff] at same
    obtain ⟨⟨⟨first, second, firstEq, secondEq, tags⟩, namespaces⟩, wantData⟩ := same
    rw [SignedBy, verifyStorageSignature_eq_ok_iff] at old new ⊢
    rw [firstEq] at old
    rw [secondEq] at new
    simp only at new
    rw [← tags, ← namespaces, ← wantData] at new
    rw [refresh, firstEq]
    exact ⟨old.1, old.2.1, old.2.2.1, new.2.2.2⟩
  · exact old

end Hive.Subscription

/-- The subscription of an accepted request is signed under its key. -/
theorem Storage.AddRequest.Accepted.signed {env : Env} {request : AddRequest}
    (accepted : request.Accepted env) : request.sub.SignedBy env request.pubkey := by
  obtain ⟨now, made⟩ := accepted.sub
  obtain ⟨-, -, -, -, -, checked⟩ := Subscription.make_accepts_iff.mp ⟨_, made⟩
  exact checked rfl

theorem Storage.AddRequest.Accepted.genuine {env : Env} {request : AddRequest}
    (accepted : request.Accepted env) : request.pubkey.Genuine env := by
  obtain ⟨ed, given, made⟩ := accepted.pubkey
  exact SwarmPubkey.genuine_of_make given made

/-! ## The subscriptions in memory -/

namespace HiveMind

/-- Every account is held with a key of its own, and every subscription of the
account is signed under this key. -/
structure Vouched (env : Env) (subscribers : Subscribers) : Prop where
  keyed : ∀ {id subscriber}, subscribers.lookup id = some subscriber → subscriber.key.id = id
  genuine : ∀ {id subscriber}, subscribers.lookup id = some subscriber →
    subscriber.key.Genuine env
  signed : ∀ {id subscriber}, subscribers.lookup id = some subscriber →
    ∀ sub ∈ subscriber.subscriptions, sub.SignedBy env subscriber.key

variable {env : Env} {subscribers : Subscribers} {key : SwarmPubkey} {sub : Subscription}

theorem vouched_empty (env : Env) : Vouched env ∅ := by
  constructor <;> intro id subscriber found <;> simp at found

theorem signedBy_mergeSubscription {subs : List Subscription}
    (old : ∀ existing ∈ subs, existing.SignedBy env key) (new : sub.SignedBy env key) :
    ∀ existing ∈ mergeSubscription sub subs, existing.SignedBy env key := by
  intro merged member
  rcases mergeSubscription_cases sub subs with
    ⟨before, existing, after, rfl, same, equal⟩ | ⟨-, equal⟩
  · rw [equal] at member
    rcases List.mem_append.mp member with first | rest
    · exact old merged (List.mem_append_left _ first)
    · rcases List.mem_cons.mp rest with rfl | later
      · exact (old existing (by simp)).renewedBy new same
      · exact old merged (by simp [later])
  · rw [equal] at member
    rcases List.mem_append.mp member with first | last
    · exact old merged first
    · rw [List.mem_singleton.mp last]
      exact new

/-- The subscription is kept with the key that its account has already, which
has to be the key that it was signed under. -/
theorem Vouched.remember (vouched : Vouched env subscribers) (genuine : key.Genuine env)
    (signed : sub.SignedBy env key)
    (agrees : ∀ subscriber, subscribers.lookup key.id = some subscriber →
      subscriber.key.ed25519 = key.ed25519) : Vouched env (remember subscribers key sub) := by
  have kept : ∀ subscriber, subscribers.lookup key.id = some subscriber →
      key.identity = subscriber.key.identity := by
    intro subscriber found
    exact genuine.identity_eq (vouched.genuine found) (vouched.keyed found).symm
      (agrees subscriber found).symm
  constructor <;> intro id subscriber found <;> rw [lookup_remember] at found <;>
    split_ifs at found with equal
  · cases found
    rw [equal]
    cases old : subscribers.lookup key.id with
    | none => rfl
    | some existing => exact @vouched.keyed _ existing old
  · exact vouched.keyed found
  · cases found
    cases old : subscribers.lookup key.id with
    | none => exact genuine
    | some existing => exact @vouched.genuine _ existing old
  · exact vouched.genuine found
  · cases found
    rw [subscriptionsOf]
    cases old : subscribers.lookup key.id with
    | none => exact signedBy_mergeSubscription (fun _ none => absurd none List.not_mem_nil) signed
    | some existing =>
        exact signedBy_mergeSubscription (vouched.signed old)
          (signed.of_identity_eq (kept existing old))
  · exact vouched.signed found

/-- A list of subscriptions that uses one key for each account. -/
theorem Vouched.rememberAll (vouched : Vouched env subscribers)
    {subs : List (SwarmPubkey × Subscription)}
    (genuine : ∀ item ∈ subs, item.1.Genuine env)
    (signed : ∀ item ∈ subs, item.2.SignedBy env item.1)
    (among : ∀ first ∈ subs, ∀ second ∈ subs, first.1.id = second.1.id →
      first.1.ed25519 = second.1.ed25519)
    (agrees : ∀ item ∈ subs, ∀ subscriber, subscribers.lookup item.1.id = some subscriber →
      subscriber.key.ed25519 = item.1.ed25519) : Vouched env (rememberAll subscribers subs) := by
  induction subs generalizing subscribers with
  | nil => exact vouched
  | cons item rest ih =>
      have here : item ∈ item :: rest := List.mem_cons_self
      have later : ∀ other ∈ rest, other ∈ item :: rest := fun _ member =>
        List.mem_cons_of_mem item member
      refine ih (vouched.remember (genuine item here) (signed item here) (agrees item here))
        (fun other member => genuine other (later other member))
        (fun other member => signed other (later other member))
        (fun first firstMem second secondMem =>
          among first (later first firstMem) second (later second secondMem)) ?_
      intro other member subscriber found
      rw [lookup_remember] at found
      split_ifs at found with equal
      · cases found
        cases old : subscribers.lookup item.1.id with
        | none => exact among item here other (later other member) equal.symm
        | some existing =>
            exact agrees other (later other member) existing (equal ▸ old)
      · exact agrees other (later other member) subscriber found

/-! ## Reloading -/

variable {db : Database}

/-- The rows of an account all carry the same Session key. -/
def OneKeyPerAccount (tables : Tables) : Prop :=
  ∀ first ∈ tables.subscriptions, ∀ second ∈ tables.subscriptions,
    first.device.account = second.device.account →
      first.data.sessionEd25519 = second.data.sessionEd25519

/-- A reload of tables that hold one key for each account. -/
theorem vouched_start {now : SysTime} {threads : Nat} {clock : Nat → SysTime} {hive : HiveMind}
    (written : Written env (dbCleanup now db))
    (oneKey : OneKeyPerAccount (dbCleanup now db).tables)
    (launched : start env now threads clock db = .ok hive) : Vouched env hive.subscribers := by
  obtain ⟨subs, -, rows, rfl⟩ := start_ok launched
  have genuine : ∀ item ∈ subs, item.1.Genuine env := by
    intro item member
    obtain ⟨row, rowMem, loaded, read, key, -⟩ := rows item member
    obtain ⟨request, accepted, same, -, -⟩ := request_of_loadRow written rowMem read
    rw [key, same]
    exact accepted.genuine
  have signed : ∀ item ∈ subs, item.2.SignedBy env item.1 := by
    intro item member
    obtain ⟨row, rowMem, loaded, read, key, offer⟩ := rows item member
    obtain ⟨request, accepted, same, offered, -⟩ := request_of_loadRow written rowMem read
    rw [key, same] at offer ⊢
    exact accepted.signed.of_offer_eq (offered.symm.trans offer.symm)
  have among : ∀ first ∈ subs, ∀ second ∈ subs, first.1.id = second.1.id →
      first.1.ed25519 = second.1.ed25519 := by
    intro first firstMem second secondMem same
    obtain ⟨row, rowMem, loaded, read, key, -⟩ := rows first firstMem
    obtain ⟨other, otherMem, loadedOther, readOther, keyOther, -⟩ := rows second secondMem
    rw [key, keyOther, SwarmPubkey.eq_of_make (make_of_loadRow read),
      SwarmPubkey.eq_of_make (make_of_loadRow readOther)] at same ⊢
    have accounts : row.device.account = other.device.account := same
    simp only [accounts, oneKey row rowMem other otherMem accounts]
  exact (vouched_empty env).rememberAll genuine signed among fun _ _ _ found => by simp at found

end HiveMind

end Spns
