import Mathlib.Algebra.Order.Ring.Int
import Mathlib.Data.List.Sort
import Mathlib.Tactic.Common
import Spns.Lib.Bencode
import Spns.SwarmPubkey

/-!
# Subscriptions

A subscription is what a device asks the swarm of an account to monitor.  Its
constructor checks the namespace list, the signature timestamp and, unless
validation is skipped, the signature itself; a value of the structure below
carries the facts about the namespace list that the constructor has checked.

Timestamps of signatures are unix seconds, and clocks count nanoseconds.  Both
are 64-bit two's-complement numbers in the source, and so are the results of
its arithmetic on them.
-/

namespace Spns.Hive

open Spns
open Spns.Lib.Bencode

/-- A value as a signed 64-bit integer. -/
def int64 (value : Int) : Int :=
  Int.bmod value (2 ^ 64)

/-- The values of `int64_t`. -/
def IsInt64 (value : Int) : Prop :=
  -2 ^ 63 ≤ value ∧ value < 2 ^ 63

instance (value : Int) : Decidable (IsInt64 value) :=
  inferInstanceAs (Decidable (_ ∧ _))

/-- A value that fits does not wrap around. -/
theorem int64_eq {value : Int} (fits : IsInt64 value) : int64 value = value := by
  simp only [IsInt64, int64, Int.bmod_def] at *
  omega

/-- Clock ticks in one second. -/
def second : Int := 1000000000

/-- `SIGNATURE_EXPIRY`, 14 days in seconds. -/
def signatureExpiry : Int := 14 * 24 * 3600

/-- `SIGNATURE_EARLY`, 24 hours in seconds. -/
def signatureEarly : Int := 24 * 3600

/-! ## Signatures -/

/-- Signature verification of libsodium, `crypto_sign_verify_detached`. -/
abbrev Verify := Bytes → Signature → Ed25519PK → Bool

/-- `SUBACC_FLAG_READ` -/
def subaccFlagRead : UInt8 := 1

/-- `SUBACC_FLAG_ANY_PREFIX` -/
def subaccFlagAnyPrefix : UInt8 := 8

/-- `verify_storage_signature`: the thrown `signature_verify_failure`s are the
errors. -/
def verifyStorageSignature (verify : Verify) (sigMsg : Bytes) (sig : Signature)
    (pubkey : SwarmPubkey) (subaccount : Option Subaccount) : Except String Unit :=
  match subaccount with
  | some sub =>
      let accountPrefix := sub.tag.byteAt 0
      let flags := sub.tag.byteAt 1
      if flags &&& subaccFlagRead = 0 then
        .error "Invalid subaccount: this subaccount does not have read permission"
      else if flags &&& subaccFlagAnyPrefix = 0 ∧ accountPrefix ≠ pubkey.id.byteAt 0 then
        .error "Invalid subaccount: subaccount and main account have mismatched network prefix"
      else if verify sub.tag.val sub.sig pubkey.ed25519 = false then
        .error "Subaccount auth signature verification failed"
      else if verify sigMsg sig (sub.tag.slice 4 32 tagKey_fits) = false then
        .error "Subaccount main signature verification failed"
      else
        .ok ()
  | none =>
      if verify sigMsg sig pubkey.ed25519 = false then
        .error "Signature verification failed"
      else
        .ok ()

/-- What the check accepts. -/
theorem verifyStorageSignature_eq_ok_iff {verify : Verify} {sigMsg : Bytes} {sig : Signature}
    {pubkey : SwarmPubkey} {subaccount : Option Subaccount} :
    verifyStorageSignature verify sigMsg sig pubkey subaccount = .ok () ↔
      match subaccount with
      | none => verify sigMsg sig pubkey.ed25519 = true
      | some sub =>
          sub.tag.byteAt 1 &&& subaccFlagRead ≠ 0 ∧
            (sub.tag.byteAt 1 &&& subaccFlagAnyPrefix ≠ 0 ∨
              sub.tag.byteAt 0 = pubkey.id.byteAt 0) ∧
            verify sub.tag.val sub.sig pubkey.ed25519 = true ∧
            verify sigMsg sig (sub.tag.slice 4 32 tagKey_fits) = true := by
  cases subaccount with
  | none =>
      unfold verifyStorageSignature
      cases verify sigMsg sig pubkey.ed25519 <;> simp
  | some sub =>
      unfold verifyStorageSignature
      simp only
      split_ifs with unreadable mismatched forged unsigned
      · simp [unreadable]
      · simp [mismatched.1, mismatched.2]
      · simp [forged]
      · simp [unsigned]
      · rw [not_and_or, not_not] at mismatched
        simp [unreadable, mismatched, forged, unsigned]

/-! ## The subscription record -/

/-- A subscription as the constructor leaves it. -/
structure Subscription where
  subaccount : Option Subaccount
  namespaces : List Int
  wantData : Bool
  sigTs : Int
  sig : Signature
  nonempty : namespaces ≠ []
  sorted : namespaces.Pairwise (· < ·)
  deriving DecidableEq

namespace Subscription

/-- A subscription for one namespace and its data, without a subaccount. -/
def single (ns sigTs : Int) (sig : Signature) : Subscription :=
  ⟨none, [ns], true, sigTs, sig, List.cons_ne_nil ns [], List.pairwise_singleton _ ns⟩

/-- `"MONITOR" || HEX(ACCOUNT) || SIG_TS || DATA01 || NS[0] || "," || ...` -/
def monitorMessage (pubkey : SwarmPubkey) (namespaces : List Int) (wantData : Bool)
    (sigTs : Int) : Bytes :=
  [77, 79, 78, 73, 84, 79, 82] ++ toHex pubkey.id.val ++ intText sigTs ++
    [if wantData then 49 else 48] ++ List.intercalate [44] (namespaces.map intText)

/-- First complaint of the constructor about neighbouring namespaces. -/
def namespaceError : List Int → Option String
  | first :: second :: rest =>
      if first > second then
        some "Subscription: namespaces are not sorted numerically"
      else if first = second then
        some "Subscription: namespaces contains duplicates"
      else
        namespaceError (second :: rest)
  | _ => none

theorem pairwise_of_namespaceError_eq_none {namespaces : List Int}
    (accepted : namespaceError namespaces = none) : namespaces.Pairwise (· < ·) := by
  rw [← List.isChain_iff_pairwise]
  induction namespaces with
  | nil => exact .nil
  | cons first rest ih =>
      cases rest with
      | nil => exact .singleton first
      | cons second rest =>
          rw [namespaceError] at accepted
          split at accepted
          · contradiction
          · split at accepted
            · contradiction
            · rename_i notGreater notEqual
              exact .cons_cons (by omega) (ih accepted)

/-- The constructor; `now` is the current time in seconds. -/
def make (verify : Verify) (pubkey : SwarmPubkey) (subaccount : Option Subaccount)
    (namespaces : List Int) (wantData : Bool) (sigTs : Int) (sig : Signature)
    (skipValidation : Bool) (now : Int) : Except String Subscription :=
  if nonempty : namespaces = [] then
    .error "Subscription: namespaces missing or empty"
  else
    match accepted : namespaceError namespaces with
    | some complaint => .error complaint
    | none =>
        if sigTs = 0 then
          .error "Subscription: signature timestamp is missing"
        else if signatureExpiry ≤ int64 (now - sigTs) then
          .error ("Subscription: sig_ts timestamp is too old (" ++
            toString (int64 (now - sigTs)) ++ "s ago)")
        else if signatureEarly ≤ int64 (sigTs - now) then
          .error "Subscription: sig_ts timestamp is too far in the future"
        else
          let made : Subscription :=
            ⟨subaccount, namespaces, wantData, sigTs, sig, nonempty,
              pairwise_of_namespaceError_eq_none accepted⟩
          if skipValidation then
            .ok made
          else
            match verifyStorageSignature verify
                (monitorMessage pubkey namespaces wantData sigTs) sig pubkey subaccount with
            | .error failure => .error failure
            | .ok () => .ok made

/-- A constructed subscription holds exactly the arguments it was given. -/
theorem make_eq_ok_fields {verify : Verify} {pubkey : SwarmPubkey}
    {subaccount : Option Subaccount} {namespaces : List Int} {wantData : Bool} {sigTs : Int}
    {sig : Signature} {skipValidation : Bool} {now : Int} {made : Subscription}
    (built : make verify pubkey subaccount namespaces wantData sigTs sig skipValidation now =
      .ok made) :
    made.subaccount = subaccount ∧ made.namespaces = namespaces ∧ made.wantData = wantData ∧
      made.sigTs = sigTs ∧ made.sig = sig := by
  rw [make] at built
  split at built
  · contradiction
  · split at built
    · contradiction
    · split_ifs at built
      · cases built
        exact ⟨rfl, rfl, rfl, rfl, rfl⟩
      · split at built
        · contradiction
        · cases built
          exact ⟨rfl, rfl, rfl, rfl, rfl⟩

/-- What the constructor accepts. -/
theorem make_accepts_iff {verify : Verify} {pubkey : SwarmPubkey}
    {subaccount : Option Subaccount} {namespaces : List Int} {wantData : Bool} {sigTs : Int}
    {sig : Signature} {skipValidation : Bool} {now : Int} :
    (∃ made, make verify pubkey subaccount namespaces wantData sigTs sig skipValidation now =
        .ok made) ↔
      namespaces ≠ [] ∧ namespaceError namespaces = none ∧ sigTs ≠ 0 ∧
        int64 (now - sigTs) < signatureExpiry ∧ int64 (sigTs - now) < signatureEarly ∧
        (skipValidation = false →
          verifyStorageSignature verify (monitorMessage pubkey namespaces wantData sigTs) sig
            pubkey subaccount = .ok ()) := by
  rw [make]
  split
  · simp [*]
  · split
    · simp [*]
    · split_ifs with zero old early skip
      · simp [zero]
      · simp [Int.not_lt.mpr old]
      · simp [Int.not_lt.mpr early]
      · simp [*, Int.not_le.mp old, Int.not_le.mp early]
      · cases verified : verifyStorageSignature verify
            (monitorMessage pubkey namespaces wantData sigTs) sig pubkey subaccount with
        | error failure => simp [skip]
        | ok verdict => simp [*, Int.not_le.mp old, Int.not_le.mp early]

/-- `is_same` against the parts of a subscription that is not built yet. -/
def isSameParts (existing : Subscription) (subaccount : Option Subaccount)
    (namespaces : List Int) (wantData : Bool) : Bool :=
  Subaccount.isSameOptional existing.subaccount subaccount &&
    existing.namespaces == namespaces && existing.wantData == wantData

/-- `is_same`: the same subscription as far as the swarm is concerned. -/
def isSame (existing other : Subscription) : Bool :=
  existing.isSameParts other.subaccount other.namespaces other.wantData

/-- `is_newer` -/
def isNewer (sub other : Subscription) : Bool :=
  sub.sigTs > other.sigTs

/-- The in-place signature refresh of an existing entry. -/
def refresh (existing : Subscription) (sigTs : Int) (sig : Signature) : Subscription :=
  { existing with sigTs := sigTs, sig := sig }

end Subscription

end Spns.Hive
