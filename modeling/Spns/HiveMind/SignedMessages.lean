import Spns.Binary
import Spns.HiveMind.System
import Spns.Lib.Decimal

/-!
# What clients sign

Three kinds of byte strings are verified: the message of a subscription, the
message of an unsubscription and, under the key of the account, the tag of a
subaccount.  The messages are concatenations without lengths or separators.
As long as the clock shows a time of ten digits, an accepted timestamp has ten
digits too or, because time differences are taken modulo `2^64`, it lies
exactly `2^63` seconds before the clock and then has a minus sign and nineteen
digits; in both cases it can be told apart from what follows it.
-/

namespace Spns

open Spns.Hive
open Spns.Lib.Bencode

/-! ## Accepted requests -/

/-- Unix times with ten digits, with room for the accepted windows. -/
def TenDigits (time : Int) : Prop :=
  10 ^ 9 + 15 * 24 * 3600 ≤ time ∧ time ≤ 10 ^ 10 - 2 * 24 * 3600

instance (time : Int) : Decidable (TenDigits time) :=
  inferInstanceAs (Decidable (_ ∧ _))

/-- The arguments of a `Subscription` that its constructor accepts. -/
structure AcceptedMonitor (verify : Verify) where
  pubkey : SwarmPubkey
  subaccount : Option Subaccount
  namespaces : List Int
  wantData : Bool
  sigTs : Int
  sig : Signature
  skipValidation : Bool
  now : Int
  range : IsInt64 sigTs
  clock : TenDigits now
  accepted : ∃ made, Subscription.make verify pubkey subaccount namespaces wantData sigTs sig
    skipValidation now = .ok made

/-- An unsubscription that the server accepts. -/
structure AcceptedUnsubscribe (env : Env) where
  request : HiveMind.RemoveRequest
  hive : HiveMind
  now : SysTime
  clock : TenDigits (unixTimestamp now)
  accepted : ∃ result, hive.removeSubscription env now request = .ok result

namespace AcceptedMonitor

variable {verify : Verify}

/-- The message whose signature is verified, unless validation is skipped. -/
def message (monitor : AcceptedMonitor verify) : Bytes :=
  Subscription.monitorMessage monitor.pubkey monitor.namespaces monitor.wantData monitor.sigTs

end AcceptedMonitor

namespace AcceptedUnsubscribe

variable {env : Env}

/-- The message whose signature was verified. -/
def message (unsubscribe : AcceptedUnsubscribe env) : Bytes :=
  HiveMind.unsubscribeMessage unsubscribe.request

end AcceptedUnsubscribe

/-! ## Accepted timestamps -/

/-- The timestamps that are accepted while the clock has ten digits. -/
def PlainOrWrapped (sigTs : Int) : Prop :=
  (10 ^ 9 ≤ sigTs ∧ sigTs < 10 ^ 10) ∨ (-10 ^ 19 < sigTs ∧ sigTs ≤ -10 ^ 18)

/-- A timestamp in the window of the constructor, or one so far away that both
differences wrap around to the same value. -/
theorem AcceptedMonitor.plainOrWrapped {verify : Verify} (monitor : AcceptedMonitor verify) :
    PlainOrWrapped monitor.sigTs := by
  obtain ⟨-, -, -, recent, early, -⟩ := Subscription.make_accepts_iff.mp monitor.accepted
  have range := monitor.range
  have clock := monitor.clock
  simp only [IsInt64, TenDigits, int64, Int.bmod_def, signatureExpiry, signatureEarly] at *
  simp only [PlainOrWrapped]
  omega

theorem AcceptedUnsubscribe.plain {env : Env} (unsubscribe : AcceptedUnsubscribe env) :
    10 ^ 9 ≤ unsubscribe.request.sigTs ∧ unsubscribe.request.sigTs < 10 ^ 10 := by
  obtain ⟨result, accepted⟩ := unsubscribe.accepted
  have clock := unsubscribe.clock
  rw [HiveMind.removeSubscription] at accepted
  split_ifs at accepted with outside
  rw [not_or, not_lt, not_lt] at outside
  simp only [TenDigits, unixTimestamp, unsubscribeGrace, second] at *
  -- Truncation is rounding down here: the clock is far from zero.
  have positive : (0 : Int) ≤ unsubscribe.now := by
    by_contra negative
    have early := Int.tdiv_nonneg (a := -unsubscribe.now) (b := 1000000000) (by omega) (by omega)
    rw [Int.neg_tdiv] at early
    omega
  rw [Int.tdiv_eq_ediv_of_nonneg positive] at clock
  rw [Int.tdiv_eq_ediv_of_nonneg (by omega), Int.tdiv_eq_ediv_of_nonneg (by omega)] at outside
  omega

/-- The text of an accepted timestamp has a size that depends on its sign. -/
theorem length_intText_of_plainOrWrapped {sigTs : Int} (accepted : PlainOrWrapped sigTs) :
    (intText sigTs).length = if sigTs < 0 then 20 else 10 := by
  rcases accepted with plain | wrapped
  · rw [intText_of_nonneg (by omega), if_neg (by omega)]
    exact length_decimalDigits 9 (by omega) (by omega)
  · rw [intText_of_neg (by omega), if_pos (by omega), List.length_cons,
      length_decimalDigits 18 (by omega) (by omega)]

/-- The text of an accepted timestamp can be cut off the front. -/
theorem sigTs_of_text_append {first second : Int} {rest others : Bytes}
    (firstAccepted : PlainOrWrapped first) (secondAccepted : PlainOrWrapped second)
    (same : intText first ++ rest = intText second ++ others) :
    first = second ∧ rest = others := by
  have sizes : (intText first).length = (intText second).length := by
    rw [length_intText_of_plainOrWrapped firstAccepted,
      length_intText_of_plainOrWrapped secondAccepted]
    simp only [neg_iff_of_intText_append same]
  obtain ⟨text, after⟩ := List.append_inj same sizes
  exact ⟨intText_injective text, after⟩

/-- The hex form of an account can be cut off the front. -/
theorem account_of_hex_append {first second : AccountID} {rest others : Bytes}
    (same : toHex first.val ++ rest = toHex second.val ++ others) :
    first = second ∧ rest = others := by
  have sizes : (toHex first.val).length = (toHex second.val).length := by
    rw [length_toHex, length_toHex, first.property, second.property]
  obtain ⟨hex, after⟩ := List.append_inj same sizes
  exact ⟨Subtype.ext (toHex_injective hex), after⟩

/-! ## The messages -/

theorem AcceptedMonitor.eq_of_message_eq {verify : Verify} {first second : AcceptedMonitor verify}
    (same : first.message = second.message) :
    first.pubkey.id = second.pubkey.id ∧ first.sigTs = second.sigTs ∧
      first.wantData = second.wantData ∧ first.namespaces = second.namespaces := by
  simp only [message, Subscription.monitorMessage, List.append_assoc] at same
  obtain ⟨account, afterAccount⟩ := account_of_hex_append (List.append_cancel_left same)
  obtain ⟨sigTs, afterTime⟩ := sigTs_of_text_append first.plainOrWrapped second.plainOrWrapped
    afterAccount
  rw [List.singleton_append, List.singleton_append, List.cons.injEq] at afterTime
  obtain ⟨flag, texts⟩ := afterTime
  have someFirst := (Subscription.make_accepts_iff.mp first.accepted).1
  have someSecond := (Subscription.make_accepts_iff.mp second.accepted).1
  refine ⟨account, sigTs, ?_, intercalate_intText_injective someFirst someSecond texts⟩
  revert flag
  cases first.wantData <;> cases second.wantData <;> decide

theorem AcceptedUnsubscribe.eq_of_message_eq {env : Env} {first second : AcceptedUnsubscribe env}
    (same : first.message = second.message) :
    first.request.pubkey.id = second.request.pubkey.id ∧
      first.request.sigTs = second.request.sigTs := by
  simp only [message, HiveMind.unsubscribeMessage, List.append_assoc] at same
  obtain ⟨account, text⟩ := account_of_hex_append (List.append_cancel_left same)
  exact ⟨account, intText_injective text⟩

/-- A tag is too short to be one of the messages. -/
theorem length_monitorMessage (pubkey : SwarmPubkey) (namespaces : List Int) (wantData : Bool)
    (sigTs : Int) : 74 ≤ (Subscription.monitorMessage pubkey namespaces wantData sigTs).length := by
  simp only [Subscription.monitorMessage, List.length_append, length_toHex, pubkey.id.property,
    List.length_cons, List.length_nil]
  omega

theorem length_unsubscribeMessage (request : HiveMind.RemoveRequest) :
    77 ≤ (HiveMind.unsubscribeMessage request).length := by
  simp only [HiveMind.unsubscribeMessage, List.length_append, length_toHex,
    request.pubkey.id.property, List.length_cons, List.length_nil]
  omega

/-- While the clock has ten digits: an accepted subscription message tells
account, timestamp, data flag and namespaces, an accepted unsubscription
message tells account and timestamp, and no message is of the other kind or a
subaccount tag. -/
theorem signed_messages_unambiguous (env : Env) :
    (∀ first second : AcceptedMonitor env.verify, first.message = second.message →
      first.pubkey.id = second.pubkey.id ∧ first.sigTs = second.sigTs ∧
        first.wantData = second.wantData ∧ first.namespaces = second.namespaces) ∧
    (∀ first second : AcceptedUnsubscribe env, first.message = second.message →
      first.request.pubkey.id = second.request.pubkey.id ∧
        first.request.sigTs = second.request.sigTs) ∧
    (∀ (monitor : AcceptedMonitor env.verify) (unsubscribe : AcceptedUnsubscribe env),
      monitor.message ≠ unsubscribe.message) ∧
    (∀ (monitor : AcceptedMonitor env.verify) (tag : SubaccountTag), monitor.message ≠ tag.val) ∧
    ∀ (unsubscribe : AcceptedUnsubscribe env) (tag : SubaccountTag),
      unsubscribe.message ≠ tag.val := by
  refine ⟨fun _ _ same => AcceptedMonitor.eq_of_message_eq same,
    fun _ _ same => AcceptedUnsubscribe.eq_of_message_eq same, ?_, ?_, ?_⟩
  · intro monitor unsubscribe same
    have heads := congrArg List.head? same
    exact absurd (Option.some.inj heads) (by decide)
  · intro monitor tag same
    have sizes := congrArg List.length same
    have long := length_monitorMessage monitor.pubkey monitor.namespaces monitor.wantData
      monitor.sigTs
    rw [AcceptedMonitor.message, tag.property] at sizes
    omega
  · intro unsubscribe tag same
    have sizes := congrArg List.length same
    have long := length_unsubscribeMessage unsubscribe.request
    rw [AcceptedUnsubscribe.message, tag.property] at sizes
    omega

theorem accepted_at {time : Int} (clock : TenDigits time) :
    ∃ made, Subscription.make Sample.env.verify (Sample.request time).pubkey none [0] true time
      (Sample.request time).sub.sig false time = .ok made := by
  simp only [TenDigits] at clock
  refine Subscription.make_accepts_iff.mpr ⟨by decide, rfl, by omega, ?_, ?_, fun _ => rfl⟩ <;>
    rw [Int.sub_self] <;> decide

/-- The subscription of `Sample.request`, made at the time of its signature. -/
def monitorAt (time : Int) (clock : TenDigits time) : AcceptedMonitor Sample.env.verify where
  pubkey := (Sample.request time).pubkey
  subaccount := none
  namespaces := [0]
  wantData := true
  sigTs := time
  sig := (Sample.request time).sub.sig
  skipValidation := false
  now := time
  range := by
    simp only [TenDigits] at clock
    simp only [IsInt64]
    omega
  clock := clock
  accepted := accepted_at clock

theorem renewal_signs_another_message :
    (monitorAt 1700000000 (by decide)).message ≠ (monitorAt 1700000001 (by decide)).message := by
  intro same
  have times := ((signed_messages_unambiguous Sample.env).1 _ _ same).2.1
  exact absurd times (by decide)

end Spns
