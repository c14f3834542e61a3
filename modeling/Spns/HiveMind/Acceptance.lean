import Spns.HiveMind.Loading
import Spns.HiveMind.SignedMessages

/-!
# Which subscriptions are accepted

The rules for a subscription, stated apart from the constructor that checks
them: the namespaces are listed in ascending order, the signature is neither
too old nor from the future, and it is good.  The constructor subtracts before
it compares.  Both differences wrap around at a timestamp that lies exactly
`2^63` seconds before the clock, and there they hide its age; at every other
timestamp the constructor follows the rules.
-/

namespace Spns.Hive.Subscription

open Spns
open Spns.Lib.Bencode

/-- The signatures that authorise a message: the signature of the account or,
with a subaccount, that of the key in its tag, which the account has to have
signed for reading and for its own prefix or for any. -/
def Authorises (verify : Verify) (pubkey : SwarmPubkey) (subaccount : Option Subaccount)
    (message : Bytes) (sig : Signature) : Prop :=
  match subaccount with
  | none => verify message sig pubkey.ed25519 = true
  | some sub =>
      sub.tag.byteAt 1 &&& subaccFlagRead ≠ 0 ∧
        (sub.tag.byteAt 0 = pubkey.id.byteAt 0 ∨ sub.tag.byteAt 1 &&& subaccFlagAnyPrefix ≠ 0) ∧
        verify sub.tag.val sub.sig pubkey.ed25519 = true ∧
        verify message sig (sub.tag.slice 4 32 tagKey_fits) = true

/-- The rules that do not concern the time. -/
structure Sound (verify : Verify) (pubkey : SwarmPubkey) (subaccount : Option Subaccount)
    (namespaces : List Int) (wantData : Bool) (sigTs : Int) (sig : Signature) : Prop where
  nonempty : namespaces ≠ []
  ascending : namespaces.Pairwise (· < ·)
  signed : Authorises verify pubkey subaccount
    (monitorMessage pubkey namespaces wantData sigTs) sig

/-- The rules for the time of the signature. -/
structure Timely (now sigTs : Int) : Prop where
  present : sigTs ≠ 0
  recent : now - 14 * 24 * 3600 < sigTs
  early : sigTs < now + 24 * 3600

theorem authorises_iff {verify : Verify} {pubkey : SwarmPubkey} {subaccount : Option Subaccount}
    {message : Bytes} {sig : Signature} :
    verifyStorageSignature verify message sig pubkey subaccount = .ok () ↔
      Authorises verify pubkey subaccount message sig := by
  rw [verifyStorageSignature_eq_ok_iff]
  cases subaccount with
  | none => exact Iff.rfl
  | some sub => exact and_congr_right fun _ => and_congr_left fun _ => or_comm

/-- The wrapped differences only miss the timestamp at which both of them are
`-2^63`. -/
theorem timely_or_wrapped_iff {now sigTs : Int} (range : IsInt64 sigTs)
    (clock : 15 * 24 * 3600 ≤ now ∧ now < 2 ^ 62) :
    (sigTs ≠ 0 ∧ int64 (now - sigTs) < signatureExpiry ∧
        int64 (sigTs - now) < signatureEarly) ↔
      Timely now sigTs ∨ sigTs = now - 2 ^ 63 := by
  have fields : Timely now sigTs ↔
      sigTs ≠ 0 ∧ now - 14 * 24 * 3600 < sigTs ∧ sigTs < now + 24 * 3600 :=
    ⟨fun timely => ⟨timely.present, timely.recent, timely.early⟩,
      fun ⟨present, recent, early⟩ => ⟨present, recent, early⟩⟩
  rw [fields]
  simp only [IsInt64, int64, Int.bmod_def, signatureExpiry, signatureEarly] at range ⊢
  omega

/-- What the constructor accepts. -/
theorem make_accepts_iff_sound {verify : Verify} {pubkey : SwarmPubkey}
    {subaccount : Option Subaccount} {namespaces : List Int} {wantData : Bool} {sigTs : Int}
    {sig : Signature} {now : Int} (range : IsInt64 sigTs)
    (clock : 15 * 24 * 3600 ≤ now ∧ now < 2 ^ 62) :
    (∃ made, make verify pubkey subaccount namespaces wantData sigTs sig false now = .ok made) ↔
      Sound verify pubkey subaccount namespaces wantData sigTs sig ∧
        (Timely now sigTs ∨ sigTs = now - 2 ^ 63) := by
  rw [make_accepts_iff, ← timely_or_wrapped_iff range clock]
  constructor
  · rintro ⟨nonempty, ascending, present, recent, early, verified⟩
    exact ⟨⟨nonempty, pairwise_of_namespaceError_eq_none ascending,
      authorises_iff.mp (verified rfl)⟩, present, recent, early⟩
  · rintro ⟨sound, present, recent, early⟩
    exact ⟨sound.nonempty, namespaceError_of_pairwise sound.ascending, present, recent, early,
      fun _ => authorises_iff.mpr sound.signed⟩

/-- The constructor follows the rules unless the timestamp lies `2^63` seconds
before the clock and the rest is in order. -/
theorem accepts_as_specified_iff (verify : Verify) (pubkey : SwarmPubkey)
    (subaccount : Option Subaccount) (namespaces : List Int) (wantData : Bool) (sigTs : Int)
    (sig : Signature) (now : Int) (range : IsInt64 sigTs)
    (clock : 15 * 24 * 3600 ≤ now ∧ now < 2 ^ 62) :
    ((∃ made, make verify pubkey subaccount namespaces wantData sigTs sig false now = .ok made) ↔
        Sound verify pubkey subaccount namespaces wantData sigTs sig ∧ Timely now sigTs) ↔
      ¬(sigTs = now - 2 ^ 63 ∧
        Sound verify pubkey subaccount namespaces wantData sigTs sig) := by
  rw [make_accepts_iff_sound range clock]
  constructor
  · rintro follows ⟨wrapped, sound⟩
    have recent := (follows.mp ⟨sound, Or.inr wrapped⟩).2.recent
    omega
  · intro usual
    constructor
    · rintro ⟨sound, timely | wrapped⟩
      · exact ⟨sound, timely⟩
      · exact absurd ⟨wrapped, sound⟩ usual
    · exact fun ⟨sound, timely⟩ => ⟨sound, Or.inl timely⟩

/-- A signature of the present is accepted as the rules say. -/
theorem present_signature_accepted :
    (∃ made, make Sample.env.verify (Sample.request 0).pubkey none [0, 3] true 1700000000
        (Sample.request 0).sub.sig false 1700000000 = .ok made) ∧
      Timely 1700000000 1700000000 := by
  have follows := accepts_as_specified_iff Sample.env.verify (Sample.request 0).pubkey none [0, 3]
    true 1700000000 (Sample.request 0).sub.sig 1700000000 ⟨by decide, by decide⟩
    ⟨by decide, by decide⟩
  have timely : Timely 1700000000 1700000000 := ⟨by decide, by decide, by decide⟩
  refine ⟨(follows.mpr ?_).mpr ⟨⟨by decide, by decide, rfl⟩, timely⟩, timely⟩
  exact fun wrapped => absurd wrapped.1 (by decide)

/-- A signature from the distant past is accepted. -/
theorem distant_signature_accepted :
    ¬((∃ made, make Sample.env.verify (Sample.request 0).pubkey none [0, 3] true
          (1700000000 - 2 ^ 63) (Sample.request 0).sub.sig false 1700000000 = .ok made) ↔
        Sound Sample.env.verify (Sample.request 0).pubkey none [0, 3] true
            (1700000000 - 2 ^ 63) (Sample.request 0).sub.sig ∧
          Timely 1700000000 (1700000000 - 2 ^ 63)) := by
  intro follows
  have accepted : ∃ made, make Sample.env.verify (Sample.request 0).pubkey none [0, 3] true
      (1700000000 - 2 ^ 63) (Sample.request 0).sub.sig false 1700000000 = .ok made :=
    ⟨_, rfl⟩
  exact absurd (follows.mp accepted).2.recent (by decide)

end Spns.Hive.Subscription
