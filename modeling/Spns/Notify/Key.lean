import Mathlib.Data.List.TakeDrop
import Spns.Notify.Filter

/-!
# What the filter keys tell apart

A filter key is the hash of the service name, the device id and the message
hash, fed one after the other with nothing in between.  All three have variable
length, so the same bytes can be cut into admitted parts in more than one way.
The cut is unique exactly at the two ends of the range of lengths.
-/

namespace Spns.Notify

open Spns
open Spns.Storage

/-- `SERVICE_NAME_MAX_SIZE` -/
def serviceNameMaxSize : Nat := 32

/-- A service name, device id and message hash of admitted sizes. -/
structure AdmittedTriple extends Triple where
  serviceMin : 1 ≤ service.length
  serviceMax : service.length ≤ serviceNameMaxSize
  svcidMin : serviceIdMinSize ≤ svcid.length
  svcidMax : svcid.length ≤ serviceIdMaxSize
  hashMin : msgHashMinSize ≤ hash.length
  hashMax : hash.length ≤ msgHashMaxSize

/-- The bytes that `blake2b(service, svcid, hash)` feeds to the hash. -/
def Triple.fedBytes (triple : Triple) : Bytes :=
  [triple.service, triple.svcid, triple.hash].flatten

/-- All three parts have their least size, or all three their greatest. -/
def Triple.IsExtreme (triple : Triple) : Prop :=
  (triple.service.length = 1 ∧ triple.svcid.length = serviceIdMinSize ∧
    triple.hash.length = msgHashMinSize) ∨
  (triple.service.length = serviceNameMaxSize ∧ triple.svcid.length = serviceIdMaxSize ∧
    triple.hash.length = msgHashMaxSize)

theorem filterKey_eq_generichash {π κ : Type} (env : Env π κ) (triple : Triple) :
    filterKey env triple = env.generichash triple.fedBytes :=
  rfl

namespace Triple

theorem fedBytes_eq_append (triple : Triple) :
    triple.fedBytes = triple.service ++ (triple.svcid ++ triple.hash) := by
  simp [fedBytes]

theorem length_fedBytes (triple : Triple) :
    triple.fedBytes.length =
      triple.service.length + (triple.svcid.length + triple.hash.length) := by
  simp [fedBytes_eq_append]

/-- Parts of equal sizes that feed the same bytes are the same. -/
theorem eq_of_fedBytes_eq {first second : Triple} (fed : first.fedBytes = second.fedBytes)
    (service : first.service.length = second.service.length)
    (svcid : first.svcid.length = second.svcid.length) : first = second := by
  rw [fedBytes_eq_append, fedBytes_eq_append] at fed
  obtain ⟨sameService, rest⟩ := List.append_inj fed service
  obtain ⟨sameSvcid, sameHash⟩ := List.append_inj rest svcid
  cases first
  cases second
  simp_all

/-- Cut a byte string into three parts. -/
def recut (bytes : Bytes) (service svcid : Nat) : Triple where
  service := bytes.take service
  svcid := (bytes.drop service).take svcid
  hash := (bytes.drop service).drop svcid

theorem fedBytes_recut (bytes : Bytes) (service svcid : Nat) :
    (recut bytes service svcid).fedBytes = bytes := by
  rw [fedBytes_eq_append, recut, List.take_append_drop, List.take_append_drop]

end Triple

/-- Other sizes with the same sum exist except at the two ends. -/
theorem exists_other_sizes {service svcid hash : Nat} (serviceRange : 1 ≤ service ∧ service ≤ 32)
    (svcidRange : 32 ≤ svcid ∧ svcid ≤ 999) (hashRange : 32 ≤ hash ∧ hash ≤ 99)
    (notLeast : ¬ (service = 1 ∧ svcid = 32 ∧ hash = 32))
    (notGreatest : ¬ (service = 32 ∧ svcid = 999 ∧ hash = 99)) :
    ∃ service' svcid' hash', (1 ≤ service' ∧ service' ≤ 32) ∧ (32 ≤ svcid' ∧ svcid' ≤ 999) ∧
      (32 ≤ hash' ∧ hash' ≤ 99) ∧ service' + (svcid' + hash') = service + (svcid + hash) ∧
      service' ≠ service := by
  by_cases longService : service = 32
  · by_cases longSvcid : svcid = 999
    · exact ⟨31, 999, hash + 1, by omega⟩
    · exact ⟨31, svcid + 1, hash, by omega⟩
  · by_cases shortSvcid : svcid = 32
    · by_cases shortHash : hash = 32
      · exact ⟨service - 1, 33, 32, by omega⟩
      · exact ⟨service + 1, 32, hash - 1, by omega⟩
    · exact ⟨service + 1, svcid - 1, hash, by omega⟩

namespace AdmittedTriple

/-- Between the two ends the fed bytes can be cut in another admitted way. -/
theorem exists_other_of_not_extreme (triple : AdmittedTriple)
    (inner : ¬ triple.toTriple.IsExtreme) :
    ∃ other : AdmittedTriple, other ≠ triple ∧
      other.toTriple.fedBytes = triple.toTriple.fedBytes := by
  obtain ⟨notLeast, notGreatest⟩ := not_or.mp inner
  obtain ⟨service, svcid, hash, serviceRange, svcidRange, hashRange, sum, moved⟩ :=
    exists_other_sizes ⟨triple.serviceMin, triple.serviceMax⟩
      ⟨triple.svcidMin, triple.svcidMax⟩ ⟨triple.hashMin, triple.hashMax⟩ notLeast notGreatest
  have total := triple.toTriple.length_fedBytes
  let parts := Triple.recut triple.toTriple.fedBytes service svcid
  have serviceLength : parts.service.length = service := by
    simp only [parts, Triple.recut, List.length_take]
    omega
  have svcidLength : parts.svcid.length = svcid := by
    simp only [parts, Triple.recut, List.length_take, List.length_drop]
    omega
  have hashLength : parts.hash.length = hash := by
    simp only [parts, Triple.recut, List.length_drop]
    omega
  let other : AdmittedTriple :=
    { parts with
      serviceMin := serviceLength ▸ serviceRange.1
      serviceMax := serviceLength ▸ serviceRange.2
      svcidMin := svcidLength ▸ svcidRange.1
      svcidMax := svcidLength ▸ svcidRange.2
      hashMin := hashLength ▸ hashRange.1
      hashMax := hashLength ▸ hashRange.2 }
  refine ⟨other, ?_, Triple.fedBytes_recut _ service svcid⟩
  intro same
  apply moved
  rw [← serviceLength, ← same]

/-- At the two ends the sum of the sizes leaves no choice. -/
theorem eq_of_extreme {triple other : AdmittedTriple} (extreme : triple.toTriple.IsExtreme)
    (fed : other.toTriple.fedBytes = triple.toTriple.fedBytes) : other = triple := by
  have total := congrArg List.length fed
  rw [Triple.length_fedBytes, Triple.length_fedBytes] at total
  have serviceMin := other.serviceMin
  have serviceMax := other.serviceMax
  have svcidMin := other.svcidMin
  have svcidMax := other.svcidMax
  have hashMin := other.hashMin
  have hashMax := other.hashMax
  have sizes : other.service.length = triple.service.length ∧
      other.svcid.length = triple.svcid.length := by
    rcases extreme with ⟨service, svcid, hash⟩ | ⟨service, svcid, hash⟩ <;> omega
  have parts := Triple.eq_of_fedBytes_eq fed sizes.1 sizes.2
  cases other
  cases triple
  cases parts
  rfl

/-- The bytes fed for an admitted triple are its own exactly at the two ends of
the range of sizes; and so is its filter key, for a hash without collisions. -/
theorem fed_bytes_unique_iff {π κ : Type} (env : Env π κ)
    (collisionFree : Function.Injective env.generichash) (triple : AdmittedTriple) :
    ((∀ other : AdmittedTriple, other ≠ triple →
        other.toTriple.fedBytes ≠ triple.toTriple.fedBytes) ↔ triple.toTriple.IsExtreme) ∧
    ((∀ other : AdmittedTriple, other ≠ triple →
        filterKey env other.toTriple ≠ filterKey env triple.toTriple) ↔
      triple.toTriple.IsExtreme) := by
  have bytes : (∀ other : AdmittedTriple, other ≠ triple →
      other.toTriple.fedBytes ≠ triple.toTriple.fedBytes) ↔ triple.toTriple.IsExtreme := by
    constructor
    · intro unique
      by_contra inner
      obtain ⟨other, different, fed⟩ := triple.exists_other_of_not_extreme inner
      exact unique other different fed
    · intro extreme other different fed
      exact different (eq_of_extreme extreme fed)
  constructor
  · exact bytes
  · rw [← bytes]
    simp only [filterKey_eq_generichash, collisionFree.ne_iff]

/-- The shortest names, ids and hashes. -/
def least : AdmittedTriple where
  service := [102]
  svcid := List.replicate 32 97
  hash := List.replicate 32 98
  serviceMin := by decide
  serviceMax := by decide
  svcidMin := by decide
  svcidMax := by decide
  hashMin := by decide
  hashMax := by decide

theorem least_key_unique :
    least.toTriple.IsExtreme ∧ ∀ other : AdmittedTriple, other ≠ least →
      filterKey Sample.env other.toTriple ≠ filterKey Sample.env least.toTriple :=
  have extreme : least.toTriple.IsExtreme := Or.inl ⟨rfl, rfl, rfl⟩
  ⟨extreme, (fed_bytes_unique_iff Sample.env Function.injective_id least).2.mpr extreme⟩

/-- A device id of 33 bytes with a message hash of 32. -/
def longId : AdmittedTriple where
  service := [102]
  svcid := List.replicate 33 97
  hash := List.replicate 32 98
  serviceMin := by decide
  serviceMax := by decide
  svcidMin := by decide
  svcidMax := by decide
  hashMin := by decide
  hashMax := by decide

/-- The device id is one byte shorter and the message hash starts with that
byte. -/
def longHash : AdmittedTriple where
  service := [102]
  svcid := List.replicate 32 97
  hash := 97 :: List.replicate 32 98
  serviceMin := by decide
  serviceMax := by decide
  svcidMin := by decide
  svcidMax := by decide
  hashMin := by decide
  hashMax := by decide

/-- Two different devices and messages share their fed bytes, hence their filter
key under every hash function. -/
theorem longId_longHash_confused :
    longId.toTriple ≠ longHash.toTriple ∧
      longId.toTriple.fedBytes = longHash.toTriple.fedBytes ∧
      ∀ generichash : Bytes → Bytes,
        filterKey { Sample.env with generichash } longId.toTriple =
          filterKey { Sample.env with generichash } longHash.toTriple := by
  have fed : longId.toTriple.fedBytes = longHash.toTriple.fedBytes := by decide
  refine ⟨by decide, fed, ?_⟩
  intro generichash
  rw [filterKey_eq_generichash, filterKey_eq_generichash, fed]

end AdmittedTriple

end Spns.Notify
