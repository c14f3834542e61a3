import Spns.Bytes

/-!
# Accounts and their swarms

An account is identified by its 33-byte id; two keys are equal when the ids
are.  Every key also caches the id of the swarm it belongs to.  The cache is
only written by `updateSwarm`, and each copy of a key has a cache of its own.
-/

namespace Spns

/-- The reserved swarm id of keys and nodes that have no swarm. -/
def invalidSwarmId : UInt64 := 0xffffffffffffffff

/-- Big-endian 64-bit word of up to eight bytes. -/
def loadBigToHost (bytes : Bytes) : UInt64 :=
  bytes.foldl (fun word byte => word * 256 + byte.toUInt64) 0

/-- Position of an account on the ring of swarms: the exclusive or of the four
words of its key, without the prefix byte. -/
def calcSwarmSpace (id : AccountID) : UInt64 :=
  loadBigToHost ((id.val.drop 1).take 8) ^^^
    loadBigToHost ((id.val.drop 9).take 8) ^^^
    loadBigToHost ((id.val.drop 17).take 8) ^^^
    loadBigToHost ((id.val.drop 25).take 8)

/-- An account key.  `swarm` is the mutable cache of the source. -/
structure SwarmPubkey where
  id : AccountID
  ed25519 : Ed25519PK
  sessionEd : Bool
  swarm : UInt64
  deriving DecidableEq

namespace SwarmPubkey

/-- The constructor.  `toCurve` is the Ed25519 to X25519 conversion of
libsodium. -/
def make (toCurve : Ed25519PK → Option X25519PK) (id : AccountID) (ed : Option Ed25519PK)
    (skipValidation : Bool) : Except String SwarmPubkey :=
  match ed with
  | none => .ok ⟨id, id.slice 1 32 accountKey_fits, false, invalidSwarmId⟩
  | some key =>
      if id.byteAt 0 ≠ 5 then
        .error "session_ed25519 may only be used with 05-prefixed session IDs"
      else if skipValidation then
        .ok ⟨id, key, true, invalidSwarmId⟩
      else
        match toCurve key with
        | none => .error "Failed to convert session_ed25519 to x25519 pubkey"
        | some derived =>
            if 5 :: derived.val = id.val then
              .ok ⟨id, key, true, invalidSwarmId⟩
            else
              .error ("account_id/session_ed25519 mismatch: session_ed25519 does not convert to "
                ++ "given account_id")

/-- What the constructor makes where it does not throw. -/
theorem eq_of_make {toCurve : Ed25519PK → Option X25519PK} {id : AccountID} {ed : Option Ed25519PK}
    {skipValidation : Bool} {key : SwarmPubkey}
    (made : make toCurve id ed skipValidation = .ok key) :
    key = ⟨id, ed.getD (id.slice 1 32 accountKey_fits), ed.isSome, invalidSwarmId⟩ := by
  cases ed with
  | none =>
      cases made
      rfl
  | some session =>
      rw [make] at made
      split at made
      · contradiction
      · split at made
        · cases made
          rfl
        · split at made
          · contradiction
          · split at made
            · cases made
              rfl
            · contradiction

/-- Ring position of a key; it never changes after construction. -/
def swarmSpace (key : SwarmPubkey) : UInt64 :=
  calcSwarmSpace key.id

end SwarmPubkey

/-- The swarm id that `update_swarm` selects for a ring position.  On the
sorted lists it is given, `lower_bound` is the first id not below `space`. -/
def closestSwarm (space : UInt64) : List UInt64 → UInt64
  | [] => invalidSwarmId
  | [only] => only
  | first :: second :: rest =>
      let ids := first :: second :: rest
      let bound := ids.findIdx fun id => space ≤ id
      let right := if bound = ids.length then 0 else bound
      let left := (if right = 0 then ids.length else right) - 1
      let rightId := ids.getD right invalidSwarmId
      let leftId := ids.getD left invalidSwarmId
      if rightId - space < space - leftId then rightId else leftId

/-- The swarm of an account under a list of swarm ids. -/
def swarmOf (swarmIds : List UInt64) (id : AccountID) : UInt64 :=
  closestSwarm (calcSwarmSpace id) swarmIds

namespace SwarmPubkey

/-- `update_swarm`: refresh the cached swarm, and say whether it changed. -/
def updateSwarm (swarmIds : List UInt64) (key : SwarmPubkey) : SwarmPubkey × Bool :=
  let closest := closestSwarm key.swarmSpace swarmIds
  if closest ≠ key.swarm then ({ key with swarm := closest }, true) else (key, false)

/-- The updated copy of a key, whatever its cache held before. -/
theorem updateSwarm_fst (swarmIds : List UInt64) (key : SwarmPubkey) :
    (key.updateSwarm swarmIds).1 = { key with swarm := swarmOf swarmIds key.id } := by
  by_cases same : closestSwarm key.swarmSpace swarmIds = key.swarm
  · have cached : swarmOf swarmIds key.id = key.swarm := same
    simp [updateSwarm, same, cached]
  · unfold updateSwarm
    rw [if_pos same]
    rfl

end SwarmPubkey

end Spns
