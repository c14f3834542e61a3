import Mathlib.Data.List.Dedup
import Spns.HiveMind.FailedUpdate
import Spns.Lib.Ring

/-!
# Accounts belong to the nearest swarm

The ids of the swarms and the accounts lie on one ring of 64-bit numbers, and
an account belongs to the swarm that is nearest to it.  `update_swarm` finds it
by a search for the first id that is not below the account, with wrap-around at
both ends.  The search needs an ascending list, which is what the server has at
any time.
-/

namespace Spns

open Spns.Lib.Ring

/-- The number that some bytes stand for, most significant byte first. -/
def bigEndian (bytes : Bytes) : Nat :=
  bytes.foldl (fun value byte => value * 256 + byte.toNat) 0

/-- The place of an account on the ring: the exclusive or of the four words in
bytes 1 to 32 of its id. -/
def ringPosition (id : AccountID) : UInt64 :=
  UInt64.ofNat (bigEndian ((id.val.drop 1).take 8) ^^^ bigEndian ((id.val.drop 9).take 8) ^^^
    bigEndian ((id.val.drop 17).take 8) ^^^ bigEndian ((id.val.drop 25).take 8))

theorem loadBigToHost_eq (bytes : Bytes) :
    loadBigToHost bytes = UInt64.ofNat (bigEndian bytes) := by
  have step : ∀ value : Nat,
      bytes.foldl (fun word byte => word * 256 + byte.toUInt64) (UInt64.ofNat value) =
        UInt64.ofNat (bytes.foldl (fun value byte => value * 256 + byte.toNat) value) := by
    induction bytes with
    | nil => exact fun value => rfl
    | cons byte rest ih =>
        intro value
        rw [List.foldl_cons, List.foldl_cons, ← ih, UInt64.ofNat_add, UInt64.ofNat_mul,
          UInt64.ofNat_uInt8ToNat]
        rfl
  exact step 0

theorem calcSwarmSpace_eq (id : AccountID) : calcSwarmSpace id = ringPosition id := by
  rw [calcSwarmSpace, ringPosition]
  simp only [loadBigToHost_eq, UInt64.ofNat_xor]

/-- The search splits the list into the ids below the account and the rest. -/
theorem exists_findIdx_split (space : UInt64) (ids : List UInt64) :
    ∃ low high, ids = low ++ high ∧ ids.findIdx (fun id => space ≤ id) = low.length ∧
      (∀ id ∈ low, id < space) ∧ ∀ id ∈ high.head?, space ≤ id := by
  induction ids with
  | nil => exact ⟨[], [], rfl, rfl, by simp, by simp⟩
  | cons first rest ih =>
      rw [List.findIdx_cons]
      by_cases here : space ≤ first
      · exact ⟨[], first :: rest, rfl, by simp [here], by simp, by simp [here]⟩
      · obtain ⟨low, high, rfl, found, below, above⟩ := ih
        refine ⟨first :: low, high, rfl, by simp [here, found], ?_, above⟩
        exact List.forall_mem_cons.mpr ⟨UInt64.not_le.mp here, below⟩

/-- The element after some others. -/
theorem getD_append_cons (before after : List UInt64) (id fallback : UInt64) :
    (before ++ id :: after).getD before.length fallback = id := by
  simp [List.getD]

/-- Nothing in an ascending list lies below its first element. -/
theorem le_of_head {space first : UInt64} {rest : List UInt64}
    (ascending : (first :: rest).Pairwise (· < ·)) (here : space ≤ first) {id : UInt64}
    (member : id ∈ first :: rest) : space ≤ id := by
  rcases List.mem_cons.mp member with rfl | later
  · exact here
  · exact UInt64.le_trans here (UInt64.le_of_lt (List.rel_of_pairwise_cons ascending later))

/-- The ids to the right and to the left of the account, which the search takes
from the list by their indexes. -/
theorem exists_neighbours {ids : List UInt64} (ascending : ids.Pairwise (· < ·))
    (several : 2 ≤ ids.length) (space : UInt64) :
    let bound := ids.findIdx fun id => space ≤ id
    let right := if bound = ids.length then 0 else bound
    let left := (if right = 0 then ids.length else right) - 1
    NextUp space ids (ids.getD right invalidSwarmId) ∧
      NextDown space ids (ids.getD left invalidSwarmId) := by
  obtain ⟨low, high, rfl, found, below, above⟩ := exists_findIdx_split space ids
  simp only [found]
  rcases high with _ | ⟨next, high⟩
  · -- All ids are below the account.
    rw [List.append_nil] at ascending several ⊢
    obtain ⟨rest, last, rfl⟩ := (List.eq_nil_or_concat' low).resolve_left (by
      rintro rfl
      contradiction)
    rcases rest with _ | ⟨first, middle⟩
    · simp at several
    · have rightId := getD_append_cons [] (middle ++ [last]) first invalidSwarmId
      have up := nextUp_of_low ascending below
      have down := @nextDown_of_low space last (first :: middle) []
        (by simpa using ascending) (below last (by simp)) (by simp)
      rw [if_pos rfl, if_pos rfl]
      simp only [List.append_nil] at down
      constructor
      · exact rightId ▸ up
      · simpa using down
  · have here : space ≤ next := above next rfl
    rcases List.eq_nil_or_concat' low with rfl | ⟨rest, last, rfl⟩
    · -- No id is below the account.
      obtain ⟨middle, last, rfl⟩ := (List.eq_nil_or_concat' high).resolve_left (by
        rintro rfl
        simp at several)
      have up := @nextUp_of_high space next [] (middle ++ [last]) ascending below here
      have down := @nextDown_of_high space last (next :: middle) ascending
        (fun id member => le_of_head ascending here (List.mem_append_left [last] member))
        (List.cons_ne_nil next middle)
      rw [if_neg (by simp), List.length_nil, if_pos rfl]
      constructor
      · exact up
      · simpa using down
    · have up := nextUp_of_high ascending below here
      have down := @nextDown_of_low space last rest (next :: high) ascending
        (below last (by simp))
        (fun id member => le_of_head (List.pairwise_append.mp ascending).2.1 here member)
      rw [if_neg (by simp), if_neg (by simp), getD_append_cons]
      constructor
      · exact up
      · simpa using down

/-- The search finds the nearest id. -/
theorem closestSwarm_nearest {ids : List UInt64} (ascending : ids.Pairwise (· < ·))
    (some : ids ≠ []) (space : UInt64) : Nearest space ids (closestSwarm space ids) := by
  match ids, ascending, some with
  | [only], _, _ =>
      constructor
      · exact List.mem_singleton_self only
      · intro other member
        rw [List.mem_singleton.mp member]
        exact Nat.le_refl _
      · intro other member different
        exact absurd (List.mem_singleton.mp member) different
  | first :: second :: rest, ascending, _ =>
      obtain ⟨up, down⟩ := exists_neighbours ascending (by simp) space
      rw [closestSwarm]
      simp only [UInt64.lt_iff_toNat_lt]
      exact nearest_of_neighbours up down

/-- What `update_swarm` does on an ascending list of ids: the swarm becomes the
nearest one, whatever it was before, and the result says whether it changed. -/
theorem updateSwarm_nearest (key : SwarmPubkey) (swarmIds : List UInt64)
    (ascending : swarmIds.Pairwise (· < ·)) :
    (∀ previous, ({ key with swarm := previous }.updateSwarm swarmIds).1 =
        (key.updateSwarm swarmIds).1) ∧
      (key.updateSwarm swarmIds).1 =
        { key with swarm := (key.updateSwarm swarmIds).1.swarm } ∧
      (swarmIds = [] → (key.updateSwarm swarmIds).1.swarm = invalidSwarmId) ∧
      (swarmIds ≠ [] → ∀ id, (key.updateSwarm swarmIds).1.swarm = id ↔
        Nearest (ringPosition key.id) swarmIds id) ∧
      ((key.updateSwarm swarmIds).2 = true ↔ (key.updateSwarm swarmIds).1.swarm ≠ key.swarm) := by
  have updated : (key.updateSwarm swarmIds).1.swarm = swarmOf swarmIds key.id := by
    rw [SwarmPubkey.updateSwarm_fst]
  refine ⟨?_, ?_, ?_, ?_, ?_⟩
  · intro previous
    rw [SwarmPubkey.updateSwarm_fst, SwarmPubkey.updateSwarm_fst]
  · rw [SwarmPubkey.updateSwarm_fst]
  · rintro rfl
    rw [updated]
    rfl
  · intro some id
    have nearest := closestSwarm_nearest ascending some (ringPosition key.id)
    rw [updated, swarmOf, calcSwarmSpace_eq]
    constructor
    · rintro rfl
      exact nearest
    · exact nearest.unique
  · rw [updated, SwarmPubkey.updateSwarm]
    simp only [SwarmPubkey.swarmSpace, ← swarmOf.eq_def]
    split_ifs with changed
    · exact iff_of_true rfl changed
    · exact iff_of_false (by decide) changed

/-- An account at position 100 of the ring, with no swarm yet. -/
def hundredthKey : SwarmPubkey :=
  ⟨⟨5 :: List.replicate 7 0 ++ 100 :: List.replicate 24 0, rfl⟩, FixedBytes.replicate 32 0, false,
    invalidSwarmId⟩

/-- Of the two swarms at distance 40 the lower one is taken. -/
theorem hundredthKey_nearest :
    ringPosition hundredthKey.id = 100 ∧ Nearest 100 [60, 140, 500] 60 ∧
      (hundredthKey.updateSwarm [60, 140, 500]).2 = true := by
  have position : ringPosition hundredthKey.id = 100 := by decide +kernel
  obtain ⟨-, -, -, nearest, changed⟩ := updateSwarm_nearest hundredthKey [60, 140, 500] (by decide)
  refine ⟨position, ?_, ?_⟩
  · rw [← position]
    exact (nearest (by decide) 60).mp (by decide +kernel)
  · exact changed.mpr (by decide +kernel)

/-! ## The list of the server -/

theorem toSwarmIds_ascending (ids : List UInt64) : (toSwarmIds ids).Pairwise (· < ·) := by
  have sorted : (toSwarmIds ids).Pairwise (· ≤ ·) := List.pairwise_insertionSort (· ≤ ·) _
  have nodup : (toSwarmIds ids).Nodup :=
    (List.perm_insertionSort (· ≤ ·) _).nodup_iff.mpr (List.nodup_dedup _)
  refine (sorted.and nodup).imp ?_
  rintro first second ⟨atMost, different⟩
  exact UInt64.lt_of_le_of_ne atMost different

/-- The swarm ids of a reply are ascending. -/
theorem SnsReply.swarmIds_ascending {reply : SnsReply} {ids : List UInt64}
    (listed : reply.swarmIds = some ids) : ids.Pairwise (· < ·) := by
  obtain ⟨all, -, rfl⟩ := Option.map_eq_some_iff.mp listed
  exact toSwarmIds_ascending all

namespace HiveMind

/-- The server only ever searches in an ascending list. -/
theorem Reached.swarmIds_ascending {env : Env} {hive : HiveMind} (reached : Reached env hive) :
    hive.swarmIds.Pairwise (· < ·) := by
  have kept : Sound hive ∧ hive.swarmIds.Pairwise (· < ·) := by
    refine @Lib.Run.Reachable.invariant _ _ _
      (fun hive => Sound hive ∧ hive.swarmIds.Pairwise (· < ·)) _ _ reached ?_ ?_
    · exact ⟨sound_initial, List.Pairwise.nil⟩
    · rintro hive event after ⟨sound, ascending⟩ taken
      refine ⟨sound.step taken, ?_⟩
      rcases step_cases taken with ⟨now, threads, clock, -, launched⟩ | ⟨request, -, rfl⟩ |
        ⟨moment, data, -, rfl⟩ | ⟨-, keeps⟩
      · obtain ⟨subs, -, -, rfl⟩ := start_ok launched
        exact List.Pairwise.nil
      · rw [(sound.addSubscription_effect request).1]
        exact ascending
      · cases data with
        | reply reply =>
            rcases sound.response_block env moment reply with ⟨-, same⟩ |
              ⟨committed, commits, -, ids, -⟩
            · rwa [same]
            · rw [ids]
              rcases commits.source with ⟨-, rfl⟩ | listed
              · exact ascending
              · exact SnsReply.swarmIds_ascending listed
        | _ => exact ascending
      · rwa [keeps.swarmIds]
  exact kept.2

end HiveMind

end Spns
