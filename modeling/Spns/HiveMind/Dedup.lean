import Mathlib.Data.List.Induction
import Spns.HiveMind.Invariants

/-!
# De-duplication of subscriptions

Two subscriptions of an account are the same upstream when they agree on the
subaccount tag, the namespaces and `want_data`.  The server should hold one
entry for each upstream, with the newest signature it was ever offered.

`Subaccount::is_same` answers no for two unset subaccounts, so subscriptions
without a subaccount never match: their first offer is appended like any
other, and every repetition is appended once more.
-/

namespace Spns

open Spns.Hive
open Spns.Lib
open Spns.Lib.Unordered
open Spns.Storage

namespace Offer

/-- What identifies an upstream subscription. -/
def upstream (offer : Offer) : AccountID × Option SubaccountTag × List Int × Bool :=
  (offer.account, offer.subaccount.map Subaccount.tag, offer.namespaces, offer.wantData)

/-- The offer has a subaccount, or its upstream has not been offered yet. -/
def Fresh (heard : List Offer) (offer : Offer) : Prop :=
  offer.subaccount = none → ∀ old ∈ heard, old.upstream ≠ offer.upstream

/-- No upstream without a subaccount is offered twice. -/
def AllFresh (offers : List Offer) : Prop :=
  offers.Pairwise fun old offer => offer.subaccount = none → old.upstream ≠ offer.upstream

theorem allFresh_append_singleton {offers : List Offer} {offer : Offer} :
    AllFresh (offers ++ [offer]) ↔ AllFresh offers ∧ Fresh offers offer := by
  unfold AllFresh Fresh
  rw [List.pairwise_append]
  simp only [List.pairwise_singleton, List.mem_singleton, forall_eq, true_and]
  refine and_congr_right fun _ => ⟨fun fresh none old member => fresh old member none, ?_⟩
  exact fun fresh old member none => fresh none old member

end Offer

namespace Hive.Subscription

/-- `is_same` finds the entries of the same upstream, unless there is no
subaccount. -/
theorem isSame_iff (existing sub : Subscription) (id : AccountID) :
    existing.isSame sub = true ↔
      sub.subaccount ≠ none ∧ (existing.offer id).upstream = (sub.offer id).upstream := by
  simp only [isSame, isSameParts, Bool.and_eq_true, beq_iff_eq, Offer.upstream, offer,
    Prod.mk.injEq, true_and, Subaccount.isSameOptional_eq_true_iff]
  constructor
  · rintro ⟨⟨⟨first, second, firstEq, secondEq, tags⟩, namespaces⟩, wantData⟩
    rw [firstEq, secondEq]
    exact ⟨by simp, by simp [tags], namespaces, wantData⟩
  · rintro ⟨present, tags, namespaces, wantData⟩
    obtain ⟨second, secondEq⟩ := Option.ne_none_iff_exists'.mp present
    rw [secondEq, Option.map_some] at tags
    obtain ⟨first, firstEq, tagEq⟩ := Option.map_eq_some_iff.mp tags
    exact ⟨⟨⟨first, second, firstEq, secondEq, tagEq⟩, namespaces⟩, wantData⟩

/-- The signature of the newer of the two. -/
def renewedBy (existing sub : Subscription) : Subscription :=
  if sub.isNewer existing then existing.refresh sub.sigTs sub.sig else existing

theorem upstream_renewedBy (existing sub : Subscription) (id : AccountID) :
    ((existing.renewedBy sub).offer id).upstream = (existing.offer id).upstream := by
  rw [renewedBy]
  split_ifs <;> rfl

end Hive.Subscription

namespace HiveMind

/-! ## Merging one subscription -/

theorem renewFirst_cases (same : Subscription → Bool) (renew : Subscription → Subscription)
    (subs : List Subscription) :
    (∃ before existing after, subs = before ++ existing :: after ∧ same existing = true ∧
        renewFirst same renew subs = some (before ++ renew existing :: after)) ∨
      (∀ existing ∈ subs, same existing = false) ∧ renewFirst same renew subs = none := by
  induction subs with
  | nil => exact Or.inr ⟨fun existing member => by simp at member, rfl⟩
  | cons first rest ih =>
      rw [renewFirst]
      cases matching : same first with
      | true => exact Or.inl ⟨[], first, rest, rfl, matching, by simp⟩
      | false =>
          rcases ih with ⟨before, existing, after, rfl, found, equal⟩ | ⟨unmatched, equal⟩
          · exact Or.inl ⟨first :: before, existing, after, rfl, found, by simp [equal]⟩
          · refine Or.inr ⟨?_, by simp [equal]⟩
            intro existing member
            rcases List.mem_cons.mp member with rfl | later
            · exact matching
            · exact unmatched existing later

/-- A subscription renews the entry it matches, or is appended. -/
theorem mergeSubscription_cases (sub : Subscription) (subs : List Subscription) :
    (∃ before existing after, subs = before ++ existing :: after ∧ existing.isSame sub = true ∧
        mergeSubscription sub subs = before ++ existing.renewedBy sub :: after) ∨
      (∀ existing ∈ subs, existing.isSame sub = false) ∧
        mergeSubscription sub subs = subs ++ [sub] := by
  unfold mergeSubscription
  simp only
  rcases renewFirst_cases (fun existing => existing.isSame sub)
    (fun existing => if sub.isNewer existing then existing.refresh sub.sigTs sub.sig else existing)
    subs with ⟨before, existing, after, split, matching, equal⟩ | ⟨unmatched, equal⟩
  · rw [equal]
    exact Or.inl ⟨before, existing, after, split, matching, rfl⟩
  · rw [equal]
    exact Or.inr ⟨unmatched, rfl⟩

/-- The upstreams of the entries of an account. -/
def upstreams (id : AccountID) (subs : List Subscription) :
    List (AccountID × Option SubaccountTag × List Int × Bool) :=
  subs.map fun sub => (sub.offer id).upstream

theorem upstreams_mergeSubscription (id : AccountID) (sub : Subscription)
    (subs : List Subscription) :
    upstreams id (mergeSubscription sub subs) = upstreams id subs ∨
      upstreams id (mergeSubscription sub subs) =
        upstreams id subs ++ [(sub.offer id).upstream] := by
  rcases mergeSubscription_cases sub subs with
    ⟨before, existing, after, rfl, -, equal⟩ | ⟨-, equal⟩
  · apply Or.inl
    rw [equal]
    simp [upstreams, Subscription.upstream_renewedBy]
  · apply Or.inr
    rw [equal]
    simp [upstreams]

/-! ## The invariant -/

/-- The entries of every account have different upstreams. -/
def Distinct (subscribers : Subscribers) : Prop :=
  ∀ id, (upstreams id (subscriptionsOf subscribers id)).Nodup

/-- One entry for every upstream heard of, with its newest signature. -/
structure Deduplicated (subscribers : Subscribers) (heard : List Offer) : Prop where
  distinct : Distinct subscribers
  present : ∀ offer ∈ heard,
    offer.upstream ∈ upstreams offer.account (subscriptionsOf subscribers offer.account)
  newest : ∀ id, ∀ sub ∈ subscriptionsOf subscribers id,
    (∃ offer ∈ heard, offer.upstream = (sub.offer id).upstream ∧ offer.sigTs = sub.sigTs ∧
        offer.sig = sub.sig) ∧
      ∀ offer ∈ heard, offer.upstream = (sub.offer id).upstream → offer.sigTs ≤ sub.sigTs

/-- The entry has the newest signature heard of for its upstream. -/
def Newest (heard : List Offer) (id : AccountID) (sub : Subscription) : Prop :=
  (∃ offer ∈ heard, offer.upstream = (sub.offer id).upstream ∧ offer.sigTs = sub.sigTs ∧
      offer.sig = sub.sig) ∧
    ∀ offer ∈ heard, offer.upstream = (sub.offer id).upstream → offer.sigTs ≤ sub.sigTs

theorem deduplicated_empty : Deduplicated ∅ [] where
  distinct id := by simp [subscriptionsOf, upstreams]
  present offer member := by simp at member
  newest id sub member := by simp [subscriptionsOf] at member

section Newest

variable {heard : List Offer} {id : AccountID} {entry sub : Subscription}

/-- An offer of another upstream, or an older one of the same, changes nothing. -/
theorem Newest.append (newest : Newest heard id entry) {offer : Offer}
    (older : offer.upstream = (entry.offer id).upstream → offer.sigTs ≤ entry.sigTs) :
    Newest (heard ++ [offer]) id entry := by
  obtain ⟨⟨source, sourceMem, equal⟩, newest⟩ := newest
  constructor
  · exact ⟨source, List.mem_append_left _ sourceMem, equal⟩
  · intro later laterMem same
    rcases List.mem_append.mp laterMem with heardBefore | new
    · exact newest later heardBefore same
    · rw [List.mem_singleton.mp new] at same ⊢
      exact older same

/-- An entry takes the signature of an offer that is not older than those heard. -/
theorem newest_append_self {offer : Offer} (upstream : offer.upstream = (entry.offer id).upstream)
    (sigTs : offer.sigTs = entry.sigTs) (sig : offer.sig = entry.sig)
    (older : ∀ old ∈ heard, old.upstream = (entry.offer id).upstream → old.sigTs ≤ entry.sigTs) :
    Newest (heard ++ [offer]) id entry := by
  constructor
  · exact ⟨offer, by simp, upstream, sigTs, sig⟩
  · intro later laterMem same
    rcases List.mem_append.mp laterMem with heardBefore | new
    · exact older later heardBefore same
    · rw [List.mem_singleton.mp new]
      exact sigTs.le

theorem Newest.renewedBy (newest : Newest heard id entry)
    (same : (entry.offer id).upstream = (sub.offer id).upstream) :
    Newest (heard ++ [sub.offer id]) id (entry.renewedBy sub) := by
  rw [Subscription.renewedBy]
  split_ifs with newer <;> simp only [Subscription.isNewer, decide_eq_true_eq] at newer
  · refine newest_append_self ?_ rfl rfl ?_
    · exact same.symm
    · intro old oldMem oldSame
      exact (newest.2 old oldMem oldSame).trans (le_of_lt newer)
  · apply newest.append
    intro _
    exact not_lt.mp newer

end Newest

/-- Entries are never taken away. -/
theorem distinct_of_remember {subscribers : Subscribers} {pubkey : SwarmPubkey}
    {sub : Subscription} (distinct : Distinct (remember subscribers pubkey sub)) :
    Distinct subscribers := by
  intro id
  have after := distinct id
  rw [subscriptionsOf_remember] at after
  split_ifs at after
  · rcases upstreams_mergeSubscription id sub (subscriptionsOf subscribers id) with same | grown
    · rwa [same] at after
    · rw [grown] at after
      exact after.of_append_left
  · exact after

section Remember

variable {subscribers : Subscribers} {heard : List Offer} {pubkey : SwarmPubkey}
  {sub : Subscription}

theorem Deduplicated.fresh_of_distinct (dedup : Deduplicated subscribers heard)
    (distinct : Distinct (remember subscribers pubkey sub)) :
    Offer.Fresh heard (sub.offer pubkey.id) := by
  intro unset old member same
  have entry := dedup.present old member
  have account : old.account = pubkey.id := congrArg Prod.fst same
  rw [same, account] at entry
  have after := distinct pubkey.id
  rw [subscriptionsOf_remember, if_pos rfl] at after
  rcases mergeSubscription_cases sub (subscriptionsOf subscribers pubkey.id) with
    ⟨before, existing, later, -, matching, -⟩ | ⟨-, appended⟩
  · exact ((Subscription.isSame_iff existing sub pubkey.id).mp matching).1 unset
  · rw [appended, upstreams, List.map_append] at after
    exact List.disjoint_of_nodup_append after entry (by simp)

/-- An entry of a fresh upstream does not exist yet, unless `is_same` finds it. -/
theorem Deduplicated.not_mem_of_unmatched (dedup : Deduplicated subscribers heard)
    (fresh : Offer.Fresh heard (sub.offer pubkey.id))
    (unmatched : ∀ existing ∈ subscriptionsOf subscribers pubkey.id,
      existing.isSame sub = false) :
    (sub.offer pubkey.id).upstream ∉ upstreams pubkey.id (subscriptionsOf subscribers pubkey.id) := by
  intro member
  obtain ⟨existing, existingMem, same⟩ := List.mem_map.mp member
  by_cases unset : sub.subaccount = none
  · obtain ⟨⟨old, oldMem, oldSame, -⟩, -⟩ := dedup.newest pubkey.id existing existingMem
    exact fresh unset old oldMem (oldSame.trans same)
  · have matching := (Subscription.isSame_iff existing sub pubkey.id).mpr ⟨unset, same⟩
    rw [unmatched existing existingMem] at matching
    contradiction

/-- What `remember` does to the entries of an account, seen from the entries
it leaves. -/
theorem Deduplicated.newest_of_merge (dedup : Deduplicated subscribers heard)
    (fresh : Offer.Fresh heard (sub.offer pubkey.id)) :
    ∀ entry ∈ mergeSubscription sub (subscriptionsOf subscribers pubkey.id),
      Newest (heard ++ [sub.offer pubkey.id]) pubkey.id entry := by
  intro entry member
  -- An old entry of another upstream is not concerned.
  have other : ∀ old ∈ subscriptionsOf subscribers pubkey.id,
      (old.offer pubkey.id).upstream ≠ (sub.offer pubkey.id).upstream →
      Newest (heard ++ [sub.offer pubkey.id]) pubkey.id old := by
    intro old oldMem distinct
    have newest : Newest heard pubkey.id old := dedup.newest pubkey.id old oldMem
    exact newest.append fun same => absurd same.symm distinct
  rcases mergeSubscription_cases sub (subscriptionsOf subscribers pubkey.id) with
    ⟨before, existing, after, split, matching, merged⟩ | ⟨unmatched, merged⟩
  · have sameUpstream := ((Subscription.isSame_iff existing sub pubkey.id).mp matching).2
    have distinct := dedup.distinct pubkey.id
    rw [split, upstreams, List.map_append, List.map_cons] at distinct
    have existingMem : existing ∈ subscriptionsOf subscribers pubkey.id := by simp [split]
    have alone : ∀ old ∈ before ++ after,
        (old.offer pubkey.id).upstream ≠ (existing.offer pubkey.id).upstream := by
      intro old oldMem same
      have outside := (List.nodup_middle.mp distinct)
      rw [List.nodup_cons, ← List.map_append] at outside
      exact outside.1 (same ▸ List.mem_map_of_mem oldMem)
    rw [merged, List.mem_append, List.mem_cons] at member
    by_cases renewed : entry = existing.renewedBy sub
    · subst renewed
      have newest : Newest heard pubkey.id existing := dedup.newest pubkey.id existing existingMem
      exact newest.renewedBy sameUpstream
    · have oldMem : entry ∈ before ++ after := by
        rcases member with early | equal | late
        · exact List.mem_append_left _ early
        · exact absurd equal renewed
        · exact List.mem_append_right _ late
      refine other entry ?_ (sameUpstream ▸ alone entry oldMem)
      rw [split]
      rcases List.mem_append.mp oldMem with early | late
      · exact List.mem_append_left _ early
      · exact List.mem_append_right _ (List.mem_cons_of_mem existing late)
  · have absent := dedup.not_mem_of_unmatched fresh unmatched
    rw [merged, List.mem_append, List.mem_singleton] at member
    rcases member with old | rfl
    · exact other entry old fun same => absent (List.mem_map.mpr ⟨entry, old, same⟩)
    · apply newest_append_self rfl rfl rfl
      intro old oldMem same
      have entryMem := dedup.present old oldMem
      have account : old.account = pubkey.id := congrArg Prod.fst same
      rw [same, account] at entryMem
      exact absurd entryMem absent

theorem Deduplicated.remember (dedup : Deduplicated subscribers heard)
    (fresh : Offer.Fresh heard (sub.offer pubkey.id)) :
    Deduplicated (HiveMind.remember subscribers pubkey sub) (heard ++ [sub.offer pubkey.id]) where
  distinct id := by
    rw [subscriptionsOf_remember]
    split_ifs with equal
    · subst equal
      rcases mergeSubscription_cases sub (subscriptionsOf subscribers pubkey.id) with
        ⟨before, existing, after, split, -, merged⟩ | ⟨unmatched, merged⟩
      · have distinct := dedup.distinct pubkey.id
        rw [split] at distinct
        rw [merged]
        simpa [upstreams, Subscription.upstream_renewedBy] using distinct
      · have absent := dedup.not_mem_of_unmatched fresh unmatched
        rw [merged, upstreams, List.map_append]
        exact List.nodup_append_comm.mp
          (List.nodup_cons.mpr ⟨absent, dedup.distinct pubkey.id⟩)
    · exact dedup.distinct id
  present := by
    intro offer member
    rw [subscriptionsOf_remember]
    rcases List.mem_append.mp member with old | new
    · have entry := dedup.present offer old
      split_ifs
      · rcases upstreams_mergeSubscription offer.account sub
          (subscriptionsOf subscribers offer.account) with same | grown
        · rwa [same]
        · rw [grown]
          exact List.mem_append_left _ entry
      · exact entry
    · rw [List.mem_singleton.mp new]
      have account : (sub.offer pubkey.id).account = pubkey.id := rfl
      rw [account, if_pos rfl]
      rcases mergeSubscription_cases sub (subscriptionsOf subscribers pubkey.id) with
        ⟨before, existing, after, -, matching, merged⟩ | ⟨-, merged⟩
      · have sameUpstream := ((Subscription.isSame_iff existing sub pubkey.id).mp matching).2
        rw [merged, ← sameUpstream, ← Subscription.upstream_renewedBy existing sub pubkey.id]
        exact List.mem_map_of_mem (by simp)
      · rw [merged]
        exact List.mem_map_of_mem (by simp)
  newest := by
    intro id entry member
    rw [subscriptionsOf_remember] at member
    split_ifs at member with equal
    · subst equal
      exact dedup.newest_of_merge fresh entry member
    · have newest : Newest heard id entry := dedup.newest id entry member
      exact newest.append fun same => absurd (congrArg Prod.fst same).symm equal

/-- One subscription keeps the invariant exactly when it is fresh. -/
theorem Deduplicated.remember_iff (dedup : Deduplicated subscribers heard) :
    Deduplicated (HiveMind.remember subscribers pubkey sub) (heard ++ [sub.offer pubkey.id]) ↔
      Offer.Fresh heard (sub.offer pubkey.id) :=
  ⟨fun after => dedup.fresh_of_distinct after.distinct, dedup.remember⟩

end Remember

/-! ## Loading -/

theorem rememberAll_append_singleton (subscribers : Subscribers)
    (subs : List (SwarmPubkey × Subscription)) (item : SwarmPubkey × Subscription) :
    rememberAll subscribers (subs ++ [item]) =
      remember (rememberAll subscribers subs) item.1 item.2 := by
  simp [rememberAll]

/-- Loading a list keeps the invariant exactly when no upstream without a
subaccount comes twice. -/
theorem deduplicated_rememberAll_iff (subs : List (SwarmPubkey × Subscription)) :
    Deduplicated (rememberAll ∅ subs) (subs.map fun item => item.2.offer item.1.id) ↔
      Offer.AllFresh (subs.map fun item => item.2.offer item.1.id) := by
  -- The invariant of a prefix follows from freshness, and distinctness of the
  -- whole gives distinctness of the prefix.
  have both : (Offer.AllFresh (subs.map fun item => item.2.offer item.1.id) →
        Deduplicated (rememberAll ∅ subs) (subs.map fun item => item.2.offer item.1.id)) ∧
      (Distinct (rememberAll ∅ subs) →
        Offer.AllFresh (subs.map fun item => item.2.offer item.1.id)) := by
    induction subs using List.reverseRecOn with
    | nil => exact ⟨fun _ => deduplicated_empty, fun _ => List.Pairwise.nil⟩
    | append_singleton subs item ih =>
        obtain ⟨load, fresh⟩ := ih
        rw [rememberAll_append_singleton, List.map_append, List.map_singleton,
          Offer.allFresh_append_singleton]
        constructor
        · rintro ⟨before, last⟩
          exact (load before).remember last
        · intro distinct
          have before := fresh (distinct_of_remember distinct)
          exact ⟨before, (load before).fresh_of_distinct distinct⟩
  exact ⟨fun dedup => both.2 dedup.distinct, both.1⟩

/-! ## Runs -/

/-- The subscriptions loaded or added since the last start of the server. -/
def heardAfter (env : Env) (state : HiveMind × List Offer) : Event → List Offer
  | .start now threads clock =>
      loadedOffers env (dbCleanup now state.1.db).tables threads clock
  | .addSubscription request => state.2 ++ [request.sub.offer request.pubkey.id]
  | _ => state.2

/-- Runs of the server, with the subscriptions it has heard of. -/
def stepHeard (env : Env) (state : HiveMind × List Offer) (event : Event) :
    Option (HiveMind × List Offer) :=
  (step env state.1 event).map fun next => (next, heardAfter env state event)

/-- The event offers no upstream without a subaccount a second time. -/
def FreshStep (env : Env) (state : HiveMind × List Offer) : Event → Prop
  | .start now threads clock =>
      Offer.AllFresh (loadedOffers env (dbCleanup now state.1.db).tables threads clock)
  | .addSubscription request => Offer.Fresh state.2 (request.sub.offer request.pubkey.id)
  | _ => True

theorem addSubscription_subscribers (request : AddRequest) (hive : HiveMind) :
    (hive.addSubscription request).1.subscribers =
      remember hive.subscribers
        { request.pubkey with swarm := swarmOf hive.swarmIds request.pubkey.id } request.sub := by
  have forced : ∀ (hive : HiveMind) (nodes : List NodeRef) (f : SNode → SNode),
      (hive.modifyNodes nodes f).subscribers = hive.subscribers := by
    intro hive nodes f
    exact List.foldlRecOn (motive := fun current : HiveMind =>
      current.subscribers = hive.subscribers) nodes _ rfl fun current same _ _ => same
  rw [addSubscription_eq]
  simp only
  split_ifs
  · rw [forceAccount, forced]
  · rfl

theorem Looped.subscribers {env : Env} {moment : Moment} {reply : SnsReply}
    {hive committed updated : HiveMind} {listing : Map Ed25519PK SnDetails}
    {changed : List NodeRef}
    (looped : Looped env moment reply hive committed listing updated changed) :
    updated.subscribers = hive.subscribers := by
  have drops := (looped.indexed.dropNodes listing).2
  rw [looped.updating.subscribers, drops.subscribers, looped.commits.unchanged]

theorem subscriptionsOf_refreshSubscribers (hive : HiveMind) (id : AccountID) :
    subscriptionsOf hive.refreshSubscribers.subscribers id =
      subscriptionsOf hive.subscribers id := by
  unfold subscriptionsOf
  rw [lookup_refreshSubscribers]
  cases hive.subscribers.lookup id <;> rfl

/-- Service node updates only touch the keys of the map. -/
theorem Sound.onSnsResponse_subscriptionsOf {hive : HiveMind} (sound : Sound hive) (env : Env)
    (moment : Moment) (data : SnsData) (id : AccountID) :
    subscriptionsOf (hive.onSnsResponse env moment data).1.subscribers id =
      subscriptionsOf hive.subscribers id := by
  cases data with
  | unexpectedParts => rfl
  | badStatus => rfl
  | invalidJson => rfl
  | badStates => rfl
  | reply reply =>
      have response := sound.indexed.response env moment reply
      generalize hive.onSnsResponse env moment (.reply reply) = result at response ⊢
      cases response with
      | refused what _ => rfl
      | unparsed committed what commits _ => rw [commits.unchanged]
      | interrupted committed listing updated changed what looped => rw [looped.subscribers]
      | completed committed listing updated changed looped placed =>
          have pruned := (sound.of_looped looped).pruneSwarms
          have rechecked := pruned.tracked.recheck pruned.indexed env moment
          simp only
          split_ifs
          · rw [rechecked.subscribers, subscriptionsOf_refreshSubscribers]
            exact congrArg (subscriptionsOf · id) looped.subscribers
          · exact congrArg (subscriptionsOf · id) looped.subscribers

/-- The invariant only reads the entries of the accounts. -/
theorem deduplicated_congr {before after : Subscribers} {heard : List Offer}
    (same : ∀ id, subscriptionsOf after id = subscriptionsOf before id) :
    Deduplicated after heard ↔ Deduplicated before heard := by
  have one : ∀ {before after : Subscribers},
      (∀ id, subscriptionsOf after id = subscriptionsOf before id) →
      Deduplicated before heard → Deduplicated after heard := by
    intro before after same dedup
    refine ⟨fun id => ?_, fun offer member => ?_, fun id sub member => ?_⟩
    · rw [same]
      exact dedup.distinct id
    · rw [same]
      exact dedup.present offer member
    · rw [same] at member
      exact dedup.newest id sub member
  exact ⟨one fun id => (same id).symm, one same⟩

theorem deduplicated_start_iff {env : Env} {now : SysTime} {threads : Nat}
    {clock : Nat → SysTime} {db : Database} {hive : HiveMind}
    (launched : start env now threads clock db = .ok hive) :
    Deduplicated hive.subscribers (loadedOffers env (dbCleanup now db).tables threads clock) ↔
      Offer.AllFresh (loadedOffers env (dbCleanup now db).tables threads clock) := by
  obtain ⟨subs, offers, -, rfl⟩ := start_ok launched
  rw [← offers]
  exact deduplicated_rememberAll_iff subs

theorem deduplicated_step_iff {env : Env} {state next : HiveMind × List Offer} {event : Event}
    (dedup : Deduplicated state.1.subscribers state.2) (sound : Sound state.1)
    (taken : stepHeard env state event = some next) :
    Deduplicated next.1.subscribers next.2 ↔ FreshStep env state event := by
  obtain ⟨after, ran, rfl⟩ := Option.map_eq_some_iff.mp taken
  rcases step_cases ran with ⟨now, threads, clock, rfl, launched⟩ | ⟨request, rfl, rfl⟩ |
    ⟨moment, data, rfl, rfl⟩ | ⟨quiet, keeps⟩
  · exact deduplicated_start_iff launched
  · simp only [addSubscription_subscribers]
    exact dedup.remember_iff
  · refine iff_of_true ?_ trivial
    exact (deduplicated_congr (sound.onSnsResponse_subscriptionsOf env moment data)).mpr dedup
  · have unheard : heardAfter env state event = state.2 ∧ FreshStep env state event := by
      cases event with
      | start now threads clock => contradiction
      | addSubscription request => contradiction
      | _ => exact ⟨rfl, trivial⟩
    refine iff_of_true ?_ unheard.2
    simp only [unheard.1, keeps.subscribers]
    exact dedup

/-- From the very first start on: in every state of a run, every account has
one entry for each upstream it was offered, with the newest signature, exactly
when no upstream without a subaccount is loaded or added twice. -/
theorem always_deduplicated_iff (env : Env) (events : List Event) :
    Run.Always (stepHeard env) (fun state => Deduplicated state.1.subscribers state.2)
        (initial, []) events ↔
      Run.EveryStep (stepHeard env) (fun state event _ => FreshStep env state event)
        (initial, []) events := by
  refine (and_iff_right deduplicated_empty).trans (Run.everyStep_iff
    (fun state => Deduplicated state.1.subscribers state.2 ∧ Sound state.1) _ _
    ⟨deduplicated_empty, sound_initial⟩ ?_ ?_)
  · intro state event next kept taken
    exact deduplicated_step_iff kept.1 kept.2 taken
  · intro state event next kept taken fresh
    constructor
    · exact (deduplicated_step_iff kept.1 kept.2 taken).mpr fresh
    · obtain ⟨after, ran, rfl⟩ := Option.map_eq_some_iff.mp taken
      exact kept.2.step ran

/-- A subscription without a subaccount, added and renewed a second later. -/
def renewingRun : List Event :=
  [.addSubscription (Sample.request 1700000000), .addSubscription (Sample.request 1700000001)]

/-- The renewal is kept as a second entry. -/
theorem not_always_deduplicated_renewingRun :
    ¬Run.Always (stepHeard Sample.env) (fun state => Deduplicated state.1.subscribers state.2)
      (initial, []) renewingRun := by
  intro always
  have outcome : (Run.exec (stepHeard Sample.env) (initial, []) renewingRun).map
      (fun state => upstreams Sample.account (subscriptionsOf state.1.subscribers Sample.account)) =
        some (List.replicate 2 (Sample.account, none, [0], true)) := rfl
  obtain ⟨final, run, entries⟩ := Option.map_eq_some_iff.mp outcome
  have distinct := (always.of_exec run).distinct Sample.account
  rw [entries] at distinct
  simp at distinct

end HiveMind

end Spns
