import SteamHandler.CommandHistory

/-!
# Removing the subscriptions of one client

The command removes by the identifiers that the reverse index lists, not by
the client stored with a subscription. Every registered subscription is listed
under its client in any history; the converse is lost when an addition moves a
registered identifier to another client, because the old client's listing
stays behind. Removing that client then takes the other one's subscription
with it.
-/

namespace SteamHandler.ClientRemoval

open Subscriptions KeyedStore SubscriptionRegistry CommandHistory

variable {H : Type} {registry : Registry H}

/-- Removing the client removes its subscriptions and its entry in the reverse
index, and nothing else. -/
structure RemovesExactly (registry : Registry H) (clientId : String) : Prop where
  /-- The subscriptions left are those of other clients. -/
  subscriptions : ∀ subId subscription,
    (registry.handle (.removeClientSubscriptions clientId)).1.subscriptions.lookup subId=
        some subscription ↔
      registry.subscriptions.lookup subId=some subscription ∧ subscription.clientId≠clientId
  /-- The client has no entry. -/
  absent : (registry.handle (.removeClientSubscriptions clientId)).1.clientSubscriptions.lookup
    clientId=none
  /-- Entries of other clients are kept. -/
  unchanged : ∀ other,other≠clientId →
    (registry.handle (.removeClientSubscriptions clientId)).1.clientSubscriptions.lookup other=
      registry.clientSubscriptions.lookup other

/-- Every registered subscription is listed under its client. -/
def ListsOwners (registry : Registry H) : Prop :=
  ∀ subId subscription,registry.subscriptions.lookup subId=some subscription →
    subId∈registry.idsOf subscription.clientId

/-- No identifier listed under the client belongs to another one. -/
def ListsOnlyOwn (registry : Registry H) (clientId : String) : Prop :=
  ∀ subId∈registry.idsOf clientId,∀ subscription,
    registry.subscriptions.lookup subId=some subscription → subscription.clientId=clientId

theorem listsOwners_addSubscription (h : ListsOwners registry) (added : Subscription H) :
    ListsOwners (registry.addSubscription added) := by
  intro subId subscription hlookup
  rw [idsOf_addSubscription]
  have hinserted : (registry.addSubscription added).subscriptions.lookup subId=
      if subId=added.id then some added else registry.subscriptions.lookup subId :=
    SubscriptionMap.lookup_inserted _ _ _
  rw [hinserted] at hlookup
  split at hlookup
  · rename_i hid
    cases hlookup
    rw [if_pos rfl,hid]
    exact Finset.mem_insert_self _ _
  · have hlisted := h subId subscription hlookup
    split
    · exact Finset.mem_insert_of_mem hlisted
    · exact hlisted

theorem listsOwners_removeSubscription (h : ListsOwners registry) (removedId : SubscriptionId) :
    ListsOwners (registry.removeSubscription removedId) := by
  intro subId subscription hlookup
  have hremoved : (registry.removeSubscription removedId).subscriptions.lookup subId=
      if subId=removedId then none else registry.subscriptions.lookup subId :=
    SubscriptionMap.lookup_removed _ _ _
  rw [hremoved] at hlookup
  split at hlookup
  · cases hlookup
  · rename_i hid
    have hlisted := h subId subscription hlookup
    simp only [Registry.idsOf,Registry.removeSubscription]
    cases registry.subscriptions.lookup removedId with
    | none => exact hlisted
    | some removed =>
      dsimp only
      rw [getD_unlist]
      split
      · exact Finset.mem_erase.mpr ⟨hid,hlisted⟩
      · exact hlisted

theorem listsOwners_removeClientSubscriptions (h : ListsOwners registry) (clientId : String) :
    ListsOwners (registry.removeClientSubscriptions clientId) := by
  intro subId subscription hlookup
  have hremoved : (registry.removeClientSubscriptions clientId).subscriptions.lookup subId=
      if subId∈registry.idsOf clientId then none else registry.subscriptions.lookup subId :=
    SubscriptionMap.lookup_removedAll _ _ _
  rw [hremoved] at hlookup
  split at hlookup
  · cases hlookup
  · rename_i hunlisted
    have hlisted := h subId subscription hlookup
    have hother : subscription.clientId≠clientId := by
      intro hsame
      rw [hsame] at hlisted
      exact hunlisted hlisted
    simp only [Registry.idsOf,Registry.removeClientSubscriptions,KeyedStore.lookup_erase]
    rw [if_neg hother]
    exact hlisted

/-- Owners are listed after every history. -/
theorem listsOwners_registryAfter (history : List (ManagerCommand H)) :
    ListsOwners (registryAfter history) := by
  induction history using List.reverseRecOn with
  | nil =>
    intro subId subscription hlookup
    simp only [registryAfter,Registry.handleAll_nil,Registry.empty,
      SubscriptionMap.lookup_empty_map,reduceCtorEq] at hlookup
  | append_singleton history command ih =>
    rw [registryAfter_snoc]
    cases command with
    | addSubscription added => exact listsOwners_addSubscription ih added
    | removeSubscription subId => exact listsOwners_removeSubscription ih subId
    | removeClientSubscriptions clientId =>
      exact listsOwners_removeClientSubscriptions ih clientId
    | shutdown => exact ih

/-- Where owners are listed, removing a client is exact when only its own
identifiers are listed under it. -/
theorem removesExactly_iff (h : ListsOwners registry) (clientId : String) :
    RemovesExactly registry clientId ↔ ListsOnlyOwn registry clientId := by
  have hremoved : ∀ subId,
      (registry.handle (.removeClientSubscriptions clientId)).1.subscriptions.lookup subId=
        if subId∈registry.idsOf clientId then none else registry.subscriptions.lookup subId :=
    fun subId => SubscriptionMap.lookup_removedAll _ _ _
  have hindex : ∀ other,
      (registry.handle (.removeClientSubscriptions clientId)).1.clientSubscriptions.lookup other=
        if other=clientId then none else registry.clientSubscriptions.lookup other :=
    fun other => KeyedStore.lookup_erase _ _ _
  constructor
  · intro hexact subId hlisted subscription hlookup
    by_contra hother
    have hleft := (hexact.subscriptions subId subscription).mpr ⟨hlookup,hother⟩
    rw [hremoved,if_pos hlisted] at hleft
    cases hleft
  · intro hown
    refine ⟨fun subId subscription => ?_,?_,fun other hother => ?_⟩
    · rw [hremoved]
      by_cases hlisted : subId∈registry.idsOf clientId
      · rw [if_pos hlisted]
        constructor
        · intro hnone
          cases hnone
        · intro ⟨hlookup,hother⟩
          exact absurd (hown subId hlisted subscription hlookup) hother
      · rw [if_neg hlisted]
        constructor
        · intro hlookup
          refine ⟨hlookup,fun hsame => hlisted ?_⟩
          rw [←hsame]
          exact h subId subscription hlookup
        · exact fun hboth => hboth.1
    · rw [hindex,if_pos rfl]
    · rw [hindex,if_neg hother]

/-- A registry that mirrors its index lists only own identifiers. -/
theorem listsOnlyOwn_of_mirrors (h : Mirrors registry) (clientId : String) :
    ListsOnlyOwn registry clientId := by
  intro subId hlisted subscription hlookup
  obtain ⟨registered,hregistered,hclient⟩ := (h.listed clientId subId).mp hlisted
  rw [hlookup] at hregistered
  cases hregistered
  exact hclient

/-- In every run of commands: at every moment removing any client would be
exact, if and only if no addition carried an identifier that was registered at
that moment under another client. -/
theorem removals_exact_iff (commands : List (ManagerCommand H)) :
    (∀ handled,handled<+:commands → ∀ clientId,RemovesExactly (registryAfter handled) clientId) ↔
      OwnersKept commands := by
  constructor
  · intro hexact before added after hsplit registered hregistered
    by_contra hmoved
    have hpast : before++[.addSubscription added]<+:commands := by
      refine ⟨after,?_⟩
      rw [hsplit,List.append_assoc,List.singleton_append]
    have hown := (removesExactly_iff (listsOwners_registryAfter _) _).mp
      (hexact _ hpast registered.clientId)
    have hlisted : added.id∈(registryAfter (before++[.addSubscription added])).idsOf
        registered.clientId := by
      rw [registryAfter_snoc]
      change added.id∈((registryAfter before).addSubscription added).idsOf registered.clientId
      rw [idsOf_addSubscription,if_neg hmoved]
      exact listsOwners_registryAfter before added.id registered hregistered
    have hlookup : (registryAfter (before++[.addSubscription added])).subscriptions.lookup
        added.id=some added := by
      rw [registryAfter_snoc]
      change ((registryAfter before).subscriptions.insert added).lookup added.id=some added
      rw [SubscriptionMap.lookup_inserted,if_pos rfl]
    exact hmoved (hown added.id hlisted added hlookup).symm
  · intro hkept handled hpast clientId
    obtain ⟨later,rfl⟩ := hpast
    refine (removesExactly_iff (listsOwners_registryAfter handled) clientId).mpr ?_
    exact listsOnlyOwn_of_mirrors (mirrors_registryAfter hkept.of_append) clientId

/-- An addition under a second client takes over a registered identifier. -/
def movedHistory : List (ManagerCommand Unit) :=
  [.addSubscription (.onSlots 1 "a" ⟨[]⟩ ()),.addSubscription (.onSlots 1 "b" ⟨[]⟩ ())]

/-- Removing the first client then removes the second one's subscription. -/
theorem removal_takes_foreign :
    ¬∀ (commands : List (ManagerCommand Unit)) clientId,
      RemovesExactly (registryAfter commands) clientId := by
  intro hclaim
  have hexact := hclaim movedHistory "a"
  have hbefore : (registryAfter movedHistory).subscriptions.lookup ⟨1⟩=
      some (.onSlots 1 "b" ⟨[]⟩ ()) := by decide
  have hafter := (hexact.subscriptions ⟨1⟩ _).mpr ⟨hbefore,by decide⟩
  have hnone : ((registryAfter movedHistory).handle
      (.removeClientSubscriptions "a")).1.subscriptions.lookup ⟨1⟩=none := by decide
  cases hafter.symm.trans hnone

end SteamHandler.ClientRemoval
