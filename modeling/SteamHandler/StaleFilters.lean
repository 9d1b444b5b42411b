import SteamHandler.ManagerRuns

/-!
# Requests without stale filters

A request is exact on keys: a client has an entry in the map of a type exactly
when it has a registered subscription of that type, and the entry is the
filter of such a subscription. What is registered is what the handled commands
left standing, so a client that was removed and has not come back occurs in no
request.
-/

namespace SteamHandler.StaleFilters

open Messages Subscriptions SubscriptionRegistry Requests CommandHistory ConnectionManager
open ManagerRuns TransitionSystem

variable {H : Type}

/-- The five maps of a request agree with the registered subscriptions. -/
structure FiltersExact (subs : SubscriptionMap H) (request : SubscribeRequest) : Prop where
  /-- The map of a type has an entry under a client exactly when a registered
  subscription has that type and client. -/
  keys : ∀ kind clientId,(requestView request (kind,clientId)).isSome=true ↔
    ∃ subscription,subs.Contains subscription ∧ subscription.subscriptionType.kind=kind ∧
      subscription.clientId=clientId
  /-- The entry is the filter of one of them, in the map of its own type. -/
  values : ∀ kind clientId filter,requestView request (kind,clientId)=some filter →
    filter.kind=kind ∧
      ∃ subscription,subs.Contains subscription ∧ subscription.clientId=clientId ∧
        subscription.subscriptionType=filter

/-- Every request that the registry builds is exact. -/
theorem filtersExact_of_builds {subs : SubscriptionMap H} {request : SubscribeRequest}
    (hbuilds : Builds subs request) : FiltersExact subs request := by
  obtain ⟨order,horder,rfl⟩ := hbuilds
  have hwritten : ∀ kind clientId,
      (requestView (buildSubscribeRequest order) (kind,clientId)).isSome=true ↔
        ∃ subscription∈order,requestKey subscription=(kind,clientId) :=
    fun kind clientId => requestView_isSome order (kind,clientId)
  constructor
  · intro kind clientId
    rw [hwritten]
    constructor
    · intro ⟨subscription,hmem,hkey⟩
      obtain ⟨hkind,hclient⟩ := Prod.mk.inj hkey
      exact ⟨subscription,horder.mem_iff.mp hmem,hkind,hclient⟩
    · intro ⟨subscription,hregistered,hkind,hclient⟩
      exact ⟨subscription,horder.mem_iff.mpr hregistered,Prod.ext hkind hclient⟩
  · intro kind clientId filter hview
    have hsome := (hwritten kind clientId).mp (by rw [hview]; rfl)
    obtain ⟨subscription,hmem,hkey⟩ := hsome
    obtain ⟨winner,hwinner,hsame,hwins⟩ := requestView_of_mem hmem
    rw [hkey] at hsame hwins
    have hfilter : winner.subscriptionType=filter := Option.some.inj (hwins.symm.trans hview)
    obtain ⟨hkind,hclient⟩ := Prod.mk.inj hsame
    rw [hfilter] at hkind
    exact ⟨hkind,winner,horder.mem_iff.mp hwinner,hclient,hfilter⟩

section Removal

/-- The subscriptions added by a history. -/
def additions (history : List (ManagerCommand H)) : List (Subscription H) :=
  history.filterMap fun command =>
    match command with
    | .addSubscription subscription => some subscription
    | _ => none

/-- Every addition has an identifier of its own. -/
def UniqueAdds (history : List (ManagerCommand H)) : Prop :=
  ((additions history).map Subscription.id).Nodup

theorem mem_additions {history : List (ManagerCommand H)} {subscription : Subscription H}
    (h : .addSubscription subscription∈history) : subscription∈additions history :=
  List.mem_filterMap.mpr ⟨_,h,rfl⟩

/-- With identifiers of their own, subscriptions keep their clients. -/
theorem ownersKept_of_uniqueAdds {history : List (ManagerCommand H)} (h : UniqueAdds history) :
    OwnersKept history := by
  refine ownersKept_of_one_owner fun first second hfirst hsecond hid => ?_
  have hsame : first=second :=
    List.inj_on_of_nodup_map h (mem_additions hfirst) (mem_additions hsecond) hid
  rw [hsame]

/-- What stands of a client after its removal was added after it. -/
theorem added_of_standing {earlier later : List (ManagerCommand H)} {clientId : String}
    {subscription : Subscription H} (hclient : subscription.clientId=clientId)
    (hstanding : Standing (earlier++.removeClientSubscriptions clientId::later) subscription) :
    .addSubscription subscription∈later := by
  have hsplit : earlier++.removeClientSubscriptions clientId::later=
      earlier++[.removeClientSubscriptions clientId]++later := by
    rw [List.append_assoc,List.singleton_append]
  rw [hsplit] at hstanding
  clear hsplit
  induction later using List.reverseRecOn with
  | nil =>
    rw [List.append_nil,standing_snoc] at hstanding
    rcases hstanding with hadded|⟨_,hkept⟩
    · cases hadded
    · exact absurd hclient.symm hkept
  | append_singleton later command ih =>
    rw [←List.append_assoc,standing_snoc] at hstanding
    rcases hstanding with rfl|⟨hpast,_⟩
    · exact List.mem_append_right _ (List.mem_singleton_self _)
    · exact List.mem_append_left _ (ih hpast)

/-- After its removal, and until it adds again, a client has nothing
registered. -/
theorem not_registered_of_removed {earlier later : List (ManagerCommand H)} {clientId : String}
    (hkept : OwnersKept (earlier++.removeClientSubscriptions clientId::later))
    (hgone : ∀ subscription,.addSubscription subscription∈later → subscription.clientId≠clientId)
    {subscription : Subscription H}
    (hregistered : (registryAfter
      (earlier++.removeClientSubscriptions clientId::later)).subscriptions.Contains subscription) :
    subscription.clientId≠clientId := by
  intro hclient
  have hstanding := ((lookup_registryAfter hkept _ _).mp hregistered).2
  exact hgone subscription (added_of_standing hclient hstanding) hclient

end Removal

/-- The request an action builds. -/
def requestBuilt : Action H → Option SubscribeRequest
  | .connectSucceeded order => some (buildSubscribeRequest order)
  | .sendUpdate order _ => some (buildSubscribeRequest order)
  | _ => none

/-- Requests are built from the registry of the moment. -/
theorem builds_of_requestBuilt {state : State H} {action : Action H} {request : SubscribeRequest}
    (henabled : Enabled state action) (hbuilt : requestBuilt action=some request) :
    Builds state.registry.subscriptions request := by
  cases action with
  | connectSucceeded order => exact ⟨order,henabled.2,(Option.some.inj hbuilt).symm⟩
  | sendUpdate order accepted => exact ⟨order,henabled.2,(Option.some.inj hbuilt).symm⟩
  | _ => cases hbuilt

/-- For every registry and iteration order the five maps of the request are
exact. In every run whose additions have identifiers of their own, no request
that can be built, and none that is, mentions a client between the handling of
its removal and that of its next addition. -/
theorem no_stale_filter (H : Type) :
    (∀ (subs : SubscriptionMap H) request,Builds subs request → FiltersExact subs request) ∧
    (∀ (start : State H) actions,(connectionManager H).initial start →
      (connectionManager H).Legal start actions → UniqueAdds (handledCommands start actions) →
      ∀ earlier clientId later,
        handledCommands start actions=earlier++.removeClientSubscriptions clientId::later →
        (∀ subscription,.addSubscription subscription∈later → subscription.clientId≠clientId) →
        (∀ request,
          Builds ((connectionManager H).final start actions).registry.subscriptions request →
          ∀ kind,requestView request (kind,clientId)=none) ∧
        (∀ action request,Enabled ((connectionManager H).final start actions) action →
          requestBuilt action=some request →
          ∀ kind,requestView request (kind,clientId)=none)) := by
  refine ⟨fun subs request hbuilds => filtersExact_of_builds hbuilds,?_⟩
  intro start actions hinit hrun hunique earlier clientId later hsplit hgone
  have hregistry := (registry_of_run hinit hrun).2
  have hkept := ownersKept_of_uniqueAdds hunique
  rw [hsplit] at hregistry hkept
  have habsent : ∀ request,
      Builds ((connectionManager H).final start actions).registry.subscriptions request →
      ∀ kind,requestView request (kind,clientId)=none := by
    intro request hbuilds kind
    rw [hregistry] at hbuilds
    have hexact := filtersExact_of_builds hbuilds
    by_contra hpresent
    have hsome := Option.isSome_iff_ne_none.mpr hpresent
    obtain ⟨subscription,hregistered,_,hclient⟩ := (hexact.keys kind clientId).mp hsome
    exact not_registered_of_removed hkept hgone hregistered hclient
  exact ⟨habsent,fun action request henabled hbuilt =>
    habsent request (builds_of_requestBuilt henabled hbuilt)⟩

/-- A client adds a subscription and leaves, while another one stays. -/
def leavingRun : List (Action Unit) :=
  [.enterLoop,.connectSucceeded [],.recordConnection,
    .sendCommand (.addSubscription (.onSlots 1 "a" ⟨[]⟩ ())),
    .sendCommand (.addSubscription (.onSlots 2 "b" ⟨[]⟩ ())),
    .sendCommand (.removeClientSubscriptions "a"),.receiveCommand,
    .sendUpdate [.onSlots 1 "a" ⟨[]⟩ ()] true,.enterLoop,.receiveCommand,
    .sendUpdate [.onSlots 1 "a" ⟨[]⟩ (),.onSlots 2 "b" ⟨[]⟩ ()] true,.enterLoop,.receiveCommand]

theorem no_stale_filter_leavingRun :
    FiltersExact ((connectionManager Unit).final (State.start 0) leavingRun).registry.subscriptions
        (buildSubscribeRequest [.onSlots 2 "b" ⟨[]⟩ ()]) ∧
    ∀ kind,requestView (buildSubscribeRequest [.onSlots 2 "b" ⟨[]⟩ ()]) (kind,"a")=none := by
  have hlegal : (connectionManager Unit).Legal (State.start 0) leavingRun := by decide
  have hbuilds : Builds
      ((connectionManager Unit).final (State.start 0) leavingRun).registry.subscriptions
      (buildSubscribeRequest [.onSlots 2 "b" ⟨[]⟩ ()]) := ⟨[.onSlots 2 "b" ⟨[]⟩ ()],by decide,rfl⟩
  have hunique : UniqueAdds (handledCommands (State.start 0) leavingRun) := by
    unfold UniqueAdds
    decide
  refine ⟨(no_stale_filter Unit).1 _ _ hbuilds,?_⟩
  exact ((no_stale_filter Unit).2 (State.start 0) leavingRun (initial_iff.mpr ⟨0,rfl⟩) hlegal hunique
    [.addSubscription (.onSlots 1 "a" ⟨[]⟩ ()),.addSubscription (.onSlots 2 "b" ⟨[]⟩ ())] "a" [] rfl
    fun _ hadded => absurd hadded List.not_mem_nil).1 _ hbuilds

end SteamHandler.StaleFilters
