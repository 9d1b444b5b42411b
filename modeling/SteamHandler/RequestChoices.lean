import SteamHandler.StaleFilters

/-!
# Which requests a registry can build

The order in which the registry is iterated decides which of several
subscriptions of one client and type gets into the request, and nothing else.
Every way to decide is taken by some order, so the requests that can be built
are exactly those whose five maps agree with the registry. There is only one
where no two subscriptions compete.
-/

namespace SteamHandler.RequestChoices

open Messages Subscriptions KeyedStore SubscriptionRegistry Requests StaleFilters

variable {H : Type}

/-- The fields that do not depend on the registry have the values of a filter
update. -/
structure IsFilterUpdate (request : SubscribeRequest) : Prop where
  /-- No transaction status filters. -/
  transactionsStatus : request.transactionsStatus=∅
  /-- No entry filters. -/
  entry : request.entry=∅
  /-- Reports at the `processed` level. -/
  commitment : request.commitment=some .processed
  /-- Whole accounts. -/
  accountsDataSlice : request.accountsDataSlice=[]
  /-- No ping. -/
  ping : request.ping=none
  /-- From now on. -/
  fromSlot : request.fromSlot=none

theorem isFilterUpdate_build (order : List (Subscription H)) :
    IsFilterUpdate (buildSubscribeRequest order) := ⟨rfl,rfl,rfl,rfl,rfl,rfl⟩

/-- Filter updates with the same five maps are the same. -/
theorem eq_of_requestView {first second : SubscribeRequest} (hfirst : IsFilterUpdate first)
    (hsecond : IsFilterUpdate second) (hview : requestView first=requestView second) :
    first=second := by
  have hentry : ∀ kind clientId,
      requestView first (kind,clientId)=requestView second (kind,clientId) :=
    fun kind clientId => congrFun hview (kind,clientId)
  have htransactions : first.transactions=second.transactions := by
    refine Finmap.ext_lookup fun clientId => ?_
    exact Option.map_injective (fun _ _ => SubscriptionType.transactions.inj)
      (hentry .transactions clientId)
  have haccounts : first.accounts=second.accounts := by
    refine Finmap.ext_lookup fun clientId => ?_
    exact Option.map_injective (fun _ _ => SubscriptionType.accounts.inj) (hentry .accounts clientId)
  have hslots : first.slots=second.slots := by
    refine Finmap.ext_lookup fun clientId => ?_
    exact Option.map_injective (fun _ _ => SubscriptionType.slots.inj) (hentry .slots clientId)
  have hblocks : first.blocks=second.blocks := by
    refine Finmap.ext_lookup fun clientId => ?_
    exact Option.map_injective (fun _ _ => SubscriptionType.blocks.inj) (hentry .blocks clientId)
  have hblocksMeta : first.blocksMeta=second.blocksMeta := by
    refine Finmap.ext_lookup fun clientId => ?_
    exact Option.map_injective (fun _ _ => SubscriptionType.blocksMeta.inj)
      (hentry .blocksMeta clientId)
  cases first
  cases second
  simp only [SubscribeRequest.mk.injEq]
  exact ⟨haccounts,hslots,htransactions,hfirst.transactionsStatus.trans hsecond.transactionsStatus.symm,
    hblocks,hblocksMeta,hfirst.entry.trans hsecond.entry.symm,
    hfirst.commitment.trans hsecond.commitment.symm,
    hfirst.accountsDataSlice.trans hsecond.accountsDataSlice.symm,
    hfirst.ping.trans hsecond.ping.symm,hfirst.fromSlot.trans hsecond.fromSlot.symm⟩

/-- Iterating the subscriptions that a request favours last builds the request's
maps. -/
theorem requestView_favoured {subs : SubscriptionMap H} {request : SubscribeRequest}
    (hexact : FiltersExact subs request) {order : List (Subscription H)}
    (horder : subs.IterationOrder order) {favoured : Subscription H → Bool}
    (hfavoured : ∀ subscription,favoured subscription=true ↔
      requestView request (requestKey subscription)=some subscription.subscriptionType) :
    requestView (buildSubscribeRequest
      (order.filter (fun subscription => !favoured subscription)++order.filter favoured))=
        requestView request := by
  funext ⟨kind,clientId⟩
  cases hview : requestView request (kind,clientId) with
  | none =>
    have hperm := chosen_last_perm order favoured
    by_contra hsome
    obtain ⟨subscription,hmem,hkey⟩ :=
      (requestView_isSome _ _).mp (Option.isSome_iff_ne_none.mpr hsome)
    obtain ⟨hkind,hclient⟩ := Prod.mk.inj hkey
    have hregistered := horder.mem_iff.mp (hperm.mem_iff.mp hmem)
    have hpresent := (hexact.keys kind clientId).mpr ⟨subscription,hregistered,hkind,hclient⟩
    rw [hview] at hpresent
    cases hpresent
  | some filter =>
    obtain ⟨hkind,subscription,hregistered,hclient,hfilter⟩ :=
      hexact.values kind clientId filter hview
    have hkey : requestKey subscription=(kind,clientId) := by
      rw [requestKey,hfilter,hkind,hclient]
    have hsome : ∃ item∈order,requestKey item=(kind,clientId) ∧ favoured item=true := by
      refine ⟨subscription,horder.mem_iff.mpr hregistered,hkey,(hfavoured subscription).mpr ?_⟩
      rw [hkey,hview,hfilter]
    obtain ⟨winner,_,hwinnerKey,hwinner,hwins⟩ := view_foldl_chosen_last applyToRequest_overwrites
      order RequestMaps.empty favoured hsome
    have hchosen := (hfavoured winner).mp hwinner
    rw [hwinnerKey,hview] at hchosen
    rw [requestView_build,hwins,hchosen]

/-- The requests that a registry can build. -/
theorem builds_iff {subs : SubscriptionMap H} {request : SubscribeRequest} :
    Builds subs request ↔ FiltersExact subs request ∧ IsFilterUpdate request := by
  classical
  constructor
  · intro hbuilds
    refine ⟨filtersExact_of_builds hbuilds,?_⟩
    obtain ⟨order,_,rfl⟩ := hbuilds
    exact isFilterUpdate_build order
  · intro ⟨hexact,hupdate⟩
    obtain ⟨order,horder⟩ := subs.exists_iterationOrder
    let favoured := fun subscription : Subscription H =>
      decide (requestView request (requestKey subscription)=some subscription.subscriptionType)
    refine ⟨_,horder.perm (chosen_last_perm order favoured),?_⟩
    refine eq_of_requestView hupdate (isFilterUpdate_build _) ?_
    exact (requestView_favoured hexact horder fun subscription => decide_eq_true_iff).symm

/-- No two registered subscriptions of one client and type have different
filters. -/
def Uncontested (subs : SubscriptionMap H) : Prop :=
  ∀ first second,subs.Contains first → subs.Contains second →
    requestKey first=requestKey second → first.subscriptionType=second.subscriptionType

/-- A registry without competition builds one request in every order. -/
theorem eq_of_uncontested {subs : SubscriptionMap H} (h : Uncontested subs)
    {first second : SubscribeRequest} (hfirst : Builds subs first) (hsecond : Builds subs second) :
    first=second := by
  obtain ⟨hexactFirst,hupdateFirst⟩ := builds_iff.mp hfirst
  obtain ⟨hexactSecond,hupdateSecond⟩ := builds_iff.mp hsecond
  refine eq_of_requestView hupdateFirst hupdateSecond (funext fun ⟨kind,clientId⟩ => ?_)
  have hpresent : (requestView first (kind,clientId)).isSome=true ↔
      (requestView second (kind,clientId)).isSome=true :=
    (hexactFirst.keys kind clientId).trans (hexactSecond.keys kind clientId).symm
  cases hviewFirst : requestView first (kind,clientId) with
  | none =>
    rw [hviewFirst,Option.isSome_none] at hpresent
    have hnone := Option.not_isSome_iff_eq_none.mp fun hsome =>
      absurd (hpresent.mpr hsome) Bool.false_ne_true
    exact hnone.symm
  | some filter =>
    rw [hviewFirst,Option.isSome_some] at hpresent
    obtain ⟨other,hviewSecond⟩ := Option.isSome_iff_exists.mp (hpresent.mp rfl)
    obtain ⟨hkind,winner,hwinner,hclient,hfilter⟩ :=
      hexactFirst.values kind clientId filter hviewFirst
    obtain ⟨hotherKind,loser,hloser,hotherClient,hother⟩ :=
      hexactSecond.values kind clientId other hviewSecond
    have hkey : requestKey winner=requestKey loser := by
      rw [requestKey,requestKey,hfilter,hother,hkind,hotherKind,hclient,hotherClient]
    have hsame := h winner loser hwinner hloser hkey
    rw [hviewSecond,←hfilter,←hother,hsame]

/-- Any registered subscription can get into the request. -/
theorem exists_builds_of_registered {subs : SubscriptionMap H} {subscription : Subscription H}
    (hregistered : subs.Contains subscription) :
    ∃ request,Builds subs request ∧
      requestView request (requestKey subscription)=some subscription.subscriptionType := by
  classical
  obtain ⟨order,horder⟩ := subs.exists_iterationOrder
  let favoured := fun other : Subscription H => decide (other=subscription)
  have hsome : ∃ item∈order,requestKey item=requestKey subscription ∧ favoured item=true :=
    ⟨subscription,horder.mem_iff.mpr hregistered,rfl,decide_eq_true rfl⟩
  obtain ⟨winner,_,_,hwinner,hwins⟩ := view_foldl_chosen_last applyToRequest_overwrites order
    RequestMaps.empty favoured hsome
  have hsame : winner=subscription := of_decide_eq_true hwinner
  rw [hsame] at hwins
  exact ⟨_,⟨_,horder.perm (chosen_last_perm order favoured),rfl⟩,hwins⟩

/-- The order of iteration decides between the subscriptions of one client and
type and nothing else: the requests a registry can build are all filter updates
whose five maps have an entry for exactly the registered types and clients, each
the filter of any one of the subscriptions registered under it. Only one request
can be built exactly when no two of them compete. -/
theorem requests_are_choices (subs : SubscriptionMap H) :
    (∀ request,Builds subs request ↔ FiltersExact subs request ∧ IsFilterUpdate request) ∧
    ((∃ request,∀ other,Builds subs other ↔ other=request) ↔ Uncontested subs) := by
  refine ⟨fun request => builds_iff,?_⟩
  constructor
  · intro ⟨request,hunique⟩ first second hfirst hsecond hkey
    obtain ⟨favouringFirst,hbuildsFirst,hviewFirst⟩ := exists_builds_of_registered hfirst
    obtain ⟨favouringSecond,hbuildsSecond,hviewSecond⟩ := exists_builds_of_registered hsecond
    have hsameFirst : favouringFirst=request := (hunique favouringFirst).mp hbuildsFirst
    have hsameSecond : favouringSecond=request := (hunique favouringSecond).mp hbuildsSecond
    rw [hsameFirst,hkey] at hviewFirst
    rw [hsameSecond] at hviewSecond
    exact Option.some.inj (hviewFirst.symm.trans hviewSecond)
  · intro h
    obtain ⟨order,horder⟩ := subs.exists_iterationOrder
    have hbuilds : Builds subs (buildSubscribeRequest order) := ⟨order,horder,rfl⟩
    refine ⟨buildSubscribeRequest order,fun other => ⟨fun hother => ?_,fun hother => ?_⟩⟩
    · exact eq_of_uncontested h hother hbuilds
    · rw [hother]
      exact hbuilds

end SteamHandler.RequestChoices
