import SteamHandler.SubscriptionRegistry

/-!
# Building the subscribe request

The request is rebuilt from the whole registry. Its five maps are keyed by
client, the registry by subscription, and each subscription overwrites what
its client already has in the map of its type. The five maps are read here as
one store keyed by type and client, so that every fact about overwriting is
stated once.
-/

namespace SteamHandler.Requests

open Messages Subscriptions KeyedStore SubscriptionRegistry

variable {H : Type}

/-- The five maps a subscription may write to. -/
structure RequestMaps where
  /-- Transaction filters by client. -/
  transactions : Finmap fun _ : String => SubscribeRequestFilterTransactions
  /-- Account filters by client. -/
  accounts : Finmap fun _ : String => SubscribeRequestFilterAccounts
  /-- Slot filters by client. -/
  slots : Finmap fun _ : String => SubscribeRequestFilterSlots
  /-- Block filters by client. -/
  blocks : Finmap fun _ : String => SubscribeRequestFilterBlocks
  /-- Block metadata filters by client. -/
  blocksMeta : Finmap fun _ : String => SubscribeRequestFilterBlocksMeta

/-- All five maps empty. -/
def RequestMaps.empty : RequestMaps := ⟨∅,∅,∅,∅,∅⟩

/-- Apply a subscription to the map of its type. -/
def applyToRequest (maps : RequestMaps) (subscription : Subscription H) : RequestMaps :=
  match subscription.subscriptionType with
  | .transactions filter =>
    { maps with transactions := maps.transactions.insert subscription.clientId filter }
  | .accounts filter => { maps with accounts := maps.accounts.insert subscription.clientId filter }
  | .slots filter => { maps with slots := maps.slots.insert subscription.clientId filter }
  | .blocks filter => { maps with blocks := maps.blocks.insert subscription.clientId filter }
  | .blocksMeta filter =>
    { maps with blocksMeta := maps.blocksMeta.insert subscription.clientId filter }

/-- Build the request from the subscriptions in the order they are iterated. -/
def buildSubscribeRequest (order : List (Subscription H)) : SubscribeRequest :=
  let maps := order.foldl applyToRequest .empty
  { slots := maps.slots
    accounts := maps.accounts
    transactions := maps.transactions
    transactionsStatus := ∅
    entry := ∅
    blocks := maps.blocks
    blocksMeta := maps.blocksMeta
    commitment := some .processed
    accountsDataSlice := []
    ping := none
    fromSlot := none }

/-- A request that building from the registered subscriptions may produce. -/
def Builds (subs : SubscriptionMap H) (request : SubscribeRequest) : Prop :=
  ∃ order, subs.IterationOrder order ∧ request=buildSubscribeRequest order

/-- What five maps hold for a type and a client, as a subscription type. -/
def RequestMaps.view (maps : RequestMaps) : Kind × String → Option SubscriptionType
  | (.transactions,clientId) => (maps.transactions.lookup clientId).map .transactions
  | (.accounts,clientId) => (maps.accounts.lookup clientId).map .accounts
  | (.slots,clientId) => (maps.slots.lookup clientId).map .slots
  | (.blocks,clientId) => (maps.blocks.lookup clientId).map .blocks
  | (.blocksMeta,clientId) => (maps.blocksMeta.lookup clientId).map .blocksMeta

/-- The same reading of a finished request. -/
def requestView (request : SubscribeRequest) : Kind × String → Option SubscriptionType :=
  RequestMaps.view ⟨request.transactions,request.accounts,request.slots,request.blocks,
    request.blocksMeta⟩

/-- The key a subscription writes under. -/
def requestKey (subscription : Subscription H) : Kind × String :=
  (subscription.subscriptionType.kind,subscription.clientId)

/-- The request has the filter as a value of some entry of the map for its
type. -/
def Carries (request : SubscribeRequest) : SubscriptionType → Prop
  | .transactions filter => ∃ clientId, request.transactions.lookup clientId=some filter
  | .accounts filter => ∃ clientId, request.accounts.lookup clientId=some filter
  | .slots filter => ∃ clientId, request.slots.lookup clientId=some filter
  | .blocks filter => ∃ clientId, request.blocks.lookup clientId=some filter
  | .blocksMeta filter => ∃ clientId, request.blocksMeta.lookup clientId=some filter

/-- Applying a subscription overwrites the entry of its type and client. -/
theorem applyToRequest_overwrites :
    Overwrites RequestMaps.view (applyToRequest (H:=H)) requestKey Subscription.subscriptionType := by
  intro maps subscription (kind,clientId)
  unfold applyToRequest requestKey
  cases htype : subscription.subscriptionType <;> cases kind <;>
    simp only [SubscriptionType.kind,RequestMaps.view,Prod.mk.injEq,reduceCtorEq,false_and,
      true_and,if_false,KeyedStore.lookup_insert]
  all_goals
    by_cases h : clientId=subscription.clientId
    · simp only [h,if_true,Option.map_some]
    · simp only [h,Ne.symm h,if_false]

/-- Reading a request for a type carries the filter read. -/
theorem carries_iff (request : SubscribeRequest) (filter : SubscriptionType) :
    Carries request filter ↔ ∃ clientId, requestView request (filter.kind,clientId)=some filter := by
  cases filter <;>
    simp only [Carries,requestView,RequestMaps.view,SubscriptionType.kind,Option.map_eq_some_iff,
      SubscriptionType.transactions.injEq,SubscriptionType.accounts.injEq,
      SubscriptionType.slots.injEq,SubscriptionType.blocks.injEq,SubscriptionType.blocksMeta.injEq,
      exists_eq_right]

/-- A built request reads as the fold over the five maps. -/
theorem requestView_build (order : List (Subscription H)) :
    requestView (buildSubscribeRequest order)=
      (order.foldl applyToRequest RequestMaps.empty).view := rfl

/-- Nothing is stored before the first subscription is applied. -/
theorem view_empty (key : Kind × String) : RequestMaps.empty.view key=none := by
  obtain ⟨kind,clientId⟩ := key
  cases kind <;> simp only [RequestMaps.view,RequestMaps.empty,Finmap.lookup_empty,Option.map_none]

/-- A type and client have an entry exactly when a subscription of that type
and client was iterated. -/
theorem requestView_isSome (order : List (Subscription H)) (key : Kind × String) :
    (requestView (buildSubscribeRequest order) key).isSome ↔
      ∃ subscription∈order,requestKey subscription=key := by
  rw [requestView_build]
  exact view_foldl_isSome applyToRequest_overwrites (view_empty key)

/-- The entry of an iterated subscription's type and client is the filter of
some iterated subscription of that type and client. -/
theorem requestView_of_mem {order : List (Subscription H)} {subscription : Subscription H}
    (h : subscription∈order) :
    ∃ winner∈order,requestKey winner=requestKey subscription ∧
      requestView (buildSubscribeRequest order) (requestKey subscription)=
        some winner.subscriptionType := by
  rw [requestView_build]
  exact view_foldl_of_written applyToRequest_overwrites _ ⟨subscription,h,rfl⟩

/-- Every order of the registered subscriptions builds a request that carries
all their filters exactly when, for each of them, some client's registered
subscriptions of its type all have its filter. One subscription of each type
per client is the usual case of this; two with different filters under one
client overwrite each other. -/
theorem carries_every_subscription_iff (subs : SubscriptionMap H) :
    (∀ order,subs.IterationOrder order → ∀ subscription,subs.Contains subscription →
      Carries (buildSubscribeRequest order) subscription.subscriptionType) ↔
    ∀ subscription,subs.Contains subscription →
      ∃ keeper,subs.Contains keeper ∧ keeper.subscriptionType=subscription.subscriptionType ∧
        ∀ other,subs.Contains other → requestKey other=requestKey keeper →
          other.subscriptionType=subscription.subscriptionType := by
  constructor
  · intro hcarries subscription hregistered
    by_contra hnone
    obtain ⟨order,horder⟩ := subs.exists_iterationOrder
    -- Iterating every differing filter last leaves no entry with this filter.
    let differs := fun other : Subscription H =>
      decide (other.subscriptionType≠subscription.subscriptionType)
    have hlast := hcarries _ (horder.perm (chosen_last_perm order differs)) subscription hregistered
    obtain ⟨clientId,hview⟩ := (carries_iff _ _).mp hlast
    have hsome : (requestView (buildSubscribeRequest
        (order.filter (fun other => !differs other)++order.filter differs))
        (subscription.subscriptionType.kind,clientId)).isSome := by rw [hview]; rfl
    obtain ⟨writer,hwriter,hkey⟩ := (requestView_isSome _ _).mp hsome
    have hwriterOrder := (chosen_last_perm order differs).mem_iff.mp hwriter
    have hkeeper : ∃ other∈order,
        requestKey other=(subscription.subscriptionType.kind,clientId) ∧ differs other=true := by
      by_cases hsame : writer.subscriptionType=subscription.subscriptionType
      · by_contra hall
        refine hnone ⟨writer,horder.mem_iff.mp hwriterOrder,hsame,fun other hother hotherKey => ?_⟩
        by_contra hdiff
        exact hall ⟨other,horder.mem_iff.mpr hother,hotherKey.trans hkey,decide_eq_true hdiff⟩
      · exact ⟨writer,hwriterOrder,hkey,decide_eq_true hsame⟩
    obtain ⟨winner,_,_,hwinner,hwins⟩ := view_foldl_chosen_last applyToRequest_overwrites
      order RequestMaps.empty differs hkeeper
    rw [requestView_build,hwins] at hview
    exact of_decide_eq_true hwinner (Option.some.inj hview)
  · intro hkeepers order horder subscription hregistered
    obtain ⟨keeper,hkeeper,hfilter,hall⟩ := hkeepers subscription hregistered
    obtain ⟨winner,hwinner,hkey,hview⟩ := requestView_of_mem (horder.mem_iff.mpr hkeeper)
    have hwins := hall winner (horder.mem_iff.mp hwinner) hkey
    rw [hwins] at hview
    refine (carries_iff _ _).mpr ⟨keeper.clientId,?_⟩
    rw [←hview,requestKey,hfilter]

/-- A transactions subscription on one included account. -/
def onAccount (id : UInt64) (clientId account : String) : Subscription Unit :=
  ⟨⟨id⟩,clientId,.transactions ⟨none,some false,none,[account],[],[]⟩,⟨"on account",()⟩⟩

/-- Two transactions subscriptions of one client: the request built from them
in this order lacks the filter of the first. -/
theorem build_loses_subscription :
    ((SubscriptionMap.empty.insert (onAccount 1 "raydium" "A")).insert
        (onAccount 2 "raydium" "B")).IterationOrder
      [onAccount 1 "raydium" "A",onAccount 2 "raydium" "B"] ∧
    ((SubscriptionMap.empty.insert (onAccount 1 "raydium" "A")).insert
        (onAccount 2 "raydium" "B")).Contains (onAccount 1 "raydium" "A") ∧
    ¬Carries (buildSubscribeRequest [onAccount 1 "raydium" "A",onAccount 2 "raydium" "B"])
      (onAccount 1 "raydium" "A").subscriptionType := by
  refine ⟨by decide,by decide,fun hcarries => ?_⟩
  obtain ⟨clientId,hview⟩ := (carries_iff _ _).mp hcarries
  have hsome : (requestView (buildSubscribeRequest
      [onAccount 1 "raydium" "A",onAccount 2 "raydium" "B"]) (.transactions,clientId)).isSome := by
    rw [show (Kind.transactions,clientId)=
      ((onAccount 1 "raydium" "A").subscriptionType.kind,clientId) from rfl,hview]
    rfl
  obtain ⟨writer,hwriter,hkey⟩ := (requestView_isSome _ _).mp hsome
  have hclient : clientId="raydium" := by
    simp only [List.mem_cons,List.not_mem_nil,or_false] at hwriter
    rcases hwriter with rfl|rfl <;> exact (congrArg Prod.snd hkey).symm
  subst hclient
  revert hview
  decide

end SteamHandler.Requests
