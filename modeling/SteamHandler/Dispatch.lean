import SteamHandler.SubscriptionRegistry
import SteamHandler.Base58

/-!
# Dispatching an event to the registered handlers

One stream carries the union of all clients' filters, and the local matcher
separates them again. The matcher reads only `account_include` and the kind of
the update. What the server's filter language means is stated beside it, so
that the two readings of one filter can be compared.
-/

namespace SteamHandler.Dispatch

open Messages Subscriptions SubscriptionRegistry

variable {H : Type}

/-- One call of a handler. -/
structure HandlerCall (H : Type) where
  /-- The subscription whose handler is called. -/
  subscription : Subscription H
  /-- The event handed over. -/
  event : SubscriptionEvent
  /-- What the handler returned; an error is logged. -/
  outcome : Except String Unit

/-- Call the handler of every matching subscription, in iteration order. The
read lock is held throughout, so the registry does not change under the loop.
What the handlers return is theirs to choose. -/
def dispatchEvent (bs58 : Bytes → String) (outcome : SubscriptionId → Except String Unit)
    (event : SubscriptionEvent) : List (Subscription H) → List (HandlerCall H)
  | [] => []
  | subscription::rest =>
    if subscription.matchesEvent bs58 event then
      match outcome subscription.id with
      | .error error => ⟨subscription,event,.error error⟩::dispatchEvent bs58 outcome event rest
      | .ok () => ⟨subscription,event,.ok ()⟩::dispatchEvent bs58 outcome event rest
    else dispatchEvent bs58 outcome event rest

/-- The calls are the matching subscriptions in order, whatever the handlers
return. -/
theorem dispatchEvent_eq (bs58 : Bytes → String) (outcome : SubscriptionId → Except String Unit)
    (event : SubscriptionEvent) (order : List (Subscription H)) :
    dispatchEvent bs58 outcome event order=
      (order.filter fun subscription => subscription.matchesEvent bs58 event).map
        fun subscription => ⟨subscription,event,outcome subscription.id⟩ := by
  induction order with
  | nil => rfl
  | cons subscription order ih =>
    rw [dispatchEvent]
    by_cases hmatch : subscription.matchesEvent bs58 event=true
    · simp only [hmatch,if_true,List.filter_cons,List.map_cons,ih]
      cases outcome subscription.id <;> rfl
    · simp only [hmatch,List.filter_cons,Bool.false_eq_true,if_false,ih]

/-- A handler is called exactly when its subscription was iterated and
matches. -/
theorem exists_call_iff {bs58 : Bytes → String} {outcome : SubscriptionId → Except String Unit}
    {event : SubscriptionEvent} {order : List (Subscription H)} {subscription : Subscription H} :
    (∃ call∈dispatchEvent bs58 outcome event order,call.subscription=subscription) ↔
      subscription∈order ∧ subscription.matchesEvent bs58 event=true := by
  rw [dispatchEvent_eq]
  constructor
  · intro ⟨call,hcall,hown⟩
    obtain ⟨called,hcalled,rfl⟩ := List.mem_map.mp hcall
    subst hown
    exact List.mem_filter.mp hcalled
  · intro h
    exact ⟨_,List.mem_map.mpr ⟨subscription,List.mem_filter.mpr h,rfl⟩,rfl⟩

section Calls

variable {subs : SubscriptionMap H} {order : List (Subscription H)}

/-- A registered subscription is called once with the event if it matches, and
else not, whatever the handlers return. -/
theorem calls_of_registered (horder : subs.IterationOrder order) (bs58 : Bytes → String)
    (outcome : SubscriptionId → Except String Unit) (event : SubscriptionEvent)
    {subscription : Subscription H} (hregistered : subs.Contains subscription) :
    (dispatchEvent bs58 outcome event order).filter
        (fun call => call.subscription.id=subscription.id)=
      if subscription.matchesEvent bs58 event then
        [⟨subscription,event,outcome subscription.id⟩]
      else [] := by
  have hown := horder.filter_id hregistered
  rw [dispatchEvent_eq,List.filter_map]
  change ((order.filter fun other => other.matchesEvent bs58 event).filter
    (fun other => other.id=subscription.id)).map _=_
  rw [List.filter_comm,hown,List.filter_cons]
  cases subscription.matchesEvent bs58 event <;> rfl

theorem calls_of_match (horder : subs.IterationOrder order) (bs58 : Bytes → String)
    (outcome : SubscriptionId → Except String Unit) (event : SubscriptionEvent)
    {subscription : Subscription H} (hregistered : subs.Contains subscription)
    (hmatch : subscription.matchesEvent bs58 event=true) :
    (dispatchEvent bs58 outcome event order).filter
        (fun call => call.subscription.id=subscription.id)=
      [⟨subscription,event,outcome subscription.id⟩] :=
  (calls_of_registered horder bs58 outcome event hregistered).trans (if_pos hmatch)

/-- Only registered subscriptions that match are called, with the event. -/
theorem call_of_mem (horder : subs.IterationOrder order) {bs58 : Bytes → String}
    {outcome : SubscriptionId → Except String Unit} {event : SubscriptionEvent}
    {call : HandlerCall H} (hcall : call∈dispatchEvent bs58 outcome event order) :
    subs.Contains call.subscription ∧ call.subscription.matchesEvent bs58 event=true ∧
      call.event=event := by
  obtain ⟨hmem,hmatch⟩ := exists_call_iff.mp ⟨call,hcall,rfl⟩
  rw [dispatchEvent_eq] at hcall
  obtain ⟨called,_,rfl⟩ := List.mem_map.mp hcall
  exact ⟨horder.mem_iff.mp hmem,hmatch,rfl⟩

/-- A dispatch hands an identifier its event at most once. -/
theorem calls_with_id_sublist (horder : subs.IterationOrder order) (bs58 : Bytes → String)
    (outcome : SubscriptionId → Except String Unit) (event : SubscriptionEvent)
    (subId : SubscriptionId) :
    (((dispatchEvent bs58 outcome event order).filter
      (fun call => call.subscription.id=subId)).map HandlerCall.event).Sublist [event] := by
  by_cases hsome : ∃ call∈dispatchEvent bs58 outcome event order,call.subscription.id=subId
  · obtain ⟨call,hcall,rfl⟩ := hsome
    obtain ⟨hregistered,hmatch,_⟩ := call_of_mem horder hcall
    rw [calls_of_match horder bs58 outcome event hregistered hmatch]
    exact List.Sublist.refl _
  · have hnone : (dispatchEvent bs58 outcome event order).filter
        (fun call => call.subscription.id=subId)=[] := by
      rw [List.filter_eq_nil_iff]
      intro call hcall
      rw [decide_eq_true_iff]
      exact fun hid => hsome ⟨call,hcall,hid⟩
    rw [hnone]
    exact List.nil_sublist _

end Calls

section FilterMeaning

variable (bs58 : Bytes → String)

/-- The message of a transaction update, when both layers are present. -/
def messageOf (txInfo : SubscribeUpdateTransactionInfo) : Option Message :=
  txInfo.transaction.bind Transaction.message

/-- Base58 account keys of a transaction update, none without a message. -/
def accountKeysOf (txInfo : SubscribeUpdateTransactionInfo) : List String :=
  ((messageOf txInfo).map fun message => message.accountKeys.map bs58).getD []

/-- The execution metadata carries an error. -/
def hasFailed (txInfo : SubscribeUpdateTransactionInfo) : Bool :=
  (txInfo.statusMeta.bind TransactionStatusMeta.err).isSome

/-- The fields of a transactions filter that the local matcher never reads. -/
structure MeetsUnreadFields (filter : SubscribeRequestFilterTransactions)
    (txInfo : SubscribeUpdateTransactionInfo) : Prop where
  /-- Vote flag, when set. -/
  vote : ∀ vote,filter.vote=some vote → vote=txInfo.isVote
  /-- Failure flag, when set. -/
  failed : ∀ failed,filter.failed=some failed → failed=hasFailed txInfo
  /-- Signature, when set. -/
  signature : ∀ signature,filter.signature=some signature → signature=bs58 txInfo.signature
  /-- No excluded account occurs. -/
  exclude : ∀ account∈filter.accountExclude,account∉accountKeysOf bs58 txInfo
  /-- Every required account occurs. -/
  required : ∀ account∈filter.accountRequired,account∈accountKeysOf bs58 txInfo

/-- The server's meaning of a transactions filter. -/
def SatisfiesTransactions (filter : SubscribeRequestFilterTransactions)
    (txInfo : SubscribeUpdateTransactionInfo) : Prop :=
  MeetsUnreadFields bs58 filter txInfo ∧
    (filter.accountInclude=[] ∨
      ∃ account∈filter.accountInclude,account∈accountKeysOf bs58 txInfo)

/-- The server's meaning of an accounts filter. -/
def SatisfiesAccounts (filter : SubscribeRequestFilterAccounts)
    (accountInfo : SubscribeUpdateAccountInfo) : Prop :=
  (filter.account=[] ∨ bs58 accountInfo.pubkey∈filter.account) ∧
    (filter.owner=[] ∨ bs58 accountInfo.owner∈filter.owner)

/-- An update satisfies a filter of its own kind. Filters of slots, blocks and
block metadata are not interpreted further. -/
def Satisfies : SubscriptionType → SubscriptionEvent → Prop
  | .transactions filter,.transaction txInfo => SatisfiesTransactions bs58 filter txInfo
  | .accounts filter,.account accountInfo => SatisfiesAccounts bs58 filter accountInfo
  | .slots _,.slot _ => True
  | .blocks _,.block _ => True
  | .blocksMeta _,.blockMeta _ => True
  | _,_ => False

/-- The update does not get past the account check of a foreign filter: a
transactions filter whose whole `account_include` occurs in the message, or
any when the message is missing, is also met in the fields the matcher does
not read, and an accounts filter names the account and its owner. -/
def SeparatedFrom : SubscriptionType → SubscriptionEvent → Prop
  | .transactions filter,.transaction txInfo =>
    ((messageOf txInfo).isSome=true →
        ∀ account∈filter.accountInclude,account∈accountKeysOf bs58 txInfo) →
      MeetsUnreadFields bs58 filter txInfo ∧
        ((messageOf txInfo).isSome=true ∨ filter.accountInclude=[])
  | .accounts filter,.account accountInfo => SatisfiesAccounts bs58 filter accountInfo
  | _,_ => True

/-- What the local transaction check amounts to. -/
theorem matchesTransaction_iff (filter : SubscribeRequestFilterTransactions)
    (txInfo : SubscribeUpdateTransactionInfo) :
    matchesTransaction bs58 filter txInfo=true ↔
      ((messageOf txInfo).isSome=true →
        ∀ account∈filter.accountInclude,account∈accountKeysOf bs58 txInfo) := by
  unfold matchesTransaction accountKeysOf messageOf
  cases hinclude : filter.accountInclude with
  | nil => simp only [List.isEmpty_nil,Bool.not_true,Bool.false_eq_true,if_false,
      List.not_mem_nil,false_implies,implies_true]
  | cons first rest =>
    simp only [List.isEmpty_cons,Bool.not_false,if_true]
    cases txInfo.transaction with
    | none => simp only [Option.bind_none,Option.isSome_none,Bool.false_eq_true,false_implies]
    | some tx =>
      cases hmessage : tx.message with
      | none => simp only [Option.bind_some,hmessage,Option.isSome_none,Bool.false_eq_true,
          false_implies]
      | some message =>
        simp only [Option.bind_some,hmessage,Option.isSome_some,forall_const,Option.map_some,
          Option.getD_some,List.all_eq_true,List.contains_iff_mem]

/-- For one filter, a matching update satisfies it exactly when the fields the
matcher ignores are met. -/
theorem satisfies_of_match_iff (subscription : Subscription H) (event : SubscriptionEvent) :
    (subscription.matchesEvent bs58 event=true →
      Satisfies bs58 subscription.subscriptionType event) ↔
      SeparatedFrom bs58 subscription.subscriptionType event := by
  unfold Subscription.matchesEvent
  cases subscription.subscriptionType with
  | transactions filter =>
    cases event with
    | transaction txInfo =>
      dsimp only [Satisfies,SeparatedFrom]
      rw [matchesTransaction_iff]
      refine forall_congr' fun hpassed => and_congr_right fun _ => ?_
      constructor
      · intro h
        rcases h with hempty|⟨account,_,hkey⟩
        · exact Or.inr hempty
        · left
          by_contra hmissing
          rw [accountKeysOf,Option.not_isSome_iff_eq_none.mp hmissing] at hkey
          exact List.not_mem_nil hkey
      · intro h
        rcases h with hpresent|hempty
        · cases hinclude : filter.accountInclude with
          | nil => exact Or.inl rfl
          | cons first rest =>
            rw [hinclude] at hpassed
            exact Or.inr ⟨first,List.mem_cons_self,hpassed hpresent first List.mem_cons_self⟩
        · exact Or.inl hempty
    | _ => simp only [Satisfies,SeparatedFrom,Bool.false_eq_true,false_implies]
  | accounts filter =>
    cases event <;>
      simp only [Satisfies,SeparatedFrom,Bool.false_eq_true,false_implies,forall_const]
  | _ =>
    cases event <;>
      simp only [Satisfies,SeparatedFrom,Bool.false_eq_true,false_implies,implies_true]

/-- For every registry and update: in every iteration order and whatever the
handlers return, dispatch invokes only handlers whose own filter the update
satisfies, exactly when the update is separated from every registered filter
in the fields the local matcher does not read. -/
theorem dispatch_separates_iff (subs : SubscriptionMap H) (event : SubscriptionEvent) :
    (∀ order outcome,subs.IterationOrder order →
      ∀ call∈dispatchEvent bs58 outcome event order,
        Satisfies bs58 call.subscription.subscriptionType event) ↔
    ∀ subscription,subs.Contains subscription →
      SeparatedFrom bs58 subscription.subscriptionType event := by
  constructor
  · intro h subscription hregistered
    obtain ⟨order,horder⟩ := subs.exists_iterationOrder
    rw [←satisfies_of_match_iff]
    intro hmatch
    have hcalled : ∃ call∈dispatchEvent bs58 (fun _ => .ok ()) event order,
        call.subscription=subscription :=
      exists_call_iff.mpr ⟨horder.mem_iff.mpr hregistered,hmatch⟩
    obtain ⟨call,hcall,rfl⟩ := hcalled
    exact h order _ horder call hcall
  · intro h order outcome horder call hcall
    obtain ⟨hmem,hmatch⟩ := exists_call_iff.mp ⟨call,hcall,rfl⟩
    exact (satisfies_of_match_iff bs58 _ _).mpr (h _ (horder.mem_iff.mp hmem)) hmatch

/-- The accounts of `account_include` occur among the keys all together or not
at all. -/
def IncludedTogether (filter : SubscribeRequestFilterTransactions)
    (txInfo : SubscribeUpdateTransactionInfo) : Prop :=
  (∀ account∈filter.accountInclude,account∈accountKeysOf bs58 txInfo) ∨
    ∀ account∈filter.accountInclude,account∉accountKeysOf bs58 txInfo

/-- For every transaction with a message and every subscription carrying a
transactions filter: a delivery because of this filter matches and reaches the
handler, exactly when the included accounts occur together or another field
excludes the transaction. -/
theorem delivered_is_dispatched_iff {subscription : Subscription H}
    {filter : SubscribeRequestFilterTransactions} {txInfo : SubscribeUpdateTransactionInfo}
    (hcarries : subscription.subscriptionType=.transactions filter)
    (hmessage : (messageOf txInfo).isSome=true) :
    (SatisfiesTransactions bs58 filter txInfo →
      subscription.matchesEvent bs58 (.transaction txInfo)=true ∧
      ∀ (subs : SubscriptionMap H) order outcome,subs.Contains subscription →
        subs.IterationOrder order →
        ∃ call∈dispatchEvent bs58 outcome (.transaction txInfo) order,
          call.subscription=subscription) ↔
    (MeetsUnreadFields bs58 filter txInfo → IncludedTogether bs58 filter txInfo) := by
  have hmatch : subscription.matchesEvent bs58 (.transaction txInfo)=true ↔
      ∀ account∈filter.accountInclude,account∈accountKeysOf bs58 txInfo := by
    unfold Subscription.matchesEvent
    rw [hcarries,matchesTransaction_iff,forall_prop_of_true hmessage]
  constructor
  · intro h hunread
    by_cases hsome : ∃ account∈filter.accountInclude,account∈accountKeysOf bs58 txInfo
    · exact Or.inl (hmatch.mp (h ⟨hunread,Or.inr hsome⟩).1)
    · exact Or.inr fun account hincluded hkey => hsome ⟨account,hincluded,hkey⟩
  · intro h ⟨hunread,hinclude⟩
    have hall : ∀ account∈filter.accountInclude,account∈accountKeysOf bs58 txInfo := by
      rcases hinclude with hempty|⟨account,hincluded,hkey⟩
      · rw [hempty]
        exact fun _ hmem => absurd hmem List.not_mem_nil
      · exact (h hunread).resolve_right fun hnone => hnone account hincluded hkey
    have hmatches := hmatch.mpr hall
    exact ⟨hmatches,fun subs order outcome hregistered horder =>
      exists_call_iff.mpr ⟨horder.mem_iff.mpr hregistered,hmatches⟩⟩

end FilterMeaning

/-- A transaction that touches the all-zero account and failed. -/
def failedTransfer : SubscribeUpdateTransactionInfo where
  signature := List.replicate 64 0
  isVote := false
  transaction := some ⟨some ⟨none,[List.replicate 32 0],[]⟩⟩
  statusMeta := some ⟨some [8],[],true,[],true,[],[]⟩

/-- Two clients on the same account, the second one for successful
transactions only. -/
def overlappingFilters : SubscriptionMap Unit :=
  (SubscriptionMap.empty.insert ⟨⟨1⟩,"audit",
    .transactions ⟨none,none,none,[Base58.encode (List.replicate 32 0)],[],[]⟩,⟨"audit",()⟩⟩).insert
    ⟨⟨2⟩,"trade",
    .transactions ⟨none,some false,none,[Base58.encode (List.replicate 32 0)],[],[]⟩,⟨"trade",()⟩⟩

/-- The failed transaction, delivered for the first filter, also reaches the
handler of the second, whose filter excludes it. -/
theorem dispatch_crosses_filters :
    ∃ delivered invoked : Subscription Unit,
      overlappingFilters.Contains delivered ∧
      Satisfies Base58.encode delivered.subscriptionType (.transaction failedTransfer) ∧
      overlappingFilters.IterationOrder [delivered,invoked] ∧
      (∃ call∈dispatchEvent Base58.encode (fun _ => .ok ()) (.transaction failedTransfer)
        [delivered,invoked],call.subscription=invoked) ∧
      ¬Satisfies Base58.encode invoked.subscriptionType (.transaction failedTransfer) := by
  refine ⟨⟨⟨1⟩,"audit",
    .transactions ⟨none,none,none,[Base58.encode (List.replicate 32 0)],[],[]⟩,⟨"audit",()⟩⟩,
    ⟨⟨2⟩,"trade",
    .transactions ⟨none,some false,none,[Base58.encode (List.replicate 32 0)],[],[]⟩,⟨"trade",()⟩⟩,
    by decide,?_,by decide,?_,?_⟩
  · refine ⟨⟨nofun,nofun,nofun,nofun,nofun⟩,Or.inr ⟨_,List.mem_cons_self,?_⟩⟩
    decide
  · exact exists_call_iff.mpr ⟨by decide,by decide⟩
  · intro hsatisfied
    have hfailed := hsatisfied.1.failed false rfl
    revert hfailed
    decide

/-- A filter for the transactions of either of two accounts. -/
def eitherFilter : SubscribeRequestFilterTransactions :=
  ⟨none,none,none,[Base58.encode (List.replicate 32 0),Base58.encode (List.replicate 31 0++[1])],
    [],[]⟩

/-- A subscription carrying it. -/
def eitherAccount : Subscription Unit := ⟨⟨1⟩,"a",.transactions eitherFilter,⟨"a",()⟩⟩

theorem delivered_is_dispatched_iff_failedTransfer :
    (SatisfiesTransactions Base58.encode eitherFilter failedTransfer →
      eitherAccount.matchesEvent Base58.encode (.transaction failedTransfer)=true ∧
      ∀ (subs : SubscriptionMap Unit) order outcome,subs.Contains eitherAccount →
        subs.IterationOrder order →
        ∃ call∈dispatchEvent Base58.encode outcome (.transaction failedTransfer) order,
          call.subscription=eitherAccount) ↔
    (MeetsUnreadFields Base58.encode eitherFilter failedTransfer →
      IncludedTogether Base58.encode eitherFilter failedTransfer) :=
  delivered_is_dispatched_iff Base58.encode rfl rfl

/-- The server delivers a transaction of the first account for this filter, and
the local matcher drops it. -/
theorem matcher_drops_delivered :
    ¬∀ (subscription : Subscription Unit) filter txInfo,
      subscription.subscriptionType=.transactions filter →
      (messageOf txInfo).isSome=true → SatisfiesTransactions Base58.encode filter txInfo →
      subscription.matchesEvent Base58.encode (.transaction txInfo)=true := by
  intro hclaim
  have hdelivered : SatisfiesTransactions Base58.encode eitherFilter failedTransfer := by
    refine ⟨⟨nofun,nofun,nofun,nofun,nofun⟩,Or.inr ⟨_,List.mem_cons_self,?_⟩⟩
    decide
  have hmatches := hclaim eitherAccount _ failedTransfer rfl rfl hdelivered
  revert hmatches
  decide

end SteamHandler.Dispatch
