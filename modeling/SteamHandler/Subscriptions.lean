import SteamHandler.Messages

/-!
# Subscriptions and the local event matcher

A subscription pairs one of five server filters with the handler of its
client. Handlers are opaque closures here; what a call of one does is the
business of the component that creates it. Base58 text comes from an external
encoder, which is therefore a parameter of the matcher.
-/

namespace SteamHandler.Subscriptions

open Messages

/-- Unique identifier for a subscription. -/
structure SubscriptionId where
  /-- Value of the counter when the identifier was drawn. -/
  value : UInt64
  deriving DecidableEq, Repr

/-- Draw an identifier: the counter before and after the atomic increment. -/
def SubscriptionId.new (nextSubId : UInt64) : SubscriptionId × UInt64 := (⟨nextSubId⟩,nextSubId+1)

/-- Types of subscriptions supported by the connection manager. -/
inductive SubscriptionType where
  | transactions (filter : SubscribeRequestFilterTransactions)
  | accounts (filter : SubscribeRequestFilterAccounts)
  | slots (filter : SubscribeRequestFilterSlots)
  | blocks (filter : SubscribeRequestFilterBlocks)
  | blocksMeta (filter : SubscribeRequestFilterBlocksMeta)
  deriving DecidableEq, Repr

/-- The five request maps, by the type of subscription they hold. -/
inductive Kind where
  | transactions
  | accounts
  | slots
  | blocks
  | blocksMeta
  deriving DecidableEq, Repr

/-- The request map a subscription type belongs to. -/
def SubscriptionType.kind : SubscriptionType → Kind
  | .transactions _ => .transactions
  | .accounts _ => .accounts
  | .slots _ => .slots
  | .blocks _ => .blocks
  | .blocksMeta _ => .blocksMeta

/-- A named event handler. -/
structure SubscriptionEventHandler (H : Type) where
  /-- Text used in debug output. -/
  description : String
  /-- The closure itself. -/
  handler : H
  deriving DecidableEq, Repr

/-- A single subscription with its configuration. -/
structure Subscription (H : Type) where
  /-- Key under which the manager registers it. -/
  id : SubscriptionId
  /-- Client on whose behalf it exists. -/
  clientId : String
  /-- What it asks the server for. -/
  subscriptionType : SubscriptionType
  /-- What runs on a matching event. -/
  eventHandler : SubscriptionEventHandler H
  deriving DecidableEq, Repr

/-- A transactions subscription under a freshly drawn identifier. -/
def Subscription.newTransactions {H : Type} (nextSubId : UInt64) (clientId : String)
    (filter : SubscribeRequestFilterTransactions) (handlerDescription : String) (handler : H) :
    Subscription H × UInt64 :=
  let drawn := SubscriptionId.new nextSubId
  (⟨drawn.1,clientId,.transactions filter,⟨handlerDescription,handler⟩⟩,drawn.2)

/-- An accounts subscription under a freshly drawn identifier. -/
def Subscription.newAccounts {H : Type} (nextSubId : UInt64) (clientId : String)
    (filter : SubscribeRequestFilterAccounts) (handlerDescription : String) (handler : H) :
    Subscription H × UInt64 :=
  let drawn := SubscriptionId.new nextSubId
  (⟨drawn.1,clientId,.accounts filter,⟨handlerDescription,handler⟩⟩,drawn.2)

/-- Clone a handler: the placeholder for the description, which logs a warning
and returns `Ok`, under a description that says so. -/
def SubscriptionEventHandler.clone {H : Type} (placeholder : String → H)
    (eventHandler : SubscriptionEventHandler H) : SubscriptionEventHandler H :=
  ⟨eventHandler.description++" (cloned - non-functional)",placeholder eventHandler.description⟩

/-- Clone a subscription, field by field. -/
def Subscription.clone {H : Type} (placeholder : String → H) (subscription : Subscription H) :
    Subscription H :=
  { subscription with eventHandler := subscription.eventHandler.clone placeholder }

/-- A slots subscription written as a struct literal; all fields are public. -/
def Subscription.onSlots {H : Type} (id : UInt64) (clientId : String)
    (filter : SubscribeRequestFilterSlots) (handler : H) : Subscription H :=
  ⟨⟨id⟩,clientId,.slots filter,⟨"slots",handler⟩⟩

/-- Events that handlers receive. -/
inductive SubscriptionEvent where
  | transaction (txInfo : SubscribeUpdateTransactionInfo)
  | account (accountInfo : SubscribeUpdateAccountInfo)
  | slot (slot : UInt64)
  | block (block : SubscribeUpdateBlock)
  | blockMeta (blockMeta : SubscribeUpdateBlockMeta)
  deriving DecidableEq, Repr

section Matching

variable {H : Type} (bs58 : Bytes → String)

/-- The local transaction check: every account of a nonempty `account_include`
occurs in the message. The other filter fields are not looked at, and a
transaction without a message passes. -/
def matchesTransaction (txFilter : SubscribeRequestFilterTransactions)
    (txInfo : SubscribeUpdateTransactionInfo) : Bool :=
  if !txFilter.accountInclude.isEmpty then
    match txInfo.transaction with
    | some tx =>
      match tx.message with
      | some message =>
        let accountKeys := message.accountKeys.map bs58
        txFilter.accountInclude.all fun required => accountKeys.contains required
      | none => true
    | none => true
  else true

/-- Whether the event handler should be invoked for the event. -/
def Subscription.matchesEvent (subscription : Subscription H) (event : SubscriptionEvent) : Bool :=
  match subscription.subscriptionType,event with
  | .transactions txFilter,.transaction txInfo => matchesTransaction bs58 txFilter txInfo
  | .accounts _,.account _ => true
  | .slots _,.slot _ => true
  | .blocks _,.block _ => true
  | .blocksMeta _,.blockMeta _ => true
  | _,_ => false

end Matching

end SteamHandler.Subscriptions
