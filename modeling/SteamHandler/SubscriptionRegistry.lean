import SteamHandler.KeyedStore
import SteamHandler.Subscriptions

/-!
# The subscription registry and its reverse index

The manager keeps two maps: subscriptions by identifier, and for each client
the set of its identifiers. Three commands update them in different lookup
directions. The abstract account of the registry is the command history
itself: a subscription stands when its last addition was not taken back. As
long as no identifier changes its client, both maps are exact images of that
history.
-/

namespace SteamHandler.SubscriptionRegistry

open Messages Subscriptions KeyedStore

variable {H : Type}

/-- The `subscriptions` map. Every insertion is keyed by the identifier of the
subscription inserted, so no other binding can be built. -/
structure SubscriptionMap (H : Type) where
  /-- The underlying finite map. -/
  entries : Finmap fun _ : SubscriptionId => Subscription H
  /-- A binding sits under the identifier of its own subscription. -/
  keyed : ∀ id subscription, entries.lookup id=some subscription → subscription.id=id

namespace SubscriptionMap

/-- The map the manager starts with. -/
def empty : SubscriptionMap H := ⟨∅,fun _ _ h => by simp only [Finmap.lookup_empty] at h; cases h⟩

/-- The subscription registered under an identifier. -/
def lookup (subs : SubscriptionMap H) (id : SubscriptionId) : Option (Subscription H) :=
  subs.entries.lookup id

/-- Register a subscription, replacing what its identifier held. -/
def insert (subs : SubscriptionMap H) (subscription : Subscription H) : SubscriptionMap H where
  entries := subs.entries.insert subscription.id subscription
  keyed := fun id found h => by
    rw [lookup_insert] at h
    split at h
    · cases h
      exact Eq.symm ‹_›
    · exact subs.keyed id found h

/-- Drop one identifier. -/
def remove (subs : SubscriptionMap H) (id : SubscriptionId) : SubscriptionMap H where
  entries := subs.entries.erase id
  keyed := fun other found h => by
    rw [lookup_erase] at h
    split at h
    · cases h
    · exact subs.keyed other found h

/-- Drop a set of identifiers, in whichever order the set is iterated. -/
def removeAll (subs : SubscriptionMap H) (ids : Finset SubscriptionId) : SubscriptionMap H where
  entries := eraseAll subs.entries ids
  keyed := fun other found h => by
    rw [lookup_eraseAll] at h
    split at h
    · cases h
    · exact subs.keyed other found h

@[simp] theorem lookup_empty_map (id : SubscriptionId) :
    (empty : SubscriptionMap H).lookup id=none := Finmap.lookup_empty id

theorem lookup_inserted (subs : SubscriptionMap H) (subscription : Subscription H)
    (id : SubscriptionId) :
    (subs.insert subscription).lookup id=
      if id=subscription.id then some subscription else subs.lookup id :=
  KeyedStore.lookup_insert _ _ _ _

theorem lookup_removed (subs : SubscriptionMap H) (id other : SubscriptionId) :
    (subs.remove id).lookup other=if other=id then none else subs.lookup other :=
  KeyedStore.lookup_erase _ _ _

theorem lookup_removedAll (subs : SubscriptionMap H) (ids : Finset SubscriptionId)
    (other : SubscriptionId) :
    (subs.removeAll ids).lookup other=if other∈ids then none else subs.lookup other :=
  lookup_eraseAll _ _ _

/-- Removing no identifier changes nothing. -/
theorem removeAll_empty (subs : SubscriptionMap H) : subs.removeAll ∅=subs := rfl

/-- A subscription is found under its own identifier only. -/
theorem id_of_lookup {subs : SubscriptionMap H} {id : SubscriptionId} {subscription : Subscription H}
    (h : subs.lookup id=some subscription) : subscription.id=id := subs.keyed id subscription h

/-- The subscription is registered. -/
def Contains (subs : SubscriptionMap H) (subscription : Subscription H) : Prop :=
  subs.lookup subscription.id=some subscription

instance decidableContains [DecidableEq H] (subs : SubscriptionMap H)
    (subscription : Subscription H) : Decidable (subs.Contains subscription) :=
  inferInstanceAs (Decidable (_=_))

/-- A possible result of iterating over `values()`: the registered
subscriptions in an unspecified order. -/
def IterationOrder (subs : SubscriptionMap H) (order : List (Subscription H)) : Prop :=
  (order : Multiset (Subscription H))=values subs.entries

instance decidableIterationOrder [DecidableEq H] (subs : SubscriptionMap H)
    (order : List (Subscription H)) : Decidable (subs.IterationOrder order) :=
  inferInstanceAs (Decidable (_=_))

/-- An iteration visits exactly the registered subscriptions. -/
theorem IterationOrder.mem_iff {subs : SubscriptionMap H} {order : List (Subscription H)}
    (h : subs.IterationOrder order) {subscription : Subscription H} :
    subscription∈order ↔ subs.Contains subscription := by
  have hmem : subscription∈order ↔ subscription∈values subs.entries := by
    rw [←h,Multiset.mem_coe]
  rw [hmem,mem_values]
  constructor
  · intro ⟨id,hid⟩
    have hown : subscription.id=id := subs.keyed id subscription hid
    subst hown
    exact hid
  · exact fun hown => ⟨subscription.id,hown⟩

/-- An iteration visits no identifier twice. -/
theorem IterationOrder.nodup_ids {subs : SubscriptionMap H} {order : List (Subscription H)}
    (h : subs.IterationOrder order) : (order.map Subscription.id).Nodup := by
  have hkeys : ((values subs.entries).map Subscription.id).Nodup := nodup_map_values subs.keyed
  rw [←h,Multiset.map_coe,Multiset.coe_nodup] at hkeys
  exact hkeys

/-- An iteration visits an identifier once if it is registered. -/
theorem IterationOrder.filter_id {subs : SubscriptionMap H} {order : List (Subscription H)}
    (h : subs.IterationOrder order) {subscription : Subscription H}
    (hregistered : subs.Contains subscription) :
    order.filter (fun other => other.id=subscription.id)=[subscription] := by
  have hids := h.nodup_ids
  obtain ⟨before,after,rfl⟩ := List.append_of_mem (h.mem_iff.mpr hregistered)
  rw [List.map_append,List.map_cons,List.nodup_append] at hids
  obtain ⟨_,hafter,hapart⟩ := hids
  have hbefore : before.filter (fun other => other.id=subscription.id)=[] := by
    rw [List.filter_eq_nil_iff]
    intro other hother
    rw [decide_eq_true_iff]
    exact hapart _ (List.mem_map_of_mem hother) _ List.mem_cons_self
  have hlater : after.filter (fun other => other.id=subscription.id)=[] := by
    rw [List.filter_eq_nil_iff]
    intro other hother
    rw [decide_eq_true_iff]
    intro hsame
    refine (List.nodup_cons.mp hafter).1 ?_
    rw [←hsame]
    exact List.mem_map_of_mem hother
  rw [List.filter_append,hbefore,List.nil_append,List.filter_cons,hlater]
  exact if_pos (decide_eq_true rfl)

/-- Any rearrangement of an iteration order is an iteration order. -/
theorem IterationOrder.perm {subs : SubscriptionMap H} {order other : List (Subscription H)}
    (h : subs.IterationOrder order) (hp : other.Perm order) : subs.IterationOrder other :=
  (Multiset.coe_eq_coe.mpr hp).trans h

/-- Every registry can be iterated. -/
theorem exists_iterationOrder (subs : SubscriptionMap H) : ∃ order, subs.IterationOrder order := by
  obtain ⟨order,horder⟩ := Quotient.exists_rep (values subs.entries)
  exact ⟨order,horder⟩

end SubscriptionMap

/-- Commands that can be sent to the connection manager. -/
inductive ManagerCommand (H : Type) where
  | addSubscription (subscription : Subscription H)
  | removeSubscription (subId : SubscriptionId)
  | removeClientSubscriptions (clientId : String)
  | shutdown
  deriving DecidableEq, Repr

/-- The two maps the manager shares with its stream processors. -/
structure Registry (H : Type) where
  /-- Subscriptions by identifier. -/
  subscriptions : SubscriptionMap H
  /-- Identifiers by client. -/
  clientSubscriptions : Finmap fun _ : String => Finset SubscriptionId

namespace Registry

/-- Both maps empty. -/
def empty : Registry H := ⟨.empty,∅⟩

/-- Identifiers listed under a client, none for an absent client. -/
def idsOf (registry : Registry H) (clientId : String) : Finset SubscriptionId :=
  (registry.clientSubscriptions.lookup clientId).getD ∅

/-- `AddSubscription`: write both maps. -/
def addSubscription (registry : Registry H) (subscription : Subscription H) : Registry H where
  subscriptions := registry.subscriptions.insert subscription
  clientSubscriptions := registry.clientSubscriptions.insert subscription.clientId
    (Insert.insert subscription.id (registry.idsOf subscription.clientId))

/-- Take one identifier off a client's set, and the client off the index with
its last identifier. -/
def unlist (clientSubs : Finmap fun _ : String => Finset SubscriptionId) (clientId : String)
    (subId : SubscriptionId) : Finmap fun _ : String => Finset SubscriptionId :=
  match clientSubs.lookup clientId with
  | some subs =>
    let subs := subs.erase subId
    if subs=∅ then clientSubs.erase clientId else clientSubs.insert clientId subs
  | none => clientSubs

/-- `RemoveSubscription`: the removed value names the client to unlist from. -/
def removeSubscription (registry : Registry H) (subId : SubscriptionId) : Registry H where
  subscriptions := registry.subscriptions.remove subId
  clientSubscriptions :=
    match registry.subscriptions.lookup subId with
    | some removed => unlist registry.clientSubscriptions removed.clientId subId
    | none => registry.clientSubscriptions

/-- `RemoveClientSubscriptions`: the index names the identifiers to remove. -/
def removeClientSubscriptions (registry : Registry H) (clientId : String) : Registry H where
  subscriptions := registry.subscriptions.removeAll (registry.idsOf clientId)
  clientSubscriptions := registry.clientSubscriptions.erase clientId

/-- The registry after a command, and whether the command asks for an update
of the server. -/
def handle (registry : Registry H) : ManagerCommand H → Registry H × Bool
  | .addSubscription subscription => (registry.addSubscription subscription,true)
  | .removeSubscription subId => (registry.removeSubscription subId,true)
  | .removeClientSubscriptions clientId =>
    (registry.removeClientSubscriptions clientId,decide (registry.idsOf clientId≠∅))
  | .shutdown => (registry,false)

/-- The registry after a list of commands. -/
def handleAll (registry : Registry H) (commands : List (ManagerCommand H)) : Registry H :=
  commands.foldl (fun current command => (current.handle command).1) registry

@[simp] theorem handleAll_nil (registry : Registry H) : registry.handleAll []=registry := rfl

@[simp] theorem handleAll_append (registry : Registry H) (first second : List (ManagerCommand H)) :
    registry.handleAll (first++second)=(registry.handleAll first).handleAll second := by
  simp only [handleAll,List.foldl_append]

@[simp] theorem handleAll_singleton (registry : Registry H) (command : ManagerCommand H) :
    registry.handleAll [command]=(registry.handle command).1 := rfl

/-- An identifier that no command adds stays unregistered. -/
theorem lookup_handleAll_none {registry : Registry H} {subId : SubscriptionId}
    (hnone : registry.subscriptions.lookup subId=none) {commands : List (ManagerCommand H)}
    (hunadded : ∀ subscription,.addSubscription subscription∈commands → subscription.id≠subId) :
    (registry.handleAll commands).subscriptions.lookup subId=none := by
  induction commands using List.reverseRecOn with
  | nil => exact hnone
  | append_singleton commands command ih =>
    have hpast := ih fun subscription hmem => hunadded subscription (List.mem_append_left _ hmem)
    have hlast := List.mem_append_right commands (List.mem_singleton_self command)
    rw [handleAll_append,handleAll_singleton]
    cases command with
    | addSubscription subscription =>
      have hother := hunadded subscription hlast
      simp only [handle,addSubscription,SubscriptionMap.lookup_inserted,if_neg hother.symm]
      exact hpast
    | removeSubscription removedId =>
      simp only [handle,removeSubscription,SubscriptionMap.lookup_removed,hpast,ite_self]
    | removeClientSubscriptions clientId =>
      simp only [handle,removeClientSubscriptions,SubscriptionMap.lookup_removedAll,hpast,ite_self]
    | shutdown => exact hpast

end Registry

end SteamHandler.SubscriptionRegistry
