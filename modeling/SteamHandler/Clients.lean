import SteamHandler.ManagerRuns
import SteamHandler.StaleFilters

/-!
# Clients of the connection manager

Clients get their subscriptions from the constructors, which draw identifiers
from a global counter, or by cloning one they hold; a clone has the identifier
and the client of its original, and a handler that does nothing. They hand
them over through the methods of the manager, which wait while the command
channel is full and fail once the manager task has ended. The client system
puts the manager system under such clients: its runs are runs of the manager,
in which every identifier belongs to one client.
-/

namespace SteamHandler.Clients

open Messages Subscriptions SubscriptionRegistry CommandHistory ConnectionManager ManagerRuns
open TransitionSystem

variable {H : Type}

section Methods

/-- `command_tx.send`: it waits while the channel is full, and returns an error once
the receiver is gone. -/
def send (command : ManagerCommand H) (state : State H) : Option (Except Unit Unit × State H) :=
  if state.manager.phase=.exited then some (.error (),state)
  else if state.commands.length < channelCapacity then
    some (.ok (),next state (.sendCommand command))
  else none

/-- A method of the manager that sends a command and then returns, the first result if
the command got in, the second one if not. -/
def callWith {α : Type} (command : ManagerCommand H) (answer : Except String α)
    (refusal : Except String α) (state : State H) : Option (Except String α × State H) :=
  (send command state).map fun sent =>
    (match sent.1 with
      | .ok _ => answer
      | .error _ => refusal,
      sent.2)

/-- Add a new subscription to the manager. -/
def addSubscription (subscription : Subscription H) :
    State H → Option (Except String SubscriptionId × State H) :=
  callWith (.addSubscription subscription) (.ok subscription.id)
    (.error "Failed to send add subscription command")

/-- Remove a subscription by its identifier. -/
def removeSubscription (subscriptionId : SubscriptionId) :
    State H → Option (Except String Unit × State H) :=
  callWith (.removeSubscription subscriptionId) (.ok ())
    (.error "Failed to send remove subscription command")

/-- Remove all subscriptions for a client. -/
def removeClientSubscriptions (clientId : String) :
    State H → Option (Except String Unit × State H) :=
  callWith (.removeClientSubscriptions clientId) (.ok ())
    (.error "Failed to send remove client subscriptions command")

/-- The first half of `shutdown`, up to the broadcast; a failed send is logged. -/
def shutdown : State H → Option (Except String Unit × State H) :=
  callWith .shutdown (.ok ()) (.ok ())

end Methods

/-- The manager, the counter of identifiers and what the clients hold. -/
structure ClientState (H : Type) where
  /-- The manager system. -/
  manager : State H
  /-- The static counter `NEXT_SUB_ID`. -/
  nextSubId : UInt64
  /-- Subscriptions that no method has taken yet. -/
  held : List (Subscription H)

/-- What clients do, and what happens without them. -/
inductive ClientAction (H : Type) where
  /-- `Subscription::new_transactions`. -/
  | newTransactions (clientId : String) (filter : SubscribeRequestFilterTransactions)
      (handlerDescription : String) (handler : H)
  /-- `Subscription::new_accounts`. -/
  | newAccounts (clientId : String) (filter : SubscribeRequestFilterAccounts)
      (handlerDescription : String) (handler : H)
  /-- Clone the subscription held at this position. -/
  | clone (index : ℕ)
  /-- Hand over the subscription held at this position. -/
  | addSubscription (index : ℕ)
  /-- `ConnectionManager::remove_subscription`. -/
  | removeSubscription (subscriptionId : SubscriptionId)
  /-- `ConnectionManager::remove_client_subscriptions`. -/
  | removeClientSubscriptions (clientId : String)
  /-- `ConnectionManager::shutdown`, up to the broadcast. -/
  | shutdown
  /-- A step of the manager system other than the send of a command. -/
  | internal (action : Action H)

/-- The command a step hands to the manager. -/
def commandOf (held : List (Subscription H)) : ClientAction H → Option (ManagerCommand H)
  | .addSubscription index => held[index]?.map .addSubscription
  | .removeSubscription subscriptionId => some (.removeSubscription subscriptionId)
  | .removeClientSubscriptions clientId => some (.removeClientSubscriptions clientId)
  | .shutdown => some .shutdown
  | _ => none

/-- What the call of a step returns; `add_subscription` returns an identifier. -/
def answerOf (step : ClientState H × ClientAction H) :
    Option (Except String (Option SubscriptionId)) :=
  match step.2 with
  | .addSubscription index =>
    step.1.held[index]?.bind fun subscription =>
      (addSubscription subscription step.1.manager).map fun result => result.1.map some
  | .removeSubscription subscriptionId =>
    (removeSubscription subscriptionId step.1.manager).map fun result => result.1.map fun _ => none
  | .removeClientSubscriptions clientId =>
    (removeClientSubscriptions clientId step.1.manager).map fun result => result.1.map fun _ => none
  | .shutdown => (shutdown step.1.manager).map fun result => result.1.map fun _ => none
  | _ => none

/-- The call has returned `Ok`. -/
def succeeded {ε α : Type} : Option (Except ε α) → Bool
  | some (.ok _) => true
  | _ => false

/-- The command of a call that returned `Ok`. `shutdown` always does; what its send
returned, it only logs. -/
def acceptedBy (step : ClientState H × ClientAction H) : Option (ManagerCommand H) :=
  match step.2 with
  | .shutdown =>
    if succeeded ((send .shutdown step.1.manager).map Prod.fst) then some .shutdown else none
  | action => if succeeded (answerOf step) then commandOf step.1.held action else none

/-- The command is sent by a client, not by the system itself. -/
def sendsCommand : Action H → Bool
  | .sendCommand _ => true
  | _ => false

namespace ClientState

/-- Go on with what a method returned. -/
def returned {α : Type} (state : ClientState H) : Option (Except String α × State H) → ClientState H
  | some (_,manager) => { state with manager := manager }
  | none => state

/-- Keep what a constructor returned. -/
def keep (state : ClientState H) (made : Subscription H × UInt64) : ClientState H :=
  { state with nextSubId := made.2, held := state.held++[made.1] }

end ClientState

/-- When each step can happen; a method returns once it need not wait. -/
def ClientEnabled (state : ClientState H) : ClientAction H → Prop
  | .newTransactions _ _ _ _ => True
  | .newAccounts _ _ _ _ => True
  | .clone index => index < state.held.length
  | .addSubscription index => state.manager.ownerAlive=true ∧
      ∃ subscription∈state.held[index]?,(addSubscription subscription state.manager).isSome=true
  | .removeSubscription subscriptionId => state.manager.ownerAlive=true ∧
      (removeSubscription subscriptionId state.manager).isSome=true
  | .removeClientSubscriptions clientId => state.manager.ownerAlive=true ∧
      (removeClientSubscriptions clientId state.manager).isSome=true
  | .shutdown => state.manager.ownerAlive=true ∧ (shutdown state.manager).isSome=true
  | .internal action => sendsCommand action=false ∧ Enabled state.manager action

instance decidableClientEnabled [DecidableEq H] (state : ClientState H) :
    ∀ action,Decidable (ClientEnabled state action)
  | .newTransactions _ _ _ _ => inferInstanceAs (Decidable True)
  | .newAccounts _ _ _ _ => inferInstanceAs (Decidable True)
  | .clone _ => inferInstanceAs (Decidable (_ < _))
  | .addSubscription index => by
    dsimp only [ClientEnabled]
    cases state.held[index]? <;> infer_instance
  | .removeSubscription _ => inferInstanceAs (Decidable (_ ∧ _))
  | .removeClientSubscriptions _ => inferInstanceAs (Decidable (_ ∧ _))
  | .shutdown => inferInstanceAs (Decidable (_ ∧ _))
  | .internal _ => inferInstanceAs (Decidable (_ ∧ _))

/-- What each step does. -/
def clientNext (placeholder : String → H) (state : ClientState H) : ClientAction H → ClientState H
  | .newTransactions clientId filter handlerDescription handler =>
    state.keep (Subscription.newTransactions state.nextSubId clientId filter handlerDescription
      handler)
  | .newAccounts clientId filter handlerDescription handler =>
    state.keep (Subscription.newAccounts state.nextSubId clientId filter handlerDescription handler)
  | .clone index =>
    match state.held[index]? with
    | some subscription =>
      { state with held := state.held++[subscription.clone placeholder] }
    | none => state
  | .addSubscription index =>
    match state.held[index]? with
    | some subscription =>
      { state.returned (addSubscription subscription state.manager) with
        held := state.held.eraseIdx index }
    | none => state
  | .removeSubscription subscriptionId =>
    state.returned (removeSubscription subscriptionId state.manager)
  | .removeClientSubscriptions clientId =>
    state.returned (removeClientSubscriptions clientId state.manager)
  | .shutdown => state.returned (shutdown state.manager)
  | .internal action => { state with manager := next state.manager action }

/-- Clients of a manager that was just created. -/
def clients (placeholder : String → H) : System (ClientState H) (ClientAction H) where
  initial := fun state => (connectionManager H).initial state.manager ∧ state.nextSubId=1 ∧
    state.held=[]
  enabled := ClientEnabled
  next := clientNext placeholder

instance decidableClientsEnabled [DecidableEq H] (placeholder : String → H)
    (state : ClientState H) (action : ClientAction H) :
    Decidable ((clients placeholder).enabled state action) := decidableClientEnabled state action

section Steps

variable {placeholder : String → H} {state : ClientState H}

/-- The steps of the manager system that a step amounts to. -/
def managerSteps (step : ClientState H × ClientAction H) : List (Action H) :=
  match step.2 with
  | .internal action => [action]
  | action =>
    if step.1.manager.manager.phase=.exited then []
    else ((commandOf step.1.held action).map .sendCommand).toList

/-- The subscription that a step constructs. -/
def madeBy (step : ClientState H × ClientAction H) : Option (Subscription H) :=
  match step.2 with
  | .newTransactions clientId filter handlerDescription handler =>
    some (Subscription.newTransactions step.1.nextSubId clientId filter handlerDescription handler).1
  | .newAccounts clientId filter handlerDescription handler =>
    some (Subscription.newAccounts step.1.nextSubId clientId filter handlerDescription handler).1
  | _ => none

/-- A method leaves the counter and what is held alone. -/
theorem returned_nextSubId {α : Type} (result : Option (Except String α × State H)) :
    (state.returned result).nextSubId=state.nextSubId ∧ (state.returned result).held=state.held := by
  cases result <;> exact ⟨rfl,rfl⟩

/-- Only a constructor draws from the counter. -/
theorem nextSubId_next (action : ClientAction H) :
    (clientNext placeholder state action).nextSubId=
      state.nextSubId+UInt64.ofNat (madeBy (state,action)).toList.length := by
  have hidle : state.nextSubId=state.nextSubId+UInt64.ofNat 0 := (UInt64.add_zero _).symm
  cases action with
  | newTransactions clientId filter handlerDescription handler => rfl
  | newAccounts clientId filter handlerDescription handler => rfl
  | clone index =>
    rw [clientNext]
    cases state.held[index]? <;> exact hidle
  | addSubscription index =>
    rw [clientNext]
    cases state.held[index]? with
    | none => exact hidle
    | some subscription => exact (returned_nextSubId _).1.trans hidle
  | removeSubscription subscriptionId => exact (returned_nextSubId _).1.trans hidle
  | removeClientSubscriptions clientId => exact (returned_nextSubId _).1.trans hidle
  | shutdown => exact (returned_nextSubId _).1.trans hidle
  | internal action => exact hidle

/-- A constructor uses the counter as the identifier. -/
theorem id_of_madeBy {action : ClientAction H} {made : Subscription H}
    (h : madeBy (state,action)=some made) : made.id=⟨state.nextSubId⟩ := by
  cases action with
  | newTransactions clientId filter handlerDescription handler =>
    obtain rfl := Option.some.inj h
    rfl
  | newAccounts clientId filter handlerDescription handler =>
    obtain rfl := Option.some.inj h
    rfl
  | _ => cases h

/-- What is held after a step was held before, or was just made, or is a clone
of what was held. -/
theorem held_next {action : ClientAction H} {subscription : Subscription H}
    (h : subscription∈(clientNext placeholder state action).held) :
    subscription∈state.held ∨ madeBy (state,action)=some subscription ∨
      ∃ original∈state.held,subscription=original.clone placeholder := by
  cases action with
  | newTransactions clientId filter handlerDescription handler =>
    rcases List.mem_append.mp h with hheld|hmade
    · exact Or.inl hheld
    · exact Or.inr (Or.inl (congrArg some (List.mem_singleton.mp hmade).symm))
  | newAccounts clientId filter handlerDescription handler =>
    rcases List.mem_append.mp h with hheld|hmade
    · exact Or.inl hheld
    · exact Or.inr (Or.inl (congrArg some (List.mem_singleton.mp hmade).symm))
  | clone index =>
    rw [clientNext] at h
    cases hindex : state.held[index]? with
    | none =>
      rw [hindex] at h
      exact Or.inl h
    | some original =>
      rw [hindex] at h
      rcases List.mem_append.mp h with hheld|hcloned
      · exact Or.inl hheld
      · exact Or.inr (Or.inr ⟨original,List.mem_of_getElem? hindex,List.mem_singleton.mp hcloned⟩)
  | addSubscription index =>
    rw [clientNext] at h
    cases hindex : state.held[index]? with
    | none =>
      rw [hindex] at h
      exact Or.inl h
    | some given =>
      rw [hindex] at h
      exact Or.inl (List.mem_of_mem_eraseIdx h)
  | removeSubscription subscriptionId => exact Or.inl ((returned_nextSubId _).2 ▸ h)
  | removeClientSubscriptions clientId => exact Or.inl ((returned_nextSubId _).2 ▸ h)
  | shutdown => exact Or.inl ((returned_nextSubId _).2 ▸ h)
  | internal action => exact Or.inl h

/-- What is handed over was held. -/
theorem held_of_sent {action : ClientAction H} (henabled : ClientEnabled state action)
    {subscription : Subscription H}
    (h : .addSubscription subscription∈sentCommands (managerSteps (state,action))) :
    subscription∈state.held := by
  have hcall : ∀ command : ManagerCommand H,
      .addSubscription subscription∈sentCommands
        (if state.manager.manager.phase=.exited then [] else [.sendCommand command]) →
      command=.addSubscription subscription := by
    intro command hsent
    split at hsent
    · cases hsent
    · exact (List.mem_singleton.mp hsent).symm
  cases action with
  | addSubscription index =>
    obtain ⟨_,given,hindex,_⟩ := henabled
    rw [Option.mem_def] at hindex
    simp only [managerSteps,commandOf,hindex,Option.map_some,Option.toList_some] at h
    obtain rfl := ManagerCommand.addSubscription.inj (hcall _ h)
    exact List.mem_of_getElem? hindex
  | removeSubscription subscriptionId => cases hcall _ h
  | removeClientSubscriptions clientId => cases hcall _ h
  | shutdown => cases hcall _ h
  | internal action =>
    cases action with
    | sendCommand command => cases henabled.1
    | _ => cases h
  | _ =>
    simp only [managerSteps,commandOf,Option.map_none,Option.toList_none,ite_self] at h
    cases h

end Steps

section Identifiers

/-- The identifier that is drawn after so many others. -/
def subIdAt (drawn : ℕ) : SubscriptionId := ⟨UInt64.ofNat (drawn+1)⟩

end Identifiers

section Runs

variable (placeholder : String → H)

/-- The commands accepted in a run. -/
def accepted (start : ClientState H) (actions : List (ClientAction H)) :
    List (ManagerCommand H) :=
  ((clients placeholder).steps start actions).filterMap acceptedBy

variable {placeholder} {start : ClientState H} {actions : List (ClientAction H)}

/-- The subscription was constructed, or cloned from one that was, any number of
times. -/
def ComesFrom (placeholder : String → H) (made : List (Subscription H))
    (subscription : Subscription H) : Prop :=
  ∃ original∈made,∃ clonings : ℕ,
    subscription=(Subscription.clone placeholder)^[clonings] original

theorem ComesFrom.append {made : List (Subscription H)} {subscription : Subscription H}
    (h : ComesFrom placeholder made subscription) (later : List (Subscription H)) :
    ComesFrom placeholder (made++later) subscription := by
  obtain ⟨original,hmade,clonings,hcloned⟩ := h
  exact ⟨original,List.mem_append_left _ hmade,clonings,hcloned⟩

/-- What the clients have drawn, hold and have handed over. -/
structure Provenance (placeholder : String → H) (made : List (Subscription H))
    (state : ClientState H) (sent : List (ManagerCommand H)) : Prop where
  /-- The counter counts the subscriptions constructed. -/
  counter : state.nextSubId=UInt64.ofNat (made.length+1)
  /-- Their identifiers are the values it took. -/
  identifiers : made.map Subscription.id=(List.range made.length).map subIdAt
  /-- What is held was constructed or cloned. -/
  held : ∀ subscription∈state.held,ComesFrom placeholder made subscription
  /-- So was what was handed over. -/
  sent : ∀ subscription,.addSubscription subscription∈sent →
    ComesFrom placeholder made subscription

/-- A step keeps the account. -/
theorem Provenance.step {made : List (Subscription H)} {state : ClientState H}
    {sent : List (ManagerCommand H)} (h : Provenance placeholder made state sent)
    {action : ClientAction H} (henabled : ClientEnabled state action) :
    Provenance placeholder (made++(madeBy (state,action)).toList)
      (clientNext placeholder state action)
      (sent++sentCommands (managerSteps (state,action))) := by
  constructor
  · rw [nextSubId_next,h.counter,List.length_append,←UInt64.ofNat_add]
    congr 1
    omega
  · cases hmade : madeBy (state,action) with
    | none =>
      rw [Option.toList_none,List.append_nil]
      exact h.identifiers
    | some subscription =>
      rw [Option.toList_some,List.map_append,h.identifiers,List.length_append,List.length_singleton,
        List.range_succ,List.map_append,List.map_singleton,List.map_singleton,id_of_madeBy hmade,
        h.counter]
      rfl
  · intro subscription hafter
    rcases held_next hafter with hheld|hmade|⟨original,hheld,hcloned⟩
    · exact (h.held subscription hheld).append _
    · rw [hmade]
      exact ⟨subscription,List.mem_append_right _ List.mem_cons_self,0,rfl⟩
    · obtain ⟨first,hfirst,clonings,horiginal⟩ := (h.held original hheld).append
        (madeBy (state,action)).toList
      refine ⟨first,hfirst,clonings+1,?_⟩
      rw [hcloned,horiginal,Function.iterate_succ_apply']
  · intro subscription hafter
    rcases List.mem_append.mp hafter with hpast|hlast
    · exact (h.sent subscription hpast).append _
    · exact (h.held subscription (held_of_sent henabled hlast)).append _

end Runs

end SteamHandler.Clients
