import SteamHandler.RwLocks
import SteamHandler.Wire
import SteamHandler.Progress

/-!
# The manager at the grain of its locks

The manager system handles a command, builds a request and dispatches an event
in one step each. The program does these under the lock of `subscriptions`: it
handles a command under a write guard and, after giving that back, writes the
reverse index; it builds and dispatches subscription by subscription under a
read guard. In between other tasks run. The index has a lock of its own, which
only the manager takes and which is therefore always free when it is wanted.

Everything that is seen from outside is the same at both grains: what is
written on the connections, what the handlers of each stream are called with,
what is sent and taken on the channels, and the registry wherever nobody is
inside a critical section.
-/

namespace SteamHandler.CriticalSections

open Messages Subscriptions SubscriptionRegistry Requests Dispatch ConnectionManager ManagerRuns
open Wire Progress RwLocks TransitionSystem

variable {H : Type}

/-- The tasks that take the lock of `subscriptions`. -/
inductive Holder where
  /-- The manager task. -/
  | manager
  /-- A stream processor. -/
  | processor (generation : Generation)
  deriving DecidableEq

/-- Where the manager is inside the steps of the manager system that touch the
registry. -/
inductive Stage (H : Type) where
  /-- In none of them. -/
  | outside
  /-- `AddSubscription`, awaiting the write guard. -/
  | adding (subscription : Subscription H)
  /-- With the write guard. -/
  | inserting (subscription : Subscription H)
  /-- Awaiting the lock of the index. -/
  | indexing (subscription : Subscription H)
  /-- `RemoveSubscription`, awaiting the write guard. -/
  | removing (subId : SubscriptionId)
  /-- With the write guard. -/
  | erasing (subId : SubscriptionId)
  /-- Awaiting the lock of the index, with the client of what was removed. -/
  | unlisting (clientId : String) (subId : SubscriptionId)
  /-- `RemoveClientSubscriptions`, awaiting the lock of the index. -/
  | listing (clientId : String)
  /-- Awaiting the write guard, with `sub_ids_to_remove`. -/
  | clearing (clientId : String) (subIds : List SubscriptionId)
  /-- With the write guard, these still to be removed. -/
  | erasingEach (clientId : String) (subIds rest : List SubscriptionId)
  /-- Awaiting the lock of the index again. -/
  | unindexing (clientId : String) (subIds : List SubscriptionId)
  /-- The command is handled, and whether it asks for an update is known. -/
  | handled (command : ManagerCommand H) (flagged : Bool)
  /-- `build_subscribe_request` with the read guard: the whole order (ghost), what
  is left of it and the maps so far. -/
  | building (order rest : List (Subscription H)) (maps : RequestMaps)
  /-- The request is built in this order (ghost) and on its way. -/
  | built (order : List (Subscription H)) (request : SubscribeRequest)

namespace Stage

/-- The manager is in no critical section. -/
def isOutside : Stage H → Bool
  | .outside => true
  | _ => false

/-- The manager has the write guard. -/
def writes : Stage H → Bool
  | .inserting _ => true
  | .erasing _ => true
  | .erasingEach _ _ _ => true
  | _ => false

/-- The manager has the read guard. -/
def reads : Stage H → Bool
  | .building _ _ _ => true
  | _ => false

/-- An attempt can fail: its request is not being built. -/
def mayFail : Stage H → Bool
  | .outside => true
  | .built _ _ => true
  | _ => false

/-- A command other than the shutdown is taken off the channel. -/
def taken : ManagerCommand H → Option (Stage H)
  | .addSubscription subscription => some (.adding subscription)
  | .removeSubscription subId => some (.removing subId)
  | .removeClientSubscriptions clientId => some (.listing clientId)
  | .shutdown => none

/-- The write guard is had. -/
def begun : Stage H → Option (Stage H)
  | .adding subscription => some (.inserting subscription)
  | .removing subId => some (.erasing subId)
  | .clearing clientId subIds => some (.erasingEach clientId subIds subIds)
  | _ => none

/-- The next statement under the write guard. -/
def written (subs : SubscriptionMap H) : Stage H → Option (SubscriptionMap H × Stage H)
  | .inserting subscription => some (subs.insert subscription,.indexing subscription)
  | .erasing subId => some (subs.remove subId,
      match subs.lookup subId with
      | some removed => .unlisting removed.clientId subId
      | none => .handled (.removeSubscription subId) true)
  | .erasingEach clientId subIds (subId::rest) =>
    some (subs.remove subId,.erasingEach clientId subIds rest)
  | .erasingEach clientId subIds [] => some (subs,.unindexing clientId subIds)
  | _ => none

/-- The write to the index. -/
def indexed (registry : Registry H) :
    Stage H → Option ((Finmap fun _ : String => Finset SubscriptionId) × Stage H)
  | .indexing subscription => some (registry.clientSubscriptions.insert subscription.clientId
      (insert subscription.id (registry.idsOf subscription.clientId)),
      .handled (.addSubscription subscription) true)
  | .unlisting clientId subId => some (Registry.unlist registry.clientSubscriptions clientId subId,
      .handled (.removeSubscription subId) true)
  | .unindexing clientId subIds => some (registry.clientSubscriptions.erase clientId,
      .handled (.removeClientSubscriptions clientId) (!subIds.isEmpty))
  | _ => none

end Stage

/-- A processor inside `dispatch_event`, with the read guard. -/
structure Loop (H : Type) where
  /-- Ghost: the whole iteration. -/
  order : List (Subscription H)
  /-- What is left of it. -/
  rest : List (Subscription H)
  /-- The handler calls made so far. -/
  calls : List (HandlerCall H)

/-- The manager system with its lock. -/
structure LockedState (H : Type) where
  /-- Everything but the lock, as it is: a command in hand is off its channel, and
  the registry is written map by map. -/
  system : State H
  /-- The lock of `subscriptions`. -/
  lock : RwLock Holder
  /-- Where the manager is. -/
  stage : Stage H
  /-- The processors that are inside `dispatch_event`. -/
  loops : Generation → Option (Loop H)

/-- Nobody is inside a critical section. -/
def LockedState.quiet (system : State H) : LockedState H := ⟨system,.free,.outside,fun _ => none⟩

/-- The request made of finished maps. -/
def requestOfMaps (maps : RequestMaps) : SubscribeRequest :=
  { slots := maps.slots
    accounts := maps.accounts
    transactions := maps.transactions
    transactionsStatus := ∅
    entry := ∅
    blocks := maps.blocks
    blocksMeta := maps.blocksMeta
    commitment := some .processed
    accountsDataSlice := []
    ping := none
    fromSlot := none }

/-- The finest steps. -/
inductive LockedAction (H : Type) where
  /-- A step of the manager system that concerns neither map. -/
  | plain (action : Action H)
  /-- `connect_and_subscribe` returns an error, before or after building. -/
  | attemptFailed
  /-- `select!` takes the command branch. -/
  | takeCommand
  /-- The manager collects the identifiers of a client, in this order. -/
  | listIds (subIds : List SubscriptionId)
  /-- The manager gets the write guard. -/
  | acquire
  /-- The manager writes to `subscriptions`; after the last write the guard is
  given back. -/
  | write
  /-- The manager writes the index. -/
  | index
  /-- The manager flags an update and goes on. -/
  | finishCommand
  /-- The manager gets the read guard to build a request, and will iterate in this
  order. -/
  | startBuilding (order : List (Subscription H))
  /-- The manager applies a subscription, or has none left and gives the guard
  back. -/
  | apply
  /-- The server accepts the subscription. -/
  | subscribed
  /-- The update is sent, or refused. -/
  | updated (accepted : Bool)
  /-- A processor gets the read guard, and will iterate in this order. -/
  | startDispatch (generation : Generation) (order : List (Subscription H))
  /-- A processor calls a handler if its subscription matches; this is what the
  handler returns. -/
  | iterate (generation : Generation) (outcome : Except String Unit)
  /-- A processor has called all handlers and gives the guard back. -/
  | endDispatch (generation : Generation)

/-- The step concerns neither map. -/
def isPlain : Action H → Bool
  | .connectFailed => false
  | .connectSucceeded _ => false
  | .receiveCommand => false
  | .sendUpdate _ _ => false
  | .dispatch _ _ _ => false
  | _ => true

/-- When each step can happen. -/
def LockedEnabled (state : LockedState H) : LockedAction H → Prop
  | .plain action => isPlain action=true ∧ Enabled state.system action ∧
      (isManagerStep action=true → state.stage.isOutside=true)
  | .attemptFailed => state.system.manager.phase=.attempting ∧ state.stage.mayFail=true
  | .takeCommand => Enabled state.system .receiveCommand ∧ state.stage.isOutside=true
  | .listIds subIds =>
    match state.stage with
    | .listing clientId =>
      (subIds : Multiset SubscriptionId)=(state.system.registry.idsOf clientId).val
    | _ => False
  | .acquire => state.stage.begun.isSome=true ∧ state.lock.CanWrite
  | .write => (state.stage.written state.system.registry.subscriptions).isSome=true
  | .index => (state.stage.indexed state.system.registry).isSome=true
  | .finishCommand =>
    match state.stage with
    | .handled _ _ => True
    | _ => False
  | .startBuilding order =>
      (state.system.manager.phase=.attempting ∨ state.system.manager.phase=.updating) ∧
        state.stage.isOutside=true ∧ state.lock.CanRead ∧
        state.system.registry.subscriptions.IterationOrder order
  | .apply => state.stage.reads=true
  | .subscribed =>
    match state.stage with
    | .built _ _ => state.system.manager.phase=.attempting
    | _ => False
  | .updated _ =>
    match state.stage with
    | .built _ _ => state.system.manager.phase=.updating
    | _ => False
  | .startDispatch generation order =>
    match state.system.processors generation with
    | .dispatching _ => state.loops generation=none ∧ state.lock.CanRead ∧
        state.system.registry.subscriptions.IterationOrder order
    | _ => False
  | .iterate generation _ =>
    match state.loops generation with
    | some ⟨_,_::_,_⟩ => True
    | _ => False
  | .endDispatch generation =>
    match state.loops generation with
    | some ⟨_,[],_⟩ => True
    | _ => False

/-- The guards are decidable, so concrete runs can be replayed. -/
instance decidableLockedEnabled [DecidableEq H] (state : LockedState H) :
    ∀ action,Decidable (LockedEnabled state action)
  | .plain _ => inferInstanceAs (Decidable (_ ∧ _))
  | .attemptFailed => inferInstanceAs (Decidable (_ ∧ _))
  | .takeCommand => inferInstanceAs (Decidable (_ ∧ _))
  | .listIds _ => by
    dsimp only [LockedEnabled]
    cases state.stage <;> infer_instance
  | .acquire => inferInstanceAs (Decidable (_ ∧ _))
  | .write => inferInstanceAs (Decidable (_=_))
  | .index => inferInstanceAs (Decidable (_=_))
  | .finishCommand => by
    dsimp only [LockedEnabled]
    cases state.stage <;> infer_instance
  | .startBuilding _ => inferInstanceAs (Decidable (_ ∧ _))
  | .apply => inferInstanceAs (Decidable (_=_))
  | .subscribed => by
    dsimp only [LockedEnabled]
    cases state.stage <;> infer_instance
  | .updated _ => by
    dsimp only [LockedEnabled]
    cases state.stage <;> infer_instance
  | .startDispatch generation _ => by
    dsimp only [LockedEnabled]
    cases state.system.processors generation with
    | dispatching event =>
      have : Decidable (state.loops generation=none) :=
        decidable_of_iff (¬(state.loops generation).isSome=true) Option.not_isSome_iff_eq_none
      exact inferInstanceAs (Decidable (_ ∧ _))
    | _ => infer_instance
  | .iterate generation _ => by
    dsimp only [LockedEnabled]
    split <;> infer_instance
  | .endDispatch generation => by
    dsimp only [LockedEnabled]
    split <;> infer_instance

namespace LockedState

/-- Write `subscriptions`. -/
def setSubscriptions (state : LockedState H) (subs : SubscriptionMap H) : LockedState H :=
  { state with
    system :=
      { state.system with registry := { state.system.registry with subscriptions := subs } } }

/-- Write the index. -/
def setIndex (state : LockedState H)
    (clientSubs : Finmap fun _ : String => Finset SubscriptionId) : LockedState H :=
  { state with
    system :=
      { state.system with
        registry := { state.system.registry with clientSubscriptions := clientSubs } } }

/-- Go on to a stage, without the write guard if it is not one of writing. -/
def leaveFor (state : LockedState H) (stage : Stage H) : LockedState H :=
  { state with
    lock := if stage.writes then state.lock else state.lock.release .manager
    stage := stage }

end LockedState

/-- The handler call that the loop of `dispatch_event` makes for a subscription. -/
def tried (bs58 : Bytes → String) (event : SubscriptionEvent) (subscription : Subscription H)
    (outcome : Except String Unit) : List (HandlerCall H) :=
  if subscription.matchesEvent bs58 event then [⟨subscription,event,outcome⟩] else []

/-- What each step does. -/
def lockedNext (bs58 : Bytes → String) (state : LockedState H) : LockedAction H → LockedState H
  | .plain action => { state with system := next state.system action }
  | .attemptFailed =>
    { state with
      system :=
        { state.system with manager := state.system.manager.connectFailed state.system.clock }
      stage := .outside }
  | .takeCommand =>
    match state.system.commands with
    | command::rest =>
      let dequeued := { state.system with commands := rest }
      match Stage.taken command with
      | some stage => { state with system := dequeued, stage := stage }
      | none =>
        { state with system := { dequeued with manager := { dequeued.manager with phase := .exited } } }
    | [] => state
  | .listIds subIds =>
    match state.stage with
    | .listing clientId => { state with stage := .clearing clientId subIds }
    | _ => state
  | .acquire =>
    match state.stage.begun with
    | some stage => { state with lock := state.lock.write .manager, stage := stage }
    | none => state
  | .write =>
    match state.stage.written state.system.registry.subscriptions with
    | some (subs,stage) => (state.setSubscriptions subs).leaveFor stage
    | none => state
  | .index =>
    match state.stage.indexed state.system.registry with
    | some (clientSubs,stage) => { state.setIndex clientSubs with stage := stage }
    | none => state
  | .finishCommand =>
    match state.stage with
    | .handled command flagged =>
      { state with
        system :=
          { state.system with manager := state.system.manager.afterCommand command flagged }
        stage := .outside }
    | _ => state
  | .startBuilding order =>
    { state with lock := state.lock.read .manager, stage := .building order order .empty }
  | .apply =>
    match state.stage with
    | .building order (subscription::rest) maps =>
      { state with stage := .building order rest (applyToRequest maps subscription) }
    | .building order [] maps =>
      { state with lock := state.lock.release .manager, stage := .built order (requestOfMaps maps) }
    | _ => state
  | .subscribed =>
    match state.stage with
    | .built _ request =>
      let generation := state.system.nextGeneration
      { state with
        system :=
          { state.system with
            manager := { state.system.manager with phase := .established generation }
            processors := Function.update state.system.processors generation .reading
            nextGeneration := generation+1
            serverFilters := Function.update state.system.serverFilters generation request }
        stage := .outside }
    | _ => state
  | .updated accepted =>
    match state.stage with
    | .built _ request =>
      { state with
        system :=
          { state.system with
            manager := state.system.manager.afterUpdate accepted
            serverFilters :=
              match state.system.manager.subscribeTx with
              | some generation =>
                if accepted then Function.update state.system.serverFilters generation request
                else state.system.serverFilters
              | none => state.system.serverFilters }
        stage := .outside }
    | _ => state
  | .startDispatch generation order =>
    { state with
      lock := state.lock.read (.processor generation)
      loops := Function.update state.loops generation (some ⟨order,order,[]⟩) }
  | .iterate generation outcome =>
    match state.system.processors generation,state.loops generation with
    | .dispatching event,some ⟨order,subscription::rest,calls⟩ =>
      let made := tried bs58 event subscription outcome
      { state with loops := Function.update state.loops generation (some ⟨order,rest,calls++made⟩) }
    | _,_ => state
  | .endDispatch generation =>
    { state with
      system := state.system.setProcessor generation .reading
      lock := state.lock.release (.processor generation)
      loops := Function.update state.loops generation none }

/-- The manager with its lock as a transition system. -/
def lockedManager (bs58 : Bytes → String) : System (LockedState H) (LockedAction H) where
  initial := fun state => ∃ system,(connectionManager H).initial system ∧ state=.quiet system
  enabled := LockedEnabled
  next := lockedNext bs58

instance decidableLockedSystemEnabled [DecidableEq H] (bs58 : Bytes → String)
    (state : LockedState H) (action : LockedAction H) :
    Decidable ((lockedManager bs58).enabled state action) := decidableLockedEnabled state action

section Views

/-- The command that is off its channel while the registry is not written yet. -/
def Stage.inHand : Stage H → Option (ManagerCommand H)
  | .adding subscription => some (.addSubscription subscription)
  | .removing subId => some (.removeSubscription subId)
  | .listing clientId => some (.removeClientSubscriptions clientId)
  | .clearing clientId _ => some (.removeClientSubscriptions clientId)
  | _ => none

/-- The command whose writes have begun, and whether it will ask for an update. -/
def Stage.underWay : Stage H → Option (ManagerCommand H × Bool)
  | .inserting subscription => some (.addSubscription subscription,true)
  | .indexing subscription => some (.addSubscription subscription,true)
  | .erasing subId => some (.removeSubscription subId,true)
  | .unlisting _ subId => some (.removeSubscription subId,true)
  | .erasingEach clientId subIds _ => some (.removeClientSubscriptions clientId,!subIds.isEmpty)
  | .unindexing clientId subIds => some (.removeClientSubscriptions clientId,!subIds.isEmpty)
  | .handled command flagged => some (command,flagged)
  | _ => none

/-- The registry once the writes that have begun are all made. -/
def Stage.completed (registry : Registry H) : Stage H → Registry H
  | .inserting subscription => registry.addSubscription subscription
  | .indexing subscription =>
    { registry with
      clientSubscriptions := registry.clientSubscriptions.insert subscription.clientId
        (insert subscription.id (registry.idsOf subscription.clientId)) }
  | .erasing subId => registry.removeSubscription subId
  | .unlisting clientId subId =>
    { registry with
      clientSubscriptions := Registry.unlist registry.clientSubscriptions clientId subId }
  | .erasingEach clientId _ rest =>
    ⟨rest.foldl SubscriptionMap.remove registry.subscriptions,
      registry.clientSubscriptions.erase clientId⟩
  | .unindexing clientId _ =>
    { registry with clientSubscriptions := registry.clientSubscriptions.erase clientId }
  | _ => registry

namespace LockedState

/-- The commands that the manager has not begun to handle. -/
def unhandled (state : LockedState H) : List (ManagerCommand H) :=
  state.stage.inHand.toList++state.system.commands

/-- Those beyond the capacity of the channel: a command in hand has made room for
one more. -/
def overflow (state : LockedState H) : List (ManagerCommand H) :=
  state.unhandled.drop channelCapacity

/-- The state of the manager system: a command in hand is still queued, one whose
writes have begun is handled. A command that found room because of the one in hand
is still to be sent, and its sender still there. -/
def view (state : LockedState H) : State H :=
  { state.system with
    manager :=
      match state.stage.underWay with
      | some (command,flagged) => state.system.manager.afterCommand command flagged
      | none => state.system.manager
    registry := state.stage.completed state.system.registry
    commands := state.unhandled.take channelCapacity
    ownerAlive := state.system.ownerAlive || !state.overflow.isEmpty }

end LockedState

/-- What the handlers have returned. -/
def outcomesOf (calls : List (HandlerCall H)) (subId : SubscriptionId) : Except String Unit :=
  match calls.find? fun call => call.subscription.id=subId with
  | some call => call.outcome
  | none => .ok ()

/-- The steps of the manager system that a step amounts to. A command is handled
when the write guard is had, a dispatch is made when its guard is given back. -/
def trace (step : LockedState H × LockedAction H) : List (Action H) :=
  match step.2 with
  | .plain (.sendCommand command) =>
    if step.1.unhandled.length < channelCapacity then [.sendCommand command] else []
  | .plain .dropOwner => if step.1.overflow.isEmpty then [.dropOwner] else []
  | .plain action => [action]
  | .attemptFailed => [.connectFailed]
  | .takeCommand =>
    match step.1.system.commands with
    | .shutdown::_ => [.receiveCommand]
    | _ => []
  | .acquire =>
    .receiveCommand::(step.1.overflow.map .sendCommand++
      if step.1.system.ownerAlive || step.1.overflow.isEmpty then [] else [.dropOwner])
  | .subscribed =>
    match step.1.stage with
    | .built order _ => [.connectSucceeded order]
    | _ => []
  | .updated accepted =>
    match step.1.stage with
    | .built order _ => [.sendUpdate order accepted]
    | _ => []
  | .endDispatch generation =>
    match step.1.loops generation with
    | some loop => [.dispatch generation loop.order (outcomesOf loop.calls)]
    | none => []
  | _ => []

end Views

section Steps

variable (bs58 : Bytes → String) {state : LockedState H}

theorem eq_outside {stage : Stage H} (h : stage.isOutside=true) : stage=.outside := by
  cases stage with
  | outside => rfl
  | _ => cases h

/-- A failed attempt changes the manager's locals only. -/
theorem next_attemptFailed (state : LockedState H) :
    lockedNext bs58 state .attemptFailed=
      { state with
        system :=
          { state.system with manager := state.system.manager.connectFailed state.system.clock }
        stage := .outside } := rfl

/-- The command taken is the oldest one; a shutdown ends the task. -/
theorem next_takeCommand (henabled : LockedEnabled state .takeCommand) :
    ∃ command rest,state.system.commands=command::rest ∧
      ((command=.shutdown ∧ lockedNext bs58 state .takeCommand=
        { state with
          system :=
            { state.system with
              commands := rest
              manager := { state.system.manager with phase := .exited } } }) ∨
      ∃ stage,Stage.taken command=some stage ∧ lockedNext bs58 state .takeCommand=
        { state with system := { state.system with commands := rest }, stage := stage }) := by
  cases hcommands : state.system.commands with
  | nil => exact absurd hcommands henabled.1.2
  | cons command rest =>
    refine ⟨command,rest,rfl,?_⟩
    cases command with
    | shutdown =>
      refine Or.inl ⟨rfl,?_⟩
      simp only [lockedNext,hcommands,Stage.taken]
    | addSubscription subscription =>
      refine Or.inr ⟨_,rfl,?_⟩
      simp only [lockedNext,hcommands,Stage.taken]
    | removeSubscription subId =>
      refine Or.inr ⟨_,rfl,?_⟩
      simp only [lockedNext,hcommands,Stage.taken]
    | removeClientSubscriptions clientId =>
      refine Or.inr ⟨_,rfl,?_⟩
      simp only [lockedNext,hcommands,Stage.taken]

/-- All identifiers of the client are collected. -/
theorem next_listIds {subIds : List SubscriptionId} (henabled : LockedEnabled state (.listIds subIds)) :
    ∃ clientId,state.stage=.listing clientId ∧
      (subIds : Multiset SubscriptionId)=(state.system.registry.idsOf clientId).val ∧
      lockedNext bs58 state (.listIds subIds)={ state with stage := .clearing clientId subIds } := by
  cases hstage : state.stage with
  | listing clientId =>
    simp only [LockedEnabled,hstage] at henabled
    refine ⟨clientId,rfl,henabled,?_⟩
    simp only [lockedNext,hstage]
  | _ => simp only [LockedEnabled,hstage] at henabled

/-- The write guard is had where nobody reads. -/
theorem next_acquire (henabled : LockedEnabled state .acquire) :
    ∃ stage,state.stage.begun=some stage ∧ state.lock.CanWrite ∧
      lockedNext bs58 state .acquire=
        { state with lock := state.lock.write .manager, stage := stage } := by
  obtain ⟨hsome,hfree⟩ := henabled
  obtain ⟨stage,hstage⟩ := Option.isSome_iff_exists.mp hsome
  refine ⟨stage,hstage,hfree,?_⟩
  simp only [lockedNext,hstage]

/-- A write is the next one of the command. -/
theorem next_write (henabled : LockedEnabled state .write) :
    ∃ subs stage,state.stage.written state.system.registry.subscriptions=some (subs,stage) ∧
      lockedNext bs58 state .write=(state.setSubscriptions subs).leaveFor stage := by
  obtain ⟨⟨subs,stage⟩,hwritten⟩ := Option.isSome_iff_exists.mp henabled
  refine ⟨subs,stage,hwritten,?_⟩
  simp only [lockedNext,hwritten]

/-- The index is written last. -/
theorem next_index (henabled : LockedEnabled state .index) :
    ∃ clientSubs stage,state.stage.indexed state.system.registry=some (clientSubs,stage) ∧
      lockedNext bs58 state .index={ state.setIndex clientSubs with stage := stage } := by
  obtain ⟨⟨clientSubs,stage⟩,hindexed⟩ := Option.isSome_iff_exists.mp henabled
  refine ⟨clientSubs,stage,hindexed,?_⟩
  simp only [lockedNext,hindexed]

/-- Only a handled command is finished. -/
theorem next_finishCommand (henabled : LockedEnabled state .finishCommand) :
    ∃ command flagged,state.stage=.handled command flagged ∧
      lockedNext bs58 state .finishCommand=
        { state with
          system :=
            { state.system with manager := state.system.manager.afterCommand command flagged }
          stage := .outside } := by
  cases hstage : state.stage with
  | handled command flagged =>
    refine ⟨command,flagged,rfl,?_⟩
    simp only [lockedNext,hstage]
  | _ => simp only [LockedEnabled,hstage] at henabled

/-- A request is built subscription by subscription. -/
theorem next_apply (henabled : LockedEnabled state .apply) :
    ∃ order maps,
      (∃ subscription rest,state.stage=.building order (subscription::rest) maps ∧
        lockedNext bs58 state .apply=
          { state with stage := .building order rest (applyToRequest maps subscription) }) ∨
      state.stage=.building order [] maps ∧ lockedNext bs58 state .apply=
        { state with
          lock := state.lock.release .manager
          stage := .built order (requestOfMaps maps) } := by
  cases hstage : state.stage with
  | building order rest maps =>
    refine ⟨order,maps,?_⟩
    cases rest with
    | nil =>
      refine Or.inr ⟨rfl,?_⟩
      simp only [lockedNext,hstage]
    | cons subscription rest =>
      refine Or.inl ⟨subscription,rest,rfl,?_⟩
      simp only [lockedNext,hstage]
  | _ => simp only [LockedEnabled,hstage,Stage.reads,Bool.false_eq_true] at henabled

/-- What is subscribed with is the request built. -/
theorem next_subscribed (henabled : LockedEnabled state .subscribed) :
    ∃ order request,state.stage=.built order request ∧ state.system.manager.phase=.attempting ∧
      lockedNext bs58 state .subscribed=
        { state with
          system :=
            { state.system with
              manager :=
                { state.system.manager with phase := .established state.system.nextGeneration }
              processors := Function.update state.system.processors state.system.nextGeneration
                .reading
              nextGeneration := state.system.nextGeneration+1
              serverFilters := Function.update state.system.serverFilters
                state.system.nextGeneration request }
          stage := .outside } := by
  cases hstage : state.stage with
  | built order request =>
    simp only [LockedEnabled,hstage] at henabled
    refine ⟨order,request,rfl,henabled,?_⟩
    simp only [lockedNext,hstage]
  | _ => simp only [LockedEnabled,hstage] at henabled

/-- What is sent is the request built. -/
theorem next_updated {accepted : Bool} (henabled : LockedEnabled state (.updated accepted)) :
    ∃ order request,state.stage=.built order request ∧ state.system.manager.phase=.updating ∧
      lockedNext bs58 state (.updated accepted)=
        { state with
          system :=
            { state.system with
              manager := state.system.manager.afterUpdate accepted
              serverFilters :=
                match state.system.manager.subscribeTx with
                | some generation =>
                  if accepted then Function.update state.system.serverFilters generation request
                  else state.system.serverFilters
                | none => state.system.serverFilters }
          stage := .outside } := by
  cases hstage : state.stage with
  | built order request =>
    simp only [LockedEnabled,hstage] at henabled
    refine ⟨order,request,rfl,henabled,?_⟩
    simp only [lockedNext,hstage]
  | _ => simp only [LockedEnabled,hstage] at henabled

/-- A processor with an event in hand starts on what is registered. -/
theorem next_startDispatch {generation : Generation} {order : List (Subscription H)}
    (henabled : LockedEnabled state (.startDispatch generation order)) :
    (∃ event,state.system.processors generation=.dispatching event) ∧
      state.loops generation=none ∧ state.lock.CanRead ∧
      state.system.registry.subscriptions.IterationOrder order := by
  cases hphase : state.system.processors generation with
  | dispatching event =>
    simp only [LockedEnabled,hphase] at henabled
    exact ⟨⟨event,rfl⟩,henabled⟩
  | _ => simp only [LockedEnabled,hphase] at henabled

/-- The next subscription is tried. -/
theorem next_iterate {generation : Generation} {outcome : Except String Unit}
    (henabled : LockedEnabled state (.iterate generation outcome)) :
    ∃ order subscription rest calls,
      state.loops generation=some ⟨order,subscription::rest,calls⟩ ∧
      ∀ event,state.system.processors generation=.dispatching event →
        lockedNext bs58 state (.iterate generation outcome)=
          { state with
            loops := Function.update state.loops generation
              (some ⟨order,rest,calls++tried bs58 event subscription outcome⟩) } := by
  cases hloop : state.loops generation with
  | none => simp only [LockedEnabled,hloop] at henabled
  | some loop =>
    obtain ⟨order,rest,calls⟩ := loop
    cases rest with
    | nil => simp only [LockedEnabled,hloop] at henabled
    | cons subscription rest =>
      refine ⟨order,subscription,rest,calls,rfl,fun event hphase => ?_⟩
      simp only [lockedNext,hphase,hloop]

/-- The guard is given back when nothing is left. -/
theorem next_endDispatch {generation : Generation}
    (henabled : LockedEnabled state (.endDispatch generation)) :
    ∃ order calls,state.loops generation=some ⟨order,[],calls⟩ := by
  cases hloop : state.loops generation with
  | none => simp only [LockedEnabled,hloop] at henabled
  | some loop =>
    obtain ⟨order,rest,calls⟩ := loop
    cases rest with
    | nil => exact ⟨order,calls,rfl⟩
    | cons subscription rest => simp only [LockedEnabled,hloop] at henabled

end Steps

end SteamHandler.CriticalSections
