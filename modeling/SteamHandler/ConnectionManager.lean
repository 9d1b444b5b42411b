import SteamHandler.TransitionSystem
import SteamHandler.Backoff
import SteamHandler.Requests
import SteamHandler.Dispatch

/-!
# The connection manager and its stream processors

The system consists of the manager task, the stream processors it has spawned,
the command channel, the stream-event channel and the registry they share.
Await points of the source separate two actions, but for these: what is done
under the locks of the registry and of the failure counter is part of the
action that takes them, and the pong that answers a ping is sent in the action
that takes the ping, since nobody else sees or changes what it is made of. The
outcomes of connection attempts and sends, the items of the streams, the
choices of `select!`, iteration orders and elapsed time are carried by the
actions.

Generations are ghost labels: each successful connection gets a fresh one,
shared with the processor of its stream, and each stream event remembers the
generation of its sender. The program itself has no such label.
-/

namespace SteamHandler.ConnectionManager

open Messages Subscriptions SubscriptionRegistry Requests Dispatch Backoff TransitionSystem

variable {H : Type}

/-- Ghost label of a connection and of the processor of its stream. -/
abbrev Generation := ℕ

/-- A reading of the monotone clock. -/
abbrev Instant := ℕ

/-- Events from the stream processor. -/
inductive StreamEvent where
  | connectionClosed
  | connectionError (error : String)
  | pingReceived
  deriving DecidableEq, Repr

/-- The manager answers these events by dropping its connection. -/
def StreamEvent.isTerminal : StreamEvent → Bool
  | .connectionClosed => true
  | .connectionError _ => true
  | .pingReceived => false

/-- A queued event with the ghost label of the processor that sent it. -/
structure SentEvent where
  /-- The event itself, all that is really sent. -/
  event : StreamEvent
  /-- Ghost label of the sender. -/
  sender : Generation
  deriving DecidableEq, Repr

/-- Capacity of the command and the stream-event channel. -/
def channelCapacity : ℕ := 100

/-- Where a stream processor is in its loop. -/
inductive ProcessorPhase where
  /-- Not spawned yet. -/
  | unspawned
  /-- Awaiting the next stream item. -/
  | reading
  /-- About to dispatch, awaiting the registry's read lock. -/
  | dispatching (event : SubscriptionEvent)
  /-- Awaiting room in the stream-event channel. -/
  | sending (event : StreamEvent)
  /-- The task has returned. -/
  | terminated
  deriving DecidableEq, Repr

/-- What the processor does with a stream item. Updates without a payload,
pongs and unknown updates are only logged. -/
def ProcessorPhase.onItem : StreamItem → ProcessorPhase
  | .ok msg =>
    match msg.updateOneof with
    | some (.transaction (some txInfo)) => .dispatching (.transaction txInfo)
    | some (.transaction none) => .reading
    | some (.account (some acctInfo)) => .dispatching (.account acctInfo)
    | some (.account none) => .reading
    | some (.slot slot) => .dispatching (.slot slot)
    | some (.block block) => .dispatching (.block block)
    | some (.blockMeta blockMeta) => .dispatching (.blockMeta blockMeta)
    | some .ping => .sending .pingReceived
    | some .pong => .reading
    | some .transactionStatus => .reading
    | some .entry => .reading
    | none => .reading
  | .error status => .sending (.connectionError ("Stream error: "++status))

/-- What follows a send, successful or not: the loop after a ping, and after
its `break` the send that also ends a closed stream. -/
def ProcessorPhase.afterSend : StreamEvent → ProcessorPhase
  | .pingReceived => .reading
  | .connectionError _ => .sending .connectionClosed
  | .connectionClosed => .terminated

/-- Where the manager task is in its loop. -/
inductive ManagerPhase where
  /-- Top of `'manager_loop`. -/
  | loopHead
  /-- Circuit breaker sleep. -/
  | circuitOpen (wakeAt : Instant)
  /-- Inside `connect_and_subscribe`. -/
  | attempting
  /-- `connect_and_subscribe` has spawned the processor and returned; the new
  connection is not recorded yet. -/
  | established (generation : Generation)
  /-- Backoff sleep after a failed attempt. -/
  | backingOff (wakeAt : Instant)
  /-- Waiting in `select!`. -/
  | selecting
  /-- Sending a rebuilt request after a command. -/
  | updating
  /-- The task has returned or panicked. -/
  | exited
  deriving DecidableEq, Repr

/-- The local variables of the manager task. -/
structure Manager where
  /-- Current await point. -/
  phase : ManagerPhase
  /-- `client`, by the generation of its connection. -/
  client : Option Generation
  /-- `subscribe_tx`, by the generation of its connection. -/
  subscribeTx : Option Generation
  /-- `needs_update`. -/
  needsUpdate : Bool
  /-- `last_attempt`. -/
  lastAttempt : Option Instant
  /-- `consecutive_failures`. -/
  consecutiveFailures : UInt32
  deriving DecidableEq, Repr

namespace Manager

/-- The locals before the first iteration. -/
def start : Manager := ⟨.loopHead,none,none,true,none,0⟩

/-- Remaining circuit breaker wait, none when the attempt may start now. -/
def circuitWait (manager : Manager) (now : Instant) : Option Duration :=
  if 5 < manager.consecutiveFailures.toNat then
    match manager.lastAttempt with
    | some lastTime =>
      let elapsed := now-lastTime
      let waitTime := fromSecs (manager.consecutiveFailures.toNat*10)
      if elapsed < waitTime then some (waitTime-elapsed) else none
    | none => none
  else none

/-- Note the time and call `connect_and_subscribe`. -/
def startAttempt (manager : Manager) (now : Instant) : Manager :=
  { manager with lastAttempt := some now, phase := .attempting }

/-- Top of the loop: connect when an update is due or no client is held. -/
def enterLoop (manager : Manager) (now : Instant) : Manager :=
  if manager.needsUpdate || manager.client.isNone then
    match manager.circuitWait now with
    | some remaining => { manager with phase := .circuitOpen (now+remaining) }
    | none => manager.startAttempt now
  else { manager with phase := .selecting }

/-- What the top of the loop does. -/
theorem enterLoop_cases (manager : Manager) (now : Instant) :
    ((manager.needsUpdate || manager.client.isNone)=true ∧
      ∃ remaining,manager.circuitWait now=some remaining ∧
        manager.enterLoop now={ manager with phase := .circuitOpen (now+remaining) }) ∨
    ((manager.needsUpdate || manager.client.isNone)=true ∧ manager.circuitWait now=none ∧
      manager.enterLoop now=manager.startAttempt now) ∨
    ((manager.needsUpdate || manager.client.isNone)=false ∧
      manager.enterLoop now={ manager with phase := .selecting }) := by
  unfold enterLoop
  cases hdue : manager.needsUpdate || manager.client.isNone with
  | false => exact Or.inr (Or.inr ⟨rfl,rfl⟩)
  | true =>
    cases hwait : manager.circuitWait now with
    | some remaining => exact Or.inl ⟨rfl,remaining,rfl,rfl⟩
    | none => exact Or.inr (Or.inl ⟨rfl,rfl,rfl⟩)

/-- A sleep is over. -/
def wake (manager : Manager) (now : Instant) : Manager :=
  match manager.phase with
  | .circuitOpen _ => manager.startAttempt now
  | .backingOff _ => { manager with phase := .loopHead }
  | _ => manager

/-- Sleep as the failure branch computed, or end the task with its panic. -/
def afterFailure (manager : Manager) (now : Instant) : Option (UInt32 × Duration) → Manager
  | some (failures,sleep) =>
    { manager with
      consecutiveFailures := failures
      phase := .backingOff (now+sleep) }
  | none => { manager with phase := .exited }

/-- The failure branch of the loop. -/
def connectFailed (manager : Manager) (now : Instant) : Manager :=
  manager.afterFailure now (failureBranch manager.consecutiveFailures)

/-- A failed attempt ends in the backoff sleep or ends the task. -/
theorem connectFailed_cases (manager : Manager) (now : Instant) :
    (∃ failures sleep,manager.connectFailed now=
      { manager with
        consecutiveFailures := failures
        phase := .backingOff (now+sleep) }) ∨
    manager.connectFailed now={ manager with phase := .exited } := by
  unfold connectFailed
  cases failureBranch manager.consecutiveFailures with
  | some result => exact Or.inl ⟨result.1,result.2,rfl⟩
  | none => exact Or.inr rfl

/-- The success branch, which goes straight on to `select!`. -/
def recordConnection (manager : Manager) (generation : Generation) : Manager :=
  { manager with
    client := some generation
    subscribeTx := some generation
    needsUpdate := false
    consecutiveFailures := 0
    phase := .selecting }

/-- After a command: the shutdown command leaves the loop; otherwise a due
update is sent if there is a channel to send it on. -/
def afterCommand (manager : Manager) (command : ManagerCommand H) (flagged : Bool) : Manager :=
  match command with
  | .shutdown => { manager with phase := .exited }
  | _ =>
    let needsUpdate := manager.needsUpdate || flagged
    { manager with
      needsUpdate := needsUpdate
      phase := if needsUpdate && manager.subscribeTx.isSome then .updating else .loopHead }

/-- Drop the client and the channel, and go back to the top of the loop. -/
def disconnect (manager : Manager) : Manager :=
  { manager with client := none, subscribeTx := none, phase := .loopHead }

/-- The update was sent, or failed to be. -/
def afterUpdate (manager : Manager) (accepted : Bool) : Manager :=
  if accepted then { manager with needsUpdate := false, phase := .loopHead }
  else manager.disconnect

/-- Handle a stream event; a ping is answered on the current channel. -/
def afterEvent (manager : Manager) (event : StreamEvent) (accepted : Bool) : Manager :=
  match event with
  | .connectionClosed => manager.disconnect
  | .connectionError _ => manager.disconnect
  | .pingReceived =>
    if manager.subscribeTx.isSome && !accepted then manager.disconnect
    else { manager with phase := .loopHead }

/-- An event makes the loop drop its connection, unless it is a ping. -/
theorem afterEvent_cases (manager : Manager) (event : StreamEvent) (accepted : Bool) :
    manager.afterEvent event accepted=manager.disconnect ∨
    (event=.pingReceived ∧ manager.afterEvent event accepted={ manager with phase := .loopHead }) := by
  cases event with
  | connectionClosed => exact Or.inl rfl
  | connectionError error => exact Or.inl rfl
  | pingReceived =>
    unfold afterEvent
    cases manager.subscribeTx.isSome && !accepted with
    | true => exact Or.inl rfl
    | false => exact Or.inr ⟨rfl,rfl⟩

end Manager

/-- The whole system. -/
structure State (H : Type) where
  /-- Locals of the manager task. -/
  manager : Manager
  /-- The shared registry. -/
  registry : Registry H
  /-- The command channel, oldest first. -/
  commands : List (ManagerCommand H)
  /-- The stream-event channel, oldest first. -/
  events : List SentEvent
  /-- The stream processors. -/
  processors : Generation → ProcessorPhase
  /-- The generation of the next connection. -/
  nextGeneration : Generation
  /-- Ghost: the last request without ping accepted on each connection, which
  is the filter set the server applies to it. -/
  serverFilters : Generation → SubscribeRequest
  /-- The `ConnectionManager` value has not been dropped. -/
  ownerAlive : Bool
  /-- A shutdown broadcast is waiting to be received. -/
  shutdownSignalled : Bool
  /-- The monotone clock. -/
  clock : Instant

/-- The state in which `ConnectionManager::new` leaves the system. -/
def State.start (clock : Instant) : State H :=
  ⟨.start,.empty,[],[],fun _ => .unspawned,0,fun _ => .default,true,false,clock⟩

/-- `ConnectionManager::new`: check the inputs, then start the manager task. -/
def State.new (endpoint xToken : String) (clock : Instant) : Except String (State H) :=
  if endpoint="" then .error "Empty gRPC endpoint URL provided"
  else if xToken="" then .error "Empty authentication token provided"
  else .ok (.start clock)

/-- Everything that can happen next. -/
inductive Action (H : Type) where
  /-- Time passes. -/
  | tick (elapsed : Duration)
  /-- A client's `command_tx.send` completes. -/
  | sendCommand (command : ManagerCommand H)
  /-- `shutdown_tx.send`. -/
  | signalShutdown
  /-- The `ConnectionManager` value is dropped. -/
  | dropOwner
  /-- The manager passes the top of its loop. -/
  | enterLoop
  /-- A sleep of the manager ends. -/
  | wake
  /-- `connect_and_subscribe` returns an error. -/
  | connectFailed
  /-- `connect_and_subscribe` subscribes with a request built in this order
  and spawns the stream processor. -/
  | connectSucceeded (order : List (Subscription H))
  /-- The manager records the new connection. -/
  | recordConnection
  /-- `select!` takes the command branch. -/
  | receiveCommand
  /-- The update built in this order is sent, or refused. -/
  | sendUpdate (order : List (Subscription H)) (accepted : Bool)
  /-- `select!` takes the event branch; a pong is sent, or refused. -/
  | receiveEvent (accepted : Bool)
  /-- `select!` takes the shutdown branch. -/
  | receiveShutdown
  /-- `select!` takes the `else` branch. -/
  | allChannelsClosed
  /-- A processor takes an item off its stream. -/
  | receiveItem (generation : Generation) (item : StreamItem)
  /-- The stream of a processor ends. -/
  | endOfStream (generation : Generation)
  /-- A processor dispatches in this order, with these handler results. -/
  | dispatch (generation : Generation) (order : List (Subscription H))
      (outcome : SubscriptionId → Except String Unit)
  /-- A processor's send to the stream-event channel completes. -/
  | sendEvent (generation : Generation)

/-- Senders of the stream-event channel: the owner's, the clone captured by the
manager task, and those of live processors. -/
def State.streamEventSenders (state : State H) : ℕ :=
  (if state.ownerAlive then 1 else 0)+1+
    ((List.range state.nextGeneration).filter fun generation =>
      state.processors generation≠.terminated).length

/-- A processor moves on. -/
def State.setProcessor (state : State H) (generation : Generation) (phase : ProcessorPhase) :
    State H :=
  { state with processors := Function.update state.processors generation phase }

/-- When each action can happen. -/
def Enabled (state : State H) : Action H → Prop
  | .tick _ => True
  | .sendCommand _ => state.ownerAlive=true ∧ state.manager.phase≠.exited ∧
      state.commands.length < channelCapacity
  | .signalShutdown => state.ownerAlive=true
  | .dropOwner => state.ownerAlive=true
  | .enterLoop => state.manager.phase=.loopHead
  | .wake =>
    match state.manager.phase with
    | .circuitOpen wakeAt => wakeAt ≤ state.clock
    | .backingOff wakeAt => wakeAt ≤ state.clock
    | _ => False
  | .connectFailed => state.manager.phase=.attempting
  | .connectSucceeded order => state.manager.phase=.attempting ∧
      state.registry.subscriptions.IterationOrder order
  | .recordConnection =>
    match state.manager.phase with
    | .established _ => True
    | _ => False
  | .receiveCommand => state.manager.phase=.selecting ∧ state.commands≠[]
  | .sendUpdate order _ => state.manager.phase=.updating ∧
      state.registry.subscriptions.IterationOrder order
  | .receiveEvent _ => state.manager.phase=.selecting ∧ state.events≠[]
  | .receiveShutdown => state.manager.phase=.selecting ∧ state.shutdownSignalled=true
  | .allChannelsClosed => state.manager.phase=.selecting ∧ state.commands=[] ∧ state.events=[] ∧
      state.ownerAlive=false ∧ state.shutdownSignalled=false ∧ state.streamEventSenders=0
  | .receiveItem generation _ => state.processors generation=.reading
  | .endOfStream generation => state.processors generation=.reading
  | .dispatch generation order _ =>
    match state.processors generation with
    | .dispatching _ => state.registry.subscriptions.IterationOrder order
    | _ => False
  | .sendEvent generation =>
    match state.processors generation with
    | .sending _ => state.manager.phase=.exited ∨ state.events.length < channelCapacity
    | _ => False

/-- The guards are decidable, so concrete runs can be replayed. -/
instance decidableEnabled [DecidableEq H] (state : State H) :
    ∀ action,Decidable (Enabled state action)
  | .tick _ => inferInstanceAs (Decidable True)
  | .sendCommand _ => inferInstanceAs (Decidable (_ ∧ _))
  | .signalShutdown => inferInstanceAs (Decidable (_=_))
  | .dropOwner => inferInstanceAs (Decidable (_=_))
  | .enterLoop => inferInstanceAs (Decidable (_=_))
  | .wake => by
    dsimp only [Enabled]
    cases state.manager.phase <;> infer_instance
  | .connectFailed => inferInstanceAs (Decidable (_=_))
  | .connectSucceeded _ => inferInstanceAs (Decidable (_ ∧ _))
  | .recordConnection => by
    dsimp only [Enabled]
    cases state.manager.phase <;> infer_instance
  | .receiveCommand => inferInstanceAs (Decidable (_ ∧ _))
  | .sendUpdate _ _ => inferInstanceAs (Decidable (_ ∧ _))
  | .receiveEvent _ => inferInstanceAs (Decidable (_ ∧ _))
  | .receiveShutdown => inferInstanceAs (Decidable (_ ∧ _))
  | .allChannelsClosed => inferInstanceAs (Decidable (_ ∧ _))
  | .receiveItem _ _ => inferInstanceAs (Decidable (_=_))
  | .endOfStream _ => inferInstanceAs (Decidable (_=_))
  | .dispatch generation _ _ => by
    dsimp only [Enabled]
    cases state.processors generation <;> infer_instance
  | .sendEvent generation => by
    dsimp only [Enabled]
    cases state.processors generation <;> infer_instance

/-- What each action does. -/
def next (state : State H) : Action H → State H
  | .tick elapsed => { state with clock := state.clock+elapsed }
  | .sendCommand command => { state with commands := state.commands++[command] }
  | .signalShutdown => { state with shutdownSignalled := true }
  | .dropOwner => { state with ownerAlive := false }
  | .enterLoop => { state with manager := state.manager.enterLoop state.clock }
  | .wake => { state with manager := state.manager.wake state.clock }
  | .connectFailed => { state with manager := state.manager.connectFailed state.clock }
  | .connectSucceeded order =>
    { state with
      manager := { state.manager with phase := .established state.nextGeneration }
      processors := Function.update state.processors state.nextGeneration .reading
      nextGeneration := state.nextGeneration+1
      serverFilters := Function.update state.serverFilters state.nextGeneration
        (buildSubscribeRequest order) }
  | .recordConnection =>
    match state.manager.phase with
    | .established generation =>
      { state with manager := state.manager.recordConnection generation }
    | _ => state
  | .receiveCommand =>
    match state.commands with
    | command::rest =>
      let handled := state.registry.handle command
      { state with
        commands := rest
        registry := handled.1
        manager := state.manager.afterCommand command handled.2 }
    | [] => state
  | .sendUpdate order accepted =>
    { state with
      manager := state.manager.afterUpdate accepted
      serverFilters :=
        match state.manager.subscribeTx with
        | some generation =>
          if accepted then Function.update state.serverFilters generation
            (buildSubscribeRequest order)
          else state.serverFilters
        | none => state.serverFilters }
  | .receiveEvent accepted =>
    match state.events with
    | sent::rest =>
      { state with events := rest, manager := state.manager.afterEvent sent.event accepted }
    | [] => state
  | .receiveShutdown =>
    { state with
      shutdownSignalled := false
      manager := { state.manager with phase := .exited } }
  | .allChannelsClosed => { state with manager := { state.manager with phase := .exited } }
  | .receiveItem generation item => state.setProcessor generation (.onItem item)
  | .endOfStream generation => state.setProcessor generation (.sending .connectionClosed)
  | .dispatch generation _ _ => state.setProcessor generation .reading
  | .sendEvent generation =>
    match state.processors generation with
    | .sending event =>
      -- Once the manager task is gone its receiver is too, and the send fails.
      { state.setProcessor generation (.afterSend event) with
        events :=
          if state.manager.phase=.exited then state.events
          else state.events++[⟨event,generation⟩] }
    | _ => state

/-- A failed attempt changes the manager's locals only. Stated, because a defeq
check through the projections would evaluate the failure branch. -/
theorem next_connectFailed (state : State H) :
    next state .connectFailed=
      { state with manager := state.manager.connectFailed state.clock } := rfl

/-- A task that waits has not ended. -/
theorem running_of_selecting {state : State H} (hphase : state.manager.phase=.selecting) :
    state.manager.phase≠.exited := by
  rw [hphase]
  exact ManagerPhase.noConfusion

/-- Only a sleep that is over ends. -/
theorem sleeping_of_wake {state : State H} (henabled : Enabled state .wake) :
    ∃ wakeAt,wakeAt ≤ state.clock ∧
      (state.manager.phase=.circuitOpen wakeAt ∨ state.manager.phase=.backingOff wakeAt) := by
  cases hphase : state.manager.phase with
  | circuitOpen wakeAt =>
    simp only [Enabled,hphase] at henabled
    exact ⟨wakeAt,henabled,Or.inl rfl⟩
  | backingOff wakeAt =>
    simp only [Enabled,hphase] at henabled
    exact ⟨wakeAt,henabled,Or.inr rfl⟩
  | _ => simp only [Enabled,hphase] at henabled

/-- Only an event in hand is dispatched, to all that is registered. -/
theorem dispatching_of_dispatch {state : State H} {generation : Generation}
    {order : List (Subscription H)} {outcome : SubscriptionId → Except String Unit}
    (henabled : Enabled state (.dispatch generation order outcome)) :
    ∃ event,state.processors generation=.dispatching event ∧
      state.registry.subscriptions.IterationOrder order := by
  cases hphase : state.processors generation with
  | dispatching event =>
    simp only [Enabled,hphase] at henabled
    exact ⟨event,rfl,henabled⟩
  | _ => simp only [Enabled,hphase] at henabled

/-- The connection recorded is the one just established. -/
theorem next_recordConnection {state : State H} (henabled : Enabled state .recordConnection) :
    ∃ generation,state.manager.phase=.established generation ∧
      next state .recordConnection=
        { state with manager := state.manager.recordConnection generation } := by
  cases hphase : state.manager.phase with
  | established generation =>
    refine ⟨generation,rfl,?_⟩
    simp only [next,hphase]
  | _ => simp only [Enabled,hphase] at henabled

/-- The command handled is the oldest one queued. -/
theorem next_receiveCommand {state : State H} (henabled : Enabled state .receiveCommand) :
    ∃ command rest,state.commands=command::rest ∧
      next state .receiveCommand=
        { state with
          commands := rest
          registry := (state.registry.handle command).1
          manager := state.manager.afterCommand command (state.registry.handle command).2 } := by
  cases hcommands : state.commands with
  | nil => exact absurd hcommands henabled.2
  | cons command rest =>
    refine ⟨command,rest,rfl,?_⟩
    simp only [next,hcommands]

/-- The event handled is the oldest one queued. -/
theorem next_receiveEvent {state : State H} {accepted : Bool}
    (henabled : Enabled state (.receiveEvent accepted)) :
    ∃ sent rest,state.events=sent::rest ∧
      next state (.receiveEvent accepted)=
        { state with
          events := rest
          manager := state.manager.afterEvent sent.event accepted } := by
  cases hevents : state.events with
  | nil => exact absurd hevents henabled.2
  | cons sent rest =>
    refine ⟨sent,rest,rfl,?_⟩
    simp only [next,hevents]

/-- The event sent is the one the processor was about to send. -/
theorem next_sendEvent {state : State H} {generation : Generation}
    (henabled : Enabled state (.sendEvent generation)) :
    ∃ event,state.processors generation=.sending event ∧
      next state (.sendEvent generation)=
        { state.setProcessor generation (.afterSend event) with
          events :=
            if state.manager.phase=.exited then state.events
            else state.events++[⟨event,generation⟩] } := by
  cases hphase : state.processors generation with
  | sending event =>
    refine ⟨event,rfl,?_⟩
    simp only [next,hphase]
  | _ => simp only [Enabled,hphase] at henabled

/-- The processor an action moves, and where to. -/
def movedBy (state : State H) : Action H → Option (Generation × ProcessorPhase)
  | .connectSucceeded _ => some (state.nextGeneration,.reading)
  | .receiveItem generation item => some (generation,.onItem item)
  | .endOfStream generation => some (generation,.sending .connectionClosed)
  | .dispatch generation _ _ => some (generation,.reading)
  | .sendEvent generation =>
    match state.processors generation with
    | .sending event => some (generation,.afterSend event)
    | _ => none
  | _ => none

/-- A step moves at most one processor. -/
theorem processors_next {state : State H} {action : Action H} (henabled : Enabled state action) :
    (next state action).processors=
      match movedBy state action with
      | some (generation,phase) => Function.update state.processors generation phase
      | none => state.processors := by
  cases action with
  | recordConnection =>
    obtain ⟨_,_,hnext⟩ := next_recordConnection henabled
    rw [hnext]
    rfl
  | receiveCommand =>
    obtain ⟨_,_,_,hnext⟩ := next_receiveCommand henabled
    rw [hnext]
    rfl
  | receiveEvent accepted =>
    obtain ⟨_,_,_,hnext⟩ := next_receiveEvent henabled
    rw [hnext]
    rfl
  | sendEvent generation =>
    obtain ⟨_,hphase,hnext⟩ := next_sendEvent henabled
    rw [hnext]
    simp only [movedBy,hphase]
    rfl
  | _ => rfl

/-- A processor that a step does not move stays where it is. -/
theorem processor_unmoved {state : State H} {action : Action H} (henabled : Enabled state action)
    {generation : Generation} (hother : ∀ phase,movedBy state action≠some (generation,phase)) :
    (next state action).processors generation=state.processors generation := by
  rw [processors_next henabled]
  cases hmoved : movedBy state action with
  | none => rfl
  | some moved =>
    refine Function.update_of_ne (fun hsame => hother moved.2 ?_) _ _
    rw [hmoved,hsame]

/-- A processor that a step moves is where the step puts it. -/
theorem processor_moved {state : State H} {action : Action H} (henabled : Enabled state action)
    {generation : Generation} {phase : ProcessorPhase}
    (hmoved : movedBy state action=some (generation,phase)) :
    (next state action).processors generation=phase := by
  rw [processors_next henabled,hmoved]
  exact Function.update_self _ _ _

/-- Whether the `ConnectionManager` value is alive after an action. -/
def ownerAfter (ownerAlive : Bool) : Action H → Bool
  | .dropOwner => false
  | _ => ownerAlive

/-- Whether a shutdown signal waits after an action. -/
def signalAfter (shutdownSignalled : Bool) : Action H → Bool
  | .signalShutdown => true
  | .receiveShutdown => false
  | _ => shutdownSignalled

/-- The commands queued after an action. -/
def commandsAfter (commands : List (ManagerCommand H)) : Action H → List (ManagerCommand H)
  | .sendCommand command => commands++[command]
  | .receiveCommand => commands.tail
  | _ => commands

/-- What a step does to the owner, the signal and the command queue. -/
theorem callers_next {state : State H} {action : Action H} (henabled : Enabled state action) :
    (next state action).ownerAlive=ownerAfter state.ownerAlive action ∧
      (next state action).shutdownSignalled=signalAfter state.shutdownSignalled action ∧
      (next state action).commands=commandsAfter state.commands action := by
  cases action with
  | connectFailed =>
    rw [next_connectFailed]
    exact ⟨rfl,rfl,rfl⟩
  | recordConnection =>
    obtain ⟨_,_,hnext⟩ := next_recordConnection henabled
    rw [hnext]
    exact ⟨rfl,rfl,rfl⟩
  | receiveCommand =>
    obtain ⟨_,_,hcommands,hnext⟩ := next_receiveCommand henabled
    rw [hnext,hcommands]
    exact ⟨rfl,rfl,rfl⟩
  | receiveEvent accepted =>
    obtain ⟨_,_,_,hnext⟩ := next_receiveEvent henabled
    rw [hnext]
    exact ⟨rfl,rfl,rfl⟩
  | sendEvent generation =>
    obtain ⟨_,_,hnext⟩ := next_sendEvent henabled
    rw [hnext]
    exact ⟨rfl,rfl,rfl⟩
  | _ => exact ⟨rfl,rfl,rfl⟩

/-- Handler calls an action makes; only a dispatch makes any. -/
def handlerCalls (bs58 : Bytes → String) (state : State H) : Action H → List (HandlerCall H)
  | .dispatch generation order outcome =>
    match state.processors generation with
    | .dispatching event => dispatchEvent bs58 outcome event order
    | _ => []
  | _ => []

/-- The connection manager as a transition system. -/
def connectionManager (H : Type) : System (State H) (Action H) where
  initial := fun state => ∃ endpoint xToken clock,State.new endpoint xToken clock=.ok state
  enabled := Enabled
  next := next

/-- A manager that could be created starts in the start state. -/
theorem initial_iff {state : State H} :
    (connectionManager H).initial state ↔ ∃ clock,state=.start clock := by
  constructor
  · intro ⟨endpoint,xToken,clock,hnew⟩
    unfold State.new at hnew
    split at hnew
    · cases hnew
    · split at hnew
      · cases hnew
      · exact ⟨clock,(Except.ok.inj hnew).symm⟩
  · intro ⟨clock,hstart⟩
    rw [hstart]
    exact ⟨"e","t",clock,rfl⟩

instance decidableSystemEnabled [DecidableEq H] (state : State H) (action : Action H) :
    Decidable ((connectionManager H).enabled state action) := decidableEnabled state action

/-- The manager task is running and holds the connection of the generation. -/
def Holds (state : State H) (generation : Generation) : Prop :=
  state.manager.phase≠.exited ∧ state.manager.client=some generation

end SteamHandler.ConnectionManager
