import SteamHandler.ManagerRuns
import SteamHandler.Delivery
import SteamHandler.Recording

/-!
# From the items of a stream to handler calls

A processor takes items off its stream, dispatches those that carry a payload
to whatever is registered by then, and reports pings and the end to the
manager. A run is read as three logs of one processor: the items it took, the
events it dispatched with the calls they caused, and the events it sent. The
logs agree at every moment up to the one item in hand.
-/

namespace SteamHandler.StreamDispatch

open Messages Subscriptions SubscriptionRegistry Dispatch ConnectionManager ManagerRuns
open Delivery (InReadLoop)
open Recording (beforeFirstError)
open TransitionSystem

variable {H : Type}

/-- The event an item carries, if it carries one. -/
def payloadOf : StreamItem → Option SubscriptionEvent
  | .ok ⟨some (.transaction (some txInfo))⟩ => some (.transaction txInfo)
  | .ok ⟨some (.account (some accountInfo))⟩ => some (.account accountInfo)
  | .ok ⟨some (.slot slot)⟩ => some (.slot slot)
  | .ok ⟨some (.block block)⟩ => some (.block block)
  | .ok ⟨some (.blockMeta blockMeta)⟩ => some (.blockMeta blockMeta)
  | _ => none

/-- The item is a ping. -/
def isPing : StreamItem → Bool
  | .ok ⟨some .ping⟩ => true
  | _ => false

/-- One event dispatched by a processor. -/
structure Dispatched (H : Type) where
  /-- The event. -/
  event : SubscriptionEvent
  /-- What was registered at that moment. -/
  registered : SubscriptionMap H
  /-- The handler calls made. -/
  calls : List (HandlerCall H)

section Logs

variable (bs58 : Bytes → String) (generation : Generation)

/-- The item an action takes off the stream of the processor. -/
def takenBy (action : Action H) : Option StreamItem :=
  match action with
  | .receiveItem other item => if other=generation then some item else none
  | _ => none

/-- The items taken in a run. -/
def itemsTaken (actions : List (Action H)) : List StreamItem :=
  actions.filterMap (takenBy generation)

/-- What a step of the processor dispatches. -/
def dispatchOf (step : State H × Action H) : Option (Dispatched H) :=
  match step.2 with
  | .dispatch other order outcome =>
    if other=generation then
      match step.1.processors generation with
      | .dispatching event => some ⟨event,step.1.registry.subscriptions,
          handlerCalls bs58 step.1 (.dispatch generation order outcome)⟩
      | _ => none
    else none
  | _ => none

/-- The events dispatched in a run. -/
def dispatches (start : State H) (actions : List (Action H)) : List (Dispatched H) :=
  ((connectionManager H).steps start actions).filterMap (dispatchOf bs58 generation)

/-- The event a step of the processor sends to the manager. -/
def sendOf (step : State H × Action H) : Option StreamEvent :=
  match step.2 with
  | .sendEvent other =>
    if other=generation then
      match step.1.processors generation with
      | .sending event => some event
      | _ => none
    else none
  | _ => none

/-- The events sent in a run. -/
def eventsSent (start : State H) (actions : List (Action H)) : List StreamEvent :=
  ((connectionManager H).steps start actions).filterMap (sendOf generation)

theorem itemsTaken_snoc (history : List (Action H)) (action : Action H) :
    itemsTaken generation (history++[action])=
      itemsTaken generation history++(takenBy generation action).toList := by
  rw [itemsTaken,List.filterMap_append]
  rfl

theorem dispatches_snoc (start : State H) (history : List (Action H)) (action : Action H) :
    dispatches bs58 generation start (history++[action])=
      dispatches bs58 generation start history++
        (dispatchOf bs58 generation ((connectionManager H).final start history,action)).toList := by
  rw [dispatches,steps_snoc,List.filterMap_append]
  rfl

theorem eventsSent_snoc (start : State H) (history : List (Action H)) (action : Action H) :
    eventsSent generation start (history++[action])=
      eventsSent generation start history++
        (sendOf generation ((connectionManager H).final start history,action)).toList := by
  rw [eventsSent,steps_snoc,List.filterMap_append]
  rfl

end Logs

/-- The event that awaits the registry's lock. -/
def awaitingEvents : ProcessorPhase → List SubscriptionEvent
  | .dispatching event => [event]
  | _ => []

/-- The ping that awaits room in the stream-event channel. -/
def awaitingPings : ProcessorPhase → ℕ
  | .sending .pingReceived => 1
  | _ => 0

/-- The processor may still take items. -/
def MayTake (phase : ProcessorPhase) : Prop := phase=.unspawned ∨ InReadLoop phase

theorem awaitingEvents_onItem (item : StreamItem) :
    awaitingEvents (.onItem item)=(payloadOf item).toList := by
  cases item with
  | error status => rfl
  | ok msg =>
    obtain ⟨update⟩ := msg
    cases update with
    | none => rfl
    | some update =>
      cases update with
      | transaction txInfo => cases txInfo <;> rfl
      | account accountInfo => cases accountInfo <;> rfl
      | _ => rfl

theorem awaitingPings_onItem (item : StreamItem) :
    awaitingPings (.onItem item)=if isPing item=true then 1 else 0 := by
  cases item with
  | error status => rfl
  | ok msg =>
    obtain ⟨update⟩ := msg
    cases update with
    | none => rfl
    | some update =>
      cases update with
      | transaction txInfo => cases txInfo <;> rfl
      | account accountInfo => cases accountInfo <;> rfl
      | _ => rfl

/-- Only an item that is not an error leaves the processor in its loop. -/
theorem isOk_of_mayTake {item : StreamItem} (h : MayTake (.onItem item)) : item.isOk=true := by
  cases item with
  | ok msg => rfl
  | error status =>
    rcases h with hunspawned|hloop
    · cases hunspawned
    · cases hloop

/-- After items without an error, one more counts unless it is an error. -/
theorem beforeFirstError_snoc {items : List StreamItem} (hok : ∀ item∈items,item.isOk=true)
    (item : StreamItem) :
    beforeFirstError (items++[item])=items++if item.isOk=true then [item] else [] := by
  rw [beforeFirstError,List.takeWhile_append_of_pos hok,List.takeWhile_cons]
  rfl

theorem beforeFirstError_eq {items : List StreamItem} (hok : ∀ item∈items,item.isOk=true) :
    beforeFirstError items=items :=
  List.takeWhile_eq_self_iff.mpr hok

/-- The three logs of a processor, up to the item in hand. -/
structure Accounted (bs58 : Bytes → String) (generation : Generation) (start : State H)
    (history : List (Action H)) (phase : ProcessorPhase) : Prop where
  /-- Events dispatched or in hand are those carried by the items taken. -/
  events : (dispatches bs58 generation start history).map Dispatched.event++awaitingEvents phase=
    (beforeFirstError (itemsTaken generation history)).filterMap payloadOf
  /-- Pings reported or in hand are those taken. -/
  pings : (eventsSent generation start history).count .pingReceived+awaitingPings phase=
    (beforeFirstError (itemsTaken generation history)).countP isPing
  /-- A processor that may still take items has taken no error. -/
  unbroken : MayTake phase → ∀ item∈itemsTaken generation history,item.isOk=true

variable {bs58 : Bytes → String} {generation : Generation} {start : State H}
variable {history : List (Action H)} {action : Action H} {phase : ProcessorPhase}

/-- A step that takes no item moves the processor on with what it dispatches
and sends. -/
theorem Accounted.move (h : Accounted bs58 generation start history phase)
    {after : ProcessorPhase} (htaken : takenBy generation action=none)
    (hevents : ((dispatchOf bs58 generation
        ((connectionManager H).final start history,action)).toList.map Dispatched.event)++
      awaitingEvents after=awaitingEvents phase)
    (hpings : (sendOf generation
        ((connectionManager H).final start history,action)).toList.count .pingReceived+
      awaitingPings after=awaitingPings phase)
    (hmayTake : MayTake after → MayTake phase) :
    Accounted bs58 generation start (history++[action]) after := by
  have hitems : itemsTaken generation (history++[action])=itemsTaken generation history := by
    rw [itemsTaken_snoc,htaken,Option.toList_none,List.append_nil]
  constructor
  · rw [hitems,dispatches_snoc,List.map_append,List.append_assoc,hevents]
    exact h.events
  · have hpast := h.pings
    rw [hitems,eventsSent_snoc,List.count_append]
    omega
  · rw [hitems]
    exact fun hread => h.unbroken (hmayTake hread)

/-- The processor takes an item, which is in hand from then on. -/
theorem Accounted.take (h : Accounted bs58 generation start history .reading)
    (item : StreamItem) :
    Accounted bs58 generation start (history++[.receiveItem generation item])
      (.onItem item) := by
  have hok := h.unbroken (Or.inr trivial)
  have htaken : itemsTaken generation (history++[.receiveItem generation item])=
      itemsTaken generation history++[item] := by
    rw [itemsTaken_snoc,takenBy,if_pos rfl,Option.toList_some]
  have hnothing : dispatches bs58 generation start (history++[.receiveItem generation item])=
      dispatches bs58 generation start history := by
    rw [dispatches_snoc]
    exact List.append_nil _
  have hsilent : eventsSent generation start (history++[.receiveItem generation item])=
      eventsSent generation start history := by
    rw [eventsSent_snoc]
    exact List.append_nil _
  have hpastEvents := h.events
  have hpastPings := h.pings
  rw [beforeFirstError_eq hok] at hpastEvents hpastPings
  change _++[]=_ at hpastEvents
  change _+0=_ at hpastPings
  rw [List.append_nil] at hpastEvents
  constructor
  · rw [htaken,hnothing,beforeFirstError_snoc hok,List.filterMap_append,←hpastEvents,
      awaitingEvents_onItem]
    cases item with
    | error status => rfl
    | ok msg =>
      change _++(payloadOf (.ok msg)).toList=_++[.ok msg].filterMap payloadOf
      cases hpayload : payloadOf (.ok msg) <;>
        simp only [List.filterMap_cons,hpayload,List.filterMap_nil,Option.toList_none,
          Option.toList_some]
  · rw [htaken,hsilent,beforeFirstError_snoc hok,List.countP_append,awaitingPings_onItem,
      ←hpastPings,Nat.add_zero]
    cases item with
    | error status => rfl
    | ok msg =>
      change _+(if isPing (.ok msg)=true then 1 else 0)=_+[.ok msg].countP isPing
      rw [List.countP_singleton]
  · intro hread earlier hearlier
    rw [htaken] at hearlier
    rcases List.mem_append.mp hearlier with hpast|hlast
    · exact hok earlier hpast
    · rw [List.mem_singleton.mp hlast]
      exact isOk_of_mayTake hread

section Steps

variable {state : State H} (hstate : (connectionManager H).final start history=state)
include hstate

/-- A step that concerns other processors, or none, changes no log. -/
theorem Accounted.unmoved (h : Accounted bs58 generation start history (state.processors generation))
    (henabled : Enabled state action)
    (hother : ∀ phase,movedBy state action≠some (generation,phase))
    (htaken : takenBy generation action=none)
    (hdispatch : dispatchOf bs58 generation (state,action)=none)
    (hsend : sendOf generation (state,action)=none) :
    Accounted bs58 generation start (history++[action])
      ((next state action).processors generation) := by
  rw [processor_unmoved henabled hother]
  refine h.move htaken ?_ ?_ id
  · rw [hstate,hdispatch]
    exact List.nil_append _
  · rw [hstate,hsend]
    exact Nat.zero_add _

/-- The processor dispatches the event in hand. -/
theorem Accounted.dispatch (h : Accounted bs58 generation start history (state.processors generation))
    {order : List (Subscription H)} {outcome : SubscriptionId → Except String Unit}
    (henabled : Enabled state (.dispatch generation order outcome)) :
    Accounted bs58 generation start (history++[.dispatch generation order outcome])
      ((next state (.dispatch generation order outcome)).processors generation) := by
  have hmovedBy : movedBy state (.dispatch generation order outcome)=
      some (generation,.reading) := rfl
  rw [processor_moved henabled hmovedBy]
  obtain ⟨event,hphase,_⟩ := dispatching_of_dispatch henabled
  rw [hphase] at h
  refine h.move rfl ?_ ?_ fun _ => Or.inr trivial
  · simp only [hstate,dispatchOf,hphase,if_true]
    rfl
  · rfl

/-- The processor sends the event in hand. -/
theorem Accounted.send (h : Accounted bs58 generation start history (state.processors generation))
    (henabled : Enabled state (.sendEvent generation)) :
    Accounted bs58 generation start (history++[.sendEvent generation])
      ((next state (.sendEvent generation)).processors generation) := by
  obtain ⟨event,hphase,_⟩ := next_sendEvent henabled
  have hmovedBy : movedBy state (.sendEvent generation)=
      some (generation,.afterSend event) := by
    simp only [movedBy,hphase]
  rw [hphase] at h
  rw [processor_moved henabled hmovedBy]
  have hsent : sendOf generation (state,.sendEvent generation)=some event := by
    simp only [sendOf,hphase,if_true]
  refine h.move rfl ?_ ?_ fun hread => ?_
  · cases event <;> rfl
  · rw [hstate,hsent]
    cases event <;> rfl
  · cases event with
    | pingReceived => exact Or.inr rfl
    | connectionError error =>
      rcases hread with hunspawned|hloop
      · cases hunspawned
      · cases hloop
    | connectionClosed =>
      rcases hread with hunspawned|hloop
      · cases hunspawned
      · cases hloop

/-- Every step keeps the logs accounted for. -/
theorem Accounted.step (hreach : (connectionManager H).Reachable state)
    (h : Accounted bs58 generation start history (state.processors generation))
    (henabled : Enabled state action) :
    Accounted bs58 generation start (history++[action])
      ((next state action).processors generation) := by
  have hother : ∀ {other : Generation} {phase : ProcessorPhase},other≠generation →
      ∀ after,some (other,phase)≠some (generation,after) :=
    fun hne after hsame => hne (congrArg Prod.fst (Option.some.inj hsame))
  cases action with
  | receiveItem other item =>
    rcases eq_or_ne other generation with rfl|hne
    · have hmovedBy : movedBy state (.receiveItem other item)=some (other,.onItem item) := rfl
      have hreading : state.processors other=.reading := henabled
      rw [hreading] at h
      rw [processor_moved henabled hmovedBy]
      exact h.take item
    · refine h.unmoved hstate henabled (hother hne) ?_ rfl rfl
      rw [takenBy,if_neg hne]
  | endOfStream other =>
    rcases eq_or_ne other generation with rfl|hne
    · have hmovedBy : movedBy state (.endOfStream other)=
          some (other,.sending .connectionClosed) := rfl
      have hreading : state.processors other=.reading := henabled
      rw [hreading] at h
      rw [processor_moved henabled hmovedBy]
      exact h.move rfl rfl rfl fun _ => Or.inr trivial
    · exact h.unmoved hstate henabled (hother hne) rfl rfl rfl
  | dispatch other order outcome =>
    rcases eq_or_ne other generation with rfl|hne
    · exact h.dispatch hstate henabled
    · refine h.unmoved hstate henabled (hother hne) rfl ?_ rfl
      exact if_neg hne
  | sendEvent other =>
    rcases eq_or_ne other generation with rfl|hne
    · exact h.send hstate henabled
    · refine h.unmoved hstate henabled ?_ rfl rfl ?_
      · obtain ⟨event,hphase,_⟩ := next_sendEvent henabled
        simp only [movedBy,hphase]
        exact hother hne
      · exact if_neg hne
  | connectSucceeded order =>
    rcases eq_or_ne state.nextGeneration generation with hfresh|hne
    · have hmovedBy : movedBy state (.connectSucceeded order)=some (generation,.reading) := by
        rw [←hfresh]
        rfl
      have hunspawned : state.processors generation=.unspawned :=
        Sessions.unspawned_of_nextGeneration_le hreach (Nat.le_of_eq hfresh)
      rw [hunspawned] at h
      rw [processor_moved henabled hmovedBy]
      exact h.move rfl rfl rfl fun _ => Or.inl rfl
    · exact h.unmoved hstate henabled (hother hne) rfl rfl rfl
  | _ => exact h.unmoved hstate henabled (fun phase => (Option.some_ne_none _).symm) rfl rfl rfl

end Steps

/-- In every run the logs are accounted for up to the item in hand. -/
theorem accounted_of_run (bs58 : Bytes → String) (generation : Generation) {start : State H}
    {actions : List (Action H)} (hinit : (connectionManager H).initial start)
    (hrun : (connectionManager H).Legal start actions) :
    Accounted bs58 generation start actions
      (((connectionManager H).final start actions).processors generation) := by
  refine System.Legal.run_induction (P := fun actions => Accounted bs58 generation start actions
    (((connectionManager H).final start actions).processors generation)) ?_ ?_ hrun
  · obtain ⟨clock,rfl⟩ := initial_iff.mp hinit
    exact ⟨rfl,rfl,fun _ item hitem => absurd hitem List.not_mem_nil⟩
  · intro history action hpast h henabled
    rw [final_append]
    exact h.step rfl ((System.Reachable.start hinit).run hpast) henabled

/-- What a processor has dispatched went through the registry of that moment. -/
theorem exists_dispatch_of_mem {actions : List (Action H)}
    (hrun : (connectionManager H).Legal start actions) {dispatched : Dispatched H}
    (hmem : dispatched∈dispatches bs58 generation start actions) :
    ∃ earlier order outcome later,
      actions=earlier++.dispatch generation order outcome::later ∧
      dispatched.registered=
        ((connectionManager H).final start earlier).registry.subscriptions ∧
      dispatched.registered.IterationOrder order ∧
      dispatched.calls=dispatchEvent bs58 outcome dispatched.event order := by
  obtain ⟨⟨state,action⟩,hstep,hdispatch⟩ := List.mem_filterMap.mp hmem
  have hlegal := hrun.enabled_of_mem_steps hstep
  obtain ⟨earlier,later,hsplit,hstate⟩ := exists_split_of_mem_steps hstep
  cases action with
  | dispatch other order outcome =>
    by_cases hown : other=generation
    · subst hown
      have henabled : Enabled state (.dispatch other order outcome) := hlegal
      obtain ⟨event,hphase,horder⟩ := dispatching_of_dispatch henabled
      simp only [dispatchOf,if_true,hphase,handlerCalls,Option.some.injEq] at hdispatch
      rw [←hdispatch]
      refine ⟨earlier,order,outcome,later,hsplit,?_,horder,rfl⟩
      exact congrArg (fun state : State H => state.registry.subscriptions) hstate
    · rw [show dispatchOf bs58 generation (state,.dispatch other order outcome)=none
        from if_neg hown] at hdispatch
      cases hdispatch
  | _ => cases hdispatch

/-- The events a subscription's handler receives from a processor in a run. -/
def eventsSeen (bs58 : Bytes → String) (generation : Generation) (start : State H)
    (actions : List (Action H)) (subId : SubscriptionId) : List SubscriptionEvent :=
  (((dispatches bs58 generation start actions).flatMap Dispatched.calls).filter
    (fun call => call.subscription.id=subId)).map HandlerCall.event

/-- Each handler sees a part of what was dispatched, in the same order. -/
theorem eventsSeen_sublist {actions : List (Action H)}
    (hrun : (connectionManager H).Legal start actions) (subId : SubscriptionId) :
    (eventsSeen bs58 generation start actions subId).Sublist
      ((dispatches bs58 generation start actions).map Dispatched.event) := by
  have heach : ∀ dispatched∈dispatches bs58 generation start actions,
      ((dispatched.calls.filter fun call => call.subscription.id=subId).map
        HandlerCall.event).Sublist [dispatched.event] := by
    intro dispatched hmem
    obtain ⟨_,order,outcome,_,_,_,horder,hcalls⟩ := exists_dispatch_of_mem hrun hmem
    rw [hcalls]
    exact calls_with_id_sublist horder bs58 outcome dispatched.event subId
  rw [eventsSeen,List.filter_flatMap,List.map_flatMap,List.map_eq_flatMap]
  exact List.Sublist.flatMap_right _ heach

/-- A removed identifier that is not added again is not called again. -/
theorem not_called_of_unregistered (hrun : (connectionManager H).Legal start history)
    {subId : SubscriptionId} (hnone : start.registry.subscriptions.lookup subId=none)
    (hunadded : ∀ subscription,
      .addSubscription subscription∈handledCommands start history → subscription.id≠subId)
    {dispatched : Dispatched H} (hmem : dispatched∈dispatches bs58 generation start history)
    {call : HandlerCall H} (hcall : call∈dispatched.calls) : call.subscription.id≠subId := by
  obtain ⟨earlier,order,outcome,later,hsplit,hregistered,horder,hcalls⟩ :=
    exists_dispatch_of_mem hrun hmem
  rw [hsplit] at hrun hunadded
  have hpast := (queue_of_run (legal_append.mp hrun).1).2
  have hstill : dispatched.registered.lookup subId=none := by
    rw [hregistered,hpast]
    refine Registry.lookup_handleAll_none hnone fun subscription hadded => ?_
    refine hunadded subscription ?_
    rw [handledCommands_append]
    exact List.mem_append_left _ hadded
  rw [hcalls] at hcall
  have hcontains := (call_of_mem horder hcall).1
  intro hid
  rw [SubscriptionMap.Contains,hid,hstill] at hcontains
  cases hcontains

/-- What becomes of the items a processor takes in a run. -/
structure ExactDispatch (bs58 : Bytes → String) (generation : Generation) (start : State H)
    (actions : List (Action H)) : Prop where
  /-- The payloads of the items before the first error are dispatched once
  each, in stream order and nothing else is; the last one may be in hand. -/
  inOrder : (dispatches bs58 generation start actions).map Dispatched.event++
      awaitingEvents (((connectionManager H).final start actions).processors generation)=
    (beforeFirstError (itemsTaken generation actions)).filterMap payloadOf
  /-- What is in hand can be dispatched, whatever the handlers will return. -/
  notStuck : ∀ event,
    ((connectionManager H).final start actions).processors generation=.dispatching event →
      ∃ order,∀ outcome,
        Enabled ((connectionManager H).final start actions) (.dispatch generation order outcome)
  /-- No handler is called but by a dispatch. -/
  onlyDispatches : ∀ step∈(connectionManager H).steps start actions,
    ∀ call∈handlerCalls bs58 step.1 step.2,
      ∃ other dispatched,dispatchOf bs58 other step=some dispatched ∧ call∈dispatched.calls
  /-- Every subscription registered at the moment of a dispatch that matches
  is called exactly once, with the event and whatever the handlers return. -/
  once : ∀ dispatched∈dispatches bs58 generation start actions,
    ∀ subscription,dispatched.registered.Contains subscription →
      subscription.matchesEvent bs58 dispatched.event=true →
      ∃ outcome,dispatched.calls.filter (fun call => call.subscription.id=subscription.id)=
        [⟨subscription,dispatched.event,outcome⟩]
  /-- No other subscription is called, and no other event handed over. -/
  noOther : ∀ dispatched∈dispatches bs58 generation start actions,∀ call∈dispatched.calls,
    dispatched.registered.Contains call.subscription ∧
      call.subscription.matchesEvent bs58 dispatched.event=true ∧ call.event=dispatched.event
  /-- Each handler sees its events in stream order. -/
  inStreamOrder : ∀ subId,(eventsSeen bs58 generation start actions subId).Sublist
    ((beforeFirstError (itemsTaken generation actions)).filterMap payloadOf)
  /-- Each ping before the first error is reported once; the last one may be
  in hand. -/
  pings : (eventsSent generation start actions).count .pingReceived+
      awaitingPings (((connectionManager H).final start actions).processors generation)=
    (beforeFirstError (itemsTaken generation actions)).countP isPing
  /-- What is sent while the manager runs is queued last, once. -/
  queued : ∀ step∈(connectionManager H).steps start actions,∀ event,
    sendOf generation step=some event → step.1.manager.phase≠.exited →
      (next step.1 step.2).events=step.1.events++[⟨event,generation⟩]
  /-- The removal of an identifier, or of the client it is listed under,
  unregisters it. -/
  unregisters : ∀ step∈(connectionManager H).steps start actions,∀ subId,
    (handledBy step=some (.removeSubscription subId) ∨
      ∃ clientId,handledBy step=some (.removeClientSubscriptions clientId) ∧
        subId∈step.1.registry.idsOf clientId) →
      (next step.1 step.2).registry.subscriptions.lookup subId=none
  /-- From any moment at which an identifier is not registered, its handler is
  not called unless the identifier is added again. -/
  notCalledAgain : ∀ before after subId,actions=before++after →
    ((connectionManager H).final start before).registry.subscriptions.lookup subId=none →
    (∀ subscription,.addSubscription subscription∈
      handledCommands ((connectionManager H).final start before) after → subscription.id≠subId) →
    ∀ dispatched∈dispatches bs58 generation ((connectionManager H).final start before) after,
      ∀ call∈dispatched.calls,call.subscription.id≠subId

/-- A processor that has an event in hand can dispatch it. -/
theorem enabled_dispatch {state : State H} {event : SubscriptionEvent}
    (hphase : state.processors generation=.dispatching event) :
    ∃ order,∀ outcome,Enabled state (.dispatch generation order outcome) := by
  obtain ⟨order,horder⟩ := state.registry.subscriptions.exists_iterationOrder
  refine ⟨order,fun outcome => ?_⟩
  simp only [Enabled,hphase]
  exact horder

/-- Handler calls belong to the dispatch of some processor. -/
theorem exists_dispatchOf_of_call {step : State H × Action H} {call : HandlerCall H}
    (hcall : call∈handlerCalls bs58 step.1 step.2) :
    ∃ other dispatched,dispatchOf bs58 other step=some dispatched ∧ call∈dispatched.calls := by
  obtain ⟨state,action⟩ := step
  cases action with
  | dispatch other order outcome =>
    cases hphase : state.processors other with
    | dispatching event =>
      refine ⟨other,⟨event,state.registry.subscriptions,
        handlerCalls bs58 state (.dispatch other order outcome)⟩,?_,hcall⟩
      simp only [dispatchOf,if_true,hphase]
    | _ =>
      simp only [handlerCalls,hphase] at hcall
      exact absurd hcall List.not_mem_nil
  | _ => exact absurd hcall List.not_mem_nil

/-- A send is queued last while the manager runs. -/
theorem events_of_send {step : State H × Action H} {event : StreamEvent}
    (hsend : sendOf generation step=some event) (hrunning : step.1.manager.phase≠.exited) :
    (next step.1 step.2).events=step.1.events++[⟨event,generation⟩] := by
  obtain ⟨state,action⟩ := step
  cases action with
  | sendEvent other =>
    by_cases hown : other=generation
    · subst hown
      cases hphase : state.processors other with
      | sending sent =>
        simp only [sendOf,if_true,hphase,Option.some.injEq] at hsend
        subst hsend
        simp only [next,hphase]
        exact if_neg hrunning
      | _ =>
        simp only [sendOf,if_true,hphase] at hsend
        cases hsend
    · rw [show sendOf generation (state,.sendEvent other)=none from if_neg hown] at hsend
      cases hsend
  | _ => cases hsend

/-- A handled removal unregisters the identifier. -/
theorem lookup_of_removal {step : State H × Action H} {subId : SubscriptionId}
    (henabled : Enabled step.1 step.2)
    (hremoval : handledBy step=some (.removeSubscription subId) ∨
      ∃ clientId,handledBy step=some (.removeClientSubscriptions clientId) ∧
        subId∈step.1.registry.idsOf clientId) :
    (next step.1 step.2).registry.subscriptions.lookup subId=none := by
  have hregistry := (queue_next henabled).2
  rw [hregistry]
  rcases hremoval with hhandled|⟨clientId,hhandled,hlisted⟩
  · have hlookup := SubscriptionMap.lookup_removed step.1.registry.subscriptions subId subId
    rw [hhandled]
    exact hlookup.trans (if_pos rfl)
  · have hlookup := SubscriptionMap.lookup_removedAll step.1.registry.subscriptions
      (step.1.registry.idsOf clientId) subId
    rw [hhandled]
    exact hlookup.trans (if_pos hlisted)

/-- Dispatch is exactly once, in order and isolated from failures: in every
run, for every processor, with handlers that return what they like. -/
theorem dispatch_exact (bs58 : Bytes → String) (generation : Generation) {start : State H}
    {actions : List (Action H)} (hinit : (connectionManager H).initial start)
    (hrun : (connectionManager H).Legal start actions) :
    ExactDispatch bs58 generation start actions := by
  have hlogs := accounted_of_run bs58 generation hinit hrun
  constructor
  · exact hlogs.events
  · exact fun event hphase => enabled_dispatch hphase
  · exact fun step _ call hcall => exists_dispatchOf_of_call hcall
  · intro dispatched hmem subscription hregistered hmatch
    obtain ⟨_,order,outcome,_,_,_,horder,hcalls⟩ := exists_dispatch_of_mem hrun hmem
    rw [hcalls]
    exact ⟨_,calls_of_match horder bs58 outcome dispatched.event hregistered hmatch⟩
  · intro dispatched hmem call hcall
    obtain ⟨_,order,outcome,_,_,_,horder,hcalls⟩ := exists_dispatch_of_mem hrun hmem
    rw [hcalls] at hcall
    exact call_of_mem horder hcall
  · intro subId
    have hpart := List.sublist_append_left
      ((dispatches bs58 generation start actions).map Dispatched.event)
      (awaitingEvents (((connectionManager H).final start actions).processors generation))
    rw [hlogs.events] at hpart
    exact (eventsSeen_sublist hrun subId).trans hpart
  · exact hlogs.pings
  · exact fun step _ event hsend hrunning => events_of_send hsend hrunning
  · exact fun step hstep subId hremoval =>
      lookup_of_removal (hrun.enabled_of_mem_steps hstep) hremoval
  · intro before after subId hsplit hnone hunadded dispatched hmem call hcall
    rw [hsplit] at hrun
    exact not_called_of_unregistered (legal_append.mp hrun).2 hnone hunadded hmem hcall

/-- A slot update is dispatched to a failing handler, a ping is reported, and
the stream fails. -/
def failingHandlerRun : List (Action Unit) :=
  [.enterLoop,.connectSucceeded [],.recordConnection,
    .sendCommand (.addSubscription Delivery.slotSubscription),.receiveCommand,
    .sendUpdate [Delivery.slotSubscription] true,.enterLoop,.receiveItem 0 Delivery.slotItem,
    .dispatch 0 [Delivery.slotSubscription] (fun _ => .error "full"),
    .receiveItem 0 (.ok ⟨some .ping⟩),.sendEvent 0,.receiveItem 0 (.error "gone")]

theorem dispatch_exact_failingHandlerRun :
    ExactDispatch (fun _ => "") 0 (State.start 0) failingHandlerRun :=
  dispatch_exact (fun _ => "") 0 (initial_iff.mpr ⟨0,rfl⟩) (by decide)

end SteamHandler.StreamDispatch
