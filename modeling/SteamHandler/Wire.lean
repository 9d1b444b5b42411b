import SteamHandler.RequestChoices
import SteamHandler.Sessions

/-!
# What goes over the wire

The server knows of the registry only what is written to it. A connection
begins with a request built from the registry, and goes on with rebuilt
requests and answers to pings, each written on the connection the manager
holds. A server that lets an answer to a ping leave its filters alone
therefore applies, on every connection and at all times, the filter set that
the manager's model remembers for it.
-/

namespace SteamHandler.Wire

open Messages Subscriptions SubscriptionRegistry Requests ConnectionManager RequestChoices Sessions
open ServerView TransitionSystem

variable {H : Type}

/-- The answer to a ping. -/
def pingRequest : SubscribeRequest := { SubscribeRequest.default with ping := some ⟨1⟩ }

/-- The filters a server applies after a request: those of the request, unless
it is the answer to a ping. -/
def serve (filters : Option SubscribeRequest) (request : SubscribeRequest) :
    Option SubscribeRequest := if request.ping.isSome then filters else some request

/-- The request that a step gets onto a connection. -/
def requestOf (step : State H × Action H) : Option (Generation × SubscribeRequest) :=
  match step.2 with
  | .connectSucceeded order => some (step.1.nextGeneration,buildSubscribeRequest order)
  | .sendUpdate order true =>
    step.1.manager.subscribeTx.map fun generation => (generation,buildSubscribeRequest order)
  | .receiveEvent true =>
    match step.1.events with
    | ⟨.pingReceived,_⟩::_ =>
      step.1.manager.subscribeTx.map fun generation => (generation,pingRequest)
    | _ => none
  | _ => none

/-- The requests of a run with the connections they were written on. -/
def wire (start : State H) (actions : List (Action H)) : List (Generation × SubscribeRequest) :=
  ((connectionManager H).steps start actions).filterMap requestOf

/-- The requests written on one connection. -/
def requestsOn (generation : Generation) (log : List (Generation × SubscribeRequest)) :
    List SubscribeRequest :=
  log.filterMap fun entry => if entry.1=generation then some entry.2 else none

theorem requestsOn_append (generation : Generation)
    (first second : List (Generation × SubscribeRequest)) :
    requestsOn generation (first++second)=
      requestsOn generation first++requestsOn generation second := by
  simp only [requestsOn,List.filterMap_append]

theorem wire_snoc (start : State H) (history : List (Action H)) (action : Action H) :
    wire start (history++[action])=
      wire start history++
        (requestOf ((connectionManager H).final start history,action)).toList := by
  rw [wire,steps_snoc,List.filterMap_append]
  rfl

/-- A waiting or updating manager holds a connection that was established. -/
theorem held_lt {state : State H} (hreach : (connectionManager H).Reachable state)
    {generation : Generation} (hcurrent : currentOf state.manager=some generation) :
    generation < state.nextGeneration :=
  @Supervision.current_lt_opened (view state) ((sessions H).reachable hreach) generation hcurrent

/-- What a step gets onto a connection: the first request of a new one, or on
the one that is held a rebuilt request or the answer to a ping. -/
theorem requestOf_cases {state : State H} {action : Action H}
    (hreach : (connectionManager H).Reachable state) (henabled : Enabled state action)
    {generation : Generation} {request : SubscribeRequest}
    (hrequest : requestOf (state,action)=some (generation,request)) :
    (∃ order,action=.connectSucceeded order ∧ generation=state.nextGeneration ∧
      state.registry.subscriptions.IterationOrder order ∧ request=buildSubscribeRequest order) ∨
    (∃ order,action=.sendUpdate order true ∧ state.manager.client=some generation ∧
      state.manager.subscribeTx=some generation ∧ generation < state.nextGeneration ∧
      state.registry.subscriptions.IterationOrder order ∧ request=buildSubscribeRequest order) ∨
    (∃ sender rest,action=.receiveEvent true ∧ state.events=⟨.pingReceived,sender⟩::rest ∧
      state.manager.client=some generation ∧ generation < state.nextGeneration ∧
      request=pingRequest) := by
  cases action with
  | connectSucceeded order =>
    obtain ⟨hgeneration,hbuilt⟩ := Prod.mk.inj (Option.some.inj hrequest)
    exact Or.inl ⟨order,rfl,hgeneration.symm,henabled.2,hbuilt.symm⟩
  | sendUpdate order accepted =>
    obtain ⟨held,hclient,hchannel,hcurrent⟩ := holds_of_updating hreach henabled.1
    cases accepted with
    | false => cases hrequest
    | true =>
      dsimp only [requestOf] at hrequest
      rw [hchannel,Option.map_some] at hrequest
      obtain ⟨rfl,hbuilt⟩ := Prod.mk.inj (Option.some.inj hrequest)
      exact Or.inr (Or.inl ⟨order,rfl,hclient,hchannel,held_lt hreach hcurrent,henabled.2,
        hbuilt.symm⟩)
  | receiveEvent accepted =>
    obtain ⟨held,hclient,hchannel,hcurrent⟩ := holds_of_selecting hreach henabled.1
    obtain ⟨⟨event,sender⟩,rest,hevents,_⟩ := next_receiveEvent henabled
    cases accepted with
    | false => cases hrequest
    | true =>
      cases event with
      | pingReceived =>
        simp only [requestOf,hevents,hchannel,Option.map_some,Option.some.injEq,
          Prod.mk.injEq] at hrequest
        obtain ⟨rfl,hpong⟩ := hrequest
        exact Or.inr (Or.inr ⟨sender,rest,rfl,hevents,hclient,held_lt hreach hcurrent,hpong.symm⟩)
      | connectionClosed =>
        simp only [requestOf,hevents] at hrequest
        cases hrequest
      | connectionError error =>
        simp only [requestOf,hevents] at hrequest
        cases hrequest
  | _ => cases hrequest

/-- The server's filters on a connection, as the model remembers them. -/
def remembered (state : State H) (generation : Generation) : Option SubscribeRequest :=
  if generation < state.nextGeneration then some (state.serverFilters generation) else none

/-- A step that gets a request onto a connection serves it there. -/
theorem serve_requestsOn (generation other : Generation) (request : SubscribeRequest)
    (filters : Option SubscribeRequest) :
    (requestsOn generation [(other,request)]).foldl serve filters=
      if other=generation then serve filters request else filters := by
  by_cases hown : other=generation
  · have hone : requestsOn generation [(other,request)]=[request] := by
      rw [requestsOn,List.filterMap_cons,if_pos hown]
      rfl
    rw [hone,if_pos hown]
    rfl
  · have hnone : requestsOn generation [(other,request)]=[] := by
      rw [requestsOn,List.filterMap_cons,if_neg hown]
      rfl
    rw [hnone,if_neg hown]
    rfl

/-- The first request on a new connection is remembered for it. -/
theorem remembered_connectSucceeded (state : State H) (order : List (Subscription H))
    (generation : Generation) :
    remembered (next state (.connectSucceeded order)) generation=
      (requestsOn generation (requestOf (state,.connectSucceeded order)).toList).foldl serve
        (remembered state generation) := by
  change _=(requestsOn generation [(state.nextGeneration,buildSubscribeRequest order)]).foldl
    serve (remembered state generation)
  rw [serve_requestsOn]
  by_cases hnew : state.nextGeneration=generation
  · subst hnew
    rw [if_pos rfl,remembered]
    have hbound : state.nextGeneration < (next state (.connectSucceeded order)).nextGeneration :=
      Nat.lt_succ_self _
    rw [if_pos hbound]
    exact congrArg some (Function.update_self _ _ _)
  · rw [if_neg hnew,remembered,remembered]
    have hfilters : (next state (.connectSucceeded order)).serverFilters generation=
        state.serverFilters generation := Function.update_of_ne (Ne.symm hnew) _ _
    have hbound : generation < (next state (.connectSucceeded order)).nextGeneration ↔
        generation < state.nextGeneration := by
      exact ⟨fun h => lt_of_le_of_ne (Nat.lt_succ_iff.mp h) (Ne.symm hnew),
        fun h => Nat.lt_succ_of_lt h⟩
    rw [hfilters,if_congr hbound rfl rfl]

/-- An update is remembered for the connection it is accepted on. -/
theorem remembered_sendUpdate {state : State H} {order : List (Subscription H)} {accepted : Bool}
    (hreach : (connectionManager H).Reachable state)
    (henabled : Enabled state (.sendUpdate order accepted)) (generation : Generation) :
    remembered (next state (.sendUpdate order accepted)) generation=
      (requestsOn generation (requestOf (state,.sendUpdate order accepted)).toList).foldl serve
        (remembered state generation) := by
  obtain ⟨held,_,hchannel,hcurrent⟩ := holds_of_updating hreach henabled.1
  have hheld := held_lt hreach hcurrent
  cases accepted with
  | false =>
    have hfilters : (next state (.sendUpdate order false)).serverFilters=
        state.serverFilters := by
      simp only [next,hchannel,Bool.false_eq_true,if_false]
    rw [remembered,hfilters]
    rfl
  | true =>
    have hrequest : requestOf (state,.sendUpdate order true)=
        some (held,buildSubscribeRequest order) := by
      simp only [requestOf,hchannel,Option.map_some]
    have hfilters : (next state (.sendUpdate order true)).serverFilters=
        Function.update state.serverFilters held (buildSubscribeRequest order) := by
      simp only [next,hchannel,if_true]
    rw [hrequest,Option.toList_some,serve_requestsOn,remembered,hfilters]
    by_cases hown : held=generation
    · subst hown
      rw [if_pos rfl,Function.update_self]
      exact if_pos hheld
    · rw [if_neg hown,Function.update_of_ne (Ne.symm hown)]
      rfl

/-- The model remembers what the server applies, step by step. -/
theorem remembered_next {state : State H} {action : Action H}
    (hreach : (connectionManager H).Reachable state) (henabled : Enabled state action)
    (generation : Generation) :
    remembered (next state action) generation=
      (requestsOn generation (requestOf (state,action)).toList).foldl serve
        (remembered state generation) := by
  cases action with
  | connectSucceeded order => exact remembered_connectSucceeded state order generation
  | sendUpdate order accepted => exact remembered_sendUpdate hreach henabled generation
  | receiveEvent accepted =>
    obtain ⟨_,_,_,hnext⟩ := next_receiveEvent henabled
    have hkept : remembered (next state (.receiveEvent accepted)) generation=
        remembered state generation := by
      rw [hnext]
      rfl
    rw [hkept]
    cases hrequest : requestOf (state,.receiveEvent accepted) with
    | none => rfl
    | some entry =>
      obtain ⟨other,request⟩ := entry
      rcases requestOf_cases hreach henabled hrequest with ⟨_,hother,_⟩|⟨_,hother,_⟩|hpong
      · cases hother
      · cases hother
      · obtain ⟨_,_,_,_,_,_,rfl⟩ := hpong
        rw [Option.toList_some,serve_requestsOn]
        exact (ite_self _).symm
  | connectFailed =>
    rw [next_connectFailed]
    rfl
  | recordConnection =>
    obtain ⟨_,_,hnext⟩ := next_recordConnection henabled
    rw [hnext]
    rfl
  | receiveCommand =>
    obtain ⟨_,_,_,hnext⟩ := next_receiveCommand henabled
    rw [hnext]
    rfl
  | sendEvent other =>
    obtain ⟨_,_,hnext⟩ := next_sendEvent henabled
    rw [hnext]
    rfl
  | _ => rfl

section Runs

variable {start : State H} {actions : List (Action H)}

/-- What a server applies after the requests of a run is what the model
remembers. -/
theorem serve_of_run (hinit : (connectionManager H).initial start)
    (hrun : (connectionManager H).Legal start actions) (generation : Generation) :
    (requestsOn generation (wire start actions)).foldl serve none=
      remembered ((connectionManager H).final start actions) generation := by
  refine System.Legal.run_induction
    (P := fun actions => (requestsOn generation (wire start actions)).foldl serve none=
      remembered ((connectionManager H).final start actions) generation) ?_ ?_ hrun
  · obtain ⟨clock,rfl⟩ := initial_iff.mp hinit
    rfl
  · intro history action hpast ih henabled
    have hreach := (System.Reachable.start hinit).run hpast
    rw [wire_snoc,requestsOn_append,List.foldl_append,ih,final_append]
    exact (remembered_next hreach henabled generation).symm

/-- Nothing is written on a connection before it is made. What is written first
is a filter update, and what follows are filter updates and answers to pings. -/
def WellOpened (state : State H) (generation : Generation) (requests : List SubscribeRequest) :
    Prop :=
  (state.nextGeneration ≤ generation ∧ requests=[]) ∨
  (generation < state.nextGeneration ∧ ∃ first rest,requests=first::rest ∧ IsFilterUpdate first ∧
    ∀ request∈rest,IsFilterUpdate request ∨ request=pingRequest)

/-- A request on a connection that was made extends what was written on it. -/
theorem WellOpened.append {state after : State H} {generation : Generation}
    {requests later : List SubscribeRequest} (h : WellOpened state generation requests)
    (hnext : after.nextGeneration=state.nextGeneration)
    (hmade : later≠[] → generation < state.nextGeneration)
    (hlater : ∀ request∈later,IsFilterUpdate request ∨ request=pingRequest) :
    WellOpened after generation (requests++later) := by
  unfold WellOpened
  rw [hnext]
  rcases h with ⟨hunmade,rfl⟩|⟨hopen,first,rest,rfl,hfirst,hrest⟩
  · refine Or.inl ⟨hunmade,?_⟩
    by_contra hsome
    exact absurd (hmade hsome) (Nat.not_lt.mpr hunmade)
  · refine Or.inr ⟨hopen,first,rest++later,rfl,hfirst,fun request hrequest => ?_⟩
    rcases List.mem_append.mp hrequest with hpast|hnow
    · exact hrest request hpast
    · exact hlater request hnow

/-- A new connection is opened with a filter update. -/
theorem WellOpened.connect {state : State H} {generation : Generation}
    {requests : List SubscribeRequest} (h : WellOpened state generation requests)
    (order : List (Subscription H)) :
    WellOpened (next state (.connectSucceeded order)) generation
      (requests++requestsOn generation
        (requestOf (state,.connectSucceeded order)).toList) := by
  have hnext : (next state (.connectSucceeded order)).nextGeneration=state.nextGeneration+1 := rfl
  by_cases hnew : state.nextGeneration=generation
  · have hwritten : requestsOn generation (requestOf (state,.connectSucceeded order)).toList=
        [buildSubscribeRequest order] :=
      List.filterMap_cons_some (if_pos hnew)
    rcases h with ⟨_,rfl⟩|⟨hopen,_⟩
    · rw [hwritten]
      refine Or.inr ⟨?_,buildSubscribeRequest order,[],rfl,isFilterUpdate_build order,
        fun request hrequest => absurd hrequest List.not_mem_nil⟩
      rw [hnext,hnew]
      exact Nat.lt_succ_self generation
    · exact absurd hnew (Nat.ne_of_gt hopen)
  · have hsilent : requestsOn generation (requestOf (state,.connectSucceeded order)).toList=[] :=
      List.filterMap_cons_none (if_neg hnew)
    rw [hsilent,List.append_nil]
    rcases h with ⟨hunmade,hnothing⟩|⟨hopen,hshape⟩
    · refine Or.inl ⟨?_,hnothing⟩
      rw [hnext]
      exact Nat.lt_of_le_of_ne hunmade hnew
    · refine Or.inr ⟨?_,hshape⟩
      rw [hnext]
      exact Nat.lt_succ_of_lt hopen

/-- Only a new connection counts. -/
theorem nextGeneration_next {state : State H} {action : Action H} (henabled : Enabled state action)
    (hother : ∀ order,action≠.connectSucceeded order) :
    (next state action).nextGeneration=state.nextGeneration := by
  cases action with
  | connectSucceeded order => exact absurd rfl (hother order)
  | connectFailed =>
    rw [next_connectFailed]
  | recordConnection =>
    obtain ⟨_,_,hnext⟩ := next_recordConnection henabled
    rw [hnext]
  | receiveCommand =>
    obtain ⟨_,_,_,hnext⟩ := next_receiveCommand henabled
    rw [hnext]
  | receiveEvent accepted =>
    obtain ⟨_,_,_,hnext⟩ := next_receiveEvent henabled
    rw [hnext]
  | sendEvent generation =>
    obtain ⟨_,_,hnext⟩ := next_sendEvent henabled
    rw [hnext]
    rfl
  | _ => rfl

/-- Requests that are not written on a connection do not occur there. -/
theorem mem_requestsOn {generation : Generation} {log : List (Generation × SubscribeRequest)}
    {request : SubscribeRequest} : request∈requestsOn generation log ↔ (generation,request)∈log := by
  simp only [requestsOn,List.mem_filterMap,Prod.exists]
  constructor
  · rintro ⟨other,written,hmem,hwritten⟩
    by_cases hown : other=generation
    · subst hown
      rw [if_pos rfl,Option.some.injEq] at hwritten
      rw [←hwritten]
      exact hmem
    · rw [if_neg hown] at hwritten
      cases hwritten
  · exact fun hmem => ⟨generation,request,hmem,if_pos rfl⟩

/-- In every run, every connection is well opened. -/
theorem wellOpened_of_run (hinit : (connectionManager H).initial start)
    (hrun : (connectionManager H).Legal start actions) (generation : Generation) :
    WellOpened ((connectionManager H).final start actions) generation
      (requestsOn generation (wire start actions)) := by
  refine System.Legal.run_induction
    (P := fun actions => WellOpened ((connectionManager H).final start actions) generation
      (requestsOn generation (wire start actions))) ?_ ?_ hrun
  · obtain ⟨clock,rfl⟩ := initial_iff.mp hinit
    exact Or.inl ⟨Nat.zero_le _,rfl⟩
  · intro history action hpast ih henabled
    have hreach := (System.Reachable.start hinit).run hpast
    rw [wire_snoc,requestsOn_append,final_append]
    change WellOpened (next ((connectionManager H).final start history) action) generation _
    by_cases hconnect : ∃ order,action=.connectSucceeded order
    · obtain ⟨order,rfl⟩ := hconnect
      exact ih.connect order
    · have hother : ∀ order,action≠.connectSucceeded order :=
        fun order hsame => hconnect ⟨order,hsame⟩
      have hwritten : ∀ request,
          request∈requestsOn generation (requestOf
            ((connectionManager H).final start history,action)).toList →
          generation < ((connectionManager H).final start history).nextGeneration ∧
            (IsFilterUpdate request ∨ request=pingRequest) := by
        intro request hrequest
        have hsome := Option.mem_toList.mp (mem_requestsOn.mp hrequest)
        rcases requestOf_cases hreach henabled hsome with
          ⟨order,hsame,_⟩|⟨order,_,_,_,hmade,_,hbuilt⟩|⟨_,_,_,_,_,hmade,hpong⟩
        · exact absurd hsame (hother order)
        · rw [hbuilt]
          exact ⟨hmade,Or.inl (isFilterUpdate_build order)⟩
        · exact ⟨hmade,Or.inr hpong⟩
      refine ih.append (nextGeneration_next henabled hother) (fun hsome => ?_)
        fun request hrequest => (hwritten request hrequest).2
      obtain ⟨request,hrequest⟩ := List.exists_mem_of_ne_nil _ hsome
      exact (hwritten request hrequest).1

/-- A filter update is not the answer to a ping. -/
theorem build_ne_pingRequest (order : List (Subscription H)) :
    buildSubscribeRequest order≠pingRequest := by
  intro hsame
  have hping : (none : Option SubscribeRequestPing)=some ⟨1⟩ :=
    congrArg SubscribeRequest.ping hsame
  cases hping

/-- What the connections of a run carry, and what a server makes of it. -/
structure WireProtocol (start : State H) (actions : List (Action H)) : Prop where
  /-- Nothing is written on a connection before it is made; it opens with a
  filter update and carries filter updates and answers to pings. -/
  opened : ∀ generation,WellOpened ((connectionManager H).final start actions) generation
    (requestsOn generation (wire start actions))
  /-- Every filter update is built from what is registered at its moment. -/
  built : ∀ step∈(connectionManager H).steps start actions,∀ generation request,
    requestOf step=some (generation,request) →
      request=pingRequest ∨ Builds step.1.registry.subscriptions request
  /-- After it was made, a connection is written on only while it is held. -/
  held : ∀ step∈(connectionManager H).steps start actions,∀ generation request,
    requestOf step=some (generation,request) →
      (∃ order,step.2=.connectSucceeded order) ∨ Holds step.1 generation
  /-- A ping that the manager takes is answered on the connection it holds, or
  that connection is dropped. -/
  answered : ∀ step∈(connectionManager H).steps start actions,∀ accepted sender rest,
    step.2=.receiveEvent accepted → step.1.events=⟨.pingReceived,sender⟩::rest →
      ∃ generation,Holds step.1 generation ∧
        if accepted then requestOf step=some (generation,pingRequest) ∧
            Holds (next step.1 step.2) generation
        else requestOf step=none ∧ (next step.1 step.2).manager.client=none
  /-- Nothing else is answered. -/
  prompted : ∀ step∈(connectionManager H).steps start actions,∀ generation,
    requestOf step=some (generation,pingRequest) →
      ∃ sender rest,step.2=.receiveEvent true ∧ step.1.events=⟨.pingReceived,sender⟩::rest
  /-- A server that keeps its filters when a ping is answered applies on every
  connection made what the model remembers for it. -/
  applied : ∀ generation,generation < ((connectionManager H).final start actions).nextGeneration →
    (requestsOn generation (wire start actions)).foldl serve none=
      some (((connectionManager H).final start actions).serverFilters generation)
  /-- While the manager waits, the server applies on the connection it holds a
  request built from what is registered. -/
  synced : ((connectionManager H).final start actions).manager.phase=.selecting →
    ∃ generation request,Holds ((connectionManager H).final start actions) generation ∧
      (requestsOn generation (wire start actions)).foldl serve none=some request ∧
      Builds ((connectionManager H).final start actions).registry.subscriptions request

/-- A ping in hand is answered, or ends the connection. -/
theorem answered_of_ping {state : State H} {accepted : Bool} {sender : Generation}
    {rest : List SentEvent} (hreach : (connectionManager H).Reachable state)
    (henabled : Enabled state (.receiveEvent accepted))
    (hevents : state.events=⟨.pingReceived,sender⟩::rest) :
    ∃ generation,Holds state generation ∧
      if accepted then requestOf (state,.receiveEvent accepted)=some (generation,pingRequest) ∧
          Holds (next state (.receiveEvent accepted)) generation
      else requestOf (state,.receiveEvent accepted)=none ∧
        (next state (.receiveEvent accepted)).manager.client=none := by
  obtain ⟨generation,hclient,hchannel,_⟩ := holds_of_selecting hreach henabled.1
  have hmanager : (next state (.receiveEvent accepted)).manager=
      state.manager.afterEvent .pingReceived accepted := by
    simp only [next,hevents]
  refine ⟨generation,⟨running_of_selecting henabled.1,hclient⟩,?_⟩
  cases accepted with
  | true =>
    rw [if_pos rfl]
    constructor
    · simp only [requestOf,hevents,hchannel,Option.map_some]
    · simp only [Holds,hmanager,Manager.afterEvent,Bool.not_true,Bool.and_false,
        Bool.false_eq_true,if_false]
      exact ⟨ManagerPhase.noConfusion,hclient⟩
  | false =>
    rw [if_neg Bool.false_ne_true]
    refine ⟨rfl,?_⟩
    rw [hmanager]
    simp only [Manager.afterEvent,hchannel,Option.isSome_some,Bool.not_false,Bool.and_self,if_true]
    rfl

/-- In every run, whatever the server and the clients do, the connections carry
what the manager's bookkeeping says: rebuilt requests and answers to pings, each
on the connection it holds. -/
theorem wire_protocol (hinit : (connectionManager H).initial start)
    (hrun : (connectionManager H).Legal start actions) : WireProtocol start actions := by
  have hstep : ∀ step∈(connectionManager H).steps start actions,
      (connectionManager H).Reachable step.1 ∧ Enabled step.1 step.2 := by
    intro step hstep
    obtain ⟨earlier,later,hsplit,hstate⟩ := exists_split_of_mem_steps hstep
    rw [hsplit] at hrun
    rw [hstate]
    have hlegal := (legal_append.mp hrun)
    exact ⟨(System.Reachable.start hinit).run hlegal.1,hlegal.2.1⟩
  constructor
  · exact wellOpened_of_run hinit hrun
  · intro step hmem generation request hrequest
    obtain ⟨hreach,henabled⟩ := hstep step hmem
    rcases requestOf_cases hreach henabled hrequest with
      ⟨order,_,_,horder,hbuilt⟩|⟨order,_,_,_,_,horder,hbuilt⟩|⟨_,_,_,_,_,_,hpong⟩
    · exact Or.inr ⟨order,horder,hbuilt⟩
    · exact Or.inr ⟨order,horder,hbuilt⟩
    · exact Or.inl hpong
  · intro step hmem generation request hrequest
    obtain ⟨hreach,henabled⟩ := hstep step hmem
    obtain ⟨state,action⟩ := step
    rcases requestOf_cases hreach henabled hrequest with
      ⟨order,haction,_⟩|⟨order,rfl,hclient,_⟩|⟨_,_,rfl,_,hclient,_⟩
    · exact Or.inl ⟨order,haction⟩
    · have hphase : state.manager.phase=.updating := henabled.1
      refine Or.inr ⟨?_,hclient⟩
      rw [hphase]
      exact ManagerPhase.noConfusion
    · exact Or.inr ⟨running_of_selecting henabled.1,hclient⟩
  · intro step hmem accepted sender rest haction hevents
    obtain ⟨hreach,henabled⟩ := hstep step hmem
    obtain ⟨state,action⟩ := step
    cases haction
    exact answered_of_ping hreach henabled hevents
  · intro step hmem generation hrequest
    obtain ⟨hreach,henabled⟩ := hstep step hmem
    rcases requestOf_cases hreach henabled hrequest with
      ⟨order,_,_,_,hbuilt⟩|⟨order,_,_,_,_,_,hbuilt⟩|⟨sender,rest,haction,hevents,_⟩
    · exact absurd hbuilt.symm (build_ne_pingRequest order)
    · exact absurd hbuilt.symm (build_ne_pingRequest order)
    · exact ⟨sender,rest,haction,hevents⟩
  · intro generation hmade
    rw [serve_of_run hinit hrun,remembered,if_pos hmade]
  · intro hphase
    have hreach := (System.Reachable.start hinit).run hrun
    obtain ⟨_,generation,hclient,_,hbuilds⟩ := synced_of_selecting hreach hphase
    obtain ⟨_,_,_,hcurrent⟩ := holds_of_selecting hreach hphase
    refine ⟨generation,_,⟨running_of_selecting hphase,hclient⟩,?_,hbuilds⟩
    rw [serve_of_run hinit hrun,remembered,if_pos (held_lt hreach ?_)]
    rw [currentOf,hphase]
    exact hclient

/-- A connection is made, a subscription is added, and a ping is answered. -/
def answeringRun : List (Action Unit) :=
  [.enterLoop,.connectSucceeded [],.recordConnection,
    .sendCommand (.addSubscription (.onSlots 1 "a" ⟨[]⟩ ())),.receiveCommand,
    .sendUpdate [.onSlots 1 "a" ⟨[]⟩ ()] true,.receiveItem 0 (.ok ⟨some .ping⟩),.sendEvent 0,
    .enterLoop,.receiveEvent true]

theorem wire_protocol_answeringRun : WireProtocol (State.start 0) answeringRun :=
  wire_protocol (initial_iff.mpr ⟨0,rfl⟩) (by decide)

example : (wire (State.start 0) answeringRun).map Prod.fst=[0,0,0] := by decide

end Runs

end SteamHandler.Wire
