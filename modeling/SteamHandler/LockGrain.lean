import SteamHandler.Atomicity

/-!
# What is seen at the grain of the locks

The manager with its lock and the manager system show the same. A run at the
grain of the locks is seen as a run of the manager system: the same requests on
the same connections, the same calls of the handlers of each stream, the same
commands. And every run of the manager system can be taken at that grain, one
critical section after the other.
-/

namespace SteamHandler.LockGrain

open Messages Subscriptions SubscriptionRegistry Requests Dispatch ConnectionManager ManagerRuns
open CriticalSections LockGuards Atomicity Wire Progress RwLocks TransitionSystem

variable {H : Type}

section Observations

variable (bs58 : Bytes → String)

/-- The request that a step gets onto a connection. -/
def lockedRequest (step : LockedState H × LockedAction H) : List (Generation × SubscribeRequest) :=
  match step.2 with
  | .plain action => (requestOf (step.1.system,action)).toList
  | .subscribed =>
    match step.1.stage with
    | .built _ request => [(step.1.system.nextGeneration,request)]
    | _ => []
  | .updated true =>
    match step.1.stage with
    | .built _ request =>
      (step.1.system.manager.subscribeTx.map fun generation => (generation,request)).toList
    | _ => []
  | _ => []

/-- The requests of a run with the connections they were written on. -/
def lockedWire (start : LockedState H) (actions : List (LockedAction H)) :
    List (Generation × SubscribeRequest) :=
  ((lockedManager bs58).steps start actions).flatMap lockedRequest

/-- The handler call that a step of a processor makes. -/
def lockedCall (generation : Generation) (step : LockedState H × LockedAction H) :
    List (HandlerCall H) :=
  match step.2 with
  | .iterate other outcome =>
    if other=generation then
      match step.1.system.processors other,step.1.loops other with
      | .dispatching event,some ⟨_,subscription::_,_⟩ => tried bs58 event subscription outcome
      | _,_ => []
    else []
  | _ => []

/-- The handler calls that a processor makes in a run. -/
def lockedCalls (generation : Generation) (start : LockedState H)
    (actions : List (LockedAction H)) : List (HandlerCall H) :=
  ((lockedManager bs58).steps start actions).flatMap (lockedCall bs58 generation)

/-- The command that a step sends. -/
def lockedSend (step : LockedState H × LockedAction H) : List (ManagerCommand H) :=
  match step.2 with
  | .plain (.sendCommand command) => [command]
  | _ => []

/-- The commands sent in a run. -/
def lockedSends (start : LockedState H) (actions : List (LockedAction H)) :
    List (ManagerCommand H) :=
  ((lockedManager bs58).steps start actions).flatMap lockedSend

/-- The handler calls that a step of the manager system makes for a processor. -/
def callOf (generation : Generation) (step : State H × Action H) : List (HandlerCall H) :=
  match step.2 with
  | .dispatch other _ _ => if other=generation then handlerCalls bs58 step.1 step.2 else []
  | _ => []

/-- The handler calls of a processor in a run of the manager system. -/
def callsOf (generation : Generation) (start : State H) (actions : List (Action H)) :
    List (HandlerCall H) :=
  ((connectionManager H).steps start actions).flatMap (callOf bs58 generation)

/-- The calls of a processor that is still inside `dispatch_event`. -/
def callsUnderWay (generation : Generation) (state : LockedState H) : List (HandlerCall H) :=
  match state.loops generation with
  | some loop => loop.calls
  | none => []

end Observations

section Logs

variable {bs58 : Bytes → String} {state : LockedState H}

/-- Nothing is logged by actions that log nothing. -/
theorem flatMap_steps_eq_nil {γ : Type*} {log : State H × Action H → List γ}
    {actions : List (Action H)} (h : ∀ action∈actions,∀ state,log (state,action)=[])
    (start : State H) : ((connectionManager H).steps start actions).flatMap log=[] := by
  induction actions generalizing start with
  | nil => rfl
  | cons action actions ih =>
    rw [System.steps,List.flatMap_cons,h action List.mem_cons_self,
      ih fun other hother => h other (List.mem_cons_of_mem _ hother)]
    rfl

/-- The steps that put off what is still to be sent, or make up for it. -/
def defers : LockedAction H → Bool
  | .plain (.sendCommand _) => true
  | .plain .dropOwner => true
  | .takeCommand => true
  | .acquire => true
  | _ => false

/-- They amount to handling, sending and dropping. -/
theorem mem_trace_of_defers {action : LockedAction H} (h : defers action=true)
    {performed : Action H} (hperformed : performed∈trace (state,action)) :
    performed=.receiveCommand ∨ performed=.dropOwner ∨ ∃ command,performed=.sendCommand command := by
  cases action with
  | plain action =>
    cases action with
    | sendCommand command =>
      change performed∈(if _ then [_] else []) at hperformed
      split at hperformed
      · exact Or.inr (Or.inr ⟨command,List.mem_singleton.mp hperformed⟩)
      · exact absurd hperformed List.not_mem_nil
    | dropOwner =>
      change performed∈(if _ then [_] else []) at hperformed
      split at hperformed
      · exact Or.inr (Or.inl (List.mem_singleton.mp hperformed))
      · exact absurd hperformed List.not_mem_nil
    | _ => cases h
  | takeCommand =>
    simp only [trace] at hperformed
    split at hperformed
    · exact Or.inl (List.mem_singleton.mp hperformed)
    · exact absurd hperformed List.not_mem_nil
  | acquire =>
    rcases List.mem_cons.mp hperformed with hfirst|hlater
    · exact Or.inl hfirst
    · rcases List.mem_append.mp hlater with hsend|hdrop
      · obtain ⟨command,_,hsame⟩ := List.mem_map.mp hsend
        exact Or.inr (Or.inr ⟨command,hsame.symm⟩)
      · split at hdrop
        · exact absurd hdrop List.not_mem_nil
        · exact Or.inr (Or.inl (List.mem_singleton.mp hdrop))
  | _ => cases h

/-- A log that notes none of these notes nothing of them. -/
theorem log_of_defers {γ : Type*} {log : State H × Action H → List γ} {action : LockedAction H}
    (h : defers action=true)
    (hnone : ∀ state,log (state,.receiveCommand)=[] ∧ log (state,.dropOwner)=[] ∧
      ∀ command,log (state,.sendCommand command)=[]) :
    ((connectionManager H).steps state.view (trace (state,action))).flatMap log=[] := by
  refine flatMap_steps_eq_nil (fun performed hperformed other => ?_) _
  rcases mem_trace_of_defers h hperformed with rfl|rfl|⟨command,rfl⟩
  · exact (hnone other).1
  · exact (hnone other).2.1
  · exact (hnone other).2.2 command

/-- What a step writes on a connection is what its trace writes there. -/
theorem request_step (h : Consistent bs58 state) {action : LockedAction H}
    (henabled : LockedEnabled state action) :
    lockedRequest (state,action)=
      ((connectionManager H).steps state.view (trace (state,action))).flatMap
        fun step => (requestOf step).toList := by
  cases action with
  | plain action =>
    cases action with
    | sendCommand command => exact (log_of_defers rfl fun _ => ⟨rfl,rfl,fun _ => rfl⟩).symm
    | dropOwner => exact (log_of_defers rfl fun _ => ⟨rfl,rfl,fun _ => rfl⟩).symm
    | receiveEvent accepted =>
      have hstage := eq_outside (henabled.2.2 rfl)
      have hview : state.view=state.system := by
        refine view_eq ?_ ?_ h.capacity
        · rw [hstage]
          rfl
        · rw [hstage]
          rfl
      change (requestOf (state.system,.receiveEvent accepted)).toList=
        (requestOf (state.view,.receiveEvent accepted)).toList++[]
      rw [hview,List.append_nil]
    | connectSucceeded order => cases henabled.1
    | sendUpdate order accepted => cases henabled.1
    | _ => rfl
  | takeCommand => exact (log_of_defers rfl fun _ => ⟨rfl,rfl,fun _ => rfl⟩).symm
  | acquire => exact (log_of_defers rfl fun _ => ⟨rfl,rfl,fun _ => rfl⟩).symm
  | subscribed =>
    obtain ⟨order,request,hstage,_⟩ := next_subscribed bs58 henabled
    obtain ⟨hview,_,hrequest⟩ := view_built h hstage
    simp only [lockedRequest,trace,hstage]
    change _=(requestOf (state.view,.connectSucceeded order)).toList++[]
    rw [hview,hrequest]
    rfl
  | updated accepted =>
    obtain ⟨order,request,hstage,_⟩ := next_updated bs58 henabled
    obtain ⟨hview,_,hrequest⟩ := view_built h hstage
    cases accepted with
    | true =>
      simp only [lockedRequest,trace,hstage]
      change _=(requestOf (state.view,.sendUpdate order true)).toList++[]
      rw [hview,hrequest,List.append_nil]
      rfl
    | false =>
      simp only [lockedRequest,trace,hstage]
      rfl
  | endDispatch generation =>
    obtain ⟨order,calls,hloop⟩ := next_endDispatch henabled
    simp only [lockedRequest,trace,hloop]
    rfl
  | _ => rfl

/-- The calls made so far name each subscription once. -/
theorem outcomesOf_mem {calls : List (HandlerCall H)}
    (hids : (calls.map fun call => call.subscription.id).Nodup) {call : HandlerCall H}
    (hcall : call∈calls) : outcomesOf calls call.subscription.id=call.outcome := by
  induction calls with
  | nil => exact absurd hcall List.not_mem_nil
  | cons first calls ih =>
    rw [List.map_cons,List.nodup_cons] at hids
    by_cases hfirst : first.subscription.id=call.subscription.id
    · have hsame : call=first := by
        rcases List.mem_cons.mp hcall with hsame|hlater
        · exact hsame
        · refine absurd ?_ hids.1
          rw [hfirst]
          exact List.mem_map_of_mem (f:=fun call : HandlerCall H => call.subscription.id) hlater
      have hfind : (first::calls).find? (fun other => other.subscription.id=call.subscription.id)=
          some first := List.find?_cons_of_pos (decide_eq_true hfirst)
      rw [outcomesOf,hfind,hsame]
    · have hlater : call∈calls := by
        rcases List.mem_cons.mp hcall with hsame|hlater
        · rw [hsame] at hfirst
          exact absurd rfl hfirst
        · exact hlater
      have hfind : (first::calls).find? (fun other => other.subscription.id=call.subscription.id)=
          calls.find? (fun other => other.subscription.id=call.subscription.id) :=
        List.find?_cons_of_neg (by rwa [decide_eq_true_iff])
      rw [outcomesOf,hfind]
      exact ih hids.2 hlater

/-- The calls of a finished dispatch are those of `dispatch_event`. -/
theorem calls_finished {system : State H} {generation : Generation} {order : List (Subscription H)}
    {calls : List (HandlerCall H)} (h : LoopFits bs58 system generation ⟨order,[],calls⟩)
    {event : SubscriptionEvent} (hphase : system.processors generation=.dispatching event) :
    dispatchEvent bs58 (outcomesOf calls) event order=calls := by
  obtain ⟨horder,same,passed,hsame,hsplit,hcalls,hevents⟩ := h
  obtain rfl : same=event := ProcessorPhase.dispatching.inj (hsame.symm.trans hphase)
  change order=passed++[] at hsplit
  rw [List.append_nil] at hsplit
  subst hsplit
  have hids : (calls.map fun call => call.subscription.id).Nodup := by
    have hsublist : (calls.map fun call => call.subscription.id).Sublist
        (order.map Subscription.id) := by
      have hmap : (calls.map fun call => call.subscription.id)=
          (calls.map HandlerCall.subscription).map Subscription.id := List.map_map.symm
      rw [hmap,hcalls]
      exact List.filter_sublist.map _
    exact horder.nodup_ids.sublist hsublist
  rw [dispatchEvent_eq,←hcalls,List.map_map]
  conv_rhs => rw [←List.map_id calls]
  refine List.map_congr_left fun call hcall => ?_
  change (⟨call.subscription,same,outcomesOf calls call.subscription.id⟩ : HandlerCall H)=call
  rw [outcomesOf_mem hids hcall,←hevents call hcall]

/-- Only a dispatch that ends amounts to one. -/
theorem no_call_of_trace {action : LockedAction H} (henabled : LockedEnabled state action)
    (hend : ∀ generation,action≠.endDispatch generation) (generation : Generation) :
    ((connectionManager H).steps state.view (trace (state,action))).flatMap
      (callOf bs58 generation)=[] := by
  cases action with
  | plain action =>
    cases action with
    | sendCommand command => exact log_of_defers rfl fun _ => ⟨rfl,rfl,fun _ => rfl⟩
    | dropOwner => exact log_of_defers rfl fun _ => ⟨rfl,rfl,fun _ => rfl⟩
    | dispatch _ _ _ => cases henabled.1
    | _ => rfl
  | takeCommand => exact log_of_defers rfl fun _ => ⟨rfl,rfl,fun _ => rfl⟩
  | acquire => exact log_of_defers rfl fun _ => ⟨rfl,rfl,fun _ => rfl⟩
  | subscribed =>
    obtain ⟨order,request,hstage,_⟩ := next_subscribed bs58 henabled
    simp only [trace,hstage]
    rfl
  | updated accepted =>
    obtain ⟨order,request,hstage,_⟩ := next_updated bs58 henabled
    simp only [trace,hstage]
    rfl
  | endDispatch other => exact absurd rfl (hend other)
  | _ => rfl

/-- Only the steps of `dispatch_event` move its loops. -/
theorem loops_next {action : LockedAction H} (henabled : LockedEnabled state action)
    (hstart : ∀ generation order,action≠.startDispatch generation order)
    (hiterate : ∀ generation outcome,action≠.iterate generation outcome)
    (hend : ∀ generation,action≠.endDispatch generation) :
    (lockedNext bs58 state action).loops=state.loops := by
  cases action with
  | takeCommand =>
    obtain ⟨_,_,_,⟨_,hnext⟩|⟨_,_,hnext⟩⟩ := next_takeCommand bs58 henabled <;> rw [hnext]
  | attemptFailed => rw [next_attemptFailed]
  | listIds subIds =>
    obtain ⟨_,_,_,hnext⟩ := next_listIds bs58 henabled
    rw [hnext]
  | acquire =>
    obtain ⟨_,_,_,hnext⟩ := next_acquire bs58 henabled
    rw [hnext]
  | write =>
    obtain ⟨_,_,_,hnext⟩ := next_write bs58 henabled
    rw [hnext]
    rfl
  | index =>
    obtain ⟨_,_,_,hnext⟩ := next_index bs58 henabled
    rw [hnext]
    rfl
  | finishCommand =>
    obtain ⟨_,_,_,hnext⟩ := next_finishCommand bs58 henabled
    rw [hnext]
  | apply =>
    obtain ⟨_,_,⟨_,_,_,hnext⟩|⟨_,hnext⟩⟩ := next_apply bs58 henabled <;> rw [hnext]
  | subscribed =>
    obtain ⟨_,_,_,_,hnext⟩ := next_subscribed bs58 henabled
    rw [hnext]
  | updated accepted =>
    obtain ⟨_,_,_,_,hnext⟩ := next_updated bs58 henabled
    rw [hnext]
  | startDispatch generation order => exact absurd rfl (hstart generation order)
  | iterate generation outcome => exact absurd rfl (hiterate generation outcome)
  | endDispatch generation => exact absurd rfl (hend generation)
  | _ => rfl

/-- What a processor has called, with what it calls in a step, is what it is seen to
call and what it has called then. -/
theorem call_step (h : Consistent bs58 state) {action : LockedAction H}
    (henabled : LockedEnabled state action) (generation : Generation) :
    callsUnderWay generation state++lockedCall bs58 generation (state,action)=
      ((connectionManager H).steps state.view (trace (state,action))).flatMap
        (callOf bs58 generation)++callsUnderWay generation (lockedNext bs58 state action) := by
  cases action with
  | startDispatch other order =>
    obtain ⟨_,hnone,_⟩ := next_startDispatch henabled
    change callsUnderWay generation state++[]=[]++callsUnderWay generation _
    rw [List.append_nil,List.nil_append]
    change _=match Function.update state.loops other _ generation with
      | some loop => loop.calls
      | none => []
    by_cases hsame : generation=other
    · rw [hsame,Function.update_self,callsUnderWay,hnone]
    · rw [Function.update_of_ne hsame]
      rfl
  | iterate other outcome =>
    obtain ⟨order,subscription,rest,calls,hloop,hnext⟩ := next_iterate bs58 henabled
    obtain ⟨_,event,_,hphase,_⟩ := h.loops other _ hloop
    change _=[]++callsUnderWay generation _
    rw [hnext event hphase,List.nil_append]
    change _=match Function.update state.loops other _ generation with
      | some loop => loop.calls
      | none => []
    by_cases hsame : generation=other
    · rw [hsame,Function.update_self,callsUnderWay,hloop]
      simp only [lockedCall,if_true,hphase,hloop]
    · have hother : lockedCall bs58 generation (state,.iterate other outcome)=[] :=
        if_neg (Ne.symm hsame)
      rw [Function.update_of_ne hsame,hother,List.append_nil]
      rfl
  | endDispatch other =>
    obtain ⟨order,calls,hloop⟩ := next_endDispatch henabled
    obtain ⟨_,event,_,hphase,_⟩ := h.loops other _ hloop
    have hview : state.view.processors other=.dispatching event := hphase
    simp only [trace,hloop]
    change _++[]=(callOf bs58 generation (state.view,.dispatch other order (outcomesOf calls))++[])++
      match Function.update state.loops other none generation with
      | some loop => loop.calls
      | none => []
    rw [List.append_nil,List.append_nil]
    by_cases hsame : generation=other
    · rw [hsame,Function.update_self,callsUnderWay,hloop]
      simp only [callOf,if_true,handlerCalls,hview,List.append_nil]
      exact (calls_finished (h.loops other _ hloop) hphase).symm
    · have hother : callOf bs58 generation (state.view,.dispatch other order (outcomesOf calls))=[] :=
        if_neg (Ne.symm hsame)
      rw [Function.update_of_ne hsame,hother]
      rfl
  | _ =>
    rw [no_call_of_trace henabled (fun _ hsame => by cases hsame),List.nil_append,callsUnderWay,
      callsUnderWay,loops_next henabled (fun _ _ hsame => by cases hsame)
        (fun _ _ hsame => by cases hsame) (fun _ hsame => by cases hsame)]
    exact List.append_nil _

/-- The steps that move commands. -/
def movesCommands : LockedAction H → Bool
  | .plain (.sendCommand _) => true
  | .takeCommand => true
  | .acquire => true
  | _ => false

/-- Other steps leave what is not handled as it is. -/
theorem unhandled_next (h : Consistent bs58 state) {action : LockedAction H}
    (henabled : LockedEnabled state action) (hother : movesCommands action=false) :
    (lockedNext bs58 state action).unhandled=state.unhandled := by
  cases action with
  | plain action =>
    have hcommands := (callers_next henabled.2.1).2.2
    have hsame : commandsAfter state.system.commands action=state.system.commands := by
      cases action with
      | sendCommand command => cases hother
      | receiveCommand => cases henabled.1
      | _ => rfl
    change state.stage.inHand.toList++(next state.system action).commands=_
    rw [hcommands,hsame]
    rfl
  | attemptFailed =>
    have hhand : state.stage.inHand=none := by
      have hfail := henabled.2
      cases hstage : state.stage with
      | outside => rfl
      | built order request => rfl
      | _ =>
        rw [hstage] at hfail
        cases hfail
    -- For any locals, so that the failure branch is not evaluated.
    have hkept : ∀ manager : Manager,LockedState.unhandled
        { state with
          system := { state.system with manager := manager }
          stage := .outside }=state.unhandled := by
      intro manager
      rw [LockedState.unhandled,LockedState.unhandled,hhand]
      rfl
    rw [next_attemptFailed]
    exact hkept _
  | takeCommand => cases hother
  | listIds subIds =>
    obtain ⟨clientId,hstage,_,hnext⟩ := next_listIds bs58 henabled
    rw [hnext,LockedState.unhandled,LockedState.unhandled,hstage]
    rfl
  | acquire => cases hother
  | write =>
    obtain ⟨subs,stage,hwritten,hnext⟩ := next_write bs58 henabled
    obtain ⟨hhand,hhand',_⟩ := written_completes hwritten
    rw [hnext]
    change stage.inHand.toList++state.system.commands=_
    rw [LockedState.unhandled,hhand,hhand']
  | index =>
    obtain ⟨clientSubs,stage,hindexed,hnext⟩ := next_index bs58 henabled
    obtain ⟨hhand,hhand',_⟩ := indexed_completes hindexed
    rw [hnext]
    change stage.inHand.toList++state.system.commands=_
    rw [LockedState.unhandled,hhand,hhand']
  | finishCommand =>
    obtain ⟨command,flagged,hstage,hnext⟩ := next_finishCommand bs58 henabled
    rw [hnext,LockedState.unhandled,LockedState.unhandled,hstage]
    rfl
  | startBuilding order =>
    rw [LockedState.unhandled,LockedState.unhandled,eq_outside henabled.2.1]
    rfl
  | apply =>
    obtain ⟨_,_,⟨_,_,hstage,hnext⟩|⟨hstage,hnext⟩⟩ := next_apply bs58 henabled
    · rw [hnext,LockedState.unhandled,LockedState.unhandled,hstage]
      rfl
    · rw [hnext,LockedState.unhandled,LockedState.unhandled,hstage]
      rfl
  | subscribed =>
    obtain ⟨_,_,hstage,_,hnext⟩ := next_subscribed bs58 henabled
    rw [hnext,LockedState.unhandled,LockedState.unhandled,hstage]
    rfl
  | updated accepted =>
    obtain ⟨_,_,hstage,_,hnext⟩ := next_updated bs58 henabled
    rw [hnext,LockedState.unhandled,LockedState.unhandled,hstage]
    rfl
  | startDispatch generation order => rfl
  | iterate generation outcome =>
    obtain ⟨_,_,_,_,hloop,hnext⟩ := next_iterate bs58 henabled
    obtain ⟨_,event,_,hphase,_⟩ := h.loops generation _ hloop
    rw [hnext event hphase]
    rfl
  | endDispatch generation => rfl

/-- Outside the handling of a command nothing is still to be sent. -/
theorem overflow_eq_nil (hhand : state.stage.inHand=none)
    (hcapacity : state.system.commands.length ≤ channelCapacity) : state.overflow=[] := by
  rw [LockedState.overflow,LockedState.unhandled,hhand]
  exact List.drop_eq_nil_of_le hcapacity

/-- What is still to be sent, with what is sent in a step, is what it is seen to send
and what is still to be sent then. -/
theorem send_step (h : Consistent bs58 state) {action : LockedAction H}
    (henabled : LockedEnabled state action) :
    state.overflow++lockedSend (state,action)=
      sentCommands (trace (state,action))++(lockedNext bs58 state action).overflow := by
  cases hmoves : movesCommands action with
  | false =>
    have hkept : (lockedNext bs58 state action).overflow=state.overflow :=
      congrArg (List.drop channelCapacity) (unhandled_next h henabled hmoves)
    have hnothing : lockedSend (state,action)=[] ∧ sentCommands (trace (state,action))=[] := by
      cases action with
      | plain action =>
        cases action with
        | sendCommand command => cases hmoves
        | dropOwner =>
          refine ⟨rfl,?_⟩
          change sentCommands (if _ then [Action.dropOwner] else [])=[]
          split <;> rfl
        | _ => exact ⟨rfl,rfl⟩
      | takeCommand => cases hmoves
      | acquire => cases hmoves
      | subscribed =>
        obtain ⟨_,_,hstage,_⟩ := next_subscribed bs58 henabled
        refine ⟨rfl,?_⟩
        simp only [trace,hstage]
        rfl
      | updated accepted =>
        obtain ⟨_,_,hstage,_⟩ := next_updated bs58 henabled
        refine ⟨rfl,?_⟩
        simp only [trace,hstage]
        rfl
      | endDispatch generation =>
        obtain ⟨_,_,hloop⟩ := next_endDispatch henabled
        refine ⟨rfl,?_⟩
        simp only [trace,hloop]
        rfl
      | _ => exact ⟨rfl,rfl⟩
    rw [hkept,hnothing.1,hnothing.2,List.append_nil,List.nil_append]
  | true =>
    cases action with
    | plain action =>
      cases action with
      | sendCommand command =>
        have hunhandled : (lockedNext bs58 state (.plain (.sendCommand command))).unhandled=
            state.unhandled++[command] := (List.append_assoc _ _ _).symm
        change state.overflow++[command]=
          sentCommands (if state.unhandled.length < channelCapacity then
            [.sendCommand command] else [])++_
        rw [LockedState.overflow,LockedState.overflow,hunhandled]
        split
        · rename_i hroom
          rw [List.drop_eq_nil_of_le (Nat.le_of_lt hroom),List.drop_eq_nil_of_le]
          · rfl
          · rw [List.length_append,List.length_singleton]
            exact hroom
        · rename_i hfull
          rw [List.drop_append_of_le_length (Nat.le_of_not_lt hfull)]
          rfl
      | _ => cases hmoves
    | takeCommand =>
      have houtside := eq_outside henabled.2
      have hbefore : state.overflow=[] := by
        refine overflow_eq_nil ?_ h.capacity
        rw [houtside]
        rfl
      obtain ⟨command,rest,hcommands,hshape⟩ := next_takeCommand bs58 henabled
      have hsilent : sentCommands (trace (state,.takeCommand))=[] := by
        simp only [trace,hcommands]
        split <;> rfl
      have hcapacity := h.capacity
      rw [hcommands,List.length_cons] at hcapacity
      have hafter : (lockedNext bs58 state .takeCommand).overflow=[] := by
        rcases hshape with ⟨_,hnext⟩|⟨stage,htaken,hnext⟩
        · rw [hnext]
          refine overflow_eq_nil ?_ (Nat.le_of_succ_le hcapacity)
          change state.stage.inHand=none
          rw [houtside]
          rfl
        · rw [hnext,LockedState.overflow,LockedState.unhandled,(taken_cases htaken).2.1]
          exact List.drop_eq_nil_of_le hcapacity
      rw [hbefore,hsilent,hafter]
      rfl
    | acquire =>
      obtain ⟨stage,hbegun,_,hnext⟩ := next_acquire bs58 henabled
      obtain ⟨_,_,_,_,_,hhand,_⟩ := begun_handles hbegun h.stage
      have hafter : (lockedNext bs58 state .acquire).overflow=[] := by
        rw [hnext]
        exact overflow_eq_nil hhand h.capacity
      have hsends : ∀ commands : List (ManagerCommand H),
          sentCommands (commands.map .sendCommand)=commands := by
        intro commands
        rw [sentCommands,List.filterMap_map]
        exact List.filterMap_some
      rw [hafter,List.append_nil]
      change state.overflow++[]=sentCommands (.receiveCommand::(_++if _ then [] else [_]))
      rw [List.append_nil,sentCommands,List.filterMap_cons_none rfl,List.filterMap_append]
      change _=sentCommands _++sentCommands _
      rw [hsends]
      split <;> exact (List.append_nil _).symm
    | _ => cases hmoves

end Logs

section Forward

variable {bs58 : Bytes → String}

/-- What is sent in a run is what its steps send. -/
theorem flatMap_sends (start : State H) (actions : List (Action H)) :
    ((connectionManager H).steps start actions).flatMap (fun step => sentCommands [step.2])=
      sentCommands actions := by
  induction actions generalizing start with
  | nil => rfl
  | cons action actions ih =>
    rw [System.steps,List.flatMap_cons,ih]
    exact (sentCommands_append [action] actions).symm

/-- A run at the grain of the locks is seen as a run of the manager system. -/
structure SeenAs (bs58 : Bytes → String) (start : State H) (actions : List (LockedAction H))
    (seen : List (Action H)) : Prop where
  /-- It is one. -/
  legal : (connectionManager H).Legal start seen
  /-- It ends in the view of where the run ends. -/
  final : (connectionManager H).final start seen=
    ((lockedManager bs58).final (.quiet start) actions).view
  /-- Where the manager is in no critical section, this is where the run really ends. -/
  outside : ((lockedManager bs58).final (.quiet start) actions).stage.isOutside=true →
    ((lockedManager bs58).final (.quiet start) actions).system=
      (connectionManager H).final start seen
  /-- The same requests are written on the same connections in the same order. -/
  requests : lockedWire bs58 (.quiet start) actions=wire start seen
  /-- Each processor makes the same handler calls, but for those of a dispatch it is
  still in. -/
  calls : ∀ generation,lockedCalls bs58 generation (.quiet start) actions=
    callsOf bs58 generation start seen++
      callsUnderWay generation ((lockedManager bs58).final (.quiet start) actions)
  /-- The same commands are sent, but for one that a command in hand made room for. -/
  sends : lockedSends bs58 (.quiet start) actions=sentCommands seen++
    ((lockedManager bs58).final (.quiet start) actions).overflow

/-- Every run at the grain of the locks is seen as one of the manager system. -/
theorem seenAs_trace {start : State H} (hinit : (connectionManager H).initial start)
    {actions : List (LockedAction H)} (hrun : (lockedManager bs58).Legal (.quiet start) actions) :
    SeenAs bs58 start actions
      (((lockedManager bs58).steps (.quiet start) actions).flatMap trace) := by
  have hreach : (lockedManager (H:=H) bs58).Reachable (.quiet start) :=
    System.Reachable.start ⟨start,hinit,rfl⟩
  have hview : (LockedState.quiet start).view=start := by
    obtain ⟨clock,rfl⟩ := initial_iff.mp hinit
    exact view_outside _ _ _ (Nat.zero_le _)
  have hstep : ∀ state action,(lockedManager (H:=H) bs58).Reachable state →
      LockedEnabled state action → (connectionManager H).Legal state.view (trace (state,action)) ∧
      (connectionManager H).final state.view (trace (state,action))=
        (lockedNext bs58 state action).view := fun state action hreached henabled =>
    simulates (consistent_of_reachable hreached).1 henabled
  obtain ⟨hlegal,hfinal⟩ := legal_flatMap_steps LockedState.view trace hstep hreach hrun
  have hends := (consistent_of_reachable (hreach.run hrun)).1
  have hrequests := log_flatMap_steps LockedState.view trace (fun _ => []) lockedRequest
    (fun step : State H × Action H => (requestOf step).toList)
    (fun state action hreached henabled => ⟨(hstep state action hreached henabled).2,by
      rw [List.nil_append,List.append_nil]
      exact request_step (consistent_of_reachable hreached).1 henabled⟩) hreach hrun
  have hcalls := fun generation => log_flatMap_steps LockedState.view trace
    (callsUnderWay generation) (lockedCall bs58 generation) (callOf bs58 generation)
    (fun state action hreached henabled => ⟨(hstep state action hreached henabled).2,
      call_step (consistent_of_reachable hreached).1 henabled generation⟩) hreach hrun
  have hsends := log_flatMap_steps LockedState.view trace LockedState.overflow lockedSend
    (fun step : State H × Action H => sentCommands [step.2])
    (fun state action hreached henabled => ⟨(hstep state action hreached henabled).2,by
      rw [flatMap_sends]
      exact send_step (consistent_of_reachable hreached).1 henabled⟩) hreach hrun
  have hnothing : (LockedState.quiet start).overflow=[] :=
    overflow_eq_nil rfl (consistent_of_reachable hreach).1.capacity
  rw [hview] at hlegal hfinal hrequests hcalls hsends
  refine ⟨hlegal,hfinal,fun houtside => ?_,?_,hcalls,?_⟩
  · have hstage := eq_outside houtside
    rw [hfinal]
    refine (view_eq ?_ ?_ hends.capacity).symm
    · rw [hstage]
      rfl
    · rw [hstage]
      rfl
  · rw [List.nil_append,List.append_nil] at hrequests
    rw [lockedWire,hrequests,wire,List.filterMap_eq_flatMap_toList]
  · rw [hnothing,List.nil_append,flatMap_sends] at hsends
    exact hsends

end Forward

section Backward

variable {bs58 : Bytes → String}

/-- A run between two states, with what is seen of it. -/
structure Leads (bs58 : Bytes → String) (first : LockedState H) (actions : List (LockedAction H))
    (last : LockedState H) (requests : List (Generation × SubscribeRequest))
    (calls : Generation → List (HandlerCall H)) (sends : List (ManagerCommand H)) : Prop where
  /-- It is a run. -/
  legal : (lockedManager bs58).Legal first actions
  /-- It leads from the one to the other. -/
  final : (lockedManager bs58).final first actions=last
  /-- These requests are written. -/
  requests : lockedWire bs58 first actions=requests
  /-- These handler calls are made. -/
  calls : ∀ generation,lockedCalls bs58 generation first actions=calls generation
  /-- These commands are sent. -/
  sends : lockedSends bs58 first actions=sends

/-- A run of which nothing is seen. -/
def LeadsSilently (bs58 : Bytes → String) (first : LockedState H) (actions : List (LockedAction H))
    (last : LockedState H) : Prop := Leads bs58 first actions last [] (fun _ => []) []

/-- One run after the other. -/
theorem Leads.append {first mid last : LockedState H} {earlier later : List (LockedAction H)}
    {requests requests' : List (Generation × SubscribeRequest)}
    {calls calls' : Generation → List (HandlerCall H)} {sends sends' : List (ManagerCommand H)}
    (h : Leads bs58 first earlier mid requests calls sends)
    (h' : Leads bs58 mid later last requests' calls' sends') :
    Leads bs58 first (earlier++later) last (requests++requests')
      (fun generation => calls generation++calls' generation) (sends++sends') where
  legal := legal_append.mpr ⟨h.legal,by
    rw [h.final]
    exact h'.legal⟩
  final := by
    rw [final_append,h.final,h'.final]
  requests := by
    rw [lockedWire,steps_append,List.flatMap_append,h.final]
    exact congrArg₂ _ h.requests h'.requests
  calls := fun generation => by
    rw [lockedCalls,steps_append,List.flatMap_append,h.final]
    exact congrArg₂ _ (h.calls generation) (h'.calls generation)
  sends := by
    rw [lockedSends,steps_append,List.flatMap_append,h.final]
    exact congrArg₂ _ h.sends h'.sends

/-- One step. -/
theorem Leads.one {first last : LockedState H} {action : LockedAction H}
    (henabled : LockedEnabled first action) (hnext : lockedNext bs58 first action=last) :
    Leads bs58 first [action] last (lockedRequest (first,action))
      (fun generation => lockedCall bs58 generation (first,action)) (lockedSend (first,action)) :=
  ⟨⟨henabled,trivial⟩,hnext,List.append_nil _,fun _ => List.append_nil _,List.append_nil _⟩

theorem LeadsSilently.append {first mid last : LockedState H}
    {earlier later : List (LockedAction H)} (h : LeadsSilently bs58 first earlier mid)
    (h' : LeadsSilently bs58 mid later last) : LeadsSilently bs58 first (earlier++later) last :=
  Leads.append h h'

/-- The manager builds a request from what is registered. -/
theorem leads_build {system : State H} {order : List (Subscription H)}
    (hphase : system.manager.phase=.attempting ∨ system.manager.phase=.updating)
    (horder : system.registry.subscriptions.IterationOrder order) :
    LeadsSilently bs58 (.quiet system)
      (.startBuilding order::(order.map fun _ => .apply)++[.apply])
      ⟨system,.free,.built order (buildSubscribeRequest order),fun _ => none⟩ := by
  have happlied : ∀ (rest : List (Subscription H)) (maps : RequestMaps)
      (lock : RwLock Holder),
      LeadsSilently bs58 ⟨system,lock,.building order rest maps,fun _ => none⟩
        (rest.map fun _ => .apply)
        ⟨system,lock,.building order [] (rest.foldl applyToRequest maps),fun _ => none⟩ := by
    intro rest
    induction rest with
    | nil => exact fun maps lock => ⟨trivial,rfl,rfl,fun _ => rfl,rfl⟩
    | cons subscription rest ih =>
      intro maps lock
      have hfirst : LeadsSilently bs58
          ⟨system,lock,.building order (subscription::rest) maps,fun _ => none⟩ [.apply]
          ⟨system,lock,.building order rest (applyToRequest maps subscription),fun _ => none⟩ :=
        Leads.one rfl rfl
      exact hfirst.append (ih (applyToRequest maps subscription) lock)
  have hstart : LeadsSilently bs58 (.quiet system) [.startBuilding order]
      ⟨system,RwLock.free.read .manager,.building order order .empty,fun _ => none⟩ :=
    Leads.one ⟨hphase,rfl,rfl,horder⟩ rfl
  have hend : LeadsSilently bs58
      ⟨system,RwLock.free.read .manager,.building order [] (order.foldl applyToRequest .empty),
        fun _ => none⟩ [.apply]
      ⟨system,.free,.built order (buildSubscribeRequest order),fun _ => none⟩ := by
    refine Leads.one rfl ?_
    change LockedState.mk system ((RwLock.free.read .manager).release .manager) _ _=_
    rw [RwLock.release_read RwLock.canWrite_free.canRead (Finset.notMem_empty _),requestOfMaps_foldl]
  exact (hstart.append (happlied order .empty _)).append hend

/-- The manager takes a command other than the shutdown. -/
theorem leads_take {system : State H} {command : ManagerCommand H}
    {rest : List (ManagerCommand H)} {stage : Stage H} (hphase : system.manager.phase=.selecting)
    (hcommands : system.commands=command::rest) (htaken : Stage.taken command=some stage) :
    LeadsSilently bs58 (.quiet system) [.takeCommand]
      ⟨{ system with commands := rest },.free,stage,fun _ => none⟩ := by
  refine Leads.one ⟨⟨hphase,?_⟩,rfl⟩ ?_
  · change system.commands≠[]
    rw [hcommands]
    exact List.cons_ne_nil _ _
  · simp only [lockedNext,LockedState.quiet,hcommands,htaken]

/-- It gets the write guard. -/
theorem leads_acquire (system : State H) (stage : Stage H) {stage' : Stage H}
    (h : stage.begun=some stage') :
    LeadsSilently bs58 ⟨system,.free,stage,fun _ => none⟩ [.acquire]
      ⟨system,RwLock.free.write .manager,stage',fun _ => none⟩ := by
  refine Leads.one ⟨?_,RwLock.canWrite_free⟩ ?_
  · rw [h]
    rfl
  · simp only [lockedNext,h]

/-- It writes for the last time and gives the guard back. -/
theorem leads_write {system : State H} {stage stage' : Stage H} {subs : SubscriptionMap H}
    (h : stage.written system.registry.subscriptions=some (subs,stage'))
    (hlast : stage'.writes=false) :
    LeadsSilently bs58 ⟨system,RwLock.free.write .manager,stage,fun _ => none⟩ [.write]
      ⟨{ system with registry := { system.registry with subscriptions := subs } },.free,stage',
        fun _ => none⟩ := by
  refine Leads.one ?_ ?_
  · change (stage.written system.registry.subscriptions).isSome=true
    rw [h]
    rfl
  · simp only [lockedNext,h,LockedState.leaveFor,hlast]
    change LockedState.mk _ ((RwLock.free.write .manager).release .manager) _ _=_
    rw [RwLock.release_write RwLock.canWrite_free]
    rfl

/-- It finishes the command. -/
theorem leads_finish (system : State H) (command : ManagerCommand H) (flagged : Bool) :
    LeadsSilently bs58 ⟨system,.free,.handled command flagged,fun _ => none⟩ [.finishCommand]
      (.quiet { system with manager := system.manager.afterCommand command flagged }) :=
  Leads.one trivial rfl

/-- It writes the index and finishes the command. -/
theorem leads_index {system : State H} {stage : Stage H} {command : ManagerCommand H}
    {flagged : Bool} {clientSubs : Finmap fun _ : String => Finset SubscriptionId}
    (h : stage.indexed system.registry=some (clientSubs,.handled command flagged)) :
    LeadsSilently bs58 ⟨system,.free,stage,fun _ => none⟩ [.index,.finishCommand]
      (.quiet { system with
        registry := { system.registry with clientSubscriptions := clientSubs }
        manager := system.manager.afterCommand command flagged }) := by
  have hindex : LeadsSilently bs58 ⟨system,.free,stage,fun _ => none⟩ [.index]
      ⟨{ system with registry := { system.registry with clientSubscriptions := clientSubs } },
        .free,.handled command flagged,fun _ => none⟩ := by
    refine Leads.one ?_ ?_
    · change (stage.indexed system.registry).isSome=true
      rw [h]
      rfl
    · simp only [lockedNext,h]
      rfl
  exact hindex.append (leads_finish _ _ _)

/-- It removes the identifiers that it has collected one by one. -/
theorem leads_eraseEach (system : State H) (clientId : String)
    (subIds rest : List SubscriptionId) :
    LeadsSilently bs58
      ⟨system,RwLock.free.write .manager,.erasingEach clientId subIds rest,fun _ => none⟩
      (rest.map fun _ => .write)
      ⟨{ system with
          registry :=
            { system.registry with
              subscriptions := rest.foldl SubscriptionMap.remove system.registry.subscriptions } },
        RwLock.free.write .manager,.erasingEach clientId subIds [],fun _ => none⟩ := by
  induction rest generalizing system with
  | nil => exact ⟨trivial,rfl,rfl,fun _ => rfl,rfl⟩
  | cons subId rest ih =>
    have hfirst : LeadsSilently bs58
        ⟨system,RwLock.free.write .manager,.erasingEach clientId subIds (subId::rest),
          fun _ => none⟩ [.write]
        ⟨{ system with
            registry :=
              { system.registry with
                subscriptions := system.registry.subscriptions.remove subId } },
          RwLock.free.write .manager,.erasingEach clientId subIds rest,fun _ => none⟩ :=
      Leads.one rfl rfl
    exact hfirst.append (ih _)

/-- The manager takes and handles a command. -/
theorem leads_receiveCommand {system : State H} (henabled : Enabled system .receiveCommand) :
    ∃ actions,LeadsSilently bs58 (.quiet system) actions (.quiet (next system .receiveCommand)) := by
  obtain ⟨command,rest,hcommands,hnext⟩ := next_receiveCommand henabled
  have htake : ∀ stage,Stage.taken command=some stage → LeadsSilently bs58 (.quiet system)
      [.takeCommand] ⟨{ system with commands := rest },.free,stage,fun _ => none⟩ :=
    fun stage htaken => leads_take henabled.1 hcommands htaken
  rw [hnext]
  cases command with
  | shutdown =>
    refine ⟨[.takeCommand],Leads.one ⟨henabled,rfl⟩ ?_⟩
    simp only [lockedNext,LockedState.quiet,hcommands,Stage.taken]
    rfl
  | addSubscription subscription =>
    exact ⟨_,(((htake _ rfl).append (leads_acquire _ _ rfl)).append (leads_write rfl rfl)).append
      (leads_index rfl)⟩
  | removeSubscription subId =>
    have hbegun : LeadsSilently bs58 (.quiet system) [.takeCommand,.acquire]
        ⟨{ system with commands := rest },RwLock.free.write .manager,.erasing subId,
          fun _ => none⟩ := (htake _ rfl).append (leads_acquire _ _ rfl)
    cases hlookup : system.registry.subscriptions.lookup subId with
    | none =>
      have hwritten : LeadsSilently bs58
          ⟨{ system with commands := rest },RwLock.free.write .manager,.erasing subId,
            fun _ => none⟩ [.write]
          ⟨{ system with
              commands := rest
              registry :=
                { system.registry with
                  subscriptions := system.registry.subscriptions.remove subId } },
            .free,.handled (.removeSubscription subId) true,fun _ => none⟩ := by
        refine leads_write ?_ rfl
        simp only [Stage.written,hlookup]
      have hhandled : system.registry.handle (.removeSubscription subId)=
          ({ system.registry with
              subscriptions := system.registry.subscriptions.remove subId },true) := by
        simp only [Registry.handle,Registry.removeSubscription,hlookup]
      rw [hhandled]
      exact ⟨_,(hbegun.append hwritten).append (leads_finish _ _ _)⟩
    | some removed =>
      have hwritten : LeadsSilently bs58
          ⟨{ system with commands := rest },RwLock.free.write .manager,.erasing subId,
            fun _ => none⟩ [.write]
          ⟨{ system with
              commands := rest
              registry :=
                { system.registry with
                  subscriptions := system.registry.subscriptions.remove subId } },
            .free,.unlisting removed.clientId subId,fun _ => none⟩ := by
        refine leads_write ?_ rfl
        simp only [Stage.written,hlookup]
      have hhandled : system.registry.handle (.removeSubscription subId)=
          (⟨system.registry.subscriptions.remove subId,
            Registry.unlist system.registry.clientSubscriptions removed.clientId subId⟩,true) := by
        simp only [Registry.handle,Registry.removeSubscription,hlookup]
      rw [hhandled]
      exact ⟨_,(hbegun.append hwritten).append (leads_index rfl)⟩
  | removeClientSubscriptions clientId =>
    obtain ⟨subIds,hids⟩ := Quotient.exists_rep (system.registry.idsOf clientId).val
    change (subIds : Multiset SubscriptionId)=_ at hids
    have hlisted : LeadsSilently bs58
        ⟨{ system with commands := rest },.free,.listing clientId,fun _ => none⟩ [.listIds subIds]
        ⟨{ system with commands := rest },.free,.clearing clientId subIds,fun _ => none⟩ :=
      Leads.one hids rfl
    have hbegun := ((htake _ rfl).append hlisted).append (leads_acquire _ _ rfl)
    have herased := hbegun.append (leads_eraseEach _ clientId subIds subIds)
    have hbegins : (Stage.clearing (H:=H) clientId subIds).begun=
        some (.erasingEach clientId subIds subIds) := rfl
    obtain ⟨command,flagged,hhand,_,_,_,hway,_,hhandle⟩ :=
      begun_handles hbegins ⟨henabled.1,hids⟩
    cases hhand
    cases hway
    rw [hhandle]
    exact ⟨_,(herased.append (leads_write rfl rfl)).append (leads_index rfl)⟩

/-- A processor dispatches an event. -/
theorem leads_dispatch {system : State H} {generation : Generation} {order : List (Subscription H)}
    {outcome : SubscriptionId → Except String Unit}
    (henabled : Enabled system (.dispatch generation order outcome)) :
    ∃ actions,Leads bs58 (.quiet system) actions
      (.quiet (next system (.dispatch generation order outcome))) []
      (fun other => callOf bs58 other (system,.dispatch generation order outcome)) [] := by
  obtain ⟨event,hphase,horder⟩ := dispatching_of_dispatch henabled
  have hcalled : ∀ (rest : List (Subscription H)) (calls : List (HandlerCall H))
      (lock : RwLock Holder) (loops : Generation → Option (Loop H)),
      Leads bs58
        ⟨system,lock,.outside,Function.update loops generation (some ⟨order,rest,calls⟩)⟩
        (rest.map fun subscription => .iterate generation (outcome subscription.id))
        ⟨system,lock,.outside,Function.update loops generation
          (some ⟨order,[],calls++dispatchEvent bs58 outcome event rest⟩)⟩ []
        (fun other => if generation=other then dispatchEvent bs58 outcome event rest else []) [] := by
    intro rest
    induction rest with
    | nil =>
      intro calls lock loops
      refine ⟨trivial,?_,rfl,fun other => ?_,rfl⟩
      · change LockedState.mk _ _ _ _=_
        rw [dispatchEvent,List.append_nil]
      · change []=if generation=other then [] else []
        rw [ite_self]
    | cons subscription rest ih =>
      intro calls lock loops
      have htried : dispatchEvent bs58 outcome event (subscription::rest)=
          tried bs58 event subscription (outcome subscription.id)++
            dispatchEvent bs58 outcome event rest := by
        rw [dispatchEvent,tried]
        split
        · cases outcome subscription.id <;> rfl
        · rfl
      have hfirst : Leads bs58
          ⟨system,lock,.outside,
            Function.update loops generation (some ⟨order,subscription::rest,calls⟩)⟩
          [.iterate generation (outcome subscription.id)]
          ⟨system,lock,.outside,Function.update loops generation
            (some ⟨order,rest,calls++tried bs58 event subscription (outcome subscription.id)⟩)⟩ []
          (fun other => if generation=other then
            tried bs58 event subscription (outcome subscription.id) else []) [] := by
        have hone : Leads bs58
            ⟨system,lock,.outside,
              Function.update loops generation (some ⟨order,subscription::rest,calls⟩)⟩
            [.iterate generation (outcome subscription.id)] _ _ _ _ :=
          Leads.one (by simp only [LockedEnabled,Function.update_self]) rfl
        refine ⟨hone.legal,hone.final.trans ?_,hone.requests,fun other => (hone.calls other).trans ?_,
          hone.sends⟩
        · simp only [lockedNext,hphase,Function.update_self,Function.update_idem]
        · simp only [lockedCall,hphase,Function.update_self]
      have hboth := hfirst.append (ih (calls++tried bs58 event subscription (outcome subscription.id))
        lock loops)
      refine ⟨hboth.legal,hboth.final.trans ?_,hboth.requests,fun other => (hboth.calls other).trans ?_,
        hboth.sends⟩
      · rw [htried,List.append_assoc]
      · rw [htried]
        split <;> rfl
  have hstart : LeadsSilently bs58 (.quiet system) [.startDispatch generation order]
      ⟨system,RwLock.free.read (.processor generation),.outside,
        Function.update (fun _ => none) generation (some ⟨order,order,[]⟩)⟩ := by
    refine Leads.one ?_ rfl
    simp only [LockedEnabled,LockedState.quiet,hphase]
    exact ⟨trivial,RwLock.canWrite_free.canRead,horder⟩
  have hend : LeadsSilently bs58
      ⟨system,RwLock.free.read (.processor generation),.outside,
        Function.update (fun _ => none) generation
          (some ⟨order,[],[]++dispatchEvent bs58 outcome event order⟩)⟩
      [.endDispatch generation] (.quiet (system.setProcessor generation .reading)) := by
    refine Leads.one ?_ ?_
    · simp only [LockedEnabled,Function.update_self]
    · change LockedState.mk _ ((RwLock.free.read _).release _) _ _=_
      rw [RwLock.release_read RwLock.canWrite_free.canRead (Finset.notMem_empty _)]
      simp only [Function.update_idem,Function.update_eq_self]
      rfl
  have hall := (Leads.append hstart (hcalled order [] _ _)).append hend
  refine ⟨_,hall.legal,hall.final,hall.requests,fun other => (hall.calls other).trans ?_,hall.sends⟩
  simp only [List.nil_append,List.append_nil,callOf,handlerCalls,hphase]

/-- A step that concerns neither map is taken as it is. -/
theorem leads_plain {system : State H} {action : Action H} (hplain : isPlain action=true)
    (henabled : Enabled system action) :
    Leads bs58 (.quiet system) [.plain action] (.quiet (next system action))
      (requestOf (system,action)).toList (fun generation => callOf bs58 generation (system,action))
      (sentCommands [action]) := by
  have henabled' : LockedEnabled (.quiet system) (.plain action) := ⟨hplain,henabled,fun _ => rfl⟩
  have hone : Leads bs58 (.quiet system) [.plain action] (.quiet (next system action)) _ _ _ :=
    Leads.one henabled' rfl
  refine ⟨hone.legal,hone.final,hone.requests,fun generation => (hone.calls generation).trans ?_,
    hone.sends.trans ?_⟩
  · cases action with
    | dispatch _ _ _ => cases hplain
    | _ => rfl
  · cases action <;> rfl

/-- Every step of the manager system can be taken at the grain of the locks. -/
theorem leads_step (bs58 : Bytes → String) {system : State H} {action : Action H}
    (henabled : Enabled system action) :
    ∃ actions,Leads bs58 (.quiet system) actions (.quiet (next system action))
      (requestOf (system,action)).toList (fun generation => callOf bs58 generation (system,action))
      (sentCommands [action]) := by
  cases action with
  | connectFailed =>
    have henabled' : LockedEnabled (.quiet system) .attemptFailed := ⟨henabled,rfl⟩
    refine ⟨[.attemptFailed],Leads.one henabled' ?_⟩
    rw [next_attemptFailed,next_connectFailed]
    rfl
  | connectSucceeded order =>
    have hsubscribed : Leads bs58
        ⟨system,.free,.built order (buildSubscribeRequest order),fun _ => none⟩ [.subscribed]
        (.quiet (next system (.connectSucceeded order)))
        [(system.nextGeneration,buildSubscribeRequest order)] (fun _ => []) [] :=
      Leads.one henabled.1 rfl
    exact ⟨_,Leads.append (leads_build (Or.inl henabled.1) henabled.2) hsubscribed⟩
  | receiveCommand => exact leads_receiveCommand henabled
  | sendUpdate order accepted =>
    have hupdated : Leads bs58
        ⟨system,.free,.built order (buildSubscribeRequest order),fun _ => none⟩
        [.updated accepted] (.quiet (next system (.sendUpdate order accepted)))
        (requestOf (system,.sendUpdate order accepted)).toList (fun _ => []) [] := by
      cases accepted with
      | true => exact Leads.one henabled.1 rfl
      | false => exact Leads.one henabled.1 rfl
    exact ⟨_,Leads.append (leads_build (Or.inr henabled.1) henabled.2) hupdated⟩
  | dispatch generation order outcome => exact leads_dispatch henabled
  | _ => exact ⟨_,leads_plain rfl henabled⟩

/-- So can every run. -/
theorem leads_run (bs58 : Bytes → String) {start : State H} {coarse : List (Action H)}
    (hrun : (connectionManager H).Legal start coarse) :
    ∃ actions,Leads bs58 (.quiet start) actions (.quiet ((connectionManager H).final start coarse))
      (wire start coarse) (fun generation => callsOf bs58 generation start coarse)
      (sentCommands coarse) := by
  refine System.Legal.run_induction (P := fun coarse => ∃ actions,Leads bs58 (.quiet start) actions
    (.quiet ((connectionManager H).final start coarse)) (wire start coarse)
    (fun generation => callsOf bs58 generation start coarse) (sentCommands coarse)) ?_ ?_ hrun
  · exact ⟨[],trivial,rfl,rfl,fun _ => rfl,rfl⟩
  · intro history action _ ⟨earlier,hearlier⟩ henabled
    obtain ⟨later,hlater⟩ := leads_step bs58 henabled
    have hall := hearlier.append hlater
    refine ⟨earlier++later,hall.legal,?_,?_,fun generation => ?_,?_⟩
    · rw [hall.final,final_append]
      rfl
    · rw [hall.requests,wire_snoc]
    · rw [hall.calls,callsOf,callsOf,steps_snoc,List.flatMap_append,List.flatMap_singleton]
    · rw [hall.sends,sentCommands_append]

end Backward

/-- Both grains show the same. -/
structure SameAtBothGrains (bs58 : Bytes → String) (start : State H) : Prop where
  /-- What happens at the grain of the locks is seen as a run of the manager system. -/
  seen : ∀ actions,(lockedManager bs58).Legal (.quiet start) actions →
    ∃ seen,SeenAs bs58 start actions seen
  /-- Every run of the manager system can happen at the grain of the locks. -/
  taken : ∀ coarse,(connectionManager H).Legal start coarse →
    ∃ actions,Leads bs58 (.quiet start) actions (.quiet ((connectionManager H).final start coarse))
      (wire start coarse) (fun generation => callsOf bs58 generation start coarse)
      (sentCommands coarse)

/-- Handling a command, building a request and dispatching an event can be taken for
one step each, whatever other tasks do while the manager waits for its guards. -/
theorem critical_sections_are_atomic (bs58 : Bytes → String) {start : State H}
    (hinit : (connectionManager H).initial start) : SameAtBothGrains bs58 start :=
  ⟨fun _ hrun => ⟨_,seenAs_trace hinit hrun⟩,fun _ hrun => leads_run bs58 hrun⟩

/-- A processor dispatches a slot while the removal of its subscriber is in hand, and
the channel fills up behind it. -/
def overtakenRun : List (LockedAction Unit) :=
  [.plain (.sendCommand (.addSubscription ⟨⟨1⟩,"a",.slots ⟨[]⟩,⟨"a",()⟩⟩)),
    .plain (.sendCommand (.removeClientSubscriptions "a")),.plain .enterLoop,
    .startBuilding [],.apply,.subscribed,.plain .recordConnection,.takeCommand,.acquire,.write,
    .index,.finishCommand,.startBuilding [⟨⟨1⟩,"a",.slots ⟨[]⟩,⟨"a",()⟩⟩],.apply,.apply,
    .updated true,.plain .enterLoop,.takeCommand,.listIds [⟨1⟩],
    .plain (.receiveItem 0 (.ok ⟨some (.slot 7)⟩)),
    .startDispatch 0 [⟨⟨1⟩,"a",.slots ⟨[]⟩,⟨"a",()⟩⟩],.plain (.sendCommand .shutdown),
    .iterate 0 (.ok ()),.endDispatch 0,.acquire,.write,.write,.index,.finishCommand]

theorem critical_sections_are_atomic_overtakenRun :
    ∃ seen,SeenAs Base58.encode (.start 0) overtakenRun seen :=
  (critical_sections_are_atomic Base58.encode ⟨"e","t",0,rfl⟩).seen overtakenRun (by decide)

end SteamHandler.LockGrain
