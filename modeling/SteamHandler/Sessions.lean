import SteamHandler.Supervision
import SteamHandler.ServerView

/-!
# Connections as supervised sessions

The manager supervises the connections it makes, with the stream processors as
detached workers and the stream-event channel as the queue of notices. The
view forgets items, commands, filters, pings and every delay; what is left is
a supervisor in the sense of the library, whose results on lost notices,
foreign notices and concurrent workers are read back here.
-/

namespace SteamHandler.Sessions

open Messages Subscriptions SubscriptionRegistry Dispatch ConnectionManager ServerView
open TransitionSystem
open Supervision (Worker Notice supervision)

variable {H : Type}

/-- A processor phase as a phase of a worker: after an error item two terminal
events are owed, after the end of the stream one. -/
def workerOf : ProcessorPhase → Worker
  | .unspawned => .unspawned
  | .reading => .serving
  | .dispatching _ => .serving
  | .sending .pingReceived => .serving
  | .sending (.connectionError _) => .leaving 2
  | .sending .connectionClosed => .leaving 1
  | .terminated => .leaving 0

/-- A terminal event as a notice; a ping is none. -/
def noticeOf (sent : SentEvent) : Option Notice :=
  match sent.event with
  | .connectionClosed => some ⟨sent.sender,true⟩
  | .connectionError _ => some ⟨sent.sender,false⟩
  | .pingReceived => none

/-- The connection the manager holds or is about to record. -/
def currentOf (manager : Manager) : Option Generation :=
  match manager.phase with
  | .established generation => some generation
  | _ => manager.client

/-- The supervisor's part of a state. -/
def view (state : State H) : Supervision.State where
  running := decide (state.manager.phase≠.exited)
  current := currentOf state.manager
  notices := state.events.filterMap noticeOf
  workers := fun generation => workerOf (state.processors generation)
  opened := state.nextGeneration

/-- The supervision step that an action performs, if any. -/
def performs (state : State H) : Action H → Option Supervision.Action
  | .connectFailed =>
    if (state.manager.connectFailed state.clock).phase=.exited then some .stop else none
  | .connectSucceeded _ => some .openSession
  | .receiveCommand =>
    match state.commands with
    | .shutdown::_ => some .stop
    | _ => none
  | .sendUpdate _ accepted => if accepted then none else some .drop
  | .receiveEvent accepted =>
    match state.events with
    | sent::_ =>
      if sent.event.isTerminal then some .consume
      else if state.manager.subscribeTx.isSome && !accepted then some .drop
      else none
    | [] => none
  | .receiveShutdown => some .stop
  | .allChannelsClosed => some .stop
  | .receiveItem generation (.error _) => some (.finish generation 2)
  | .endOfStream generation => some (.finish generation 1)
  | .dispatch generation _ _ => some (.serve generation)
  | .sendEvent generation =>
    match state.processors generation with
    | .sending event => if event.isTerminal then some (.notify generation) else none
    | _ => none
  | _ => none

/-- The manager goes on with the connection it has. -/
def KeepsSession (before after : Manager) : Prop :=
  before.phase≠.exited ∧ after.phase≠.exited ∧ currentOf after=currentOf before

/-- Outside of the moment of recording, the current connection is the client. -/
theorem currentOf_eq_client {manager : Manager}
    (h : ∀ generation,manager.phase≠.established generation) :
    currentOf manager=manager.client := by
  unfold currentOf
  split
  · exact absurd ‹_› (h _)
  · rfl

theorem keepsSession_enterLoop {manager : Manager} (hphase : manager.phase=.loopHead)
    (now : Instant) : KeepsSession manager (manager.enterLoop now) := by
  have hbefore : currentOf manager=manager.client := by
    simp only [currentOf,hphase]
  refine ⟨by rw [hphase]; exact ManagerPhase.noConfusion,?_⟩
  rw [hbefore]
  rcases manager.enterLoop_cases now with ⟨_,_,_,hnext⟩|⟨_,_,hnext⟩|⟨_,hnext⟩
  · rw [hnext]
    exact ⟨ManagerPhase.noConfusion,rfl⟩
  · rw [hnext]
    exact ⟨ManagerPhase.noConfusion,rfl⟩
  · rw [hnext]
    exact ⟨ManagerPhase.noConfusion,rfl⟩

theorem keepsSession_wake {manager : Manager} {wakeAt : Instant}
    (hphase : manager.phase=.circuitOpen wakeAt ∨ manager.phase=.backingOff wakeAt)
    (now : Instant) : KeepsSession manager (manager.wake now) := by
  cases manager with
  | mk phase client subscribeTx needsUpdate lastAttempt consecutiveFailures =>
    rcases hphase with hphase|hphase
    · cases hphase
      exact ⟨ManagerPhase.noConfusion,ManagerPhase.noConfusion,rfl⟩
    · cases hphase
      exact ⟨ManagerPhase.noConfusion,ManagerPhase.noConfusion,rfl⟩

/-- A failed attempt without a panic. -/
theorem keepsSession_connectFailed {manager : Manager} (hphase : manager.phase=.attempting)
    {now : Instant} (hcalm : (manager.connectFailed now).phase≠.exited) :
    KeepsSession manager (manager.connectFailed now) := by
  rcases manager.connectFailed_cases now with ⟨failures,sleep,hsleep⟩|hpanic
  · rw [hsleep,KeepsSession,currentOf,currentOf,hphase]
    exact ⟨ManagerPhase.noConfusion,ManagerPhase.noConfusion,rfl⟩
  · rw [hpanic] at hcalm
    exact absurd rfl hcalm

theorem keepsSession_recordConnection {manager : Manager} {generation : Generation}
    (hphase : manager.phase=.established generation) :
    KeepsSession manager (manager.recordConnection generation) := by
  rw [KeepsSession,currentOf,currentOf,hphase]
  exact ⟨ManagerPhase.noConfusion,ManagerPhase.noConfusion,rfl⟩

/-- Every command but the shutdown. -/
theorem keepsSession_afterCommand {manager : Manager} (hphase : manager.phase=.selecting)
    {command : ManagerCommand H} (hcommand : command≠.shutdown) (flagged : Bool) :
    KeepsSession manager (manager.afterCommand command flagged) := by
  have hloop : KeepsSession manager
      { manager with
        needsUpdate := manager.needsUpdate || flagged
        phase := if (manager.needsUpdate || flagged) && manager.subscribeTx.isSome then .updating
          else .loopHead } := by
    rw [KeepsSession,currentOf,currentOf,hphase]
    split
    · exact ⟨ManagerPhase.noConfusion,ManagerPhase.noConfusion,rfl⟩
    · exact ⟨ManagerPhase.noConfusion,ManagerPhase.noConfusion,rfl⟩
  cases command with
  | shutdown => exact absurd rfl hcommand
  | _ => exact hloop

theorem keepsSession_afterUpdate {manager : Manager} (hphase : manager.phase=.updating) :
    KeepsSession manager (manager.afterUpdate true) := by
  rw [KeepsSession,currentOf,currentOf,hphase]
  exact ⟨ManagerPhase.noConfusion,ManagerPhase.noConfusion,rfl⟩

/-- A ping whose pong is not refused. -/
theorem keepsSession_afterEvent {manager : Manager} (hphase : manager.phase=.selecting)
    {accepted : Bool} (hpong : (manager.subscribeTx.isSome && !accepted)=false) :
    KeepsSession manager (manager.afterEvent .pingReceived accepted) := by
  rw [KeepsSession,Manager.afterEvent,hpong,currentOf,currentOf,hphase]
  exact ⟨ManagerPhase.noConfusion,ManagerPhase.noConfusion,rfl⟩

/-- The view depends on the manager through its loop being left and its
current connection only. -/
theorem view_of_manager {state after : State H} (hmanager : KeepsSession state.manager after.manager)
    (hevents : after.events=state.events) (hprocessors : after.processors=state.processors)
    (hnext : after.nextGeneration=state.nextGeneration) : view after=view state := by
  have hrunning : (view after).running=(view state).running :=
    (decide_eq_true hmanager.2.1).trans (decide_eq_true hmanager.1).symm
  refine Supervision.State.ext hrunning hmanager.2.2 ?_ ?_ hnext
  · exact congrArg (List.filterMap noticeOf) hevents
  · simp only [view,hprocessors]

/-- The workers after one processor has moved. -/
theorem workerOf_update (processors : Generation → ProcessorPhase) (generation : Generation)
    (phase : ProcessorPhase) :
    (fun other => workerOf (Function.update processors generation phase other))=
      Function.update (fun other => workerOf (processors other)) generation (workerOf phase) := by
  funext other
  rcases eq_or_ne other generation with rfl|hne
  · rw [Function.update_self,Function.update_self]
  · rw [Function.update_of_ne hne,Function.update_of_ne hne]

/-- A processor that moves within its loop does not change the view. -/
theorem view_of_processor (state : State H) {generation : Generation} {phase : ProcessorPhase}
    (hsame : workerOf phase=workerOf (state.processors generation)) :
    view (state.setProcessor generation phase)=view state := by
  have hworkers := workerOf_update state.processors generation phase
  rw [hsame,Function.update_eq_self] at hworkers
  exact Supervision.State.ext rfl rfl rfl hworkers rfl

/-- Every update without an error keeps the processor in its loop. -/
theorem workerOf_onItem (msg : SubscribeUpdate) : workerOf (.onItem (.ok msg))=.serving := by
  unfold ProcessorPhase.onItem
  dsimp only
  split <;> rfl

/-- A step that performs no supervision step does not change the view. -/
theorem view_silent {state : State H} {action : Action H} (henabled : Enabled state action)
    (h : performs state action=none) : view (next state action)=view state := by
  cases action with
  | enterLoop =>
    exact view_of_manager (keepsSession_enterLoop henabled state.clock) rfl rfl rfl
  | wake =>
    obtain ⟨wakeAt,_,hphase⟩ := sleeping_of_wake henabled
    exact view_of_manager (keepsSession_wake hphase state.clock) rfl rfl rfl
  | connectFailed =>
    have hcalm : (state.manager.connectFailed state.clock).phase≠.exited := by
      intro hpanic
      rw [performs,if_pos hpanic] at h
      cases h
    rw [next_connectFailed]
    exact view_of_manager (keepsSession_connectFailed henabled hcalm) rfl rfl rfl
  | recordConnection =>
    obtain ⟨generation,hphase,hnext⟩ := next_recordConnection henabled
    have hnext : next state .recordConnection=
        { state with manager := state.manager.recordConnection generation } := by
      rw [hnext]
    rw [hnext]
    exact view_of_manager (keepsSession_recordConnection hphase) rfl rfl rfl
  | receiveCommand =>
    obtain ⟨command,_,hcommands,hnext⟩ := next_receiveCommand henabled
    have hcommand : command≠.shutdown := by
      intro hshutdown
      rw [performs,hcommands,hshutdown] at h
      cases h
    rw [hnext]
    exact view_of_manager (keepsSession_afterCommand henabled.1 hcommand _) rfl rfl rfl
  | sendUpdate order accepted =>
    cases accepted with
    | false => cases h
    | true => exact view_of_manager (keepsSession_afterUpdate henabled.1) rfl rfl rfl
  | receiveEvent accepted =>
    obtain ⟨sent,_,hevents,_⟩ := next_receiveEvent henabled
    simp only [performs,hevents] at h
    cases hevent : sent.event with
    | connectionClosed =>
      rw [hevent] at h
      cases h
    | connectionError error =>
      rw [hevent] at h
      cases h
    | pingReceived =>
      have hpong : (state.manager.subscribeTx.isSome && !accepted)=false := by
        by_contra hrefused
        rw [hevent,if_neg (by decide),if_pos (Bool.not_eq_false _ ▸ hrefused)] at h
        cases h
      have hkeeps := keepsSession_afterEvent henabled.1 hpong
      have hnotice : noticeOf sent=none := by
        simp only [noticeOf,hevent]
      have hrunning : decide ((state.manager.afterEvent .pingReceived accepted).phase≠.exited)=
          decide (state.manager.phase≠.exited) :=
        (decide_eq_true hkeeps.2.1).trans (decide_eq_true hkeeps.1).symm
      simp only [next,hevents,hevent]
      refine Supervision.State.ext hrunning hkeeps.2.2 ?_ rfl rfl
      simp only [view,hevents,List.filterMap_cons,hnotice]
  | receiveItem generation item =>
    cases item with
    | error status => cases h
    | ok msg =>
      have hreading : state.processors generation=.reading := henabled
      refine view_of_processor state ?_
      rw [workerOf_onItem,hreading]
      rfl
  | sendEvent generation =>
    obtain ⟨event,hphase,hnext⟩ := next_sendEvent henabled
    simp only [performs,hphase] at h
    cases event with
    | connectionClosed => cases h
    | connectionError error => cases h
    | pingReceived =>
      have hsame : view (state.setProcessor generation .reading)=view state := by
        refine view_of_processor state ?_
        rw [hphase]
        rfl
      rw [←hsame,hnext]
      refine Supervision.State.ext rfl rfl ?_ rfl rfl
      simp only [view,State.setProcessor]
      split
      · rfl
      · rw [List.filterMap_append]
        exact List.append_nil _
  | connectSucceeded order => cases h
  | receiveShutdown => cases h
  | allChannelsClosed => cases h
  | endOfStream generation => cases h
  | dispatch generation order outcome => cases h
  | _ => rfl

/-- Leaving the manager loop is the supervisor's stop. -/
theorem view_stop {state after : State H} (hbefore : state.manager.phase≠.exited)
    (hplain : ∀ generation,state.manager.phase≠.established generation)
    (hafter : after.manager.phase=.exited) (hclient : after.manager.client=state.manager.client)
    (hevents : after.events=state.events) (hprocessors : after.processors=state.processors)
    (hnext : after.nextGeneration=state.nextGeneration) :
    Supervision.Enabled (view state) .stop ∧ view after=Supervision.next (view state) .stop := by
  refine ⟨decide_eq_true hbefore,Supervision.State.ext ?_ ?_ ?_ ?_ hnext⟩
  · exact decide_eq_false (fun hrunning => hrunning hafter)
  · have hexit : ∀ generation,after.manager.phase≠.established generation := by
      rw [hafter]
      exact fun generation => ManagerPhase.noConfusion
    change currentOf after.manager=currentOf state.manager
    rw [currentOf_eq_client hexit,hclient,currentOf_eq_client hplain]
  · exact congrArg (List.filterMap noticeOf) hevents
  · simp only [view,Supervision.next,hprocessors]

/-- A waiting manager has a connection. -/
theorem holds_of_selecting {state : State H} (hreach : (connectionManager H).Reachable state)
    (hphase : state.manager.phase=.selecting) :
    ∃ generation,state.manager.client=some generation ∧
      state.manager.subscribeTx=some generation ∧ currentOf state.manager=some generation := by
  obtain ⟨_,generation,hclient,hchannel,_⟩ := synced_of_selecting hreach hphase
  refine ⟨generation,hclient,hchannel,?_⟩
  rw [currentOf,hphase]
  exact hclient

/-- So does a manager that is sending an update. -/
theorem holds_of_updating {state : State H} (hreach : (connectionManager H).Reachable state)
    (hphase : state.manager.phase=.updating) :
    ∃ generation,state.manager.client=some generation ∧
      state.manager.subscribeTx=some generation ∧ currentOf state.manager=some generation := by
  have h := viewInvariant_reachable hreach
  simp only [ViewInvariant,hphase] at h
  obtain ⟨generation,hclient,hchannel⟩ := h
  refine ⟨generation,hclient,hchannel,?_⟩
  rw [currentOf,hphase]
  exact hclient

/-- An attempting manager has none. -/
theorem none_of_attempting {state : State H} (hreach : (connectionManager H).Reachable state)
    (hphase : state.manager.phase=.attempting) : state.manager.client=none := by
  have h := viewInvariant_reachable hreach
  simp only [ViewInvariant,hphase] at h
  exact h

/-- Giving the connection up on a terminal event is the supervisor's consumption
of a notice. -/
theorem view_consume {state : State H} (hrunning : state.manager.phase≠.exited)
    (hkept : currentOf state.manager≠none) {sent : SentEvent} {rest : List SentEvent}
    (hevents : state.events=sent::rest) {notice : Notice} (hnotice : noticeOf sent=some notice) :
    Supervision.Enabled (view state) .consume ∧
      view { state with
        events := rest
        manager := state.manager.disconnect }=Supervision.next (view state) .consume := by
  have hnotices : (view state).notices=notice::rest.filterMap noticeOf := by
    rw [view,hevents,List.filterMap_cons,hnotice]
  have htrue : (view state).running=true := decide_eq_true hrunning
  refine ⟨⟨htrue,hkept,?_⟩,Supervision.State.ext htrue.symm rfl ?_ rfl rfl⟩
  · rw [hnotices]
    exact List.cons_ne_nil _ _
  · rw [Supervision.next,hnotices]
    rfl

/-- Giving it up after a refused send drops it without a notice. -/
theorem view_drop {state : State H} (hrunning : state.manager.phase≠.exited)
    (hkept : currentOf state.manager≠none) {rest : List SentEvent}
    (hevents : rest.filterMap noticeOf=state.events.filterMap noticeOf) :
    Supervision.Enabled (view state) .drop ∧
      view { state with
        events := rest
        manager := state.manager.disconnect }=Supervision.next (view state) .drop := by
  have htrue : (view state).running=true := decide_eq_true hrunning
  exact ⟨⟨htrue,hkept⟩,Supervision.State.ext htrue.symm rfl hevents rfl rfl⟩

/-- Sending a terminal event is a notification. -/
theorem view_notify {state : State H} {generation : Generation} {event : StreamEvent} {owed : ℕ}
    (hphase : state.processors generation=.sending event)
    (howed : workerOf (.sending event)=.leaving (owed+1))
    (hafter : workerOf (.afterSend event)=.leaving owed)
    (hnotice : noticeOf ⟨event,generation⟩=some ⟨generation,decide (owed=0)⟩) :
    Supervision.Enabled (view state) (.notify generation) ∧
      view (next state (.sendEvent generation))=
        Supervision.next (view state) (.notify generation) := by
  have hworker : (view state).workers generation=.leaving (owed+1) := by
    rw [←howed,←hphase]
    rfl
  have hworkers := workerOf_update state.processors generation (.afterSend event)
  rw [hafter] at hworkers
  rw [Supervision.next_notify hworker]
  simp only [next,hphase]
  refine ⟨⟨owed,hworker⟩,Supervision.State.ext rfl rfl ?_ hworkers rfl⟩
  by_cases hexit : state.manager.phase=.exited
  · simp only [view,State.setProcessor,hexit,if_true,decide_not,decide_true,Bool.not_true,
      Bool.false_eq_true,if_false]
  · simp only [view,State.setProcessor,hexit,if_false,decide_not,decide_false,Bool.not_false,
      if_true,List.filterMap_append,List.filterMap_cons,hnotice,List.filterMap_nil]

/-- A step that performs a supervision step has its effect on the view. -/
theorem view_visible {state : State H} {action : Action H} {performed : Supervision.Action}
    (hreach : (connectionManager H).Reachable state) (henabled : Enabled state action)
    (h : performs state action=some performed) :
    Supervision.Enabled (view state) performed ∧
      view (next state action)=Supervision.next (view state) performed := by
  cases action with
  | connectFailed =>
    have hphase : state.manager.phase=.attempting := henabled
    have hpanic : (state.manager.connectFailed state.clock).phase=.exited := by
      by_contra hcalm
      rw [performs,if_neg hcalm] at h
      cases h
    rw [performs,if_pos hpanic] at h
    cases h
    have hclient : (state.manager.connectFailed state.clock).client=state.manager.client := by
      rcases state.manager.connectFailed_cases state.clock with ⟨failures,sleep,hsleep⟩|hdone
      · rw [hsleep]
      · rw [hdone]
    rw [next_connectFailed]
    exact view_stop (by rw [hphase]; exact ManagerPhase.noConfusion)
      (fun generation => by rw [hphase]; exact ManagerPhase.noConfusion) hpanic hclient rfl rfl rfl
  | connectSucceeded order =>
    cases h
    have hphase : state.manager.phase=.attempting := henabled.1
    have hrunning : decide (state.manager.phase≠.exited)=true := by
      rw [hphase]
      rfl
    refine ⟨⟨hrunning,?_⟩,Supervision.State.ext hrunning.symm rfl rfl ?_ rfl⟩
    · change currentOf state.manager=none
      rw [currentOf,hphase]
      exact none_of_attempting hreach hphase
    · exact workerOf_update state.processors state.nextGeneration .reading
  | receiveCommand =>
    obtain ⟨command,_,hcommands,hnext⟩ := next_receiveCommand henabled
    rw [performs,hcommands] at h
    cases command with
    | shutdown =>
      cases h
      rw [hnext]
      exact view_stop (by rw [henabled.1]; exact ManagerPhase.noConfusion)
        (fun generation => by rw [henabled.1]; exact ManagerPhase.noConfusion) rfl rfl rfl rfl rfl
    | _ => cases h
  | sendUpdate order accepted =>
    cases accepted with
    | true => cases h
    | false =>
      cases h
      obtain ⟨generation,_,_,hcurrent⟩ := holds_of_updating hreach henabled.1
      exact view_drop (by rw [henabled.1]; exact ManagerPhase.noConfusion)
        (by rw [hcurrent]; exact Option.some_ne_none generation) rfl
  | receiveEvent accepted =>
    obtain ⟨generation,_,_,hcurrent⟩ := holds_of_selecting hreach henabled.1
    have hrunning : state.manager.phase≠.exited := by
      rw [henabled.1]
      exact ManagerPhase.noConfusion
    have hkept : currentOf state.manager≠none := by
      rw [hcurrent]
      exact Option.some_ne_none generation
    obtain ⟨sent,_,hevents,hnext⟩ := next_receiveEvent henabled
    simp only [performs,hevents] at h
    rw [hnext]
    cases hevent : sent.event with
    | connectionClosed =>
      rw [hevent] at h
      cases h
      have hnotice : noticeOf sent=some ⟨sent.sender,true⟩ := by
        simp only [noticeOf,hevent]
      exact view_consume hrunning hkept hevents hnotice
    | connectionError error =>
      rw [hevent] at h
      cases h
      have hnotice : noticeOf sent=some ⟨sent.sender,false⟩ := by
        simp only [noticeOf,hevent]
      exact view_consume hrunning hkept hevents hnotice
    | pingReceived =>
      have hnotice : noticeOf sent=none := by
        simp only [noticeOf,hevent]
      rw [hevent,if_neg (by decide)] at h
      split at h
      · rename_i hrefused
        cases h
        rw [Manager.afterEvent,if_pos hrefused]
        refine view_drop hrunning hkept ?_
        rw [hevents,List.filterMap_cons,hnotice]
      · cases h
  | receiveShutdown =>
    cases h
    exact view_stop (by rw [henabled.1]; exact ManagerPhase.noConfusion)
      (fun generation => by rw [henabled.1]; exact ManagerPhase.noConfusion) rfl rfl rfl rfl rfl
  | allChannelsClosed =>
    cases h
    exact view_stop (by rw [henabled.1]; exact ManagerPhase.noConfusion)
      (fun generation => by rw [henabled.1]; exact ManagerPhase.noConfusion) rfl rfl rfl rfl rfl
  | receiveItem generation item =>
    cases item with
    | ok msg => cases h
    | error status =>
      cases h
      have hreading : state.processors generation=.reading := henabled
      refine ⟨⟨congrArg workerOf hreading,Nat.two_pos⟩,Supervision.State.ext rfl rfl rfl ?_ rfl⟩
      exact workerOf_update state.processors generation _
  | endOfStream generation =>
    cases h
    have hreading : state.processors generation=.reading := henabled
    refine ⟨⟨congrArg workerOf hreading,Nat.one_pos⟩,Supervision.State.ext rfl rfl rfl ?_ rfl⟩
    exact workerOf_update state.processors generation _
  | dispatch generation order outcome =>
    cases h
    obtain ⟨event,hphase,_⟩ := dispatching_of_dispatch henabled
    have hserving : workerOf (state.processors generation)=.serving := by
      rw [hphase]
      rfl
    exact ⟨hserving,view_of_processor state hserving.symm⟩
  | sendEvent generation =>
    obtain ⟨event,hphase,_⟩ := next_sendEvent henabled
    simp only [performs,hphase] at h
    cases event with
    | connectionClosed =>
      cases h
      exact view_notify hphase rfl rfl rfl
    | connectionError error =>
      cases h
      exact view_notify hphase rfl rfl rfl
    | pingReceived => cases h
  | _ => cases h

/-- A failed attempt is silent, or a stop when the backoff panics. -/
theorem performs_connectFailed (state : State H) :
    performs state .connectFailed=none ∨ performs state .connectFailed=some .stop := by
  by_cases hpanic : (state.manager.connectFailed state.clock).phase=.exited
  · exact Or.inr (if_pos hpanic)
  · exact Or.inl (if_neg hpanic)

/-- A notice is consumed only by handling a terminal event. -/
theorem performs_consume {state : State H} {action : Action H}
    (h : performs state action=some .consume) :
    ∃ accepted sent rest,action=.receiveEvent accepted ∧ state.events=sent::rest ∧
      sent.event.isTerminal=true := by
  cases action with
  | receiveEvent accepted =>
    cases hevents : state.events with
    | nil => simp only [performs,hevents,reduceCtorEq] at h
    | cons sent rest =>
      refine ⟨accepted,sent,rest,rfl,rfl,?_⟩
      by_contra hping
      simp only [performs,hevents,if_neg hping] at h
      split at h <;> cases h
  | connectFailed =>
    rcases performs_connectFailed state with hnone|hstop
    · cases hnone.symm.trans h
    · cases hstop.symm.trans h
  | receiveItem generation item => cases item <;> cases h
  | _ => grind [performs]

/-- A session is dropped only by a refused update or a refused pong. -/
theorem performs_drop {state : State H} {action : Action H}
    (h : performs state action=some .drop) :
    (∃ order,action=.sendUpdate order false) ∨
    ∃ accepted sent rest,action=.receiveEvent accepted ∧ state.events=sent::rest ∧
      sent.event=.pingReceived ∧ (state.manager.subscribeTx.isSome && !accepted)=true := by
  cases action with
  | sendUpdate order accepted =>
    cases accepted with
    | false => exact Or.inl ⟨order,rfl⟩
    | true => cases h
  | receiveEvent accepted =>
    cases hevents : state.events with
    | nil => simp only [performs,hevents,reduceCtorEq] at h
    | cons sent rest =>
      refine Or.inr ⟨accepted,sent,rest,rfl,rfl,?_⟩
      simp only [performs,hevents] at h
      cases hevent : sent.event with
      | pingReceived => grind [StreamEvent.isTerminal]
      | _ =>
        rw [hevent] at h
        cases h
  | connectFailed =>
    rcases performs_connectFailed state with hnone|hstop
    · cases hnone.symm.trans h
    · cases hstop.symm.trans h
  | receiveItem generation item => cases item <;> cases h
  | _ => grind [performs]

/-- The supervisor stops only where the manager leaves its loop, having waited
or attempted to connect. -/
theorem performs_stop {state : State H} {action : Action H} (henabled : Enabled state action)
    (h : performs state action=some .stop) :
    (state.manager.phase=.selecting ∨ state.manager.phase=.attempting) ∧
      (next state action).manager.phase=.exited := by
  cases action with
  | connectFailed =>
    refine ⟨Or.inr henabled,?_⟩
    by_contra hcalm
    rw [next_connectFailed] at hcalm
    rw [performs,if_neg hcalm] at h
    cases h
  | receiveCommand =>
    refine ⟨Or.inl henabled.1,?_⟩
    obtain ⟨command,_,hcommands,_⟩ := next_receiveCommand henabled
    rw [performs,hcommands] at h
    cases command with
    | shutdown => simp only [next,hcommands,Manager.afterCommand]
    | _ => cases h
  | receiveShutdown => exact ⟨Or.inl henabled.1,rfl⟩
  | allChannelsClosed => exact ⟨Or.inl henabled.1,rfl⟩
  | receiveItem generation item => cases item <;> cases h
  | _ => grind [performs]

/-- The connection manager as a supervised system. -/
def sessions (H : Type) : Simulation (connectionManager H) supervision where
  view := view
  performs := performs
  initial := by
    intro state hstart
    obtain ⟨clock,rfl⟩ := initial_iff.mp hstart
    rfl
  silent := fun _ _ _ henabled => view_silent henabled
  visible := fun _ _ _ hreach henabled => view_visible hreach henabled

/-- Generations not given out yet have no processor. -/
theorem unspawned_of_nextGeneration_le {state : State H}
    (hreach : (connectionManager H).Reachable state) {generation : Generation}
    (hlate : state.nextGeneration ≤ generation) : state.processors generation=.unspawned := by
  have hworker : workerOf (state.processors generation)=.unspawned :=
    Supervision.unspawned_of_opened_le ((sessions H).reachable hreach) hlate
  cases hphase : state.processors generation with
  | unspawned => rfl
  | sending event =>
    rw [hphase] at hworker
    cases event <;> cases hworker
  | _ =>
    rw [hphase] at hworker
    cases hworker

end SteamHandler.Sessions
