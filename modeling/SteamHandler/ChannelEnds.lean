import SteamHandler.Channels
import SteamHandler.ManagerRuns
import SteamHandler.Disconnects

/-!
# The ends of the manager's channels

The manager task receives on three channels. The senders of the command
channel and of the shutdown broadcast belong to the `ConnectionManager` value
alone. Senders of the stream-event channel are also held by the task itself,
which keeps a clone to hand further clones to the stream processors, and by
every processor that has not returned. Each step of the system is a run of
each of the three channels, and so is each run of it; the guard of the `else`
branch says that all three are closed.
-/

namespace SteamHandler.ChannelEnds

open Messages SubscriptionRegistry ConnectionManager ManagerRuns Sessions TransitionSystem
open Channels (Channel Operation channels)

variable {H : Type}

/-- Who holds a sender. -/
inductive Holder where
  /-- The `ConnectionManager` value. -/
  | owner
  /-- The manager task. -/
  | task
  /-- The stream processor of a connection. -/
  | processor (generation : Generation)
  deriving DecidableEq, Repr

/-- The sender in the `ConnectionManager` value. -/
def ownerSenders (ownerAlive : Bool) : Finset Holder := if ownerAlive then {.owner} else ∅

/-- Senders of the stream-event channel: the owner's, the clone captured by the
task, and those of the processors spawned so far that have not returned. -/
def eventSenders (ownerAlive running : Bool) (processors : Generation → ProcessorPhase)
    (spawned : Generation) : Finset Holder :=
  ownerSenders ownerAlive ∪ (if running then {.task} else ∅) ∪
    ((Finset.range spawned).filter fun generation => processors generation≠.terminated).image
      .processor

/-- The command channel. -/
def commandChannel (state : State H) : Channel Holder (ManagerCommand H) :=
  ⟨state.commands,ownerSenders state.ownerAlive⟩

/-- The shutdown broadcast, which keeps one signal. -/
def shutdownChannel (state : State H) : Channel Holder Unit :=
  ⟨if state.shutdownSignalled then [()] else [],ownerSenders state.ownerAlive⟩

/-- The stream-event channel. -/
def eventChannel (state : State H) : Channel Holder SentEvent :=
  ⟨state.events,eventSenders state.ownerAlive (decide (state.manager.phase≠.exited))
    state.processors state.nextGeneration⟩

section Holders

variable {ownerAlive running : Bool} {processors : Generation → ProcessorPhase}
variable {spawned generation : Generation}

@[simp] theorem mem_ownerSenders {holder : Holder} :
    holder∈ownerSenders ownerAlive ↔ ownerAlive=true ∧ holder=.owner := by
  cases ownerAlive <;> simp [ownerSenders]

@[simp] theorem owner_mem_eventSenders :
    .owner∈eventSenders ownerAlive running processors spawned ↔ ownerAlive=true := by
  cases running <;> simp [eventSenders]

@[simp] theorem task_mem_eventSenders :
    .task∈eventSenders ownerAlive running processors spawned ↔ running=true := by
  cases running <;> simp [eventSenders]

@[simp] theorem processor_mem_eventSenders :
    .processor generation∈eventSenders ownerAlive running processors spawned ↔
      generation < spawned ∧ processors generation≠.terminated := by
  cases running <;> simp [eventSenders]

/-- A processor that goes on keeps its sender. -/
theorem eventSenders_update {phase : ProcessorPhase} (hbefore : processors generation≠.terminated)
    (hafter : phase≠.terminated) :
    eventSenders ownerAlive running (Function.update processors generation phase) spawned=
      eventSenders ownerAlive running processors spawned := by
  ext holder
  cases holder with
  | owner => simp only [owner_mem_eventSenders]
  | task => simp only [task_mem_eventSenders]
  | processor other =>
    rcases eq_or_ne other generation with rfl|hne
    · rw [processor_mem_eventSenders,processor_mem_eventSenders,Function.update_self]
      exact and_congr_right fun _ => iff_of_true hafter hbefore
    · simp only [processor_mem_eventSenders,Function.update_of_ne hne]

/-- A processor that returns drops its sender. -/
theorem eventSenders_terminated :
    eventSenders ownerAlive running (Function.update processors generation .terminated) spawned=
      (eventSenders ownerAlive running processors spawned).erase (.processor generation) := by
  ext holder
  cases holder with
  | owner => simp
  | task => simp
  | processor other =>
    rcases eq_or_ne other generation with rfl|hne
    · simp
    · simp [hne]

/-- A processor that is spawned gets a sender. -/
theorem eventSenders_spawned {phase : ProcessorPhase} (hphase : phase≠.terminated) :
    eventSenders ownerAlive running (Function.update processors spawned phase) (spawned+1)=
      insert (.processor spawned) (eventSenders ownerAlive running processors spawned) := by
  ext holder
  cases holder with
  | owner => simp
  | task => simp
  | processor other =>
    rcases eq_or_ne other spawned with rfl|hne
    · simp [hphase]
    · have hlt : other < spawned+1 ↔ other < spawned :=
        Nat.lt_succ_iff_lt_or_eq.trans (or_iff_left hne)
      simp [hne,hlt]

theorem eventSenders_ownerDropped :
    eventSenders false running processors spawned=
      (eventSenders true running processors spawned).erase .owner := by
  ext holder
  cases holder <;> simp

theorem eventSenders_taskEnded :
    eventSenders ownerAlive false processors spawned=
      (eventSenders ownerAlive true processors spawned).erase .task := by
  ext holder
  cases holder <;> simp

end Holders

/-- What a step does to the command channel. -/
def commandOperations (step : State H × Action H) :
    List (Operation Holder (ManagerCommand H)) :=
  match step.2 with
  | .sendCommand command => [.send .owner command]
  | .receiveCommand => [.take]
  | .dropOwner => [.drop .owner]
  | _ => []

/-- What a step does to the shutdown broadcast; a new signal replaces the one
that is waiting. -/
def shutdownOperations (step : State H × Action H) : List (Operation Holder Unit) :=
  match step.2 with
  | .signalShutdown => (if step.1.shutdownSignalled then [.take] else [])++[.send .owner ()]
  | .receiveShutdown => [.take]
  | .dropOwner => [.drop .owner]
  | _ => []

/-- What a step does to the stream-event channel, apart from the end of the
task. A send to a task that is gone does nothing; the last send of a processor
is followed by its return. -/
def eventOperations (step : State H × Action H) : List (Operation Holder SentEvent) :=
  match step.2 with
  | .connectSucceeded _ => [.clone .task (.processor step.1.nextGeneration)]
  | .receiveEvent _ => [.take]
  | .sendEvent generation =>
    match step.1.processors generation with
    | .sending event =>
      (if step.1.manager.phase=.exited then [] else
        [.send (.processor generation) ⟨event,generation⟩])++
      (if event=.connectionClosed then [.drop (.processor generation)] else [])
    | _ => []
  | .dropOwner => [.drop .owner]
  | _ => []

/-- The task ends with the step. -/
def TaskEnds (step : State H × Action H) : Prop :=
  step.1.manager.phase≠.exited ∧ (next step.1 step.2).manager.phase=.exited

instance decidableTaskEnds (step : State H × Action H) : Decidable (TaskEnds step) :=
  inferInstanceAs (Decidable (_ ∧ _))

/-- The captured clone is dropped with the task. -/
def taskOperations (step : State H × Action H) : List (Operation Holder SentEvent) :=
  if TaskEnds step then [.drop .task] else []

section Steps

variable {state : State H} {action : Action H}

/-- The owner's sender goes when the owner is dropped. -/
theorem ownerSenders_dropped : ownerSenders false=(ownerSenders true).erase .owner := by decide

/-- Every step is a run of the command channel. -/
theorem commandChannel_next (henabled : Enabled state action) :
    (channels Holder (ManagerCommand H)).Legal (commandChannel state)
        (commandOperations (state,action)) ∧
      (channels Holder (ManagerCommand H)).final (commandChannel state)
        (commandOperations (state,action))=commandChannel (next state action) := by
  obtain ⟨howner,_,hcommands⟩ := callers_next henabled
  rw [commandChannel,commandChannel,howner,hcommands]
  cases action with
  | sendCommand command => exact ⟨⟨mem_ownerSenders.mpr ⟨henabled.1,rfl⟩,trivial⟩,rfl⟩
  | receiveCommand => exact ⟨⟨henabled.2,trivial⟩,rfl⟩
  | dropOwner =>
    have halive : state.ownerAlive=true := henabled
    rw [halive,ownerAfter,ownerSenders_dropped]
    exact ⟨⟨mem_ownerSenders.mpr ⟨rfl,rfl⟩,trivial⟩,rfl⟩
  | _ => exact ⟨trivial,rfl⟩

/-- Every step is a run of the shutdown broadcast. -/
theorem shutdownChannel_next (henabled : Enabled state action) :
    (channels Holder Unit).Legal (shutdownChannel state) (shutdownOperations (state,action)) ∧
      (channels Holder Unit).final (shutdownChannel state) (shutdownOperations (state,action))=
        shutdownChannel (next state action) := by
  obtain ⟨howner,hsignal,_⟩ := callers_next henabled
  rw [shutdownChannel,shutdownChannel,howner,hsignal]
  cases action with
  | signalShutdown =>
    have hholds : .owner∈ownerSenders state.ownerAlive := mem_ownerSenders.mpr ⟨henabled,rfl⟩
    cases hwaiting : state.shutdownSignalled with
    | false =>
      simp only [shutdownOperations,hwaiting]
      exact ⟨⟨hholds,trivial⟩,rfl⟩
    | true =>
      simp only [shutdownOperations,hwaiting]
      exact ⟨⟨List.cons_ne_nil _ _,hholds,trivial⟩,rfl⟩
  | receiveShutdown =>
    rw [henabled.2]
    exact ⟨⟨List.cons_ne_nil _ _,trivial⟩,rfl⟩
  | dropOwner =>
    have halive : state.ownerAlive=true := henabled
    rw [halive,ownerAfter,ownerSenders_dropped]
    exact ⟨⟨mem_ownerSenders.mpr ⟨rfl,rfl⟩,trivial⟩,rfl⟩
  | _ => exact ⟨trivial,rfl⟩

/-- A processor that takes an item does not return yet. -/
theorem onItem_ne_terminated (item : StreamItem) : ProcessorPhase.onItem item≠.terminated := by
  intro hdone
  cases item with
  | error status => cases hdone
  | ok msg =>
    have hserving := workerOf_onItem msg
    rw [hdone] at hserving
    cases hserving

/-- A processor returns after its last send only. -/
theorem afterSend_eq_terminated_iff (event : StreamEvent) :
    ProcessorPhase.afterSend event=.terminated ↔ event=.connectionClosed := by
  cases event with
  | connectionClosed => exact iff_of_true rfl rfl
  | connectionError error => exact iff_of_false ProcessorPhase.noConfusion StreamEvent.noConfusion
  | pingReceived => exact iff_of_false ProcessorPhase.noConfusion StreamEvent.noConfusion

/-- A processor that has not been spawned or has returned sends nothing. -/
theorem sender_of_sending (hreach : (connectionManager H).Reachable state)
    {generation : Generation} {event : StreamEvent}
    (hphase : state.processors generation=.sending event) :
    .processor generation∈(eventChannel state).holders := by
  refine processor_mem_eventSenders.mpr ⟨?_,?_⟩
  · by_contra hlate
    have hunspawned := unspawned_of_nextGeneration_le hreach (Nat.le_of_not_lt hlate)
    cases hphase.symm.trans hunspawned
  · rw [hphase]
    exact ProcessorPhase.noConfusion

/-- The stream-event channel after a step, as long as the task keeps its
clone. -/
def eventChannelKept (state : State H) (action : Action H) : Channel Holder SentEvent :=
  ⟨(next state action).events,
    eventSenders (next state action).ownerAlive (decide (state.manager.phase≠.exited))
      (next state action).processors (next state action).nextGeneration⟩

/-- A send is one operation, or two with the return of the processor. -/
theorem eventChannelKept_sendEvent (hreach : (connectionManager H).Reachable state)
    {generation : Generation} (henabled : Enabled state (.sendEvent generation)) :
    (channels Holder SentEvent).Legal (eventChannel state)
        (eventOperations (state,.sendEvent generation)) ∧
      (channels Holder SentEvent).final (eventChannel state)
        (eventOperations (state,.sendEvent generation))=
          eventChannelKept state (.sendEvent generation) := by
  obtain ⟨event,hphase,hnext⟩ := next_sendEvent henabled
  have hholds := sender_of_sending hreach hphase
  have hqueue : (eventChannelKept state (.sendEvent generation)).queue=
      if state.manager.phase=.exited then state.events
      else state.events++[⟨event,generation⟩] := by
    rw [eventChannelKept,hnext]
  have hholders : (eventChannelKept state (.sendEvent generation)).holders=
      eventSenders state.ownerAlive (decide (state.manager.phase≠.exited))
        (Function.update state.processors generation (.afterSend event)) state.nextGeneration := by
    rw [eventChannelKept,hnext]
    rfl
  have hlast : event=.connectionClosed → (eventChannelKept state (.sendEvent generation)).holders=
      (eventChannel state).holders.erase (.processor generation) := by
    intro hclosed
    rw [hholders,(afterSend_eq_terminated_iff event).mpr hclosed]
    exact eventSenders_terminated
  have hmore : event≠.connectionClosed → (eventChannelKept state (.sendEvent generation)).holders=
      (eventChannel state).holders := by
    intro hopen
    rw [hholders]
    refine eventSenders_update ?_ (mt (afterSend_eq_terminated_iff event).mp hopen)
    rw [hphase]
    exact ProcessorPhase.noConfusion
  simp only [eventOperations,hphase]
  by_cases hgone : state.manager.phase=.exited
  · rw [if_pos hgone] at hqueue
    rw [if_pos hgone,List.nil_append]
    by_cases hclosed : event=.connectionClosed
    · rw [if_pos hclosed]
      exact ⟨⟨hholds,trivial⟩,Channel.ext hqueue.symm (hlast hclosed).symm⟩
    · rw [if_neg hclosed]
      exact ⟨trivial,Channel.ext hqueue.symm (hmore hclosed).symm⟩
  · rw [if_neg hgone] at hqueue
    rw [if_neg hgone]
    by_cases hclosed : event=.connectionClosed
    · rw [if_pos hclosed]
      exact ⟨⟨hholds,hholds,trivial⟩,Channel.ext hqueue.symm (hlast hclosed).symm⟩
    · rw [if_neg hclosed]
      exact ⟨⟨hholds,trivial⟩,Channel.ext hqueue.symm (hmore hclosed).symm⟩

/-- Every step is a run of the stream-event channel, up to the task's clone. -/
theorem eventChannelKept_run (hreach : (connectionManager H).Reachable state)
    (henabled : Enabled state action) :
    (channels Holder SentEvent).Legal (eventChannel state) (eventOperations (state,action)) ∧
      (channels Holder SentEvent).final (eventChannel state) (eventOperations (state,action))=
        eventChannelKept state action := by
  cases action with
  | dropOwner =>
    have halive : state.ownerAlive=true := henabled
    refine ⟨⟨owner_mem_eventSenders.mpr halive,trivial⟩,?_⟩
    refine Channel.ext rfl ?_
    change (eventSenders state.ownerAlive _ _ _).erase .owner=
      eventSenders false _ state.processors state.nextGeneration
    rw [halive,eventSenders_ownerDropped]
  | connectSucceeded order =>
    have hrunning : state.manager.phase≠.exited := by
      rw [henabled.1]
      exact ManagerPhase.noConfusion
    have hnew : .processor state.nextGeneration∉(eventChannel state).holders :=
      fun hmem => Nat.lt_irrefl _ (processor_mem_eventSenders.mp hmem).1
    refine ⟨⟨⟨task_mem_eventSenders.mpr (decide_eq_true hrunning),hnew⟩,trivial⟩,?_⟩
    exact Channel.ext rfl (eventSenders_spawned ProcessorPhase.noConfusion).symm
  | receiveEvent accepted =>
    obtain ⟨_,_,hevents,hnext⟩ := next_receiveEvent henabled
    refine ⟨⟨henabled.2,trivial⟩,?_⟩
    rw [eventChannelKept,hnext]
    refine Channel.ext ?_ rfl
    exact congrArg List.tail hevents
  | receiveItem generation item =>
    have hreading : state.processors generation=.reading := henabled
    refine ⟨trivial,Channel.ext rfl (eventSenders_update ?_ (onItem_ne_terminated item)).symm⟩
    rw [hreading]
    exact ProcessorPhase.noConfusion
  | endOfStream generation =>
    have hreading : state.processors generation=.reading := henabled
    refine ⟨trivial,Channel.ext rfl (eventSenders_update ?_ ProcessorPhase.noConfusion).symm⟩
    rw [hreading]
    exact ProcessorPhase.noConfusion
  | dispatch generation order outcome =>
    obtain ⟨_,hdispatching,_⟩ := dispatching_of_dispatch henabled
    refine ⟨trivial,Channel.ext rfl (eventSenders_update ?_ ProcessorPhase.noConfusion).symm⟩
    rw [hdispatching]
    exact ProcessorPhase.noConfusion
  | sendEvent generation => exact eventChannelKept_sendEvent hreach henabled
  | connectFailed =>
    rw [eventChannelKept,next_connectFailed]
    exact ⟨trivial,rfl⟩
  | recordConnection =>
    obtain ⟨_,_,hnext⟩ := next_recordConnection henabled
    rw [eventChannelKept,hnext]
    exact ⟨trivial,rfl⟩
  | receiveCommand =>
    obtain ⟨_,_,_,hnext⟩ := next_receiveCommand henabled
    rw [eventChannelKept,hnext]
    exact ⟨trivial,rfl⟩
  | _ => exact ⟨trivial,rfl⟩

/-- The task drops its clone when it ends, and not before. -/
theorem taskOperations_run (henabled : Enabled state action) :
    (channels Holder SentEvent).Legal (eventChannelKept state action)
        (taskOperations (state,action)) ∧
      (channels Holder SentEvent).final (eventChannelKept state action)
        (taskOperations (state,action))=eventChannel (next state action) := by
  unfold taskOperations
  split
  · rename_i hends
    have hbefore : decide (state.manager.phase≠.exited)=true := decide_eq_true hends.1
    have hafter : decide ((next state action).manager.phase≠.exited)=false :=
      decide_eq_false fun hrunning => hrunning hends.2
    refine ⟨⟨task_mem_eventSenders.mpr hbefore,trivial⟩,?_⟩
    refine Channel.ext rfl ?_
    change (eventSenders _ (decide _) _ _).erase .task=eventSenders _ (decide _) _ _
    rw [hbefore,hafter,eventSenders_taskEnded]
  · rename_i hgoesOn
    have hsame : decide (state.manager.phase≠.exited)=
        decide ((next state action).manager.phase≠.exited) := by
      refine decide_eq_decide.mpr (not_congr ⟨?_,?_⟩)
      · intro hexited
        rw [exited_next henabled hexited]
        exact hexited
      · intro hexited
        by_contra hrunning
        exact hgoesOn ⟨hrunning,hexited⟩
    refine ⟨trivial,?_⟩
    change eventChannelKept state action=_
    rw [eventChannelKept,hsame]
    rfl

/-- Every step is a run of the stream-event channel. -/
theorem eventChannel_next (hreach : (connectionManager H).Reachable state)
    (henabled : Enabled state action) :
    (channels Holder SentEvent).Legal (eventChannel state)
        (eventOperations (state,action)++taskOperations (state,action)) ∧
      (channels Holder SentEvent).final (eventChannel state)
        (eventOperations (state,action)++taskOperations (state,action))=
          eventChannel (next state action) := by
  obtain ⟨hlegal,hfinal⟩ := eventChannelKept_run hreach henabled
  obtain ⟨htask,hends⟩ := @taskOperations_run _ state action henabled
  rw [legal_append,final_append,hfinal]
  exact ⟨⟨hlegal,htask⟩,hends⟩

end Steps

section Guard

variable {state : State H}

theorem card_ownerSenders (ownerAlive : Bool) :
    (ownerSenders ownerAlive).card=if ownerAlive then 1 else 0 := by cases ownerAlive <;> rfl

/-- While the task runs, the senders counted by the guard are the holders. -/
theorem card_holders (hrunning : state.manager.phase≠.exited) :
    (eventChannel state).holders.card=state.streamEventSenders := by
  have hcaptured : decide (state.manager.phase≠.exited)=true := decide_eq_true hrunning
  have htask : Disjoint (ownerSenders state.ownerAlive) {Holder.task} := by
    rw [Finset.disjoint_singleton_right,mem_ownerSenders]
    exact fun hmem => Holder.noConfusion hmem.2
  have hprocessors : Disjoint (ownerSenders state.ownerAlive ∪ {Holder.task})
      (((Finset.range state.nextGeneration).filter fun generation =>
        state.processors generation≠.terminated).image Holder.processor) := by
    rw [Finset.disjoint_left]
    intro holder hleft hright
    obtain ⟨generation,_,rfl⟩ := Finset.mem_image.mp hright
    rcases Finset.mem_union.mp hleft with hmem|hmem
    · exact Holder.noConfusion (mem_ownerSenders.mp hmem).2
    · exact Holder.noConfusion (Finset.mem_singleton.mp hmem)
  have hinjective : Function.Injective Holder.processor := fun _ _ => Holder.processor.inj
  rw [eventChannel,eventSenders,hcaptured,if_pos rfl,Finset.card_union_of_disjoint hprocessors,
    Finset.card_union_of_disjoint htask,Finset.card_image_of_injective _ hinjective,
    card_ownerSenders]
  rfl

/-- The task holds a sender of the channel it receives on. -/
theorem task_holds (hrunning : state.manager.phase≠.exited) :
    .task∈(eventChannel state).holders := task_mem_eventSenders.mpr (decide_eq_true hrunning)

/-- The `else` branch is for a task all of whose channels are closed. -/
theorem allChannelsClosed_iff :
    Enabled state .allChannelsClosed ↔ state.manager.phase=.selecting ∧
      (commandChannel state).Closed ∧ (eventChannel state).Closed ∧
        (shutdownChannel state).Closed := by
  have howner : ownerSenders state.ownerAlive=∅ ↔ state.ownerAlive=false := by
    cases state.ownerAlive <;> decide
  have hsignal : (if state.shutdownSignalled then [()] else [])=[] ↔
      state.shutdownSignalled=false := by cases state.shutdownSignalled <;> decide
  constructor
  · intro ⟨hphase,hcommands,hevents,hgone,hsignalled,hsenders⟩
    have hrunning := running_of_selecting hphase
    have hempty := Finset.card_eq_zero.mp ((card_holders hrunning).trans hsenders)
    exact ⟨hphase,⟨hcommands,howner.mpr hgone⟩,⟨hevents,hempty⟩,hsignal.mpr hsignalled,
      howner.mpr hgone⟩
  · intro ⟨hphase,hcommands,hevents,hshutdown⟩
    have hrunning := running_of_selecting hphase
    exact ⟨hphase,hcommands.1,hevents.1,howner.mp hcommands.2,hsignal.mp hshutdown.1,
      (card_holders hrunning).symm.trans (Finset.card_eq_zero.mpr hevents.2)⟩

/-- No task finds its stream-event channel closed, and so none takes the `else`
branch. -/
theorem not_allChannelsClosed : ¬Enabled state .allChannelsClosed := by
  intro henabled
  obtain ⟨hphase,_,hevents,_⟩ := allChannelsClosed_iff.mp henabled
  exact Channel.not_closed (task_holds (running_of_selecting hphase)) hevents

/-- The clone of the task is not the only reason. A task that waits with no
event queued has a connection whose processor still holds a sender. -/
theorem processor_holds (hreach : (connectionManager H).Reachable state)
    (hphase : state.manager.phase=.selecting) (hevents : state.events=[]) :
    ∃ generation,state.manager.client=some generation ∧
      .processor generation∈(eventChannel state).holders := by
  obtain ⟨generation,hclient,_,hcurrent⟩ := holds_of_selecting hreach hphase
  refine ⟨generation,hclient,processor_mem_eventSenders.mpr ⟨?_,?_⟩⟩
  · exact Supervision.current_lt_opened ((sessions H).reachable hreach) hcurrent
  · intro hdone
    have hholds : Holds state generation := ⟨running_of_selecting hphase,hclient⟩
    have hnotice := Disconnects.notice_of_terminated hreach hholds hdone
    rw [view,hevents] at hnotice
    cases hnotice

end Guard

section Runs

variable {start : State H} {actions : List (Action H)}

/-- In a run nothing happens to the command channel once it is closed. -/
theorem commandOperations_of_closed (hreach : (connectionManager H).Reachable start)
    (hrun : (connectionManager H).Legal start actions) (hclosed : (commandChannel start).Closed) :
    (∀ step∈(connectionManager H).steps start actions,commandOperations step=[]) ∧
      (commandChannel ((connectionManager H).final start actions)).Closed :=
  hclosed.of_run (fun _ _ _ henabled => commandChannel_next henabled) hreach hrun

/-- Nor to the shutdown broadcast. -/
theorem shutdownOperations_of_closed (hreach : (connectionManager H).Reachable start)
    (hrun : (connectionManager H).Legal start actions) (hclosed : (shutdownChannel start).Closed) :
    (∀ step∈(connectionManager H).steps start actions,shutdownOperations step=[]) ∧
      (shutdownChannel ((connectionManager H).final start actions)).Closed :=
  hclosed.of_run (fun _ _ _ henabled => shutdownChannel_next henabled) hreach hrun

/-- What a run does to a channel is a run of the channel. -/
def RunsAs {α : Type} (view : State H → Channel Holder α)
    (operations : State H × Action H → List (Operation Holder α)) (start : State H)
    (actions : List (Action H)) : Prop :=
  (channels Holder α).Legal (view start)
      (((connectionManager H).steps start actions).flatMap operations) ∧
    (channels Holder α).final (view start)
      (((connectionManager H).steps start actions).flatMap operations)=
        view ((connectionManager H).final start actions)

/-- The stream-event channel closes when the task has ended, the owner is gone,
all processors have returned and nothing is queued. -/
theorem eventChannel_closed_iff {state : State H} :
    (eventChannel state).Closed ↔ state.manager.phase=.exited ∧ state.ownerAlive=false ∧
      (∀ generation < state.nextGeneration,state.processors generation=.terminated) ∧
        state.events=[] := by
  constructor
  · intro ⟨hevents,hholders⟩
    have hnobody : ∀ holder,holder∉(eventChannel state).holders := by
      intro holder hmem
      rw [hholders] at hmem
      exact absurd hmem (Finset.notMem_empty holder)
    refine ⟨?_,?_,?_,hevents⟩
    · by_contra hrunning
      exact hnobody .task (task_holds hrunning)
    · exact Bool.eq_false_iff.mpr fun halive => hnobody .owner (owner_mem_eventSenders.mpr halive)
    · intro generation hspawned
      by_contra hgoesOn
      exact hnobody (.processor generation) (processor_mem_eventSenders.mpr ⟨hspawned,hgoesOn⟩)
  · intro ⟨hexited,hgone,hreturned,hevents⟩
    refine ⟨hevents,Finset.eq_empty_of_forall_notMem fun holder hmem => ?_⟩
    cases holder with
    | owner => cases (owner_mem_eventSenders.mp hmem).symm.trans hgone
    | task => exact of_decide_eq_true (task_mem_eventSenders.mp hmem) hexited
    | processor generation =>
      obtain ⟨hspawned,hgoesOn⟩ := processor_mem_eventSenders.mp hmem
      exact hgoesOn (hreturned generation hspawned)

end Runs

/-- How the channels fare in a run. -/
structure ChannelsKept (start : State H) (actions : List (Action H)) : Prop where
  /-- Commands are sent by the owner, and taken in the order they were sent. -/
  commands : RunsAs commandChannel commandOperations start actions
  /-- Stream events are sent by processors, each with a sender cloned from that of the
  task, which drops its own when it ends. -/
  events : RunsAs eventChannel (fun step => eventOperations step++taskOperations step) start
    actions
  /-- Shutdown signals are sent by the owner. -/
  shutdown : RunsAs shutdownChannel shutdownOperations start actions
  /-- Nothing happens to a closed command channel, and it stays closed. -/
  commandsClosed : (commandChannel start).Closed →
    (∀ step∈(connectionManager H).steps start actions,commandOperations step=[]) ∧
      (commandChannel ((connectionManager H).final start actions)).Closed
  /-- Nor to a closed shutdown broadcast. -/
  shutdownClosed : (shutdownChannel start).Closed →
    (∀ step∈(connectionManager H).steps start actions,shutdownOperations step=[]) ∧
      (shutdownChannel ((connectionManager H).final start actions)).Closed
  /-- The stream-event channel closes only after the task has ended, when nobody is left
  to send. -/
  eventsClosed : (eventChannel ((connectionManager H).final start actions)).Closed ↔
    ((connectionManager H).final start actions).manager.phase=.exited ∧
      ((connectionManager H).final start actions).ownerAlive=false ∧
      (∀ generation < ((connectionManager H).final start actions).nextGeneration,
        ((connectionManager H).final start actions).processors generation=.terminated) ∧
      ((connectionManager H).final start actions).events=[]
  /-- The `else` branch of `select!` is not taken. -/
  elseBranch : .allChannelsClosed∉actions

/-- In every run, from any reachable state, the manager's three channels are
channels: senders come from senders, messages are taken in the order they were
sent, and what is closed stays closed; but a task that runs never finds all of
them closed. -/
theorem channels_are_kept {start : State H} {actions : List (Action H)}
    (hreach : (connectionManager H).Reachable start)
    (hrun : (connectionManager H).Legal start actions) : ChannelsKept start actions := by
  refine ⟨?_,?_,?_,commandOperations_of_closed hreach hrun,
    shutdownOperations_of_closed hreach hrun,eventChannel_closed_iff,fun hmem => ?_⟩
  · exact legal_flatMap_steps commandChannel commandOperations
      (fun _ _ _ henabled => commandChannel_next henabled) hreach hrun
  · exact legal_flatMap_steps eventChannel (fun step => eventOperations step++taskOperations step)
      (fun _ _ hreachable henabled => eventChannel_next hreachable henabled) hreach hrun
  · exact legal_flatMap_steps shutdownChannel shutdownOperations
      (fun _ _ _ henabled => shutdownChannel_next henabled) hreach hrun
  · obtain ⟨state,hstep⟩ := exists_step_of_mem hmem
    exact not_allChannelsClosed (hrun.enabled_of_mem_steps hstep)

/-- The owner shuts the manager down and is dropped; the stream then ends. -/
def closingRun : List (Action Unit) :=
  [.enterLoop,.connectSucceeded [],.recordConnection,.sendCommand .shutdown,.signalShutdown,
    .dropOwner,.receiveCommand,.endOfStream 0,.sendEvent 0]

theorem channels_are_kept_closingRun :
    ChannelsKept (State.start 0) closingRun ∧
      (eventChannel ((connectionManager Unit).final (State.start 0) closingRun)).Closed :=
  ⟨channels_are_kept (System.Reachable.start (initial_iff.mpr ⟨0,rfl⟩)) (by decide),by decide,
    by decide⟩

end SteamHandler.ChannelEnds
