import SteamHandler.Behaviours
import SteamHandler.EventReports
import SteamHandler.OwnerGone
import SteamHandler.Progress

/-!
# Under a fair runtime

What the manager can do it does, in every endless run in which its task is polled,
time passes, its attempts and sends end, and neither `select!` nor the channels
neglect anybody for ever. It comes back to `select!` from wherever it is, or
ends; so every command and every event that was sent is taken, a shutdown that was
requested is completed, and, where nobody sends commands any more and no
connection is lost, the server applies a request built from what all commands ever
sent have left, and does so for good. All this goes for as long as the task runs: it
ends by a shutdown or by the panic of the 65th failure in a row.
-/

namespace SteamHandler.FairRuns

open Messages SubscriptionRegistry Requests ConnectionManager ManagerRuns ServerView Attempts
open CommandHistory Progress EventReports Behaviours TransitionSystem

variable {H : Type}

/-- What is asked of the runtime, of the clock and of the network. -/
structure FairRuntime (run : Behaviour (connectionManager H)) : Prop where
  /-- The manager task goes on if it always could: its attempts and sends end. -/
  manager : run.WeaklyFair fun action => isManagerStep action=true
  /-- Time passes. -/
  time : ∀ instant,∃ moment,instant ≤ (run.state moment).clock
  /-- `select!` does not neglect the command branch. -/
  command : run.StronglyFair fun action => action=.receiveCommand
  /-- Nor the event branch. -/
  event : run.StronglyFair fun action => ∃ accepted,action=.receiveEvent accepted
  /-- Nor the shutdown branch. -/
  shutdown : run.StronglyFair fun action => action=.receiveShutdown
  /-- A processor that waits for room in the event channel gets its turn. -/
  send : ∀ generation,run.StronglyFair fun action => action=.sendEvent generation

/-- The task leaves its loop at this moment: it takes a shutdown command, or the notice
of a shutdown. -/
def LeavesLoop (run : Behaviour (connectionManager H)) (moment : ℕ) : Prop :=
  (run.action moment=some .receiveCommand ∧
      (run.state moment).commands.head?=some .shutdown) ∨
    run.action moment=some .receiveShutdown

/-- The task panics at this moment: an attempt fails, the 65th in a row. -/
def Panics (run : Behaviour (connectionManager H)) (moment : ℕ) : Prop :=
  run.action moment=some .connectFailed ∧ failuresSince (run.history moment)=64

/-- The command that an action sends. -/
def sentBy : Action H → Option (ManagerCommand H)
  | .sendCommand command => some command
  | _ => none

section Steps

variable {state : State H} {action : Action H}

/-- The clock does not go back. -/
theorem clock_next (henabled : Enabled state action) : state.clock ≤ (next state action).clock := by
  cases action with
  | tick elapsed => exact Nat.le_add_right _ _
  | connectFailed =>
    rw [next_connectFailed]
  | recordConnection =>
    obtain ⟨_,_,hnext⟩ := next_recordConnection henabled
    rw [hnext]
  | receiveCommand =>
    obtain ⟨_,_,_,hnext⟩ := next_receiveCommand henabled
    rw [hnext]
  | receiveEvent accepted =>
    obtain ⟨_,_,_,hnext⟩ := next_receiveEvent henabled
    rw [hnext]
  | sendEvent generation =>
    obtain ⟨_,_,hnext⟩ := next_sendEvent henabled
    rw [hnext]
    exact Nat.le_refl _
  | _ => exact Nat.le_refl _

/-- When the sleep of a phase is over. -/
def sleepEnd : ManagerPhase → Instant
  | .circuitOpen wakeAt => wakeAt
  | .backingOff wakeAt => wakeAt
  | _ => 0

/-- A manager on its way to `select!` has a step to take, once its sleep is over. -/
theorem manager_possible (hrunning : state.manager.phase≠.exited)
    (hbusy : state.manager.phase≠.selecting) (hslept : sleepEnd state.manager.phase ≤ state.clock) :
    Possible (connectionManager H) (fun action => isManagerStep action=true) state := by
  obtain ⟨order,horder⟩ := state.registry.subscriptions.exists_iterationOrder
  cases hphase : state.manager.phase with
  | loopHead => exact ⟨.enterLoop,hphase,rfl⟩
  | circuitOpen wakeAt =>
    refine ⟨.wake,?_,rfl⟩
    change Enabled state .wake
    rw [hphase] at hslept
    simp only [Enabled,hphase]
    exact hslept
  | attempting => exact ⟨.connectFailed,hphase,rfl⟩
  | established generation =>
    refine ⟨.recordConnection,?_,rfl⟩
    change Enabled state .recordConnection
    simp only [Enabled,hphase]
  | backingOff wakeAt =>
    refine ⟨.wake,?_,rfl⟩
    change Enabled state .wake
    rw [hphase] at hslept
    simp only [Enabled,hphase]
    exact hslept
  | selecting => exact absurd hphase hbusy
  | updating => exact ⟨.sendUpdate order true,⟨hphase,horder⟩,rfl⟩
  | exited => exact absurd hphase hrunning

/-- How far the manager is from `select!`, failures included. -/
def distance (manager : Manager) : ℕ :=
  7*(64-manager.consecutiveFailures.toNat)+rank manager.phase

/-- On the way to `select!` each step of the manager gets it nearer, since only so
many attempts can fail. -/
theorem distance_next (hreach : (connectionManager H).Reachable state)
    (henabled : Enabled state action) (hmanager : isManagerStep action=true)
    (hrunning : state.manager.phase≠.exited) (hbusy : state.manager.phase≠.selecting) :
    (next state action).manager.phase=.selecting ∨
      distance (next state action).manager < distance state.manager := by
  have hrank := rank_next henabled
  have hcost : cost action=1 := if_pos hmanager
  have hbound := counter_le_of_reachable hreach hrunning
  by_cases hrecorded : action=.recordConnection
  · subst hrecorded
    obtain ⟨_,_,hnext⟩ := next_recordConnection henabled
    rw [hnext]
    exact Or.inl rfl
  by_cases hfailed : action=.connectFailed
  · subst hfailed
    have hphase : state.manager.phase=.attempting := henabled
    refine Or.inr ?_
    rw [next_connectFailed,distance,distance,hphase]
    dsimp only
    have hafter := rank_connectFailed state.manager state.clock
    by_cases hexited : (state.manager.connectFailed state.clock).phase=.exited
    · have hgone : rank (state.manager.connectFailed state.clock).phase=0 := by
        rw [hexited]
        rfl
      have hsame : (state.manager.connectFailed state.clock).consecutiveFailures=
          state.manager.consecutiveFailures := by
        rcases state.manager.connectFailed_cases state.clock with ⟨_,_,hsleep⟩|hpanic
        · rw [hsleep] at hexited
          cases hexited
        · rw [hpanic]
      rw [hgone,hsame,rank]
      omega
    · obtain ⟨hcounter,_⟩ := failed_counter rfl hbound hexited
      rw [hcounter,rank]
      omega
  · have hcounter := counter_next henabled hfailed hrecorded
    have hfree : credit action=0 := by
      cases action with
      | receiveCommand => exact absurd henabled.1 hbusy
      | receiveEvent accepted => exact absurd henabled.1 hbusy
      | connectFailed => exact absurd rfl hfailed
      | _ => rfl
    rw [distance,distance,hcounter]
    omega

/-- A processor that has something in hand is moved by its own send or dispatch. -/
theorem busy_next (hreach : (connectionManager H).Reachable state) (henabled : Enabled state action)
    {generation : Generation} (hspawned : state.processors generation≠.unspawned)
    (hbusy : state.processors generation≠.reading) (hsend : action≠.sendEvent generation)
    (hdispatch : ∀ order outcome,action≠.dispatch generation order outcome) :
    (next state action).processors generation=state.processors generation := by
  refine processor_unmoved henabled fun phase hmoved => ?_
  cases action with
  | connectSucceeded order =>
    have hfresh : state.nextGeneration=generation := congrArg Prod.fst (Option.some.inj hmoved)
    exact hspawned (Sessions.unspawned_of_nextGeneration_le hreach (Nat.le_of_eq hfresh))
  | receiveItem other item =>
    obtain rfl : other=generation := congrArg Prod.fst (Option.some.inj hmoved)
    exact hbusy henabled
  | endOfStream other =>
    obtain rfl : other=generation := congrArg Prod.fst (Option.some.inj hmoved)
    exact hbusy henabled
  | dispatch other order outcome =>
    obtain rfl : other=generation := congrArg Prod.fst (Option.some.inj hmoved)
    exact hdispatch order outcome rfl
  | sendEvent other =>
    obtain ⟨sent,hphase,_⟩ := next_sendEvent henabled
    simp only [movedBy,hphase] at hmoved
    obtain rfl : other=generation := congrArg Prod.fst (Option.some.inj hmoved)
    exact hsend rfl
  | _ => cases hmoved

/-- A processor that is sending is moved by its send alone. -/
theorem sending_next (hreach : (connectionManager H).Reachable state) (henabled : Enabled state action)
    {generation : Generation} (hother : action≠.sendEvent generation) {event : StreamEvent}
    (hsending : state.processors generation=.sending event) :
    (next state action).processors generation=.sending event := by
  have hkept := @busy_next H state action hreach henabled generation
  rw [hsending] at hkept
  refine hkept (fun h => by cases h) (fun h => by cases h) hother fun order outcome hsame => ?_
  rw [hsame] at henabled
  obtain ⟨_,hdispatching,_⟩ := dispatching_of_dispatch henabled
  cases hsending.symm.trans hdispatching

/-- A command is queued last and taken first. -/
theorem commands_next (henabled : Enabled state action) :
    state.commands++(sentBy action).toList=
      (handledBy (state,action)).toList++(next state action).commands := by
  have hqueue := (queue_next henabled).1
  rw [sentCommands,List.filterMap_cons,List.filterMap_nil] at hqueue
  cases action <;> exact hqueue

/-- Only the command branch of `select!` takes a command. -/
theorem takesCommand_iff (henabled : Enabled state action) :
    action=.receiveCommand ↔ (handledBy (state,action)).isSome=true := by
  cases action with
  | receiveCommand =>
    obtain ⟨command,rest,hcommands,_⟩ := next_receiveCommand henabled
    simp only [handledBy,hcommands,List.head?_cons,Option.isSome_some]
  | _ => exact ⟨fun h => (by cases h),fun h => (by cases h)⟩

/-- Only the event branch of `select!` takes an event. -/
theorem takesEvent_iff (henabled : Enabled state action) :
    (∃ accepted,action=.receiveEvent accepted) ↔ (takenOff (state,action)).isSome=true := by
  cases action with
  | receiveEvent accepted =>
    obtain ⟨sent,rest,hevents,_⟩ := next_receiveEvent henabled
    simp only [takenOff,hevents,List.head?_cons,Option.isSome_some,iff_true]
    exact ⟨accepted,rfl⟩
  | _ => exact ⟨fun h => (by cases h.choose_spec),fun h => (by cases h)⟩

/-- The channels hold no more than their capacity. -/
theorem within_capacity (h : (connectionManager H).Reachable state) :
    state.commands.length ≤ channelCapacity ∧ state.events.length ≤ channelCapacity := by
  refine System.Reachable.invariant (I := fun state : State H =>
    state.commands.length ≤ channelCapacity ∧ state.events.length ≤ channelCapacity) ?_ ?_ h
  · intro state hinit
    obtain ⟨clock,rfl⟩ := initial_iff.mp hinit
    exact ⟨Nat.zero_le _,Nat.zero_le _⟩
  · intro state action _ hbounded henabled
    have hevents := congrArg List.length (events_next henabled)
    rw [List.length_append,List.length_append] at hevents
    refine ⟨commands_within_next henabled hbounded.1,?_⟩
    have hqueued := hbounded.2
    change (next state action).events.length ≤ channelCapacity
    cases hput : queuedBy (state,action) with
    | none =>
      rw [hput,Option.toList_none,List.length_nil] at hevents
      omega
    | some sent =>
      cases action with
      | sendEvent generation =>
        obtain ⟨event,hphase,_⟩ := next_sendEvent henabled
        have hroom : state.manager.phase=.exited ∨ state.events.length < channelCapacity := by
          change Enabled state (.sendEvent generation) at henabled
          simp only [Enabled,hphase] at henabled
          exact henabled
        rcases hroom with hexited|hroom
        · rw [queuedBy_exited hexited] at hput
          cases hput
        · rw [hput,Option.toList_some,List.length_singleton] at hevents
          omega
      | _ => cases hput

/-- Handling a shutdown command ends the task. -/
theorem exited_of_handled {start : State H} {actions : List (Action H)}
    (hrun : (connectionManager H).Legal start actions)
    (hhandled : .shutdown∈handledCommands start actions) :
    ((connectionManager H).final start actions).manager.phase=.exited := by
  revert hhandled
  refine System.Legal.run_induction (P := fun actions => .shutdown∈handledCommands start actions →
    ((connectionManager H).final start actions).manager.phase=.exited) ?_ ?_ hrun
  · exact fun h => absurd h List.not_mem_nil
  · intro history action _ ih henabled hmem
    have hstep : Enabled ((connectionManager H).final start history) action := henabled
    rw [final_append]
    change (next ((connectionManager H).final start history) action).manager.phase=.exited
    rw [handledCommands_snoc] at hmem
    rcases List.mem_append.mp hmem with hbefore|hlast
    · rw [exited_next hstep (ih hbefore)]
      exact ih hbefore
    · cases action with
      | receiveCommand =>
        obtain ⟨command,rest,hcommands,hnext⟩ := next_receiveCommand hstep
        simp only [handledBy,hcommands,List.head?_cons,Option.toList_some,List.mem_singleton] at hlast
        rw [hnext,←hlast]
        rfl
      | _ => cases hlast

/-- The manager has nothing to do but to wait: it holds a connection on which the
server applies a request built from the registry. -/
structure InService (registry : Registry H) (state : State H) : Prop where
  /-- No command is queued. -/
  commands : state.commands=[]
  /-- This is what is registered. -/
  registry : state.registry=registry
  /-- No update is due. -/
  update : state.manager.needsUpdate=false
  /-- The server has been told. -/
  synced : Synced state.manager state.registry.subscriptions state.serverFilters
  /-- The manager waits, or is about to. -/
  phase : state.manager.phase=.selecting ∨ state.manager.phase=.loopHead

/-- It stays so while nobody sends a command and no connection is lost. -/
theorem InService.step {registry : Registry H} (h : InService registry state)
    (henabled : Enabled state action) (hcalm : ∀ command,action≠.sendCommand command)
    (hkept : losesConnection state action=false) :
    (next state action).manager.phase=.exited ∨ InService registry (next state action) := by
  have haway : ∀ phase,phase≠.selecting → phase≠.loopHead → state.manager.phase≠phase := by
    intro phase hselecting hloop hphase
    rcases h.phase with hwaiting|hturning
    · exact hselecting (hphase.symm.trans hwaiting)
    · exact hloop (hphase.symm.trans hturning)
  cases action with
  | sendCommand command => exact absurd rfl (hcalm command)
  | enterLoop =>
    obtain ⟨generation,hclient,_⟩ := h.synced
    rcases state.manager.enterLoop_cases state.clock with
      ⟨hdue,_⟩|⟨hdue,_⟩|⟨_,hnext⟩
    · rw [h.update,hclient] at hdue
      cases hdue
    · rw [h.update,hclient] at hdue
      cases hdue
    · have hafter : next state .enterLoop=
          { state with manager := { state.manager with phase := .selecting } } :=
        congrArg (fun manager => { state with manager := manager }) hnext
      rw [hafter]
      exact Or.inr ⟨h.commands,h.registry,h.update,h.synced,Or.inl rfl⟩
  | wake =>
    obtain ⟨wakeAt,_,hsleep|hsleep⟩ := sleeping_of_wake henabled
    · exact absurd hsleep (haway _ ManagerPhase.noConfusion ManagerPhase.noConfusion)
    · exact absurd hsleep (haway _ ManagerPhase.noConfusion ManagerPhase.noConfusion)
  | connectFailed =>
    exact absurd henabled (haway _ ManagerPhase.noConfusion ManagerPhase.noConfusion)
  | connectSucceeded order =>
    exact absurd henabled.1 (haway _ ManagerPhase.noConfusion ManagerPhase.noConfusion)
  | recordConnection =>
    obtain ⟨_,hphase,_⟩ := next_recordConnection henabled
    exact absurd hphase (haway _ ManagerPhase.noConfusion ManagerPhase.noConfusion)
  | receiveCommand => exact absurd h.commands henabled.2
  | sendUpdate order accepted =>
    exact absurd henabled.1 (haway _ ManagerPhase.noConfusion ManagerPhase.noConfusion)
  | receiveEvent accepted =>
    obtain ⟨sent,rest,hevents,hnext⟩ := next_receiveEvent henabled
    simp only [losesConnection,hevents,Bool.or_eq_false_iff,Bool.not_eq_false'] at hkept
    have hsame : state.manager.afterEvent sent.event accepted=
        { state.manager with phase := .loopHead } := by
      cases hevent : sent.event with
      | pingReceived =>
        rw [Manager.afterEvent,hkept.2,Bool.not_true,Bool.and_false]
        rfl
      | _ =>
        rw [hevent] at hkept
        cases hkept.1
    rw [hnext,hsame]
    exact Or.inr ⟨h.commands,h.registry,h.update,h.synced,Or.inr rfl⟩
  | receiveShutdown => exact Or.inl rfl
  | allChannelsClosed => exact Or.inl rfl
  | sendEvent generation =>
    obtain ⟨_,_,hnext⟩ := next_sendEvent henabled
    rw [hnext]
    exact Or.inr ⟨h.commands,h.registry,h.update,h.synced,h.phase⟩
  | _ => exact Or.inr ⟨h.commands,h.registry,h.update,h.synced,h.phase⟩

end Steps

section Fair

variable {run : Behaviour (connectionManager H)} (hfair : FairRuntime run)

include hfair

/-- A manager on its way to `select!` takes its next step. -/
theorem takes_step {first : ℕ} (hrunning : (run.state first).manager.phase≠.exited)
    (hbusy : (run.state first).manager.phase≠.selecting) :
    ∃ moment,first ≤ moment ∧ run.Takes (fun action => isManagerStep action=true) moment ∧
      (run.state moment).manager=(run.state first).manager := by
  obtain ⟨awake,hawake⟩ := hfair.time (sleepEnd (run.state first).manager.phase)
  refine Behaviour.first_taken
    (P:=fun state : State H => state.manager=(run.state first).manager) rfl ?_ ?_
  · intro moment performed _ _ henabled hother hsame
    exact (manager_other henabled (Bool.eq_false_iff.mpr hother)).trans hsame
  · intro hstays
    obtain ⟨moment,hle,htakes⟩ := hfair.manager (max first awake) fun moment hle => by
      have hsame := hstays moment ((Nat.le_max_left _ _).trans hle)
      have hclock : (run.state awake).clock ≤ (run.state moment).clock :=
        run.kept (P:=fun state : State H => (run.state awake).clock ≤ state.clock) (Nat.le_refl _)
          (fun _ _ _ _ henabled hlate => hlate.trans (clock_next henabled))
          ((Nat.le_max_right _ _).trans hle)
      rw [←hsame] at hrunning hbusy hawake
      exact manager_possible hrunning hbusy (hawake.trans hclock)
    exact ⟨moment,(Nat.le_max_left _ _).trans hle,htakes⟩

/-- The manager comes back to `select!`, or ends. -/
theorem comes_back (first : ℕ) :
    ∃ moment,first ≤ moment ∧ ((run.state moment).manager.phase=.exited ∨
      (run.state moment).manager.phase=.selecting) := by
  refine @eventually_of_measure (fun moment => (run.state moment).manager.phase=.exited ∨
    (run.state moment).manager.phase=.selecting)
    (fun moment => distance (run.state moment).manager) first fun moment _ haway => ?_
  obtain ⟨hrunning,hbusy⟩ := not_or.mp haway
  obtain ⟨later,hle,⟨performed,haction,hmanager⟩,hsame⟩ := takes_step hfair hrunning hbusy
  obtain ⟨henabled,hnext⟩ := run.taken later performed haction
  refine ⟨later+1,hle.trans (Nat.le_succ _),?_⟩
  rw [hnext,←hsame]
  rw [←hsame] at hrunning hbusy
  rcases distance_next (run.reachable later) henabled hmanager hrunning hbusy with hback|hnearer
  · exact Or.inl (Or.inr hback)
  · exact Or.inr hnearer

/-- Again and again a command that waits can be taken. -/
theorem command_possible (moment : ℕ) :
    ∃ later,moment ≤ later ∧ ((run.state later).manager.phase=.exited ∨
      ((run.state later).commands≠[] →
        Possible (connectionManager H) (fun action => action=.receiveCommand) (run.state later))) := by
  obtain ⟨later,hle,hexited|hphase⟩ := comes_back hfair moment
  · exact ⟨later,hle,Or.inl hexited⟩
  · exact ⟨later,hle,Or.inr fun hwaiting => ⟨.receiveCommand,⟨hphase,hwaiting⟩,rfl⟩⟩

/-- So can an event. -/
theorem event_possible (moment : ℕ) :
    ∃ later,moment ≤ later ∧ ((run.state later).manager.phase=.exited ∨
      ((run.state later).events≠[] → Possible (connectionManager H)
        (fun action => ∃ accepted,action=.receiveEvent accepted) (run.state later))) := by
  obtain ⟨later,hle,hexited|hphase⟩ := comes_back hfair moment
  · exact ⟨later,hle,Or.inl hexited⟩
  · exact ⟨later,hle,Or.inr fun hwaiting => ⟨.receiveEvent true,⟨hphase,hwaiting⟩,true,rfl⟩⟩

/-- Whatever was sent as a command is handled, unless the task ends. -/
theorem commands_handled (first : ℕ) :
    ∃ moment,first ≤ moment ∧ ((run.state moment).manager.phase=.exited ∨
      sentCommands (run.history first)<+:
        handledCommands (run.state 0) (run.history moment)) := by
  obtain ⟨clock,hstart⟩ := initial_iff.mp run.initial
  have hempty : (run.state 0).commands=[] := by
    rw [hstart]
    rfl
  have hsent : run.log (fun step => sentBy step.2) first=sentCommands (run.history first) :=
    Behaviour.log_action sentBy first
  have hserved := hfair.command.serves State.commands (fun step => sentBy step.2) handledBy
    (fun state => state.manager.phase=.exited) (fun _ _ henabled => commands_next henabled)
    (fun _ _ henabled => takesCommand_iff henabled) (command_possible hfair) first
  rw [hempty,List.nil_append,hsent] at hserved
  exact hserved

/-- There is room in the command channel again and again. -/
theorem command_room (first : ℕ) :
    ∃ moment,first ≤ moment ∧ ((run.state moment).manager.phase=.exited ∨
      (run.state moment).commands.length < channelCapacity) := by
  refine hfair.command.makesRoom State.commands (fun step => sentBy step.2) handledBy
    (fun state => state.manager.phase=.exited) (fun _ _ henabled => commands_next henabled)
    (fun _ _ henabled => takesCommand_iff henabled) (command_possible hfair) ?_
    (Nat.succ_pos 99) (fun moment => (within_capacity (run.reachable moment)).1) first
  intro state action hchosen
  rw [hchosen]
  rfl

/-- Whatever got into the stream-event channel is taken, unless the task ends. -/
theorem events_taken (first : ℕ) :
    ∃ moment,first ≤ moment ∧ ((run.state moment).manager.phase=.exited ∨
      eventsQueued (run.state 0) (run.history first)<+:
        eventsTaken (run.state 0) (run.history moment)) := by
  obtain ⟨clock,hstart⟩ := initial_iff.mp run.initial
  have hempty : (run.state 0).events=[] := by
    rw [hstart]
    rfl
  have hserved := hfair.event.serves State.events queuedBy takenOff
    (fun state => state.manager.phase=.exited) (fun _ _ henabled => events_next henabled)
    (fun _ _ henabled => takesEvent_iff henabled) (event_possible hfair) first
  rw [hempty,List.nil_append] at hserved
  exact hserved

/-- There is room in the stream-event channel again and again. -/
theorem event_room (first : ℕ) :
    ∃ moment,first ≤ moment ∧ ((run.state moment).manager.phase=.exited ∨
      (run.state moment).events.length < channelCapacity) := by
  refine hfair.event.makesRoom State.events queuedBy takenOff
    (fun state => state.manager.phase=.exited) (fun _ _ henabled => events_next henabled)
    (fun _ _ henabled => takesEvent_iff henabled) (event_possible hfair) ?_
    (Nat.succ_pos 99) (fun moment => (within_capacity (run.reachable moment)).2) first
  intro state action hchosen
  obtain ⟨accepted,rfl⟩ := hchosen
  rfl

/-- A processor that waits for room in the stream-event channel gets it. -/
theorem event_sent {first : ℕ} {generation : Generation} {event : StreamEvent}
    (hsending : (run.state first).processors generation=.sending event) :
    ∃ moment,first ≤ moment ∧ (run.state moment).processors generation=.afterSend event := by
  obtain ⟨moment,hle,⟨performed,haction,rfl⟩,hstill⟩ := Behaviour.first_taken
    (P:=fun state : State H => state.processors generation=.sending event) hsending
    (fun moment performed _ _ henabled hother hstill =>
      sending_next (run.reachable moment) henabled hother hstill)
    fun hstays => hfair.send generation first fun moment hle => by
      obtain ⟨later,hlater,hfree⟩ := event_room hfair moment
      refine ⟨later,hlater,_,?_,rfl⟩
      change Enabled (run.state later) (.sendEvent generation)
      simp only [Enabled,hstays later (hle.trans hlater)]
      exact hfree
  obtain ⟨henabled,hnext⟩ := run.taken moment _ haction
  have hsend : Enabled (run.state moment) (.sendEvent generation) := henabled
  refine ⟨moment+1,hle.trans (Nat.le_succ _),?_⟩
  rw [hnext]
  refine processor_moved hsend ?_
  simp only [movedBy,hstill]

omit hfair in
/-- A task that has ended stays so. -/
theorem exited_later {first later : ℕ} (hexited : (run.state first).manager.phase=.exited)
    (hle : first ≤ later) : (run.state later).manager.phase=.exited := by
  refine run.kept (P:=fun state : State H => state.manager.phase=.exited) hexited ?_ hle
  intro moment performed _ _ henabled hbefore
  exact (congrArg Manager.phase (exited_next henabled hbefore)).trans hbefore

omit hfair in
/-- A task that ends leaves its loop, or panics. -/
theorem ends {moment : ℕ} (hrunning : (run.state moment).manager.phase≠.exited)
    (hexited : (run.state (moment+1)).manager.phase=.exited) :
    LeavesLoop run moment ∨ Panics run moment := by
  cases haction : run.action moment with
  | none =>
    rw [run.idle moment haction] at hexited
    exact absurd hexited hrunning
  | some performed =>
    obtain ⟨henabled,hnext⟩ := run.taken moment performed haction
    rw [hnext] at hexited
    rcases OwnerGone.taskEnds_cases henabled ⟨hrunning,hexited⟩ with
      ⟨rfl,_,hmany⟩|⟨rest,rfl,hcommands⟩|⟨rfl,_⟩
    · obtain ⟨hlegal,hfinal⟩ := run.history_run moment
      have hcounter := failures_of_run run.initial hlegal (by rwa [hfinal])
      rw [hfinal] at hcounter
      exact Or.inr ⟨haction,by omega⟩
    · refine Or.inl (Or.inl ⟨haction,?_⟩)
      rw [hcommands]
      rfl
    · exact Or.inl (Or.inr haction)

omit hfair in
/-- A task that has ended did so at some moment. -/
theorem ended_at {first last : ℕ} (hrunning : (run.state first).manager.phase≠.exited)
    (hle : first ≤ last) (hexited : (run.state last).manager.phase=.exited) :
    ∃ moment,first ≤ moment ∧ (LeavesLoop run moment ∨ Panics run moment) ∧
      (run.state (moment+1)).manager.phase=.exited := by
  induction last,hle using Nat.le_induction with
  | base => exact absurd hexited hrunning
  | succ moment hle ih =>
    by_cases hbefore : (run.state moment).manager.phase=.exited
    · exact ih hbefore
    · exact ⟨moment,hle,ends hbefore hexited,hexited⟩

/-- A shutdown that was requested ends the task. -/
theorem shut_down {first : ℕ}
    (hrequested : .shutdown∈(run.state first).commands ∨ (run.state first).shutdownSignalled=true) :
    ∃ moment,first ≤ moment ∧ (run.state moment).manager.phase=.exited := by
  rcases hrequested with hqueued|hsignalled
  · obtain ⟨moment,hle,hexited|hhandled⟩ := commands_handled hfair first
    · exact ⟨moment,hle,hexited⟩
    · have hsent : .shutdown∈sentCommands (run.history first) := by
        have hqueue := (registry_of_run run.initial (run.history_run first).1).1
        rw [(run.history_run first).2] at hqueue
        rw [hqueue]
        exact List.mem_append_right _ hqueued
      have hexited := exited_of_handled (run.history_run moment).1 (hhandled.subset hsent)
      rw [(run.history_run moment).2] at hexited
      exact ⟨moment,hle,hexited⟩
  · by_contra hnever
    have hstays : ∀ moment,first ≤ moment → (run.state moment).shutdownSignalled=true := by
      intro moment hle
      have hkept := run.kept (P:=fun state : State H => state.manager.phase=.exited ∨
        state.shutdownSignalled=true) (Or.inr hsignalled)
        (fun _ _ _ _ henabled hbefore => signalled_next henabled hbefore) hle
      exact hkept.resolve_left fun hexited => hnever ⟨moment,hle,hexited⟩
    obtain ⟨moment,hle,performed,haction,rfl⟩ := hfair.shutdown first fun moment hle => by
      obtain ⟨later,hlater,hexited|hphase⟩ := comes_back hfair moment
      · exact absurd ⟨later,hle.trans hlater,hexited⟩ hnever
      · exact ⟨later,hlater,.receiveShutdown,⟨hphase,hstays later (hle.trans hlater)⟩,rfl⟩
    refine hnever ⟨moment+1,hle.trans (Nat.le_succ _),?_⟩
    rw [(run.taken moment _ haction).2]
    rfl

omit hfair in
/-- Where nobody sends commands, the commands sent stay the same. -/
theorem sentCommands_later {first later : ℕ} (hle : first ≤ later)
    (hcalm : ∀ moment,first ≤ moment → ∀ command,run.action moment≠some (.sendCommand command)) :
    sentCommands (run.history later)=sentCommands (run.history first) := by
  induction later,hle using Nat.le_induction with
  | base => rfl
  | succ moment hle ih =>
    rw [Behaviour.history_succ,sentCommands_append,ih]
    refine (congrArg _ ?_).trans (List.append_nil _)
    cases haction : run.action moment with
    | none => rfl
    | some performed =>
      cases performed with
      | sendCommand command => exact absurd haction (hcalm moment hle command)
      | _ => rfl

/-- Where nobody sends commands any more and no connection is lost, the server gets
to apply what all commands have left, and stays there. -/
theorem converges {first : ℕ}
    (hcalm : ∀ moment,first ≤ moment → ∀ command,run.action moment≠some (.sendCommand command))
    (hkept : ∀ moment performed,first ≤ moment → run.action moment=some performed →
      losesConnection (run.state moment) performed=false) :
    ∃ moment,first ≤ moment ∧ ∀ later,moment ≤ later →
      ((run.state later).manager.phase=.exited ∨
        InService (registryAfter (sentCommands (run.history first))) (run.state later)) := by
  obtain ⟨settled,hsettled,hexited|hhandled⟩ := commands_handled hfair first
  · exact ⟨settled,hsettled,fun later hlater => Or.inl (exited_later hexited hlater)⟩
  obtain ⟨moment,hle,hexited|hphase⟩ := comes_back hfair settled
  · exact ⟨moment,hsettled.trans hle,fun later hlater => Or.inl (exited_later hexited hlater)⟩
  have hstart : InService (registryAfter (sentCommands (run.history first))) (run.state moment) := by
    obtain ⟨hqueue,hregistry⟩ := registry_of_run run.initial (run.history_run moment).1
    rw [(run.history_run moment).2] at hqueue hregistry
    rw [sentCommands_later (hsettled.trans hle) hcalm] at hqueue
    -- All that was sent has been handled, so that nothing is queued.
    have hall : (sentCommands (run.history first)).length ≤
        (handledCommands (run.state 0) (run.history moment)).length :=
      hhandled.length_le.trans (Behaviour.log_later handledBy hle).length_le
    have hlengths := congrArg List.length hqueue
    rw [List.length_append] at hlengths
    have hempty : (run.state moment).commands=[] := List.length_eq_zero_iff.mp (by omega)
    rw [hempty,List.append_nil] at hqueue
    rw [←hqueue] at hregistry
    obtain ⟨hupdate,hsynced⟩ := synced_of_selecting (run.reachable moment) hphase
    exact ⟨hempty,hregistry,hupdate,hsynced,Or.inl hphase⟩
  refine ⟨moment,hsettled.trans hle,fun later hlater => ?_⟩
  refine run.kept (P:=fun state : State H => state.manager.phase=.exited ∨
    InService (registryAfter (sentCommands (run.history first))) state) (Or.inr hstart) ?_ hlater
  intro other performed hother haction henabled hbefore
  rcases hbefore with hexited|hservice
  · exact Or.inl ((congrArg Manager.phase (exited_next henabled hexited)).trans hexited)
  · have hlate := (hsettled.trans hle).trans hother
    refine hservice.step henabled (fun command hsame => ?_) (hkept other performed hlate haction)
    rw [hsame] at haction
    exact hcalm other hlate command haction

end Fair

/-- What comes about in an endless run. -/
structure Served (run : Behaviour (connectionManager H)) : Prop where
  /-- The manager comes back to `select!` again and again, or ends; there it holds a
  connection on which the server applies a request built from the registry. -/
  comesBack : ∀ first,∃ moment,first ≤ moment ∧ ((run.state moment).manager.phase=.exited ∨
    (run.state moment).manager.phase=.selecting ∧ ∃ generation,
      Holds (run.state moment) generation ∧
        Builds (run.state moment).registry.subscriptions
          ((run.state moment).serverFilters generation))
  /-- All commands sent so far get handled, unless the task ends. -/
  handled : ∀ first,∃ moment,first ≤ moment ∧ ((run.state moment).manager.phase=.exited ∨
    sentCommands (run.history first)<+:handledCommands (run.state 0) (run.history moment))
  /-- A caller that waits for room in the command channel gets it again and again, unless
  the task ends. -/
  room : ∀ first,∃ moment,first ≤ moment ∧ ((run.state moment).manager.phase=.exited ∨
    (run.state moment).commands.length < channelCapacity)
  /-- All events that got into the stream-event channel get taken, unless the task ends. -/
  taken : ∀ first,∃ moment,first ≤ moment ∧ ((run.state moment).manager.phase=.exited ∨
    eventsQueued (run.state 0) (run.history first)<+:
      eventsTaken (run.state 0) (run.history moment))
  /-- A processor that has an event to send gets it sent, or refused by then. -/
  sent : ∀ first generation event,(run.state first).processors generation=.sending event →
    ∃ moment,first ≤ moment ∧ (run.state moment).processors generation=.afterSend event
  /-- A shutdown that was requested of a running task gets completed, unless the task
  panics: it leaves its loop, or else has its 65th failure in a row, and ends for good. -/
  shutDown : ∀ first,(run.state first).manager.phase≠.exited →
    .shutdown∈(run.state first).commands ∨ (run.state first).shutdownSignalled=true →
      ∃ moment,first ≤ moment ∧ (LeavesLoop run moment ∨ Panics run moment) ∧
        ∀ later,moment < later → (run.state later).manager.phase=.exited
  /-- The task ends in no other way. -/
  ends : ∀ moment,(run.state moment).manager.phase≠.exited →
    (run.state (moment+1)).manager.phase=.exited → LeavesLoop run moment ∨ Panics run moment
  /-- Once nobody sends commands and no connection is lost, the registry becomes what
  all commands have left, and the server applies a request built from it, for good,
  unless the task ends. -/
  converges : ∀ first,
    (∀ moment,first ≤ moment → ∀ command,run.action moment≠some (.sendCommand command)) →
    (∀ moment performed,first ≤ moment → run.action moment=some performed →
      losesConnection (run.state moment) performed=false) →
    ∃ moment,first ≤ moment ∧ ∀ later,moment ≤ later →
      ((run.state later).manager.phase=.exited ∨
        (run.state later).registry=registryAfter (sentCommands (run.history first)) ∧
          ∃ generation,Holds (run.state later) generation ∧
            Builds (run.state later).registry.subscriptions
              ((run.state later).serverFilters generation))

/-- In every endless run under a fair runtime, with any clients, streams, failures
and shutdowns in it, everybody is served until the task ends. -/
theorem fair_runs_serve {run : Behaviour (connectionManager H)} (hfair : FairRuntime run) :
    Served run := by
  refine ⟨fun first => ?_,commands_handled hfair,command_room hfair,events_taken hfair,
    fun first generation event => event_sent hfair,fun first hrunning hrequested => ?_,
    fun moment => ends,fun first hcalm hkept => ?_⟩
  · obtain ⟨moment,hle,hexited|hphase⟩ := comes_back hfair first
    · exact ⟨moment,hle,Or.inl hexited⟩
    · obtain ⟨_,generation,hclient,_,hbuilds⟩ := synced_of_selecting (run.reachable moment) hphase
      exact ⟨moment,hle,
        Or.inr ⟨hphase,generation,⟨running_of_selecting hphase,hclient⟩,hbuilds⟩⟩
  · obtain ⟨last,hlast,hexited⟩ := shut_down hfair hrequested
    obtain ⟨moment,hle,hhow,hended⟩ := ended_at hrunning hlast hexited
    exact ⟨moment,hle,hhow,fun later hlater => exited_later hended hlater⟩
  · obtain ⟨moment,hle,hservice⟩ := converges hfair hcalm hkept
    refine ⟨moment,hle,fun later hlater => ?_⟩
    rcases hservice later hlater with hexited|hin
    · exact Or.inl hexited
    · obtain ⟨generation,hclient,_,hbuilds⟩ := hin.synced
      have hrunning : (run.state later).manager.phase≠.exited := by
        rcases hin.phase with hphase|hphase
        · rw [hphase]
          exact ManagerPhase.noConfusion
        · rw [hphase]
          exact ManagerPhase.noConfusion
      exact Or.inr ⟨hin.registry,generation,⟨hrunning,hclient⟩,hbuilds⟩

section Sample

/-- The manager has ended, or waits while nobody wants anything of it. -/
def Unwanted (state : State H) : Prop :=
  (state.manager.phase=.exited ∨ Drained state ∧ state.shutdownSignalled=false) ∧
    ∀ generation event,state.processors generation≠.sending event

/-- It then has no step to take, and neither has a sender. -/
theorem Unwanted.impossible {state : State H} (h : Unwanted state) :
    (∀ action,isManagerStep action=true → ¬Enabled state action) ∧
      ∀ generation,¬Enabled state (.sendEvent generation) := by
  obtain ⟨hrests,hunsent⟩ := h
  have haway : ∀ phase,phase≠.exited → phase≠.selecting → state.manager.phase≠phase := by
    intro phase hexited hselecting hsame
    rcases hrests with hended|⟨⟨hphase,_⟩,_⟩
    · exact hexited (hsame.symm.trans hended)
    · exact hselecting (hsame.symm.trans hphase)
  have hwaits : state.manager.phase=.selecting →
      state.commands=[] ∧ state.events=[] ∧ state.shutdownSignalled=false := by
    intro hphase
    rcases hrests with hended|⟨⟨_,hcommands,hevents⟩,hunsignalled⟩
    · cases hphase.symm.trans hended
    · exact ⟨hcommands,hevents,hunsignalled⟩
  constructor
  · intro action hmanager henabled
    cases action with
    | enterLoop => exact haway _ ManagerPhase.noConfusion ManagerPhase.noConfusion henabled
    | wake =>
      obtain ⟨wakeAt,_,hsleep|hsleep⟩ := sleeping_of_wake henabled
      · exact haway _ ManagerPhase.noConfusion ManagerPhase.noConfusion hsleep
      · exact haway _ ManagerPhase.noConfusion ManagerPhase.noConfusion hsleep
    | connectFailed => exact haway _ ManagerPhase.noConfusion ManagerPhase.noConfusion henabled
    | connectSucceeded order =>
      exact haway _ ManagerPhase.noConfusion ManagerPhase.noConfusion henabled.1
    | recordConnection =>
      obtain ⟨_,hestablished,_⟩ := next_recordConnection henabled
      exact haway _ ManagerPhase.noConfusion ManagerPhase.noConfusion hestablished
    | receiveCommand => exact henabled.2 (hwaits henabled.1).1
    | sendUpdate order accepted =>
      exact haway _ ManagerPhase.noConfusion ManagerPhase.noConfusion henabled.1
    | receiveEvent accepted => exact henabled.2 (hwaits henabled.1).2.1
    | receiveShutdown => cases (hwaits henabled.1).2.2.symm.trans henabled.2
    | allChannelsClosed => exact ChannelEnds.not_allChannelsClosed henabled
    | _ => cases hmanager
  · intro generation henabled
    obtain ⟨event,hsending,_⟩ := next_sendEvent henabled
    exact hunsent generation event hsending

/-- A run in which the manager is not wanted any more from some moment on is fair, as
long as time passes. -/
theorem fairRuntime_of_unwanted {run : Behaviour (connectionManager H)} {last : ℕ}
    (hstays : ∀ moment,last ≤ moment → Unwanted (run.state moment))
    (htime : ∀ instant,∃ moment,instant ≤ (run.state moment).clock) : FairRuntime run := by
  have hfair : ∀ chosen : Action H → Prop,(∀ action,chosen action → isManagerStep action=true) →
      run.StronglyFair chosen := by
    intro chosen hchosen
    refine Behaviour.stronglyFair_of_impossible last fun moment hle hpossible => ?_
    obtain ⟨action,henabled,haction⟩ := hpossible
    exact (hstays moment hle).impossible.1 action (hchosen action haction) henabled
  refine ⟨(hfair _ fun _ h => h).weaklyFair,htime,hfair _ fun action h => by rw [h]; rfl,
    hfair _ fun action h => ?_,hfair _ fun action h => by rw [h]; rfl,fun generation => ?_⟩
  · obtain ⟨accepted,rfl⟩ := h
    rfl
  · refine Behaviour.stronglyFair_of_impossible last fun moment hle hpossible => ?_
    obtain ⟨action,henabled,rfl⟩ := hpossible
    exact (hstays moment hle).impossible.2 generation henabled

/-- Time makes nobody want anything. -/
theorem unwanted_of_idling {start : State H} {actions : List (Action H)}
    (hfinal : Unwanted ((connectionManager H).final start actions)) {moment : ℕ}
    (hle : actions.length ≤ moment) :
    Unwanted (idling (connectionManager H) start actions (.tick 1) moment) := by
  have htick : ∀ state : State H,Unwanted state → Unwanted (next state (.tick 1)) := fun _ h => h
  exact idling_kept hfinal htick hle

/-- A subscription is added, and the server told. -/
def servedRun : List (Action Unit) :=
  [.enterLoop,.connectSucceeded [],.sendCommand (.addSubscription (.onSlots 1 "a" ⟨[]⟩ ())),
    .recordConnection,.receiveCommand,.sendUpdate [.onSlots 1 "a" ⟨[]⟩ ()] true,.enterLoop]

theorem unwanted_servedRun : Unwanted ((connectionManager Unit).final (.start 0) servedRun) := by
  refine ⟨Or.inr ⟨⟨by decide,by decide,by decide⟩,by decide⟩,fun generation event hsending => ?_⟩
  cases generation with
  | zero => cases hsending
  | succ generation => cases hsending

theorem fair_runs_serve_servedRun :
    Served (Behaviour.thenAlways (initial_iff.mpr ⟨0,rfl⟩)
      (by decide : (connectionManager Unit).Legal (.start 0) servedRun) (.tick 1) fun _ => trivial) :=
  fair_runs_serve (fairRuntime_of_unwanted
    (fun _ hle => unwanted_of_idling unwanted_servedRun hle)
    fun instant => ⟨_,idling_unbounded State.clock (fun _ => Nat.le_refl _) instant⟩)

end Sample

end SteamHandler.FairRuns
