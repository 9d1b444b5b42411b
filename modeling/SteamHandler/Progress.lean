import SteamHandler.OwnerGone

/-!
# The manager gets through its work

Every turn of the manager's loop is paid for: by a message it takes off one of
its channels, or by an attempt that failed. So the loop does not spin, and
without new messages and failures it comes to rest. Where it rests both
channels are empty, everything that was sent to it is in the registry, and the
server has been told. Nobody who waits for room in a channel waits in vain.
-/

namespace SteamHandler.Progress

open Messages SubscriptionRegistry Requests ConnectionManager ManagerRuns ServerView Sessions Attempts
open OwnerGone TransitionSystem

variable {H : Type}

/-- A step of the manager task. -/
def isManagerStep : Action H → Bool
  | .enterLoop => true
  | .wake => true
  | .connectFailed => true
  | .connectSucceeded _ => true
  | .recordConnection => true
  | .receiveCommand => true
  | .sendUpdate _ _ => true
  | .receiveEvent _ => true
  | .receiveShutdown => true
  | .allChannelsClosed => true
  | _ => false

/-- Only the manager's steps change its locals. -/
theorem manager_other {state : State H} {action : Action H} (henabled : Enabled state action)
    (hother : isManagerStep action=false) :
    (next state action).manager=state.manager := by
  cases action with
  | sendEvent generation =>
    obtain ⟨_,_,hnext⟩ := next_sendEvent henabled
    rw [hnext]
    rfl
  | tick elapsed => rfl
  | sendCommand command => rfl
  | signalShutdown => rfl
  | dropOwner => rfl
  | receiveItem generation item => rfl
  | endOfStream generation => rfl
  | dispatch generation order outcome => rfl
  | _ => cases hother

/-- The command channel holds no more than its capacity. -/
theorem commands_within_next {state : State H} {action : Action H} (henabled : Enabled state action)
    (hwithin : state.commands.length ≤ channelCapacity) :
    (next state action).commands.length ≤ channelCapacity := by
  rw [(callers_next henabled).2.2]
  cases action with
  | sendCommand command =>
    have hroom := henabled.2.2
    rw [commandsAfter,List.length_append,List.length_singleton]
    omega
  | receiveCommand =>
    rw [commandsAfter,List.length_tail]
    omega
  | _ => exact hwithin

/-- A message is taken off the command or the stream-event channel. -/
def takesMessage : Action H → Bool
  | .receiveCommand => true
  | .receiveEvent _ => true
  | _ => false

/-- An attempt fails. -/
def failsAttempt : Action H → Bool
  | .connectFailed => true
  | _ => false

/-- How many steps the manager may take before it waits for a message again. -/
def rank : ManagerPhase → ℕ
  | .exited => 0
  | .selecting => 1
  | .established _ => 2
  | .attempting => 3
  | .circuitOpen _ => 4
  | .loopHead => 5
  | .updating => 6
  | .backingOff _ => 6

section Rank

variable (manager : Manager) (now : Instant)

theorem rank_startAttempt : rank (manager.startAttempt now).phase=3 := rfl

theorem rank_enterLoop : rank (manager.enterLoop now).phase ≤ 4 := by
  rcases manager.enterLoop_cases now with ⟨_,_,_,hnext⟩|⟨_,_,hnext⟩|⟨_,hnext⟩ <;>
    rw [hnext]
  · exact Nat.le_refl 4
  · rw [rank_startAttempt]
    omega
  · exact Nat.le_of_ble_eq_true rfl

theorem rank_connectFailed : rank (manager.connectFailed now).phase ≤ 6 := by
  rcases manager.connectFailed_cases now with ⟨_,_,hnext⟩|hnext <;>
    rw [hnext]
  · exact Nat.le_refl 6
  · exact Nat.zero_le 6

theorem rank_afterCommand (command : ManagerCommand H) (flagged : Bool) :
    rank (manager.afterCommand command flagged).phase ≤ 6 := by
  cases command with
  | shutdown => exact Nat.zero_le 6
  | _ =>
    dsimp only [Manager.afterCommand]
    split
    · exact Nat.le_refl 6
    · exact Nat.le_of_ble_eq_true rfl

theorem rank_afterUpdate (accepted : Bool) : rank (manager.afterUpdate accepted).phase=5 := by
  rw [afterUpdate_phase]
  rfl

theorem rank_afterEvent (event : StreamEvent) (accepted : Bool) :
    rank (manager.afterEvent event accepted).phase=5 := by
  rw [afterEvent_phase]
  rfl

end Rank

/-- What a step of the manager costs. -/
def cost (action : Action H) : ℕ := if isManagerStep action then 1 else 0

/-- What pays for the turns of the loop. -/
def credit (action : Action H) : ℕ :=
  if takesMessage action then 6 else if failsAttempt action then 4 else 0

/-- Every step is paid for by the rank, by a message or by a failure. -/
theorem rank_next {state : State H} {action : Action H} (henabled : Enabled state action) :
    rank (next state action).manager.phase+cost action ≤
      rank state.manager.phase+credit action := by
  cases action with
  | enterLoop =>
    have hphase : state.manager.phase=.loopHead := henabled
    have hle := rank_enterLoop state.manager state.clock
    rw [hphase]
    change rank (state.manager.enterLoop state.clock).phase+1 ≤ 5+0
    omega
  | wake =>
    obtain ⟨wakeAt,_,hphase|hphase⟩ := sleeping_of_wake henabled
    · have hwoken : rank (state.manager.wake state.clock).phase=3 := by
        rw [Manager.wake,hphase]
        rfl
      rw [hphase]
      change rank (state.manager.wake state.clock).phase+1 ≤ 4+0
      omega
    · have hwoken : rank (state.manager.wake state.clock).phase=5 := by
        rw [Manager.wake,hphase]
        rfl
      rw [hphase]
      change rank (state.manager.wake state.clock).phase+1 ≤ 6+0
      omega
  | connectFailed =>
    have hphase : state.manager.phase=.attempting := henabled
    have hle := rank_connectFailed state.manager state.clock
    rw [next_connectFailed,hphase]
    change rank (state.manager.connectFailed state.clock).phase+1 ≤ 3+4
    omega
  | connectSucceeded order =>
    rw [henabled.1]
    exact Nat.le_refl 3
  | recordConnection =>
    obtain ⟨generation,hphase,hnext⟩ := next_recordConnection henabled
    rw [hnext,hphase]
    exact Nat.le_refl 2
  | receiveCommand =>
    obtain ⟨command,_,_,hnext⟩ := next_receiveCommand henabled
    have hle := rank_afterCommand state.manager command (state.registry.handle command).2
    rw [hnext,henabled.1]
    change rank (state.manager.afterCommand command (state.registry.handle command).2).phase+1 ≤ 1+6
    omega
  | sendUpdate order accepted =>
    have heq := rank_afterUpdate state.manager accepted
    rw [henabled.1]
    change rank (state.manager.afterUpdate accepted).phase+1 ≤ 6+0
    omega
  | receiveEvent accepted =>
    obtain ⟨sent,_,_,hnext⟩ := next_receiveEvent henabled
    have heq := rank_afterEvent state.manager sent.event accepted
    rw [hnext,henabled.1]
    change rank (state.manager.afterEvent sent.event accepted).phase+1 ≤ 1+6
    omega
  | receiveShutdown =>
    rw [henabled.1]
    exact Nat.le_refl 1
  | allChannelsClosed => exact absurd henabled ChannelEnds.not_allChannelsClosed
  | sendEvent generation =>
    obtain ⟨_,_,hnext⟩ := next_sendEvent henabled
    rw [hnext]
    exact Nat.le_refl _
  | _ => exact Nat.le_refl _

section Counting

variable (actions : List (Action H))

/-- Steps of the manager task in a run. -/
def managerSteps : ℕ := actions.countP isManagerStep

/-- Messages taken in a run. -/
def messagesTaken : ℕ := actions.countP takesMessage

/-- Attempts that failed in a run. -/
def attemptsFailed : ℕ := actions.countP failsAttempt

theorem sum_cost : (actions.map cost).sum=managerSteps actions := by
  induction actions with
  | nil => rfl
  | cons action actions ih =>
    rw [List.map_cons,List.sum_cons,ih,managerSteps,managerSteps,List.countP_cons,cost]
    omega

theorem sum_credit :
    (actions.map credit).sum=6*messagesTaken actions+4*attemptsFailed actions := by
  induction actions with
  | nil => rfl
  | cons action actions ih =>
    have hhead : credit action=(if takesMessage action then 6 else 0)+
        if failsAttempt action then 4 else 0 := by
      cases action <;> rfl
    rw [List.map_cons,List.sum_cons,ih,hhead,messagesTaken,messagesTaken,attemptsFailed,
      attemptsFailed,List.countP_cons,List.countP_cons]
    split <;> split <;> omega

end Counting

section Alone

/-- The manager task on its own: nobody sends to it, time passes, and its
attempts do not fail. -/
def Alone (_ : State H) : Action H → Prop
  | .tick _ => True
  | .connectFailed => False
  | action => isManagerStep action=true

/-- The work that is left: what is queued, and the way back to `select!`. -/
def work (state : State H) : ℕ :=
  7*(state.commands.length+state.events.length)+rank state.manager.phase

/-- On its own, the manager only takes messages. -/
theorem lengths_next {state : State H} {action : Action H} (henabled : Enabled state action)
    (halone : Alone state action) :
    (next state action).commands.length+(next state action).events.length+
        (if takesMessage action then 1 else 0)=
      state.commands.length+state.events.length := by
  cases action with
  | receiveCommand =>
    obtain ⟨_,_,hcommands,hnext⟩ := next_receiveCommand henabled
    have htakes : takesMessage (.receiveCommand : Action H)=true := rfl
    rw [hnext,hcommands,List.length_cons,if_pos htakes]
    dsimp only
    omega
  | receiveEvent accepted =>
    obtain ⟨_,_,hevents,hnext⟩ := next_receiveEvent henabled
    have htakes : takesMessage (.receiveEvent accepted : Action H)=true := rfl
    rw [hnext,hevents,List.length_cons,if_pos htakes]
    dsimp only
    omega
  | recordConnection =>
    obtain ⟨_,_,hnext⟩ := next_recordConnection henabled
    rw [hnext]
    rfl
  | connectFailed => exact absurd halone id
  | sendCommand command => cases halone
  | sendEvent generation => cases halone
  | _ => rfl

/-- Every step of the manager leaves less work. -/
theorem work_next {state : State H} {action : Action H} (henabled : Enabled state action)
    (halone : Alone state action) : work (next state action)+cost action ≤ work state := by
  have hrank := rank_next henabled
  have hlengths := lengths_next henabled halone
  have hfails : failsAttempt action=false := by
    cases action with
    | connectFailed => exact absurd halone id
    | _ => rfl
  unfold credit at hrank
  rw [hfails] at hrank
  unfold work
  cases htakes : takesMessage action with
  | true =>
    simp only [htakes,if_true] at hrank hlengths
    omega
  | false =>
    simp only [htakes,Bool.false_eq_true,if_false] at hrank hlengths
    omega

/-- What the manager on its own leaves of a state: the processors, and the
commands in their order, handled or still queued. -/
structure Kept (start state : State H) : Prop where
  /-- The state can occur. -/
  reachable : (connectionManager H).Reachable state
  /-- Handling what is queued leads to the same registry. -/
  pending : state.registry.handleAll state.commands=start.registry.handleAll start.commands
  /-- What is queued was queued. -/
  queued : state.commands<:+start.commands
  /-- So was the shutdown signal. -/
  signalled : state.shutdownSignalled=true → start.shutdownSignalled=true
  /-- Processors that were spawned are where they were. -/
  processors : ∀ generation,start.processors generation≠.unspawned →
    state.processors generation=start.processors generation
  /-- Without a shutdown the task goes on. -/
  running : start.manager.phase≠.exited → .shutdown∉start.commands →
    start.shutdownSignalled=false → state.manager.phase≠.exited
  /-- A shutdown command is not forgotten. -/
  requested : .shutdown∈start.commands →
    state.manager.phase=.exited ∨ .shutdown∈state.commands
  /-- Neither is a shutdown signal. -/
  broadcast : start.shutdownSignalled=true →
    state.manager.phase=.exited ∨ state.shutdownSignalled=true
  /-- The owner is not concerned. -/
  owner : state.ownerAlive=start.ownerAlive

theorem Kept.refl {start : State H} (hreach : (connectionManager H).Reachable start) :
    Kept start start :=
  ⟨hreach,rfl,List.suffix_refl _,id,fun _ _ => rfl,fun hrunning _ _ => hrunning,Or.inr,Or.inr,rfl⟩

/-- The manager on its own spawns the processor of a new connection and moves no
other. -/
theorem processor_kept {state : State H} {action : Action H}
    (hreach : (connectionManager H).Reachable state) (henabled : Enabled state action)
    (halone : Alone state action) {generation : Generation}
    (hspawned : state.processors generation≠.unspawned) :
    (next state action).processors generation=state.processors generation := by
  refine processor_unmoved henabled fun phase hmoved => ?_
  cases action with
  | connectSucceeded order =>
    have hfresh : state.nextGeneration=generation := congrArg Prod.fst (Option.some.inj hmoved)
    exact hspawned (unspawned_of_nextGeneration_le hreach (Nat.le_of_eq hfresh))
  | receiveItem other item => cases halone
  | endOfStream other => cases halone
  | dispatch other order outcome => cases halone
  | sendEvent other => cases halone
  | _ => cases hmoved

/-- One step of the manager on its own. -/
theorem Kept.step {start state : State H} (h : Kept start state) {action : Action H}
    (henabled : Enabled state action) (halone : Alone state action) :
    Kept start (next state action) := by
  have hunsent : sentCommands [action]=[] := by
    cases action with
    | sendCommand command => cases halone
    | _ => rfl
  obtain ⟨hqueue,hregistry⟩ := queue_next henabled
  rw [hunsent,List.append_nil] at hqueue
  have hsuffix : (next state action).commands<:+state.commands := by
    rw [hqueue]
    exact List.suffix_append _ _
  obtain ⟨howner,hsignal,_⟩ := callers_next henabled
  refine ⟨h.reachable.step henabled,?_,hsuffix.trans h.queued,fun hafter => ?_,?_,?_,
    fun hrequested => shutdown_queued_next henabled (h.requested hrequested),
    fun hbroadcast => signalled_next henabled (h.broadcast hbroadcast),?_⟩
  · rw [←h.pending,hqueue,hregistry,Registry.handleAll_append]
  · refine h.signalled ?_
    rw [hsignal] at hafter
    cases action with
    | signalShutdown => cases halone
    | receiveShutdown => cases hafter
    | _ => exact hafter
  · intro generation hspawned
    have hsame := h.processors generation hspawned
    rw [←hsame] at hspawned
    rw [processor_kept h.reachable henabled halone hspawned,hsame]
  · intro hrunning hcalm hunsignalled hexited
    have hbefore := h.running hrunning hcalm hunsignalled
    rcases taskEnds_cases henabled ⟨hbefore,hexited⟩ with ⟨rfl,_⟩|⟨rest,_,hhead⟩|⟨_,hsignalled⟩
    · exact halone
    · refine hcalm (h.queued.subset ?_)
      rw [hhead]
      exact List.mem_cons_self
    · rw [h.signalled hsignalled] at hunsignalled
      cases hunsignalled
  · rw [howner,←h.owner]
    cases action with
    | dropOwner => cases halone
    | _ => rfl

/-- Any run of the manager on its own. -/
theorem Kept.run {start state : State H} (h : Kept start state) {moves : List (Action H)}
    (hrun : ((connectionManager H).restrict Alone).Legal state moves) :
    Kept start (((connectionManager H).restrict Alone).final state moves) := by
  induction moves generalizing state with
  | nil => exact h
  | cons action moves ih => exact ih (h.step hrun.1.1 hrun.1.2) hrun.2

end Alone

section Rest

/-- The manager waits and there is nothing to wait for yet. -/
def Drained (state : State H) : Prop :=
  state.manager.phase=.selecting ∧ state.commands=[] ∧ state.events=[]

/-- A sleep ends once it is over. -/
theorem wake_enabled {state : State H} {wakeAt : Instant}
    (hphase : state.manager.phase=.circuitOpen wakeAt ∨ state.manager.phase=.backingOff wakeAt) :
    Enabled (next state (.tick wakeAt)) .wake := by
  change Enabled { state with clock := state.clock+wakeAt } .wake
  rcases hphase with hphase|hphase
  · simp only [Enabled,hphase]
    exact Nat.le_add_left _ _
  · simp only [Enabled,hphase]
    exact Nat.le_add_left _ _

/-- A manager that is not at rest has a step to take, after some time. -/
theorem exists_step {state : State H} (hrunning : state.manager.phase≠.exited)
    (hbusy : ¬Drained state) :
    ∃ elapsed action,Alone (next state (.tick elapsed)) action ∧ isManagerStep action=true ∧
      Enabled (next state (.tick elapsed)) action := by
  obtain ⟨order,horder⟩ := state.registry.subscriptions.exists_iterationOrder
  cases hphase : state.manager.phase with
  | loopHead => exact ⟨0,.enterLoop,rfl,rfl,hphase⟩
  | circuitOpen wakeAt => exact ⟨wakeAt,.wake,rfl,rfl,wake_enabled (Or.inl hphase)⟩
  | attempting => exact ⟨0,.connectSucceeded order,rfl,rfl,hphase,horder⟩
  | established generation =>
    refine ⟨0,.recordConnection,rfl,rfl,?_⟩
    change Enabled { state with clock := state.clock+0 } .recordConnection
    simp only [Enabled,hphase]
  | backingOff wakeAt => exact ⟨wakeAt,.wake,rfl,rfl,wake_enabled (Or.inr hphase)⟩
  | selecting =>
    by_cases hcommands : state.commands=[]
    · have hevents : state.events≠[] := fun hevents => hbusy ⟨hphase,hcommands,hevents⟩
      exact ⟨0,.receiveEvent true,rfl,rfl,hphase,hevents⟩
    · exact ⟨0,.receiveCommand,rfl,rfl,hphase,hcommands⟩
  | updating => exact ⟨0,.sendUpdate order true,rfl,rfl,hphase,horder⟩
  | exited => exact absurd hphase hrunning

/-- On its own, the manager comes to rest or to its end. -/
theorem canRest {start : State H} (hreach : (connectionManager H).Reachable start) :
    ((connectionManager H).restrict Alone).CanReach start fun state =>
      Kept start state ∧ (Drained state ∨ state.manager.phase=.exited) := by
  refine System.canReach_of_measure work (fun state hkept hgoal => ?_) (Kept.refl hreach)
  have hrunning : state.manager.phase≠.exited := fun hexited => hgoal (Or.inr hexited)
  obtain ⟨elapsed,action,halone,hmanager,henabled⟩ :=
    exists_step hrunning fun hdrained => hgoal (Or.inl hdrained)
  have hrun : ((connectionManager H).restrict Alone).Legal state [.tick elapsed,action] :=
    ⟨⟨trivial,trivial⟩,⟨henabled,halone⟩,trivial⟩
  refine ⟨[.tick elapsed,action],hrun,hkept.run hrun,?_⟩
  have htick : work (next state (.tick elapsed))=work state := rfl
  have hstep := work_next henabled halone
  have hcost : cost action=1 := if_pos hmanager
  change work (next (next state (.tick elapsed)) action) < work state
  omega

/-- A manager at rest has handled all commands, and the server applies a request
built from the registry they lead to. -/
theorem Kept.registry {start state : State H} (h : Kept start state) (hdrained : Drained state) :
    state.registry=start.registry.handleAll start.commands ∧
      ∃ generation,Holds state generation ∧
        Builds state.registry.subscriptions (state.serverFilters generation) := by
  obtain ⟨hphase,hcommands,_⟩ := hdrained
  have hregistry := h.pending
  rw [hcommands,Registry.handleAll_nil] at hregistry
  obtain ⟨_,generation,hclient,_,hbuilds⟩ := synced_of_selecting h.reachable hphase
  exact ⟨hregistry,generation,⟨running_of_selecting hphase,hclient⟩,hbuilds⟩

/-- In every run, the steps of the manager are at most six for each message it
took and four for each attempt that failed, and five to begin with: every turn
of the loop has its cause. -/
theorem loop_does_not_spin {start : State H} {actions : List (Action H)}
    (hinit : (connectionManager H).initial start)
    (hrun : (connectionManager H).Legal start actions) :
    managerSteps actions ≤ 5+6*messagesTaken actions+4*attemptsFailed actions := by
  have hpaid := System.Legal.cost_le (fun state : State H => rank state.manager.phase)
    (fun _ _ henabled => rank_next henabled) hrun
  obtain ⟨clock,rfl⟩ := initial_iff.mp hinit
  have hstart : rank (State.start clock : State H).manager.phase=5 := rfl
  rw [sum_cost,sum_credit] at hpaid
  omega

theorem loop_does_not_spin_addingRun :
    managerSteps addingRun ≤ 5+6*messagesTaken addingRun+4*attemptsFailed addingRun :=
  loop_does_not_spin (initial_iff.mpr ⟨0,rfl⟩ : (connectionManager Unit).initial (State.start 0))
    (by decide)

/-- On its own, the manager takes no more steps than its queues account for. -/
theorem managerSteps_alone {start : State H} {moves : List (Action H)}
    (halone : ((connectionManager H).restrict Alone).Legal start moves) :
    managerSteps moves ≤ work start := by
  have hpaid := @System.Legal.cost_le _ _ ((connectionManager H).restrict Alone) work cost
    (fun _ => 0) (fun _ _ henabled => work_next henabled.1 henabled.2) start moves halone
  have hfree : (moves.map fun _ => 0).sum=0 := by
    rw [List.map_const',List.sum_replicate,smul_zero]
  rw [sum_cost,hfree] at hpaid
  omega

/-- How the manager on its own comes to rest after a run. -/
structure ComesToRest (start : State H) (actions moves : List (Action H)) : Prop where
  /-- It takes no more steps than its queues account for. -/
  bounded : managerSteps moves ≤ work ((connectionManager H).final start actions)
  /-- The task does not end. -/
  goesOn : ((connectionManager H).final start (actions++moves)).manager.phase≠.exited
  /-- It rests, or has a step to take. -/
  continues : Drained ((connectionManager H).final start (actions++moves)) ∨
    ∃ elapsed action,isManagerStep action=true ∧ ((connectionManager H).restrict Alone).Legal
      ((connectionManager H).final start (actions++moves)) [.tick elapsed,action]
  /-- Where it rests, all commands ever sent have their effect on the registry,
  and the server applies a request built from it. -/
  settled : Drained ((connectionManager H).final start (actions++moves)) →
    ((connectionManager H).final start (actions++moves)).registry=
        CommandHistory.registryAfter (sentCommands actions) ∧
      ∃ generation,Holds ((connectionManager H).final start (actions++moves)) generation ∧
        Builds ((connectionManager H).final start (actions++moves)).registry.subscriptions
          (((connectionManager H).final start (actions++moves)).serverFilters generation)

/-- After every run at whose end the task is alive and no shutdown requested, and
whatever the manager then does on its own, as long as nobody sends to it and no
attempt fails, it comes to rest. -/
theorem comes_to_rest {start : State H} {actions moves : List (Action H)}
    (hinit : (connectionManager H).initial start)
    (hrun : (connectionManager H).Legal start actions)
    (hrunning : ((connectionManager H).final start actions).manager.phase≠.exited)
    (hcalm : .shutdown∉((connectionManager H).final start actions).commands)
    (hunsignalled : ((connectionManager H).final start actions).shutdownSignalled=false)
    (halone : ((connectionManager H).restrict Alone).Legal
      ((connectionManager H).final start actions) moves) :
    ComesToRest start actions moves := by
  have hreach := (System.Reachable.start hinit).run hrun
  have hkept : Kept ((connectionManager H).final start actions)
      ((connectionManager H).final start (actions++moves)) := by
    rw [final_append]
    exact (Kept.refl hreach).run halone
  have hgoesOn := hkept.running hrunning hcalm hunsignalled
  refine ⟨managerSteps_alone halone,hgoesOn,?_,fun hdrained => ?_⟩
  · by_cases hdrained : Drained ((connectionManager H).final start (actions++moves))
    · exact Or.inl hdrained
    · obtain ⟨elapsed,action,hmove,hmanager,henabled⟩ := exists_step hgoesOn hdrained
      exact Or.inr ⟨elapsed,action,hmanager,⟨trivial,trivial⟩,⟨henabled,hmove⟩,trivial⟩
  · obtain ⟨hregistry,hserved⟩ := hkept.registry hdrained
    obtain ⟨hqueue,hhandled⟩ := registry_of_run hinit hrun
    refine ⟨?_,hserved⟩
    rw [hregistry,hhandled,hqueue]
    exact (Registry.handleAll_append _ _ _).symm

/-- Two commands are queued. -/
def queuedRun : List (Action Unit) :=
  [.enterLoop,.connectSucceeded [],.recordConnection,
    .sendCommand (.addSubscription (.onSlots 1 "a" ⟨[]⟩ ())),
    .sendCommand (.removeClientSubscriptions "b")]

/-- The manager handles both and updates the server once. -/
def restingMoves : List (Action Unit) :=
  [.receiveCommand,.sendUpdate [.onSlots 1 "a" ⟨[]⟩ ()] true,.enterLoop,.receiveCommand,.enterLoop]

instance decidableAlone (state : State H) (action : Action H) : Decidable (Alone state action) := by
  cases action <;> dsimp only [Alone] <;> infer_instance

theorem comes_to_rest_queuedRun : ComesToRest (State.start 0) queuedRun restingMoves :=
  comes_to_rest (initial_iff.mpr ⟨0,rfl⟩) (by decide) (by decide) (by decide) (by decide) (by decide)

/-- A processor that waits for room in the stream-event channel gets it from the
manager. -/
theorem canSend {state : State H} (hreach : (connectionManager H).Reachable state)
    {generation : Generation} {event : StreamEvent}
    (hsending : state.processors generation=.sending event) :
    ((connectionManager H).restrict Alone).CanReach state fun reached =>
      (connectionManager H).Reachable reached ∧
        reached.processors generation=.sending event ∧
        Enabled reached (.sendEvent generation) := by
  obtain ⟨moves,hrun,hkept,hgoal⟩ := canRest hreach
  have hsame := hkept.processors generation (by rw [hsending]; exact fun h => by cases h)
  rw [hsending] at hsame
  refine ⟨moves,hrun,hkept.reachable,hsame,?_⟩
  simp only [Enabled,hsame]
  rcases hgoal with ⟨_,_,hevents⟩|hexited
  · rw [hevents]
    exact Or.inr (by decide)
  · exact Or.inl hexited

/-- It sends, and goes on. -/
theorem canFollow {state : State H} (hreach : (connectionManager H).Reachable state)
    {generation : Generation} {event : StreamEvent}
    (hsending : state.processors generation=.sending event) :
    (connectionManager H).CanReach state fun reached =>
      (connectionManager H).Reachable reached ∧
        reached.processors generation=.afterSend event := by
  refine (canSend hreach hsending).of_restrict.trans fun reached ⟨hreached,hphase,henabled⟩ => ?_
  have hstep : (connectionManager H).enabled reached (.sendEvent generation) := henabled
  refine System.CanReach.step (.sendEvent generation) hstep
    (System.CanReach.here ⟨hreached.step hstep,processor_moved henabled ?_⟩)
  simp only [movedBy,hphase]

/-- A processor that reports the end of its stream can end. -/
theorem canTerminate_of_closed {state : State H} (hreach : (connectionManager H).Reachable state)
    {generation : Generation} (hsending : state.processors generation=.sending .connectionClosed) :
    (connectionManager H).CanReach state fun reached =>
      reached.processors generation=.terminated :=
  (canFollow hreach hsending).trans fun _ ⟨_,hphase⟩ => System.CanReach.here hphase

/-- So can one that reads, when its stream ends. -/
theorem canTerminate_of_reading {state : State H} (hreach : (connectionManager H).Reachable state)
    {generation : Generation} (hreading : state.processors generation=.reading) :
    (connectionManager H).CanReach state fun reached =>
      reached.processors generation=.terminated := by
  have hstep : (connectionManager H).enabled state (.endOfStream generation) := hreading
  exact System.CanReach.step (.endOfStream generation) hstep
    (canTerminate_of_closed (hreach.step hstep) (Function.update_self _ _ _))

/-- A processor that is spawned can get to its end from wherever it is. -/
theorem canTerminate {state : State H} (hreach : (connectionManager H).Reachable state)
    {generation : Generation} (hspawned : state.processors generation≠.unspawned) :
    (connectionManager H).CanReach state fun reached =>
      reached.processors generation=.terminated := by
  cases hphase : state.processors generation with
  | unspawned => exact absurd hphase hspawned
  | reading => exact canTerminate_of_reading hreach hphase
  | dispatching event =>
    obtain ⟨order,horder⟩ := state.registry.subscriptions.exists_iterationOrder
    have hstep : (connectionManager H).enabled state (.dispatch generation order fun _ => .ok ()) := by
      change Enabled state (.dispatch generation order fun _ => .ok ())
      simp only [Enabled,hphase]
      exact horder
    exact System.CanReach.step _ hstep
      (canTerminate_of_reading (hreach.step hstep) (Function.update_self _ _ _))
  | sending event =>
    refine (canFollow hreach hphase).trans fun reached hfollowed => ?_
    obtain ⟨hreached,hafter⟩ := hfollowed
    cases event with
    | pingReceived => exact canTerminate_of_reading hreached hafter
    | connectionError error => exact canTerminate_of_closed hreached hafter
    | connectionClosed => exact System.CanReach.here hafter
  | terminated => exact System.CanReach.here hphase

/-- A requested shutdown can be completed by the manager on its own. -/
theorem canShutDown {state : State H} (hreach : (connectionManager H).Reachable state)
    (hrequested : .shutdown∈state.commands ∨ state.shutdownSignalled=true) :
    ((connectionManager H).restrict Alone).CanReach state fun reached =>
      reached.manager.phase=.exited := by
  refine (canRest hreach).trans fun reached ⟨hkept,hgoal⟩ => ?_
  rcases hgoal with ⟨hphase,hcommands,_⟩|hexited
  · rcases hrequested with hcommand|hsignal
    · rcases hkept.requested hcommand with hexited|hqueued
      · exact System.CanReach.here hexited
      · rw [hcommands] at hqueued
        exact absurd hqueued List.not_mem_nil
    · rcases hkept.broadcast hsignal with hexited|hsignalled
      · exact System.CanReach.here hexited
      · exact System.CanReach.step .receiveShutdown ⟨⟨hphase,hsignalled⟩,rfl⟩
          (System.CanReach.here rfl)
  · exact System.CanReach.here hexited

/-- What everybody who waits can count on. -/
structure NobodyWaitsInVain (state : State H) : Prop where
  /-- A processor that waits for room in the stream-event channel gets it. -/
  processor : ∀ generation event,state.processors generation=.sending event →
    ((connectionManager H).restrict Alone).CanReach state fun reached =>
      reached.processors generation=.sending event ∧ Enabled reached (.sendEvent generation)
  /-- A caller that waits for room in the command channel gets it, or its error. -/
  caller : ∀ command,state.ownerAlive=true →
    ((connectionManager H).restrict Alone).CanReach state fun reached =>
      reached.manager.phase=.exited ∨ Enabled reached (.sendCommand command)
  /-- A requested shutdown is completed. -/
  shutdown : .shutdown∈state.commands ∨ state.shutdownSignalled=true →
    ((connectionManager H).restrict Alone).CanReach state fun reached =>
      reached.manager.phase=.exited
  /-- Every processor that was spawned can get to its end. -/
  stream : ∀ generation,state.processors generation≠.unspawned →
    (connectionManager H).CanReach state fun reached =>
      reached.processors generation=.terminated

/-- There is no deadlock between the manager, its callers and its processors: in
every reachable state, the manager on its own, if its attempts do not fail,
gets everybody on who waits for it. -/
theorem nobody_waits_in_vain {state : State H} (hreach : (connectionManager H).Reachable state) :
    NobodyWaitsInVain state := by
  refine ⟨fun generation event hsending => ?_,fun command howner => ?_,canShutDown hreach,
    fun generation hspawned => canTerminate hreach hspawned⟩
  · exact (canSend hreach hsending).trans fun _ ⟨_,hphase,henabled⟩ =>
      System.CanReach.here ⟨hphase,henabled⟩
  · refine (canRest hreach).trans fun reached ⟨hkept,hgoal⟩ => System.CanReach.here ?_
    rcases hgoal with ⟨hphase,hcommands,_⟩|hexited
    · refine Or.inr ⟨hkept.owner.trans howner,running_of_selecting hphase,?_⟩
      rw [hcommands]
      exact Nat.succ_pos 99
    · exact Or.inl hexited

/-- A processor waits to report an error while no connection is recorded yet. -/
def waitingRun : List (Action Unit) :=
  [.enterLoop,.connectSucceeded [],.receiveItem 0 (.error "reset"),
    .sendCommand (.removeClientSubscriptions "a"),.signalShutdown]

theorem nobody_waits_in_vain_waitingRun :
    NobodyWaitsInVain ((connectionManager Unit).final (State.start 0) waitingRun) :=
  nobody_waits_in_vain ⟨State.start 0,waitingRun,initial_iff.mpr ⟨0,rfl⟩,by decide,rfl⟩

end Rest

end SteamHandler.Progress
