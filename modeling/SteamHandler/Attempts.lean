import SteamHandler.ManagerRuns
import SteamHandler.ServerView

/-!
# Connection attempts

The loop starts an attempt because it owes one: at its top with an update due
or without a client, in the circuit breaker's sleep and in the backoff sleep.
It owes another one after each failure and each connection it drops. Counting
both sides gives the number of attempts between any two moments of a run. The
shutdown command and the shutdown signal stay pending all the while; they are
read in `select!` only, which a failing loop never reaches.
-/

namespace SteamHandler.Attempts

open Messages Subscriptions SubscriptionRegistry Backoff ConnectionManager ManagerRuns ServerView
open TransitionSystem

variable {H : Type}

/-- The step calls `connect_and_subscribe`. -/
def StartsAttempt (state : State H) (action : Action H) : Prop :=
  state.manager.phase≠.attempting ∧ (next state action).manager.phase=.attempting

/-- The actions after which `connect_and_subscribe` may be called. -/
def canStart : Action H → Bool
  | .enterLoop => true
  | .wake => true
  | _ => false

instance decidableStartsAttempt (state : State H) (action : Action H) :
    Decidable (StartsAttempt state action) := inferInstanceAs (Decidable (_ ∧ _))

/-- The time at which a step starts an attempt. -/
def attemptStart (step : State H × Action H) : Option Instant :=
  if StartsAttempt step.1 step.2 then some step.1.clock else none

/-- The times at which attempts start in a run, in order. -/
def attemptStarts (start : State H) (actions : List (Action H)) : List Instant :=
  ((connectionManager H).steps start actions).filterMap attemptStart

theorem attemptStarts_append (start : State H) (first second : List (Action H)) :
    attemptStarts start (first++second)=
      attemptStarts start first++
        attemptStarts ((connectionManager H).final start first) second := by
  simp only [attemptStarts,steps_append,List.filterMap_append]

theorem attemptStarts_snoc (start : State H) (history : List (Action H)) (action : Action H) :
    attemptStarts start (history++[action])=
      attemptStarts start history++
        (attemptStart ((connectionManager H).final start history,action)).toList := by
  rw [attemptStarts_append]
  rfl

/-- An attempt is owed: the loop will start one before it waits in `select!`. -/
def owed (manager : Manager) : ℕ :=
  match manager.phase with
  | .loopHead => if (manager.needsUpdate || manager.client.isNone)=true then 1 else 0
  | .circuitOpen _ => 1
  | .backingOff _ => 1
  | _ => 0

/-- The step makes the loop owe another attempt: an attempt fails without
ending the task, an update is refused, or a terminal event or a refused pong
makes the loop drop its connection. -/
def losesConnection (state : State H) : Action H → Bool
  | .connectFailed => decide (state.manager.consecutiveFailures.toNat < 64)
  | .sendUpdate _ accepted => !accepted
  | .receiveEvent accepted =>
    match state.events with
    | sent::_ => sent.event.isTerminal || !accepted
    | [] => false
  | _ => false

/-- The failures and drops of a run. -/
def losses (start : State H) (actions : List (Action H)) : ℕ :=
  ((connectionManager H).steps start actions).countP fun step => losesConnection step.1 step.2

theorem losses_snoc (start : State H) (history : List (Action H)) (action : Action H) :
    losses start (history++[action])=
      losses start history+
        if losesConnection ((connectionManager H).final start history) action=true then 1 else 0 := by
  rw [losses,steps_snoc,List.countP_append,List.countP_singleton]
  rfl

section Transitions

variable (manager : Manager)

/-- After a command the loop is left, at its top or about to send. -/
theorem afterCommand_phase (command : ManagerCommand H) (flagged : Bool) :
    (manager.afterCommand command flagged).phase=.exited ∨
    (manager.afterCommand command flagged).phase=.updating ∨
    (manager.afterCommand command flagged).phase=.loopHead := by
  have hloop : ∀ due : Bool,(if due=true then ManagerPhase.updating else .loopHead)=.updating ∨
      (if due=true then ManagerPhase.updating else .loopHead)=.loopHead := by
    intro due
    cases due with
    | false => exact Or.inr rfl
    | true => exact Or.inl rfl
  cases command with
  | shutdown => exact Or.inl rfl
  | _ => exact Or.inr (hloop _)

theorem afterUpdate_phase (accepted : Bool) : (manager.afterUpdate accepted).phase=.loopHead := by
  cases accepted <;> rfl

theorem afterEvent_phase (event : StreamEvent) (accepted : Bool) :
    (manager.afterEvent event accepted).phase=.loopHead := by
  rcases manager.afterEvent_cases event accepted with hdropped|⟨_,hkept⟩
  · rw [hdropped]
    rfl
  · rw [hkept]

end Transitions

section Steps

variable {state : State H} {action : Action H}

/-- Attempts start at the top of the loop and after the circuit breaker's
sleep only. -/
theorem not_startsAttempt (henabled : Enabled state action) (hcannot : canStart action=false) :
    ¬StartsAttempt state action := by
  intro ⟨hbefore,hafter⟩
  cases action with
  | enterLoop => cases hcannot
  | wake => cases hcannot
  | connectFailed =>
    rw [next_connectFailed] at hafter
    rcases state.manager.connectFailed_cases state.clock with ⟨failures,sleep,hsleep⟩|hpanic
    · rw [hsleep] at hafter
      cases hafter
    · rw [hpanic] at hafter
      cases hafter
  | connectSucceeded order => cases hafter
  | recordConnection =>
    obtain ⟨_,_,hnext⟩ := next_recordConnection henabled
    rw [hnext] at hafter
    cases hafter
  | receiveCommand =>
    obtain ⟨command,_,_,hnext⟩ := next_receiveCommand henabled
    rw [hnext] at hafter
    rcases afterCommand_phase state.manager command (state.registry.handle command).2 with
      hphase|hphase|hphase <;> cases hphase.symm.trans hafter
  | sendUpdate order accepted => cases (afterUpdate_phase state.manager accepted).symm.trans hafter
  | receiveEvent accepted =>
    obtain ⟨sent,_,_,hnext⟩ := next_receiveEvent henabled
    rw [hnext] at hafter
    cases (afterEvent_phase state.manager sent.event accepted).symm.trans hafter
  | receiveShutdown => cases hafter
  | allChannelsClosed => cases hafter
  | sendEvent generation =>
    obtain ⟨_,_,hnext⟩ := next_sendEvent henabled
    rw [hnext] at hafter
    exact hbefore hafter
  | _ => exact hbefore hafter

/-- While the task runs, it has counted at most 64 failures. -/
theorem counter_le_of_reachable (hreach : (connectionManager H).Reachable state)
    (hrunning : state.manager.phase≠.exited) : state.manager.consecutiveFailures.toNat ≤ 64 := by
  obtain ⟨start,actions,hinit,hrun,rfl⟩ := hreach
  obtain ⟨hcounter,hbound⟩ := failures_of_run hinit hrun hrunning
  rw [hcounter]
  exact hbound

/-- What passing the top of the loop does, and whether it starts an attempt. -/
theorem enterLoop_step (henabled : Enabled state .enterLoop) :
    (¬StartsAttempt state .enterLoop ∧
      (state.manager.needsUpdate || state.manager.client.isNone)=true ∧
      ∃ remaining,state.manager.circuitWait state.clock=some remaining ∧
        state.manager.enterLoop state.clock=
          { state.manager with phase := .circuitOpen (state.clock+remaining) }) ∨
    (StartsAttempt state .enterLoop ∧
      (state.manager.needsUpdate || state.manager.client.isNone)=true ∧
      state.manager.circuitWait state.clock=none ∧
      state.manager.enterLoop state.clock=state.manager.startAttempt state.clock) ∨
    (¬StartsAttempt state .enterLoop ∧
      (state.manager.needsUpdate || state.manager.client.isNone)=false ∧
      state.manager.enterLoop state.clock={ state.manager with phase := .selecting }) := by
  have hphase : state.manager.phase=.loopHead := henabled
  have hbefore : state.manager.phase≠.attempting := by
    rw [hphase]
    exact ManagerPhase.noConfusion
  rcases state.manager.enterLoop_cases state.clock with
    ⟨hdue,remaining,hsleep,hnext⟩|⟨hdue,hpassed,hnext⟩|⟨hcalm,hnext⟩
  · refine Or.inl ⟨fun hstart => ?_,hdue,remaining,hsleep,hnext⟩
    cases (congrArg Manager.phase hnext).symm.trans hstart.2
  · exact Or.inr (Or.inl ⟨⟨hbefore,congrArg Manager.phase hnext⟩,hdue,hpassed,hnext⟩)
  · refine Or.inr (Or.inr ⟨fun hstart => ?_,hcalm,hnext⟩)
    cases (congrArg Manager.phase hnext).symm.trans hstart.2

/-- What the end of a sleep does, and whether it starts an attempt. -/
theorem wake_step (henabled : Enabled state .wake) :
    (StartsAttempt state .wake ∧
      ∃ wakeAt,state.manager.phase=.circuitOpen wakeAt ∧ wakeAt ≤ state.clock ∧
        state.manager.wake state.clock=state.manager.startAttempt state.clock) ∨
    (¬StartsAttempt state .wake ∧
      ∃ wakeAt,state.manager.phase=.backingOff wakeAt ∧ wakeAt ≤ state.clock ∧
        state.manager.wake state.clock={ state.manager with phase := .loopHead }) := by
  obtain ⟨wakeAt,hslept,hopen|hoff⟩ := sleeping_of_wake henabled
  · have hbefore : state.manager.phase≠.attempting := by
      rw [hopen]
      exact ManagerPhase.noConfusion
    have hnext : state.manager.wake state.clock=state.manager.startAttempt state.clock := by
      simp only [Manager.wake,hopen]
    exact Or.inl ⟨⟨hbefore,congrArg Manager.phase hnext⟩,wakeAt,hopen,hslept,hnext⟩
  · have hnext : state.manager.wake state.clock={ state.manager with phase := .loopHead } := by
      simp only [Manager.wake,hoff]
    refine Or.inr ⟨fun hstart => ?_,wakeAt,hoff,hslept,hnext⟩
    cases (congrArg Manager.phase hnext).symm.trans hstart.2

/-- Where an attempt starts. -/
theorem startsAttempt_cases (henabled : Enabled state action)
    (hstart : StartsAttempt state action) :
    (state.manager.phase=.loopHead ∧ state.manager.circuitWait state.clock=none) ∨
    ∃ wakeAt,state.manager.phase=.circuitOpen wakeAt ∧ wakeAt ≤ state.clock := by
  cases action with
  | enterLoop =>
    rcases enterLoop_step henabled with ⟨hnot,_⟩|⟨_,_,hpassed,_⟩|⟨hnot,_⟩
    · exact absurd hstart hnot
    · exact Or.inl ⟨henabled,hpassed⟩
    · exact absurd hstart hnot
  | wake =>
    rcases wake_step henabled with ⟨_,wakeAt,hphase,hslept,_⟩|⟨hnot,_⟩
    · exact Or.inr ⟨wakeAt,hphase,hslept⟩
    · exact absurd hstart hnot
  | _ => exact absurd hstart (not_startsAttempt henabled rfl)

/-- Passing the top of the loop keeps what is owed, or starts the attempt. -/
theorem owed_enterLoop (henabled : Enabled state .enterLoop) :
    (if StartsAttempt state .enterLoop then 1 else 0)+owed (state.manager.enterLoop state.clock)=
      owed state.manager := by
  have hphase : state.manager.phase=.loopHead := henabled
  have hbefore : owed state.manager=
      if (state.manager.needsUpdate || state.manager.client.isNone)=true then 1 else 0 := by
    simp only [owed,hphase]
  rw [hbefore]
  rcases enterLoop_step henabled with
    ⟨hnot,hdue,remaining,_,hnext⟩|⟨hstart,hdue,_,hnext⟩|⟨hnot,hcalm,hnext⟩
  · rw [if_pos hdue,if_neg hnot,hnext]
    rfl
  · rw [if_pos hdue,if_pos hstart,hnext]
    rfl
  · rw [hcalm,if_neg hnot,hnext]
    rfl

/-- The end of a sleep keeps what is owed, or starts the attempt. -/
theorem owed_wake (henabled : Enabled state .wake)
    (hview : ViewInvariant state.manager state.registry.subscriptions state.serverFilters) :
    (if StartsAttempt state .wake then 1 else 0)+owed (state.manager.wake state.clock)=
      owed state.manager := by
  rcases wake_step henabled with ⟨hstart,wakeAt,hphase,_,hnext⟩|⟨hnot,wakeAt,hphase,_,hnext⟩
  · rw [if_pos hstart,hnext]
    simp only [owed,hphase]
    rfl
  · have hclient : state.manager.client=none := by
      simp only [ViewInvariant,hphase] at hview
      exact hview
    rw [if_neg hnot,hnext]
    simp only [owed,hphase,hclient,Option.isNone_none,Bool.or_true,if_true]

/-- A failed attempt is owed again unless it ends the task. -/
theorem owed_connectFailed (hphase : state.manager.phase=.attempting)
    (hcounter : state.manager.consecutiveFailures.toNat ≤ 64) :
    owed (state.manager.connectFailed state.clock)=
      owed state.manager+if losesConnection state .connectFailed=true then 1 else 0 := by
  have hbefore : owed state.manager=0 := by simp only [owed,hphase]
  rw [hbefore,losesConnection]
  rcases Nat.lt_or_eq_of_le hcounter with hlow|hlast
  · rw [connectFailed_of_lt hlow,if_pos (decide_eq_true hlow)]
    rfl
  · rw [connectFailed_at_64 hlast,if_neg (by rw [hlast]; decide)]
    rfl

/-- With a connection and no update due nothing is owed at the top. -/
theorem owed_loopHead {manager : Manager} (hphase : manager.phase=.loopHead)
    (hupdate : manager.needsUpdate=false) {generation : Generation}
    (hclient : manager.client=some generation) : owed manager=0 := by
  simp only [owed,hphase,hupdate,hclient,Option.isNone_some,Bool.or_false,Bool.false_eq_true,
    if_false]

theorem owed_attempting {manager : Manager} (hphase : manager.phase=.attempting) :
    owed manager=0 := by simp only [owed,hphase]

theorem owed_disconnect (manager : Manager) : owed manager.disconnect=1 := by
  simp only [owed,Manager.disconnect,Option.isNone_none,Bool.or_true,if_true]

/-- A command leaves nothing owed: an update it makes due can be sent. -/
theorem owed_afterCommand (hreach : (connectionManager H).Reachable state)
    (hselect : state.manager.phase=.selecting) (command : ManagerCommand H) (flagged : Bool) :
    owed (state.manager.afterCommand command flagged)=0 := by
  obtain ⟨hupdate,generation,hclient,hchannel,_⟩ := synced_of_selecting hreach hselect
  have hloop : owed
      { state.manager with
        needsUpdate := state.manager.needsUpdate || flagged
        phase := if (state.manager.needsUpdate || flagged) && state.manager.subscribeTx.isSome
          then .updating else .loopHead }=0 := by
    cases flagged with
    | false =>
      rw [hupdate]
      exact owed_loopHead rfl rfl hclient
    | true =>
      rw [hupdate,hchannel]
      rfl
  cases command with
  | shutdown => rfl
  | _ => exact hloop

/-- A handled event is owed an attempt if it costs the connection. -/
theorem owed_afterEvent (hreach : (connectionManager H).Reachable state)
    (hselect : state.manager.phase=.selecting) (event : StreamEvent) (accepted : Bool) :
    owed (state.manager.afterEvent event accepted)=
      if (event.isTerminal || !accepted)=true then 1 else 0 := by
  obtain ⟨hupdate,generation,hclient,hchannel,_⟩ := synced_of_selecting hreach hselect
  cases event with
  | connectionClosed => exact owed_disconnect _
  | connectionError error => exact owed_disconnect _
  | pingReceived =>
    unfold Manager.afterEvent
    rw [hchannel]
    cases accepted with
    | true => exact owed_loopHead rfl hupdate hclient
    | false => exact owed_disconnect _

/-- An update that is sent leaves nothing owed; a refused one costs the
connection. -/
theorem owed_afterUpdate (hreach : (connectionManager H).Reachable state)
    (hupdating : state.manager.phase=.updating) (accepted : Bool) :
    owed (state.manager.afterUpdate accepted)=if (!accepted)=true then 1 else 0 := by
  have hview := viewInvariant_reachable hreach
  simp only [ViewInvariant,hupdating] at hview
  obtain ⟨generation,hclient,_⟩ := hview
  cases accepted with
  | true => exact owed_loopHead rfl rfl hclient
  | false => exact owed_disconnect _

/-- One step: an attempt that starts is one that was owed, and a loss makes
the loop owe another. -/
theorem owed_next (hreach : (connectionManager H).Reachable state)
    (henabled : Enabled state action) :
    (if StartsAttempt state action then 1 else 0)+owed (next state action).manager=
      owed state.manager+if losesConnection state action=true then 1 else 0 := by
  have hview := viewInvariant_reachable hreach
  have hother : canStart action=false → (if StartsAttempt state action then 1 else 0)=0 :=
    fun hcannot => if_neg (not_startsAttempt henabled hcannot)
  cases action with
  | enterLoop => exact owed_enterLoop henabled
  | wake => exact owed_wake henabled hview
  | connectFailed =>
    have hphase : state.manager.phase=.attempting := henabled
    have hcounter : state.manager.consecutiveFailures.toNat ≤ 64 :=
      counter_le_of_reachable hreach (by rw [hphase]; exact ManagerPhase.noConfusion)
    rw [hother rfl,Nat.zero_add,next_connectFailed]
    exact owed_connectFailed hphase hcounter
  | connectSucceeded order =>
    rw [hother rfl]
    simp only [owed,henabled.1,next]
    rfl
  | recordConnection =>
    rw [hother rfl]
    obtain ⟨_,hphase,_⟩ := next_recordConnection henabled
    simp only [next,owed,hphase]
    rfl
  | receiveCommand =>
    rw [hother rfl]
    obtain ⟨_,_,_,hnext⟩ := next_receiveCommand henabled
    have hbefore : owed state.manager=0 := by simp only [owed,henabled.1]
    rw [hnext]
    rw [hbefore,owed_afterCommand hreach henabled.1]
    rfl
  | sendUpdate order accepted =>
    have hbefore : owed state.manager=0 := by simp only [owed,henabled.1]
    rw [hother rfl,hbefore,Nat.zero_add,Nat.zero_add]
    exact owed_afterUpdate hreach henabled.1 accepted
  | receiveEvent accepted =>
    rw [hother rfl]
    obtain ⟨_,_,hevents,_⟩ := next_receiveEvent henabled
    have hbefore : owed state.manager=0 := by simp only [owed,henabled.1]
    simp only [next,losesConnection,hevents]
    rw [hbefore,owed_afterEvent hreach henabled.1]
  | receiveShutdown =>
    rw [hother rfl]
    simp only [owed,henabled.1,next]
    rfl
  | allChannelsClosed =>
    rw [hother rfl]
    simp only [owed,henabled.1,next]
    rfl
  | sendEvent generation =>
    rw [hother rfl,Nat.zero_add]
    obtain ⟨_,_,hnext⟩ := next_sendEvent henabled
    rw [hnext]
    rfl
  | _ =>
    rw [hother rfl,Nat.zero_add]
    rfl

end Steps

/-- Between any two moments of a run, the attempts started and the one still
owed are the one owed before and the failures and drops in between. -/
theorem attempts_of_run {start : State H} {actions : List (Action H)}
    (hreach : (connectionManager H).Reachable start)
    (hrun : (connectionManager H).Legal start actions) :
    (attemptStarts start actions).length+
        owed ((connectionManager H).final start actions).manager=
      owed start.manager+losses start actions := by
  refine System.Legal.run_induction
    (P := fun actions => (attemptStarts start actions).length+
        owed ((connectionManager H).final start actions).manager=
      owed start.manager+losses start actions) ?_ ?_ hrun
  · exact Nat.add_comm 0 _
  · intro history action hpast hcount henabled
    have hstep := owed_next (hreach.run hpast) henabled
    have hlength : (attemptStart ((connectionManager H).final start history,action)).toList.length=
        if StartsAttempt ((connectionManager H).final start history) action then 1 else 0 := by
      unfold attemptStart
      split <;> rfl
    rw [attemptStarts_snoc,List.length_append,hlength,losses_snoc,final_append]
    change _+owed (next ((connectionManager H).final start history) action).manager=_
    omega

section Shutdown

variable {state : State H} {action : Action H}

/-- `ConnectionManager::shutdown` has returned: it has queued its command and
then broadcast its signal. -/
def ShutdownReturned (actions : List (Action H)) : Prop :=
  ∃ earlier later : List (Action H),
    actions=earlier++[Action.sendCommand .shutdown]++later++[Action.signalShutdown]

/-- A queued shutdown command stays queued until the loop is left. -/
theorem shutdown_queued_next (henabled : Enabled state action)
    (h : state.manager.phase=.exited ∨ .shutdown∈state.commands) :
    (next state action).manager.phase=.exited ∨ .shutdown∈(next state action).commands := by
  rcases h with hexited|hqueued
  · rw [exited_next henabled hexited]
    exact Or.inl hexited
  · have hstep := (queue_next henabled).1
    have hmem : ManagerCommand.shutdown∈
        (handledBy (state,action)).toList++(next state action).commands := by
      rw [←hstep]
      exact List.mem_append_left _ hqueued
    rcases List.mem_append.mp hmem with hhandled|hstill
    · left
      have htaken : handledBy (state,action)=some .shutdown := Option.mem_toList.mp hhandled
      cases action with
      | receiveCommand =>
        obtain ⟨_,_,hcommands,hnext⟩ := next_receiveCommand henabled
        simp only [handledBy,hcommands,List.head?_cons,Option.some.injEq] at htaken
        subst htaken
        rw [hnext]
        rfl
      | _ => cases htaken
    · exact Or.inr hstill

/-- A broadcast signal stays receivable until the loop is left. -/
theorem signalled_next (henabled : Enabled state action)
    (h : state.manager.phase=.exited ∨ state.shutdownSignalled=true) :
    (next state action).manager.phase=.exited ∨ (next state action).shutdownSignalled=true := by
  rcases h with hexited|hsignalled
  · rw [exited_next henabled hexited]
    exact Or.inl hexited
  · cases action with
    | receiveShutdown => exact Or.inl rfl
    | signalShutdown => exact Or.inr rfl
    | _ => exact Or.inr ((callers_next henabled).2.1.trans hsignalled)

theorem shutdown_queued_of_run {start : State H} {actions : List (Action H)}
    (hrun : (connectionManager H).Legal start actions)
    (h : start.manager.phase=.exited ∨ .shutdown∈start.commands) :
    ((connectionManager H).final start actions).manager.phase=.exited ∨
      .shutdown∈((connectionManager H).final start actions).commands :=
  System.Legal.history_invariant
    (I := fun _ state => state.manager.phase=.exited ∨ .shutdown∈state.commands) h
    (fun _ _ _ hpast henabled => shutdown_queued_next henabled hpast) hrun

theorem signalled_of_run {start : State H} {actions : List (Action H)}
    (hrun : (connectionManager H).Legal start actions)
    (h : start.manager.phase=.exited ∨ start.shutdownSignalled=true) :
    ((connectionManager H).final start actions).manager.phase=.exited ∨
      ((connectionManager H).final start actions).shutdownSignalled=true :=
  System.Legal.history_invariant
    (I := fun _ state => state.manager.phase=.exited ∨ state.shutdownSignalled=true) h
    (fun _ _ _ hpast henabled => signalled_next henabled hpast) hrun

/-- Once `shutdown` has returned, its command and its signal are both pending
until the loop is left. -/
theorem shutdown_pending {start : State H} {before after : List (Action H)}
    (hrun : (connectionManager H).Legal start (before++after)) (hreturned : ShutdownReturned before) :
    ((connectionManager H).final start (before++after)).manager.phase=.exited ∨
    (.shutdown∈((connectionManager H).final start (before++after)).commands ∧
      ((connectionManager H).final start (before++after)).shutdownSignalled=true) := by
  obtain ⟨earlier,later,hsplit⟩ := hreturned
  rw [hsplit] at hrun ⊢
  have hbefore := (legal_append.mp hrun).1
  have hsent := (legal_append.mp hbefore).1
  have hcommand : ((connectionManager H).final start
        (earlier++[Action.sendCommand .shutdown]++later)).manager.phase=.exited ∨
      .shutdown∈((connectionManager H).final start
        (earlier++[Action.sendCommand .shutdown]++later)).commands := by
    rw [final_append]
    refine shutdown_queued_of_run (legal_append.mp hsent).2 ?_
    rw [final_append]
    exact Or.inr (List.mem_append_right _ (List.mem_singleton_self _))
  rw [final_append]
  have hafter := (legal_append.mp hrun).2
  have hqueued := shutdown_queued_of_run hafter (by rw [final_append]; exact hcommand)
  have hsignalled := signalled_of_run hafter (by rw [final_append]; exact Or.inr rfl)
  rcases hqueued with hexited|hmem
  · exact Or.inl hexited
  · exact hsignalled.imp_right fun hflag => ⟨hmem,hflag⟩

/-- From the moment `shutdown` has returned, in every run: the loop starts at
most one attempt if no more than one is owed by failures and drops, counting
what was owed then; of the runs to the exit these are all that start at most
one; and until the exit both notices are pending. -/
theorem shutdown_attempts_iff {start : State H} {before after : List (Action H)}
    (hinit : (connectionManager H).initial start)
    (hrun : (connectionManager H).Legal start (before++after))
    (hreturned : ShutdownReturned before) :
    (owed ((connectionManager H).final start before).manager+
        losses ((connectionManager H).final start before) after ≤ 1 →
      (attemptStarts ((connectionManager H).final start before) after).length ≤ 1) ∧
    (((connectionManager H).final start (before++after)).manager.phase=.exited →
      ((attemptStarts ((connectionManager H).final start before) after).length ≤ 1 ↔
        owed ((connectionManager H).final start before).manager+
          losses ((connectionManager H).final start before) after ≤ 1)) ∧
    (((connectionManager H).final start (before++after)).manager.phase=.exited ∨
      (.shutdown∈((connectionManager H).final start (before++after)).commands ∧
        ((connectionManager H).final start (before++after)).shutdownSignalled=true)) := by
  obtain ⟨hbefore,hafter⟩ := legal_append.mp hrun
  have hcount := attempts_of_run ((System.Reachable.start hinit).run hbefore) hafter
  rw [←final_append] at hcount
  refine ⟨?_,?_,shutdown_pending hrun hreturned⟩
  · intro hbound
    omega
  · intro hexited
    have hnothing : owed ((connectionManager H).final start (before++after)).manager=0 := by
      simp only [owed,hexited]
    rw [hnothing] at hcount
    omega

/-- Shutdown comes while the first attempt is in progress. -/
def calledDuringAttempt : List (Action Unit) :=
  [.enterLoop,.sendCommand .shutdown,.signalShutdown]

/-- The attempt succeeds, but `select!` takes the end of its stream first; only the
next connection is shut down. -/
def exitAfterAttempt : List (Action Unit) :=
  [.connectSucceeded [],.recordConnection,.endOfStream 0,.sendEvent 0,.receiveEvent true,.enterLoop,
    .connectSucceeded [],.recordConnection,.receiveShutdown]

theorem shutdown_attempts_iff_exitAfterAttempt :
    ((owed ((connectionManager Unit).final (State.start 0) calledDuringAttempt).manager+
        losses ((connectionManager Unit).final (State.start 0) calledDuringAttempt)
          exitAfterAttempt ≤ 1 →
      (attemptStarts ((connectionManager Unit).final (State.start 0) calledDuringAttempt)
        exitAfterAttempt).length ≤ 1) ∧
    (((connectionManager Unit).final (State.start 0)
        (calledDuringAttempt++exitAfterAttempt)).manager.phase=.exited →
      ((attemptStarts ((connectionManager Unit).final (State.start 0) calledDuringAttempt)
          exitAfterAttempt).length ≤ 1 ↔
        owed ((connectionManager Unit).final (State.start 0) calledDuringAttempt).manager+
          losses ((connectionManager Unit).final (State.start 0) calledDuringAttempt)
            exitAfterAttempt ≤ 1)) ∧
    (((connectionManager Unit).final (State.start 0)
        (calledDuringAttempt++exitAfterAttempt)).manager.phase=.exited ∨
      (.shutdown∈((connectionManager Unit).final (State.start 0)
          (calledDuringAttempt++exitAfterAttempt)).commands ∧
        ((connectionManager Unit).final (State.start 0)
          (calledDuringAttempt++exitAfterAttempt)).shutdownSignalled=true))) ∧
    (attemptStarts ((connectionManager Unit).final (State.start 0) calledDuringAttempt)
      exitAfterAttempt).length=1 :=
  ⟨shutdown_attempts_iff (initial_iff.mpr ⟨0,rfl⟩) (by decide) ⟨[.enterLoop],[],rfl⟩,by decide⟩

/-- The attempt in progress fails; both sleeps pass, and the next one starts. -/
def retryRound : List (Action H) := [.connectFailed,.tick (fromSecs 640),.wake,.enterLoop]

/-- Failed rounds against a server that stays unreachable. -/
def retryRounds : ℕ → List (Action H)
  | 0 => []
  | rounds+1 => retryRound++retryRounds rounds

/-- An attempt is in progress after so many failures in a row. -/
structure Retrying (state : State H) (failures : ℕ) : Prop where
  /-- The attempt. -/
  phase : state.manager.phase=.attempting
  /-- No connection is held. -/
  client : state.manager.client=none
  /-- The failures before it. -/
  counter : state.manager.consecutiveFailures.toNat=failures
  /-- Attempts start in the past. -/
  past : ∀ last,state.manager.lastAttempt=some last → last ≤ state.clock

/-- The circuit breaker waits at most 640 seconds after an attempt. -/
theorem circuitWait_over {manager : Manager} {now : Instant}
    (hcounter : manager.consecutiveFailures.toNat ≤ 64)
    (hlast : ∀ last,manager.lastAttempt=some last → last+fromSecs 640 ≤ now) :
    manager.circuitWait now=none := by
  unfold Manager.circuitWait
  split
  · cases hattempt : manager.lastAttempt with
    | none => rfl
    | some last =>
      have hwait : fromSecs (manager.consecutiveFailures.toNat*10) ≤ fromSecs 640 :=
        fromSecs_le (by omega)
      have hpast : fromSecs 640 ≤ now-last := Nat.le_sub_of_add_le' (hlast last hattempt)
      exact if_neg (Nat.not_lt.mpr (hwait.trans hpast))
  · rfl

/-- A round leads from an attempt to the next one, with shutdown pending or
not. -/
theorem retryRound_final {failures : ℕ} (h : Retrying state failures) (hlow : failures < 64) :
    (connectionManager H).Legal state retryRound ∧
      Retrying ((connectionManager H).final state retryRound) (failures+1) := by
  have hcounter : state.manager.consecutiveFailures.toNat < 64 := by
    rw [h.counter]
    exact hlow
  have hadd := toNat_add_one (Nat.le_of_lt hcounter)
  have hfailed : next state .connectFailed=
      { state with
        manager := { state.manager with
          consecutiveFailures := state.manager.consecutiveFailures+1
          phase := .backingOff (state.clock+
            fromSecs (min (2^state.manager.consecutiveFailures.toNat) 60)) } } := by
    rw [next_connectFailed,connectFailed_of_lt hcounter]
  have hslept : state.clock+fromSecs (min (2^state.manager.consecutiveFailures.toNat) 60) ≤
      state.clock+fromSecs 640 :=
    Nat.add_le_add_left (fromSecs_le ((Nat.min_le_right _ _).trans (by norm_num))) _
  have hwait : ∀ phase,Manager.circuitWait
      { state.manager with
        consecutiveFailures := state.manager.consecutiveFailures+1
        phase := phase } (state.clock+fromSecs 640)=none := by
    intro phase
    refine circuitWait_over ?_ fun last hlast => Nat.add_le_add_right (h.past last hlast) _
    change (state.manager.consecutiveFailures+1).toNat ≤ 64
    omega
  have hlegal : Enabled state .connectFailed ∧ (connectionManager H).Legal
      (next state .connectFailed) [.tick (fromSecs 640),.wake,.enterLoop] := by
    rw [hfailed]
    exact ⟨h.phase,trivial,hslept,rfl,trivial⟩
  refine ⟨hlegal,?_⟩
  have hattempt : Manager.enterLoop
      { state.manager with
        consecutiveFailures := state.manager.consecutiveFailures+1
        phase := .loopHead } (state.clock+fromSecs 640)=
      Manager.startAttempt
        { state.manager with
          consecutiveFailures := state.manager.consecutiveFailures+1
          phase := .loopHead } (state.clock+fromSecs 640) := by
    rcases Manager.enterLoop_cases
        { state.manager with
          consecutiveFailures := state.manager.consecutiveFailures+1
          phase := .loopHead } (state.clock+fromSecs 640) with
      ⟨_,remaining,hbusy,_⟩|⟨_,_,hnext⟩|⟨hcalm,_⟩
    · rw [hwait] at hbusy
      cases hbusy
    · exact hnext
    · rw [h.client,Option.isNone_none,Bool.or_true] at hcalm
      cases hcalm
  have hfinal : (connectionManager H).final (next state .connectFailed)
      [.tick (fromSecs 640),.wake,.enterLoop]=
      { state with
        clock := state.clock+fromSecs 640
        manager := Manager.startAttempt
          { state.manager with
            consecutiveFailures := state.manager.consecutiveFailures+1
            phase := .loopHead } (state.clock+fromSecs 640) } := by
    rw [hfailed,←hattempt]
    rfl
  change Retrying ((connectionManager H).final (next state .connectFailed)
    [.tick (fromSecs 640),.wake,.enterLoop]) _
  rw [hfinal]
  have hlast : ∀ last,some (state.clock+fromSecs 640)=some last →
      last ≤ state.clock+fromSecs 640 := fun last hlast => Nat.le_of_eq (Option.some.inj hlast).symm
  exact ⟨rfl,h.client,hadd.trans (congrArg (·+1) h.counter),hlast⟩

/-- A round fails once and starts one attempt. -/
theorem attemptStarts_retryRound {failures : ℕ} (hreach : (connectionManager H).Reachable state)
    (h : Retrying state failures) (hlow : failures < 64) :
    (attemptStarts state retryRound).length=1 := by
  obtain ⟨hlegal,hretrying⟩ := retryRound_final h hlow
  have hlost : losesConnection state .connectFailed=true := by
    rw [losesConnection,h.counter]
    exact decide_eq_true hlow
  have hlosses : losses state retryRound=1 := by
    rw [losses,retryRound,System.steps,List.countP_cons]
    rw [if_pos hlost]
    rfl
  have hbefore : owed state.manager=0 := owed_attempting h.phase
  have hafter : owed ((connectionManager H).final state retryRound).manager=0 :=
    owed_attempting hretrying.phase
  have hround := attempts_of_run hreach hlegal
  rw [hlosses,hbefore,hafter] at hround
  exact hround

/-- An unreachable server is tried again as long as the failure counter
allows, with shutdown pending or not. -/
theorem attempts_of_retryRounds (rounds : ℕ) {failures : ℕ}
    (hreach : (connectionManager H).Reachable state) (h : Retrying state failures)
    (hbound : failures+rounds ≤ 64) :
    (connectionManager H).Legal state (retryRounds rounds) ∧
      (attemptStarts state (retryRounds rounds)).length=rounds := by
  induction rounds generalizing state failures with
  | zero => exact ⟨trivial,rfl⟩
  | succ rounds ih =>
    have hlow : failures < 64 := by omega
    obtain ⟨hlegal,hretrying⟩ := retryRound_final h hlow
    obtain ⟨hlater,hcount⟩ := ih (hreach.run hlegal) hretrying (by omega)
    rw [retryRounds,legal_append,attemptStarts_append,List.length_append,hcount,
      attemptStarts_retryRound hreach h hlow]
    exact ⟨⟨hlegal,hlater⟩,Nat.add_comm 1 rounds⟩

/-- Two attempts start after `shutdown` has returned during the first one,
because the server stays unreachable. -/
theorem shutdown_keeps_retrying :
    ¬∀ (start : State Unit) (before after : List (Action Unit)),
      (connectionManager Unit).initial start →
      (connectionManager Unit).Legal start (before++after) → ShutdownReturned before →
      (attemptStarts ((connectionManager Unit).final start before) after).length ≤ 1 := by
  intro hclaim
  have hinit : (connectionManager Unit).initial (State.start 0) := initial_iff.mpr ⟨0,rfl⟩
  have hbefore : (connectionManager Unit).Legal (State.start 0) calledDuringAttempt := by decide
  have hretrying : Retrying ((connectionManager Unit).final (State.start 0) calledDuringAttempt) 0 :=
    ⟨rfl,rfl,rfl,fun last hlast => Nat.le_of_eq (Option.some.inj hlast).symm⟩
  obtain ⟨hrounds,hcount⟩ := attempts_of_retryRounds 2
    ((System.Reachable.start hinit).run hbefore) hretrying (by decide)
  have hone := hclaim _ _ _ hinit (legal_append.mpr ⟨hbefore,hrounds⟩) ⟨[.enterLoop],[],rfl⟩
  rw [hcount] at hone
  exact absurd hone (by decide)

end Shutdown

end SteamHandler.Attempts
