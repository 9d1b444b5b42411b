import SteamHandler.CommandHistory
import SteamHandler.ConnectionManager

/-!
# What a run of the manager has handled

The registry of a running manager is the image of the commands it has handled,
which are the first of those that were sent; its failure counter is the number
of attempts that failed since the last success. So what was proved of command
histories and of outages holds along every run.
-/

namespace SteamHandler.ManagerRuns

open Subscriptions SubscriptionRegistry CommandHistory Backoff ConnectionManager TransitionSystem

variable {H : Type}

/-- The commands sent in a run, in order. -/
def sentCommands (actions : List (Action H)) : List (ManagerCommand H) :=
  actions.filterMap fun action =>
    match action with
    | .sendCommand command => some command
    | _ => none

/-- Failed attempts since the last recorded connection. -/
def failuresSince (actions : List (Action H)) : ℕ :=
  actions.foldl (fun failures action =>
    match action with
    | .connectFailed => failures+1
    | .recordConnection => 0
    | _ => failures) 0

/-- The command a step takes off the queue and handles. -/
def handledBy (step : State H × Action H) : Option (ManagerCommand H) :=
  match step.2 with
  | .receiveCommand => step.1.commands.head?
  | _ => none

/-- The commands handled in a run, in order. -/
def handledCommands (start : State H) (actions : List (Action H)) : List (ManagerCommand H) :=
  ((connectionManager H).steps start actions).filterMap handledBy

theorem handledCommands_append (start : State H) (first second : List (Action H)) :
    handledCommands start (first++second)=
      handledCommands start first++
        handledCommands ((connectionManager H).final start first) second := by
  simp only [handledCommands,steps_append,List.filterMap_append]

theorem handledCommands_snoc (start : State H) (history : List (Action H)) (action : Action H) :
    handledCommands start (history++[action])=
      handledCommands start history++
        (handledBy ((connectionManager H).final start history,action)).toList := by
  rw [handledCommands_append]
  rfl

theorem sentCommands_append (first second : List (Action H)) :
    sentCommands (first++second)=sentCommands first++sentCommands second := by
  rw [sentCommands,List.filterMap_append]
  rfl

/-- What a step does to the queue and the registry: a sent command is queued
last, a handled one is the first of the queue. -/
theorem queue_next {state : State H} {action : Action H} (henabled : Enabled state action) :
    state.commands++sentCommands [action]=
        (handledBy (state,action)).toList++(next state action).commands ∧
      (next state action).registry=
        state.registry.handleAll (handledBy (state,action)).toList := by
  cases action with
  | sendCommand command => exact ⟨rfl,rfl⟩
  | receiveCommand =>
    obtain ⟨_,_,hcommands,_⟩ := next_receiveCommand henabled
    simp only [handledBy,next,hcommands,List.head?_cons,Option.toList_some]
    exact ⟨List.append_nil _,rfl⟩
  | connectFailed =>
    rw [next_connectFailed]
    exact ⟨List.append_nil _,rfl⟩
  | recordConnection =>
    obtain ⟨_,_,hnext⟩ := next_recordConnection henabled
    rw [hnext]
    exact ⟨List.append_nil _,rfl⟩
  | receiveEvent accepted =>
    obtain ⟨_,_,_,hnext⟩ := next_receiveEvent henabled
    rw [hnext]
    exact ⟨List.append_nil _,rfl⟩
  | sendEvent generation =>
    obtain ⟨_,_,hnext⟩ := next_sendEvent henabled
    rw [hnext]
    exact ⟨List.append_nil _,rfl⟩
  | _ => exact ⟨List.append_nil _,rfl⟩

/-- No command is lost, doubled or overtaken: the commands queued at the start
and those sent are, in order, the ones handled and those still queued, and the
registry is the one that handling them leaves. -/
theorem queue_of_run {start : State H} {actions : List (Action H)}
    (hrun : (connectionManager H).Legal start actions) :
    start.commands++sentCommands actions=
        handledCommands start actions++((connectionManager H).final start actions).commands ∧
      ((connectionManager H).final start actions).registry=
        start.registry.handleAll (handledCommands start actions) := by
  refine System.Legal.run_induction
    (P := fun actions => start.commands++sentCommands actions=
        handledCommands start actions++((connectionManager H).final start actions).commands ∧
      ((connectionManager H).final start actions).registry=
        start.registry.handleAll (handledCommands start actions)) ?_ ?_ hrun
  · exact ⟨List.append_nil _,rfl⟩
  · intro history action _ ⟨hqueue,hregistry⟩ henabled
    obtain ⟨hstep,hhandled⟩ := queue_next henabled
    rw [final_append]
    change start.commands++sentCommands (history++[action])=
        handledCommands start (history++[action])++
          (next ((connectionManager H).final start history) action).commands ∧
      (next ((connectionManager H).final start history) action).registry=_
    rw [sentCommands_append,←List.append_assoc,hqueue,handledCommands_snoc,List.append_assoc,hstep,
      List.append_assoc,hhandled,hregistry,Registry.handleAll_append]
    exact ⟨rfl,rfl⟩

/-- From the start: the commands sent are those the registry reflects, followed
by those still queued. -/
theorem registry_of_run {start : State H} {actions : List (Action H)}
    (hinit : (connectionManager H).initial start)
    (hrun : (connectionManager H).Legal start actions) :
    sentCommands actions=
        handledCommands start actions++((connectionManager H).final start actions).commands ∧
      ((connectionManager H).final start actions).registry=
        registryAfter (handledCommands start actions) := by
  obtain ⟨hqueue,hregistry⟩ := queue_of_run hrun
  obtain ⟨clock,rfl⟩ := initial_iff.mp hinit
  exact ⟨hqueue,hregistry⟩

@[simp] theorem failuresSince_failed (actions : List (Action H)) :
    failuresSince (actions++[.connectFailed])=failuresSince actions+1 := by
  rw [failuresSince,List.foldl_append]
  rfl

@[simp] theorem failuresSince_recorded (actions : List (Action H)) :
    failuresSince (actions++[.recordConnection])=0 := by
  rw [failuresSince,List.foldl_append]
  rfl

theorem failuresSince_other (actions : List (Action H)) {action : Action H}
    (hfailed : action≠.connectFailed) (hrecorded : action≠.recordConnection) :
    failuresSince (actions++[action])=failuresSince actions := by
  rw [failuresSince,List.foldl_append]
  cases action with
  | connectFailed => exact absurd rfl hfailed
  | recordConnection => exact absurd rfl hrecorded
  | _ => rfl

section Counter

variable {manager : Manager}

theorem enterLoop_counter (now : Instant) :
    (manager.enterLoop now).consecutiveFailures=manager.consecutiveFailures := by
  rcases manager.enterLoop_cases now with ⟨_,_,_,hnext⟩|⟨_,_,hnext⟩|⟨_,hnext⟩
  · rw [hnext]
  · rw [hnext]
    rfl
  · rw [hnext]

theorem wake_counter (now : Instant) :
    (manager.wake now).consecutiveFailures=manager.consecutiveFailures := by
  unfold Manager.wake
  split <;> rfl

theorem afterCommand_counter (command : ManagerCommand H) (flagged : Bool) :
    (manager.afterCommand command flagged).consecutiveFailures=manager.consecutiveFailures := by
  cases command <;> rfl

theorem afterUpdate_counter (accepted : Bool) :
    (manager.afterUpdate accepted).consecutiveFailures=manager.consecutiveFailures := by
  cases accepted <;> rfl

theorem afterEvent_counter (event : StreamEvent) (accepted : Bool) :
    (manager.afterEvent event accepted).consecutiveFailures=manager.consecutiveFailures := by
  rcases manager.afterEvent_cases event accepted with hdropped|⟨_,hkept⟩
  · rw [hdropped]
    rfl
  · rw [hkept]

end Counter

/-- Only the end of an attempt and the record of a connection write the
failure counter. -/
theorem counter_next {state : State H} {action : Action H} (henabled : Enabled state action)
    (hfailed : action≠.connectFailed) (hrecorded : action≠.recordConnection) :
    (next state action).manager.consecutiveFailures=state.manager.consecutiveFailures := by
  cases action with
  | connectFailed => exact absurd rfl hfailed
  | recordConnection => exact absurd rfl hrecorded
  | enterLoop => exact enterLoop_counter _
  | wake => exact wake_counter _
  | sendUpdate order accepted => exact afterUpdate_counter accepted
  | receiveCommand =>
    obtain ⟨command,_,_,hnext⟩ := next_receiveCommand henabled
    rw [hnext]
    exact afterCommand_counter command _
  | receiveEvent accepted =>
    obtain ⟨sent,_,_,hnext⟩ := next_receiveEvent henabled
    rw [hnext]
    exact afterEvent_counter sent.event accepted
  | sendEvent generation =>
    obtain ⟨_,_,hnext⟩ := next_sendEvent henabled
    rw [hnext]
    rfl
  | _ => rfl

/-- A task that has ended takes no further step. -/
theorem exited_next {state : State H} {action : Action H} (henabled : Enabled state action)
    (hexited : state.manager.phase=.exited) :
    (next state action).manager=state.manager := by
  cases action with
  | wake => simp only [Enabled,hexited] at henabled
  | recordConnection => simp only [Enabled,hexited] at henabled
  | enterLoop => exact absurd (hexited.symm.trans henabled) ManagerPhase.noConfusion
  | connectFailed => exact absurd (hexited.symm.trans henabled) ManagerPhase.noConfusion
  | connectSucceeded order => exact absurd (hexited.symm.trans henabled.1) ManagerPhase.noConfusion
  | receiveCommand => exact absurd (hexited.symm.trans henabled.1) ManagerPhase.noConfusion
  | sendUpdate order accepted =>
    exact absurd (hexited.symm.trans henabled.1) ManagerPhase.noConfusion
  | receiveEvent accepted => exact absurd (hexited.symm.trans henabled.1) ManagerPhase.noConfusion
  | receiveShutdown => exact absurd (hexited.symm.trans henabled.1) ManagerPhase.noConfusion
  | allChannelsClosed => exact absurd (hexited.symm.trans henabled.1) ManagerPhase.noConfusion
  | sendEvent generation =>
    obtain ⟨_,_,hnext⟩ := next_sendEvent henabled
    rw [hnext]
    rfl
  | _ => rfl

/-- Up to the 64th failure in a row the manager counts it and sleeps. -/
theorem connectFailed_of_lt {manager : Manager} {now : Instant}
    (h : manager.consecutiveFailures.toNat < 64) :
    manager.connectFailed now=
      { manager with
        consecutiveFailures := manager.consecutiveFailures+1
        phase := .backingOff (now+fromSecs (min (2^manager.consecutiveFailures.toNat) 60)) } := by
  rw [Manager.connectFailed,failureBranch_of_lt h]
  rfl

/-- The next one ends the task. -/
theorem connectFailed_at_64 {manager : Manager} {now : Instant}
    (h : manager.consecutiveFailures.toNat=64) :
    manager.connectFailed now={ manager with phase := .exited } := by
  rw [Manager.connectFailed,failureBranch_at_64 h]
  rfl

/-- A counted failure that does not end the task. -/
theorem failed_counter {manager : Manager} {now : Instant} {failures : ℕ}
    (hcounter : manager.consecutiveFailures.toNat=failures) (hbound : failures ≤ 64)
    (hafter : (manager.connectFailed now).phase≠.exited) :
    (manager.connectFailed now).consecutiveFailures.toNat=failures+1 ∧ failures+1 ≤ 64 := by
  rcases Nat.lt_or_ge failures 64 with hlow|hhigh
  · have hadd := @toNat_add_one manager.consecutiveFailures (by omega)
    rw [connectFailed_of_lt (by omega)]
    exact ⟨hadd.trans (by rw [hcounter]),hlow⟩
  · rw [connectFailed_at_64 (by omega)] at hafter
    exact absurd rfl hafter

/-- The running manager counts the failures since its last connection, and
there are at most 64 of them. -/
theorem failures_of_run {start : State H} {actions : List (Action H)}
    (hinit : (connectionManager H).initial start)
    (hrun : (connectionManager H).Legal start actions)
    (hrunning : ((connectionManager H).final start actions).manager.phase≠.exited) :
    ((connectionManager H).final start actions).manager.consecutiveFailures.toNat=
        failuresSince actions ∧
      failuresSince actions ≤ 64 := by
  refine System.Legal.history_invariant
    (I := fun history state => state.manager.phase≠.exited →
      state.manager.consecutiveFailures.toNat=failuresSince history ∧ failuresSince history ≤ 64)
    ?_ ?_ hrun hrunning
  · obtain ⟨clock,rfl⟩ := initial_iff.mp hinit
    exact fun _ => ⟨rfl,Nat.zero_le _⟩
  · intro history state action hpast henabled hafter
    change (next state action).manager.phase≠.exited at hafter
    change (next state action).manager.consecutiveFailures.toNat=_ ∧ _
    have hbefore : state.manager.phase≠.exited := by
      intro hexited
      rw [exited_next henabled hexited] at hafter
      exact hafter hexited
    obtain ⟨hcounter,hbound⟩ := hpast hbefore
    by_cases hfailed : action=.connectFailed
    · subst hfailed
      rw [next_connectFailed] at hafter ⊢
      rw [failuresSince_failed]
      exact failed_counter hcounter hbound hafter
    · by_cases hrecorded : action=.recordConnection
      · subst hrecorded
        rw [failuresSince_recorded]
        refine ⟨?_,Nat.zero_le _⟩
        obtain ⟨_,_,hnext⟩ := next_recordConnection henabled
        rw [hnext]
        rfl
      · rw [failuresSince_other history hfailed hrecorded,
          counter_next henabled hfailed hrecorded]
        exact ⟨hcounter,hbound⟩

end SteamHandler.ManagerRuns
