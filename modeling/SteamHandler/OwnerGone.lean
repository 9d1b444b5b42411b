import SteamHandler.Attempts
import SteamHandler.ChannelEnds

/-!
# A manager without an owner

When the `ConnectionManager` value is dropped without a call of `shutdown`, the
command channel and the shutdown broadcast close, but the stream-event channel
does not: the task holds a sender itself. So the loop is never told that its
owner is gone. It waits for the end of its stream, connects again and waits
again; of itself it ends by the panic of the 65th failure in a row only.
-/

namespace SteamHandler.OwnerGone

open Messages SubscriptionRegistry Backoff ConnectionManager ManagerRuns ServerView Sessions
open ChannelEnds Attempts TransitionSystem

variable {H : Type}

/-- The `ConnectionManager` value has been dropped, and `shutdown` was not
called before. -/
def Abandoned (actions : List (Action H)) : Prop :=
  .dropOwner∈actions ∧ .sendCommand .shutdown∉actions ∧ .signalShutdown∉actions

section NextAttempt

variable {state : State H}

/-- An attempt is in progress. -/
def Attempting (state : State H) : Prop := state.manager.phase=.attempting

/-- After the circuit breaker's sleep. -/
theorem canAttempt_of_circuitOpen {wakeAt : Instant}
    (hphase : state.manager.phase=.circuitOpen wakeAt) :
    (connectionManager H).CanReach state Attempting := by
  refine System.CanReach.step (.tick wakeAt) trivial ?_
  refine System.CanReach.step .wake ?_ (System.CanReach.here ?_)
  · change Enabled { state with clock := state.clock+wakeAt } .wake
    simp only [Enabled,hphase]
    exact Nat.le_add_left _ _
  · change (state.manager.wake (state.clock+wakeAt)).phase=.attempting
    simp only [Manager.wake,hphase]
    rfl

/-- At the top of the loop, when a connection is due. -/
theorem canAttempt_of_due (hphase : state.manager.phase=.loopHead)
    (hdue : (state.manager.needsUpdate || state.manager.client.isNone)=true) :
    (connectionManager H).CanReach state Attempting := by
  refine System.CanReach.step .enterLoop hphase ?_
  rcases state.manager.enterLoop_cases state.clock with
    ⟨_,remaining,_,hnext⟩|⟨_,_,hnext⟩|⟨hcalm,_⟩
  · exact canAttempt_of_circuitOpen (congrArg Manager.phase hnext)
  · exact System.CanReach.here (congrArg Manager.phase hnext)
  · rw [hdue] at hcalm
    cases hcalm

/-- After a connection is dropped. -/
theorem canAttempt_of_disconnect (manager : Manager) (hnext : state.manager=manager.disconnect) :
    (connectionManager H).CanReach state Attempting := by
  refine canAttempt_of_due ?_ ?_
  · rw [hnext]
    rfl
  · rw [hnext]
    exact Bool.or_true _

/-- In the backoff sleep. -/
theorem canAttempt_of_backingOff {wakeAt : Instant} (hphase : state.manager.phase=.backingOff wakeAt)
    (hclient : state.manager.client=none) : (connectionManager H).CanReach state Attempting := by
  refine System.CanReach.step (.tick wakeAt) trivial ?_
  have hwoken : state.manager.wake (state.clock+wakeAt)=
      { state.manager with phase := .loopHead } := by
    simp only [Manager.wake,hphase]
  refine System.CanReach.step .wake ?_ ?_
  · change Enabled { state with clock := state.clock+wakeAt } .wake
    simp only [Enabled,hphase]
    exact Nat.le_add_left _ _
  · refine canAttempt_of_due (congrArg Manager.phase hwoken) ?_
    change ((state.manager.wake (state.clock+wakeAt)).needsUpdate ||
      (state.manager.wake (state.clock+wakeAt)).client.isNone)=true
    rw [hwoken,hclient]
    exact Bool.or_true _

/-- Waiting, with an event queued: the end of a stream, or a ping whose pong is
refused. -/
theorem canAttempt_of_event (hreach : (connectionManager H).Reachable state)
    (hphase : state.manager.phase=.selecting) (hevents : state.events≠[]) :
    (connectionManager H).CanReach state Attempting := by
  have henabled : (connectionManager H).enabled state (.receiveEvent false) := ⟨hphase,hevents⟩
  obtain ⟨generation,_,hchannel,_⟩ := holds_of_selecting hreach hphase
  obtain ⟨sent,_,_,hnext⟩ := next_receiveEvent henabled
  refine System.CanReach.step (.receiveEvent false) henabled
    (canAttempt_of_disconnect state.manager ?_)
  change (next state (.receiveEvent false)).manager=_
  rw [hnext]
  change state.manager.afterEvent sent.event false=_
  cases sent.event with
  | connectionClosed => rfl
  | connectionError error => rfl
  | pingReceived =>
    rw [Manager.afterEvent,hchannel]
    rfl

/-- Waiting, with a processor about to send. -/
theorem canAttempt_of_sending (hreach : (connectionManager H).Reachable state)
    (hphase : state.manager.phase=.selecting) (hevents : state.events=[]) {generation : Generation}
    {event : StreamEvent} (hsending : state.processors generation=.sending event) :
    (connectionManager H).CanReach state Attempting := by
  have henabled : (connectionManager H).enabled state (.sendEvent generation) := by
    change Enabled state (.sendEvent generation)
    simp only [Enabled,hsending,hevents]
    exact Or.inr (by decide)
  obtain ⟨_,_,hnext⟩ := next_sendEvent henabled
  refine System.CanReach.step (.sendEvent generation) henabled
    (canAttempt_of_event (hreach.step henabled) ?_ ?_)
  · change (next state (.sendEvent generation)).manager.phase=_
    rw [hnext]
    exact hphase
  · change (next state (.sendEvent generation)).events≠[]
    rw [hnext,hphase,hevents]
    exact List.cons_ne_nil _ _

/-- Waiting, with a stream that can end. -/
theorem canAttempt_of_reading (hreach : (connectionManager H).Reachable state)
    (hphase : state.manager.phase=.selecting) (hevents : state.events=[]) {generation : Generation}
    (hreading : state.processors generation=.reading) :
    (connectionManager H).CanReach state Attempting := by
  have henabled : (connectionManager H).enabled state (.endOfStream generation) := hreading
  exact System.CanReach.step (.endOfStream generation) henabled
    (canAttempt_of_sending (hreach.step henabled) hphase hevents (Function.update_self _ _ _))

/-- Waiting: the processor of the held connection has not returned, unless an
event of it is queued. -/
theorem canAttempt_of_selecting (hreach : (connectionManager H).Reachable state)
    (hphase : state.manager.phase=.selecting) :
    (connectionManager H).CanReach state Attempting := by
  by_cases hevents : state.events=[]
  · obtain ⟨generation,_,hholds⟩ := processor_holds hreach hphase hevents
    obtain ⟨hspawned,hgoesOn⟩ := processor_mem_eventSenders.mp hholds
    cases hprocessor : state.processors generation with
    | unspawned =>
      have hworker := Supervision.spawned_of_lt_opened ((sessions H).reachable hreach) hspawned
      exact absurd (congrArg workerOf hprocessor) hworker
    | reading => exact canAttempt_of_reading hreach hphase hevents hprocessor
    | dispatching event =>
      obtain ⟨order,horder⟩ := state.registry.subscriptions.exists_iterationOrder
      have henabled : (connectionManager H).enabled state
          (.dispatch generation order fun _ => .ok ()) := by
        change Enabled state (.dispatch generation order fun _ => .ok ())
        simp only [Enabled,hprocessor]
        exact horder
      exact System.CanReach.step _ henabled (canAttempt_of_reading (hreach.step henabled) hphase
        hevents (Function.update_self _ _ _))
    | sending event => exact canAttempt_of_sending hreach hphase hevents hprocessor
    | terminated => exact absurd hprocessor hgoesOn
  · exact canAttempt_of_event hreach hphase hevents

/-- As long as the task runs, the next attempt can come. -/
theorem canAttempt (hreach : (connectionManager H).Reachable state)
    (hrunning : state.manager.phase≠.exited) :
    (connectionManager H).CanReach state Attempting := by
  have hview := viewInvariant_reachable hreach
  cases hphase : state.manager.phase with
  | loopHead =>
    cases hdue : state.manager.needsUpdate || state.manager.client.isNone with
    | true => exact canAttempt_of_due hphase hdue
    | false =>
      have henabled : (connectionManager H).enabled state .enterLoop := hphase
      refine System.CanReach.step .enterLoop henabled
        (canAttempt_of_selecting (hreach.step henabled) ?_)
      change (state.manager.enterLoop state.clock).phase=_
      rw [Manager.enterLoop,hdue]
      rfl
  | circuitOpen wakeAt => exact canAttempt_of_circuitOpen hphase
  | attempting => exact System.CanReach.here hphase
  | established generation =>
    have henabled : (connectionManager H).enabled state .recordConnection := by
      change Enabled state .recordConnection
      simp only [Enabled,hphase]
    obtain ⟨_,_,hnext⟩ := next_recordConnection henabled
    refine System.CanReach.step .recordConnection henabled
      (canAttempt_of_selecting (hreach.step henabled) ?_)
    change (next state .recordConnection).manager.phase=_
    rw [hnext]
    rfl
  | backingOff wakeAt =>
    simp only [ViewInvariant,hphase] at hview
    exact canAttempt_of_backingOff hphase hview
  | selecting => exact canAttempt_of_selecting hreach hphase
  | updating =>
    obtain ⟨order,horder⟩ := state.registry.subscriptions.exists_iterationOrder
    exact System.CanReach.step (.sendUpdate order false) ⟨hphase,horder⟩
      (canAttempt_of_disconnect state.manager rfl)
  | exited => exact absurd hphase hrunning

end NextAttempt

section Counting

variable {start : State H}

theorem attemptStarts_cons (action : Action H) (later : List (Action H)) :
    attemptStarts start (action::later)=
      (attemptStart (start,action)).toList++attemptStarts (next start action) later := by
  rw [←List.singleton_append,attemptStarts_append]
  rfl

/-- A run that ends in an attempt has started one, unless it began in it. -/
theorem one_le_attemptStarts {actions : List (Action H)} (hbefore : ¬Attempting start)
    (hafter : Attempting ((connectionManager H).final start actions)) :
    1 ≤ (attemptStarts start actions).length := by
  induction actions generalizing start with
  | nil => exact absurd hafter hbefore
  | cons action later ih =>
    rw [attemptStarts_cons,List.length_append]
    by_cases hstarts : Attempting (next start action)
    · have hstart : attemptStart (start,action)=some start.clock := if_pos ⟨hbefore,hstarts⟩
      rw [hstart]
      exact Nat.le_add_right _ _
    · exact (ih hstarts hafter).trans (Nat.le_add_left _ _)

/-- An attempt succeeds, the connection is lost, and the next one starts. -/
theorem exists_next_attempt (hreach : (connectionManager H).Reachable start)
    (hattempting : Attempting start) :
    ∃ actions,(connectionManager H).Legal start actions ∧
      Attempting ((connectionManager H).final start actions) ∧
      1 ≤ (attemptStarts start actions).length := by
  obtain ⟨order,horder⟩ := start.registry.subscriptions.exists_iterationOrder
  have henabled : (connectionManager H).enabled start (.connectSucceeded order) :=
    ⟨hattempting,horder⟩
  have hestablished : (next start (.connectSucceeded order)).manager.phase=
      .established start.nextGeneration := rfl
  have hrunning : (next start (.connectSucceeded order)).manager.phase≠.exited := by
    rw [hestablished]
    exact ManagerPhase.noConfusion
  have hidle : ¬Attempting (next start (.connectSucceeded order)) := by
    rw [Attempting,hestablished]
    exact ManagerPhase.noConfusion
  obtain ⟨later,hlater,hagain⟩ := canAttempt (hreach.step henabled) hrunning
  refine ⟨.connectSucceeded order::later,⟨henabled,hlater⟩,hagain,?_⟩
  rw [attemptStarts_cons,List.length_append]
  exact (one_le_attemptStarts hidle hagain).trans (Nat.le_add_left _ _)

/-- Any number of attempts can follow while the task runs. -/
theorem attempts_unbounded (hreach : (connectionManager H).Reachable start)
    (hrunning : start.manager.phase≠.exited) (count : ℕ) :
    ∃ actions,(connectionManager H).Legal start actions ∧
      Attempting ((connectionManager H).final start actions) ∧
      count ≤ (attemptStarts start actions).length := by
  induction count with
  | zero =>
    obtain ⟨actions,hrun,hattempting⟩ := canAttempt hreach hrunning
    exact ⟨actions,hrun,hattempting,Nat.zero_le _⟩
  | succ count ih =>
    obtain ⟨earlier,hearlier,hattempting,hcount⟩ := ih
    obtain ⟨later,hlater,hagain,hone⟩ := exists_next_attempt (hreach.run hearlier) hattempting
    refine ⟨earlier++later,legal_append.mpr ⟨hearlier,hlater⟩,?_,?_⟩
    · rw [final_append]
      exact hagain
    · rw [attemptStarts_append,List.length_append]
      exact Nat.add_le_add hcount hone

/-- A task that has ended starts none. -/
theorem attemptStarts_of_exited {actions : List (Action H)}
    (hrun : (connectionManager H).Legal start actions) (hexited : start.manager.phase=.exited) :
    attemptStarts start actions=[] := by
  induction actions generalizing start with
  | nil => rfl
  | cons action later ih =>
    have hmanager : (next start action).manager=start.manager := exited_next hrun.1 hexited
    have hnone : attemptStart (start,action)=none := by
      refine if_neg fun hstarts => ?_
      have hattempting := hstarts.2
      rw [hmanager,hexited] at hattempting
      cases hattempting
    rw [attemptStarts_cons,hnone,Option.toList_none,List.nil_append]
    exact ih hrun.2 ((congrArg Manager.phase hmanager).trans hexited)

end Counting

section Ends

variable {state : State H} {action : Action H}

/-- A task ends by the panic of the failure branch or by a shutdown. -/
theorem taskEnds_cases (henabled : Enabled state action) (hends : TaskEnds (state,action)) :
    (action=.connectFailed ∧ state.manager.phase=.attempting ∧
      ¬state.manager.consecutiveFailures.toNat < 64) ∨
    (∃ rest,action=.receiveCommand ∧ state.commands=.shutdown::rest) ∨
    (action=.receiveShutdown ∧ state.shutdownSignalled=true) := by
  obtain ⟨hrunning,hafter⟩ := hends
  dsimp only at hrunning hafter
  cases action with
  | enterLoop =>
    have hkeeps := keepsSession_enterLoop henabled state.clock
    exact absurd hafter hkeeps.2.1
  | wake =>
    obtain ⟨wakeAt,_,hphase⟩ := sleeping_of_wake henabled
    have hkeeps := keepsSession_wake hphase state.clock
    exact absurd hafter hkeeps.2.1
  | connectFailed =>
    refine Or.inl ⟨rfl,henabled,fun hlow => ?_⟩
    rw [next_connectFailed,connectFailed_of_lt hlow] at hafter
    cases hafter
  | connectSucceeded order => cases hafter
  | recordConnection =>
    obtain ⟨_,_,hnext⟩ := next_recordConnection henabled
    rw [hnext] at hafter
    cases hafter
  | receiveCommand =>
    obtain ⟨command,rest,hcommands,hnext⟩ := next_receiveCommand henabled
    refine Or.inr (Or.inl ⟨rest,rfl,?_⟩)
    by_cases hshutdown : command=.shutdown
    · rw [hcommands,hshutdown]
    · rw [hnext] at hafter
      exact absurd hafter (keepsSession_afterCommand henabled.1 hshutdown _).2.1
  | sendUpdate order accepted =>
    cases (afterUpdate_phase state.manager accepted).symm.trans hafter
  | receiveEvent accepted =>
    obtain ⟨sent,_,_,hnext⟩ := next_receiveEvent henabled
    rw [hnext] at hafter
    cases (afterEvent_phase state.manager sent.event accepted).symm.trans hafter
  | receiveShutdown => exact Or.inr (Or.inr ⟨rfl,henabled.2⟩)
  | allChannelsClosed => exact absurd henabled not_allChannelsClosed
  | sendEvent generation =>
    obtain ⟨_,_,hnext⟩ := next_sendEvent henabled
    rw [hnext] at hafter
    exact absurd hafter hrunning
  | _ => exact absurd hafter hrunning

/-- A signal is waiting only if one was broadcast. -/
theorem signalled_before (henabled : Enabled state action)
    (hafter : (next state action).shutdownSignalled=true) :
    state.shutdownSignalled=true ∨ action=.signalShutdown := by
  rw [(callers_next henabled).2.1] at hafter
  cases action with
  | signalShutdown => exact Or.inr rfl
  | receiveShutdown => cases hafter
  | _ => exact Or.inl hafter

/-- A dropped owner does not come back. -/
theorem owner_before (henabled : Enabled state action)
    (hafter : (next state action).ownerAlive=true) :
    state.ownerAlive=true ∧ action≠.dropOwner := by
  rw [(callers_next henabled).1] at hafter
  cases action with
  | dropOwner => cases hafter
  | _ => exact ⟨hafter,fun hsame => by cases hsame⟩

/-- A shutdown command is queued only if it was sent. -/
theorem shutdown_queued_before (henabled : Enabled state action)
    (hafter : .shutdown∈(next state action).commands) :
    .shutdown∈state.commands ∨ action=.sendCommand .shutdown := by
  rw [(callers_next henabled).2.2] at hafter
  cases action with
  | sendCommand command =>
    rcases List.mem_append.mp hafter with hqueued|hsent
    · exact Or.inl hqueued
    · exact Or.inr (congrArg Action.sendCommand (List.mem_singleton.mp hsent).symm)
  | receiveCommand => exact Or.inl (List.mem_of_mem_tail hafter)
  | _ => exact Or.inl hafter

end Ends

section Histories

variable {start : State H} {actions : List (Action H)}

/-- Once dropped, the owner stays gone. -/
theorem owner_of_run (hrun : (connectionManager H).Legal start actions)
    (hdropped : .dropOwner∈actions) :
    ((connectionManager H).final start actions).ownerAlive=false := by
  have halive : ((connectionManager H).final start actions).ownerAlive=true →
      .dropOwner∉actions := by
    refine System.Legal.history_invariant
      (I := fun history state => state.ownerAlive=true → .dropOwner∉history) ?_ ?_ hrun
    · exact fun _ => List.not_mem_nil
    · intro history state action hpast henabled hafter hmem
      obtain ⟨hbefore,hother⟩ := owner_before henabled hafter
      rcases List.mem_append.mp hmem with hearlier|hlast
      · exact hpast hbefore hearlier
      · exact hother (List.mem_singleton.mp hlast).symm
  cases hfinal : ((connectionManager H).final start actions).ownerAlive with
  | false => rfl
  | true => exact absurd hdropped (halive hfinal)

/-- Without a call of `shutdown` no command or signal of it waits. -/
theorem no_shutdown_of_run (hinit : (connectionManager H).initial start)
    (hrun : (connectionManager H).Legal start actions)
    (huncalled : .sendCommand .shutdown∉actions) (hunsignalled : .signalShutdown∉actions) :
    .shutdown∉((connectionManager H).final start actions).commands ∧
      ((connectionManager H).final start actions).shutdownSignalled=false := by
  have hcommand : .shutdown∈((connectionManager H).final start actions).commands →
      .sendCommand .shutdown∈actions := by
    refine System.Legal.history_invariant
      (I := fun history state => .shutdown∈state.commands → .sendCommand .shutdown∈history)
      ?_ ?_ hrun
    · obtain ⟨clock,rfl⟩ := initial_iff.mp hinit
      exact fun hmem => absurd hmem List.not_mem_nil
    · intro history state action hpast henabled hafter
      rcases shutdown_queued_before henabled hafter with hbefore|rfl
      · exact List.mem_append_left _ (hpast hbefore)
      · exact List.mem_append_right _ (List.mem_singleton_self _)
  have hsignal : ((connectionManager H).final start actions).shutdownSignalled=true →
      .signalShutdown∈actions := by
    refine System.Legal.history_invariant
      (I := fun history state => state.shutdownSignalled=true → .signalShutdown∈history) ?_ ?_ hrun
    · obtain ⟨clock,rfl⟩ := initial_iff.mp hinit
      exact fun hflag => Bool.noConfusion hflag
    · intro history state action hpast henabled hafter
      rcases signalled_before henabled hafter with hbefore|rfl
      · exact List.mem_append_left _ (hpast hbefore)
      · exact List.mem_append_right _ (List.mem_singleton_self _)
  exact ⟨fun hmem => huncalled (hcommand hmem),
    Bool.eq_false_iff.mpr fun hflag => hunsignalled (hsignal hflag)⟩

/-- Without a call of `shutdown` the task ends by the 65th failure in a row,
and only by it. -/
theorem exited_iff (hinit : (connectionManager H).initial start)
    (hrun : (connectionManager H).Legal start actions)
    (huncalled : .sendCommand .shutdown∉actions) (hunsignalled : .signalShutdown∉actions) :
    ((connectionManager H).final start actions).manager.phase=.exited ↔
      64 < failuresSince actions := by
  constructor
  · refine System.Legal.run_induction
      (P := fun actions => .sendCommand .shutdown∉actions → .signalShutdown∉actions →
        ((connectionManager H).final start actions).manager.phase=.exited →
          64 < failuresSince actions) ?_ ?_ hrun huncalled hunsignalled
    · intro _ _ hexited
      obtain ⟨clock,rfl⟩ := initial_iff.mp hinit
      cases hexited
    · intro history action hpast hbound henabled huncalled hunsignalled hexited
      have huncalledBefore := fun hmem => huncalled (List.mem_append_left _ hmem)
      have hunsignalledBefore := fun hmem => hunsignalled (List.mem_append_left _ hmem)
      rw [final_append] at hexited
      by_cases hbefore : ((connectionManager H).final start history).manager.phase=.exited
      · have hfailed : action≠.connectFailed := by
          rintro rfl
          cases hbefore.symm.trans henabled
        have hrecorded : action≠.recordConnection := by
          rintro rfl
          obtain ⟨_,hestablished,_⟩ := next_recordConnection henabled
          cases hbefore.symm.trans hestablished
        rw [failuresSince_other history hfailed hrecorded]
        exact hbound huncalledBefore hunsignalledBefore hbefore
      · obtain ⟨hqueue,hflag⟩ := no_shutdown_of_run hinit hpast huncalledBefore hunsignalledBefore
        rcases taskEnds_cases henabled ⟨hbefore,hexited⟩ with
          ⟨rfl,_,hlast⟩|⟨rest,_,hcommands⟩|⟨_,hsignalled⟩
        · obtain ⟨hcounter,_⟩ := failures_of_run hinit hpast hbefore
          rw [failuresSince_failed,←hcounter]
          omega
        · rw [hcommands] at hqueue
          exact absurd List.mem_cons_self hqueue
        · cases hflag.symm.trans hsignalled
  · intro hmany
    by_contra hrunning
    exact absurd (failures_of_run hinit hrun hrunning).2 (Nat.not_le.mpr hmany)

end Histories

section Abandonment

variable {start : State H} {before after : List (Action H)}

/-- Two of the three channels of an abandoned manager are closed once its
command queue is empty. -/
theorem closed_of_abandoned (hinit : (connectionManager H).initial start)
    (hrun : (connectionManager H).Legal start before) (habandoned : Abandoned before)
    (hempty : ((connectionManager H).final start before).commands=[]) :
    (commandChannel ((connectionManager H).final start before)).Closed ∧
      (shutdownChannel ((connectionManager H).final start before)).Closed := by
  obtain ⟨hdropped,huncalled,hunsignalled⟩ := habandoned
  have hgone := owner_of_run hrun hdropped
  have hflag := (no_shutdown_of_run hinit hrun huncalled hunsignalled).2
  have hholders : ownerSenders ((connectionManager H).final start before).ownerAlive=∅ := by
    rw [hgone]
    rfl
  refine ⟨⟨hempty,hholders⟩,?_,hholders⟩
  change (if ((connectionManager H).final start before).shutdownSignalled=true then [()] else [])=[]
  rw [hflag]
  rfl

/-- Nobody is left to call `shutdown`. -/
theorem uncalled_after (hinit : (connectionManager H).initial start)
    (hrun : (connectionManager H).Legal start before) (habandoned : Abandoned before)
    (hempty : ((connectionManager H).final start before).commands=[])
    (hafter : (connectionManager H).Legal ((connectionManager H).final start before) after) :
    .sendCommand .shutdown∉before++after ∧ .signalShutdown∉before++after := by
  obtain ⟨hcommands,hshutdown⟩ := closed_of_abandoned hinit hrun habandoned hempty
  have hreach := (System.Reachable.start hinit).run hrun
  have hnoCommand := (commandOperations_of_closed hreach hafter hcommands).1
  have hnoSignal := (shutdownOperations_of_closed hreach hafter hshutdown).1
  constructor
  · intro hmem
    rcases List.mem_append.mp hmem with hbefore|hlater
    · exact habandoned.2.1 hbefore
    · obtain ⟨state,hstep⟩ := exists_step_of_mem hlater
      cases hnoCommand _ hstep
  · intro hmem
    rcases List.mem_append.mp hmem with hbefore|hlater
    · exact habandoned.2.2 hbefore
    · obtain ⟨state,hstep⟩ := exists_step_of_mem hlater
      exact absurd (hnoSignal _ hstep) (List.append_ne_nil_of_right_ne_nil _ (List.cons_ne_nil _ _))

/-- From the moment the owner is gone and the command queue is empty. Whatever
happens next, at most one further attempt starts, if and only if the task has
been ended already by its 65th failure in a row; otherwise any number of them
can follow. In each single run: the `else` branch is never taken, and the task
ends by that failure only; the loop starts at most one attempt if no more than
one is owed by failures and drops, counting what was owed at that moment; and
of the runs at whose end none is owed these are all that start at most one. -/
theorem abandoned_attempts_iff (hinit : (connectionManager H).initial start)
    (hrun : (connectionManager H).Legal start before) (habandoned : Abandoned before)
    (hempty : ((connectionManager H).final start before).commands=[]) :
    ((∀ after,(connectionManager H).Legal ((connectionManager H).final start before) after →
        (attemptStarts ((connectionManager H).final start before) after).length ≤ 1) ↔
      64 < failuresSince before) ∧
    (failuresSince before ≤ 64 → ∀ count,∃ after,
      (connectionManager H).Legal ((connectionManager H).final start before) after ∧
        count ≤ (attemptStarts ((connectionManager H).final start before) after).length) ∧
    ∀ after,(connectionManager H).Legal ((connectionManager H).final start before) after →
      .allChannelsClosed∉before++after ∧
      (((connectionManager H).final start (before++after)).manager.phase=.exited ↔
        64 < failuresSince (before++after)) ∧
      (owed ((connectionManager H).final start before).manager+
          losses ((connectionManager H).final start before) after ≤ 1 →
        (attemptStarts ((connectionManager H).final start before) after).length ≤ 1) ∧
      (owed ((connectionManager H).final start (before++after)).manager=0 →
        ((attemptStarts ((connectionManager H).final start before) after).length ≤ 1 ↔
          owed ((connectionManager H).final start before).manager+
            losses ((connectionManager H).final start before) after ≤ 1)) := by
  have hreach := (System.Reachable.start hinit).run hrun
  have hended := exited_iff hinit hrun habandoned.2.1 habandoned.2.2
  have hunbounded : ¬64 < failuresSince before → ∀ count,∃ after,
      (connectionManager H).Legal ((connectionManager H).final start before) after ∧
        count ≤ (attemptStarts ((connectionManager H).final start before) after).length := by
    intro hfew count
    obtain ⟨after,hafter,_,hcount⟩ := attempts_unbounded hreach (mt hended.mp hfew) count
    exact ⟨after,hafter,hcount⟩
  refine ⟨⟨?_,?_⟩,fun hfew => hunbounded (Nat.not_lt.mpr hfew),?_⟩
  · intro hclaim
    by_contra hfew
    obtain ⟨after,hafter,hcount⟩ := hunbounded hfew 2
    exact absurd (hcount.trans (hclaim after hafter)) (by decide)
  · intro hmany after hafter
    rw [attemptStarts_of_exited hafter (hended.mpr hmany)]
    exact Nat.zero_le _
  · intro after hafter
    have hwhole : (connectionManager H).Legal start (before++after) :=
      legal_append.mpr ⟨hrun,hafter⟩
    obtain ⟨huncalled,hunsignalled⟩ := uncalled_after hinit hrun habandoned hempty hafter
    have hcount := attempts_of_run hreach hafter
    rw [←final_append] at hcount
    refine ⟨?_,exited_iff hinit hwhole huncalled hunsignalled,fun hbound => by omega,
      fun hnothing => by omega⟩
    intro hmem
    obtain ⟨state,hstep⟩ := exists_step_of_mem hmem
    exact not_allChannelsClosed (hwhole.enabled_of_mem_steps hstep)

/-- The owner is dropped while its connection is healthy. -/
def droppedRun : List (Action Unit) :=
  [.enterLoop,.connectSucceeded [],.recordConnection,.dropOwner]

theorem abandoned_droppedRun : Abandoned droppedRun := by
  simp only [Abandoned,droppedRun,List.mem_cons,reduceCtorEq,List.not_mem_nil,or_false,or_self,
    not_false_eq_true,and_self,or_true]

theorem abandoned_attempts_iff_droppedRun :
    ((∀ after,(connectionManager Unit).Legal
          ((connectionManager Unit).final (State.start 0) droppedRun) after →
        (attemptStarts ((connectionManager Unit).final (State.start 0) droppedRun)
          after).length ≤ 1) ↔
      64 < failuresSince droppedRun) ∧
    (failuresSince droppedRun ≤ 64 → ∀ count,∃ after,
      (connectionManager Unit).Legal
          ((connectionManager Unit).final (State.start 0) droppedRun) after ∧
        count ≤ (attemptStarts ((connectionManager Unit).final (State.start 0) droppedRun)
          after).length) ∧
    ∀ after,(connectionManager Unit).Legal
        ((connectionManager Unit).final (State.start 0) droppedRun) after →
      .allChannelsClosed∉droppedRun++after ∧
      (((connectionManager Unit).final (State.start 0) (droppedRun++after)).manager.phase=.exited ↔
        64 < failuresSince (droppedRun++after)) ∧
      (owed ((connectionManager Unit).final (State.start 0) droppedRun).manager+
          losses ((connectionManager Unit).final (State.start 0) droppedRun) after ≤ 1 →
        (attemptStarts ((connectionManager Unit).final (State.start 0) droppedRun)
          after).length ≤ 1) ∧
      (owed ((connectionManager Unit).final (State.start 0) (droppedRun++after)).manager=0 →
        ((attemptStarts ((connectionManager Unit).final (State.start 0) droppedRun)
            after).length ≤ 1 ↔
          owed ((connectionManager Unit).final (State.start 0) droppedRun).manager+
            losses ((connectionManager Unit).final (State.start 0) droppedRun) after ≤ 1)) :=
  abandoned_attempts_iff (initial_iff.mpr ⟨0,rfl⟩) (by decide) abandoned_droppedRun (by decide)

/-- A stream ends, the loop connects again and waits. -/
def reconnectRound (generation : Generation) : List (Action Unit) :=
  [.endOfStream generation,.sendEvent generation,.receiveEvent true,.enterLoop,
    .connectSucceeded [],.recordConnection]

/-- Two streams end after the owner was dropped, and the loop connects again
each time. -/
theorem abandoned_keeps_connecting :
    ¬∀ (start : State Unit) (before after : List (Action Unit)),
      (connectionManager Unit).initial start →
      (connectionManager Unit).Legal start (before++after) → Abandoned before →
      ((connectionManager Unit).final start before).commands=[] →
      (attemptStarts ((connectionManager Unit).final start before) after).length ≤ 1 := by
  intro hclaim
  have hone := hclaim (State.start 0) droppedRun (reconnectRound 0++reconnectRound 1)
    (initial_iff.mpr ⟨0,rfl⟩) (by decide) abandoned_droppedRun (by decide)
  have htwo : (attemptStarts ((connectionManager Unit).final (State.start 0) droppedRun)
      (reconnectRound 0++reconnectRound 1)).length=2 := by decide
  rw [htwo] at hone
  exact absurd hone (by decide)

end Abandonment

end SteamHandler.OwnerGone
