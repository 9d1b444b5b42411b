import SteamHandler.Attempts

/-!
# The pace of retries

Two sleeps separate an attempt from the next one. The backoff follows the
failure and depends on the counter alone; the circuit breaker waits at the top
of the next iteration and measures from the start of the last attempt. One
invariant links the counter, the last attempt and the clock at each await
point, so that whichever way the next attempt is reached, both spans have
passed.
-/

namespace SteamHandler.RetryPacing

open SubscriptionRegistry Backoff ConnectionManager ManagerRuns ServerView Attempts
open TransitionSystem

variable {H : Type}

/-- The failures in a row after one more action. -/
def failuresAfter (failures : ℕ) : Action H → ℕ
  | .connectFailed => failures+1
  | .connectSucceeded _ => 0
  | _ => failures

/-- Failed attempts since the last one that succeeded. -/
def failedAttempts (actions : List (Action H)) : ℕ := actions.foldl failuresAfter 0

/-- The backoff after so many failures in a row. -/
def backoffSpan (failures : ℕ) : Duration := fromSecs (min (2^(failures-1)) 60)

/-- The circuit breaker's distance between attempts. -/
def breakerSpan (failures : ℕ) : Duration := if 5 < failures then fromSecs (10*failures) else 0

/-- The last attempt started at least this long before the moment. -/
def AttemptedBefore (manager : Manager) (span : Duration) (moment : Instant) : Prop :=
  ∃ last,manager.lastAttempt=some last ∧ last+span ≤ moment

/-- What each await point knows of the failures and of the last attempt. -/
def Paced (failures : ℕ) (manager : Manager) (clock : Instant) : Prop :=
  match manager.phase with
  | .loopHead => manager.consecutiveFailures.toNat=failures ∧
      (1 ≤ failures → manager.client=none ∧ AttemptedBefore manager (backoffSpan failures) clock)
  | .circuitOpen wakeAt => manager.consecutiveFailures.toNat=failures ∧
      (1 ≤ failures → AttemptedBefore manager (backoffSpan failures) clock ∧
        AttemptedBefore manager (breakerSpan failures) wakeAt)
  | .attempting => manager.consecutiveFailures.toNat=failures ∧ AttemptedBefore manager 0 clock
  | .established _ => failures=0
  | .backingOff wakeAt => manager.consecutiveFailures.toNat=failures ∧
      AttemptedBefore manager (backoffSpan failures) wakeAt
  | .selecting => manager.consecutiveFailures.toNat=0 ∧ failures=0
  | .updating => manager.consecutiveFailures.toNat=0 ∧ failures=0
  | .exited => True

theorem failedAttempts_snoc (actions : List (Action H)) (action : Action H) :
    failedAttempts (actions++[action])=failuresAfter (failedAttempts actions) action := by
  rw [failedAttempts,List.foldl_append]
  rfl

section Spans

variable {manager : Manager} {span : Duration} {moment : Instant}

theorem AttemptedBefore.mono (h : AttemptedBefore manager span moment) {shorter : Duration}
    (hspan : shorter ≤ span) {later : Instant} (hlater : moment ≤ later) :
    AttemptedBefore manager shorter later := by
  obtain ⟨last,hlast,hpast⟩ := h
  exact ⟨last,hlast,((Nat.add_le_add_left hspan last).trans hpast).trans hlater⟩

/-- A wait that is over. -/
theorem waited_of_not_lt {last now wait : ℕ} (hpast : last ≤ now) (h : ¬now-last < wait) :
    last+wait ≤ now := by omega

/-- A wait whose rest is slept. -/
theorem waited_of_rest {last now wait : ℕ} (hpast : last ≤ now) :
    last+wait ≤ now+(wait-(now-last)) := by omega

/-- An attempt that the circuit breaker lets pass comes late enough. -/
theorem breakerSpan_of_passed (hpast : AttemptedBefore manager 0 moment)
    (hpassed : manager.circuitWait moment=none) :
    AttemptedBefore manager (breakerSpan manager.consecutiveFailures.toNat) moment := by
  obtain ⟨last,hlast,hbefore⟩ := hpast
  refine ⟨last,hlast,?_⟩
  unfold breakerSpan
  unfold Manager.circuitWait at hpassed
  split
  · rename_i hopen
    rw [if_pos hopen,hlast] at hpassed
    dsimp only at hpassed
    split at hpassed
    · cases hpassed
    · rename_i hwaited
      rw [Nat.mul_comm] at hwaited
      exact waited_of_not_lt hbefore hwaited
  · exact hbefore

/-- The circuit breaker sleeps long enough. -/
theorem breakerSpan_of_sleep (hpast : AttemptedBefore manager 0 moment) {remaining : Duration}
    (hsleep : manager.circuitWait moment=some remaining) :
    AttemptedBefore manager (breakerSpan manager.consecutiveFailures.toNat) (moment+remaining) := by
  obtain ⟨last,hlast,hbefore⟩ := hpast
  refine ⟨last,hlast,?_⟩
  unfold breakerSpan
  unfold Manager.circuitWait at hsleep
  split
  · rename_i hopen
    rw [if_pos hopen,hlast] at hsleep
    dsimp only at hsleep
    split at hsleep
    · cases hsleep
      rw [Nat.mul_comm 10]
      exact waited_of_rest hbefore
    · cases hsleep
  · exact hbefore.trans (Nat.le_add_right _ _)

end Spans

section Steps

variable {failures : ℕ} {manager : Manager} {clock : Instant}

/-- What is known stays true as time passes. -/
theorem Paced.mono (h : Paced failures manager clock) {later : Instant} (hlater : clock ≤ later) :
    Paced failures manager later := by
  cases hphase : manager.phase with
  | loopHead =>
    simp only [Paced,hphase] at h ⊢
    exact ⟨h.1,fun hsome => ⟨(h.2 hsome).1,(h.2 hsome).2.mono (Nat.le_refl _) hlater⟩⟩
  | circuitOpen wakeAt =>
    simp only [Paced,hphase] at h ⊢
    exact ⟨h.1,fun hsome => ⟨(h.2 hsome).1.mono (Nat.le_refl _) hlater,(h.2 hsome).2⟩⟩
  | attempting =>
    simp only [Paced,hphase] at h ⊢
    exact ⟨h.1,h.2.mono (Nat.le_refl _) hlater⟩
  | exited => simp only [Paced,hphase]
  | _ =>
    simp only [Paced,hphase] at h ⊢
    exact h

/-- An attempt starts now. -/
theorem paced_startAttempt (hcounter : manager.consecutiveFailures.toNat=failures)
    (now : Instant) : Paced failures (manager.startAttempt now) now :=
  ⟨hcounter,now,rfl,Nat.le_refl _⟩

/-- Without failures there is nothing to wait for. -/
theorem paced_of_none (hcounter : manager.consecutiveFailures.toNat=0)
    (hphase : manager.phase=.exited ∨ manager.phase=.updating ∨ manager.phase=.loopHead) :
    Paced 0 manager clock := by
  rcases hphase with hphase|hphase|hphase
  · simp only [Paced,hphase]
  · simp only [Paced,hphase]
    exact ⟨hcounter,trivial⟩
  · simp only [Paced,hphase]
    exact ⟨hcounter,fun hsome => absurd hsome (by decide)⟩

/-- The top of the loop passes on what it knows, with the circuit breaker's
wait if it sleeps. -/
theorem paced_enterLoop (hphase : manager.phase=.loopHead) (h : Paced failures manager clock) :
    Paced failures (manager.enterLoop clock) clock := by
  simp only [Paced,hphase] at h
  obtain ⟨hcounter,hwaited⟩ := h
  rcases manager.enterLoop_cases clock with
    ⟨_,remaining,hsleep,hnext⟩|⟨_,_,hnext⟩|⟨hcalm,hnext⟩
  · rw [hnext]
    refine ⟨hcounter,fun hsome => ?_⟩
    have hpast := (hwaited hsome).2
    have hopen := breakerSpan_of_sleep (hpast.mono (Nat.zero_le _) (Nat.le_refl _)) hsleep
    rw [hcounter] at hopen
    exact ⟨hpast,hopen⟩
  · rw [hnext]
    exact paced_startAttempt hcounter clock
  · have hnone : failures=0 := by
      by_contra hsome
      have hclient := (hwaited (Nat.one_le_iff_ne_zero.mpr hsome)).1
      rw [hclient,Option.isNone_none,Bool.or_true] at hcalm
      cases hcalm
    rw [hnext]
    exact ⟨hcounter.trans hnone,hnone⟩

/-- A sleep that ends has lasted. -/
theorem paced_wake {state : State H} (henabled : Enabled state .wake)
    (hview : ViewInvariant state.manager state.registry.subscriptions state.serverFilters)
    (h : Paced failures state.manager state.clock) :
    Paced failures (state.manager.wake state.clock) state.clock := by
  rcases wake_step henabled with ⟨_,wakeAt,hphase,_,hnext⟩|⟨_,wakeAt,hphase,hslept,hnext⟩
  · simp only [Paced,hphase] at h
    rw [hnext]
    exact paced_startAttempt h.1 _
  · simp only [Paced,hphase] at h
    simp only [ViewInvariant,hphase] at hview
    rw [hnext]
    exact ⟨h.1,fun _ => ⟨hview,h.2.mono (Nat.le_refl _) hslept⟩⟩

/-- A failed attempt is counted, and the backoff measured from later than its
start. -/
theorem paced_connectFailed (hphase : manager.phase=.attempting)
    (hbound : manager.consecutiveFailures.toNat ≤ 64) (h : Paced failures manager clock) :
    Paced (failures+1) (manager.connectFailed clock) clock := by
  simp only [Paced,hphase] at h
  obtain ⟨hcounter,last,hlast,hpast⟩ := h
  rcases Nat.lt_or_eq_of_le hbound with hlow|hfull
  · rw [connectFailed_of_lt hlow,hcounter]
    refine ⟨(toNat_add_one hbound).trans (congrArg (·+1) hcounter),last,hlast,?_⟩
    exact Nat.add_le_add_right hpast _
  · rw [connectFailed_at_64 hfull]
    trivial

/-- Every step keeps the pace. -/
theorem paced_next {state : State H} {action : Action H}
    (hreach : (connectionManager H).Reachable state) (henabled : Enabled state action)
    (h : Paced failures state.manager state.clock) :
    Paced (failuresAfter failures action) (next state action).manager (next state action).clock := by
  have hview := viewInvariant_reachable hreach
  cases action with
  | tick elapsed => exact h.mono (Nat.le_add_right _ _)
  | enterLoop => exact paced_enterLoop henabled h
  | wake => exact paced_wake henabled hview h
  | connectFailed =>
    have hphase : state.manager.phase=.attempting := henabled
    have hbound := counter_le_of_reachable hreach (by rw [hphase]; exact ManagerPhase.noConfusion)
    rw [next_connectFailed]
    exact paced_connectFailed hphase hbound h
  | connectSucceeded order => rfl
  | recordConnection =>
    obtain ⟨_,hphase,hnext⟩ := next_recordConnection henabled
    simp only [Paced,hphase] at h
    rw [hnext]
    exact ⟨rfl,h⟩
  | receiveCommand =>
    simp only [Paced,henabled.1] at h
    obtain ⟨hcounter,rfl⟩ := h
    obtain ⟨command,_,_,hnext⟩ := next_receiveCommand henabled
    have hsame := @afterCommand_counter H state.manager command
      (state.registry.handle command).2
    rw [hnext]
    refine paced_of_none ?_ (afterCommand_phase _ command _)
    exact (congrArg UInt32.toNat hsame).trans hcounter
  | sendUpdate order accepted =>
    simp only [Paced,henabled.1] at h
    obtain ⟨hcounter,rfl⟩ := h
    have hsame := @afterUpdate_counter state.manager accepted
    refine paced_of_none ?_ (Or.inr (Or.inr (afterUpdate_phase _ accepted)))
    exact (congrArg UInt32.toNat hsame).trans hcounter
  | receiveEvent accepted =>
    simp only [Paced,henabled.1] at h
    obtain ⟨hcounter,rfl⟩ := h
    obtain ⟨sent,_,_,hnext⟩ := next_receiveEvent henabled
    have hsame := @afterEvent_counter state.manager sent.event accepted
    rw [hnext]
    refine paced_of_none ?_ (Or.inr (Or.inr (afterEvent_phase _ sent.event accepted)))
    exact (congrArg UInt32.toNat hsame).trans hcounter
  | receiveShutdown => trivial
  | allChannelsClosed => trivial
  | sendEvent generation =>
    obtain ⟨_,_,hnext⟩ := next_sendEvent henabled
    rw [hnext]
    exact h
  | _ => exact h

end Steps

section LastAttempt

variable {state : State H} {action : Action H}

theorem afterCommand_lastAttempt (manager : Manager) (command : ManagerCommand H)
    (flagged : Bool) :
    (manager.afterCommand command flagged).lastAttempt=manager.lastAttempt := by
  cases command <;> rfl

theorem afterEvent_lastAttempt (manager : Manager) (event : StreamEvent) (accepted : Bool) :
    (manager.afterEvent event accepted).lastAttempt=manager.lastAttempt := by
  rcases manager.afterEvent_cases event accepted with hdropped|⟨_,hkept⟩
  · rw [hdropped]
    rfl
  · rw [hkept]

/-- Only the start of an attempt writes `last_attempt`, with the time. -/
theorem lastAttempt_next (henabled : Enabled state action) :
    (next state action).manager.lastAttempt=
      if StartsAttempt state action then some state.clock else state.manager.lastAttempt := by
  have hother : canStart action=false →
      (if StartsAttempt state action then some state.clock else state.manager.lastAttempt)=
        state.manager.lastAttempt :=
    fun hcannot => if_neg (not_startsAttempt henabled hcannot)
  cases action with
  | enterLoop =>
    change (state.manager.enterLoop state.clock).lastAttempt=_
    rcases enterLoop_step henabled with
      ⟨hnot,_,remaining,_,hnext⟩|⟨hstart,_,_,hnext⟩|⟨hnot,_,hnext⟩
    · rw [if_neg hnot,hnext]
    · rw [if_pos hstart,hnext]
      rfl
    · rw [if_neg hnot,hnext]
  | wake =>
    change (state.manager.wake state.clock).lastAttempt=_
    rcases wake_step henabled with ⟨hstart,_,_,_,hnext⟩|⟨hnot,_,_,_,hnext⟩
    · rw [if_pos hstart,hnext]
      rfl
    · rw [if_neg hnot,hnext]
  | connectFailed =>
    rw [hother rfl,next_connectFailed]
    rcases state.manager.connectFailed_cases state.clock with ⟨failures,sleep,hsleep⟩|hpanic
    · rw [hsleep]
    · rw [hpanic]
  | recordConnection =>
    rw [hother rfl]
    obtain ⟨_,_,hnext⟩ := next_recordConnection henabled
    rw [hnext]
    rfl
  | receiveCommand =>
    rw [hother rfl]
    obtain ⟨command,_,_,hnext⟩ := next_receiveCommand henabled
    rw [hnext]
    exact afterCommand_lastAttempt _ command _
  | sendUpdate order accepted =>
    rw [hother rfl]
    cases accepted <;> rfl
  | receiveEvent accepted =>
    rw [hother rfl]
    obtain ⟨sent,_,_,hnext⟩ := next_receiveEvent henabled
    rw [hnext]
    exact afterEvent_lastAttempt _ sent.event accepted
  | sendEvent generation =>
    rw [hother rfl]
    obtain ⟨_,_,hnext⟩ := next_sendEvent henabled
    rw [hnext]
    rfl
  | _ =>
    rw [hother rfl]
    rfl

end LastAttempt

/-- In every run the manager remembers the start of its last attempt, and the
pace holds with the failures since the last success. -/
theorem paced_of_run {start : State H} {actions : List (Action H)}
    (hinit : (connectionManager H).initial start)
    (hrun : (connectionManager H).Legal start actions) :
    ((connectionManager H).final start actions).manager.lastAttempt=
        (attemptStarts start actions).getLast? ∧
      Paced (failedAttempts actions) ((connectionManager H).final start actions).manager
        ((connectionManager H).final start actions).clock := by
  refine System.Legal.run_induction
    (P := fun actions => ((connectionManager H).final start actions).manager.lastAttempt=
        (attemptStarts start actions).getLast? ∧
      Paced (failedAttempts actions) ((connectionManager H).final start actions).manager
        ((connectionManager H).final start actions).clock) ?_ ?_ hrun
  · obtain ⟨clock,rfl⟩ := initial_iff.mp hinit
    exact ⟨rfl,rfl,fun hsome => absurd hsome (Nat.not_succ_le_zero 0)⟩
  · intro history action hpast ⟨hlast,hpaced⟩ henabled
    have hreach := (System.Reachable.start hinit).run hpast
    have hstep := lastAttempt_next henabled
    rw [final_append]
    refine ⟨?_,?_⟩
    · refine hstep.trans ?_
      rw [attemptStarts_snoc,attemptStart,List.getLast?_append]
      split
      · rfl
      · rw [hlast]
        rfl
    · rw [failedAttempts_snoc]
      exact paced_next hreach henabled hpaced

/-- Where an attempt starts, the counter is that of the failures, and both
spans have passed since the last attempt. -/
theorem waited_of_startsAttempt {state : State H} {action : Action H} {failures : ℕ}
    (henabled : Enabled state action) (hstart : StartsAttempt state action)
    (h : Paced failures state.manager state.clock) :
    state.manager.consecutiveFailures.toNat=failures ∧
      (1 ≤ failures → AttemptedBefore state.manager (backoffSpan failures) state.clock ∧
        AttemptedBefore state.manager (breakerSpan failures) state.clock) := by
  rcases startsAttempt_cases henabled hstart with ⟨hphase,hpassed⟩|⟨wakeAt,hphase,hslept⟩
  · simp only [Paced,hphase] at h
    obtain ⟨hcounter,hwaited⟩ := h
    refine ⟨hcounter,fun hsome => ?_⟩
    have hpast := (hwaited hsome).2
    have hopen := breakerSpan_of_passed (hpast.mono (Nat.zero_le _) (Nat.le_refl _)) hpassed
    rw [hcounter] at hopen
    exact ⟨hpast,hopen⟩
  · simp only [Paced,hphase] at h
    obtain ⟨hcounter,hwaited⟩ := h
    refine ⟨hcounter,fun hsome => ?_⟩
    exact ⟨(hwaited hsome).1,(hwaited hsome).2.mono (Nat.le_refl _) hslept⟩

/-- Retry pacing: in every run, at the start of every attempt, the counter is
the number of failed attempts since the last success, and after a failure both
the backoff and the circuit breaker's distance have passed since the start of
the previous attempt. -/
theorem retries_paced {start : State H} {actions : List (Action H)} {action : Action H}
    (hinit : (connectionManager H).initial start)
    (hrun : (connectionManager H).Legal start (actions++[action]))
    (hstart : StartsAttempt ((connectionManager H).final start actions) action) :
    ((connectionManager H).final start actions).manager.consecutiveFailures.toNat=
        failedAttempts actions ∧
      (1 ≤ failedAttempts actions →
        ∃ previous,(attemptStarts start actions).getLast?=some previous ∧
          previous+max (fromSecs (min (2^(failedAttempts actions-1)) 60))
              (if 5 < failedAttempts actions then fromSecs (10*failedAttempts actions) else 0) ≤
            ((connectionManager H).final start actions).clock) := by
  obtain ⟨hpast,hlast⟩ := legal_append.mp hrun
  obtain ⟨hremembered,hpaced⟩ := paced_of_run hinit hpast
  obtain ⟨hcounter,hwaited⟩ := waited_of_startsAttempt hlast.1 hstart hpaced
  refine ⟨hcounter,fun hsome => ?_⟩
  obtain ⟨⟨previous,hprevious,hbackoff⟩,other,hother,hbreaker⟩ := hwaited hsome
  have hsame : previous=other := Option.some.inj (hprevious.symm.trans hother)
  subst hsame
  refine ⟨previous,hremembered.symm.trans hprevious,?_⟩
  change previous+max (backoffSpan _) (breakerSpan _) ≤ _
  rcases max_choice (backoffSpan (failedAttempts actions)) (breakerSpan (failedAttempts actions))
    with hlarger|hlarger
  · rw [hlarger]
    exact hbackoff
  · rw [hlarger]
    exact hbreaker

/-- The first attempt fails, and the manager is about to start the second. -/
def firstRetry : List (Action Unit) := [.enterLoop,.connectFailed,.tick (fromSecs 640),.wake]

theorem retries_paced_firstRetry :
    ((connectionManager Unit).final (State.start 0) firstRetry).manager.consecutiveFailures.toNat=
        failedAttempts firstRetry ∧
      (1 ≤ failedAttempts firstRetry →
        ∃ previous,(attemptStarts (State.start 0) firstRetry).getLast?=some previous ∧
          previous+max (fromSecs (min (2^(failedAttempts firstRetry-1)) 60))
              (if 5 < failedAttempts firstRetry then fromSecs (10*failedAttempts firstRetry)
                else 0) ≤
            ((connectionManager Unit).final (State.start 0) firstRetry).clock) := by
  have hretrying : Retrying ((connectionManager Unit).final (State.start 0) [.enterLoop]) 0 :=
    ⟨rfl,rfl,rfl,fun last hlast => Nat.le_of_eq (Option.some.inj hlast).symm⟩
  obtain ⟨hround,hagain⟩ := retryRound_final hretrying (by decide)
  have hsplit : firstRetry++[Action.enterLoop]=[Action.enterLoop]++retryRound := rfl
  have hlegal : (connectionManager Unit).Legal (State.start 0) (firstRetry++[.enterLoop]) := by
    rw [hsplit]
    exact legal_append.mpr ⟨by decide,hround⟩
  have hloop : ((connectionManager Unit).final (State.start 0) firstRetry).manager.phase=
      .loopHead := (legal_append.mp hlegal).2.1
  have hattempting : ((connectionManager Unit).final (State.start 0)
      (firstRetry++[.enterLoop])).manager.phase=.attempting := by
    rw [hsplit,final_append]
    exact hagain.phase
  rw [final_append] at hattempting
  refine retries_paced (initial_iff.mpr ⟨0,rfl⟩) hlegal ⟨?_,hattempting⟩
  rw [hloop]
  exact ManagerPhase.noConfusion

end SteamHandler.RetryPacing
