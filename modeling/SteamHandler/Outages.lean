import SteamHandler.RetryPacing

/-!
# How long an outage the manager survives

An outage begins with the first attempt after the last success. Every failure
adds the longer of its two waits to the least time the outage has lasted when
the next attempt starts. The waits are not rounded up anywhere, so that attempts
that fail at once follow each other at exactly these distances, up to the
failure whose backoff panics.
-/

namespace SteamHandler.Outages

open SubscriptionRegistry Backoff ConnectionManager ManagerRuns Attempts RetryPacing
open TransitionSystem

variable {H : Type}

/-- The wait between an attempt and the one before it, after so many failures. -/
def retrySpan (failures : ℕ) : Duration := max (backoffSpan failures) (breakerSpan failures)

/-- The least time from the first attempt of an outage to the one after so many
failures. -/
def leastOutage : ℕ → Duration
  | 0 => 0
  | failures+1 => leastOutage failures+retrySpan (failures+1)

/-- When the outage began, after one more step. -/
def outageAfter (began : Option Instant) (step : State H × Action H) : Option Instant :=
  match step.2 with
  | .connectSucceeded _ => none
  | action => if StartsAttempt step.1 action then some (began.getD step.1.clock) else began

/-- The start of the first attempt since the last success. -/
def outageBegan (start : State H) (actions : List (Action H)) : Option Instant :=
  ((connectionManager H).steps start actions).foldl outageAfter none

theorem outageBegan_snoc (start : State H) (history : List (Action H)) (action : Action H) :
    outageBegan start (history++[action])=
      outageAfter (outageBegan start history) ((connectionManager H).final start history,action) := by
  rw [outageBegan,steps_snoc,List.foldl_append]
  rfl

/-- The outage has lasted at least this long at the start of the last attempt. -/
def LastedBy (span : Duration) (began : Option Instant) (manager : Manager) : Prop :=
  ∃ first last,began=some first ∧ manager.lastAttempt=some last ∧ first+span ≤ last

/-- Between attempts, all the failures but the last lie between the beginning of the
outage and the last attempt; without failures there is none. -/
def SpacedBetween (began : Option Instant) (manager : Manager) : ℕ → Prop
  | 0 => began=none
  | failures+1 => LastedBy (leastOutage failures) began manager

/-- During an attempt, all the failures lie before it. -/
def Spaced (failures : ℕ) (began : Option Instant) (manager : Manager) : Prop :=
  if manager.phase=.attempting then LastedBy (leastOutage failures) began manager
  else SpacedBetween began manager failures

section Steps

variable {state : State H} {action : Action H} {failures : ℕ} {began : Option Instant}

/-- An attempt in progress ends or goes on. -/
theorem attempting_next (henabled : Enabled state action)
    (hphase : state.manager.phase=.attempting) :
    action=.connectFailed ∨ (∃ order,action=.connectSucceeded order) ∨
      (next state action).manager=state.manager := by
  have hbusy : ∀ {other : ManagerPhase},state.manager.phase=other → other=.attempting :=
    fun hother => hother.symm.trans hphase
  cases action with
  | connectFailed => exact Or.inl rfl
  | connectSucceeded order => exact Or.inr (Or.inl ⟨order,rfl⟩)
  | enterLoop => cases hbusy henabled
  | wake =>
    obtain ⟨_,_,hasleep|hasleep⟩ := sleeping_of_wake henabled
    · cases hbusy hasleep
    · cases hbusy hasleep
  | recordConnection =>
    obtain ⟨_,hother,_⟩ := next_recordConnection henabled
    cases hbusy hother
  | receiveCommand => cases hbusy henabled.1
  | sendUpdate order accepted => cases hbusy henabled.1
  | receiveEvent accepted => cases hbusy henabled.1
  | receiveShutdown => cases hbusy henabled.1
  | allChannelsClosed => cases hbusy henabled.1
  | sendEvent generation =>
    obtain ⟨_,_,hnext⟩ := next_sendEvent henabled
    rw [hnext]
    exact Or.inr (Or.inr rfl)
  | _ => exact Or.inr (Or.inr rfl)

/-- The span that an attempt waited for has passed. -/
theorem retrySpan_of_startsAttempt (henabled : Enabled state action)
    (hstart : StartsAttempt state action) (hpaced : Paced failures state.manager state.clock)
    (hsome : 1 ≤ failures) :
    ∃ last,state.manager.lastAttempt=some last ∧ last+retrySpan failures ≤ state.clock := by
  obtain ⟨_,hwaited⟩ := waited_of_startsAttempt henabled hstart hpaced
  obtain ⟨⟨last,hlast,hbackoff⟩,other,hother,hbreaker⟩ := hwaited hsome
  have hsame : last=other := Option.some.inj (hlast.symm.trans hother)
  subst hsame
  refine ⟨last,hlast,?_⟩
  rw [retrySpan]
  rcases max_choice (backoffSpan failures) (breakerSpan failures) with hlarger|hlarger
  · rw [hlarger]
    exact hbackoff
  · rw [hlarger]
    exact hbreaker

/-- At the start of an attempt the outage has lasted long enough. -/
theorem lasted_of_startsAttempt (henabled : Enabled state action)
    (hstart : StartsAttempt state action) (hpaced : Paced failures state.manager state.clock)
    (h : Spaced failures began state.manager) :
    began.getD state.clock+leastOutage failures ≤ state.clock := by
  rw [Spaced,if_neg hstart.1] at h
  cases failures with
  | zero =>
    rw [h]
    exact Nat.le_refl _
  | succ failures =>
    obtain ⟨first,last,hbegan,hlast,hlasted⟩ := h
    obtain ⟨previous,hprevious,hwaited⟩ :=
      retrySpan_of_startsAttempt henabled hstart hpaced (Nat.le_add_left 1 failures)
    have hsame : last=previous := Option.some.inj (hlast.symm.trans hprevious)
    subst hsame
    rw [hbegan,Option.getD_some,leastOutage]
    calc first+(leastOutage failures+retrySpan (failures+1))
        =first+leastOutage failures+retrySpan (failures+1) := (Nat.add_assoc _ _ _).symm
      _ ≤ last+retrySpan (failures+1) := Nat.add_le_add_right hlasted _
      _ ≤ state.clock := hwaited

/-- A step that neither starts nor ends an attempt leaves the outage as it is. -/
theorem Spaced.quiet (h : Spaced failures began state.manager) (henabled : Enabled state action)
    (hquiet : ¬StartsAttempt state action) (hfailed : action≠.connectFailed)
    (hsucceeded : ∀ order,action≠.connectSucceeded order) :
    Spaced failures began (next state action).manager := by
  have hlastAttempt := lastAttempt_next henabled
  rw [if_neg hquiet] at hlastAttempt
  by_cases hphase : state.manager.phase=.attempting
  · rcases attempting_next henabled hphase with hends|⟨order,hends⟩|hsame
    · exact absurd hends hfailed
    · exact absurd hends (hsucceeded order)
    · rw [hsame]
      exact h
  · have hafter : (next state action).manager.phase≠.attempting := fun hends => hquiet ⟨hphase,hends⟩
    rw [Spaced,if_neg hphase] at h
    rw [Spaced,if_neg hafter]
    cases failures with
    | zero => exact h
    | succ failures =>
      obtain ⟨first,last,hbegan,hlast,hlasted⟩ := h
      exact ⟨first,last,hbegan,hlastAttempt.trans hlast,hlasted⟩

/-- A failure ends the attempt that the outage has lasted to. -/
theorem Spaced.connectFailed (h : Spaced failures began state.manager)
    (henabled : Enabled state .connectFailed) :
    Spaced (failures+1) began (next state .connectFailed).manager := by
  have hphase : state.manager.phase=.attempting := henabled
  rw [Spaced,if_pos hphase] at h
  obtain ⟨first,last,hbegan,hlast,hlasted⟩ := h
  have hkept : (next state .connectFailed).manager.lastAttempt=some last := by
    rw [lastAttempt_next henabled,if_neg fun hstart => hstart.1 hphase]
    exact hlast
  have hafter : (next state .connectFailed).manager.phase≠.attempting := by
    rw [next_connectFailed]
    rcases state.manager.connectFailed_cases state.clock with ⟨_,_,hsleep⟩|hpanic
    · rw [hsleep]
      exact ManagerPhase.noConfusion
    · rw [hpanic]
      exact ManagerPhase.noConfusion
  rw [Spaced,if_neg hafter]
  exact ⟨first,last,hbegan,hkept,hlasted⟩

/-- An attempt that starts goes on with the outage or begins one. -/
theorem outageAfter_of_startsAttempt (henabled : Enabled state action)
    (hstart : StartsAttempt state action) (failures : ℕ) (began : Option Instant) :
    failuresAfter failures action=failures ∧
      outageAfter began (state,action)=some (began.getD state.clock) := by
  have hcan : canStart action=true := by
    by_contra hcannot
    exact not_startsAttempt henabled (Bool.eq_false_iff.mpr hcannot) hstart
  cases action with
  | enterLoop => exact ⟨rfl,if_pos hstart⟩
  | wake => exact ⟨rfl,if_pos hstart⟩
  | _ => cases hcan

/-- Every step keeps what is known of the outage. -/
theorem spaced_next (henabled : Enabled state action)
    (hpaced : Paced failures state.manager state.clock) (h : Spaced failures began state.manager) :
    Spaced (failuresAfter failures action) (outageAfter began (state,action))
      (next state action).manager := by
  by_cases hstart : StartsAttempt state action
  · have hlasted := lasted_of_startsAttempt henabled hstart hpaced h
    have hlast := lastAttempt_next henabled
    rw [if_pos hstart] at hlast
    obtain ⟨hfailures,hbegan⟩ := outageAfter_of_startsAttempt henabled hstart failures began
    rw [hfailures,hbegan,Spaced,if_pos hstart.2]
    exact ⟨_,_,rfl,hlast,hlasted⟩
  · cases action with
    | connectFailed =>
      have hsame : outageAfter began (state,.connectFailed)=began := if_neg hstart
      rw [hsame]
      exact h.connectFailed henabled
    | connectSucceeded order =>
      have hafter : (next state (.connectSucceeded order)).manager.phase≠.attempting :=
        ManagerPhase.noConfusion
      rw [Spaced,if_neg hafter]
      rfl
    | _ =>
      have hsame : ∀ {other : Action H},¬StartsAttempt state other →
          (if StartsAttempt state other then some (began.getD state.clock) else began)=began :=
        fun hquiet => if_neg hquiet
      simp only [outageAfter,failuresAfter]
      rw [hsame hstart]
      exact h.quiet henabled hstart (fun h => by cases h) (fun _ h => by cases h)

end Steps

/-- In every run, the outage is as long as its failures make it. -/
theorem spaced_of_run {start : State H} {actions : List (Action H)}
    (hinit : (connectionManager H).initial start)
    (hrun : (connectionManager H).Legal start actions) :
    Spaced (failedAttempts actions) (outageBegan start actions)
      ((connectionManager H).final start actions).manager := by
  refine System.Legal.run_induction (P := fun actions => Spaced (failedAttempts actions)
    (outageBegan start actions) ((connectionManager H).final start actions).manager) ?_ ?_ hrun
  · obtain ⟨clock,rfl⟩ := initial_iff.mp hinit
    rfl
  · intro history action hpast h henabled
    have hpaced := (paced_of_run hinit hpast).2
    rw [failedAttempts_snoc,outageBegan_snoc,final_append]
    exact spaced_next henabled hpaced h

section Attained

variable {state : State H} {failures : ℕ}

/-- An attempt starts now, after so many failures in a row. -/
structure AtAttempt (state : State H) (failures : ℕ) : Prop where
  /-- The attempt. -/
  phase : state.manager.phase=.attempting
  /-- No connection is held. -/
  client : state.manager.client=none
  /-- The failures before it. -/
  counter : state.manager.consecutiveFailures.toNat=failures
  /-- Its start. -/
  now : state.manager.lastAttempt=some state.clock

/-- The rest of the circuit breaker's wait once the backoff is over. -/
def breakerRest (failures : ℕ) : List (Action H) :=
  if backoffSpan failures < breakerSpan failures then
    [.tick (breakerSpan failures-backoffSpan failures),.wake]
  else []

/-- An attempt fails at once, and no sleep is longer than it must be. -/
def promptRound (failures : ℕ) : List (Action H) :=
  [.connectFailed,.tick (backoffSpan (failures+1)),.wake]++
    .enterLoop::breakerRest (failures+1)

/-- The first attempts of a new manager, with so many failures. -/
def promptRounds : ℕ → List (Action H)
  | 0 => [.enterLoop]
  | failures+1 => promptRounds failures++promptRound failures

/-- The circuit breaker waits for what the backoff left of its distance. -/
theorem circuitWait_afterBackoff {manager : Manager} {last : Instant} {slept : Duration}
    (hcounter : manager.consecutiveFailures.toNat=failures) (hlast : manager.lastAttempt=some last) :
    manager.circuitWait (last+slept)=
      if slept < breakerSpan failures then some (breakerSpan failures-slept) else none := by
  have helapsed : last+slept-last=slept := Nat.add_sub_cancel_left last slept
  unfold Manager.circuitWait breakerSpan
  rw [hcounter,hlast]
  by_cases hopen : 5 < failures
  · rw [if_pos hopen,if_pos hopen]
    dsimp only
    rw [helapsed,Nat.mul_comm failures 10]
  · rw [if_neg hopen,if_neg hopen,if_neg (Nat.not_lt_zero slept)]

/-- The top of the loop, once the backoff is over. -/
theorem breakerRest_final (hphase : state.manager.phase=.loopHead)
    (hclient : state.manager.client=none)
    (hcounter : state.manager.consecutiveFailures.toNat=failures) {last : Instant}
    (hlast : state.manager.lastAttempt=some last) (hclock : state.clock=last+backoffSpan failures) :
    (connectionManager H).Legal state (.enterLoop::breakerRest failures) ∧
      AtAttempt ((connectionManager H).final state (.enterLoop::breakerRest failures)) failures ∧
      ((connectionManager H).final state (.enterLoop::breakerRest failures)).clock=
        last+retrySpan failures := by
  have hwait := @circuitWait_afterBackoff failures state.manager last (backoffSpan failures)
    hcounter hlast
  rw [←hclock] at hwait
  have hdue : (state.manager.needsUpdate || state.manager.client.isNone)=true := by
    rw [hclient,Option.isNone_none,Bool.or_true]
  rcases state.manager.enterLoop_cases state.clock with
    ⟨_,remaining,hsleep,hnext⟩|⟨_,hpassed,hnext⟩|⟨hcalm,_⟩
  · have hlonger : backoffSpan failures < breakerSpan failures := by
      by_contra hshorter
      rw [hwait,if_neg hshorter] at hsleep
      cases hsleep
    rw [hwait,if_pos hlonger] at hsleep
    obtain rfl := Option.some.inj hsleep
    have hentered : next state .enterLoop=
        { state with manager := { state.manager with
            phase := .circuitOpen (state.clock+(breakerSpan failures-backoffSpan failures)) } } :=
      congrArg (fun manager => { state with manager := manager }) hnext
    have hspan : state.clock+(breakerSpan failures-backoffSpan failures)=
        last+retrySpan failures := by
      rw [hclock,retrySpan,Nat.max_eq_right (Nat.le_of_lt hlonger),Nat.add_assoc,
        Nat.add_sub_cancel' (Nat.le_of_lt hlonger)]
    have hrest : breakerRest (H:=H) failures=
        [.tick (breakerSpan failures-backoffSpan failures),.wake] := if_pos hlonger
    rw [hrest]
    refine ⟨⟨hphase,trivial,?_,trivial⟩,?_⟩
    · change Enabled (next (next state .enterLoop) (.tick _)) .wake
      rw [hentered]
      exact Nat.le_refl _
    · rw [final_cons]
      change AtAttempt ((connectionManager H).final (next state .enterLoop) _) failures ∧
        ((connectionManager H).final (next state .enterLoop) _).clock=last+retrySpan failures
      rw [hentered]
      exact ⟨⟨rfl,hclient,hcounter,rfl⟩,hspan⟩
  · have hshorter : ¬backoffSpan failures < breakerSpan failures := by
      intro hlonger
      rw [hwait,if_pos hlonger] at hpassed
      cases hpassed
    have hentered : next state .enterLoop=
        { state with manager := state.manager.startAttempt state.clock } :=
      congrArg (fun manager => { state with manager := manager }) hnext
    have hspan : state.clock=last+retrySpan failures := by
      rw [hclock,retrySpan,Nat.max_eq_left (Nat.le_of_not_lt hshorter)]
    have hrest : breakerRest (H:=H) failures=[] := if_neg hshorter
    rw [hrest]
    refine ⟨⟨hphase,trivial⟩,?_⟩
    change AtAttempt (next state .enterLoop) failures ∧
      (next state .enterLoop).clock=last+retrySpan failures
    rw [hentered]
    exact ⟨⟨rfl,hclient,hcounter,rfl⟩,hspan⟩
  · rw [hdue] at hcalm
    cases hcalm

/-- A prompt round leads from an attempt to the next one in the least time. -/
theorem promptRound_final (h : AtAttempt state failures) (hlow : failures < 64) :
    (connectionManager H).Legal state (promptRound failures) ∧
      AtAttempt ((connectionManager H).final state (promptRound failures)) (failures+1) ∧
      ((connectionManager H).final state (promptRound failures)).clock=
        state.clock+retrySpan (failures+1) := by
  have hcounter : state.manager.consecutiveFailures.toNat < 64 := by
    rw [h.counter]
    exact hlow
  have hadd := toNat_add_one (Nat.le_of_lt hcounter)
  rw [h.counter] at hadd
  have hfailed : next state .connectFailed=
      { state with
        manager := { state.manager with
          consecutiveFailures := state.manager.consecutiveFailures+1
          phase := .backingOff (state.clock+backoffSpan (failures+1)) } } := by
    rw [next_connectFailed,connectFailed_of_lt hcounter,h.counter,backoffSpan,Nat.add_sub_cancel]
  have hslept : (connectionManager H).Legal state
        [.connectFailed,.tick (backoffSpan (failures+1)),.wake] ∧
      (connectionManager H).final state [.connectFailed,.tick (backoffSpan (failures+1)),.wake]=
        { state with
          clock := state.clock+backoffSpan (failures+1)
          manager := { state.manager with
            consecutiveFailures := state.manager.consecutiveFailures+1
            phase := .loopHead } } := by
    change (Enabled state .connectFailed ∧ (connectionManager H).Legal (next state .connectFailed)
      [.tick (backoffSpan (failures+1)),.wake]) ∧
      (connectionManager H).final (next state .connectFailed)
        [.tick (backoffSpan (failures+1)),.wake]=_
    rw [hfailed]
    exact ⟨⟨h.phase,trivial,Nat.le_refl _,trivial⟩,rfl⟩
  rw [promptRound,legal_append,final_append,hslept.2]
  obtain ⟨hlegal,hattempt,hclock⟩ := @breakerRest_final H
    { state with
      clock := state.clock+backoffSpan (failures+1)
      manager := { state.manager with
        consecutiveFailures := state.manager.consecutiveFailures+1
        phase := .loopHead } } (failures+1) rfl h.client hadd state.clock h.now rfl
  exact ⟨⟨hslept.1,hlegal⟩,hattempt,hclock⟩

/-- After 64 failures, the next one ends the task. -/
theorem AtAttempt.panics (h : AtAttempt state failures) (hfull : failures=64) :
    (connectionManager H).Legal state [.connectFailed] ∧
      ((connectionManager H).final state [.connectFailed]).manager.phase=.exited ∧
      ((connectionManager H).final state [.connectFailed]).clock=state.clock := by
  refine ⟨⟨h.phase,trivial⟩,?_⟩
  change (next state .connectFailed).manager.phase=.exited ∧
    (next state .connectFailed).clock=state.clock
  rw [next_connectFailed,connectFailed_at_64 (h.counter.trans hfull)]
  exact ⟨rfl,rfl⟩

/-- Prompt rounds contain no success, and one failure each. -/
theorem failedAttempts_promptRounds (failures : ℕ) :
    failedAttempts (promptRounds (H:=H) failures)=failures := by
  induction failures with
  | zero => rfl
  | succ failures ih =>
    rw [promptRounds,failedAttempts,List.foldl_append]
    change (promptRound failures).foldl failuresAfter (failedAttempts (promptRounds failures))=_
    rw [ih,promptRound,List.foldl_append]
    unfold breakerRest
    split <;> rfl

/-- Without a success, an outage goes on. -/
theorem outageBegan_append {start : State H} {history later : List (Action H)} {first : Instant}
    (h : outageBegan start history=some first)
    (hfailing : ∀ order,.connectSucceeded order∉later) :
    outageBegan start (history++later)=some first := by
  induction later generalizing history with
  | nil =>
    rw [List.append_nil]
    exact h
  | cons action later ih =>
    have hstill : outageBegan start (history++[action])=some first := by
      rw [outageBegan_snoc,h]
      cases action with
      | connectSucceeded order => exact absurd List.mem_cons_self (hfailing order)
      | _ => exact ite_self _
    have hlater := ih hstill fun order hmem => hfailing order (List.mem_cons_of_mem _ hmem)
    rw [List.append_assoc] at hlater
    exact hlater

/-- Prompt rounds take a new manager to an attempt after so many failures, in the
least time. -/
theorem promptRounds_final (clock : Instant) (hbound : failures ≤ 64) :
    (connectionManager H).Legal (.start clock) (promptRounds failures) ∧
      AtAttempt ((connectionManager H).final (.start clock) (promptRounds failures)) failures ∧
      ((connectionManager H).final (.start clock) (promptRounds failures)).clock=
        clock+leastOutage failures ∧
      outageBegan (State.start (H:=H) clock) (promptRounds failures)=some clock := by
  induction failures with
  | zero => exact ⟨⟨rfl,trivial⟩,⟨rfl,rfl,rfl,rfl⟩,rfl,rfl⟩
  | succ failures ih =>
    obtain ⟨hlegal,hattempt,hclock,hbegan⟩ := ih (by omega)
    obtain ⟨hround,hnext,hlater⟩ := promptRound_final hattempt (by omega)
    rw [promptRounds,legal_append,final_append]
    refine ⟨⟨hlegal,hround⟩,hnext,?_,outageBegan_append hbegan ?_⟩
    · rw [hlater,hclock,leastOutage,Nat.add_assoc]
    · intro order
      rw [promptRound,breakerRest]
      split <;> simp only [List.cons_append,List.nil_append,List.mem_cons,reduceCtorEq,
        List.not_mem_nil,or_self,not_false_eq_true]

end Attained

/-- The waits of the failures that the task survives add up to more than five and a
half hours. -/
theorem leastOutage_64 : leastOutage 64=fromSecs 20681 := by decide +kernel

/-- Prompt rounds end the task at that time. Stated for a variable, because a defeq
check would run the rounds. -/
theorem promptRounds_panics (clock : Instant) {failures : ℕ} (hfull : failures=64) :
    (connectionManager H).Legal (.start clock) (promptRounds failures++[.connectFailed]) ∧
    ((connectionManager H).final (.start clock)
      (promptRounds failures++[.connectFailed])).manager.phase=.exited ∧
    ((connectionManager H).final (.start clock) (promptRounds failures++[.connectFailed])).clock=
      clock+fromSecs 20681 := by
  obtain ⟨hlegal,hattempt,hclock,_⟩ := @promptRounds_final H failures clock (Nat.le_of_eq hfull)
  obtain ⟨hlast,hexited,hnow⟩ := hattempt.panics hfull
  have hspan : leastOutage failures=fromSecs 20681 := by
    rw [hfull]
    exact leastOutage_64
  rw [hspan] at hclock
  rw [legal_append,final_append]
  exact ⟨⟨hlegal,hlast⟩,hexited,hnow.trans hclock⟩

/-- The failure that ends the task is the 65th. -/
theorem failures_of_exit {state : State H} (hreach : (connectionManager H).Reachable state)
    (henabled : Enabled state .connectFailed) {failures : ℕ}
    (hpaced : Paced failures state.manager state.clock) :
    (next state .connectFailed).manager.phase=.exited ↔ failures=64 := by
  have hphase : state.manager.phase=.attempting := henabled
  have hbound := counter_le_of_reachable hreach (by rw [hphase]; exact ManagerPhase.noConfusion)
  simp only [Paced,hphase] at hpaced
  rw [next_connectFailed]
  rcases Nat.lt_or_eq_of_le hbound with hlow|hfull
  · rw [connectFailed_of_lt hlow]
    have hless : failures≠64 := by
      rw [←hpaced.1]
      exact Nat.ne_of_lt hlow
    exact ⟨fun hexited => absurd hexited ManagerPhase.noConfusion,fun hsame => absurd hsame hless⟩
  · rw [connectFailed_at_64 hfull]
    exact ⟨fun _ => hpaced.1.symm.trans hfull,fun _ => rfl⟩

/-- How long an outage may last. -/
structure OutageTolerance (H : Type) : Prop where
  /-- No attempt of an outage starts sooner after its beginning. -/
  spaced : ∀ (start : State H) actions action,(connectionManager H).initial start →
    (connectionManager H).Legal start (actions++[action]) →
    StartsAttempt ((connectionManager H).final start actions) action →
    ∃ first,outageBegan start (actions++[action])=some first ∧
      first+leastOutage (failedAttempts actions) ≤ ((connectionManager H).final start actions).clock
  /-- Attempts that fail at once start no later. -/
  attained : ∀ clock failures,failures ≤ 64 →
    (connectionManager H).Legal (.start clock) (promptRounds failures) ∧
    failedAttempts (promptRounds (H:=H) failures)=failures ∧
    outageBegan (State.start (H:=H) clock) (promptRounds failures)=some clock ∧
    ((connectionManager H).final (.start clock) (promptRounds failures)).clock=
      clock+leastOutage failures
  /-- A failure ends the task when 64 went before it, 20681 seconds after the
  beginning of the outage or later. -/
  endured : ∀ (start : State H) actions,(connectionManager H).initial start →
    (connectionManager H).Legal start (actions++[.connectFailed]) →
    ((connectionManager H).final start (actions++[.connectFailed])).manager.phase=.exited →
    failedAttempts actions=64 ∧ ∃ first,outageBegan start actions=some first ∧
      first+fromSecs 20681 ≤ ((connectionManager H).final start actions).clock
  /-- That is soon enough. -/
  fatal : ∀ clock,
    (connectionManager H).Legal (.start clock) (promptRounds 64++[.connectFailed]) ∧
    ((connectionManager H).final (.start clock)
      (promptRounds 64++[.connectFailed])).manager.phase=.exited ∧
    ((connectionManager H).final (.start clock) (promptRounds 64++[.connectFailed])).clock=
      clock+fromSecs 20681

/-- In every run, the attempts of an outage are spread over at least the sum of
their waits, and the manager outlives every outage of less than 20681 seconds; both
bounds are exact. -/
theorem outage_tolerance (H : Type) : OutageTolerance H := by
  constructor
  · intro start actions action hinit hrun hstart
    obtain ⟨hpast,hlast⟩ := legal_append.mp hrun
    have hpaced := (paced_of_run hinit hpast).2
    have hlasted := lasted_of_startsAttempt hlast.1 hstart hpaced (spaced_of_run hinit hpast)
    have hbegan := (outageAfter_of_startsAttempt hlast.1 hstart 0 (outageBegan start actions)).2
    rw [←outageBegan_snoc] at hbegan
    exact ⟨_,hbegan,hlasted⟩
  · intro clock failures hbound
    obtain ⟨hlegal,_,hclock,hbegan⟩ := @promptRounds_final H failures clock hbound
    exact ⟨hlegal,failedAttempts_promptRounds failures,hbegan,hclock⟩
  · intro start actions hinit hrun hexited
    obtain ⟨hpast,hlast⟩ := legal_append.mp hrun
    have hphase : ((connectionManager H).final start actions).manager.phase=.attempting := hlast.1
    have hpaced := (paced_of_run hinit hpast).2
    have hspaced := spaced_of_run hinit hpast
    rw [final_append] at hexited
    have hfull := (failures_of_exit ((System.Reachable.start hinit).run hpast) hlast.1 hpaced).mp
      hexited
    rw [Spaced,if_pos hphase,hfull] at hspaced
    simp only [Paced,hphase] at hpaced
    obtain ⟨first,last,hbegan,hlastAttempt,hlasted⟩ := hspaced
    obtain ⟨_,other,hother,hbefore⟩ := hpaced
    have hsame : last=other := Option.some.inj (hlastAttempt.symm.trans hother)
    subst hsame
    rw [leastOutage_64] at hlasted
    exact ⟨hfull,first,hbegan,hlasted.trans hbefore⟩
  · exact fun clock => promptRounds_panics clock rfl

end SteamHandler.Outages
