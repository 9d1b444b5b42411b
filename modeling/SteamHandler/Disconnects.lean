import SteamHandler.Sessions

/-!
# Lost and foreign disconnects

A processor that has returned leaves its `ConnectionClosed` event behind until
the manager has reacted to it, so a dead connection is always noticed. The
converse fails: an error item makes the processor send two terminal events,
and the second, or the only one of a connection already given up after a
failed send, is taken for the end of whatever connection the manager holds by
then.
-/

namespace SteamHandler.Disconnects

open Subscriptions SubscriptionRegistry ConnectionManager Sessions TransitionSystem
open Supervision (Notice supervision OnLastNotice)

variable {H : Type}

/-- A queued notice is a queued terminal event of the same processor. -/
theorem exists_event_of_notice {state : State H} {notice : Notice}
    (h : notice∈(view state).notices) :
    ∃ sent∈state.events,sent.sender=notice.sender ∧
      (notice.last=true → sent.event=.connectionClosed) := by
  obtain ⟨sent,hsent,hnotice⟩ := List.mem_filterMap.mp h
  refine ⟨sent,hsent,?_⟩
  cases hevent : sent.event with
  | connectionClosed =>
    simp only [noticeOf,hevent,Option.some.injEq] at hnotice
    rw [←hnotice]
    exact ⟨rfl,fun _ => rfl⟩
  | connectionError error =>
    simp only [noticeOf,hevent,Option.some.injEq] at hnotice
    rw [←hnotice]
    exact ⟨rfl,fun hlast => Bool.noConfusion hlast⟩
  | pingReceived =>
    simp only [noticeOf,hevent,reduceCtorEq] at hnotice

/-- A held connection is the current session of the view. -/
theorem current_of_holds {state : State H} (hreach : (connectionManager H).Reachable state)
    {generation : Generation} (h : Holds state generation) :
    (view state).running=true ∧ (view state).current=some generation := by
  refine ⟨decide_eq_true h.1,?_⟩
  have hplain : ∀ other,state.manager.phase≠.established other := by
    intro other hphase
    have hview := ServerView.viewInvariant_reachable hreach
    simp only [ServerView.ViewInvariant,hphase] at hview
    exact absurd (hview.1.symm.trans h.2) (Option.some_ne_none generation).symm
  exact (currentOf_eq_client hplain).trans h.2

/-- The last notice of a held connection's processor waits in the queue. -/
theorem notice_of_terminated {state : State H} (hreach : (connectionManager H).Reachable state)
    {generation : Generation} (hholds : Holds state generation)
    (hdone : state.processors generation=.terminated) : ⟨generation,true⟩∈(view state).notices := by
  have hview : supervision.Reachable (view state) := (sessions H).reachable hreach
  have hcurrent := current_of_holds hreach hholds
  have hgone : (view state).workers generation=.leaving 0 := congrArg workerOf hdone
  exact Supervision.last_notice_pending hview hcurrent.1 hcurrent.2 hgone

/-- In every reachable state, if the manager holds the connection of a
generation whose processor has returned, a `ConnectionClosed` event sent by
that processor is still queued. -/
theorem disconnect_not_lost {state : State H} (hreach : (connectionManager H).Reachable state)
    {generation : Generation} (hholds : Holds state generation)
    (hdone : state.processors generation=.terminated) :
    ⟨.connectionClosed,generation⟩∈state.events := by
  have hpending := notice_of_terminated hreach hholds hdone
  obtain ⟨sent,hsent,hsender,hclosed⟩ := exists_event_of_notice hpending
  have hsame : sent=⟨.connectionClosed,generation⟩ := by
    cases sent with
    | mk event sender =>
      cases hsender
      cases hclosed rfl
      rfl
  rw [←hsame]
  exact hsent

/-- The second connection's stream ends while an event of the first is queued. -/
def closedRun : List (Action Unit) :=
  [.enterLoop,.connectSucceeded [],.recordConnection,.endOfStream 0,.sendEvent 0,
    .receiveEvent true,.enterLoop,.connectSucceeded [],.recordConnection,
    .receiveItem 1 (.error "reset"),.sendEvent 1,.sendEvent 1]

theorem disconnect_not_lost_closedRun :
    ⟨.connectionClosed,1⟩∈((connectionManager Unit).final (State.start 0) closedRun).events :=
  disconnect_not_lost ⟨State.start 0,closedRun,initial_iff.mpr ⟨0,rfl⟩,by decide,rfl⟩
    ⟨by decide,by decide⟩ (by decide)

/-- The manager sets `client` to none while it holds the connection. -/
def Discards (state : State H) (action : Action H) (generation : Generation) : Prop :=
  state.manager.client=some generation ∧ (next state action).manager.client=none

/-- The step handles a terminal event sent by the connection's own processor,
or a send on the connection's own channel fails in it. -/
def OwnTeardown (state : State H) (action : Action H) (generation : Generation) : Prop :=
  match action with
  | .receiveEvent accepted => ∃ sent rest,state.events=sent::rest ∧
      ((sent.event.isTerminal=true ∧ sent.sender=generation) ∨
        (sent.event=.pingReceived ∧ accepted=false ∧ state.manager.subscribeTx=some generation))
  | .sendUpdate _ accepted => accepted=false ∧ state.manager.subscribeTx=some generation
  | _ => False

/-- Guard: the manager handles no `ConnectionError` event, and no send on a
subscribe channel fails. -/
def NoStreamFailure (state : State H) : Action H → Prop
  | .receiveEvent accepted => ∀ sent rest,state.events=sent::rest →
      (∀ error,sent.event≠.connectionError error) ∧ (sent.event=.pingReceived → accepted=true)
  | .sendUpdate _ accepted => accepted=true
  | _ => True

/-- Without stream failures every connection is given up on a last notice. -/
theorem onLastNotice_of_noStreamFailure {state : State H} {action : Action H}
    {performed : Supervision.Action} (hguard : NoStreamFailure state action)
    (h : performs state action=some performed) : OnLastNotice (view state) performed := by
  cases performed with
  | consume =>
    obtain ⟨accepted,sent,rest,rfl,hevents,hterminal⟩ := performs_consume h
    obtain ⟨hcalm,_⟩ := hguard sent rest hevents
    intro notice later hnotices
    cases hevent : sent.event with
    | connectionClosed =>
      have hhead : (view state).notices=⟨sent.sender,true⟩::rest.filterMap noticeOf := by
        simp only [view,hevents,List.filterMap_cons,noticeOf,hevent]
      have hsame : ⟨sent.sender,true⟩=notice := (List.cons.inj (hhead.symm.trans hnotices)).1
      rw [←hsame]
    | connectionError error => exact absurd hevent (hcalm error)
    | pingReceived =>
      rw [hevent] at hterminal
      cases hterminal
  | drop =>
    rcases performs_drop h with ⟨order,rfl⟩|⟨accepted,sent,rest,rfl,hevents,hevent,hrefused⟩
    · cases hguard
    · rw [(hguard sent rest hevents).2 hevent,Bool.not_true,Bool.and_false] at hrefused
      cases hrefused
  | _ => trivial

/-- Every discard is the handling of an event or a refused update. -/
theorem discards_cases {state : State H} {action : Action H} (henabled : Enabled state action)
    {generation : Generation} (h : Discards state action generation) :
    (∃ order,action=.sendUpdate order false ∧ state.manager.phase=.updating) ∨
    ∃ accepted sent rest,action=.receiveEvent accepted ∧ state.manager.phase=.selecting ∧
      state.events=sent::rest ∧
      (sent.event=.pingReceived → accepted=false) := by
  obtain ⟨hclient,hnone⟩ := h
  have hkept : ∀ manager : Manager,manager.client=state.manager.client → manager.client≠none := by
    intro manager hsame
    rw [hsame,hclient]
    exact Option.some_ne_none generation
  cases action with
  | enterLoop =>
    refine absurd hnone (hkept (state.manager.enterLoop state.clock) ?_)
    rcases state.manager.enterLoop_cases state.clock with ⟨_,_,_,hnext⟩|⟨_,_,hnext⟩|⟨_,hnext⟩
    · rw [hnext]
    · rw [hnext]
      rfl
    · rw [hnext]
  | wake =>
    refine absurd hnone (hkept (state.manager.wake state.clock) ?_)
    unfold Manager.wake
    split <;> rfl
  | connectFailed =>
    refine absurd hnone (hkept (state.manager.connectFailed state.clock) ?_)
    rcases state.manager.connectFailed_cases state.clock with ⟨failures,sleep,hsleep⟩|hpanic
    · rw [hsleep]
    · rw [hpanic]
  | recordConnection =>
    obtain ⟨_,_,hnext⟩ := next_recordConnection henabled
    rw [hnext] at hnone
    cases hnone
  | receiveCommand =>
    obtain ⟨command,_,_,hnext⟩ := next_receiveCommand henabled
    rw [hnext] at hnone
    refine absurd hnone (hkept _ ?_)
    cases command <;> rfl
  | sendUpdate order accepted =>
    cases accepted with
    | false => exact Or.inl ⟨order,rfl,henabled.1⟩
    | true => exact absurd hnone (hkept (state.manager.afterUpdate true) rfl)
  | receiveEvent accepted =>
    obtain ⟨sent,rest,hevents,hnext⟩ := next_receiveEvent henabled
    refine Or.inr ⟨accepted,sent,rest,rfl,henabled.1,hevents,?_⟩
    intro hping
    rw [hnext,hping] at hnone
    cases accepted with
    | false => rfl
    | true =>
      refine absurd hnone (hkept (state.manager.afterEvent .pingReceived true) ?_)
      rw [Manager.afterEvent,Bool.not_true,Bool.and_false]
      rfl
  | sendEvent sender =>
    obtain ⟨_,_,hnext⟩ := next_sendEvent henabled
    rw [hnext] at hnone
    exact absurd hnone (hkept state.manager rfl)
  | _ => exact absurd hnone (hkept _ rfl)

/-- In every run in which no `ConnectionError` event is handled and no send on
a subscribe channel fails, the manager discards a connection only on a terminal
event sent by the processor of that connection, or on a failed send on its
channel. The discarding step itself is not bound by the guard. -/
theorem teardown_own {state : State H}
    (hreach : ((connectionManager H).restrict NoStreamFailure).Reachable state)
    {action : Action H} (henabled : (connectionManager H).enabled state action)
    {generation : Generation} (hdiscards : Discards state action generation) :
    OwnTeardown state action generation := by
  have hlegal := hreach.of_restrict
  rcases discards_cases henabled hdiscards with
    ⟨order,rfl,hphase⟩|⟨accepted,sent,rest,rfl,hphase,hevents,hping⟩
  · obtain ⟨held,hclient,hchannel,_⟩ := holds_of_updating hlegal hphase
    have hsame : held=generation := Option.some.inj (hclient.symm.trans hdiscards.1)
    rw [hsame] at hchannel
    exact ⟨rfl,hchannel⟩
  · obtain ⟨held,hclient,hchannel,hcurrent⟩ := holds_of_selecting hlegal hphase
    have hsame : held=generation := Option.some.inj (hclient.symm.trans hdiscards.1)
    rw [hsame] at hchannel hcurrent
    refine ⟨sent,rest,hevents,?_⟩
    have hterminal : ∀ notice,noticeOf sent=some notice → notice.sender=generation := by
      intro notice hnotice
      have hview : (supervision.restrict OnLastNotice).Reachable (view state) :=
        (sessions H).reachable_restrict
          (fun _ _ _ _ _ hguard hperforms => onLastNotice_of_noStreamFailure hguard hperforms)
          hreach
      have hrunning : (view state).running=true := decide_eq_true (running_of_selecting hphase)
      have hmem : notice∈(view state).notices := by
        rw [view,hevents]
        exact List.mem_filterMap.mpr ⟨sent,List.mem_cons_self,hnotice⟩
      have hown := Supervision.current_of_notice hview hrunning hmem
      exact Option.some.inj (hown.symm.trans hcurrent)
    cases hevent : sent.event with
    | connectionClosed =>
      refine Or.inl ⟨rfl,hterminal ⟨sent.sender,true⟩ ?_⟩
      simp only [noticeOf,hevent]
    | connectionError error =>
      refine Or.inl ⟨rfl,hterminal ⟨sent.sender,false⟩ ?_⟩
      simp only [noticeOf,hevent]
    | pingReceived => exact Or.inr ⟨rfl,hping hevent,hchannel⟩

/-- A stream ends by itself and its `ConnectionClosed` event waits. -/
def endedRun : List (Action Unit) :=
  [.enterLoop,.connectSucceeded [],.recordConnection,.endOfStream 0,.sendEvent 0]

/-- Every step of that run meets the guard. -/
theorem endedRun_legal :
    ((connectionManager Unit).restrict NoStreamFailure).Legal (State.start 0) endedRun :=
  ⟨⟨rfl,trivial⟩,⟨⟨rfl,rfl⟩,trivial⟩,⟨trivial,trivial⟩,⟨rfl,trivial⟩,⟨by decide,trivial⟩,trivial⟩

theorem teardown_own_endedRun :
    OwnTeardown
      (((connectionManager Unit).restrict NoStreamFailure).final (State.start 0) endedRun)
      (.receiveEvent true) 0 :=
  teardown_own ⟨State.start 0,endedRun,initial_iff.mpr ⟨0,rfl⟩,endedRun_legal,rfl⟩ (by decide)
    ⟨by decide,by decide⟩

/-- One stream failure, then a healthy connection. -/
def failedRun : List (Action Unit) :=
  [.enterLoop,.connectSucceeded [],.recordConnection,.receiveItem 0 (.error "reset"),.sendEvent 0,
    .sendEvent 0,.receiveEvent true,.enterLoop,.connectSucceeded [],.recordConnection]

/-- The second event of the failed stream drops the connection made after it. -/
theorem failure_drops_next_connection :
    ¬∀ state : State Unit,(connectionManager Unit).Reachable state →
      ∀ action generation,(connectionManager Unit).enabled state action →
        Discards state action generation → OwnTeardown state action generation := by
  intro hclaim
  have hreach : (connectionManager Unit).Reachable
      ((connectionManager Unit).final (State.start 0) failedRun) :=
    ⟨State.start 0,failedRun,initial_iff.mpr ⟨0,rfl⟩,by decide,rfl⟩
  obtain ⟨sent,rest,hevents,hown⟩ :=
    hclaim _ hreach (.receiveEvent true) 1 (by decide) ⟨by decide,by decide⟩
  have hqueue : ((connectionManager Unit).final (State.start 0) failedRun).events=
      [⟨.connectionClosed,0⟩] := by decide
  have hsent : ⟨.connectionClosed,0⟩=sent := (List.cons.inj (hqueue.symm.trans hevents)).1
  rw [←hsent] at hown
  rcases hown with ⟨_,hsender⟩|⟨hping,_⟩
  · cases hsender
  · cases hping

end SteamHandler.Disconnects
