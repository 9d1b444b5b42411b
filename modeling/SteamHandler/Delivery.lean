import SteamHandler.Disconnects

/-!
# Which processors deliver

Processors are never told that their connection was given up or that the
manager loop has ended. One that is still in its read loop goes on dispatching
to the shared registry, next to the processor of the new connection or after
the shutdown. Delivery is confined to the current connection exactly as far as
processors have left their loops before the manager lets go of them.
-/

namespace SteamHandler.Delivery

open Messages Subscriptions SubscriptionRegistry Dispatch ConnectionManager Sessions Disconnects
open TransitionSystem
open Supervision (supervision AfterServing)

variable {H : Type}

/-- The processor may still take items off its stream. -/
def InReadLoop : ProcessorPhase → Prop
  | .reading => True
  | .dispatching _ => True
  | .sending event => event=.pingReceived
  | _ => False

/-- The manager lets go of the connection: it discards it, or leaves its loop
while holding it. -/
def LetsGo (state : State H) (action : Action H) (generation : Generation) : Prop :=
  Discards state action generation ∨
    (Holds state generation ∧ (next state action).manager.phase=.exited)

/-- Guard: the manager lets go only of connections whose processor has left
its read loop. -/
def ReaderDone (state : State H) (action : Action H) : Prop :=
  ∀ generation,LetsGo state action generation → ¬InReadLoop (state.processors generation)

/-- Workers serve while they are in their read loop. -/
theorem inReadLoop_iff {phase : ProcessorPhase} : InReadLoop phase ↔ workerOf phase=.serving := by
  cases phase with
  | sending event => cases event <;> simp only [InReadLoop,workerOf,reduceCtorEq]
  | _ => simp only [InReadLoop,workerOf,reduceCtorEq]

/-- Under the guard the supervisor lets go of idle workers only. -/
theorem afterServing_of_readerDone {state : State H} {action : Action H}
    {performed : Supervision.Action} (hreach : (connectionManager H).Reachable state)
    (henabled : Enabled state action) (hguard : ReaderDone state action)
    (h : performs state action=some performed) : AfterServing (view state) performed := by
  have hidle : ∀ generation,LetsGo state action generation →
      (view state).workers generation≠.serving :=
    fun generation hgo hserving => hguard generation hgo (inReadLoop_iff.mpr hserving)
  cases performed with
  | consume =>
    obtain ⟨accepted,sent,rest,rfl,hevents,hterminal⟩ := performs_consume h
    intro generation hgeneration
    obtain ⟨held,hclient,_,hcurrent⟩ := holds_of_selecting hreach henabled.1
    have hsame : held=generation := Option.some.inj (hcurrent.symm.trans hgeneration)
    rw [hsame] at hclient
    refine hidle generation (Or.inl ⟨hclient,?_⟩)
    simp only [next,hevents]
    cases hevent : sent.event with
    | connectionClosed => rfl
    | connectionError error => rfl
    | pingReceived =>
      rw [hevent] at hterminal
      cases hterminal
  | drop =>
    intro generation hgeneration
    rcases performs_drop h with ⟨order,rfl⟩|⟨accepted,sent,rest,rfl,hevents,hevent,hrefused⟩
    · obtain ⟨held,hclient,_,hcurrent⟩ := holds_of_updating hreach henabled.1
      have hsame : held=generation := Option.some.inj (hcurrent.symm.trans hgeneration)
      rw [hsame] at hclient
      exact hidle generation (Or.inl ⟨hclient,rfl⟩)
    · obtain ⟨held,hclient,_,hcurrent⟩ := holds_of_selecting hreach henabled.1
      have hsame : held=generation := Option.some.inj (hcurrent.symm.trans hgeneration)
      rw [hsame] at hclient
      refine hidle generation (Or.inl ⟨hclient,?_⟩)
      simp only [next,hevents,hevent,Manager.afterEvent,if_pos hrefused]
      rfl
  | stop =>
    intro generation hgeneration
    obtain ⟨hphase,hexit⟩ := performs_stop henabled h
    rcases hphase with hphase|hphase
    · obtain ⟨held,hclient,_,hcurrent⟩ := holds_of_selecting hreach hphase
      have hsame : held=generation := Option.some.inj (hcurrent.symm.trans hgeneration)
      rw [hsame] at hclient
      exact hidle generation (Or.inr ⟨⟨running_of_selecting hphase,hclient⟩,hexit⟩)
    · have hnone : currentOf state.manager=none := by
        rw [currentOf,hphase]
        exact none_of_attempting hreach hphase
      exact absurd (hnone.symm.trans hgeneration) (Option.some_ne_none generation).symm
  | _ => trivial

/-- A processor that dispatches belongs to the connection the manager holds or
is about to record. -/
theorem current_of_inReadLoop {state : State H}
    (hreach : ((connectionManager H).restrict ReaderDone).Reachable state)
    {generation : Generation} (hloop : InReadLoop (state.processors generation)) :
    state.manager.phase≠.exited ∧ currentOf state.manager=some generation := by
  have hview : (supervision.restrict AfterServing).Reachable (view state) :=
    (sessions H).reachable_restrict
      (fun _ _ _ hlegal henabled hguard hperforms =>
        afterServing_of_readerDone hlegal henabled hguard hperforms) hreach
  obtain ⟨hrunning,hcurrent⟩ := Supervision.current_of_serving hview (inReadLoop_iff.mp hloop)
  exact ⟨of_decide_eq_true hrunning,hcurrent⟩

/-- Only processors in their read loop dispatch. -/
theorem inReadLoop_of_dispatch {state : State H} {generation : Generation}
    {order : List (Subscription H)} {outcome : SubscriptionId → Except String Unit}
    (h : Enabled state (.dispatch generation order outcome)) :
    InReadLoop (state.processors generation) := by
  obtain ⟨event,hphase,_⟩ := dispatching_of_dispatch h
  rw [hphase]
  trivial

/-- In every run in which the manager lets go only of connections whose
processor has left its read loop: whenever a processor dispatches, the manager
loop is running and holds, or is about to record, the connection of that
processor. So no two processors dispatch at once, and none after the exit. -/
theorem only_current_delivers {state : State H}
    (hreach : ((connectionManager H).restrict ReaderDone).Reachable state) :
    (∀ generation order outcome,Enabled state (.dispatch generation order outcome) →
      state.manager.phase≠.exited ∧
      (state.manager.client=some generation ∨ state.manager.phase=.established generation)) ∧
    (∀ first second order order' outcome outcome',
      Enabled state (.dispatch first order outcome) →
      Enabled state (.dispatch second order' outcome') → first=second) := by
  constructor
  · intro generation order outcome henabled
    obtain ⟨hrunning,hcurrent⟩ := current_of_inReadLoop hreach (inReadLoop_of_dispatch henabled)
    refine ⟨hrunning,?_⟩
    unfold currentOf at hcurrent
    split at hcurrent
    · cases hcurrent
      exact Or.inr ‹_›
    · exact Or.inl hcurrent
  · intro first second order order' outcome outcome' hfirst hsecond
    have hone := (current_of_inReadLoop hreach (inReadLoop_of_dispatch hfirst)).2
    have htwo := (current_of_inReadLoop hreach (inReadLoop_of_dispatch hsecond)).2
    exact Option.some.inj (hone.symm.trans htwo)

/-- A step that keeps the connection, or had none, lets go of nothing. -/
theorem readerDone_of_kept {state : State H} {action : Action H}
    (hclient : state.manager.client=none ∨ (next state action).manager.client≠none)
    (hphase : (next state action).manager.phase≠.exited) : ReaderDone state action := by
  intro generation hgo
  rcases hgo with ⟨hheld,hnone⟩|⟨_,hexit⟩
  · rcases hclient with hclient|hclient
    · exact absurd (hclient.symm.trans hheld) (Option.some_ne_none generation).symm
    · exact absurd hnone hclient
  · exact absurd hexit hphase

/-- A slot update. -/
def slotItem : StreamItem := .ok ⟨some (.slot 5)⟩

/-- A slot update is about to be dispatched on the first connection. -/
def readingRun : List (Action Unit) :=
  [.enterLoop,.connectSucceeded [],.recordConnection,.receiveItem 0 slotItem]

/-- Nothing is let go of in that run. -/
theorem readingRun_legal :
    ((connectionManager Unit).restrict ReaderDone).Legal (State.start 0) readingRun :=
  ⟨⟨by decide,readerDone_of_kept (by decide) (by decide)⟩,
    ⟨⟨by decide,by decide⟩,readerDone_of_kept (by decide) (by decide)⟩,
    ⟨trivial,readerDone_of_kept (by decide) (by decide)⟩,
    ⟨by decide,readerDone_of_kept (by decide) (by decide)⟩,trivial⟩

theorem only_current_delivers_readingRun :
    (∀ generation order outcome,
      Enabled ((connectionManager Unit).final (State.start 0) readingRun)
        (.dispatch generation order outcome) →
      ((connectionManager Unit).final (State.start 0) readingRun).manager.phase≠.exited ∧
      (((connectionManager Unit).final (State.start 0) readingRun).manager.client=
          some generation ∨
        ((connectionManager Unit).final (State.start 0) readingRun).manager.phase=
          .established generation)) ∧
    (∀ first second order order' outcome outcome',
      Enabled ((connectionManager Unit).final (State.start 0) readingRun)
        (.dispatch first order outcome) →
      Enabled ((connectionManager Unit).final (State.start 0) readingRun)
        (.dispatch second order' outcome') → first=second) :=
  only_current_delivers ⟨State.start 0,readingRun,initial_iff.mpr ⟨0,rfl⟩,readingRun_legal,rfl⟩

/-- The slot subscription of that run. -/
def slotSubscription : Subscription Unit := .onSlots 1 "a" ⟨[]⟩ ()

/-- A subscription is added, the manager is shut down, and an update arrives on
the stream it has left. -/
def shutdownRun : List (Action Unit) :=
  [.enterLoop,.connectSucceeded [],.recordConnection,
    .sendCommand (.addSubscription slotSubscription),.receiveCommand,
    .sendUpdate [slotSubscription] true,.enterLoop,.sendCommand .shutdown,.receiveCommand,
    .receiveItem 0 slotItem]

/-- The processor then calls the handler, although the manager loop has ended. -/
theorem delivery_after_shutdown :
    ¬∀ state : State Unit,(connectionManager Unit).Reachable state →
      ∀ generation order outcome,Enabled state (.dispatch generation order outcome) →
        handlerCalls (fun _ => "") state (.dispatch generation order outcome)≠[] →
        state.manager.phase≠.exited ∧
        (state.manager.client=some generation ∨
          state.manager.phase=.established generation) := by
  intro hclaim
  have hreach : (connectionManager Unit).Reachable
      ((connectionManager Unit).final (State.start 0) shutdownRun) :=
    ⟨State.start 0,shutdownRun,initial_iff.mpr ⟨0,rfl⟩,by decide,rfl⟩
  have hcurrent := hclaim _ hreach 0 [slotSubscription] (fun _ => .ok ())
    (by decide) (by decide)
  exact hcurrent.1 (by decide)

end SteamHandler.Delivery
