import SteamHandler.ConnectionManager

/-!
# The server's view of the registry

A subscription stream applies the filter set of the last accepted request that
carried no ping. Whenever the manager waits in `select!` it holds one complete
connection whose filter set was built from the current registry. The
invariant says for each await point which part of this is already, or still,
established; a due update or a missing client is what sends the loop back to
connecting.
-/

namespace SteamHandler.ServerView

open Subscriptions SubscriptionRegistry Requests Backoff ConnectionManager TransitionSystem

variable {H : Type} {manager : Manager} {subs : SubscriptionMap H}
variable {filters : Generation → Messages.SubscribeRequest}

/-- Client and channel belong to one connection, and its filter set is a
request the registry builds. -/
def Synced (manager : Manager) (subs : SubscriptionMap H)
    (filters : Generation → Messages.SubscribeRequest) : Prop :=
  ∃ generation,manager.client=some generation ∧ manager.subscribeTx=some generation ∧
    Builds subs (filters generation)

/-- What each await point of the manager guarantees. -/
def ViewInvariant (manager : Manager) (subs : SubscriptionMap H)
    (filters : Generation → Messages.SubscribeRequest) : Prop :=
  match manager.phase with
  | .loopHead => manager.client=none ∨ (manager.needsUpdate=false ∧ Synced manager subs filters)
  | .circuitOpen _ => manager.client=none
  | .attempting => manager.client=none
  | .backingOff _ => manager.client=none
  | .established generation => manager.client=none ∧ Builds subs (filters generation)
  | .selecting => manager.needsUpdate=false ∧ Synced manager subs filters
  | .updating => ∃ generation,manager.client=some generation ∧ manager.subscribeTx=some generation
  | .exited => True

/-- Dropping the connection needs no guarantee. -/
theorem viewInvariant_disconnect : ViewInvariant manager.disconnect subs filters := Or.inl rfl

/-- The top of the loop goes to `select!` only with a synced connection. -/
theorem viewInvariant_enterLoop (hphase : manager.phase=.loopHead)
    (h : ViewInvariant manager subs filters) (now : Instant) :
    ViewInvariant (manager.enterLoop now) subs filters := by
  simp only [ViewInvariant,hphase] at h
  have hunheld : (manager.needsUpdate || manager.client.isNone)=true → manager.client=none := by
    intro hdue
    rcases h with hnone|⟨hupdate,generation,hclient,_⟩
    · exact hnone
    · rw [hupdate,hclient] at hdue
      cases hdue
  rcases manager.enterLoop_cases now with ⟨hdue,_,_,hnext⟩|⟨hdue,_,hnext⟩|⟨hcalm,hnext⟩
  · rw [hnext]
    exact hunheld hdue
  · rw [hnext]
    exact hunheld hdue
  · rw [hnext]
    rcases h with hnone|hsynced
    · rw [hnone,Option.isNone_none,Bool.or_true] at hcalm
      cases hcalm
    · exact hsynced

/-- A sleep only ends in an attempt or at the top of the loop. -/
theorem viewInvariant_wake (hclient : manager.client=none) (now : Instant)
    (hphase : ∃ wakeAt,manager.phase=.circuitOpen wakeAt ∨ manager.phase=.backingOff wakeAt) :
    ViewInvariant (manager.wake now) subs filters := by
  obtain ⟨wakeAt,hopen|hoff⟩ := hphase
  · rw [Manager.wake,hopen]
    exact hclient
  · rw [Manager.wake,hoff]
    exact Or.inl hclient

/-- A failed attempt leaves no client behind. -/
theorem viewInvariant_connectFailed (hclient : manager.client=none) (now : Instant) :
    ViewInvariant (manager.connectFailed now) subs filters := by
  rcases manager.connectFailed_cases now with ⟨failures,sleep,hsleep⟩|hpanic
  · rw [hsleep]
    exact hclient
  · rw [hpanic]
    trivial

/-- After a command the invariant holds again: a changed registry makes an
update due, which can be sent because the channel is present, and an unchanged
one leaves the connection synced. -/
theorem viewInvariant_afterCommand (hupdate : manager.needsUpdate=false)
    (hsynced : Synced manager subs filters) (command : ManagerCommand H) (flagged : Bool)
    {changed : SubscriptionMap H} (hcalm : flagged=false → changed=subs) :
    ViewInvariant (manager.afterCommand command flagged) changed filters := by
  obtain ⟨generation,hclient,hchannel,hbuilds⟩ := hsynced
  have hloop : ViewInvariant
      { manager with
        needsUpdate := manager.needsUpdate || flagged
        phase := if (manager.needsUpdate || flagged) && manager.subscribeTx.isSome then .updating
          else .loopHead } changed filters := by
    cases flagged with
    | false =>
      rw [hcalm rfl,hupdate]
      exact Or.inr ⟨rfl,generation,hclient,hchannel,hbuilds⟩
    | true =>
      rw [hupdate,hchannel]
      exact ⟨generation,hclient,rfl⟩
  cases command with
  | shutdown => trivial
  | _ => exact hloop

/-- A command that asks for no update leaves the registry as it was. -/
theorem handle_unflagged {registry : Registry H} {command : ManagerCommand H}
    (h : (registry.handle command).2=false) :
    (registry.handle command).1.subscriptions=registry.subscriptions := by
  cases command with
  | addSubscription subscription => cases h
  | removeSubscription subId => cases h
  | removeClientSubscriptions clientId =>
    have hids : registry.idsOf clientId=∅ := by
      by_contra hsome
      rw [Registry.handle,decide_eq_true hsome] at h
      cases h
    simp only [Registry.handle,Registry.removeClientSubscriptions,hids,
      SubscriptionMap.removeAll_empty]
  | shutdown => rfl

/-- Handling an event keeps the synced connection or drops it whole. -/
theorem viewInvariant_afterEvent (hupdate : manager.needsUpdate=false)
    (hsynced : Synced manager subs filters) (event : StreamEvent) (accepted : Bool) :
    ViewInvariant (manager.afterEvent event accepted) subs filters := by
  rcases manager.afterEvent_cases event accepted with hdropped|⟨_,hkept⟩
  · rw [hdropped]
    exact viewInvariant_disconnect
  · rw [hkept]
    exact Or.inr ⟨hupdate,hsynced⟩

/-- One step keeps the invariant. -/
theorem viewInvariant_next {state : State H} {action : Action H} (henabled : Enabled state action)
    (h : ViewInvariant state.manager state.registry.subscriptions state.serverFilters) :
    ViewInvariant (next state action).manager (next state action).registry.subscriptions
      (next state action).serverFilters := by
  cases action with
  | enterLoop => exact viewInvariant_enterLoop henabled h state.clock
  | wake =>
    obtain ⟨wakeAt,_,hopen|hoff⟩ := sleeping_of_wake henabled
    · simp only [ViewInvariant,hopen] at h
      exact viewInvariant_wake h _ ⟨wakeAt,Or.inl hopen⟩
    · simp only [ViewInvariant,hoff] at h
      exact viewInvariant_wake h _ ⟨wakeAt,Or.inr hoff⟩
  | connectFailed =>
    have hphase : state.manager.phase=.attempting := henabled
    simp only [ViewInvariant,hphase] at h
    exact viewInvariant_connectFailed h state.clock
  | connectSucceeded order =>
    simp only [ViewInvariant,henabled.1] at h
    exact ⟨h,order,henabled.2,Function.update_self _ _ _⟩
  | recordConnection =>
    obtain ⟨generation,hphase,hnext⟩ := next_recordConnection henabled
    simp only [ViewInvariant,hphase] at h
    rw [hnext]
    exact ⟨rfl,generation,rfl,rfl,h.2⟩
  | receiveCommand =>
    simp only [ViewInvariant,henabled.1] at h
    obtain ⟨command,_,_,hnext⟩ := next_receiveCommand henabled
    rw [hnext]
    exact viewInvariant_afterCommand h.1 h.2 command _ handle_unflagged
  | sendUpdate order accepted =>
    simp only [ViewInvariant,henabled.1] at h
    obtain ⟨generation,hclient,hchannel⟩ := h
    simp only [next,hchannel]
    cases accepted with
    | false => exact viewInvariant_disconnect
    | true =>
      refine Or.inr ⟨rfl,generation,hclient,hchannel,order,henabled.2,?_⟩
      exact Function.update_self _ _ _
  | receiveEvent accepted =>
    simp only [ViewInvariant,henabled.1] at h
    obtain ⟨sent,_,_,hnext⟩ := next_receiveEvent henabled
    rw [hnext]
    exact viewInvariant_afterEvent h.1 h.2 sent.event accepted
  | receiveShutdown => trivial
  | allChannelsClosed => trivial
  | sendEvent generation =>
    obtain ⟨_,_,hnext⟩ := next_sendEvent henabled
    rw [hnext]
    exact h
  | _ => exact h

/-- The invariant holds of every reachable state. -/
theorem viewInvariant_reachable {state : State H} (h : (connectionManager H).Reachable state) :
    ViewInvariant state.manager state.registry.subscriptions state.serverFilters := by
  refine System.Reachable.invariant
    (I := fun state => ViewInvariant state.manager state.registry.subscriptions
      state.serverFilters) ?_ ?_ h
  · intro start hstart
    obtain ⟨clock,rfl⟩ := initial_iff.mp hstart
    exact Or.inl rfl
  · exact fun _ _ _ hinv henabled => viewInvariant_next henabled hinv

/-- What the invariant says of a waiting manager. -/
theorem synced_of_selecting {state : State H} (hreach : (connectionManager H).Reachable state)
    (hselect : state.manager.phase=.selecting) :
    state.manager.needsUpdate=false ∧
      Synced state.manager state.registry.subscriptions state.serverFilters := by
  have h := viewInvariant_reachable hreach
  simp only [ViewInvariant,hselect] at h
  exact h

/-- In every run, whenever the manager waits in `select!`, client and channel
are both present and belong to one connection, no update is due, and the
server's filter set on that connection is a request that building from the
current registry produces. -/
theorem server_view_synced {state : State H} (hreach : (connectionManager H).Reachable state)
    (hselect : state.manager.phase=.selecting) :
    state.manager.needsUpdate=false ∧
    ∃ generation,state.manager.client=some generation ∧
      state.manager.subscribeTx=some generation ∧
      Builds state.registry.subscriptions (state.serverFilters generation) :=
  synced_of_selecting hreach hselect

/-- A run that reaches `select!` again after a subscription was added. -/
def addingRun : List (Action Unit) :=
  [.enterLoop,.connectSucceeded [],.recordConnection,
    .sendCommand (.addSubscription (.onSlots 1 "a" ⟨[]⟩ ())),.receiveCommand,
    .sendUpdate [.onSlots 1 "a" ⟨[]⟩ ()] true,.enterLoop]

theorem server_view_synced_addingRun :
    ((connectionManager Unit).final (State.start 0) addingRun).manager.needsUpdate=false ∧
    ∃ generation,
      ((connectionManager Unit).final (State.start 0) addingRun).manager.client=some generation ∧
      ((connectionManager Unit).final (State.start 0) addingRun).manager.subscribeTx=
        some generation ∧
      Builds ((connectionManager Unit).final (State.start 0) addingRun).registry.subscriptions
        (((connectionManager Unit).final (State.start 0) addingRun).serverFilters generation) :=
  server_view_synced ⟨State.start 0,addingRun,initial_iff.mpr ⟨0,rfl⟩,by decide,rfl⟩ (by decide)

end SteamHandler.ServerView
