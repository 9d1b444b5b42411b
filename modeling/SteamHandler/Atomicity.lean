import SteamHandler.LockGuards

/-!
# Critical sections are atomic

A command that is in hand but not written yet looks as if it were still queued,
one whose writes have begun as if it were handled, and an event that is being
dispatched as if it were about to be. Seen in this way every step of the manager
with its lock is a step of the manager system, or none, or, where the command in
hand has made room for another one, the two or three steps that have waited for
it.
-/

namespace SteamHandler.Atomicity

open Messages Subscriptions SubscriptionRegistry Requests Dispatch ConnectionManager ManagerRuns
open CriticalSections LockGuards Wire Progress RwLocks TransitionSystem

variable {H : Type}

attribute [ext] ConnectionManager.State

section Simulating

variable {bs58 : Bytes → String} {state : LockedState H}

/-- A stage in which no writes are under way does not change the registry. -/
theorem completed_of_none {stage : Stage H} (registry : Registry H) (h : stage.underWay=none) :
    stage.completed registry=registry := by
  cases stage <;> first | rfl | cases h

/-- Between two writes of `subscriptions` they are as they will be. -/
theorem completed_subscriptions {stage : Stage H} (registry : Registry H) (h : stage.writes=false) :
    (stage.completed registry).subscriptions=registry.subscriptions := by
  cases stage <;> first | rfl | cases h

/-- Outside the handling of commands the manager system is in the state it is seen
in. -/
theorem view_eq (hhand : state.stage.inHand=none) (hway : state.stage.underWay=none)
    (hcapacity : state.system.commands.length ≤ channelCapacity) : state.view=state.system := by
  have hunhandled : state.unhandled=state.system.commands := by
    rw [LockedState.unhandled,hhand]
    rfl
  have hoverflow : state.overflow=[] := by
    rw [LockedState.overflow,hunhandled]
    exact List.drop_eq_nil_of_le hcapacity
  rw [LockedState.view,hway,hunhandled,hoverflow,List.take_of_length_le hcapacity,
    completed_of_none _ hway]
  simp only [List.isEmpty_nil,Bool.not_true,Bool.or_false]

theorem view_outside (system : State H) (lock : RwLock Holder)
    (loops : Generation → Option (Loop H)) (hcapacity : system.commands.length ≤ channelCapacity) :
    LockedState.view ⟨system,lock,.outside,loops⟩=system :=
  @view_eq H ⟨system,lock,.outside,loops⟩ rfl rfl hcapacity

/-- Two states look alike if they differ only in how far the manager is with a
command. -/
theorem view_same {state' : LockedState H}
    (hsystem : state.system=
      { state'.system with
        manager := state.system.manager
        registry := state.system.registry
        commands := state.system.commands })
    (hmanager : state'.view.manager=state.view.manager)
    (hregistry : state'.view.registry=state.view.registry)
    (hunhandled : state'.unhandled=state.unhandled) : state'.view=state.view := by
  have howner : state'.system.ownerAlive=state.system.ownerAlive :=
    (congrArg State.ownerAlive hsystem).symm
  ext1
  · exact hmanager
  · exact hregistry
  · exact congrArg (List.take channelCapacity) hunhandled
  · exact (congrArg State.events hsystem).symm
  · exact (congrArg State.processors hsystem).symm
  · exact (congrArg State.nextGeneration hsystem).symm
  · exact (congrArg State.serverFilters hsystem).symm
  · rw [LockedState.view,LockedState.view,LockedState.overflow,LockedState.overflow,hunhandled,howner]
  · exact (congrArg State.shutdownSignalled hsystem).symm
  · exact (congrArg State.clock hsystem).symm

/-- Handling a command that is not the shutdown does not end the task. -/
theorem afterCommand_running {command : ManagerCommand H} (h : command≠.shutdown)
    (manager : Manager) (flagged : Bool) : (manager.afterCommand command flagged).phase≠.exited := by
  cases command with
  | shutdown => exact absurd rfl h
  | _ =>
    change (if _ then ManagerPhase.updating else ManagerPhase.loopHead)≠.exited
    split <;> exact fun hsame => by cases hsame

/-- What is under way is not the shutdown, and the manager is in `select!`. -/
theorem underWay_cases {system : State H} {stage : Stage H} {command : ManagerCommand H}
    {flagged : Bool} (h : stage.underWay=some (command,flagged)) (hfits : StageFits system stage) :
    command≠.shutdown ∧ system.manager.phase=.selecting := by
  cases stage with
  | handled other flag =>
    cases h
    exact hfits.symm
  | _ => cases h <;> exact ⟨fun hsame => (by cases hsame),hfits⟩

/-- The task has ended in the view where it has ended. -/
theorem view_exited_iff (h : Consistent bs58 state) :
    state.view.manager.phase=.exited ↔ state.system.manager.phase=.exited := by
  cases hway : state.stage.underWay with
  | none => simp only [LockedState.view,hway]
  | some command =>
    obtain ⟨hcommand,hphase⟩ := underWay_cases hway h.stage
    simp only [LockedState.view,hway,hphase]
    exact ⟨fun hexited => absurd hexited (afterCommand_running hcommand _ _),
      fun hfalse => by cases hfalse⟩

/-- The owner that is there is there in the view. -/
theorem view_owner (h : state.system.ownerAlive=true) : state.view.ownerAlive=true := by
  rw [LockedState.view,h,Bool.true_or]

/-- Each step is a run of the manager system between the views. -/
def Simulates (bs58 : Bytes → String) (state : LockedState H) (action : LockedAction H) : Prop :=
  (connectionManager H).Legal state.view (trace (state,action)) ∧
    (connectionManager H).final state.view (trace (state,action))=
      (lockedNext bs58 state action).view

/-- A step that leaves the view alone amounts to nothing. -/
theorem simulates_silent {action : LockedAction H} (htrace : trace (state,action)=[])
    (hview : (lockedNext bs58 state action).view=state.view) : Simulates bs58 state action := by
  rw [Simulates,htrace,hview]
  exact ⟨trivial,rfl⟩

/-- A step that amounts to one of the manager system. -/
theorem simulates_one (performed : Action H) {action : LockedAction H}
    (htrace : trace (state,action)=[performed]) (henabled : Enabled state.view performed)
    (hview : next state.view performed=(lockedNext bs58 state action).view) :
    Simulates bs58 state action := by
  rw [Simulates,htrace]
  exact ⟨⟨henabled,trivial⟩,hview⟩

/-- A step of the manager outside its critical sections. -/
theorem simulates_manager (h : Consistent bs58 state) {action : Action H}
    (henabled : LockedEnabled state (.plain action)) (hmanager : isManagerStep action=true) :
    Simulates bs58 state (.plain action) := by
  obtain ⟨_,hstep,houtside⟩ := henabled
  have hstage := eq_outside (houtside hmanager)
  have hhand : state.stage.inHand=none ∧ state.stage.underWay=none := by
    rw [hstage]
    exact ⟨rfl,rfl⟩
  have hsystem := view_eq hhand.1 hhand.2 h.capacity
  have htrace : trace (state,.plain action)=[action] := by
    cases action with
    | sendCommand command => cases hmanager
    | dropOwner => cases hmanager
    | _ => rfl
  refine simulates_one _ htrace ?_ ?_
  · rw [hsystem]
    exact hstep
  · rw [hsystem]
    exact (@view_eq H ⟨next state.system action,state.lock,state.stage,state.loops⟩ hhand.1 hhand.2
      (commands_within_next hstep h.capacity)).symm

/-- A client's send: it waits for its turn where only the command in hand made
room for it. -/
theorem simulates_sendCommand (h : Consistent bs58 state) {command : ManagerCommand H}
    (henabled : LockedEnabled state (.plain (.sendCommand command))) :
    Simulates bs58 state (.plain (.sendCommand command)) := by
  obtain ⟨howner,hrunning,_⟩ := henabled.2.1
  have hunhandled : (lockedNext bs58 state (.plain (.sendCommand command))).unhandled=
      state.unhandled++[command] := (List.append_assoc _ _ _).symm
  by_cases hroom : state.unhandled.length < channelCapacity
  · have hbefore : state.overflow=[] := List.drop_eq_nil_of_le (Nat.le_of_lt hroom)
    have hfit : (state.unhandled++[command]).length ≤ channelCapacity := by
      rw [List.length_append,List.length_singleton]
      exact hroom
    have hafter : (lockedNext bs58 state (.plain (.sendCommand command))).overflow=[] := by
      rw [LockedState.overflow,hunhandled]
      exact List.drop_eq_nil_of_le hfit
    refine simulates_one (.sendCommand command) (if_pos hroom) ⟨?_,?_,?_⟩ ?_
    · exact view_owner howner
    · exact fun hexited => hrunning ((view_exited_iff h).mp hexited)
    · change (state.unhandled.take channelCapacity).length < channelCapacity
      rw [List.length_take]
      omega
    · rw [LockedState.view,LockedState.view,hunhandled,hafter,hbefore,
        List.take_of_length_le (Nat.le_of_lt hroom),List.take_of_length_le hfit]
      rfl
  · refine simulates_silent (if_neg hroom) ?_
    have hfull : channelCapacity ≤ state.unhandled.length := Nat.le_of_not_lt hroom
    ext1
    · rfl
    · rfl
    · change ((lockedNext bs58 state (.plain (.sendCommand command))).unhandled).take _=_
      rw [hunhandled,List.take_append_of_le_length hfull]
      rfl
    · rfl
    · rfl
    · rfl
    · rfl
    · have hthen : (lockedNext bs58 state (.plain (.sendCommand command))).view.ownerAlive=true :=
        view_owner howner
      exact hthen.trans (view_owner howner).symm
    · rfl
    · rfl

/-- The owner is dropped: while a command is still to be sent, later. -/
theorem simulates_dropOwner (henabled : LockedEnabled state (.plain .dropOwner)) :
    Simulates bs58 state (.plain .dropOwner) := by
  have howner : state.system.ownerAlive=true := henabled.2.1
  have hoverflow : (lockedNext bs58 state (.plain .dropOwner)).overflow=state.overflow := rfl
  cases hempty : state.overflow.isEmpty with
  | true =>
    refine simulates_one .dropOwner (if_pos hempty) (view_owner howner) ?_
    rw [LockedState.view,LockedState.view,hoverflow,hempty]
    rfl
  | false =>
    refine simulates_silent ?_ ?_
    · change (if state.overflow.isEmpty then [Action.dropOwner] else [])=[]
      rw [hempty]
      rfl
    · rw [LockedState.view,LockedState.view,hoverflow,hempty,howner]
      rfl

/-- What other tasks do is the same in the view. -/
theorem simulates_other (h : Consistent bs58 state) {action : Action H}
    (henabled : LockedEnabled state (.plain action)) (hother : isManagerStep action=false) :
    Simulates bs58 state (.plain action) := by
  cases action with
  | tick elapsed => exact simulates_one _ rfl trivial rfl
  | sendCommand command => exact simulates_sendCommand h henabled
  | signalShutdown => exact simulates_one _ rfl (view_owner henabled.2.1) rfl
  | dropOwner => exact simulates_dropOwner henabled
  | receiveItem generation item => exact simulates_one _ rfl henabled.2.1 rfl
  | endOfStream generation => exact simulates_one _ rfl henabled.2.1 rfl
  | sendEvent generation =>
    have hstep : Enabled state.system (.sendEvent generation) := henabled.2.1
    have hview : Enabled state.view (.sendEvent generation) := by
      obtain ⟨event,hsending,_⟩ := next_sendEvent hstep
      have hsame : state.view.processors generation=.sending event := hsending
      simp only [Enabled,hsending] at hstep
      simp only [Enabled,hsame]
      exact hstep.imp (view_exited_iff h).mpr id
    refine simulates_one _ rfl hview ?_
    obtain ⟨event,hsending,hnext⟩ := next_sendEvent hstep
    obtain ⟨sent,hsent,hviewed⟩ := next_sendEvent hview
    obtain rfl : event=sent := ProcessorPhase.sending.inj (hsending.symm.trans hsent)
    have hlocked : lockedNext bs58 state (.plain (.sendEvent generation))=
        { state with
          system :=
            { state.system.setProcessor generation (.afterSend event) with
              events :=
                if state.system.manager.phase=.exited then state.system.events
                else state.system.events++[⟨event,generation⟩] } } := by
      rw [lockedNext,hnext]
    rw [hviewed,hlocked]
    ext1 <;> try rfl
    change (if state.view.manager.phase=.exited then _ else _)=
      if state.system.manager.phase=.exited then _ else _
    rw [if_congr (view_exited_iff h) rfl rfl]
    rfl
  | dispatch generation order outcome => cases henabled.1
  | _ => cases hother

theorem simulates_plain (h : Consistent bs58 state) {action : Action H}
    (henabled : LockedEnabled state (.plain action)) : Simulates bs58 state (.plain action) := by
  cases hmanager : isManagerStep action with
  | true => exact simulates_manager h henabled hmanager
  | false => exact simulates_other h henabled hmanager

theorem simulates_attemptFailed (h : Consistent bs58 state)
    (henabled : LockedEnabled state .attemptFailed) : Simulates bs58 state .attemptFailed := by
  have hidle : state.stage.inHand=none ∧ state.stage.underWay=none := by
    have hfail := henabled.2
    cases hstage : state.stage with
    | outside => exact ⟨rfl,rfl⟩
    | built order request => exact ⟨rfl,rfl⟩
    | _ =>
      rw [hstage] at hfail
      cases hfail
  have hsystem := view_eq hidle.1 hidle.2 h.capacity
  refine simulates_one .connectFailed rfl ?_ ?_
  · rw [hsystem]
    exact henabled.1
  · rw [hsystem,next_connectFailed,next_attemptFailed]
    generalize state.system.manager.connectFailed state.system.clock=failed
    exact (view_outside { state.system with manager := failed } _ _ h.capacity).symm

/-- A command other than the shutdown stays queued in the view while it is in
hand. -/
theorem taken_cases {command : ManagerCommand H} {stage : Stage H}
    (h : Stage.taken command=some stage) :
    command≠.shutdown ∧ stage.inHand=some command ∧ stage.underWay=none := by
  cases command with
  | shutdown => cases h
  | _ =>
    cases h
    exact ⟨fun hsame => (by cases hsame),rfl,rfl⟩

theorem simulates_takeCommand (h : Consistent bs58 state)
    (henabled : LockedEnabled state .takeCommand) : Simulates bs58 state .takeCommand := by
  have houtside := eq_outside henabled.2
  have hidle : state.stage.inHand=none ∧ state.stage.underWay=none := by
    rw [houtside]
    exact ⟨rfl,rfl⟩
  have hsystem := view_eq hidle.1 hidle.2 h.capacity
  have hcapacity := h.capacity
  obtain ⟨command,rest,hcommands,hshape⟩ := next_takeCommand bs58 henabled
  rw [hcommands,List.length_cons] at hcapacity
  rcases hshape with ⟨rfl,hnext⟩|⟨stage,htaken,hnext⟩
  · refine simulates_one .receiveCommand ?_ ?_ ?_
    · simp only [trace,hcommands]
    · rw [hsystem]
      exact henabled.1
    · rw [hsystem,hnext]
      obtain ⟨first,later,hqueue,hstep⟩ := next_receiveCommand henabled.1
      obtain ⟨rfl,rfl⟩ := List.cons.inj (hcommands.symm.trans hqueue)
      rw [hstep]
      exact (@view_eq H { state with
          system :=
            { state.system with
              commands := rest
              manager := { state.system.manager with phase := .exited } } }
        hidle.1 hidle.2 (Nat.le_of_succ_le hcapacity)).symm
  · obtain ⟨hcommand,hhand,hway⟩ := taken_cases htaken
    refine simulates_silent ?_ ?_
    · simp only [trace,hcommands]
      split
      · rename_i heq
        exact absurd (List.cons.inj heq).1 hcommand
      · rfl
    · rw [hnext]
      refine view_same rfl ?_ ?_ ?_
      · rw [LockedState.view,LockedState.view,hway,hidle.2]
      · change stage.completed state.system.registry=state.stage.completed state.system.registry
        rw [completed_of_none _ hway,completed_of_none _ hidle.2]
      · rw [LockedState.unhandled,LockedState.unhandled,hhand,hidle.1,hcommands]
        rfl

theorem simulates_listIds {subIds : List SubscriptionId}
    (henabled : LockedEnabled state (.listIds subIds)) : Simulates bs58 state (.listIds subIds) := by
  obtain ⟨clientId,hstage,_,hnext⟩ := next_listIds bs58 henabled
  refine simulates_silent rfl ?_
  rw [hnext]
  refine view_same rfl ?_ ?_ ?_
  · rw [LockedState.view,LockedState.view,hstage]
    rfl
  · rw [LockedState.view,LockedState.view,hstage]
    rfl
  · rw [LockedState.unhandled,LockedState.unhandled,hstage]
    rfl

/-- Removing one identifier after the other removes the set of them. -/
theorem foldl_remove (subs : SubscriptionMap H) {subIds : List SubscriptionId}
    {ids : Finset SubscriptionId} (h : (subIds : Multiset SubscriptionId)=ids.val) :
    subIds.foldl SubscriptionMap.remove subs=subs.removeAll ids := by
  have hentries : ∀ (many : List SubscriptionId) (subs : SubscriptionMap H),
      (many.foldl SubscriptionMap.remove subs).entries=
        many.foldl (fun rest subId => rest.erase subId) subs.entries := by
    intro many
    induction many with
    | nil => exact fun _ => rfl
    | cons subId many ih => exact fun subs => ih (subs.remove subId)
  have hsame : (subIds.foldl SubscriptionMap.remove subs).entries=(subs.removeAll ids).entries := by
    rw [hentries]
    change _=ids.val.foldl _ _
    rw [←h]
    rfl
  cases hleft : subIds.foldl SubscriptionMap.remove subs
  cases hright : subs.removeAll ids
  rw [hleft,hright] at hsame
  simp only at hsame
  subst hsame
  rfl

/-- With the write guard the command counts as handled. -/
theorem begun_handles {system : State H} {stage stage' : Stage H} (h : stage.begun=some stage')
    (hfits : StageFits system stage) :
    ∃ command flagged,stage.inHand=some command ∧ stage.underWay=none ∧ command≠.shutdown ∧
      stage'.inHand=none ∧ stage'.underWay=some (command,flagged) ∧
      system.manager.phase=.selecting ∧
      system.registry.handle command=(stage'.completed system.registry,flagged) := by
  cases stage with
  | adding subscription =>
    cases h
    exact ⟨_,_,rfl,rfl,fun hsame => (by cases hsame),rfl,rfl,hfits,rfl⟩
  | removing subId =>
    cases h
    exact ⟨_,_,rfl,rfl,fun hsame => (by cases hsame),rfl,rfl,hfits,rfl⟩
  | clearing clientId subIds =>
    cases h
    obtain ⟨hphase,hids⟩ := hfits
    refine ⟨_,_,rfl,rfl,fun hsame => (by cases hsame),rfl,rfl,hphase,?_⟩
    have hempty : decide (system.registry.idsOf clientId≠∅)=!subIds.isEmpty := by
      cases subIds with
      | nil =>
        have hnone : system.registry.idsOf clientId=∅ := Finset.val_eq_zero.mp hids.symm
        rw [hnone]
        rfl
      | cons subId subIds =>
        refine decide_eq_true fun hnone => ?_
        rw [hnone] at hids
        exact Multiset.cons_ne_zero (a:=subId) (m:=subIds) hids
    refine Prod.ext ?_ hempty
    change system.registry.removeClientSubscriptions clientId=
      Stage.completed system.registry (.erasingEach clientId subIds subIds)
    rw [Registry.removeClientSubscriptions,Stage.completed,foldl_remove _ hids]
  | _ => cases h

/-- The manager gets the write guard: the command is handled, and a send that the
command in hand made room for follows. -/
theorem simulates_acquire (h : Consistent bs58 state) (henabled : LockedEnabled state .acquire) :
    Simulates bs58 state .acquire := by
  obtain ⟨stage,hbegun,_,hnext⟩ := next_acquire bs58 henabled
  obtain ⟨command,flagged,hhand,hway,hcommand,hhand',hway',hphase,hhandle⟩ :=
    begun_handles hbegun h.stage
  have hunhandled : state.unhandled=command::state.system.commands := by
    rw [LockedState.unhandled,hhand]
    rfl
  have hmanager : state.view.manager=state.system.manager := by
    rw [LockedState.view,hway]
  have hregistry : state.view.registry=state.system.registry := completed_of_none _ hway
  have hcommands : state.view.commands=command::state.system.commands.take 99 := by
    change state.unhandled.take channelCapacity=_
    rw [hunhandled]
    rfl
  have hpossible : Enabled state.view .receiveCommand := by
    refine ⟨?_,?_⟩
    · rw [hmanager]
      exact hphase
    · rw [hcommands]
      exact List.cons_ne_nil _ _
  have hreceived : next state.view .receiveCommand=
      { state.view with
        commands := state.system.commands.take 99
        registry := stage.completed state.system.registry
        manager := state.system.manager.afterCommand command flagged } := by
    obtain ⟨first,later,hqueue,hstep⟩ := next_receiveCommand hpossible
    obtain ⟨rfl,rfl⟩ := List.cons.inj (hqueue.symm.trans hcommands)
    rw [hstep,hmanager,hregistry,hhandle]
  have hview : (lockedNext bs58 state .acquire).view=
      { state.system with
        manager := state.system.manager.afterCommand command flagged
        registry := stage.completed state.system.registry } := by
    rw [hnext]
    have hrest : LockedState.unhandled
        { state with lock := state.lock.write .manager, stage := stage }=state.system.commands := by
      rw [LockedState.unhandled,hhand']
      rfl
    rw [LockedState.view,hway',LockedState.overflow,hrest,List.take_of_length_le h.capacity,
      List.drop_eq_nil_of_le h.capacity]
    simp only [List.isEmpty_nil,Bool.not_true,Bool.or_false]
  have hcapacity : state.system.commands.length ≤ 100 := h.capacity
  have htrace : trace (state,.acquire)=.receiveCommand::(state.overflow.map .sendCommand++
      if state.system.ownerAlive || state.overflow.isEmpty then [] else [.dropOwner]) := rfl
  have hoverflow : state.overflow=state.system.commands.drop 99 := by
    rw [LockedState.overflow,hunhandled]
    rfl
  have howner : state.view.ownerAlive=(state.system.ownerAlive || !state.overflow.isEmpty) := rfl
  rw [Simulates,htrace,hview]
  rcases Nat.lt_or_ge 99 state.system.commands.length with hfull|hroom
  · -- The channel is full behind the command in hand: its last command is still to be sent.
    have hone : (state.system.commands.drop 99).length=1 := by
      rw [List.length_drop]
      exact Nat.sub_eq_of_eq_add (by omega)
    obtain ⟨late,hlate⟩ := List.length_eq_one_iff.mp hone
    have hsplit : state.system.commands.take 99++[late]=state.system.commands := by
      rw [←hlate,List.take_append_drop]
    rw [hoverflow,hlate] at howner ⊢
    simp only [List.isEmpty_cons,Bool.not_false,Bool.or_true] at howner
    have hsendable : Enabled (next state.view .receiveCommand) (.sendCommand late) := by
      rw [hreceived]
      refine ⟨howner,afterCommand_running hcommand _ _,?_⟩
      change (state.system.commands.take 99).length < 100
      rw [List.length_take]
      omega
    have hsent : next (next state.view .receiveCommand) (.sendCommand late)=
        { state.system with
          manager := state.system.manager.afterCommand command flagged
          registry := stage.completed state.system.registry
          ownerAlive := true } := by
      rw [hreceived]
      ext1
      · rfl
      · rfl
      · exact hsplit
      · rfl
      · rfl
      · rfl
      · rfl
      · exact howner
      · rfl
      · rfl
    cases halive : state.system.ownerAlive with
    | true =>
      refine ⟨⟨hpossible,hsendable,trivial⟩,hsent.trans ?_⟩
      ext1 <;> first | rfl | exact halive.symm
    | false =>
      refine ⟨⟨hpossible,hsendable,?_,trivial⟩,?_⟩
      · change (next (next state.view .receiveCommand) (.sendCommand late)).ownerAlive=true
        rw [hsent]
      · change next (next (next state.view .receiveCommand) (.sendCommand late)) .dropOwner=_
        rw [hsent]
        ext1 <;> first | rfl | exact halive.symm
  · have hnone : state.system.commands.drop 99=[] := List.drop_eq_nil_of_le hroom
    rw [hoverflow,hnone] at howner ⊢
    simp only [List.isEmpty_nil,Bool.not_true,Bool.or_false] at howner
    rw [List.isEmpty_nil,Bool.or_true]
    refine ⟨⟨hpossible,trivial⟩,?_⟩
    change next state.view .receiveCommand=_
    rw [hreceived,List.take_of_length_le hroom]
    ext1 <;> first | rfl | exact howner

/-- A write under the guard is one of those the command counts as having made. -/
theorem written_completes {registry : Registry H} {stage stage' : Stage H}
    {subs : SubscriptionMap H} (h : stage.written registry.subscriptions=some (subs,stage')) :
    stage.inHand=none ∧ stage'.inHand=none ∧ stage'.underWay=stage.underWay ∧
      stage'.completed { registry with subscriptions := subs }=stage.completed registry := by
  cases stage with
  | inserting subscription =>
    cases h
    exact ⟨rfl,rfl,rfl,rfl⟩
  | erasing subId =>
    obtain ⟨rfl,hstage⟩ := Prod.mk.inj (Option.some.inj h)
    cases hlookup : registry.subscriptions.lookup subId with
    | none =>
      simp only [hlookup] at hstage
      subst hstage
      refine ⟨rfl,rfl,rfl,?_⟩
      simp only [Stage.completed,Registry.removeSubscription,hlookup]
    | some removed =>
      simp only [hlookup] at hstage
      subst hstage
      refine ⟨rfl,rfl,rfl,?_⟩
      simp only [Stage.completed,Registry.removeSubscription,hlookup]
  | erasingEach clientId subIds rest =>
    cases rest with
    | nil =>
      cases h
      exact ⟨rfl,rfl,rfl,rfl⟩
    | cons subId rest =>
      cases h
      exact ⟨rfl,rfl,rfl,rfl⟩
  | _ => cases h

theorem simulates_write (henabled : LockedEnabled state .write) : Simulates bs58 state .write := by
  obtain ⟨subs,stage,hwritten,hnext⟩ := next_write bs58 henabled
  obtain ⟨hhand,hhand',hway,hcompleted⟩ := written_completes hwritten
  refine simulates_silent rfl ?_
  rw [hnext]
  refine view_same rfl ?_ hcompleted ?_
  · simp only [LockedState.view,LockedState.leaveFor,LockedState.setSubscriptions,hway]
  · change stage.inHand.toList++state.system.commands=state.unhandled
    rw [LockedState.unhandled,hhand,hhand']

/-- So is the write to the index. -/
theorem indexed_completes {registry : Registry H} {stage stage' : Stage H}
    {clientSubs : Finmap fun _ : String => Finset SubscriptionId}
    (h : stage.indexed registry=some (clientSubs,stage')) :
    stage.inHand=none ∧ stage'.inHand=none ∧ stage'.underWay=stage.underWay ∧
      stage'.completed { registry with clientSubscriptions := clientSubs }=
        stage.completed registry := by
  cases stage with
  | indexing subscription =>
    cases h
    exact ⟨rfl,rfl,rfl,rfl⟩
  | unlisting clientId subId =>
    cases h
    exact ⟨rfl,rfl,rfl,rfl⟩
  | unindexing clientId subIds =>
    cases h
    exact ⟨rfl,rfl,rfl,rfl⟩
  | _ => cases h

theorem simulates_index (henabled : LockedEnabled state .index) : Simulates bs58 state .index := by
  obtain ⟨clientSubs,stage,hindexed,hnext⟩ := next_index bs58 henabled
  obtain ⟨hhand,hhand',hway,hcompleted⟩ := indexed_completes hindexed
  refine simulates_silent rfl ?_
  rw [hnext]
  refine view_same rfl ?_ hcompleted ?_
  · simp only [LockedState.view,LockedState.setIndex,hway]
  · change stage.inHand.toList++state.system.commands=state.unhandled
    rw [LockedState.unhandled,hhand,hhand']

theorem simulates_finishCommand (henabled : LockedEnabled state .finishCommand) :
    Simulates bs58 state .finishCommand := by
  obtain ⟨command,flagged,hstage,hnext⟩ := next_finishCommand bs58 henabled
  refine simulates_silent rfl ?_
  rw [hnext]
  refine view_same rfl ?_ ?_ ?_
  · simp only [LockedState.view,hstage,Stage.underWay]
  · simp only [LockedState.view,hstage,Stage.completed]
  · simp only [LockedState.unhandled,hstage,Stage.inHand]

/-- Building changes nothing that is seen. -/
theorem view_building {state' : LockedState H} (hsystem : state'.system=state.system)
    (hhand : state.stage.inHand=none ∧ state.stage.underWay=none)
    (hhand' : state'.stage.inHand=none ∧ state'.stage.underWay=none)
    (hcapacity : state.system.commands.length ≤ channelCapacity) : state'.view=state.view := by
  rw [view_eq hhand.1 hhand.2 hcapacity]
  rw [←hsystem] at hcapacity
  rw [view_eq hhand'.1 hhand'.2 hcapacity,hsystem]

theorem simulates_startBuilding (h : Consistent bs58 state) {order : List (Subscription H)}
    (henabled : LockedEnabled state (.startBuilding order)) :
    Simulates bs58 state (.startBuilding order) := by
  have houtside := eq_outside henabled.2.1
  refine simulates_silent rfl (view_building rfl ?_ ⟨rfl,rfl⟩ h.capacity)
  rw [houtside]
  exact ⟨rfl,rfl⟩

theorem simulates_apply (h : Consistent bs58 state) (henabled : LockedEnabled state .apply) :
    Simulates bs58 state .apply := by
  refine simulates_silent rfl ?_
  obtain ⟨order,maps,⟨subscription,rest,hstage,hnext⟩|⟨hstage,hnext⟩⟩ := next_apply bs58 henabled
  · rw [hnext]
    refine view_building rfl ?_ ⟨rfl,rfl⟩ h.capacity
    rw [hstage]
    exact ⟨rfl,rfl⟩
  · rw [hnext]
    refine view_building rfl ?_ ⟨rfl,rfl⟩ h.capacity
    rw [hstage]
    exact ⟨rfl,rfl⟩

/-- Where a request is on its way the manager system is seen as it is, and the
request is one that the registry can build. -/
theorem view_built (h : Consistent bs58 state) {order : List (Subscription H)}
    {request : SubscribeRequest} (hstage : state.stage=.built order request) :
    state.view=state.system ∧ state.system.registry.subscriptions.IterationOrder order ∧
      request=buildSubscribeRequest order := by
  have hfits := h.stage
  rw [hstage] at hfits
  refine ⟨view_eq ?_ ?_ h.capacity,hfits.2⟩
  · rw [hstage]
    rfl
  · rw [hstage]
    rfl

theorem simulates_subscribed (h : Consistent bs58 state)
    (henabled : LockedEnabled state .subscribed) : Simulates bs58 state .subscribed := by
  obtain ⟨order,request,hstage,hphase,hnext⟩ := next_subscribed bs58 henabled
  obtain ⟨hview,horder,hrequest⟩ := view_built h hstage
  refine simulates_one (.connectSucceeded order) ?_ ?_ ?_
  · simp only [trace,hstage]
  · rw [hview]
    exact ⟨hphase,horder⟩
  · rw [hview,hnext,hrequest]
    refine Eq.symm (view_outside _ _ _ ?_)
    exact h.capacity

theorem simulates_updated (h : Consistent bs58 state) {accepted : Bool}
    (henabled : LockedEnabled state (.updated accepted)) :
    Simulates bs58 state (.updated accepted) := by
  obtain ⟨order,request,hstage,hphase,hnext⟩ := next_updated bs58 henabled
  obtain ⟨hview,horder,hrequest⟩ := view_built h hstage
  refine simulates_one (.sendUpdate order accepted) ?_ ?_ ?_
  · simp only [trace,hstage]
  · rw [hview]
    exact ⟨hphase,horder⟩
  · rw [hview,hnext,hrequest]
    refine Eq.symm (view_outside _ _ _ ?_)
    exact h.capacity

theorem simulates_startDispatch {generation : Generation} {order : List (Subscription H)} :
    Simulates bs58 state (.startDispatch generation order) := simulates_silent rfl rfl

theorem simulates_iterate (h : Consistent bs58 state) {generation : Generation}
    {outcome : Except String Unit} (henabled : LockedEnabled state (.iterate generation outcome)) :
    Simulates bs58 state (.iterate generation outcome) := by
  obtain ⟨order,subscription,rest,calls,hloop,hnext⟩ := next_iterate bs58 henabled
  obtain ⟨_,event,_,hphase,_⟩ := h.loops generation _ hloop
  refine simulates_silent rfl ?_
  rw [hnext event hphase]
  rfl

theorem simulates_endDispatch (h : Consistent bs58 state) {generation : Generation}
    (henabled : LockedEnabled state (.endDispatch generation)) :
    Simulates bs58 state (.endDispatch generation) := by
  obtain ⟨order,calls,hloop⟩ := next_endDispatch henabled
  obtain ⟨horder,event,_,hphase,_⟩ := h.loops generation _ hloop
  refine simulates_one (.dispatch generation order (outcomesOf calls)) ?_ ?_ rfl
  · simp only [trace,hloop]
  · have hview : state.view.processors generation=.dispatching event := hphase
    simp only [Enabled,hview]
    change (state.stage.completed state.system.registry).subscriptions.IterationOrder order
    rw [completed_subscriptions _ (h.writes_of_loop hloop)]
    exact horder

/-- Every step is a run of the manager system between the views. -/
theorem simulates (h : Consistent bs58 state) {action : LockedAction H}
    (henabled : LockedEnabled state action) : Simulates bs58 state action := by
  cases action with
  | plain action => exact simulates_plain h henabled
  | attemptFailed => exact simulates_attemptFailed h henabled
  | takeCommand => exact simulates_takeCommand h henabled
  | listIds subIds => exact simulates_listIds henabled
  | acquire => exact simulates_acquire h henabled
  | write => exact simulates_write henabled
  | index => exact simulates_index henabled
  | finishCommand => exact simulates_finishCommand henabled
  | startBuilding order => exact simulates_startBuilding h henabled
  | apply => exact simulates_apply h henabled
  | subscribed => exact simulates_subscribed h henabled
  | updated accepted => exact simulates_updated h henabled
  | startDispatch generation order => exact simulates_startDispatch
  | iterate generation outcome => exact simulates_iterate h henabled
  | endDispatch generation => exact simulates_endDispatch h henabled

/-- In every state that the locked manager reaches it is clear who is where, and
the view is a state that the manager system reaches. -/
theorem consistent_of_reachable (h : (lockedManager (H:=H) bs58).Reachable state) :
    Consistent bs58 state ∧ (connectionManager H).Reachable state.view := by
  refine System.Reachable.invariant (I := fun state : LockedState H =>
    Consistent bs58 state ∧ (connectionManager H).Reachable state.view) ?_ ?_ h
  · rintro state ⟨system,hinit,rfl⟩
    obtain ⟨clock,rfl⟩ := initial_iff.mp hinit
    have hview : (LockedState.quiet (State.start (H:=H) clock)).view=State.start clock :=
      view_outside _ _ _ (Nat.zero_le _)
    rw [hview]
    refine ⟨⟨rfl,?_,?_,Nat.zero_le _,trivial,?_⟩,System.Reachable.start hinit⟩
    · exact ⟨fun hmem => absurd hmem (Finset.notMem_empty _),fun hfalse => by cases hfalse⟩
    · exact fun _ => ⟨fun hmem => absurd hmem (Finset.notMem_empty _),fun hfalse => by cases hfalse⟩
    · exact fun _ _ hloop => by cases hloop
  · intro state action _ ⟨hconsistent,hview⟩ henabled
    have hstep : Simulates bs58 state action := simulates hconsistent henabled
    obtain ⟨hlegal,hfinal⟩ := hstep
    have hfresh : state.system.processors state.system.nextGeneration=.unspawned :=
      Sessions.unspawned_of_nextGeneration_le hview (Nat.le_refl _)
    refine ⟨hconsistent.next hfresh henabled,?_⟩
    change (connectionManager H).Reachable (lockedNext bs58 state action).view
    rw [←hfinal]
    exact hview.run hlegal

end Simulating

end SteamHandler.Atomicity
