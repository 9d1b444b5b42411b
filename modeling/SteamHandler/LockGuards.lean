import SteamHandler.CriticalSections

/-!
# Who holds the lock

The manager holds the write guard exactly where it writes and a read guard
exactly where it builds, the processors hold read guards exactly where they
dispatch. Nothing can therefore change under an iteration: what a processor has
called and what the manager has applied so far is the beginning of an iteration
over what is registered now.
-/

namespace SteamHandler.LockGuards

open Messages Subscriptions SubscriptionRegistry Requests Dispatch ConnectionManager
open CriticalSections Progress RwLocks TransitionSystem

variable {H : Type}

section Invariants

variable (bs58 : Bytes → String)

/-- What the manager has collected fits the registry. -/
def StageFits (system : State H) : Stage H → Prop
  | .outside => True
  | .clearing clientId subIds => system.manager.phase=.selecting ∧
      (subIds : Multiset SubscriptionId)=(system.registry.idsOf clientId).val
  | .handled command _ => system.manager.phase=.selecting ∧ command≠.shutdown
  | .building order rest maps =>
      (system.manager.phase=.attempting ∨ system.manager.phase=.updating) ∧
      system.registry.subscriptions.IterationOrder order ∧
      ∃ applied,order=applied++rest ∧ maps=applied.foldl applyToRequest .empty
  | .built order request =>
      (system.manager.phase=.attempting ∨ system.manager.phase=.updating) ∧
      system.registry.subscriptions.IterationOrder order ∧ request=buildSubscribeRequest order
  | _ => system.manager.phase=.selecting

/-- What a processor has called fits its iteration. -/
structure LoopFits (system : State H) (generation : Generation) (loop : Loop H) : Prop where
  /-- It iterates over what is registered. -/
  order : system.registry.subscriptions.IterationOrder loop.order
  /-- It has called the handlers of the matching subscriptions it has passed. -/
  calls : ∃ event passed,system.processors generation=.dispatching event ∧
    loop.order=passed++loop.rest ∧
    loop.calls.map HandlerCall.subscription=
      passed.filter (fun subscription => subscription.matchesEvent bs58 event) ∧
    ∀ call∈loop.calls,call.event=event

/-- Who is where holds what. -/
structure Consistent (state : LockedState H) : Prop where
  /-- The write guard is with the manager where it writes. -/
  writer : state.lock.writer=if state.stage.writes then some .manager else none
  /-- The manager has a read guard where it builds. -/
  managerReads : .manager∈state.lock.readers ↔ state.stage.reads=true
  /-- A processor has a read guard where it dispatches. -/
  processorReads : ∀ generation,
    .processor generation∈state.lock.readers ↔ (state.loops generation).isSome=true
  /-- The command channel is within its capacity. -/
  capacity : state.system.commands.length ≤ channelCapacity
  /-- What the manager has collected fits. -/
  stage : StageFits state.system state.stage
  /-- What the processors have called fits. -/
  loops : ∀ generation loop,state.loops generation=some loop →
    LoopFits bs58 state.system generation loop

end Invariants

section Plain

variable {system : State H} {action : Action H}

/-- A plain step does not touch the registry. -/
theorem registry_plain (hplain : isPlain action=true) (henabled : Enabled system action) :
    (next system action).registry=system.registry := by
  cases action with
  | connectFailed => cases hplain
  | receiveCommand => cases hplain
  | recordConnection =>
    obtain ⟨_,_,hnext⟩ := next_recordConnection henabled
    rw [hnext]
  | receiveEvent accepted =>
    obtain ⟨_,_,_,hnext⟩ := next_receiveEvent henabled
    rw [hnext]
  | sendEvent generation =>
    obtain ⟨_,_,hnext⟩ := next_sendEvent henabled
    rw [hnext]
    rfl
  | _ => rfl

/-- A plain step leaves a processor that dispatches where it is. -/
theorem dispatching_plain (hplain : isPlain action=true) (henabled : Enabled system action)
    {generation : Generation} {event : SubscriptionEvent}
    (hphase : system.processors generation=.dispatching event) :
    (next system action).processors generation=.dispatching event := by
  rw [←hphase]
  refine processor_unmoved henabled fun phase hmoved => ?_
  cases action with
  | receiveItem other item =>
    obtain rfl : other=generation := congrArg Prod.fst (Option.some.inj hmoved)
    cases hphase.symm.trans henabled
  | endOfStream other =>
    obtain rfl : other=generation := congrArg Prod.fst (Option.some.inj hmoved)
    cases hphase.symm.trans henabled
  | sendEvent other =>
    obtain ⟨sent,hsending,_⟩ := next_sendEvent henabled
    simp only [movedBy,hsending] at hmoved
    obtain rfl : other=generation := congrArg Prod.fst (Option.some.inj hmoved)
    cases hphase.symm.trans hsending
  | connectSucceeded order => cases hplain
  | dispatch other order outcome => cases hplain
  | _ => cases hmoved

end Plain

section Keeping

variable {bs58 : Bytes → String} {state : LockedState H}

/-- Where a write guard is held nobody dispatches. -/
theorem Consistent.no_loop (h : Consistent bs58 state) (hreaders : state.lock.readers=∅)
    (generation : Generation) : state.loops generation=none := by
  rw [←Option.not_isSome_iff_eq_none,←h.processorReads,hreaders]
  exact Finset.notMem_empty _

/-- Where the manager writes nobody reads. -/
theorem Consistent.readers_of_writes (h : Consistent bs58 state) (hwrites : state.stage.writes=true) :
    state.lock.readers=∅ ∧ state.lock.writer=some .manager := by
  have hwriter := h.writer
  rw [hwrites,if_pos rfl] at hwriter
  refine ⟨state.lock.exclusive ?_,hwriter⟩
  rw [hwriter]
  rfl

/-- Where a processor dispatches the manager does not write. -/
theorem Consistent.writes_of_loop (h : Consistent bs58 state) {generation : Generation}
    {loop : Loop H} (hloop : state.loops generation=some loop) : state.stage.writes=false := by
  refine Bool.eq_false_iff.mpr fun hwrites => ?_
  have hnone := h.no_loop (h.readers_of_writes hwrites).1 generation
  rw [hloop] at hnone
  cases hnone

/-- What a processor has called fits as long as what is registered and its event
stay. -/
theorem LoopFits.keep {system system' : State H} {generation : Generation} {loop : Loop H}
    (h : LoopFits bs58 system generation loop)
    (hsubs : system'.registry.subscriptions=system.registry.subscriptions)
    (hphase : ∀ event,system.processors generation=.dispatching event →
      system'.processors generation=.dispatching event) :
    LoopFits bs58 system' generation loop := by
  obtain ⟨event,passed,hevent,hcalls⟩ := h.calls
  refine ⟨?_,event,passed,hphase event hevent,hcalls⟩
  rw [hsubs]
  exact h.order

/-- A step of the manager that takes and gives back no guard and leaves
`subscriptions` alone. -/
theorem Consistent.move (h : Consistent bs58 state) {system : State H} {stage : Stage H}
    (hwrites : stage.writes=state.stage.writes) (hreads : stage.reads=state.stage.reads)
    (hcapacity : system.commands.length ≤ channelCapacity) (hfits : StageFits system stage)
    (hsubs : system.registry.subscriptions=state.system.registry.subscriptions)
    (hphase : ∀ generation event,state.system.processors generation=.dispatching event →
      system.processors generation=.dispatching event) :
    Consistent bs58 { state with system := system, stage := stage } where
  writer := by
    change state.lock.writer=if stage.writes then some .manager else none
    rw [hwrites]
    exact h.writer
  managerReads := by
    change .manager∈state.lock.readers ↔ stage.reads=true
    rw [hreads]
    exact h.managerReads
  processorReads := h.processorReads
  capacity := hcapacity
  stage := hfits
  loops := fun generation loop hloop => (h.loops generation loop hloop).keep hsubs (hphase generation)

/-- What the manager has collected fits as long as its phase and the registry
stay. -/
theorem StageFits.keep {system system' : State H} {stage : Stage H} (h : StageFits system stage)
    (hmanager : system'.manager=system.manager) (hregistry : system'.registry=system.registry) :
    StageFits system' stage := by
  cases stage with
  | outside => trivial
  | _ =>
    simp only [StageFits,hmanager,hregistry] at h ⊢
    exact h

theorem consistent_plain (h : Consistent bs58 state) {action : Action H}
    (henabled : LockedEnabled state (.plain action)) :
    Consistent bs58 (lockedNext bs58 state (.plain action)) := by
  obtain ⟨hplain,hstep,houtside⟩ := henabled
  have hregistry := registry_plain hplain hstep
  refine h.move rfl rfl (commands_within_next hstep h.capacity) ?_
    (congrArg Registry.subscriptions hregistry)
    (fun generation event hphase => dispatching_plain hplain hstep hphase)
  by_cases hmanager : isManagerStep action=true
  · rw [eq_outside (houtside hmanager)]
    trivial
  · exact h.stage.keep (manager_other hstep (Bool.eq_false_iff.mpr hmanager)) hregistry

theorem consistent_attemptFailed (h : Consistent bs58 state)
    (henabled : LockedEnabled state .attemptFailed) :
    Consistent bs58 (lockedNext bs58 state .attemptFailed) := by
  have hguards : state.stage.writes=false ∧ state.stage.reads=false := by
    have hfail := henabled.2
    cases hstage : state.stage with
    | outside => exact ⟨rfl,rfl⟩
    | built order request => exact ⟨rfl,rfl⟩
    | _ =>
      rw [hstage] at hfail
      cases hfail
  exact h.move hguards.1.symm hguards.2.symm h.capacity trivial rfl fun _ _ hphase => hphase

theorem consistent_takeCommand (h : Consistent bs58 state)
    (henabled : LockedEnabled state .takeCommand) :
    Consistent bs58 (lockedNext bs58 state .takeCommand) := by
  have houtside := eq_outside henabled.2
  obtain ⟨command,rest,hcommands,hshape⟩ := next_takeCommand bs58 henabled
  have hcapacity := h.capacity
  rw [hcommands,List.length_cons] at hcapacity
  have hrest : rest.length ≤ channelCapacity := Nat.le_of_succ_le hcapacity
  rcases hshape with ⟨_,hnext⟩|⟨stage,htaken,hnext⟩
  · rw [hnext]
    refine h.move rfl rfl hrest ?_ rfl fun _ _ hphase => hphase
    rw [houtside]
    trivial
  · rw [hnext]
    have hfits : StageFits { state.system with commands := rest } stage ∧ stage.writes=false ∧
        stage.reads=false := by
      cases command with
      | shutdown => cases htaken
      | _ =>
        cases htaken
        exact ⟨henabled.1.1,rfl,rfl⟩
    refine h.move ?_ ?_ hrest hfits.1 rfl fun _ _ hphase => hphase
    · rw [houtside]
      exact hfits.2.1
    · rw [houtside]
      exact hfits.2.2

theorem consistent_listIds (h : Consistent bs58 state) {subIds : List SubscriptionId}
    (henabled : LockedEnabled state (.listIds subIds)) :
    Consistent bs58 (lockedNext bs58 state (.listIds subIds)) := by
  obtain ⟨clientId,hstage,hids,hnext⟩ := next_listIds bs58 henabled
  have hfits := h.stage
  rw [hstage] at hfits
  rw [hnext]
  refine h.move ?_ ?_ h.capacity ⟨hfits,hids⟩ rfl fun _ _ hphase => hphase
  · rw [hstage]
    rfl
  · rw [hstage]
    rfl

/-- A command whose writing begins comes from one that waits for the guard. -/
theorem begun_cases {system : State H} {stage stage' : Stage H} (h : stage.begun=some stage')
    (hfits : StageFits system stage) :
    stage'.writes=true ∧ stage'.reads=false ∧ StageFits system stage' := by
  cases stage with
  | adding subscription =>
    cases h
    exact ⟨rfl,rfl,hfits⟩
  | removing subId =>
    cases h
    exact ⟨rfl,rfl,hfits⟩
  | clearing clientId subIds =>
    cases h
    exact ⟨rfl,rfl,hfits.1⟩
  | _ => cases h

theorem consistent_acquire (h : Consistent bs58 state) (henabled : LockedEnabled state .acquire) :
    Consistent bs58 (lockedNext bs58 state .acquire) := by
  obtain ⟨stage,hbegun,hfree,hnext⟩ := next_acquire bs58 henabled
  obtain ⟨hwrites,hreads,hfits⟩ := begun_cases hbegun h.stage
  have hnone := h.no_loop hfree.2
  rw [hnext]
  refine ⟨?_,?_,?_,h.capacity,hfits,?_⟩
  · change (state.lock.write .manager).writer=if stage.writes then some .manager else none
    rw [RwLock.writer_write hfree,hwrites]
    rfl
  · change .manager∈(state.lock.write .manager).readers ↔ stage.reads=true
    rw [RwLock.readers_write hfree,hreads]
    exact ⟨fun hmem => absurd hmem (Finset.notMem_empty _),fun hfalse => by cases hfalse⟩
  · intro generation
    change .processor generation∈(state.lock.write .manager).readers ↔ _
    rw [RwLock.readers_write hfree,hnone]
    exact ⟨fun hmem => absurd hmem (Finset.notMem_empty _),fun hfalse => by cases hfalse⟩
  · intro generation loop hloop
    rw [hnone] at hloop
    cases hloop

/-- What a write under the guard leads to. -/
theorem written_cases {system : State H} {stage stage' : Stage H} {subs subs' : SubscriptionMap H}
    (h : stage.written subs=some (subs',stage')) (hfits : StageFits system stage) :
    stage.writes=true ∧ stage'.reads=false ∧ system.manager.phase=.selecting ∧
      ∀ later : State H,later.manager=system.manager → StageFits later stage' := by
  cases stage with
  | inserting subscription =>
    cases h
    exact ⟨rfl,rfl,hfits,fun later hsame => (congrArg Manager.phase hsame).trans hfits⟩
  | erasing subId =>
    obtain ⟨rfl,hstage⟩ := Prod.mk.inj (Option.some.inj h)
    cases hlookup : subs.lookup subId with
    | none =>
      simp only [hlookup] at hstage
      subst hstage
      exact ⟨rfl,rfl,hfits,fun later hsame =>
        ⟨(congrArg Manager.phase hsame).trans hfits,fun hsame => by cases hsame⟩⟩
    | some removed =>
      simp only [hlookup] at hstage
      subst hstage
      exact ⟨rfl,rfl,hfits,fun later hsame => (congrArg Manager.phase hsame).trans hfits⟩
  | erasingEach clientId subIds rest =>
    cases rest with
    | nil =>
      cases h
      exact ⟨rfl,rfl,hfits,fun later hsame => (congrArg Manager.phase hsame).trans hfits⟩
    | cons subId rest =>
      cases h
      exact ⟨rfl,rfl,hfits,fun later hsame => (congrArg Manager.phase hsame).trans hfits⟩
  | _ => cases h

theorem consistent_write (h : Consistent bs58 state) (henabled : LockedEnabled state .write) :
    Consistent bs58 (lockedNext bs58 state .write) := by
  obtain ⟨subs,stage,hwritten,hnext⟩ := next_write bs58 henabled
  obtain ⟨hwrites,hreads,_,hfits⟩ := written_cases hwritten h.stage
  obtain ⟨hreaders,hwriter⟩ := h.readers_of_writes hwrites
  have hnone := h.no_loop hreaders
  have hkept : ((state.setSubscriptions subs).leaveFor stage).lock.readers=∅ := by
    change (if stage.writes then state.lock else state.lock.release .manager).readers=∅
    split
    · exact hreaders
    · exact (congrArg (·.erase Holder.manager) hreaders).trans (Finset.erase_empty _)
  rw [hnext]
  refine ⟨?_,?_,?_,h.capacity,hfits _ rfl,?_⟩
  · change (if stage.writes then state.lock else state.lock.release .manager).writer=
      if stage.writes then some .manager else none
    split
    · exact hwriter
    · exact RwLock.writer_release hwriter
  · rw [hkept]
    rw [show ((state.setSubscriptions subs).leaveFor stage).stage.reads=false from hreads]
    exact ⟨fun hmem => absurd hmem (Finset.notMem_empty _),fun hfalse => by cases hfalse⟩
  · intro generation
    rw [hkept]
    rw [show ((state.setSubscriptions subs).leaveFor stage).loops generation=none from
      hnone generation]
    exact ⟨fun hmem => absurd hmem (Finset.notMem_empty _),fun hfalse => by cases hfalse⟩
  · intro generation loop hloop
    change state.loops generation=some loop at hloop
    rw [hnone] at hloop
    cases hloop

/-- What a write to the index leads to. -/
theorem indexed_cases {system : State H} {registry : Registry H} {stage stage' : Stage H}
    {clientSubs : Finmap fun _ : String => Finset SubscriptionId}
    (h : stage.indexed registry=some (clientSubs,stage')) (hfits : StageFits system stage) :
    stage.writes=false ∧ stage.reads=false ∧ system.manager.phase=.selecting ∧
      ∃ command flagged,stage'=.handled command flagged ∧ command≠.shutdown := by
  cases stage with
  | indexing subscription =>
    cases h
    exact ⟨rfl,rfl,hfits,_,_,rfl,fun hsame => by cases hsame⟩
  | unlisting clientId subId =>
    cases h
    exact ⟨rfl,rfl,hfits,_,_,rfl,fun hsame => by cases hsame⟩
  | unindexing clientId subIds =>
    cases h
    exact ⟨rfl,rfl,hfits,_,_,rfl,fun hsame => by cases hsame⟩
  | _ => cases h

theorem consistent_index (h : Consistent bs58 state) (henabled : LockedEnabled state .index) :
    Consistent bs58 (lockedNext bs58 state .index) := by
  obtain ⟨clientSubs,stage,hindexed,hnext⟩ := next_index bs58 henabled
  obtain ⟨hwrites,hreads,hphase,command,flagged,rfl,hcommand⟩ := indexed_cases hindexed h.stage
  rw [hnext]
  exact h.move hwrites.symm hreads.symm h.capacity ⟨hphase,hcommand⟩ rfl fun _ _ hstill => hstill

theorem consistent_finishCommand (h : Consistent bs58 state)
    (henabled : LockedEnabled state .finishCommand) :
    Consistent bs58 (lockedNext bs58 state .finishCommand) := by
  obtain ⟨command,flagged,hstage,hnext⟩ := next_finishCommand bs58 henabled
  rw [hnext]
  refine h.move ?_ ?_ h.capacity trivial rfl fun _ _ hphase => hphase
  · rw [hstage]
    rfl
  · rw [hstage]
    rfl

theorem consistent_startBuilding (h : Consistent bs58 state) {order : List (Subscription H)}
    (henabled : LockedEnabled state (.startBuilding order)) :
    Consistent bs58 (lockedNext bs58 state (.startBuilding order)) := by
  obtain ⟨hphase,_,hfree,horder⟩ := henabled
  refine ⟨RwLock.writer_read hfree,?_,?_,h.capacity,⟨hphase,horder,[],rfl,rfl⟩,h.loops⟩
  · change .manager∈(state.lock.read .manager).readers ↔ true=true
    rw [RwLock.readers_read hfree]
    exact ⟨fun _ => rfl,fun _ => Finset.mem_insert_self _ _⟩
  · intro generation
    change .processor generation∈(state.lock.read .manager).readers ↔ _
    rw [RwLock.readers_read hfree,Finset.mem_insert,h.processorReads]
    exact or_iff_right fun hsame => by cases hsame

/-- The finished maps make up the request. -/
theorem requestOfMaps_foldl (order : List (Subscription H)) :
    requestOfMaps (order.foldl applyToRequest .empty)=buildSubscribeRequest order := rfl

theorem consistent_apply (h : Consistent bs58 state) (henabled : LockedEnabled state .apply) :
    Consistent bs58 (lockedNext bs58 state .apply) := by
  have hfits := h.stage
  obtain ⟨order,maps,⟨subscription,rest,hstage,hnext⟩|⟨hstage,hnext⟩⟩ := next_apply bs58 henabled
  · rw [hstage] at hfits
    obtain ⟨hphase,horder,applied,hsplit,hmaps⟩ := hfits
    rw [hnext]
    refine h.move ?_ ?_ h.capacity ⟨hphase,horder,applied++[subscription],?_,?_⟩ rfl
      fun _ _ hstill => hstill
    · rw [hstage]
      rfl
    · rw [hstage]
      rfl
    · rw [hsplit,List.append_assoc]
      rfl
    · rw [hmaps,List.foldl_append]
      rfl
  · rw [hstage] at hfits
    obtain ⟨hphase,horder,applied,hsplit,hmaps⟩ := hfits
    have hmem : Holder.manager∈state.lock.readers := by
      rw [h.managerReads,hstage]
      rfl
    rw [hnext]
    refine ⟨RwLock.writer_release_of_mem hmem,?_,?_,h.capacity,⟨hphase,horder,?_⟩,h.loops⟩
    · change .manager∈(state.lock.release .manager).readers ↔ false=true
      rw [RwLock.mem_readers_release]
      exact ⟨fun hboth => absurd rfl hboth.1,fun hfalse => by cases hfalse⟩
    · intro generation
      change .processor generation∈(state.lock.release .manager).readers ↔ _
      rw [RwLock.mem_readers_release,h.processorReads]
      exact and_iff_right fun hsame => by cases hsame
    · rw [hmaps,hsplit,List.append_nil,requestOfMaps_foldl]

theorem consistent_subscribed (h : Consistent bs58 state)
    (hfresh : state.system.processors state.system.nextGeneration=.unspawned)
    (henabled : LockedEnabled state .subscribed) :
    Consistent bs58 (lockedNext bs58 state .subscribed) := by
  obtain ⟨order,request,hstage,_,hnext⟩ := next_subscribed bs58 henabled
  rw [hnext]
  refine h.move ?_ ?_ h.capacity trivial rfl ?_
  · rw [hstage]
    rfl
  · rw [hstage]
    rfl
  · intro generation event hphase
    have hother : generation≠state.system.nextGeneration := by
      intro hsame
      rw [hsame,hfresh] at hphase
      cases hphase
    exact (Function.update_of_ne hother _ _).trans hphase

theorem consistent_updated (h : Consistent bs58 state) {accepted : Bool}
    (henabled : LockedEnabled state (.updated accepted)) :
    Consistent bs58 (lockedNext bs58 state (.updated accepted)) := by
  obtain ⟨order,request,hstage,_,hnext⟩ := next_updated bs58 henabled
  rw [hnext]
  refine h.move ?_ ?_ h.capacity trivial rfl fun _ _ hphase => hphase
  · rw [hstage]
    rfl
  · rw [hstage]
    rfl

/-- A processor takes, keeps or gives back its read guard. -/
theorem processorReads_update {loops : Generation → Option (Loop H)} {before after : Finset Holder}
    (h : ∀ generation,.processor generation∈before ↔ (loops generation).isSome=true)
    {moved : Generation} {loop : Option (Loop H)}
    (hother : ∀ generation,generation≠moved →
      (Holder.processor generation∈after ↔ .processor generation∈before))
    (hmoved : .processor moved∈after ↔ loop.isSome=true) (generation : Generation) :
    .processor generation∈after ↔ (Function.update loops moved loop generation).isSome=true := by
  by_cases hsame : generation=moved
  · subst hsame
    rw [Function.update_self]
    exact hmoved
  · rw [Function.update_of_ne hsame,hother generation hsame]
    exact h generation

/-- What the processors have called fits if it fits for the one that moves. -/
theorem loops_update {system : State H} {loops : Generation → Option (Loop H)}
    (h : ∀ generation loop,loops generation=some loop → LoopFits bs58 system generation loop)
    {moved : Generation} {moving : Option (Loop H)}
    (hmoved : ∀ loop,moving=some loop → LoopFits bs58 system moved loop) (generation : Generation)
    (loop : Loop H) (hloop : Function.update loops moved moving generation=some loop) :
    LoopFits bs58 system generation loop := by
  by_cases hsame : generation=moved
  · subst hsame
    rw [Function.update_self] at hloop
    exact hmoved loop hloop
  · rw [Function.update_of_ne hsame] at hloop
    exact h generation loop hloop

theorem consistent_startDispatch (h : Consistent bs58 state) {generation : Generation}
    {order : List (Subscription H)} (henabled : LockedEnabled state (.startDispatch generation order)) :
    Consistent bs58 (lockedNext bs58 state (.startDispatch generation order)) := by
  obtain ⟨⟨event,hphase⟩,_,hfree,horder⟩ := next_startDispatch henabled
  have hreaders : (lockedNext bs58 state (.startDispatch generation order)).lock.readers=
      insert (.processor generation) state.lock.readers := RwLock.readers_read hfree
  refine ⟨?_,?_,?_,h.capacity,h.stage,?_⟩
  · exact (RwLock.writer_read hfree).trans (hfree.symm.trans h.writer)
  · rw [hreaders,Finset.mem_insert,h.managerReads]
    exact or_iff_right fun hsame => by cases hsame
  · refine processorReads_update h.processorReads (fun other hother => ?_) ?_
    · rw [hreaders,Finset.mem_insert]
      exact or_iff_right fun hsame => hother (Holder.processor.inj hsame)
    · rw [hreaders]
      exact ⟨fun _ => rfl,fun _ => Finset.mem_insert_self _ _⟩
  · refine loops_update h.loops fun loop hloop => ?_
    obtain rfl := Option.some.inj hloop
    exact ⟨horder,event,[],hphase,rfl,rfl,fun call hcall => absurd hcall List.not_mem_nil⟩

theorem consistent_iterate (h : Consistent bs58 state) {generation : Generation}
    {outcome : Except String Unit} (henabled : LockedEnabled state (.iterate generation outcome)) :
    Consistent bs58 (lockedNext bs58 state (.iterate generation outcome)) := by
  obtain ⟨order,subscription,rest,calls,hloop,hnext⟩ := next_iterate bs58 henabled
  obtain ⟨horder,event,passed,hphase,hsplit,hcalls,hevents⟩ := h.loops generation _ hloop
  have hreads : .processor generation∈state.lock.readers := by
    rw [h.processorReads,hloop]
    rfl
  rw [hnext event hphase]
  refine ⟨h.writer,h.managerReads,?_,h.capacity,h.stage,?_⟩
  · exact processorReads_update h.processorReads (fun _ _ => Iff.rfl)
      ⟨fun _ => rfl,fun _ => hreads⟩
  · refine loops_update h.loops fun loop hmoved => ?_
    obtain rfl := Option.some.inj hmoved
    refine ⟨horder,event,passed++[subscription],hphase,?_,?_,?_⟩
    · change order=passed++[subscription]++rest
      rw [List.append_assoc]
      exact hsplit
    · rw [List.map_append,hcalls,List.filter_append,List.filter_cons,tried]
      split <;> rfl
    · intro call hcall
      rcases List.mem_append.mp hcall with hbefore|hlast
      · exact hevents call hbefore
      · unfold tried at hlast
        split at hlast
        · rw [List.mem_singleton.mp hlast]
        · exact absurd hlast List.not_mem_nil

theorem consistent_endDispatch (h : Consistent bs58 state) {generation : Generation}
    (henabled : LockedEnabled state (.endDispatch generation)) :
    Consistent bs58 (lockedNext bs58 state (.endDispatch generation)) := by
  obtain ⟨order,calls,hloop⟩ := next_endDispatch henabled
  have hmem : .processor generation∈state.lock.readers := by
    rw [h.processorReads,hloop]
    rfl
  refine ⟨?_,?_,?_,h.capacity,h.stage.keep rfl rfl,?_⟩
  · have hnone : state.lock.writer=none := RwLock.canRead_of_mem hmem
    exact (RwLock.writer_release_of_mem hmem).trans (hnone.symm.trans h.writer)
  · change .manager∈(state.lock.release _).readers ↔ _
    rw [RwLock.mem_readers_release,h.managerReads]
    exact and_iff_right fun hsame => by cases hsame
  · refine processorReads_update h.processorReads (fun other hother => ?_) ?_
    · change .processor other∈(state.lock.release _).readers ↔ _
      rw [RwLock.mem_readers_release]
      exact and_iff_right fun hsame => hother (Holder.processor.inj hsame)
    · change .processor generation∈(state.lock.release _).readers ↔ false=true
      rw [RwLock.mem_readers_release]
      exact ⟨fun hboth => absurd rfl hboth.1,fun hfalse => by cases hfalse⟩
  · intro other loop hother
    change Function.update state.loops generation none other=some loop at hother
    have hne : other≠generation := by
      intro hsame
      rw [hsame,Function.update_self] at hother
      cases hother
    rw [Function.update_of_ne hne] at hother
    refine (h.loops other loop hother).keep rfl fun event hphase => ?_
    exact (Function.update_of_ne hne _ _).trans hphase

/-- Every step keeps it clear who is where and holds what. -/
theorem Consistent.next (h : Consistent bs58 state)
    (hfresh : state.system.processors state.system.nextGeneration=.unspawned)
    {action : LockedAction H} (henabled : LockedEnabled state action) :
    Consistent bs58 (lockedNext bs58 state action) := by
  cases action with
  | plain action => exact consistent_plain h henabled
  | attemptFailed => exact consistent_attemptFailed h henabled
  | takeCommand => exact consistent_takeCommand h henabled
  | listIds subIds => exact consistent_listIds h henabled
  | acquire => exact consistent_acquire h henabled
  | write => exact consistent_write h henabled
  | index => exact consistent_index h henabled
  | finishCommand => exact consistent_finishCommand h henabled
  | startBuilding order => exact consistent_startBuilding h henabled
  | apply => exact consistent_apply h henabled
  | subscribed => exact consistent_subscribed h hfresh henabled
  | updated accepted => exact consistent_updated h henabled
  | startDispatch generation order => exact consistent_startDispatch h henabled
  | iterate generation outcome => exact consistent_iterate h henabled
  | endDispatch generation => exact consistent_endDispatch h henabled

end Keeping

end SteamHandler.LockGuards
