import SteamHandler.EndToEnd
import SteamHandler.FairRuns
import SteamHandler.RowOrigins

/-!
# The program under a fair runtime

The deployed program contains the manager's system, and with it all that comes
about there. On top of this, while the program stays up, the table gets every row that
a stream item is worth, as long as the monitor's subscription is registered and the
database does its work; and from Ctrl+C on the program gets to its end, whatever it
was doing.
-/

namespace SteamHandler.FairProgram

open Messages Subscriptions Database Deployment Recording EndToEnd FairRuns Behaviours
open TransitionSystem
open RowOrigins (ownSubscription setup_of_next)
open ConnectionManager (Generation ProcessorPhase dispatching_of_dispatch next_sendEvent)

variable {bs58 : Bytes → String} {settings : TransactionMonitorSettings}

/-- What is asked of the runtime for the tasks of the program. -/
structure FairTasks (run : Behaviour (deployment bs58 settings)) : Prop where
  /-- It is fair to the manager's system. -/
  system : FairRuntime (run.along (managed bs58 settings))
  /-- A processor gets to call the handlers. -/
  dispatch : ∀ generation,run.WeaklyFair fun action =>
    ∃ order outcome,action=.system (.dispatch generation order outcome)
  /-- A handler task gets to run. -/
  start : ∀ task,run.WeaklyFair fun action => ∃ now,action=.startTask task now
  /-- Its insertion ends. -/
  insert : ∀ task,run.WeaklyFair fun action => ∃ succeeds,action=.insertPool task succeeds
  /-- So does the marking. -/
  mark : run.WeaklyFair fun action => ∃ succeeds,action=.markAllPoolsInactive succeeds
  /-- The main task gets its turn at the command channel, to add its subscription. -/
  setUp : run.StronglyFair fun action => action=.setup
  /-- And again, to shut down. -/
  request : run.StronglyFair fun action => action=.requestShutdown
  /-- It gets to return. -/
  finish : run.WeaklyFair fun action => action=.finishRun

section Steps

variable {state : State} {action : Action}

/-- A task stays until it starts or its insertion ends. -/
theorem task_next (henabled : Enabled bs58 settings state action) {task : PoolTask}
    (hmem : task∈state.tasks) (hstart : ∀ now,action≠.startTask task now)
    (hinsert : ∀ succeeds,action≠.insertPool task succeeds) :
    task∈(next bs58 settings state action).tasks := by
  cases action with
  | system performed => exact List.mem_append_left _ hmem
  | startTask other now =>
    have hne : task≠other := fun hsame => hstart now (by rw [hsame])
    cases hstage : other.stage with
    | spawned event =>
      simp only [next,hstage]
      exact List.mem_append_left _ ((List.mem_erase_of_ne hne).mpr hmem)
    | inserting signature poolAddress mintAddress rawTx =>
      simp only [next,hstage]
      exact hmem
  | insertPool other succeeds =>
    have hne : task≠other := fun hsame => hinsert succeeds (by rw [hsame])
    cases hstage : other.stage with
    | spawned event =>
      simp only [next,hstage]
      exact hmem
    | inserting signature poolAddress mintAddress rawTx =>
      simp only [next,hstage]
      exact (List.mem_erase_of_ne hne).mpr hmem
  | _ => exact hmem

/-- The log of insertions only grows. -/
theorem inserted_next (state : State) (action : Action) :
    state.inserted<+:(next bs58 settings state action).inserted := by
  cases action with
  | startTask task now =>
    cases hstage : task.stage <;> simp only [next,hstage] <;> exact List.prefix_refl _
  | insertPool task succeeds =>
    cases hstage : task.stage with
    | spawned event =>
      simp only [next,hstage]
      exact List.prefix_refl _
    | inserting signature poolAddress mintAddress rawTx =>
      cases succeeds with
      | false =>
        simp only [next,hstage,Bool.false_eq_true,if_false]
        exact List.prefix_refl _
      | true =>
        simp only [next,hstage,if_true]
        exact List.prefix_append _ _
  | _ => exact List.prefix_refl _

/-- A processor that dispatches is moved by its dispatch alone. -/
theorem dispatching_next (hreach : (deployment bs58 settings).Reachable state)
    (henabled : Enabled bs58 settings state action) {generation : Generation}
    (hother : ¬∃ order outcome,action=.system (.dispatch generation order outcome))
    {event : SubscriptionEvent}
    (hdispatching : state.system.processors generation=.dispatching event) :
    (next bs58 settings state action).system.processors generation=.dispatching event := by
  cases action with
  | system performed =>
    have hkept := @busy_next Handler state.system performed ((managed bs58 settings).reachable hreach)
      henabled.1 generation
    rw [hdispatching] at hkept
    refine hkept (fun h => by cases h) (fun h => by cases h) (fun hsame => ?_)
      fun order outcome hsame => hother ⟨order,outcome,by rw [hsame]⟩
    have hsend := henabled.1
    rw [hsame] at hsend
    obtain ⟨sent,hsending,_⟩ := next_sendEvent hsend
    cases hdispatching.symm.trans hsending
  | startTask task now =>
    cases hstage : task.stage <;> simp only [next,hstage] <;> exact hdispatching
  | insertPool task succeeds =>
    cases hstage : task.stage <;> simp only [next,hstage] <;> exact hdispatching
  | requestShutdown =>
    have hsame : (next bs58 settings state .requestShutdown).system.processors=
        state.system.processors := by
      unfold next
      dsimp only
      split <;> rfl
    rw [hsame]
    exact hdispatching
  | _ => exact hdispatching

end Steps

section Recorded

variable {run : Behaviour (deployment bs58 settings)} {origin : Origin}

/-- Insertions are not taken back. -/
theorem insertedKeys_later (origin : Origin) {first later : ℕ} (hle : first ≤ later) :
    insertedKeys origin (run.state first).inserted<+:
      insertedKeys origin (run.state later).inserted := by
  have hlog : (run.state first).inserted<+:(run.state later).inserted :=
    run.kept (P:=fun state : State => (run.state first).inserted<+:state.inserted)
      (List.prefix_refl _)
      (fun _ performed _ _ _ hbefore => hbefore.trans (inserted_next _ performed)) hle
  exact (hlog.filter _).map _

variable (hfair : FairTasks run)

include hfair

/-- A task that awaits its insertion inserts its row, if insertions succeed. -/
theorem inserting_inserted
    (hsucceeds : ∀ moment task succeeds,run.action moment=some (.insertPool task succeeds) →
      succeeds=true) {first : ℕ} {task : PoolTask} (hmem : task∈(run.state first).tasks)
    {signature poolAddress mintAddress : String} {rawTx : RawTransaction}
    (hstage : task.stage=.inserting signature poolAddress mintAddress rawTx) :
    ∃ moment,first ≤ moment ∧ (run.state (moment+1)).inserted=(run.state moment).inserted++
      [(task.origin,⟨signature,poolAddress,mintAddress,rawTx,true,none⟩)] := by
  obtain ⟨moment,hle,⟨performed,haction,succeeds,rfl⟩,_⟩ := (hfair.insert task).leads
    (P:=fun state : State => task∈state.tasks) hmem
    (fun moment performed _ _ henabled hother hstill => by
      refine task_next henabled hstill (fun now hsame => ?_)
        fun succeeds hsame => hother ⟨succeeds,hsame⟩
      rw [hsame] at henabled
      have hfresh := henabled.2
      rw [hstage] at hfresh
      exact hfresh)
    (fun moment _ hstill => by
      refine ⟨.insertPool task true,⟨hstill,?_⟩,true,rfl⟩
      rw [hstage]
      trivial)
  obtain ⟨_,hnext⟩ := run.taken moment _ haction
  refine ⟨moment,hle,?_⟩
  rw [hnext,hsucceeds moment task succeeds haction]
  change (next bs58 settings (run.state moment) (.insertPool task true)).inserted=_
  simp only [next,hstage,if_true]

/-- A fresh task runs up to its insertion, if it has one to make. -/
theorem spawned_starts {first : ℕ} {task : PoolTask} (hmem : task∈(run.state first).tasks)
    {event : SubscriptionEvent} (hstage : task.stage=.spawned event) :
    ∃ moment now,first ≤ moment ∧ ∀ started,task.start bs58 event now=some started →
      started∈(run.state (moment+1)).tasks := by
  obtain ⟨moment,hle,⟨performed,haction,now,rfl⟩,_⟩ := (hfair.start task).leads
    (P:=fun state : State => task∈state.tasks) hmem
    (fun moment performed _ _ henabled hother hstill => by
      refine task_next henabled hstill (fun now hsame => hother ⟨now,hsame⟩)
        fun succeeds hsame => ?_
      rw [hsame] at henabled
      have hready := henabled.2
      rw [hstage] at hready
      exact hready)
    (fun moment _ hstill => by
      refine ⟨.startTask task 0,⟨hstill,?_⟩,0,rfl⟩
      rw [hstage]
      trivial)
  obtain ⟨_,hnext⟩ := run.taken moment _ haction
  refine ⟨moment,now,hle,fun started hstarted => ?_⟩
  rw [hnext]
  change started∈(next bs58 settings (run.state moment) (.startTask task now)).tasks
  simp only [next,hstage,hstarted]
  exact List.mem_append_right _ List.mem_cons_self

/-- A row that is due is inserted, if insertions succeed. -/
theorem due_inserted
    (hsucceeds : ∀ moment task succeeds,run.action moment=some (.insertPool task succeeds) →
      succeeds=true) {first : ℕ} {key : RowKey}
    (hdue : key∈dueKeys bs58 origin (run.state first).tasks) :
    ∃ moment,first ≤ moment ∧ (insertedKeys origin (run.state first).inserted).count key <
      (insertedKeys origin (run.state moment).inserted).count key := by
  -- An insertion of the key by a task of the origin adds to the count.
  have hadds : ∀ later,first ≤ later → ∀ task∈(run.state later).tasks,task.origin=origin →
      ∀ rawTx,task.stage=.inserting key.signature key.poolAddress key.tokenMint rawTx →
      ∃ moment,first ≤ moment ∧ (insertedKeys origin (run.state first).inserted).count key <
        (insertedKeys origin (run.state moment).inserted).count key := by
    intro later hlater task hmem horigin rawTx hstage
    obtain ⟨moment,hle,hinserted⟩ := inserting_inserted hfair hsucceeds hmem hstage
    refine ⟨moment+1,hlater.trans (hle.trans (Nat.le_succ _)),?_⟩
    have hbefore := (@insertedKeys_later _ _ run origin _ _ (hlater.trans hle)).sublist.count_le key
    have hone : (insertedKeys origin [(task.origin,
        ⟨key.signature,key.poolAddress,key.tokenMint,rawTx,true,none⟩)]).count key=1 := by
      rw [insertedKeys,List.filter_singleton,decide_eq_true horigin]
      exact List.count_singleton_self
    rw [hinserted,insertedKeys_append,List.count_append,hone]
    omega
  obtain ⟨task,hmem,hexpected⟩ := List.mem_filterMap.mp hdue
  obtain ⟨htask,howned⟩ := List.mem_filter.mp hmem
  have horigin : task.origin=origin := of_decide_eq_true howned
  cases hstage : task.stage with
  | inserting signature poolAddress mintAddress rawTx =>
    simp only [expected,hstage,Option.some.injEq] at hexpected
    subst hexpected
    exact hadds first (Nat.le_refl _) task htask horigin rawTx hstage
  | spawned event =>
    simp only [expected,hstage] at hexpected
    obtain ⟨moment,now,hle,hstarted⟩ := spawned_starts hfair htask hstage
    rcases start_cases bs58 task event now with
      ⟨_,hworth⟩|⟨signature,poolAddress,mintAddress,rawTx,hstart,hworth⟩
    · rw [hworth] at hexpected
      cases hexpected
    · rw [hworth] at hexpected
      obtain rfl := Option.some.inj hexpected
      exact hadds (moment+1) (hle.trans (Nat.le_succ _)) _ (hstarted _ hstart) horigin rawTx rfl

/-- A processor that has an event to dispatch dispatches it. -/
theorem event_dispatched {first : ℕ} {generation : Generation} {event : SubscriptionEvent}
    (hdispatching : (run.state first).system.processors generation=.dispatching event) :
    ∃ moment,first ≤ moment ∧ (run.state moment).system.processors generation=.reading := by
  obtain ⟨moment,hle,⟨performed,haction,order,outcome,rfl⟩,_⟩ := (hfair.dispatch generation).leads
    (P:=fun state : State => state.system.processors generation=.dispatching event) hdispatching
    (fun moment performed _ _ henabled hother hstill =>
      dispatching_next (run.reachable moment) henabled hother hstill)
    (fun moment _ hstill => by
      obtain ⟨order,horder⟩ :=
        (run.state moment).system.registry.subscriptions.exists_iterationOrder
      refine ⟨.system (.dispatch generation order fun _ => .ok ()),⟨?_,?_⟩,order,_,rfl⟩
      · simp only [ConnectionManager.Enabled,hstill]
        exact horder
      · -- A call that returns without an error is possible for every handler.
        simp only [permitted,ConnectionManager.handlerCalls,hstill,List.all_eq_true]
        intro call hcall
        rw [Dispatch.dispatchEvent_eq] at hcall
        obtain ⟨called,_,rfl⟩ := List.mem_map.mp hcall
        rw [possibleOutcome]
        cases called.eventHandler.handler <;> rfl)
  obtain ⟨_,hnext⟩ := run.taken moment _ haction
  refine ⟨moment+1,hle.trans (Nat.le_succ _),?_⟩
  rw [hnext]
  exact Function.update_self _ _ _

end Recorded

section Ledger

variable {run : Behaviour (deployment bs58 settings)} {generation : Generation} {nextSubId : UInt64}

/-- The subscription is registered whenever the processor dispatches, and all
insertions succeed. -/
def AlwaysUndisturbed (run : Behaviour (deployment bs58 settings)) (generation : Generation)
    (nextSubId : UInt64) : Prop :=
  ∀ moment performed,run.action moment=some performed →
    Undisturbed generation (raydiumSubscription settings nextSubId).1 (run.state moment) performed

/-- The rows that the items taken so far are worth. -/
def claimedAt (run : Behaviour (deployment bs58 settings)) (generation : Generation) (moment : ℕ) :
    List RowKey :=
  claimedKeys bs58 settings.programId settings.migrationPubkey
    (consumed generation (run.history moment))

/-- The tasks of the monitor's subscription for events of a processor. -/
def monitorOrigin (settings : TransactionMonitorSettings) (generation : Generation)
    (nextSubId : UInt64) : Origin :=
  ⟨generation,(raydiumSubscription settings nextSubId).1.id⟩

/-- The rows that they have inserted so far. -/
def insertedAt (run : Behaviour (deployment bs58 settings)) (generation : Generation)
    (nextSubId : UInt64) (moment : ℕ) : List RowKey :=
  insertedKeys (monitorOrigin settings generation nextSubId) (run.state moment).inserted

/-- The ledger balances at every moment. -/
theorem ledger_at (hguard : AlwaysUndisturbed run generation nextSubId) (moment : ℕ)
    (key : RowKey) :
    (insertedAt run generation nextSubId moment).count key+
        (dueKeys bs58 (monitorOrigin settings generation nextSubId)
          (run.state moment).tasks).count key+
        (awaitingKeys bs58 settings.programId settings.migrationPubkey
          ((run.state moment).system.processors generation)).count key=
      (claimedAt run generation moment).count key := by
  have hbalanced : Balanced bs58 settings (monitorOrigin settings generation nextSubId)
      (run.history moment) ((deployment bs58 settings).final (run.state 0) (run.history moment)) :=
    balanced_final rfl run.initial (run.history_restrict hguard moment)
  rw [(run.history_run moment).2] at hbalanced
  exact hbalanced.ledger key

/-- What was claimed stays claimed. -/
theorem claimedAt_later {first later : ℕ} (hle : first ≤ later) (key : RowKey) :
    (claimedAt run generation first).count key ≤ (claimedAt run generation later).count key := by
  obtain ⟨steps,hsteps⟩ := run.history_later hle
  refine List.Sublist.count_le key (List.IsPrefix.sublist ?_)
  rw [claimedAt,claimedAt,←hsteps,consumed_append,claimedKeys,claimedKeys,beforeFirstError,
    beforeFirstError,List.takeWhile_append]
  refine List.IsPrefix.filterMap _ ?_
  split
  · exact (List.takeWhile_prefix _).trans (List.prefix_append _ _)
  · exact List.prefix_refl _

/-- What was inserted stays inserted. -/
theorem insertedAt_later {first later : ℕ} (hle : first ≤ later) (key : RowKey) :
    (insertedAt run generation nextSubId first).count key ≤
      (insertedAt run generation nextSubId later).count key :=
  (insertedKeys_later _ hle).sublist.count_le key

/-- Only an event about to be dispatched awaits anything. -/
theorem awaitingKeys_none {phase : ProcessorPhase} (h : ∀ event,phase≠.dispatching event)
    (programId migrationPubkey : String) :
    awaitingKeys bs58 programId migrationPubkey phase=[] := by
  cases phase with
  | dispatching event => exact absurd rfl (h event)
  | _ => rfl

/-- A claimed row that is not inserted yet is due, or its event is about to be
dispatched, which makes it due. -/
theorem becomes_due (hfair : FairTasks run)
    (hguard : AlwaysUndisturbed run generation nextSubId) {first : ℕ} {key : RowKey}
    (hbehind : (insertedAt run generation nextSubId first).count key <
      (claimedAt run generation first).count key) :
    ∃ moment,first ≤ moment ∧ ((claimedAt run generation first).count key ≤
        (insertedAt run generation nextSubId moment).count key ∨
      key∈dueKeys bs58 (monitorOrigin settings generation nextSubId) (run.state moment).tasks) := by
  by_cases hdue : key∈dueKeys bs58 (monitorOrigin settings generation nextSubId)
      (run.state first).tasks
  · exact ⟨first,Nat.le_refl _,Or.inr hdue⟩
  have hledger := ledger_at hguard first key
  rw [List.count_eq_zero_of_not_mem hdue] at hledger
  by_cases hwaits : ∃ event,(run.state first).system.processors generation=.dispatching event
  · obtain ⟨event,hphase⟩ := hwaits
    obtain ⟨moment,hle,hreading⟩ := event_dispatched hfair hphase
    refine ⟨moment,hle,or_iff_not_imp_right.mpr fun hnotDue => ?_⟩
    have hthen := ledger_at hguard moment key
    have hmore := @claimedAt_later _ _ run generation _ _ hle key
    rw [List.count_eq_zero_of_not_mem hnotDue,
      awaitingKeys_none fun event hphase => (by cases hreading.symm.trans hphase),
      List.count_nil] at hthen
    omega
  · rw [awaitingKeys_none fun event hphase => hwaits ⟨event,hphase⟩,List.count_nil] at hledger
    omega

/-- Every row that an item is worth is inserted in the end. -/
theorem claimed_inserted (hfair : FairTasks run)
    (hguard : AlwaysUndisturbed run generation nextSubId) (first : ℕ) (key : RowKey) :
    ∃ moment,first ≤ moment ∧ (claimedAt run generation first).count key ≤
      (insertedAt run generation nextSubId moment).count key := by
  have hsucceeds : ∀ moment task succeeds,run.action moment=some (.insertPool task succeeds) →
      succeeds=true := fun moment task succeeds haction => hguard moment _ haction
  refine eventually_of_measure (fun moment => (claimedAt run generation first).count key-
      (insertedAt run generation nextSubId moment).count key) fun moment hle hbehind => ?_
  have hmore := @claimedAt_later _ _ run generation _ _ hle key
  have hlow : (insertedAt run generation nextSubId moment).count key <
      (claimedAt run generation moment).count key := by omega
  obtain ⟨later,hlater,hdone|hdue⟩ := becomes_due hfair hguard hlow
  · exact ⟨later,hlater,Or.inl (hmore.trans hdone)⟩
  · obtain ⟨last,hlast,hadded⟩ := due_inserted hfair hsucceeds hdue
    have hkept := @insertedAt_later _ _ run generation nextSubId _ _ hlater key
    refine ⟨last,hlater.trans hlast,Or.inr ?_⟩
    change (insertedAt run generation nextSubId later).count key <
      (insertedAt run generation nextSubId last).count key at hadded
    omega

end Ledger

section Main

variable {state : State} {action : Action}

/-- The steps that end a phase of the main task. -/
def endsPhase : RunPhase → Action → Prop
  | .setup,action => action=.setup
  | .waiting,action => action=.ctrlC ∨ action=.ctrlCFailed
  | .marking,action => ∃ succeeds,action=.markAllPoolsInactive succeeds
  | .shuttingDown,action => action=.requestShutdown
  | .shutDown,action => action=.finishRun
  | .returned,_ => False

/-- Other steps leave it as it is. -/
theorem phase_kept (henabled : Enabled bs58 settings state action)
    (hother : ¬endsPhase state.phase action) :
    (next bs58 settings state action).phase=state.phase := by
  cases action with
  | setup =>
    rw [henabled.1] at hother
    exact absurd rfl hother
  | ctrlC =>
    have hphase : state.phase=.waiting := henabled
    rw [hphase] at hother
    exact absurd (Or.inl rfl) hother
  | ctrlCFailed =>
    have hphase : state.phase=.waiting := henabled
    rw [hphase] at hother
    exact absurd (Or.inr rfl) hother
  | markAllPoolsInactive succeeds =>
    have hphase : state.phase=.marking := henabled
    rw [hphase] at hother
    exact absurd ⟨succeeds,rfl⟩ hother
  | requestShutdown =>
    rw [henabled.1] at hother
    exact absurd rfl hother
  | finishRun =>
    rw [henabled.1] at hother
    exact absurd rfl hother
  | startTask task now => cases hstage : task.stage <;> simp only [next,hstage]
  | insertPool task succeeds => cases hstage : task.stage <;> simp only [next,hstage]
  | system performed => rfl

/-- In particular the steps that a phase does not wait for. -/
theorem phase_next (henabled : Enabled bs58 settings state action) {phase : RunPhase}
    (hphase : state.phase=phase) (hother : ¬endsPhase phase action) :
    (next bs58 settings state action).phase=phase := by
  rw [←hphase] at hother
  exact (phase_kept henabled hother).trans hphase

/-- The manager value is alive until `run` returns. -/
theorem owner_alive (h : (deployment bs58 settings).Reachable state)
    (hphase : state.phase≠.returned) : state.system.ownerAlive=true := by
  revert hphase
  refine System.Reachable.invariant
    (I := fun state => state.phase≠.returned → state.system.ownerAlive=true) ?_ ?_ h
  · intro state hinit _
    obtain ⟨clock,rows,rfl⟩ := hinit
    rfl
  · intro state action _ ih henabled hafter
    have hbefore : state.phase≠.returned :=
      fun hreturned => hafter (phase_next henabled hreturned id)
    have howner := ih hbefore
    change (next bs58 settings state action).system.ownerAlive=true
    cases action with
    | system performed =>
      have hkept := (ConnectionManager.callers_next henabled.1).1
      refine hkept.trans ?_
      cases performed with
      | dropOwner => exact absurd (of_decide_eq_true henabled.2) hbefore
      | _ => exact howner
    | startTask task now => cases hstage : task.stage <;> simp only [next,hstage] <;> exact howner
    | insertPool task succeeds =>
      cases hstage : task.stage <;> simp only [next,hstage] <;> exact howner
    | requestShutdown =>
      unfold next
      dsimp only
      split
      · exact howner
      · exact howner
    | _ => exact howner

variable {run : Behaviour (deployment bs58 settings)} (hfair : FairTasks run)

include hfair

/-- The main task gets its command sent, or finds the manager gone. -/
theorem sending_possible (moment : ℕ)
    (hphase : ∀ later,moment ≤ later → (run.state later).phase≠.returned) :
    ∃ later,moment ≤ later ∧ ((run.state later).system.manager.phase=.exited ∨ ∀ command,
      ConnectionManager.Enabled (run.state later).system (.sendCommand command)) := by
  obtain ⟨later,hle,hexited|hroom⟩ := command_room hfair.system moment
  · exact ⟨later,hle,Or.inl hexited⟩
  · by_cases hexited : (run.state later).system.manager.phase=.exited
    · exact ⟨later,hle,Or.inl hexited⟩
    · exact ⟨later,hle,Or.inr fun _ =>
        ⟨owner_alive (run.reachable later) (hphase later hle),hexited,hroom⟩⟩

/-- The marking ends. -/
theorem marking_ends {first : ℕ} (hphase : (run.state first).phase=.marking) :
    ∃ moment,first ≤ moment ∧ (run.state moment).phase=.shuttingDown := by
  obtain ⟨moment,hle,⟨performed,haction,succeeds,rfl⟩,_⟩ := hfair.mark.leads
    (P:=fun state : State => state.phase=.marking) hphase
    (fun _ _ _ _ henabled hother hstill => phase_next henabled hstill hother)
    (fun moment _ hstill => ⟨.markAllPoolsInactive true,hstill,true,rfl⟩)
  refine ⟨moment+1,hle.trans (Nat.le_succ _),?_⟩
  rw [(run.taken moment _ haction).2]
  rfl

/-- The shutdown is requested. -/
theorem request_ends {first : ℕ} (hphase : (run.state first).phase=.shuttingDown) :
    ∃ moment,first ≤ moment ∧ (run.state moment).phase=.shutDown := by
  obtain ⟨moment,hle,⟨performed,haction,rfl⟩,_⟩ := Behaviour.first_taken
    (P:=fun state : State => state.phase=.shuttingDown) hphase
    (fun _ _ _ _ henabled hother hstill => phase_next henabled hstill hother)
    fun hstays => hfair.request first fun moment hle => by
      obtain ⟨later,hlater,hready⟩ := sending_possible hfair moment fun other hother => by
        rw [hstays other (hle.trans hother)]
        exact RunPhase.noConfusion
      exact ⟨later,hlater,.requestShutdown,
        ⟨hstays later (hle.trans hlater),hready.imp id fun h => h .shutdown⟩,rfl⟩
  refine ⟨moment+1,hle.trans (Nat.le_succ _),?_⟩
  rw [(run.taken moment _ haction).2]
  rfl

/-- The broadcast is made, and `run` returns. -/
theorem run_returns {first : ℕ} (hphase : (run.state first).phase=.shutDown) :
    ∃ moment,first ≤ moment ∧ (run.state moment).phase=.returned ∧
      (run.state moment).system.shutdownSignalled=true := by
  obtain ⟨moment,hle,⟨performed,haction,rfl⟩,_⟩ := hfair.finish.leads
    (P:=fun state : State => state.phase=.shutDown) hphase
    (fun _ _ _ _ henabled hother hstill => phase_next henabled hstill hother)
    (fun moment _ hstill => by
      have howner := owner_alive (run.reachable moment)
      rw [hstill] at howner
      exact ⟨.finishRun,⟨hstill,howner RunPhase.noConfusion⟩,rfl⟩)
  refine ⟨moment+1,hle.trans (Nat.le_succ _),?_⟩
  rw [(run.taken moment _ haction).2]
  exact ⟨rfl,rfl⟩

omit hfair in
/-- A program that has returned stays so. -/
theorem returned_later {first later : ℕ} (hphase : (run.state first).phase=.returned)
    (hle : first ≤ later) : (run.state later).phase=.returned := by
  refine run.kept (P:=fun state : State => state.phase=.returned) hphase ?_ hle
  exact fun _ _ _ _ henabled hstill => phase_next henabled hstill id

/-- Once Ctrl+C has arrived, `run` returns and the manager ends. -/
theorem goes_down {first : ℕ}
    (hphase : (run.state first).phase=.marking ∨ (run.state first).phase=.shuttingDown ∨
      (run.state first).phase=.shutDown) :
    ∃ moment,first ≤ moment ∧ ∀ later,moment ≤ later → (run.state later).phase=.returned ∧
      (run.state later).system.manager.phase=.exited := by
  have hrequesting : ∃ moment,first ≤ moment ∧ ((run.state moment).phase=.shuttingDown ∨
      (run.state moment).phase=.shutDown) := by
    rcases hphase with hmarking|hlater
    · obtain ⟨moment,hle,hrequest⟩ := marking_ends hfair hmarking
      exact ⟨moment,hle,Or.inl hrequest⟩
    · exact ⟨first,Nat.le_refl _,hlater⟩
  have hrequested : ∃ moment,first ≤ moment ∧ (run.state moment).phase=.shutDown := by
    obtain ⟨moment,hle,hrequest|hrequest⟩ := hrequesting
    · obtain ⟨later,hlater,hdone⟩ := request_ends hfair hrequest
      exact ⟨later,hle.trans hlater,hdone⟩
    · exact ⟨moment,hle,hrequest⟩
  obtain ⟨requested,hrequestedLe,hshutDown⟩ := hrequested
  obtain ⟨returned,hreturnedLe,hreturned,hsignalled⟩ := run_returns hfair hshutDown
  obtain ⟨ended,hendedLe,hexited⟩ := shut_down hfair.system (Or.inr hsignalled)
  refine ⟨ended,hrequestedLe.trans (hreturnedLe.trans hendedLe),fun later hlater => ?_⟩
  exact ⟨returned_later hreturned (hendedLe.trans hlater),exited_later hexited hlater⟩

/-- The monitor's subscription gets added, unless the manager ends before. -/
theorem comes_up :
    ∃ moment,(run.state moment).system.manager.phase=.exited ∨
      .addSubscription (ownSubscription settings)∈ManagerRuns.handledCommands (run.state 0).system
        ((run.along (managed bs58 settings)).history moment) := by
  by_cases hends : ∃ moment,(run.state moment).system.manager.phase=.exited
  · obtain ⟨moment,hexited⟩ := hends
    exact ⟨moment,Or.inl hexited⟩
  obtain ⟨clock,rows,hstart⟩ := run.initial
  have hsetup : (run.state 0).phase=.setup ∧ (run.state 0).nextSubId=1 := by
    rw [hstart]
    exact ⟨rfl,rfl⟩
  obtain ⟨moment,_,⟨performed,haction,rfl⟩,_,hcounter⟩ := Behaviour.first_taken
    (P:=fun state : State => state.phase=.setup ∧ state.nextSubId=1) hsetup
    (fun moment performed _ _ henabled hother hstill => by
      have hphase := phase_next henabled hstill.1 hother
      exact ⟨hphase,(setup_of_next hphase).2.trans hstill.2⟩)
    fun hstays => hfair.setUp 0 fun moment hle => by
      obtain ⟨later,hlater,hexited|hready⟩ := sending_possible hfair moment fun other hother => by
        rw [(hstays other (Nat.zero_le _)).1]
        exact RunPhase.noConfusion
      · exact absurd ⟨later,hexited⟩ hends
      · exact ⟨later,hlater,.setup,⟨(hstays later (Nat.zero_le _)).1,hready _⟩,rfl⟩
  have hsent : .addSubscription (ownSubscription settings)∈ManagerRuns.sentCommands
      ((run.along (managed bs58 settings)).history (moment+1)) := by
    rw [Behaviour.history_succ,ManagerRuns.sentCommands_append]
    refine List.mem_append_right _ ?_
    change _∈ManagerRuns.sentCommands
      ((run.action moment).bind (systemAction settings (run.state moment))).toList
    rw [haction,Option.bind_some,systemAction,hcounter]
    exact List.mem_cons_self
  obtain ⟨later,_,hexited|hhandled⟩ := commands_handled hfair.system (moment+1)
  · exact ⟨later,Or.inl hexited⟩
  · exact ⟨later,Or.inr (hhandled.subset hsent)⟩

end Main

/-- How the program comes up and goes down. -/
structure ComesAndGoes (run : Behaviour (deployment bs58 settings)) : Prop where
  /-- The monitor's subscription gets added, unless the manager ends before. -/
  comesUp : ∃ moment,(run.state moment).system.manager.phase=.exited ∨
    .addSubscription (ownSubscription settings)∈ManagerRuns.handledCommands (run.state 0).system
      ((run.along (managed bs58 settings)).history moment)
  /-- Once Ctrl+C has arrived, `run` returns and the manager ends, for good. -/
  goesDown : ∀ first,(run.state first).phase=.marking ∨ (run.state first).phase=.shuttingDown ∨
    (run.state first).phase=.shutDown →
      ∃ moment,first ≤ moment ∧ ∀ later,moment ≤ later → (run.state later).phase=.returned ∧
        (run.state later).system.manager.phase=.exited

/-- In every endless run under a fair runtime the program comes up, and goes down when
it is told to. -/
theorem fair_program_comes_and_goes {run : Behaviour (deployment bs58 settings)}
    (hfair : FairTasks run) : ComesAndGoes run :=
  ⟨comes_up hfair,fun _ hphase => goes_down hfair hphase⟩

section Table

variable {run : Behaviour (deployment bs58 settings)}

/-- What is asked of a run in which the program stays up. -/
structure StaysUp (run : Behaviour (deployment bs58 settings)) : Prop where
  /-- The runtime is fair to its tasks. -/
  fair : FairTasks run
  /-- `run` does not return; once it has, `main` does, and the runtime drops the tasks. -/
  running : ∀ moment,(run.state moment).phase≠.returned

/-- While the program is up, the table has its first rows and those inserted. -/
theorem rows_at (hup : StaysUp run) (moment : ℕ) :
    (run.state moment).rows=
      (run.state 0).rows++(run.state moment).inserted.map Prod.snd := by
  have hstart : (run.state 0).rows=
      (run.state 0).rows++(run.state 0).inserted.map Prod.snd := by
    obtain ⟨clock,rows,hinit⟩ := run.initial
    rw [hinit]
    exact (List.append_nil _).symm
  refine run.kept (P:=fun state : State => state.rows=
    (run.state 0).rows++state.inserted.map Prod.snd) hstart ?_ (Nat.zero_le moment)
  intro moment performed _ _ henabled hrows
  have hunmarked : ∀ succeeds,performed≠.markAllPoolsInactive succeeds := by
    -- A marking would be on the way to the return of `run`.
    intro succeeds hsame
    rw [hsame] at henabled
    obtain ⟨later,_,hdown⟩ := goes_down hup.fair (Or.inl henabled)
    exact hup.running later (hdown later (Nat.le_refl _)).1
  obtain ⟨added,_,hafter,hinserted⟩ :=
    @appended_next bs58 settings (run.state moment) performed hunmarked
  change (next bs58 settings (run.state moment) performed).rows=
    (run.state 0).rows++(next bs58 settings (run.state moment) performed).inserted.map Prod.snd
  rw [hafter,hinserted,hrows,List.append_assoc]

/-- What was inserted for an origin is in the table. -/
theorem inserted_in_table (hup : StaysUp run) (generation : Generation) (nextSubId : UInt64)
    (moment : ℕ) :
    ((run.state 0).rows.map rowKey++insertedAt run generation nextSubId moment).Sublist
      ((run.state moment).rows.map rowKey) := by
  rw [rows_at hup moment,List.map_append,List.map_map]
  exact (List.Sublist.refl _).append (List.filter_sublist.map _)

end Table

/-- What becomes of the items that a processor has taken by a moment. -/
structure ClaimsMet (run : Behaviour (deployment bs58 settings)) (generation : Generation)
    (nextSubId : UInt64) (first : ℕ) : Prop where
  /-- The table has the rows it began with, and behind them those inserted so far, in
  that order and as they were inserted. -/
  table : (run.state first).rows=
    (run.state 0).rows++(run.state first).inserted.map Prod.snd
  /-- What the monitor's tasks have inserted for events of the processor, its items are
  worth. -/
  earned : (insertedAt run generation nextSubId first).Subperm (claimedAt run generation first)
  /-- From some moment on, beside the rows it began with, the table has a row for each
  item that is worth one. -/
  met : ∃ moment,first ≤ moment ∧ ∀ later,moment ≤ later →
    ((run.state 0).rows.map rowKey++claimedAt run generation first).Subperm
      ((run.state later).rows.map rowKey)

/-- In every endless run under a fair runtime in which `run` does not return, the
monitor's subscription is registered whenever a processor dispatches and insertions
succeed, the table gets a row for each item of that processor that is worth one, up to
its first error, whatever else happens; and the tasks of the monitor insert no others
for it. -/
theorem every_claim_is_met {run : Behaviour (deployment bs58 settings)} {generation : Generation}
    {nextSubId : UInt64} (hup : StaysUp run) (hguard : AlwaysUndisturbed run generation nextSubId)
    (first : ℕ) : ClaimsMet run generation nextSubId first := by
  refine ⟨rows_at hup first,List.subperm_ext_iff.mpr fun key _ => ?_,?_⟩
  · have hledger := ledger_at hguard first key
    omega
  · obtain ⟨moment,hle,hall⟩ := eventually_all (claimedAt run generation first)
      (fun key moment later hlater hmet => hmet.trans (insertedAt_later hlater key))
      fun key _ => claimed_inserted hup.fair hguard first key
    refine ⟨moment,hle,fun later hlater => ?_⟩
    have hmet : (claimedAt run generation first).Subperm
        (insertedAt run generation nextSubId later) :=
      List.subperm_ext_iff.mpr fun key hkey => (hall key hkey).trans (insertedAt_later hlater key)
    exact ((List.subperm_append_left _).mpr hmet).trans
      (inserted_in_table hup generation nextSubId later).subperm

section Samples

/-- The program waits for Ctrl+C or has returned, and has nothing to do. -/
structure Resting (state : State) : Prop where
  /-- Nobody wants anything of the manager. -/
  unwanted : Unwanted state.system
  /-- No event is about to be dispatched. -/
  undispatched : ∀ generation event,state.system.processors generation≠.dispatching event
  /-- No handler task is left. -/
  tasks : state.tasks=[]
  /-- The main task has nothing to do. -/
  phase : state.phase=.waiting ∨ state.phase=.returned

/-- A run in which the program rests from some moment on is fair, as long as time
passes. -/
theorem fairTasks_of_resting {run : Behaviour (deployment bs58 settings)} {last : ℕ}
    (hrests : ∀ moment,last ≤ moment → Resting (run.state moment))
    (htime : ∀ instant,∃ moment,instant ≤ (run.state moment).system.clock) : FairTasks run := by
  have hnever : ∀ chosen : Action → Prop,
      (∀ state action,Resting state → Enabled bs58 settings state action → ¬chosen action) →
      run.StronglyFair chosen := by
    intro chosen hnot
    refine Behaviour.stronglyFair_of_impossible last fun moment hle hpossible => ?_
    obtain ⟨action,henabled,hchosen⟩ := hpossible
    exact hnot _ action (hrests moment hle) henabled hchosen
  have hmain : ∀ state : State,Resting state → ∀ phase,phase≠.waiting → phase≠.returned →
      state.phase≠phase := by
    intro state hstate phase hwaiting hreturned hphase
    rcases hstate.phase with h|h
    · exact hwaiting (hphase.symm.trans h)
    · exact hreturned (hphase.symm.trans h)
  have htask : ∀ state : State,Resting state → ∀ task,task∉state.tasks := by
    intro state hstate task hmem
    rw [hstate.tasks] at hmem
    cases hmem
  refine ⟨fairRuntime_of_unwanted (fun moment hle => (hrests moment hle).unwanted) htime,
    fun generation => (hnever _ ?_).weaklyFair,fun task => (hnever _ ?_).weaklyFair,
    fun task => (hnever _ ?_).weaklyFair,(hnever _ ?_).weaklyFair,hnever _ ?_,hnever _ ?_,
    (hnever _ ?_).weaklyFair⟩
  · intro state action hstate henabled hchosen
    obtain ⟨order,outcome,rfl⟩ := hchosen
    obtain ⟨event,hphase,_⟩ := dispatching_of_dispatch henabled.1
    exact hstate.undispatched generation event hphase
  · intro state action hstate henabled hchosen
    obtain ⟨now,rfl⟩ := hchosen
    exact htask state hstate task henabled.1
  · intro state action hstate henabled hchosen
    obtain ⟨succeeds,rfl⟩ := hchosen
    exact htask state hstate task henabled.1
  · intro state action hstate henabled hchosen
    obtain ⟨succeeds,rfl⟩ := hchosen
    exact hmain state hstate _ RunPhase.noConfusion RunPhase.noConfusion henabled
  · intro state action hstate henabled hchosen
    rw [hchosen] at henabled
    exact hmain state hstate _ RunPhase.noConfusion RunPhase.noConfusion henabled.1
  · intro state action hstate henabled hchosen
    rw [hchosen] at henabled
    exact hmain state hstate _ RunPhase.noConfusion RunPhase.noConfusion henabled.1
  · intro state action hstate henabled hchosen
    rw [hchosen] at henabled
    exact hmain state hstate _ RunPhase.noConfusion RunPhase.noConfusion henabled.1

/-- Time does not disturb a program that rests. -/
theorem resting_of_idling {start : State} {actions : List Action}
    (hfinal : Resting ((deployment bs58 settings).final start actions)) {moment : ℕ}
    (hle : actions.length ≤ moment) :
    Resting (idling (deployment bs58 settings) start actions (.system (.tick 1)) moment) := by
  refine idling_kept hfinal (fun state h => ?_) hle
  exact ⟨h.unwanted,h.undispatched,(List.append_nil _).trans h.tasks,h.phase⟩

/-- A run that goes on in time alone. -/
def goesOn (bs58 : Bytes → String) (settings : TransactionMonitorSettings) {actions : List Action}
    (hrun : (deployment bs58 settings).Legal (.start 0 []) actions) :
    Behaviour (deployment bs58 settings) :=
  Behaviour.thenAlways ⟨0,[],rfl⟩ hrun (.system (.tick 1)) fun _ => ⟨trivial,rfl⟩

/-- It is fair if the program rests at the end of the run. -/
theorem fairTasks_goesOn {actions : List Action}
    (hrun : (deployment bs58 settings).Legal (.start 0 []) actions)
    (hfinal : Resting ((deployment bs58 settings).final (.start 0 []) actions)) :
    FairTasks (goesOn bs58 settings hrun) :=
  fairTasks_of_resting (fun _ hle => resting_of_idling hfinal hle) fun instant =>
    ⟨_,idling_unbounded (fun state : State => state.system.clock) (fun _ => Nat.le_refl _) instant⟩

/-- The sample transaction is recorded. -/
def recordedRun : List Action := sampleRun++[.startTask sampleTask 0,.insertPool samplePending true]

theorem legal_recordedRun : ((deployment Base58.encode sampleSettings).restrict
    (Undisturbed 0 (raydiumSubscription sampleSettings 1).1)).Legal (.start 0 []) recordedRun := by
  decide

theorem resting_recordedRun :
    Resting ((deployment Base58.encode sampleSettings).final (.start 0 []) recordedRun) := by
  refine ⟨⟨Or.inr ⟨⟨by decide,by decide,by decide⟩,by decide⟩,fun generation event hsending => ?_⟩,
    fun generation event hdispatching => ?_,by decide,Or.inl (by decide)⟩
  · cases generation with
    | zero => cases hsending
    | succ generation => cases hsending
  · cases generation with
    | zero => cases hdispatching
    | succ generation => cases hdispatching

theorem undisturbed_recordedRun : AlwaysUndisturbed
    (goesOn Base58.encode sampleSettings (System.Legal.of_restrict legal_recordedRun)) 0 1 := by
  intro moment performed haction
  obtain rfl := Option.some.inj haction
  have hrest : ∀ state,(deployment Base58.encode sampleSettings).enabled state
      (.system (.tick 1)) := fun _ => ⟨trivial,rfl⟩
  have hguard : ∀ state,Undisturbed 0 (raydiumSubscription sampleSettings 1).1 state
      (.system (.tick 1)) := fun _ => trivial
  exact guard_of_idling legal_recordedRun hrest hguard moment

theorem running_recordedRun (moment : ℕ) :
    ((goesOn Base58.encode sampleSettings (System.Legal.of_restrict legal_recordedRun)).state
      moment).phase≠.returned := by
  intro hreturned
  have hlast := returned_later hreturned (Nat.le_max_left moment recordedRun.length)
  have hwaits : (idling (deployment Base58.encode sampleSettings) (.start 0 []) recordedRun
      (.system (.tick 1)) (max moment recordedRun.length)).phase=.waiting :=
    idling_kept (I:=fun state : State => state.phase=.waiting) (by decide) (fun _ h => h)
      (Nat.le_max_right _ _)
  cases hlast.symm.trans hwaits

theorem every_claim_is_met_recordedRun :
    ClaimsMet (goesOn Base58.encode sampleSettings (System.Legal.of_restrict legal_recordedRun))
      0 1 9 :=
  every_claim_is_met ⟨fairTasks_goesOn _ resting_recordedRun,running_recordedRun⟩
    undisturbed_recordedRun 9

example : claimedAt (goesOn Base58.encode sampleSettings
    (System.Legal.of_restrict legal_recordedRun)) 0 9=[⟨"invalid-signature","3","pump"⟩] := by
  decide

/-- The program is stopped by Ctrl+C while its manager is about to connect. -/
def stoppedRun : List Action :=
  [.setup,.ctrlC,.system .enterLoop,.markAllPoolsInactive true,.requestShutdown,
    .system (.connectSucceeded []),.finishRun,.system .recordConnection,.system .receiveCommand,
    .system (.sendUpdate [sampleSubscription] true),.system .enterLoop,.system .receiveShutdown]

theorem legal_stoppedRun :
    (deployment Base58.encode sampleSettings).Legal (.start 0 []) stoppedRun := by decide

theorem resting_stoppedRun :
    Resting ((deployment Base58.encode sampleSettings).final (.start 0 []) stoppedRun) := by
  refine ⟨⟨Or.inl (by decide),fun generation event hsending => ?_⟩,
    fun generation event hdispatching => ?_,by decide,Or.inr (by decide)⟩
  · cases generation with
    | zero => cases hsending
    | succ generation => cases hsending
  · cases generation with
    | zero => cases hdispatching
    | succ generation => cases hdispatching

theorem fair_program_comes_and_goes_stoppedRun :
    ComesAndGoes (goesOn Base58.encode sampleSettings legal_stoppedRun) :=
  fair_program_comes_and_goes (fairTasks_goesOn _ resting_stoppedRun)

end Samples

end SteamHandler.FairProgram
