import SteamHandler.Base58
import SteamHandler.Recording

/-!
# End-to-end recording

The ledger of one processor and one subscription balances in every run in
which the subscription is registered whenever that processor dispatches. Once
nothing is on its way, the rows inserted are those the stream items were
worth, in some order.
-/

namespace SteamHandler.EndToEnd

open Messages Subscriptions Dispatch RaydiumV4 Database Deployment Recording TransitionSystem
open ConnectionManager (Generation ProcessorPhase movedBy processor_moved processor_unmoved
  dispatching_of_dispatch next_sendEvent)
open Sessions (workerOf)

variable {bs58 : Bytes → String} {settings : TransactionMonitorSettings}

/-- Guard: the subscription is registered when the processor dispatches, and
every insertion succeeds. -/
def Undisturbed (generation : Generation) (sub : Subscription Handler) (state : State) :
    Action → Prop
  | .system (.dispatch other _ _) =>
    other=generation → state.system.registry.subscriptions.Contains sub
  | .insertPool _ succeeds => succeeds=true
  | _ => True

instance decidableUndisturbed (generation : Generation) (sub : Subscription Handler)
    (state : State) : ∀ action,Decidable (Undisturbed generation sub state action)
  | .system action => by
    cases action <;> dsimp only [Undisturbed] <;> infer_instance
  | .insertPool _ _ => inferInstanceAs (Decidable (_=_))
  | .markAllPoolsInactive _ => inferInstanceAs (Decidable True)
  | .setup => inferInstanceAs (Decidable True)
  | .ctrlC => inferInstanceAs (Decidable True)
  | .ctrlCFailed => inferInstanceAs (Decidable True)
  | .requestShutdown => inferInstanceAs (Decidable True)
  | .finishRun => inferInstanceAs (Decidable True)
  | .startTask _ _ => inferInstanceAs (Decidable True)

/-- The processor has not left its read loop, if it exists. -/
def MayRead (phase : ProcessorPhase) : Prop := ∀ owed,workerOf phase≠.leaving owed

/-- The ledger of a processor and the monitor's subscription. -/
structure Balanced (bs58 : Bytes → String) (settings : TransactionMonitorSettings)
    (origin : Origin) (history : List Action) (state : State) : Prop where
  /-- Inserted, due and awaiting rows are what the items taken are worth. -/
  ledger : ∀ key,(insertedKeys origin state.inserted).count key+
      (dueKeys bs58 origin state.tasks).count key+
      (awaitingKeys bs58 settings.programId settings.migrationPubkey
        (state.system.processors origin.generation)).count key=
    (claimedKeys bs58 settings.programId settings.migrationPubkey
      (consumed origin.generation history)).count key
  /-- A processor that may still read has taken no error. -/
  unbroken : MayRead (state.system.processors origin.generation) →
    ∀ item∈consumed origin.generation history,item.isOk=true

variable {origin : Origin} {history : List Action} {state : State}

/-- A step that takes no item and leaves the sum of the ledger as it is. -/
theorem Balanced.extend (h : Balanced bs58 settings origin history state) {action : Action}
    {after : State} (hconsumed : consumed origin.generation [action]=[])
    (hledger : ∀ key,(insertedKeys origin after.inserted).count key+
        (dueKeys bs58 origin after.tasks).count key+
        (awaitingKeys bs58 settings.programId settings.migrationPubkey
          (after.system.processors origin.generation)).count key=
      (insertedKeys origin state.inserted).count key+
        (dueKeys bs58 origin state.tasks).count key+
        (awaitingKeys bs58 settings.programId settings.migrationPubkey
          (state.system.processors origin.generation)).count key)
    (hmayRead : MayRead (after.system.processors origin.generation) →
      MayRead (state.system.processors origin.generation)) :
    Balanced bs58 settings origin (history++[action]) after := by
  have hsame : consumed origin.generation (history++[action])=
      consumed origin.generation history := by
    rw [consumed_append,hconsumed,List.append_nil]
  constructor
  · intro key
    rw [hsame,hledger key]
    exact h.ledger key
  · rw [hsame]
    exact fun hread => h.unbroken (hmayRead hread)

/-- In particular a step of the system that spawns nothing and moves the
processor, if at all, between phases without an event to dispatch. -/
theorem Balanced.system (h : Balanced bs58 settings origin history state)
    {action : ConnectionManager.Action Handler}
    (hconsumed : consumed origin.generation [.system action]=[])
    (hspawned : spawnedBy bs58 state.system action=[])
    (hawaiting : awaitingKeys bs58 settings.programId settings.migrationPubkey
        ((ConnectionManager.next state.system action).processors origin.generation)=
      awaitingKeys bs58 settings.programId settings.migrationPubkey
        (state.system.processors origin.generation))
    (hmayRead : MayRead ((ConnectionManager.next state.system action).processors
        origin.generation) → MayRead (state.system.processors origin.generation)) :
    Balanced bs58 settings origin (history++[.system action])
      (next bs58 settings state (.system action)) := by
  refine h.extend hconsumed (fun key => ?_) hmayRead
  have htasks : (next bs58 settings state (.system action)).tasks=state.tasks := by
    change state.tasks++spawnedBy bs58 state.system action=_
    rw [hspawned,List.append_nil]
  rw [htasks]
  change _+_+(awaitingKeys bs58 _ _
    ((ConnectionManager.next state.system action).processors origin.generation)).count key=_
  rw [hawaiting]
  rfl

/-- A system step that leaves the processor alone keeps the ledger. -/
theorem Balanced.unmoved (h : Balanced bs58 settings origin history state)
    {action : ConnectionManager.Action Handler}
    (henabled : ConnectionManager.Enabled state.system action)
    (hother : ∀ phase,movedBy state.system action≠some (origin.generation,phase))
    (hconsumed : consumed origin.generation [.system action]=[])
    (hspawned : spawnedBy bs58 state.system action=[]) :
    Balanced bs58 settings origin (history++[.system action])
      (next bs58 settings state (.system action)) := by
  have hsame := processor_unmoved henabled hother
  refine h.system hconsumed hspawned ?_ ?_
  · rw [hsame]
  · rw [hsame]
    exact id

/-- A processor takes an item: what the item is worth is awaiting from then on.
An error is worth nothing and is the last item. -/
theorem Balanced.receiveItem (h : Balanced bs58 settings origin history state) {item : StreamItem}
    (hreading : state.system.processors origin.generation=.reading) :
    Balanced bs58 settings origin (history++[.system (.receiveItem origin.generation item)])
      (next bs58 settings state (.system (.receiveItem origin.generation item))) := by
  have hmoved : (ConnectionManager.next state.system
      (.receiveItem origin.generation item)).processors origin.generation=.onItem item :=
    Function.update_self _ _ _
  have hconsumed : consumed origin.generation
      (history++[.system (.receiveItem origin.generation item)])=
      consumed origin.generation history++[item] := by
    rw [consumed_append]
    congr 1
    simp only [consumed,List.filterMap_cons,if_true,List.filterMap_nil]
  have hok : ∀ earlier∈consumed origin.generation history,earlier.isOk=true := by
    refine h.unbroken fun owed => ?_
    rw [hreading]
    exact Supervision.Worker.noConfusion
  constructor
  · intro key
    have hledger := h.ledger key
    rw [hreading] at hledger
    have hnone : (awaitingKeys bs58 settings.programId settings.migrationPubkey .reading).count key=
        0 := rfl
    change (insertedKeys origin state.inserted).count key+
      (dueKeys bs58 origin (state.tasks++[])).count key+
      (awaitingKeys bs58 settings.programId settings.migrationPubkey
        ((ConnectionManager.next state.system (.receiveItem origin.generation item)).processors
          origin.generation)).count key=_
    rw [hmoved,hconsumed,claimedKeys_snoc bs58 _ _ hok,List.count_append,awaitingKeys_onItem,
      List.append_nil]
    omega
  · intro hread earlier hearlier
    rw [hconsumed,List.mem_append,List.mem_singleton] at hearlier
    rcases hearlier with hold|rfl
    · exact hok earlier hold
    · cases earlier with
      | ok msg => rfl
      | error status =>
        change MayRead ((ConnectionManager.next state.system
          (.receiveItem origin.generation (.error status))).processors origin.generation) at hread
        rw [hmoved] at hread
        exact absurd rfl (hread 2)

/-- A processor dispatches: what was awaiting is due from then on. -/
theorem Balanced.dispatch {nextSubId : UInt64}
    (horigin : origin.subscription=(raydiumSubscription settings nextSubId).1.id)
    (h : Balanced bs58 settings origin history state) {order : List (Subscription Handler)}
    {outcome : SubscriptionId → Except String Unit}
    (henabled : ConnectionManager.Enabled state.system
      (.dispatch origin.generation order outcome))
    (hregistered : state.system.registry.subscriptions.Contains
      (raydiumSubscription settings nextSubId).1) :
    Balanced bs58 settings origin
      (history++[.system (.dispatch origin.generation order outcome)])
      (next bs58 settings state (.system (.dispatch origin.generation order outcome))) := by
  have hmoved : (ConnectionManager.next state.system
      (.dispatch origin.generation order outcome)).processors origin.generation=.reading :=
    Function.update_self _ _ _
  obtain ⟨event,hphase,horder⟩ := dispatching_of_dispatch henabled
  have hspawned : dueKeys bs58 origin
      (spawnedBy bs58 state.system (.dispatch origin.generation order outcome))=
      awaitingKeys bs58 settings.programId settings.migrationPubkey
        (state.system.processors origin.generation) := by
    have hdue := dueKeys_dispatch bs58 horder hregistered origin.generation event outcome
    rw [←horigin] at hdue
    rw [hphase,awaitingKeys,←hdue]
    simp only [spawnedBy,ConnectionManager.handlerCalls,hphase]
  refine h.extend rfl (fun key => ?_) fun _ => ?_
  · change (insertedKeys origin state.inserted).count key+
      (dueKeys bs58 origin (state.tasks++
        spawnedBy bs58 state.system (.dispatch origin.generation order outcome))).count key+
      (awaitingKeys bs58 settings.programId settings.migrationPubkey
        ((ConnectionManager.next state.system
          (.dispatch origin.generation order outcome)).processors origin.generation)).count key=_
    have hnone : (awaitingKeys bs58 settings.programId settings.migrationPubkey
        .reading).count key=0 := rfl
    rw [hmoved,hnone,dueKeys_append,List.count_append,hspawned]
    omega
  · intro owed
    rw [hphase]
    exact Supervision.Worker.noConfusion

/-- Another processor dispatches: its tasks are worth nothing here. -/
theorem Balanced.dispatchElsewhere (h : Balanced bs58 settings origin history state)
    {generation : Generation} (hother : generation≠origin.generation)
    {order : List (Subscription Handler)} {outcome : SubscriptionId → Except String Unit} :
    Balanced bs58 settings origin (history++[.system (.dispatch generation order outcome)])
      (next bs58 settings state (.system (.dispatch generation order outcome))) := by
  have hsame : (ConnectionManager.next state.system
      (.dispatch generation order outcome)).processors origin.generation=
      state.system.processors origin.generation := Function.update_of_ne hother.symm _ _
  have hforeign : dueKeys bs58 origin
      (spawnedBy bs58 state.system (.dispatch generation order outcome))=[] :=
    dueKeys_foreign bs58 fun call _ hcall => hother (congrArg Origin.generation hcall)
  refine h.extend rfl (fun key => ?_) fun hread => ?_
  · change (insertedKeys origin state.inserted).count key+
      (dueKeys bs58 origin (state.tasks++
        spawnedBy bs58 state.system (.dispatch generation order outcome))).count key+
      (awaitingKeys bs58 settings.programId settings.migrationPubkey
        ((ConnectionManager.next state.system
          (.dispatch generation order outcome)).processors origin.generation)).count key=_
    rw [hsame,dueKeys_append,hforeign,List.append_nil]
  · change MayRead ((ConnectionManager.next state.system
      (.dispatch generation order outcome)).processors origin.generation) at hread
    rw [hsame] at hread
    exact hread

/-- A task starts, or inserts its row: what it was worth is conserved. -/
theorem Balanced.startTask (h : Balanced bs58 settings origin history state) {task : PoolTask}
    {event : SubscriptionEvent} (hmem : task∈state.tasks) (hstage : task.stage=.spawned event)
    (now : Int64) :
    Balanced bs58 settings origin (history++[.startTask task now])
      (next bs58 settings state (.startTask task now)) := by
  have hnext : next bs58 settings state (.startTask task now)=
      { state with tasks := state.tasks.erase task++(task.start bs58 event now).toList } := by
    simp only [next,hstage]
  rw [hnext]
  refine h.extend rfl (fun key => ?_) id
  have herase := count_dueKeys_erase bs58 origin hmem key
  dsimp only
  rw [dueKeys_append,List.count_append,dueKeys_start bs58 origin hstage now]
  omega

theorem Balanced.insertPool (h : Balanced bs58 settings origin history state) {task : PoolTask}
    {signature poolAddress mintAddress : String} {rawTx : RawTransaction}
    (hmem : task∈state.tasks)
    (hstage : task.stage=.inserting signature poolAddress mintAddress rawTx) :
    Balanced bs58 settings origin (history++[.insertPool task true])
      (next bs58 settings state (.insertPool task true)) := by
  have hnext : next bs58 settings state (.insertPool task true)=
      { state with
        tasks := state.tasks.erase task
        rows := Database.insertPool state.rows signature poolAddress mintAddress rawTx
        inserted := state.inserted++
          [(task.origin,⟨signature,poolAddress,mintAddress,rawTx,true,none⟩)] } := by
    simp only [next,hstage,if_true]
  rw [hnext]
  refine h.extend rfl (fun key => ?_) id
  have herase := count_dueKeys_erase bs58 origin hmem key
  dsimp only
  rw [insertedKeys_append,List.count_append,←dueKeys_inserting bs58 origin hstage]
  omega

/-- A step of the system keeps the ledger. -/
theorem Balanced.systemStep {nextSubId : UInt64}
    (horigin : origin.subscription=(raydiumSubscription settings nextSubId).1.id)
    (hreach : (ConnectionManager.connectionManager Handler).Reachable state.system)
    (h : Balanced bs58 settings origin history state)
    {action : ConnectionManager.Action Handler}
    (henabled : ConnectionManager.Enabled state.system action)
    (hguard : Undisturbed origin.generation (raydiumSubscription settings nextSubId).1 state
      (.system action)) :
    Balanced bs58 settings origin (history++[.system action])
      (next bs58 settings state (.system action)) := by
  have hother : ∀ {generation : Generation} {phase : ProcessorPhase},
      generation≠origin.generation → ∀ other,
      some (generation,phase)≠some (origin.generation,other) :=
    fun hne other hsame => hne (congrArg Prod.fst (Option.some.inj hsame))
  cases action with
  | receiveItem generation item =>
    rcases eq_or_ne generation origin.generation with rfl|hne
    · exact h.receiveItem henabled
    · refine h.unmoved henabled (hother hne) ?_ rfl
      simp only [consumed,List.filterMap_cons,if_neg hne,List.filterMap_nil]
  | dispatch generation order outcome =>
    rcases eq_or_ne generation origin.generation with rfl|hne
    · exact h.dispatch horigin henabled (hguard rfl)
    · exact h.dispatchElsewhere hne
  | endOfStream generation =>
    rcases eq_or_ne generation origin.generation with rfl|hne
    · have hmovedBy : movedBy state.system (.endOfStream origin.generation)=
          some (origin.generation,.sending .connectionClosed) := rfl
      have hmoved := processor_moved henabled hmovedBy
      have hreading : state.system.processors origin.generation=.reading := henabled
      refine h.system rfl rfl ?_ fun hread => ?_
      · rw [hmoved,hreading]
        rfl
      · rw [hmoved] at hread
        exact absurd rfl (hread 1)
    · exact h.unmoved henabled (hother hne) rfl rfl
  | sendEvent generation =>
    obtain ⟨event,hphase,_⟩ := next_sendEvent henabled
    have hmovedBy : movedBy state.system (.sendEvent generation)=
        some (generation,.afterSend event) := by
      simp only [movedBy,hphase]
    rcases eq_or_ne generation origin.generation with rfl|hne
    · have hmoved := processor_moved henabled hmovedBy
      refine h.system rfl rfl ?_ fun hread => ?_
      · rw [hmoved,hphase]
        cases event <;> rfl
      · rw [hmoved] at hread
        rw [hphase]
        cases event with
        | connectionClosed => exact absurd rfl (hread 0)
        | connectionError error => exact absurd rfl (hread 1)
        | pingReceived => exact fun owed => Supervision.Worker.noConfusion
    · refine h.unmoved henabled ?_ rfl rfl
      rw [hmovedBy]
      exact hother hne
  | connectSucceeded order =>
    rcases eq_or_ne state.system.nextGeneration origin.generation with hfresh|hne
    · have hmoved : (ConnectionManager.next state.system (.connectSucceeded order)).processors
          origin.generation=.reading := by
        rw [←hfresh]
        exact Function.update_self _ _ _
      have hunspawned : state.system.processors origin.generation=.unspawned :=
        Sessions.unspawned_of_nextGeneration_le hreach (Nat.le_of_eq hfresh)
      refine h.system rfl rfl ?_ fun _ => ?_
      · rw [hmoved,hunspawned]
        rfl
      · rw [hunspawned]
        exact fun owed => Supervision.Worker.noConfusion
    · exact h.unmoved henabled (hother hne) rfl rfl
  | _ => exact h.unmoved henabled (fun phase => (Option.some_ne_none _).symm) rfl rfl

/-- Every step keeps the ledger. -/
theorem Balanced.step {nextSubId : UInt64}
    (horigin : origin.subscription=(raydiumSubscription settings nextSubId).1.id)
    (hreach : (deployment bs58 settings).Reachable state)
    (h : Balanced bs58 settings origin history state) {action : Action}
    (henabled : Enabled bs58 settings state action)
    (hguard : Undisturbed origin.generation (raydiumSubscription settings nextSubId).1 state
      action) :
    Balanced bs58 settings origin (history++[action]) (next bs58 settings state action) := by
  cases action with
  | system action =>
    exact h.systemStep horigin ((managed bs58 settings).reachable hreach) henabled.1 hguard
  | startTask task now =>
    obtain ⟨hmem,hstage⟩ := henabled
    cases htask : task.stage with
    | spawned event => exact h.startTask hmem htask now
    | inserting signature poolAddress mintAddress rawTx =>
      rw [htask] at hstage
      exact hstage.elim
  | insertPool task succeeds =>
    obtain ⟨hmem,hstage⟩ := henabled
    have hsucceeds : succeeds=true := hguard
    rw [hsucceeds]
    cases htask : task.stage with
    | spawned event =>
      rw [htask] at hstage
      exact hstage.elim
    | inserting signature poolAddress mintAddress rawTx => exact h.insertPool hmem htask
  | requestShutdown =>
    have hprocessors : (next bs58 settings state .requestShutdown).system.processors=
        state.system.processors := by
      unfold next
      dsimp only
      split <;> rfl
    refine h.extend rfl (fun key => ?_) fun hread => ?_
    · rw [hprocessors]
      rfl
    · rw [hprocessors] at hread
      exact hread
  | _ => exact h.extend rfl (fun key => rfl) id

/-- The ledger balances at the end of every such run. -/
theorem balanced_final {nextSubId : UInt64}
    (horigin : origin.subscription=(raydiumSubscription settings nextSubId).1.id)
    {start : State} {actions : List Action} (hinit : (deployment bs58 settings).initial start)
    (hrun : ((deployment bs58 settings).restrict (Undisturbed origin.generation
      (raydiumSubscription settings nextSubId).1)).Legal start actions) :
    Balanced bs58 settings origin actions ((deployment bs58 settings).final start actions) := by
  have hboth := System.Legal.history_invariant
    (I := fun history state => (deployment bs58 settings).Reachable state ∧
      Balanced bs58 settings origin history state) ?_ ?_ hrun
  · exact hboth.2
  · refine ⟨System.Reachable.start hinit,?_⟩
    obtain ⟨clock,rows,rfl⟩ := hinit
    exact ⟨fun key => rfl,fun _ item hitem => absurd hitem List.not_mem_nil⟩
  · intro history state action hpast henabled
    exact ⟨System.Reachable.step hpast.1 henabled.1,
      hpast.2.step horigin hpast.1 henabled.1 henabled.2⟩

/-- The log is the growth of the table: the rows of a run are those it started
with and those it inserted, in order, up to what the marks wrote. -/
theorem rows_of_run {start : State} {actions : List Action}
    (hinit : (deployment bs58 settings).initial start)
    (hrun : (deployment bs58 settings).Legal start actions) :
    ((deployment bs58 settings).final start actions).rows.map rowKey=
      start.rows.map rowKey++
        ((deployment bs58 settings).final start actions).inserted.map fun entry =>
          rowKey entry.2 := by
  have htable := congrArg (List.map rowKey) (table_of_run hinit hrun)
  rw [List.map_append,List.map_map,List.map_map,List.map_map] at htable
  exact htable

/-- End-to-end recording is exact. In every run in which the monitor's
subscription is registered whenever a processor dispatches and every insertion
succeeds: the table holds what it held and what was inserted, in that order; and
when that processor has nothing to dispatch and no task of that subscription is
left, what was inserted for its events is, in some order, what the items it took
before the first error are worth. -/
theorem recording_exact {start : State} {actions : List Action}
    (hinit : (deployment bs58 settings).initial start) (generation : Generation)
    (nextSubId : UInt64)
    (hrun : ((deployment bs58 settings).restrict (Undisturbed generation
      (raydiumSubscription settings nextSubId).1)).Legal start actions)
    (hdispatched : ∀ event,((deployment bs58 settings).final start actions).system.processors
      generation≠.dispatching event)
    (hcompleted : ∀ task∈((deployment bs58 settings).final start actions).tasks,
      task.origin≠⟨generation,(raydiumSubscription settings nextSubId).1.id⟩) :
    ((deployment bs58 settings).final start actions).rows.map rowKey=
        start.rows.map rowKey++
          ((deployment bs58 settings).final start actions).inserted.map (fun entry =>
            rowKey entry.2) ∧
      (insertedKeys ⟨generation,(raydiumSubscription settings nextSubId).1.id⟩
        ((deployment bs58 settings).final start actions).inserted).Perm
        (claimedKeys bs58 settings.programId settings.migrationPubkey
          (consumed generation actions)) := by
  have hbalanced : Balanced bs58 settings
      ⟨generation,(raydiumSubscription settings nextSubId).1.id⟩ actions
      ((deployment bs58 settings).final start actions) := balanced_final rfl hinit hrun
  have hdue : dueKeys bs58 ⟨generation,(raydiumSubscription settings nextSubId).1.id⟩
      ((deployment bs58 settings).final start actions).tasks=[] := by
    have hnone := List.filter_eq_nil_iff.mpr fun task htask =>
      (decide_eq_true_iff (p := task.origin=_)).not.mpr (hcompleted task htask)
    rw [dueKeys,hnone,List.filterMap_nil]
  have hawaiting : awaitingKeys bs58 settings.programId settings.migrationPubkey
      (((deployment bs58 settings).final start actions).system.processors generation)=[] := by
    cases hphase : ((deployment bs58 settings).final start actions).system.processors
        generation with
    | dispatching event => exact absurd hphase (hdispatched event)
    | _ => rfl
  refine ⟨rows_of_run hinit (System.Legal.of_restrict hrun),?_⟩
  rw [List.perm_iff_count]
  intro key
  have hledger := hbalanced.ledger key
  rw [hdue,hawaiting,List.count_nil] at hledger
  omega

/-- The sample transaction is recorded, a foreign one is not, and an error ends
the stream. -/
def recordingRun : List Action :=
  sampleRun++
    [.system (.receiveItem 0 (.ok ⟨some (.slot 5)⟩)),
      .system (.dispatch 0 [sampleSubscription] fun _ => .ok ()),
      .startTask sampleTask 0,.system (.receiveItem 0 (.error "reset")),
      .insertPool samplePending true]

theorem recording_exact_recordingRun :
    ((deployment Base58.encode sampleSettings).final (.start 0 []) recordingRun).rows.map rowKey=
        ((deployment Base58.encode sampleSettings).final (.start 0 [])
          recordingRun).inserted.map (fun entry => rowKey entry.2) ∧
      (insertedKeys ⟨0,sampleSubscription.id⟩
        ((deployment Base58.encode sampleSettings).final (.start 0 []) recordingRun).inserted).Perm
        (claimedKeys Base58.encode "2" "4" (consumed 0 recordingRun)) := by
  refine recording_exact ⟨0,[],rfl⟩ 0 1 (by decide) ?_ (by decide)
  intro event hphase
  have hsending : ((deployment Base58.encode sampleSettings).final (.start 0 [])
      recordingRun).system.processors 0=.sending (.connectionError "Stream error: reset") := by
    decide
  cases hsending.symm.trans hphase

end SteamHandler.EndToEnd
