import SteamHandler.Base58
import SteamHandler.Recording
import SteamHandler.StreamDispatch

/-!
# Where the rows come from

Whatever happens to the program, to its connections and to its table, a row is
only inserted for a transaction update that a stream processor took, and once
for each update at most: removals, failed insertions, criteria and a shutdown
may lose rows, but nothing invents or repeats one. The row is the image of that
update in all its columns; only the time in its JSON object is not.
-/

namespace SteamHandler.RowOrigins

open Messages Subscriptions SubscriptionRegistry CommandHistory Dispatch RaydiumV4 Database
open Deployment Recording StreamDispatch ManagerRuns TransitionSystem
open ConnectionManager (Generation connectionManager)
open Extraction (announcedSigners numSigners_eq)

section Worth

variable (bs58 : Bytes → String) (programId migrationPubkey : String)

/-- The signers of a transaction update: the first keys, as many as the header
announces. -/
def signersOf (txInfo : SubscribeUpdateTransactionInfo) : List String :=
  match messageOf txInfo with
  | some message => (message.accountKeys.map bs58).take (announcedSigners message)
  | none => []

/-- Its log lines, if they were recorded. -/
def logsOf (txInfo : SubscribeUpdateTransactionInfo) : List String :=
  match txInfo.statusMeta with
  | some recorded => if recorded.logMessagesNone then [] else recorded.logMessages
  | none => []

/-- The monitor reads the same lines. -/
theorem logMessagesOf_eq (txInfo : SubscribeUpdateTransactionInfo) :
    logMessagesOf txInfo=logsOf txInfo := by
  unfold logMessagesOf logsOf
  cases txInfo.statusMeta with
  | none => rfl
  | some recorded =>
    dsimp only
    cases recorded.logMessagesNone <;> rfl

/-- The row with its time taken out. -/
def untimed (row : Row) : Row :=
  { row with rawTransaction := { row.rawTransaction with timestamp := 0 } }

/-- The row a transaction update is worth, except for its time. -/
def rowOf (txInfo : SubscribeUpdateTransactionInfo) : Option Row :=
  (recordOf bs58 programId migrationPubkey txInfo).map fun key =>
    { signature := key.signature
      poolAddress := key.poolAddress
      tokenMint := key.tokenMint
      rawTransaction :=
        { signature := key.signature
          poolAddress := key.poolAddress
          mintAddress := key.tokenMint
          signers := signersOf bs58 txInfo
          timestamp := 0
          logs := logsOf txInfo }
      isActive := true
      deathReason := none }

/-- Only transactions are worth a row. -/
def rowOfEvent : SubscriptionEvent → Option Row
  | .transaction txInfo => rowOf bs58 programId migrationPubkey txInfo
  | _ => none

/-- What a stream item is worth. -/
def rowOfItem (item : StreamItem) : Option Row :=
  (payloadOf item).bind (rowOfEvent bs58 programId migrationPubkey)

/-- An event without a key is not worth a row. -/
theorem rowOfEvent_none {event : SubscriptionEvent}
    (h : recordOfEvent bs58 programId migrationPubkey event=none) :
    rowOfEvent bs58 programId migrationPubkey event=none := by
  cases event with
  | transaction txInfo =>
    have hnone : recordOf bs58 programId migrationPubkey txInfo=none := h
    rw [rowOfEvent,rowOf,hnone]
    rfl
  | _ => rfl

/-- What a task is about to insert it has read off its event. -/
theorem start_raw {task : PoolTask} {event : SubscriptionEvent} {now : Int64}
    {signature poolAddress mintAddress : String} {rawTx : RawTransaction}
    (h : task.start bs58 event now=
      some { task with stage := .inserting signature poolAddress mintAddress rawTx }) :
    ∃ txInfo,event=.transaction txInfo ∧
      rawTx=⟨signature,poolAddress,mintAddress,signersOf bs58 txInfo,now.toUInt64,
        logsOf txInfo⟩ := by
  cases event with
  | transaction txInfo =>
    refine ⟨txInfo,rfl,?_⟩
    simp only [PoolTask.start,RaydiumV4Monitor.createPoolEventFromSubscription,
      RaydiumV4Monitor.processTransaction] at h
    cases hextract : extractPoolAddressMintAndSigners bs58 txInfo task.monitor.programId with
    | error error =>
      rw [hextract] at h
      cases h
    | ok found =>
      obtain ⟨maybePool,maybeMint,signers⟩ := found
      obtain ⟨message,hmessage,_,hsigners⟩ := message_of_extract bs58 hextract
      have hsame : signers=signersOf bs58 txInfo := by
        rw [signersOf,hmessage]
        dsimp only
        rw [←numSigners_eq]
        exact hsigners
      rw [hextract] at h
      dsimp only at h
      split at h
      · cases h
      · cases maybePool with
        | none => cases h
        | some pool =>
          cases maybeMint with
          | none => cases h
          | some mint =>
            have hstage := congrArg PoolTask.stage (Option.some.inj h)
            obtain ⟨rfl,rfl,rfl,rfl⟩ := TaskStage.inserting.inj hstage
            rw [hsame,logMessagesOf_eq]
  | _ => cases h

end Worth

section Ledger

variable (bs58 : Bytes → String) (generation : Generation)

/-- The row a task will insert if nothing fails. -/
def expectedRow (task : PoolTask) : Option Row :=
  match task.stage with
  | .spawned event => rowOfEvent bs58 task.monitor.programId task.migrationPubkey event
  | .inserting signature poolAddress mintAddress rawTx =>
    some (untimed ⟨signature,poolAddress,mintAddress,rawTx,true,none⟩)

/-- Rows inserted for events of a processor. -/
def rowsInserted (inserted : List (Origin × Row)) : List Row :=
  (inserted.filter fun entry => entry.1.generation=generation).map fun entry => untimed entry.2

/-- Rows that the tasks for events of a processor will insert. -/
def rowsDue (tasks : List PoolTask) : List Row :=
  (tasks.filter fun task => task.origin.generation=generation).filterMap (expectedRow bs58)

/-- The row that a handler call is worth. -/
def rowOfCall (call : HandlerCall Handler) : Option Row :=
  match call.subscription.eventHandler.handler with
  | .raydiumV4 monitor migrationPubkey =>
    rowOfEvent bs58 monitor.programId migrationPubkey call.event
  | .other _ => none

/-- Starting a task does not change what it is worth. -/
theorem expectedRow_start (task : PoolTask) (event : SubscriptionEvent) (now : Int64) :
    (task.start bs58 event now).bind (expectedRow bs58)=
      rowOfEvent bs58 task.monitor.programId task.migrationPubkey event := by
  rcases start_cases bs58 task event now with
    ⟨hstart,hworth⟩|⟨signature,poolAddress,mintAddress,rawTx,hstart,hworth⟩
  · rw [hstart,rowOfEvent_none bs58 _ _ hworth]
    rfl
  · obtain ⟨txInfo,rfl,hraw⟩ := start_raw bs58 hstart
    have hrecord : recordOf bs58 task.monitor.programId task.migrationPubkey txInfo=
        some ⟨signature,poolAddress,mintAddress⟩ := hworth
    rw [hstart,rowOfEvent,rowOf,hrecord,hraw]
    rfl

theorem rowsDue_append (first second : List PoolTask) :
    rowsDue bs58 generation (first++second)=
      rowsDue bs58 generation first++rowsDue bs58 generation second := by
  rw [rowsDue,List.filter_append,List.filterMap_append]
  rfl

theorem rowsDue_singleton (task : PoolTask) :
    rowsDue bs58 generation [task]=
      if task.origin.generation=generation then (expectedRow bs58 task).toList else [] := by
  rw [rowsDue,List.filter_singleton]
  by_cases hown : task.origin.generation=generation
  · rw [if_pos hown,decide_eq_true hown,cond_true,List.filterMap_cons,List.filterMap_nil]
    cases expectedRow bs58 task <;> rfl
  · rw [if_neg hown,decide_eq_false hown]
    rfl

/-- Taking a task out of the list takes out what it was worth. -/
theorem count_rowsDue_erase {task : PoolTask} {tasks : List PoolTask} (hmem : task∈tasks)
    (row : Row) :
    (rowsDue bs58 generation tasks).count row=
      (rowsDue bs58 generation [task]).count row+
        (rowsDue bs58 generation (tasks.erase task)).count row := by
  have hperm : tasks.Perm ([task]++tasks.erase task) := List.perm_cons_erase hmem
  have hrows := (hperm.filter fun task => task.origin.generation=generation).filterMap
    (expectedRow bs58)
  change (rowsDue bs58 generation tasks).Perm
    (rowsDue bs58 generation ([task]++tasks.erase task)) at hrows
  rw [hrows.count_eq,rowsDue_append,List.count_append]

/-- A started task is worth what it was. -/
theorem rowsDue_start {task : PoolTask} {event : SubscriptionEvent}
    (hstage : task.stage=.spawned event) (now : Int64) :
    rowsDue bs58 generation (task.start bs58 event now).toList=
      rowsDue bs58 generation [task] := by
  have hexpected : expectedRow bs58 task=
      rowOfEvent bs58 task.monitor.programId task.migrationPubkey event := by
    simp only [expectedRow,hstage]
  have hstarted := expectedRow_start bs58 task event now
  rw [rowsDue_singleton,hexpected,←hstarted]
  rcases start_cases bs58 task event now with
    ⟨hstart,_⟩|⟨signature,poolAddress,mintAddress,rawTx,hstart,_⟩
  · rw [hstart]
    exact (ite_self _).symm
  · rw [hstart,Option.toList_some,rowsDue_singleton,Option.bind_some]

/-- The tasks spawned by calls are worth what the calls are. -/
theorem rowsDue_spawnTasks (other : Generation) (calls : List (HandlerCall Handler)) :
    rowsDue bs58 generation (spawnTasks other calls)=
      if other=generation then calls.filterMap (rowOfCall bs58) else [] := by
  induction calls with
  | nil => exact (ite_self _).symm
  | cons call calls ih =>
    have hsplit : call::calls=[call]++calls := rfl
    have hone : rowsDue bs58 generation (spawnTasks other [call])=
        if other=generation then (rowOfCall bs58 call).toList else [] := by
      rw [spawnTasks,List.filterMap_cons,List.filterMap_nil,rowOfCall]
      cases call.subscription.eventHandler.handler with
      | raydiumV4 monitor migrationPubkey => exact rowsDue_singleton bs58 generation _
      | other tag => exact (ite_self _).symm
    have hfilterMap : (call::calls).filterMap (rowOfCall bs58)=
        (rowOfCall bs58 call).toList++calls.filterMap (rowOfCall bs58) := by
      rw [List.filterMap_cons]
      cases rowOfCall bs58 call <;> rfl
    rw [hfilterMap,hsplit,spawnTasks_append,rowsDue_append,hone,ih]
    split <;> rfl

end Ledger

section Runs

variable {bs58 : Bytes → String} {settings : TransactionMonitorSettings}
variable {start : State} {actions : List Action}

/-- What the manager's system does in a run of the program. -/
def systemRun (bs58 : Bytes → String) (settings : TransactionMonitorSettings) (start : State)
    (actions : List Action) : List (ConnectionManager.Action Handler) :=
  ((deployment bs58 settings).steps start actions).flatMap fun step =>
    (systemAction settings step.1 step.2).toList

theorem systemRun_snoc (start : State) (history : List Action) (action : Action) :
    systemRun bs58 settings start (history++[action])=
      systemRun bs58 settings start history++
        (systemAction settings ((deployment bs58 settings).final start history) action).toList := by
  rw [systemRun,steps_snoc,List.flatMap_append,List.flatMap_singleton]
  rfl

/-- It is a run of that system. -/
theorem systemRun_legal (hinit : (deployment bs58 settings).initial start)
    (hrun : (deployment bs58 settings).Legal start actions) :
    (connectionManager Handler).Legal start.system (systemRun bs58 settings start actions) ∧
      (connectionManager Handler).final start.system (systemRun bs58 settings start actions)=
        ((deployment bs58 settings).final start actions).system := by
  refine legal_flatMap_steps State.system
    (fun step => (systemAction settings step.1 step.2).toList) ?_
    (System.Reachable.start hinit) hrun
  intro state action hreach henabled
  cases hperforms : systemAction settings state action with
  | none =>
    rw [Option.toList_none]
    exact ⟨trivial,((managed bs58 settings).silent state action hreach henabled hperforms).symm⟩
  | some performed =>
    obtain ⟨hlegal,hnext⟩ :=
      (managed bs58 settings).visible state action performed hreach henabled hperforms
    rw [Option.toList_some]
    exact ⟨⟨hlegal,trivial⟩,hnext.symm⟩

/-- The handler calls that a step of a processor makes. -/
def callsMade (bs58 : Bytes → String) (settings : TransactionMonitorSettings)
    (generation : Generation) (state : State) (action : Action) : List (HandlerCall Handler) :=
  (systemAction settings state action).toList.flatMap fun performed =>
    (dispatchOf bs58 generation (state.system,performed)).toList.flatMap Dispatched.calls

/-- The handler calls that a processor made in a run. -/
def callsBy (bs58 : Bytes → String) (settings : TransactionMonitorSettings)
    (generation : Generation) (start : State) (actions : List Action) :
    List (HandlerCall Handler) :=
  (dispatches bs58 generation start.system (systemRun bs58 settings start actions)).flatMap
    Dispatched.calls

/-- A step adds the calls that it makes. -/
theorem callsBy_snoc (generation : Generation) {history : List Action}
    (hinit : (deployment bs58 settings).initial start)
    (hrun : (deployment bs58 settings).Legal start history) (action : Action) :
    callsBy bs58 settings generation start (history++[action])=
      callsBy bs58 settings generation start history++
        callsMade bs58 settings generation ((deployment bs58 settings).final start history)
          action := by
  have hsystem := (systemRun_legal hinit hrun).2
  rw [callsBy,systemRun_snoc,callsMade]
  cases systemAction settings ((deployment bs58 settings).final start history) action with
  | none =>
    rw [Option.toList_none,List.append_nil,List.flatMap_nil,List.append_nil]
    rfl
  | some performed =>
    rw [Option.toList_some,dispatches_snoc,List.flatMap_append,hsystem,List.flatMap_singleton]
    rfl

/-- A step of the system spawns a task for every call of the monitor's closure
that it makes. -/
theorem rowsDue_spawnedBy (generation : Generation) (state : State)
    (performed : ConnectionManager.Action Handler) :
    rowsDue bs58 generation (spawnedBy bs58 state.system performed)=
      (callsMade bs58 settings generation state (.system performed)).filterMap
        (rowOfCall bs58) := by
  have hmade : callsMade bs58 settings generation state (.system performed)=
      (dispatchOf bs58 generation (state.system,performed)).toList.flatMap Dispatched.calls :=
    List.flatMap_singleton _ performed
  rw [hmade]
  cases performed with
  | dispatch other order outcome =>
    rw [spawnedBy,rowsDue_spawnTasks,dispatchOf]
    by_cases hown : other=generation
    · subst hown
      rw [if_pos rfl]
      dsimp only
      rw [if_pos rfl,ConnectionManager.handlerCalls]
      cases state.system.processors other with
      | dispatching event =>
        dsimp only
        rw [Option.toList_some,List.flatMap_singleton]
      | _ => rfl
    · dsimp only
      rw [if_neg hown,if_neg hown]
      rfl
  | _ => rfl

/-- Rows inserted or due, for the events of a processor. -/
def rowsHeld (bs58 : Bytes → String) (generation : Generation) (state : State) (row : Row) : ℕ :=
  (rowsInserted generation state.inserted).count row+
    (rowsDue bs58 generation state.tasks).count row

/-- A task that inserts is worth the row it inserts. -/
theorem rowsDue_inserting (generation : Generation) {task : PoolTask}
    {signature poolAddress mintAddress : String} {rawTx : RawTransaction}
    (hstage : task.stage=.inserting signature poolAddress mintAddress rawTx) :
    rowsDue bs58 generation [task]=
      rowsInserted generation [(task.origin,⟨signature,poolAddress,mintAddress,rawTx,true,none⟩)] := by
  have hexpected : expectedRow bs58 task=
      some (untimed ⟨signature,poolAddress,mintAddress,rawTx,true,none⟩) := by
    simp only [expectedRow,hstage]
  rw [rowsDue_singleton,hexpected,rowsInserted,List.filter_singleton]
  by_cases hown : task.origin.generation=generation
  · rw [if_pos hown,decide_eq_true hown]
    rfl
  · rw [if_neg hown,decide_eq_false hown]
    rfl

/-- A step adds no more rows than the calls it makes are worth. -/
theorem rowsHeld_next (generation : Generation) (state : State) {action : Action}
    (henabled : Enabled bs58 settings state action) (row : Row) :
    rowsHeld bs58 generation (next bs58 settings state action) row ≤
      rowsHeld bs58 generation state row+
        ((callsMade bs58 settings generation state action).filterMap (rowOfCall bs58)).count row := by
  cases action with
  | system performed =>
    have hspawned := @rowsDue_spawnedBy bs58 settings generation state performed
    change (rowsInserted generation state.inserted).count row+
      (rowsDue bs58 generation (state.tasks++spawnedBy bs58 state.system performed)).count row ≤ _
    rw [rowsDue_append,List.count_append,hspawned,rowsHeld]
    omega
  | startTask task now =>
    obtain ⟨hmem,hstage⟩ := henabled
    cases htask : task.stage with
    | spawned event =>
      have hnext : next bs58 settings state (.startTask task now)=
          { state with tasks := state.tasks.erase task++(task.start bs58 event now).toList } := by
        simp only [next,htask]
      have herase := count_rowsDue_erase bs58 generation hmem row
      rw [hnext,rowsHeld,rowsHeld]
      dsimp only
      rw [rowsDue_append,List.count_append,rowsDue_start bs58 generation htask now]
      omega
    | inserting signature poolAddress mintAddress rawTx =>
      rw [htask] at hstage
      exact hstage.elim
  | insertPool task succeeds =>
    obtain ⟨hmem,hstage⟩ := henabled
    cases htask : task.stage with
    | spawned event =>
      rw [htask] at hstage
      exact hstage.elim
    | inserting signature poolAddress mintAddress rawTx =>
      have herase := count_rowsDue_erase bs58 generation hmem row
      have hworth := @rowsDue_inserting bs58 generation task _ _ _ _ htask
      have hinserted : ((next bs58 settings state (.insertPool task succeeds)).inserted=
            state.inserted ∨
          (next bs58 settings state (.insertPool task succeeds)).inserted=state.inserted++
            [(task.origin,⟨signature,poolAddress,mintAddress,rawTx,true,none⟩)]) ∧
          (next bs58 settings state (.insertPool task succeeds)).tasks=state.tasks.erase task := by
        simp only [next,htask]
        cases succeeds with
        | true => exact ⟨Or.inr rfl,trivial⟩
        | false => exact ⟨Or.inl rfl,trivial⟩
      obtain ⟨hfailed|hsucceeded,htasks⟩ := hinserted
      · rw [rowsHeld,rowsHeld,hfailed,htasks]
        omega
      · have hsplit : rowsInserted generation (state.inserted++
            [(task.origin,⟨signature,poolAddress,mintAddress,rawTx,true,none⟩)])=
            rowsInserted generation state.inserted++rowsDue bs58 generation [task] := by
          rw [hworth,rowsInserted,List.filter_append,List.map_append]
          rfl
        rw [rowsHeld,rowsHeld,hsucceeded,htasks,hsplit,List.count_append]
        omega
  | requestShutdown =>
    have hsame : (next bs58 settings state .requestShutdown).inserted=state.inserted ∧
        (next bs58 settings state .requestShutdown).tasks=state.tasks := ⟨rfl,rfl⟩
    rw [rowsHeld,hsame.1,hsame.2]
    exact Nat.le_add_right _ _
  | _ => exact Nat.le_add_right _ _

/-- In every run, the rows inserted or due are covered by the calls made. -/
theorem rowsHeld_le (generation : Generation) (hinit : (deployment bs58 settings).initial start)
    (hrun : (deployment bs58 settings).Legal start actions) (row : Row) :
    rowsHeld bs58 generation ((deployment bs58 settings).final start actions) row ≤
      ((callsBy bs58 settings generation start actions).filterMap (rowOfCall bs58)).count row := by
  refine System.Legal.run_induction (P := fun actions =>
    rowsHeld bs58 generation ((deployment bs58 settings).final start actions) row ≤
      ((callsBy bs58 settings generation start actions).filterMap (rowOfCall bs58)).count row)
    ?_ ?_ hrun
  · obtain ⟨clock,rows,rfl⟩ := hinit
    exact Nat.le_refl _
  · intro history action hpast hcovered henabled
    have hstep := @rowsHeld_next bs58 settings generation _ action henabled row
    rw [final_append,callsBy_snoc generation hinit hpast,List.filterMap_append,List.count_append]
    change rowsHeld bs58 generation (next bs58 settings _ action) row ≤ _
    omega

end Runs

section Closure

variable {bs58 : Bytes → String} {settings : TransactionMonitorSettings}
variable {start : State} {actions : List Action}

/-- The handler is some other client's closure. -/
def foreign (subscription : Subscription Handler) : Bool :=
  match subscription.eventHandler.handler with
  | .other _ => true
  | .raydiumV4 _ _ => false

/-- The closure of the monitor is created in `setup_raydium_v4_monitor` alone, so
that other clients add other handlers. -/
def closureOwned : Action → Bool
  | .system (.sendCommand (.addSubscription subscription)) => foreign subscription
  | _ => true

/-- The same as a guard. -/
def ClosureOwned (_ : State) (action : Action) : Prop := closureOwned action=true

instance decidableClosureOwned (state : State) (action : Action) :
    Decidable (ClosureOwned state action) := inferInstanceAs (Decidable (_=_))

/-- The monitor's own subscription, under the first identifier. -/
def ownSubscription (settings : TransactionMonitorSettings) : Subscription Handler :=
  (raydiumSubscription settings 1).1

/-- Nothing leads back to `setup_raydium_v4_monitor`. -/
theorem setup_of_next {state : State} {action : Action}
    (hsetup : (next bs58 settings state action).phase=.setup) :
    state.phase=.setup ∧ (next bs58 settings state action).nextSubId=state.nextSubId := by
  cases action with
  | startTask task now =>
    cases hstage : task.stage with
    | spawned event =>
      simp only [next,hstage] at hsetup ⊢
      exact ⟨hsetup,trivial⟩
    | inserting signature poolAddress mintAddress rawTx =>
      simp only [next,hstage] at hsetup ⊢
      exact ⟨hsetup,trivial⟩
  | insertPool task succeeds =>
    cases hstage : task.stage with
    | spawned event =>
      simp only [next,hstage] at hsetup ⊢
      exact ⟨hsetup,trivial⟩
    | inserting signature poolAddress mintAddress rawTx =>
      simp only [next,hstage] at hsetup ⊢
      exact ⟨hsetup,trivial⟩
  | system performed => exact ⟨hsetup,rfl⟩
  | _ => cases hsetup

/-- What a step adds is the monitor's subscription, or another client's. -/
theorem added_of_step {state : State} {action : Action} (henabled : Enabled bs58 settings state action)
    (howned : ClosureOwned state action) (hcounter : state.phase=.setup → state.nextSubId=1)
    {subscription : Subscription Handler}
    (hsent : .addSubscription subscription∈
      sentCommands (systemAction settings state action).toList) :
    subscription=ownSubscription settings ∨ foreign subscription=true := by
  cases action with
  | system performed =>
    cases performed with
    | sendCommand command =>
      obtain rfl := List.mem_singleton.mp hsent
      exact Or.inr howned
    | _ => cases hsent
  | setup =>
    have hcommand := ManagerCommand.addSubscription.inj (List.mem_singleton.mp hsent)
    rw [hcounter henabled.1] at hcommand
    exact Or.inl hcommand
  | requestShutdown =>
    rw [systemAction] at hsent
    split at hsent
    · cases hsent
    · cases List.mem_singleton.mp hsent
  | _ => cases hsent

/-- Subscriptions are sent by the monitor once, and else by other clients. -/
theorem added_of_run (hinit : (deployment bs58 settings).initial start)
    (hrun : ((deployment bs58 settings).restrict ClosureOwned).Legal start actions) :
    (((deployment bs58 settings).final start actions).phase=.setup →
      ((deployment bs58 settings).final start actions).nextSubId=1) ∧
    ∀ subscription,.addSubscription subscription∈
      sentCommands (systemRun bs58 settings start actions) →
      subscription=ownSubscription settings ∨ foreign subscription=true := by
  refine System.Legal.run_induction (P := fun actions =>
    (((deployment bs58 settings).final start actions).phase=.setup →
      ((deployment bs58 settings).final start actions).nextSubId=1) ∧
    ∀ subscription,.addSubscription subscription∈
      sentCommands (systemRun bs58 settings start actions) →
      subscription=ownSubscription settings ∨ foreign subscription=true) ?_ ?_ hrun
  · obtain ⟨clock,rows,rfl⟩ := hinit
    exact ⟨fun _ => rfl,fun subscription hsent => absurd hsent List.not_mem_nil⟩
  · intro history action _ h henabled
    rw [systemRun_snoc,sentCommands_append,final_append]
    constructor
    · intro hsetup
      obtain ⟨hbefore,hsame⟩ := setup_of_next hsetup
      exact hsame.trans (h.1 hbefore)
    · intro subscription hsent
      rcases List.mem_append.mp hsent with hbefore|hlast
      · exact h.2 subscription hbefore
      · exact added_of_step henabled.1 henabled.2 h.1 hlast

/-- In such a run, a call is worth a row only to the monitor's subscription, and
then the row its event is worth. -/
theorem rowOfCall_cases {subscription : Subscription Handler}
    (h : subscription=ownSubscription settings ∨ foreign subscription=true)
    (event : SubscriptionEvent) (outcome : Except String Unit) :
    rowOfCall bs58 ⟨subscription,event,outcome⟩=none ∨
      (subscription.id=(ownSubscription settings).id ∧
        rowOfCall bs58 ⟨subscription,event,outcome⟩=
          rowOfEvent bs58 settings.programId settings.migrationPubkey event) := by
  rcases h with rfl|hforeign
  · exact Or.inr ⟨rfl,rfl⟩
  · refine Or.inl ?_
    unfold foreign at hforeign
    rw [rowOfCall]
    split at hforeign
    · rename_i hhandler
      rw [hhandler]
    · cases hforeign

/-- What is worth something under a choice is among what is chosen. -/
theorem filterMap_sublist_filter {α β : Type} {worth other : α → Option β} {chosen : α → Bool}
    {items : List α}
    (h : ∀ item∈items,worth item=none ∨ (chosen item=true ∧ worth item=other item)) :
    (items.filterMap worth).Sublist ((items.filter chosen).filterMap other) := by
  induction items with
  | nil => exact List.Sublist.slnil
  | cons item items ih =>
    obtain ⟨hitem,hitems⟩ := List.forall_mem_cons.mp h
    have hlater := ih hitems
    rw [List.filterMap_cons]
    rcases hitem with hnone|⟨hchosen,hsame⟩
    · rw [hnone]
      refine hlater.trans ?_
      exact ((List.sublist_cons_self item items).filter chosen).filterMap other
    · rw [hsame,List.filter_cons_of_pos hchosen,List.filterMap_cons]
      cases other item with
      | none => exact hlater
      | some row => exact hlater.cons_cons row

/-- A dispatch is worth at most the row its event is worth. -/
theorem rowsOfDispatch_sublist {subs : SubscriptionMap Handler}
    {order : List (Subscription Handler)} (horder : subs.IterationOrder order)
    (hadded : ∀ subscription,subs.Contains subscription →
      subscription=ownSubscription settings ∨ foreign subscription=true)
    (outcome : SubscriptionId → Except String Unit) (event : SubscriptionEvent) :
    ((dispatchEvent bs58 outcome event order).filterMap (rowOfCall bs58)).Sublist
      ([event].filterMap (rowOfEvent bs58 settings.programId settings.migrationPubkey)) := by
  have hworth : ∀ call∈dispatchEvent bs58 outcome event order,rowOfCall bs58 call=none ∨
      (decide (call.subscription.id=(ownSubscription settings).id)=true ∧
        rowOfCall bs58 call=
          rowOfEvent bs58 settings.programId settings.migrationPubkey call.event) := by
    intro call hcall
    obtain ⟨hregistered,_⟩ := call_of_mem horder hcall
    rcases @rowOfCall_cases bs58 settings call.subscription
        (hadded call.subscription hregistered) call.event call.outcome with hnone|⟨hown,hsame⟩
    · exact Or.inl hnone
    · exact Or.inr ⟨decide_eq_true hown,hsame⟩
  have hcalls := calls_with_id_sublist horder bs58 outcome event (ownSubscription settings).id
  have hrows := hcalls.filterMap (rowOfEvent bs58 settings.programId settings.migrationPubkey)
  rw [List.filterMap_map] at hrows
  exact (filterMap_sublist_filter hworth).trans hrows

/-- What is registered when a processor dispatches is the monitor's subscription or
another client's. -/
theorem added_of_dispatched (hinit : (deployment bs58 settings).initial start)
    (hrun : ((deployment bs58 settings).restrict ClosureOwned).Legal start actions)
    {generation : Generation} {dispatched : Dispatched Handler}
    (hmem : dispatched∈dispatches bs58 generation start.system
      (systemRun bs58 settings start actions))
    {subscription : Subscription Handler} (hregistered : dispatched.registered.Contains subscription) :
    subscription=ownSubscription settings ∨ foreign subscription=true := by
  have hsystem := (systemRun_legal hinit (System.Legal.of_restrict hrun)).1
  obtain ⟨earlier,order,outcome,later,hsplit,hthen,_,_⟩ := exists_dispatch_of_mem hsystem hmem
  rw [hsplit] at hsystem
  have hstart : (connectionManager Handler).initial start.system :=
    (managed bs58 settings).initial start hinit
  obtain ⟨hqueue,hregistry⟩ := registry_of_run hstart (legal_append.mp hsystem).1
  rw [hthen,hregistry] at hregistered
  have hhandled := added_of_lookup hregistered
  have hsent : .addSubscription subscription∈
      sentCommands (systemRun bs58 settings start actions) := by
    rw [hsplit,sentCommands_append,hqueue]
    exact List.mem_append_left _ (List.mem_append_left _ hhandled)
  exact (added_of_run hinit hrun).2 subscription hsent

/-- The calls of a processor are worth no more than the events it dispatched. -/
theorem rowsOfCalls_sublist (hinit : (deployment bs58 settings).initial start)
    (hrun : ((deployment bs58 settings).restrict ClosureOwned).Legal start actions)
    (generation : Generation) :
    ((callsBy bs58 settings generation start actions).filterMap (rowOfCall bs58)).Sublist
      (((dispatches bs58 generation start.system (systemRun bs58 settings start actions)).map
        Dispatched.event).filterMap
          (rowOfEvent bs58 settings.programId settings.migrationPubkey)) := by
  have hsystem := (systemRun_legal hinit (System.Legal.of_restrict hrun)).1
  have heach : ∀ dispatched∈dispatches bs58 generation start.system
      (systemRun bs58 settings start actions),
      (dispatched.calls.filterMap (rowOfCall bs58)).Sublist
        ([dispatched.event].filterMap
          (rowOfEvent bs58 settings.programId settings.migrationPubkey)) := by
    intro dispatched hmem
    obtain ⟨_,order,outcome,_,_,_,horder,hcalls⟩ := exists_dispatch_of_mem hsystem hmem
    rw [hcalls]
    exact rowsOfDispatch_sublist horder
      (fun subscription hregistered => added_of_dispatched hinit hrun hmem hregistered) outcome _
  rw [callsBy,List.filterMap_flatMap,List.map_eq_flatMap,List.filterMap_flatMap]
  exact List.Sublist.flatMap_right _ heach

/-- The items that a processor took are those of the manager's system. -/
theorem itemsTaken_systemRun (generation : Generation) (start : State) (actions : List Action) :
    itemsTaken generation (systemRun bs58 settings start actions)=consumed generation actions := by
  induction actions using List.reverseRecOn with
  | nil => rfl
  | append_singleton history action ih =>
    rw [systemRun_snoc,consumed_append,itemsTaken,List.filterMap_append]
    change itemsTaken generation (systemRun bs58 settings start history)++_=_
    rw [ih]
    congr 1
    cases action with
    | system performed => cases performed <;> rfl
    | requestShutdown =>
      rw [systemAction]
      split <;> rfl
    | _ => rfl

end Closure

/-- What a run may have done to the table. -/
structure RowsEarned (bs58 : Bytes → String) (settings : TransactionMonitorSettings)
    (start : State) (actions : List Action) : Prop where
  /-- The table only grew, by the rows inserted. -/
  table : ((deployment bs58 settings).final start actions).rows.map asInserted=
    start.rows.map asInserted++
      ((deployment bs58 settings).final start actions).inserted.map Prod.snd
  /-- The rows inserted for a processor are, but for their time, those of different
  items that it took before its first error. -/
  earned : ∀ generation,
    (rowsInserted generation ((deployment bs58 settings).final start actions).inserted).Subperm
      ((beforeFirstError (consumed generation actions)).filterMap
        (rowOfItem bs58 settings.programId settings.migrationPubkey))

/-- In every run of the program, with any commands of other clients, reconnections,
failed insertions, marks and shutdown, the table only grows, each row in it is the
image of a transaction update that was taken off a stream, and no update is
recorded twice. -/
theorem rows_are_earned {bs58 : Bytes → String} {settings : TransactionMonitorSettings}
    {start : State} {actions : List Action} (hinit : (deployment bs58 settings).initial start)
    (hrun : ((deployment bs58 settings).restrict ClosureOwned).Legal start actions) :
    RowsEarned bs58 settings start actions := by
  have hlegal : (deployment bs58 settings).Legal start actions := System.Legal.of_restrict hrun
  refine ⟨table_of_run hinit hlegal,fun generation => ?_⟩
  have hsystem := (systemRun_legal hinit hlegal).1
  have haccounted := (accounted_of_run bs58 generation
    ((managed bs58 settings).initial start hinit) hsystem).events
  rw [itemsTaken_systemRun] at haccounted
  have hdispatched : (((dispatches bs58 generation start.system
      (systemRun bs58 settings start actions)).map Dispatched.event).filterMap
        (rowOfEvent bs58 settings.programId settings.migrationPubkey)).Sublist
      ((beforeFirstError (consumed generation actions)).filterMap
        (rowOfItem bs58 settings.programId settings.migrationPubkey)) := by
    have hrows : ∀ items : List StreamItem,
        items.filterMap (rowOfItem bs58 settings.programId settings.migrationPubkey)=
          (items.filterMap payloadOf).filterMap
            (rowOfEvent bs58 settings.programId settings.migrationPubkey) :=
      fun items => List.filterMap_filterMap.symm
    rw [hrows,←haccounted]
    exact (List.sublist_append_left _ _).filterMap _
  refine List.subperm_ext_iff.mpr fun row _ => ?_
  have hheld := rowsHeld_le generation hinit hlegal row
  have hcalls := ((rowsOfCalls_sublist hinit hrun generation).trans hdispatched).count_le row
  rw [rowsHeld] at hheld
  omega

/-- The sample transaction is recorded, a second insertion fails, and the pools are
marked. -/
def markedRun : List Action :=
  sampleRun++
    [.system (.receiveItem 0 (.ok ⟨some (.transaction (some sampleTransaction))⟩)),
      .startTask sampleTask 0,.system (.dispatch 0 [sampleSubscription] fun _ => .ok ()),
      .insertPool samplePending true,.ctrlC,.startTask sampleTask 0,.insertPool samplePending false,
      .markAllPoolsInactive true]

theorem rows_are_earned_markedRun :
    RowsEarned Base58.encode sampleSettings (.start 0 []) markedRun ∧
      ((deployment Base58.encode sampleSettings).final (.start 0 []) markedRun).rows.length=1 :=
  ⟨rows_are_earned ⟨0,[],rfl⟩ (by decide),by decide⟩

end SteamHandler.RowOrigins
