import SteamHandler.ConnectionManager
import SteamHandler.RaydiumV4
import SteamHandler.Database

/-!
# The deployed program

The orchestrator puts the connection manager, the Raydium V4 monitor and the
pool table together. Its handler spawns a detached task for every event; the
task extracts the pool, checks the criteria and then awaits the database.
`run` waits for Ctrl+C, marks the pools, shuts the manager down and returns.
All of these interleave.

When `run` has returned, `main` returns too, and the runtime cancels the other
tasks, each at its next await point. Until it gets to that they go on, so a run
may have steps of theirs after the return; it need not, and may end anywhere.

An inserted row is remembered with the processor and the subscription whose
event led to it. This log is a ghost: the table does not record it.
-/

namespace SteamHandler.Deployment

open Messages Subscriptions SubscriptionRegistry Dispatch RaydiumV4 Database TransitionSystem

/-- `TransactionMonitorSettings`. -/
structure TransactionMonitorSettings where
  /-- Program to monitor. -/
  programId : String
  /-- Expected signer. -/
  migrationPubkey : String
  /-- Read by no code. -/
  filterInitialize2 : Bool
  /-- Read by no code. -/
  filterSpecificSigner : Bool
  deriving DecidableEq, Repr

/-- The closures registered as handlers. -/
inductive Handler where
  /-- The closure of `setup_raydium_v4_monitor`, with what it captures. -/
  | raydiumV4 (monitor : RaydiumV4Monitor) (migrationPubkey : String)
  /-- Some other client's closure. -/
  | other (tag : ℕ)
  deriving DecidableEq, Repr

/-- Ghost: the processor and the subscription an event came through. -/
structure Origin where
  /-- Generation of the processor. -/
  generation : ConnectionManager.Generation
  /-- Subscription whose handler was called. -/
  subscription : SubscriptionId
  deriving DecidableEq, Repr

/-- How far a handler task has got. -/
inductive TaskStage where
  /-- Not run yet. -/
  | spawned (event : SubscriptionEvent)
  /-- Awaiting `insert_pool`. -/
  | inserting (signature poolAddress mintAddress : String) (rawTx : RawTransaction)
  deriving DecidableEq, Repr

/-- A detached task of the handler. -/
structure PoolTask where
  /-- Ghost: where its event came from. -/
  origin : Origin
  /-- Captured monitor. -/
  monitor : RaydiumV4Monitor
  /-- Captured `migration_pubkey`. -/
  migrationPubkey : String
  /-- Current await point. -/
  stage : TaskStage
  deriving DecidableEq, Repr

/-- Run a fresh task up to `insert_pool`; `none` where it returns before. -/
def PoolTask.start (bs58 : Bytes → String) (task : PoolTask) (event : SubscriptionEvent)
    (now : Int64) : Option PoolTask :=
  match task.monitor.createPoolEventFromSubscription bs58 event now with
  | .error _ => none
  | .ok poolEvent =>
    let hasInitialize2 := poolEvent.rawLogs.any fun logLine => contains logLine "initialize2"
    let hasTargetSigner := poolEvent.signers.contains task.migrationPubkey
    if !hasInitialize2 || !hasTargetSigner then none
    else
      match poolEvent.poolAddress,poolEvent.mintAddress with
      | some poolAddress,some mintAddress =>
        let rawTx : RawTransaction :=
          { signature := poolEvent.signature
            poolAddress := poolAddress
            mintAddress := mintAddress
            signers := poolEvent.signers
            timestamp := poolEvent.timestamp
            logs := poolEvent.rawLogs }
        some { task with stage := .inserting poolEvent.signature poolAddress mintAddress rawTx }
      | _,_ => none

/-- The closure of the monitor always returns `Ok(())`. -/
def possibleOutcome (call : HandlerCall Handler) : Bool :=
  match call.subscription.eventHandler.handler,call.outcome with
  | .raydiumV4 _ _,.error _ => false
  | _,_ => true

/-- The tasks that the handler calls of a dispatch spawn. -/
def spawnTasks (generation : ConnectionManager.Generation) (calls : List (HandlerCall Handler)) :
    List PoolTask :=
  calls.filterMap fun call =>
    match call.subscription.eventHandler.handler with
    | .raydiumV4 monitor migrationPubkey => some
      ⟨⟨generation,call.subscription.id⟩,monitor,migrationPubkey,.spawned call.event⟩
    | .other _ => none

theorem spawnTasks_append (generation : ConnectionManager.Generation)
    (first second : List (HandlerCall Handler)) :
    spawnTasks generation (first++second)=
      spawnTasks generation first++spawnTasks generation second := by
  simp only [spawnTasks,List.filterMap_append]

/-- The subscription that `setup_raydium_v4_monitor` registers. -/
def raydiumSubscription (settings : TransactionMonitorSettings) (nextSubId : UInt64) :
    Subscription Handler × UInt64 :=
  let raydiumMonitor : RaydiumV4Monitor := ⟨settings.programId,settings.migrationPubkey⟩
  raydiumMonitor.createSubscription nextSubId "raydium_v4"
    (.raydiumV4 raydiumMonitor settings.migrationPubkey)

/-- Where the main task is. -/
inductive RunPhase where
  /-- In `setup_raydium_v4_monitor`. -/
  | setup
  /-- In `run`, awaiting Ctrl+C. -/
  | waiting
  /-- Awaiting `mark_all_pools_inactive`. -/
  | marking
  /-- Awaiting room for the shutdown command. -/
  | shuttingDown
  /-- The shutdown command is queued or refused. -/
  | shutDown
  /-- `run` has returned; the tasks left may be cancelled at any moment. -/
  | returned
  deriving DecidableEq, Repr

/-- The whole program. -/
structure State where
  /-- Manager, processors and channels. -/
  system : ConnectionManager.State Handler
  /-- Live handler tasks. -/
  tasks : List PoolTask
  /-- The pool table. -/
  rows : List Row
  /-- Ghost: rows as they were inserted in this run, with their origin. -/
  inserted : List (Origin × Row)
  /-- Where the main task is. -/
  phase : RunPhase
  /-- `NEXT_SUB_ID`. -/
  nextSubId : UInt64

/-- Everything that can happen next. -/
inductive Action where
  /-- A step of the manager, a processor or another client. -/
  | system (action : ConnectionManager.Action Handler)
  /-- The subscription of the monitor is sent to the manager. -/
  | setup
  /-- Ctrl+C arrives. -/
  | ctrlC
  /-- The wait for Ctrl+C fails, and `run` returns its error. -/
  | ctrlCFailed
  /-- `mark_all_pools_inactive` completes; an error is logged. -/
  | markAllPoolsInactive (succeeds : Bool)
  /-- `shutdown` sends its command; an error is logged. -/
  | requestShutdown
  /-- `shutdown` broadcasts, and `run` returns. -/
  | finishRun
  /-- A handler task runs up to `insert_pool`. -/
  | startTask (task : PoolTask) (now : Int64)
  /-- `insert_pool` of a handler task completes; an error is logged. -/
  | insertPool (task : PoolTask) (succeeds : Bool)

section System

variable (bs58 : Bytes → String) (settings : TransactionMonitorSettings)

/-- Steps that are not left to the main task, with outcomes the handlers can
have: the handler of the monitor returns without an error. The manager value
is dropped when `run`, which owns it, has returned. -/
def permitted (state : State) : ConnectionManager.Action Handler → Bool
  | .signalShutdown => false
  | .dropOwner => decide (state.phase=.returned)
  | .dispatch generation order outcome =>
    (ConnectionManager.handlerCalls bs58 state.system (.dispatch generation order outcome)).all
      possibleOutcome
  | _ => true

/-- The tasks a step of the system spawns. -/
def spawnedBy (system : ConnectionManager.State Handler) :
    ConnectionManager.Action Handler → List PoolTask
  | .dispatch generation order outcome =>
    spawnTasks generation
      (ConnectionManager.handlerCalls bs58 system (.dispatch generation order outcome))
  | _ => []

/-- When each action can happen. -/
def Enabled (state : State) : Action → Prop
  | .system action => ConnectionManager.Enabled state.system action ∧
      permitted bs58 state action=true
  | .setup => state.phase=.setup ∧ ConnectionManager.Enabled state.system
      (.sendCommand (.addSubscription (raydiumSubscription settings state.nextSubId).1))
  | .ctrlC => state.phase=.waiting
  | .ctrlCFailed => state.phase=.waiting
  | .markAllPoolsInactive _ => state.phase=.marking
  | .requestShutdown => state.phase=.shuttingDown ∧
      (state.system.manager.phase=.exited ∨
        ConnectionManager.Enabled state.system (.sendCommand .shutdown))
  | .finishRun => state.phase=.shutDown ∧ ConnectionManager.Enabled state.system .signalShutdown
  | .startTask task _ => task∈state.tasks ∧
      match task.stage with
      | .spawned _ => True
      | .inserting _ _ _ _ => False
  | .insertPool task _ => task∈state.tasks ∧
      match task.stage with
      | .spawned _ => False
      | .inserting _ _ _ _ => True

/-- What each action does. -/
def next (state : State) : Action → State
  | .system action =>
    { state with
      system := ConnectionManager.next state.system action
      tasks := state.tasks++spawnedBy bs58 state.system action }
  | .setup =>
    let created := raydiumSubscription settings state.nextSubId
    { state with
      system := ConnectionManager.next state.system (.sendCommand (.addSubscription created.1))
      nextSubId := created.2
      phase := .waiting }
  | .ctrlC => { state with phase := .marking }
  | .ctrlCFailed => { state with phase := .returned }
  | .markAllPoolsInactive succeeds =>
    { state with
      rows :=
        if succeeds then (Database.markAllPoolsInactive state.rows "control+c").1 else state.rows
      phase := .shuttingDown }
  | .requestShutdown =>
    { state with
      system :=
        if state.system.manager.phase=.exited then state.system
        else ConnectionManager.next state.system (.sendCommand .shutdown)
      phase := .shutDown }
  | .finishRun =>
    { state with
      system := ConnectionManager.next state.system .signalShutdown
      phase := .returned }
  | .startTask task now =>
    match task.stage with
    | .spawned event =>
      { state with tasks := state.tasks.erase task++(task.start bs58 event now).toList }
    | .inserting _ _ _ _ => state
  | .insertPool task succeeds =>
    match task.stage with
    | .spawned _ => state
    | .inserting signature poolAddress mintAddress rawTx =>
      { state with
        tasks := state.tasks.erase task
        rows :=
          if succeeds then Database.insertPool state.rows signature poolAddress mintAddress rawTx
          else state.rows
        inserted :=
          if succeeds then state.inserted++
            [(task.origin,⟨signature,poolAddress,mintAddress,rawTx,true,none⟩)]
          else state.inserted }

/-- The program at the start of `setup_raydium_v4_monitor`. -/
def State.start (clock : ConnectionManager.Instant) (rows : List Row) : State :=
  ⟨.start clock,[],rows,[],.setup,1⟩

/-- The deployed program as a transition system. -/
def deployment : System State Action where
  initial := fun state => ∃ clock rows,state=.start clock rows
  enabled := Enabled bs58 settings
  next := next bs58 settings

/-- The guards are decidable, so concrete runs can be replayed. -/
instance decidableEnabled (state : State) : ∀ action,Decidable (Enabled bs58 settings state action)
  | .system _ => inferInstanceAs (Decidable (_ ∧ _))
  | .setup => inferInstanceAs (Decidable (_ ∧ _))
  | .ctrlC => inferInstanceAs (Decidable (_=_))
  | .ctrlCFailed => inferInstanceAs (Decidable (_=_))
  | .markAllPoolsInactive _ => inferInstanceAs (Decidable (_=_))
  | .requestShutdown => inferInstanceAs (Decidable (_ ∧ _))
  | .finishRun => inferInstanceAs (Decidable (_ ∧ _))
  | .startTask task _ => by
    dsimp only [Enabled]
    cases task.stage <;> infer_instance
  | .insertPool task _ => by
    dsimp only [Enabled]
    cases task.stage <;> infer_instance

instance decidableSystemEnabled (state : State) (action : Action) :
    Decidable ((deployment bs58 settings).enabled state action) :=
  decidableEnabled bs58 settings state action

/-- The step of the manager's system that a step of the program contains. -/
def systemAction (state : State) : Action → Option (ConnectionManager.Action Handler)
  | .system action => some action
  | .setup => some (.sendCommand (.addSubscription (raydiumSubscription settings state.nextSubId).1))
  | .requestShutdown =>
    if state.system.manager.phase=.exited then none else some (.sendCommand .shutdown)
  | .finishRun => some .signalShutdown
  | _ => none

/-- The program runs the connection manager's system: everything proved of that
system's runs holds of it here. -/
def managed : Simulation (deployment bs58 settings)
    (ConnectionManager.connectionManager Handler) where
  view := State.system
  performs := systemAction settings
  initial := by
    intro state hstart
    obtain ⟨clock,rows,rfl⟩ := hstart
    exact ConnectionManager.initial_iff.mpr ⟨clock,rfl⟩
  silent := by
    intro state action _ henabled hsilent
    cases action with
    | requestShutdown =>
      by_cases hexit : state.system.manager.phase=.exited
      · exact if_pos hexit
      · rw [systemAction,if_neg hexit] at hsilent
        cases hsilent
    | startTask task now =>
      change (next bs58 settings state (.startTask task now)).system=state.system
      unfold next
      dsimp only
      split <;> rfl
    | insertPool task succeeds =>
      change (next bs58 settings state (.insertPool task succeeds)).system=state.system
      unfold next
      dsimp only
      split <;> rfl
    | system action => cases hsilent
    | setup => cases hsilent
    | finishRun => cases hsilent
    | _ => rfl
  visible := by
    intro state action performed _ henabled hperforms
    cases action with
    | system action =>
      cases hperforms
      exact ⟨henabled.1,rfl⟩
    | setup =>
      cases hperforms
      exact ⟨henabled.2,rfl⟩
    | requestShutdown =>
      by_cases hexit : state.system.manager.phase=.exited
      · rw [systemAction,if_pos hexit] at hperforms
        cases hperforms
      · rw [systemAction,if_neg hexit] at hperforms
        cases hperforms
        exact ⟨henabled.2.resolve_left hexit,if_neg hexit⟩
    | finishRun =>
      cases hperforms
      exact ⟨henabled.2,rfl⟩
    | _ => cases hperforms

end System

/-- Settings for the sample run below. -/
def sampleSettings : TransactionMonitorSettings := ⟨"2","4",true,true⟩

/-- A transaction of the program `2`, signed by `4`, that creates the pool `3`
for the token `pump`. -/
def sampleTransaction : SubscribeUpdateTransactionInfo where
  signature := []
  isVote := false
  transaction := some ⟨some
    { header := some ⟨1⟩
      accountKeys := [[3],[1],[2],[0x8E,0xA2,0xCF]]
      instructions := [⟨1,[0,0,0,0,2,3]⟩] }⟩
  statusMeta := some
    { err := none
      innerInstructions := []
      innerInstructionsNone := false
      logMessages := ["Program log: initialize2"]
      logMessagesNone := false
      loadedWritableAddresses := []
      loadedReadonlyAddresses := [] }

/-- The subscription of the monitor under the first identifier. -/
def sampleSubscription : Subscription Handler := (raydiumSubscription sampleSettings 1).1

/-- The monitor is set up, a connection is made, and the sample transaction is
dispatched on it. -/
def sampleRun : List Action :=
  [.setup,.system .enterLoop,.system (.connectSucceeded []),.system .recordConnection,
    .system .receiveCommand,.system (.sendUpdate [sampleSubscription] true),.system .enterLoop,
    .system (.receiveItem 0 (.ok ⟨some (.transaction (some sampleTransaction))⟩)),
    .system (.dispatch 0 [sampleSubscription] fun _ => .ok ())]

/-- The task that dispatch spawns. -/
def sampleTask : PoolTask :=
  ⟨⟨0,⟨1⟩⟩,⟨"2","4"⟩,"4",.spawned (.transaction sampleTransaction)⟩

/-- The same task when it awaits the database. -/
def samplePending : PoolTask :=
  { sampleTask with
    stage := .inserting "invalid-signature" "3" "pump"
      { signature := "invalid-signature"
        poolAddress := "3"
        mintAddress := "pump"
        signers := ["4"]
        timestamp := 0
        logs := ["Program log: initialize2"] } }

example : (deployment Base58.encode sampleSettings).Legal (.start 0 [])
    (sampleRun++[.startTask sampleTask 0,.insertPool samplePending true]) := by decide

end SteamHandler.Deployment
