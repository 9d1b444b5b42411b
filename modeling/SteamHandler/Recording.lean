import SteamHandler.Extraction
import SteamHandler.Sessions
import SteamHandler.Deployment

/-!
# What the monitor records

A row goes through five stages: the stream, the dispatch, a handler task, its
criteria, the table. What a stream item is worth is stated here without these
stages, from the update alone. The items a processor has taken are then at all
times accounted for: by rows inserted, by tasks on their way, and by the one
event it may be about to dispatch.
-/

namespace SteamHandler.Recording

open Messages Subscriptions SubscriptionRegistry Dispatch RaydiumV4 Database Deployment
open TransitionSystem
open ConnectionManager (Generation ProcessorPhase)
open Extraction (announcedSigners numSigners_eq)

/-- The columns of a row that come from the update. -/
structure RowKey where
  /-- Column `signature`. -/
  signature : String
  /-- Column `pool_address`. -/
  poolAddress : String
  /-- Column `token_mint`. -/
  tokenMint : String
  deriving DecidableEq, Repr

/-- These columns of a row. -/
def rowKey (row : Row) : RowKey := ⟨row.signature,row.poolAddress,row.tokenMint⟩

section Worth

variable (bs58 : Bytes → String) (programId migrationPubkey : String)

/-- A signature has 64 bytes and is recorded in base58; of other bytes it is recorded
that they are none. -/
def signatureColumn (signature : Bytes) : String :=
  if signature.length=64 then bs58 signature else "invalid-signature"

/-- The monitor makes the same of it. -/
theorem signatureText_eq (signature : Bytes) :
    signatureText bs58 signature=signatureColumn bs58 signature := rfl

/-- What a transaction update is worth: it has a message, its recorded logs
mention `initialize2`, the migration key is among the first keys, as many as the
header announces, and extraction yields both a pool and a mint. -/
def recordOf (txInfo : SubscribeUpdateTransactionInfo) : Option RowKey :=
  match messageOf txInfo,txInfo.statusMeta,
    extractPoolAddressMintAndSigners bs58 txInfo programId with
  | some message,some statusMeta,.ok (some poolAddress,some mintAddress,_) =>
    if statusMeta.logMessagesNone=false ∧
        (∃ logLine∈statusMeta.logMessages,contains logLine "initialize2"=true) ∧
        migrationPubkey∈(message.accountKeys.map bs58).take
          (min (announcedSigners message) message.accountKeys.length) then
      some ⟨signatureColumn bs58 txInfo.signature,poolAddress,mintAddress⟩
    else none
  | _,_,_ => none

/-- Only transactions are worth anything. -/
def recordOfEvent : SubscriptionEvent → Option RowKey
  | .transaction txInfo => recordOf bs58 programId migrationPubkey txInfo
  | _ => none

/-- What a stream item is worth. -/
def recordOfItem : StreamItem → Option RowKey
  | .ok ⟨some (.transaction (some txInfo))⟩ => recordOf bs58 programId migrationPubkey txInfo
  | _ => none

/-- The items before the first error. -/
def beforeFirstError (items : List StreamItem) : List StreamItem := items.takeWhile Except.isOk

/-- The rows that the items of a stream are worth. -/
def claimedKeys (items : List StreamItem) : List RowKey :=
  (beforeFirstError items).filterMap (recordOfItem bs58 programId migrationPubkey)

/-- One more item adds its worth, as long as no error came before. -/
theorem claimedKeys_snoc {items : List StreamItem} (hok : ∀ item∈items,item.isOk=true)
    (item : StreamItem) :
    claimedKeys bs58 programId migrationPubkey (items++[item])=
      claimedKeys bs58 programId migrationPubkey items++
        (recordOfItem bs58 programId migrationPubkey item).toList := by
  have hall : beforeFirstError items=items := List.takeWhile_eq_self_iff.mpr hok
  have hsplit : beforeFirstError (items++[item])=items++beforeFirstError [item] :=
    List.takeWhile_append_of_pos hok
  have hlast : (beforeFirstError [item]).filterMap (recordOfItem bs58 programId migrationPubkey)=
      (recordOfItem bs58 programId migrationPubkey item).toList := by
    cases item with
    | error status => rfl
    | ok msg =>
      change [Except.ok msg].filterMap _=_
      cases hworth : recordOfItem bs58 programId migrationPubkey (.ok msg) <;>
        simp only [List.filterMap_cons,hworth,List.filterMap_nil,Option.toList_none,
          Option.toList_some]
  rw [claimedKeys,claimedKeys,hsplit,hall,List.filterMap_append,hlast]

/-- An update is worth a row only if it passes the subscription's own check. -/
theorem matches_of_recordOf {txInfo : SubscribeUpdateTransactionInfo}
    {filter : SubscribeRequestFilterTransactions} (hfilter : filter.accountInclude=[programId])
    (h : (recordOf bs58 programId migrationPubkey txInfo).isSome=true) :
    matchesTransaction bs58 filter txInfo=true := by
  unfold recordOf at h
  split at h
  · rename_i hextract
    exact matchesTransaction_of_pool bs58 hextract hfilter
  · cases h

/-- The log criterion, on the lines the monitor passes on. -/
theorem any_logMessagesOf_iff {txInfo : SubscribeUpdateTransactionInfo} {test : String → Bool} :
    (logMessagesOf txInfo).any test=true ↔
      ∃ statusMeta,txInfo.statusMeta=some statusMeta ∧ statusMeta.logMessagesNone=false ∧
        ∃ logLine∈statusMeta.logMessages,test logLine=true := by
  unfold logMessagesOf
  cases txInfo.statusMeta with
  | none => simp only [List.any_nil,Bool.false_eq_true,reduceCtorEq,false_and,exists_false]
  | some statusMeta =>
    cases hnone : statusMeta.logMessagesNone with
    | true => simp only [hnone,Bool.not_true,Bool.false_eq_true,if_false,List.any_nil,
        Option.some.injEq,exists_eq_left',Bool.true_eq_false,false_and]
    | false => simp only [hnone,Bool.not_false,if_true,List.any_eq_true,Option.some.injEq,
        exists_eq_left',true_and]

/-- Within the branch of a pool and a mint, an update is worth its row exactly
under the two criteria of the handler. -/
theorem recordOf_of_extract {txInfo : SubscribeUpdateTransactionInfo}
    {poolAddress mintAddress : String} {signers : List String}
    (h : extractPoolAddressMintAndSigners bs58 txInfo programId=
      .ok (some poolAddress,some mintAddress,signers)) :
    recordOf bs58 programId migrationPubkey txInfo=
      if ((logMessagesOf txInfo).any fun logLine => contains logLine "initialize2")=true ∧
          signers.contains migrationPubkey=true then
        some ⟨signatureColumn bs58 txInfo.signature,poolAddress,mintAddress⟩
      else none := by
  obtain ⟨message,hmessage,_,hsigners⟩ := message_of_extract bs58 h
  have htake : signers=(message.accountKeys.map bs58).take
      (min (announcedSigners message) message.accountKeys.length) := by
    rw [←numSigners_eq,←List.length_map (f := bs58),←List.take_eq_take_min]
    exact hsigners
  have hcontains : signers.contains migrationPubkey=true ↔
      migrationPubkey∈(message.accountKeys.map bs58).take
        (min (announcedSigners message) message.accountKeys.length) := by
    rw [List.contains_iff_mem,htake]
  unfold recordOf
  rw [hmessage,h]
  cases hmeta : txInfo.statusMeta with
  | none =>
    have hlogs : ¬((logMessagesOf txInfo).any fun logLine => contains logLine "initialize2")=true := by
      rw [any_logMessagesOf_iff,hmeta]
      simp only [reduceCtorEq,false_and,exists_false,not_false_iff]
    exact (if_neg fun hboth => hlogs hboth.1).symm
  | some statusMeta =>
    dsimp only
    refine if_congr ?_ rfl rfl
    rw [hcontains,any_logMessagesOf_iff,hmeta]
    simp only [Option.some.injEq,exists_eq_left',and_assoc]

/-- A task that starts on an event goes on to insert exactly the row the event
is worth. -/
theorem start_cases (task : PoolTask) (event : SubscriptionEvent) (now : Int64) :
    (task.start bs58 event now=none ∧
      recordOfEvent bs58 task.monitor.programId task.migrationPubkey event=none) ∨
    ∃ signature poolAddress mintAddress rawTx,
      task.start bs58 event now=
        some { task with stage := .inserting signature poolAddress mintAddress rawTx } ∧
      recordOfEvent bs58 task.monitor.programId task.migrationPubkey event=
        some ⟨signature,poolAddress,mintAddress⟩ := by
  cases event with
  | transaction txInfo =>
    simp only [PoolTask.start,RaydiumV4Monitor.createPoolEventFromSubscription,
      RaydiumV4Monitor.processTransaction,recordOfEvent]
    cases hextract : extractPoolAddressMintAndSigners bs58 txInfo task.monitor.programId with
    | error error =>
      refine Or.inl ⟨rfl,?_⟩
      unfold recordOf
      rw [hextract]
      split
      · rename_i hfound
        cases hfound
      · rfl
    | ok found =>
      obtain ⟨maybePool,maybeMint,signers⟩ := found
      cases maybePool with
      | none =>
        refine Or.inl ⟨ite_self _,?_⟩
        unfold recordOf
        rw [hextract]
        split
        · rename_i hfound
          cases hfound
        · rfl
      | some poolAddress =>
        cases maybeMint with
        | none =>
          refine Or.inl ⟨ite_self _,?_⟩
          unfold recordOf
          rw [hextract]
          split
          · rename_i hfound
            cases hfound
          · rfl
        | some mintAddress =>
          rw [recordOf_of_extract bs58 _ _ hextract,signatureText_eq]
          dsimp only
          by_cases hboth : ((logMessagesOf txInfo).any fun logLine =>
              contains logLine "initialize2")=true ∧ signers.contains task.migrationPubkey=true
          · rw [if_pos hboth,hboth.1,hboth.2]
            exact Or.inr ⟨_,_,_,_,rfl,rfl⟩
          · have hgate : (!((logMessagesOf txInfo).any fun logLine =>
                contains logLine "initialize2") || !signers.contains task.migrationPubkey)=true := by
              rw [Bool.or_eq_true,Bool.not_eq_true',Bool.not_eq_true',←Bool.not_eq_true,
                ←Bool.not_eq_true]
              exact not_and_or.mp hboth
            rw [if_neg hboth,if_pos hgate]
            exact Or.inl ⟨rfl,rfl⟩
  | _ => exact Or.inl ⟨rfl,rfl⟩

end Worth

section Ledger

variable (bs58 : Bytes → String)

/-- Rows inserted on behalf of an origin. -/
def insertedKeys (origin : Origin) (inserted : List (Origin × Row)) : List RowKey :=
  (inserted.filter fun entry => entry.1=origin).map fun entry => rowKey entry.2

/-- The row a task will insert if nothing fails. -/
def expected (task : PoolTask) : Option RowKey :=
  match task.stage with
  | .spawned event => recordOfEvent bs58 task.monitor.programId task.migrationPubkey event
  | .inserting signature poolAddress mintAddress _ => some ⟨signature,poolAddress,mintAddress⟩

/-- Rows that the tasks of an origin will insert. -/
def dueKeys (origin : Origin) (tasks : List PoolTask) : List RowKey :=
  (tasks.filter fun task => task.origin=origin).filterMap (expected bs58)

/-- The row that an event about to be dispatched is worth. -/
def awaitingKeys (programId migrationPubkey : String) : ProcessorPhase → List RowKey
  | .dispatching event => (recordOfEvent bs58 programId migrationPubkey event).toList
  | _ => []

/-- What an item is worth awaits the processor that has taken it. -/
theorem awaitingKeys_onItem (programId migrationPubkey : String) (item : StreamItem) :
    awaitingKeys bs58 programId migrationPubkey (.onItem item)=
      (recordOfItem bs58 programId migrationPubkey item).toList := by
  cases item with
  | error status => rfl
  | ok msg =>
    obtain ⟨update⟩ := msg
    cases update with
    | none => rfl
    | some update =>
      cases update with
      | transaction txInfo => cases txInfo <;> rfl
      | account accountInfo => cases accountInfo <;> rfl
      | _ => rfl

/-- The items a processor has taken off its stream. -/
def consumed (generation : Generation) (actions : List Action) : List StreamItem :=
  actions.filterMap fun action =>
    match action with
    | .system (.receiveItem other item) => if other=generation then some item else none
    | _ => none

theorem consumed_append (generation : Generation) (first second : List Action) :
    consumed generation (first++second)=
      consumed generation first++consumed generation second := by
  simp only [consumed,List.filterMap_append]

theorem insertedKeys_append (origin : Origin) (first second : List (Origin × Row)) :
    insertedKeys origin (first++second)=
      insertedKeys origin first++insertedKeys origin second := by
  simp only [insertedKeys,List.filter_append,List.map_append]

theorem dueKeys_append (origin : Origin) (first second : List PoolTask) :
    dueKeys bs58 origin (first++second)=
      dueKeys bs58 origin first++dueKeys bs58 origin second := by
  simp only [dueKeys,List.filter_append,List.filterMap_append]

/-- Taking a task out of the list takes out what it was worth. -/
theorem count_dueKeys_erase (origin : Origin) {task : PoolTask} {tasks : List PoolTask}
    (hmem : task∈tasks) (key : RowKey) :
    (dueKeys bs58 origin tasks).count key=
      (dueKeys bs58 origin [task]).count key+(dueKeys bs58 origin (tasks.erase task)).count key := by
  have hperm : tasks.Perm ([task]++tasks.erase task) := List.perm_cons_erase hmem
  have hkeys := (hperm.filter fun task => task.origin=origin).filterMap (expected bs58)
  change (dueKeys bs58 origin tasks).Perm (dueKeys bs58 origin ([task]++tasks.erase task)) at hkeys
  rw [hkeys.count_eq,dueKeys_append,List.count_append]

theorem dueKeys_singleton (origin : Origin) (task : PoolTask) :
    dueKeys bs58 origin [task]=if task.origin=origin then (expected bs58 task).toList else [] := by
  rw [dueKeys]
  by_cases horigin : task.origin=origin
  · rw [List.filter_singleton,if_pos horigin,decide_eq_true horigin]
    cases hexpected : expected bs58 task <;> simp only [cond_true,List.filterMap_cons,hexpected,
      List.filterMap_nil,Option.toList_none,Option.toList_some]
  · rw [List.filter_singleton,if_neg horigin,decide_eq_false horigin]
    rfl

/-- Starting a task does not change what it is worth. -/
theorem dueKeys_start (origin : Origin) {task : PoolTask} {event : SubscriptionEvent}
    (hstage : task.stage=.spawned event) (now : Int64) :
    dueKeys bs58 origin (task.start bs58 event now).toList=dueKeys bs58 origin [task] := by
  have hexpected : expected bs58 task=
      recordOfEvent bs58 task.monitor.programId task.migrationPubkey event := by
    simp only [expected,hstage]
  rcases start_cases bs58 task event now with
    ⟨hstart,hworth⟩|⟨signature,poolAddress,mintAddress,rawTx,hstart,hworth⟩
  · rw [dueKeys_singleton,hexpected,hworth,hstart]
    exact (ite_self _).symm
  · rw [dueKeys_singleton,hexpected,hworth,hstart,Option.toList_some,dueKeys_singleton]
    rfl

/-- A task that inserts is worth the row it inserts. -/
theorem dueKeys_inserting (origin : Origin) {task : PoolTask}
    {signature poolAddress mintAddress : String} {rawTx : RawTransaction}
    (hstage : task.stage=.inserting signature poolAddress mintAddress rawTx) :
    dueKeys bs58 origin [task]=
      insertedKeys origin
        [(task.origin,⟨signature,poolAddress,mintAddress,rawTx,true,none⟩)] := by
  have hexpected : expected bs58 task=some ⟨signature,poolAddress,mintAddress⟩ := by
    simp only [expected,hstage]
  rw [dueKeys_singleton,hexpected,insertedKeys,List.filter_singleton]
  by_cases horigin : task.origin=origin
  · rw [if_pos horigin,decide_eq_true horigin]
    rfl
  · rw [if_neg horigin,decide_eq_false horigin]
    rfl

/-- Handler calls of other subscriptions, or in other processors, are worth
nothing to an origin. -/
theorem dueKeys_foreign {origin : Origin} {generation : Generation}
    {calls : List (HandlerCall Handler)}
    (hforeign : ∀ call∈calls,⟨generation,call.subscription.id⟩≠origin) :
    dueKeys bs58 origin (spawnTasks generation calls)=[] := by
  have hnone : (spawnTasks generation calls).filter (fun task => task.origin=origin)=[] := by
    rw [List.filter_eq_nil_iff]
    intro task htask
    obtain ⟨call,hcall,hspawned⟩ := List.mem_filterMap.mp htask
    have hother := hforeign call hcall
    cases hhandler : call.subscription.eventHandler.handler with
    | raydiumV4 monitor migrationPubkey =>
      rw [hhandler] at hspawned
      rw [←Option.some.inj hspawned]
      simp only [hother,decide_false,Bool.false_eq_true,not_false_iff]
    | other tag =>
      rw [hhandler] at hspawned
      cases hspawned
  rw [dueKeys,hnone,List.filterMap_nil]

/-- Of the calls of a processor only those of its own subscription are worth
anything to an origin. -/
theorem dueKeys_own (generation : Generation) (subId : SubscriptionId)
    (calls : List (HandlerCall Handler)) :
    dueKeys bs58 ⟨generation,subId⟩ (spawnTasks generation calls)=
      dueKeys bs58 ⟨generation,subId⟩
        (spawnTasks generation (calls.filter fun call => call.subscription.id=subId)) := by
  induction calls with
  | nil => rfl
  | cons call calls ih =>
    have hsplit : call::calls=[call]++calls := rfl
    rw [hsplit,spawnTasks_append,dueKeys_append,ih,List.filter_append]
    by_cases hown : call.subscription.id=subId
    · rw [List.filter_singleton,decide_eq_true hown,cond_true,spawnTasks_append,dueKeys_append]
    · have hforeign : dueKeys bs58 ⟨generation,subId⟩ (spawnTasks generation [call])=[] := by
        refine dueKeys_foreign bs58 fun other hother hsame => hown ?_
        rw [List.mem_singleton.mp hother] at hsame
        exact (Origin.mk.inj hsame).2
      rw [List.filter_singleton,decide_eq_false hown,cond_false,hforeign,List.nil_append,
        List.nil_append]

/-- What a dispatch is worth to the monitor's subscription: its handler is
called at most once, and is called if the event is worth a row. -/
theorem dueKeys_dispatch {subs : SubscriptionMap Handler} {order : List (Subscription Handler)}
    (horder : subs.IterationOrder order) {settings : TransactionMonitorSettings}
    {nextSubId : UInt64} (hregistered : subs.Contains (raydiumSubscription settings nextSubId).1)
    (generation : Generation) (event : SubscriptionEvent)
    (outcome : SubscriptionId → Except String Unit) :
    dueKeys bs58 ⟨generation,(raydiumSubscription settings nextSubId).1.id⟩
        (spawnTasks generation (dispatchEvent bs58 outcome event order))=
      (recordOfEvent bs58 settings.programId settings.migrationPubkey event).toList := by
  have hcalls := calls_of_registered horder bs58 outcome event hregistered
  rw [dueKeys_own,hcalls]
  cases hmatch : (raydiumSubscription settings nextSubId).1.matchesEvent bs58 event with
  | true =>
    change dueKeys bs58 _ [_]=_
    rw [dueKeys_singleton,if_pos rfl]
    rfl
  | false =>
    cases event with
    | transaction txInfo =>
      have hnone : recordOf bs58 settings.programId settings.migrationPubkey txInfo=none := by
        by_contra hsome
        have hmatches : (raydiumSubscription settings nextSubId).1.matchesEvent bs58
            (.transaction txInfo)=true :=
          matches_of_recordOf bs58 _ _ rfl (Option.isSome_iff_ne_none.mpr hsome)
        exact Bool.false_ne_true (hmatch.symm.trans hmatches)
      rw [recordOfEvent,hnone]
      rfl
    | _ => rfl

end Ledger

section Table

/-- A row as it was when it was inserted. -/
def asInserted (row : Row) : Row := { row with isActive := true, deathReason := none }

/-- Marking does not touch what was inserted. -/
theorem asInserted_markInactive (reason : String) (row : Row) :
    asInserted (row.markInactive reason)=asInserted row := by
  unfold Row.markInactive
  split <;> rfl

variable {bs58 : Bytes → String} {settings : TransactionMonitorSettings}

/-- A step other than a marking appends to the table what it adds to the log, as
inserted. -/
theorem appended_next (state : State) {action : Action}
    (hunmarked : ∀ succeeds,action≠.markAllPoolsInactive succeeds) :
    ∃ added,added.map asInserted=added ∧
      (next bs58 settings state action).rows=state.rows++added ∧
      (next bs58 settings state action).inserted.map Prod.snd=
        state.inserted.map Prod.snd++added := by
  have hnothing : ∀ after : State,after.rows=state.rows → after.inserted=state.inserted →
      ∃ added,added.map asInserted=added ∧ after.rows=state.rows++added ∧
        after.inserted.map Prod.snd=state.inserted.map Prod.snd++added := by
    intro after hrows hinserted
    refine ⟨[],rfl,?_,?_⟩
    · rw [hrows,List.append_nil]
    · rw [hinserted,List.append_nil]
  cases action with
  | markAllPoolsInactive succeeds => exact absurd rfl (hunmarked succeeds)
  | startTask task now =>
    cases hstage : task.stage <;> simp only [next,hstage] <;> exact hnothing _ rfl rfl
  | insertPool task succeeds =>
    cases hstage : task.stage with
    | spawned event =>
      simp only [next,hstage]
      exact hnothing _ rfl rfl
    | inserting signature poolAddress mintAddress rawTx =>
      cases succeeds with
      | false =>
        simp only [next,hstage,Bool.false_eq_true,if_false]
        exact hnothing _ rfl rfl
      | true =>
        simp only [next,hstage,if_true,Database.insertPool]
        exact ⟨[⟨signature,poolAddress,mintAddress,rawTx,true,none⟩],rfl,rfl,List.map_append⟩
  | _ => exact hnothing _ rfl rfl

/-- The table holds what it held and what was inserted, in that order. -/
theorem table_of_run {start : State} {actions : List Action}
    (hinit : (deployment bs58 settings).initial start)
    (hrun : (deployment bs58 settings).Legal start actions) :
    ((deployment bs58 settings).final start actions).rows.map asInserted=
      start.rows.map asInserted++
        ((deployment bs58 settings).final start actions).inserted.map Prod.snd := by
  refine System.Legal.history_invariant
    (I := fun _ state => state.rows.map asInserted=
      start.rows.map asInserted++state.inserted.map Prod.snd) ?_ ?_ hrun
  · obtain ⟨clock,rows,rfl⟩ := hinit
    exact (List.append_nil _).symm
  · intro history state action hpast henabled
    change (next bs58 settings state action).rows.map asInserted=
      start.rows.map asInserted++(next bs58 settings state action).inserted.map Prod.snd
    by_cases hmarks : ∃ succeeds,action=.markAllPoolsInactive succeeds
    · obtain ⟨succeeds,rfl⟩ := hmarks
      cases succeeds with
      | false => exact hpast
      | true =>
        refine Eq.trans ?_ hpast
        change (state.rows.map (Row.markInactive "control+c")).map asInserted=
          state.rows.map asInserted
        rw [List.map_map]
        exact List.map_congr_left fun row _ => asInserted_markInactive "control+c" row
    · obtain ⟨added,hadded,hrows,hinserted⟩ := @appended_next bs58 settings state action
        fun succeeds hsame => hmarks ⟨succeeds,hsame⟩
      rw [hrows,hinserted,List.map_append,hadded,hpast,List.append_assoc]

end Table

end SteamHandler.Recording
