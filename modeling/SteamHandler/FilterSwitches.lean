import SteamHandler.Deployment

/-!
# The configured filter switches

The settings have a switch for each of the two criteria of the handler. The
handler reads neither and always applies both criteria, so it does what the
settings file documents exactly where a criterion that is switched off makes
no difference.
-/

namespace SteamHandler.FilterSwitches

open Messages Subscriptions Dispatch RaydiumV4 Database Deployment
open ConnectionManager (Generation)

/-- The task that the monitor's handler spawns for an event. -/
def handlerTask (settings : TransactionMonitorSettings) (origin : Origin)
    (event : SubscriptionEvent) : PoolTask :=
  ⟨origin,⟨settings.programId,settings.migrationPubkey⟩,settings.migrationPubkey,.spawned event⟩

/-- A call of the handler installed by `setup_raydium_v4_monitor` spawns it. -/
theorem spawnTasks_installed (settings : TransactionMonitorSettings) (nextSubId : UInt64)
    (generation : Generation) (event : SubscriptionEvent) (outcome : Except String Unit) :
    spawnTasks generation [⟨(raydiumSubscription settings nextSubId).1,event,outcome⟩]=
      [handlerTask settings ⟨generation,(raydiumSubscription settings nextSubId).1.id⟩ event] :=
  rfl

section Gate

variable (bs58 : Bytes → String)

/-- Some recorded log line mentions `initialize2`. -/
def MentionsInitialize2 (txInfo : SubscribeUpdateTransactionInfo) : Prop :=
  ∃ logLine∈logMessagesOf txInfo,contains logLine "initialize2"=true

/-- Extraction yields a pool, a token and these signers. -/
def Extracts (programId : String) (txInfo : SubscribeUpdateTransactionInfo)
    (signers : List String) : Prop :=
  ∃ poolAddress mintAddress,extractPoolAddressMintAndSigners bs58 txInfo programId=
    .ok (some poolAddress,some mintAddress,signers)

/-- The gate as the settings file documents it: each criterion applies where
its switch is on. -/
def DocumentedGate (settings : TransactionMonitorSettings)
    (txInfo : SubscribeUpdateTransactionInfo) : Prop :=
  ∃ signers,Extracts bs58 settings.programId txInfo signers ∧
    (settings.filterInitialize2=true → MentionsInitialize2 txInfo) ∧
    (settings.filterSpecificSigner=true → settings.migrationPubkey∈signers)

/-- The switches make no difference: both criteria are met, or one that is
switched on is not. -/
def SwitchesIrrelevant (settings : TransactionMonitorSettings)
    (txInfo : SubscribeUpdateTransactionInfo) : Prop :=
  ∀ signers,Extracts bs58 settings.programId txInfo signers →
    (MentionsInitialize2 txInfo ∧ settings.migrationPubkey∈signers) ∨
    (settings.filterInitialize2=true ∧ ¬MentionsInitialize2 txInfo) ∨
    (settings.filterSpecificSigner=true ∧ settings.migrationPubkey∉signers)

/-- With both switches on they never make a difference. -/
theorem switchesIrrelevant_of_on {settings : TransactionMonitorSettings}
    (hinitialize2 : settings.filterInitialize2=true)
    (hsigner : settings.filterSpecificSigner=true) (txInfo : SubscribeUpdateTransactionInfo) :
    SwitchesIrrelevant bs58 settings txInfo := by
  intro signers _
  by_cases hmentions : MentionsInitialize2 txInfo
  · by_cases hsigned : settings.migrationPubkey∈signers
    · exact Or.inl ⟨hmentions,hsigned⟩
    · exact Or.inr (Or.inr ⟨hsigner,hsigned⟩)
  · exact Or.inr (Or.inl ⟨hinitialize2,hmentions⟩)

/-- A task reaches `insert_pool` exactly when extraction is complete and both
criteria are met. -/
theorem start_isSome_iff (task : PoolTask) (txInfo : SubscribeUpdateTransactionInfo)
    (now : Int64) :
    (task.start bs58 (.transaction txInfo) now).isSome=true ↔
      ∃ signers,Extracts bs58 task.monitor.programId txInfo signers ∧
        MentionsInitialize2 txInfo ∧ task.migrationPubkey∈signers := by
  have hmentions : MentionsInitialize2 txInfo ↔
      ((logMessagesOf txInfo).any fun logLine => contains logLine "initialize2")=true := by
    rw [List.any_eq_true]
    rfl
  simp only [PoolTask.start,RaydiumV4Monitor.createPoolEventFromSubscription,
    RaydiumV4Monitor.processTransaction,Extracts]
  cases extractPoolAddressMintAndSigners bs58 txInfo task.monitor.programId with
  | error error => simp only [Option.isSome_none,Bool.false_eq_true,reduceCtorEq,exists_false,
      false_and]
  | ok found =>
    obtain ⟨maybePool,maybeMint,signers⟩ := found
    dsimp only
    rw [hmentions]
    by_cases hgate : (!((logMessagesOf txInfo).any fun logLine =>
        contains logLine "initialize2") || !signers.contains task.migrationPubkey)=true
    · rw [if_pos hgate]
      rw [Bool.or_eq_true,Bool.not_eq_true',Bool.not_eq_true',←Bool.not_eq_true,
        ←Bool.not_eq_true,List.contains_iff_mem] at hgate
      refine iff_of_false Bool.false_ne_true ?_
      intro ⟨others,⟨_,_,hfound⟩,hlogs,hsigned⟩
      cases hfound
      rcases hgate with hgate|hgate
      · exact hgate hlogs
      · exact hgate hsigned
    · rw [if_neg hgate]
      rw [Bool.or_eq_true,Bool.not_eq_true',Bool.not_eq_true',not_or,Bool.not_eq_false,
        Bool.not_eq_false,List.contains_iff_mem] at hgate
      cases maybePool with
      | none =>
        refine iff_of_false Bool.false_ne_true ?_
        intro ⟨_,⟨_,_,hfound⟩,_⟩
        cases hfound
      | some poolAddress =>
        cases maybeMint with
        | none =>
          refine iff_of_false Bool.false_ne_true ?_
          intro ⟨_,⟨_,_,hfound⟩,_⟩
          cases hfound
        | some mintAddress =>
          exact iff_of_true rfl ⟨signers,⟨poolAddress,mintAddress,rfl⟩,hgate⟩

/-- For every settings value and every transaction the installed handler is
called with: it reaches `insert_pool` exactly when the documented gate is
open, if and only if the switches make no difference; and they make none when
both are on. -/
theorem switches_decide_iff (settings : TransactionMonitorSettings) (origin : Origin)
    (txInfo : SubscribeUpdateTransactionInfo) (now : Int64) :
    ((((handlerTask settings origin (.transaction txInfo)).start bs58 (.transaction txInfo)
        now).isSome=true ↔ DocumentedGate bs58 settings txInfo) ↔
      SwitchesIrrelevant bs58 settings txInfo) ∧
    (settings.filterInitialize2=true → settings.filterSpecificSigner=true →
      SwitchesIrrelevant bs58 settings txInfo) := by
  refine ⟨?_,fun hinitialize2 hsigner => switchesIrrelevant_of_on bs58 hinitialize2 hsigner txInfo⟩
  have hreached := start_isSome_iff bs58 (handlerTask settings origin (.transaction txInfo))
    txInfo now
  constructor
  · intro hdocumented signers hextracts
    by_contra hdifferent
    rw [not_or,not_or] at hdifferent
    obtain ⟨hnot,hinitialize2,hsigner⟩ := hdifferent
    have hopen : DocumentedGate bs58 settings txInfo := by
      refine ⟨signers,hextracts,fun hon => ?_,fun hon => ?_⟩
      · by_contra hnone
        exact hinitialize2 ⟨hon,hnone⟩
      · by_contra hnone
        exact hsigner ⟨hon,hnone⟩
    obtain ⟨others,⟨_,_,hfound⟩,hmentions,hsigned⟩ := hreached.mp (hdocumented.mpr hopen)
    obtain ⟨_,_,hsame⟩ := hextracts
    cases hfound.symm.trans hsame
    exact hnot ⟨hmentions,hsigned⟩
  · intro hirrelevant
    rw [hreached]
    constructor
    · intro ⟨signers,hextracts,hmentions,hsigned⟩
      exact ⟨signers,hextracts,fun _ => hmentions,fun _ => hsigned⟩
    · intro ⟨signers,hextracts,hinitialize2,hsigner⟩
      rcases hirrelevant signers hextracts with hboth|⟨hon,hnone⟩|⟨hon,hnone⟩
      · exact ⟨signers,hextracts,hboth⟩
      · exact absurd (hinitialize2 hon) hnone
      · exact absurd (hsigner hon) hnone

end Gate

/-- The sample settings with both switches off. -/
def openSettings : TransactionMonitorSettings := ⟨"2","5",false,false⟩

/-- The sample transaction is not signed by the key `5`. With its criterion
switched off it should be recorded, and is not. -/
theorem switched_off_criterion_applies :
    ¬∀ settings origin txInfo now,
      ((handlerTask settings origin (.transaction txInfo)).start Base58.encode
        (.transaction txInfo) now).isSome=true ↔ DocumentedGate Base58.encode settings txInfo := by
  intro hclaim
  have hopen : DocumentedGate Base58.encode openSettings sampleTransaction :=
    ⟨["4"],⟨"3","pump",by decide⟩,Bool.false_ne_true.elim,Bool.false_ne_true.elim⟩
  have hreached := (hclaim openSettings ⟨0,⟨1⟩⟩ sampleTransaction 0).mpr hopen
  revert hreached
  decide

end SteamHandler.FilterSwitches
