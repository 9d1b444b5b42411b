import SteamHandler.FilterSwitches
import SteamHandler.KeyTexts

/-!
# Matching and extraction on key bytes

The search for pool, token and signers does not care what keys are: it needs
to know which key is the program and which are tokens. Stated over any type of
keys, it commutes with every map that respects these two tests. Base58 is such
a map, so the search through texts that the program performs is the search
through bytes, written in texts at the end.
-/

namespace SteamHandler.KeyExtraction

open Messages Subscriptions Dispatch RaydiumV4 Deployment Extraction Recording FilterSwitches
open Base58 KeyTexts

section Search

variable {κ τ : Type*}

/-- Pool, token and signers, as keys of some type. -/
structure Found (κ : Type*) where
  /-- The pool, when found. -/
  pool : Option κ
  /-- The token, when found. -/
  mint : Option κ
  /-- The signers. -/
  signers : List κ

/-- What the monitor returns. -/
def Found.returned (found : Found κ) : Option κ × Option κ × List κ :=
  (found.pool,found.mint,found.signers)

/-- The same keys in another form. -/
def Found.map (form : κ → τ) (found : Found κ) : Found τ :=
  ⟨found.pool.map form,found.mint.map form,found.signers.map form⟩

variable (isProgram isToken : κ → Bool) (keys : List κ)

/-- The first token among the accounts in range. -/
def tokenAmong (accounts : Bytes) : Option κ :=
  accounts.findSome? fun index => keys[index.toNat]?.filter isToken

/-- The fifth account, when it is there and in range. -/
def fifthAmong (accounts : Bytes) : Option κ := accounts[4]?.bind fun index => keys[index.toNat]?

/-- The instruction is one of the program. -/
def invokesProgram (ix : CompiledInstruction) : Bool := keys[ix.programIdIndex.toNat]?.any isProgram

/-- The first instruction of the program that yields a pool or a token. -/
def decidingInstruction (message : Message) : Option CompiledInstruction :=
  (message.instructions.filter (invokesProgram isProgram keys)).find? fun ix =>
    (fifthAmong keys ix.accounts).isSome || (tokenAmong isToken keys ix.accounts).isSome

/-- The first token over all recorded inner instructions. -/
def innerToken (statusMeta : Option TransactionStatusMeta) : Option κ :=
  match statusMeta with
  | some statusMeta =>
    if statusMeta.innerInstructionsNone then none
    else (statusMeta.innerInstructions.flatMap InnerInstructions.instructions).findSome?
      fun innerIx => tokenAmong isToken keys innerIx.accounts
  | none => none

/-- The search of the monitor over keys of any type. -/
def search (message : Message) (statusMeta : Option TransactionStatusMeta) : Found κ :=
  let deciding := decidingInstruction isProgram isToken keys message
  { pool := deciding.bind fun ix => fifthAmong keys ix.accounts
    mint := (deciding.bind fun ix => tokenAmong isToken keys ix.accounts).or
      (innerToken isToken keys statusMeta)
    signers := keys.take (announcedSigners message) }

end Search

section Forms

variable {κ τ : Type*} {isProgram isToken : κ → Bool} {isProgramForm isTokenForm : τ → Bool}
variable {form : κ → τ} {keys : List κ}

theorem fifthAmong_map (accounts : Bytes) :
    fifthAmong (keys.map form) accounts=(fifthAmong keys accounts).map form := by
  unfold fifthAmong
  cases accounts[4]? with
  | none => rfl
  | some index => exact List.getElem?_map

theorem tokenAmong_map (htoken : ∀ key,isTokenForm (form key)=isToken key) (accounts : Bytes) :
    tokenAmong isTokenForm (keys.map form) accounts=(tokenAmong isToken keys accounts).map form := by
  have hform : isTokenForm∘form=isToken := funext htoken
  have haccount : ∀ index : UInt8,(keys.map form)[index.toNat]?.filter isTokenForm=
      (keys[index.toNat]?.filter isToken).map form := by
    intro index
    rw [List.getElem?_map,Option.filter_map,hform]
  simp only [tokenAmong,haccount]
  exact List.map_findSome?.symm

theorem invokesProgram_map (hprogram : ∀ key,isProgramForm (form key)=isProgram key)
    (ix : CompiledInstruction) :
    invokesProgram isProgramForm (keys.map form) ix=invokesProgram isProgram keys ix := by
  rw [invokesProgram,List.getElem?_map,Option.any_map]
  simp only [hprogram]
  rfl

theorem innerToken_map (htoken : ∀ key,isTokenForm (form key)=isToken key)
    (statusMeta : Option TransactionStatusMeta) :
    innerToken isTokenForm (keys.map form) statusMeta=
      (innerToken isToken keys statusMeta).map form := by
  cases statusMeta with
  | none => rfl
  | some statusMeta =>
    simp only [innerToken,tokenAmong_map htoken]
    split
    · rfl
    · exact List.map_findSome?.symm

theorem decidingInstruction_map (hprogram : ∀ key,isProgramForm (form key)=isProgram key)
    (htoken : ∀ key,isTokenForm (form key)=isToken key) (message : Message) :
    decidingInstruction isProgramForm isTokenForm (keys.map form) message=
      decidingInstruction isProgram isToken keys message := by
  have hinvokes : invokesProgram isProgramForm (keys.map form)=invokesProgram isProgram keys :=
    funext (invokesProgram_map hprogram)
  simp only [decidingInstruction,hinvokes,fifthAmong_map,tokenAmong_map htoken,Option.isSome_map]

/-- The search commutes with every form that keeps program and tokens apart
from other keys. -/
theorem search_map (hprogram : ∀ key,isProgramForm (form key)=isProgram key)
    (htoken : ∀ key,isTokenForm (form key)=isToken key) (message : Message)
    (statusMeta : Option TransactionStatusMeta) :
    search isProgramForm isTokenForm (keys.map form) message statusMeta=
      (search isProgram isToken keys message statusMeta).map form := by
  unfold search Found.map
  dsimp only
  rw [decidingInstruction_map hprogram htoken,innerToken_map htoken,Option.map_or,List.map_take]
  cases decidingInstruction isProgram isToken keys message with
  | none => rfl
  | some ix =>
    rw [Option.bind_some,Option.bind_some,Option.bind_some,Option.bind_some,fifthAmong_map,
      tokenAmong_map htoken]

end Forms

section Texts

/-- The program's search is the one over texts. -/
theorem extract_eq_search (bs58 : Bytes → String) {txInfo : SubscribeUpdateTransactionInfo}
    {message : Message} (hmessage : messageOf txInfo=some message) (programId : String) :
    extractPoolAddressMintAndSigners bs58 txInfo programId=
      .ok (search (·==programId) (endsWith · "pump") (keysOf bs58 message) message
        txInfo.statusMeta).returned := by
  have hinvokes : invokes (keysOf bs58 message) programId=
      invokesProgram (·==programId) (keysOf bs58 message) := by
    funext ix
    rw [invokes,invokesProgram]
    cases (keysOf bs58 message)[ix.programIdIndex.toNat]? with
    | none => rfl
    | some key =>
      rw [Option.any_some,Bool.eq_iff_iff,decide_eq_true_iff,beq_iff_eq,Option.some.injEq]
  rw [extract_eq_spec bs58 hmessage,specPool,specMint,decisive,programInstructions,hinvokes]
  rfl

/-- The search over the bytes of the keys. -/
def searchKeys (program : Bytes) (message : Message) (statusMeta : Option TransactionStatusMeta) :
    Found Bytes := search (·==program) isTokenKey message.accountKeys message statusMeta

/-- The search over texts is the search over bytes. -/
theorem search_texts (program : Bytes) (message : Message)
    (statusMeta : Option TransactionStatusMeta) :
    search (·==encode program) (endsWith · "pump") (keysOf encode message) message statusMeta=
      (searchKeys program message statusMeta).map encode := by
  refine search_map (fun key => ?_) endsWith_pump_eq message statusMeta
  rw [Bool.eq_iff_iff,beq_iff_eq,beq_iff_eq]
  exact encode_injective.eq_iff

/-- The columns a transaction is worth, as bytes. -/
structure RecordBytes where
  /-- The signature. -/
  signature : Bytes
  /-- The pool's key. -/
  pool : Bytes
  /-- The token's key. -/
  mint : Bytes
  deriving DecidableEq, Repr

/-- The same columns as the texts that are stored. -/
def RecordBytes.texts (bs58 : Bytes → String) (record : RecordBytes) : RowKey :=
  ⟨signatureColumn bs58 record.signature,bs58 record.pool,bs58 record.mint⟩

/-- What a transaction update is worth, from its bytes alone. -/
def recordBytes (program migrationKey : Bytes) (txInfo : SubscribeUpdateTransactionInfo) :
    Option RecordBytes :=
  match messageOf txInfo,txInfo.statusMeta with
  | some message,some statusMeta =>
    let found := searchKeys program message txInfo.statusMeta
    match found.pool,found.mint with
    | some pool,some mint =>
      if statusMeta.logMessagesNone=false ∧
          (∃ logLine∈statusMeta.logMessages,contains logLine "initialize2"=true) ∧
          migrationKey∈found.signers then
        some ⟨txInfo.signature,pool,mint⟩
      else none
    | _,_ => none
  | _,_ => none

end Texts

/-- For a program and a migration key given by their texts, what a transaction
is worth is decided on bytes, and written in texts. -/
theorem recordOf_texts (program migrationKey : Bytes) (txInfo : SubscribeUpdateTransactionInfo) :
    recordOf encode (encode program) (encode migrationKey) txInfo=
      (recordBytes program migrationKey txInfo).map (RecordBytes.texts encode) := by
  unfold recordOf recordBytes
  cases hmessage : messageOf txInfo with
  | none => rfl
  | some message =>
    cases hmeta : txInfo.statusMeta with
    | none => rfl
    | some statusMeta =>
      rw [extract_eq_search encode hmessage,search_texts,hmeta]
      have hsigners : encode migrationKey∈(message.accountKeys.map encode).take
            (min (announcedSigners message) message.accountKeys.length) ↔
          migrationKey∈(searchKeys program message (some statusMeta)).signers := by
        have hlength : (message.accountKeys.map encode).length=message.accountKeys.length :=
          List.length_map _
        rw [←hlength,←List.take_eq_take_min,←List.map_take]
        exact encode_mem_map_iff
      dsimp only [Found.map,Found.returned]
      cases hpool : (searchKeys program message (some statusMeta)).pool with
      | none => rfl
      | some pool =>
        cases hmint : (searchKeys program message (some statusMeta)).mint with
        | none => rfl
        | some mint =>
          simp only [Option.map_some,hsigners]
          split <;> rfl

/-- The stored columns determine the bytes, but for signatures that are none. -/
theorem texts_eq_iff (first second : RecordBytes) :
    first.texts encode=second.texts encode ↔ first.pool=second.pool ∧ first.mint=second.mint ∧
      (first.signature=second.signature ∨
        (first.signature.length≠64 ∧ second.signature.length≠64)) := by
  rw [RecordBytes.texts,RecordBytes.texts,RowKey.mk.injEq,signatureColumn_eq_iff,
    encode_injective.eq_iff,encode_injective.eq_iff]
  constructor
  · exact fun ⟨hsignature,hpool,hmint⟩ => ⟨hpool,hmint,hsignature⟩
  · exact fun ⟨hpool,hmint,hsignature⟩ => ⟨hsignature,hpool,hmint⟩

/-- The text is well formed and stands for one of the message's account keys. -/
def NamesAccount (text : String) (message : Message) : Prop :=
  (∀ character∈text.toList,character∈alphabet) ∧ decode text∈message.accountKeys

/-- What the handler of the monitor does with transactions, told from their bytes. -/
structure RecordsByKey (bs58 : Bytes → String) (program migrationKey : Bytes)
    (settings : TransactionMonitorSettings) : Prop where
  /-- A call of the handler with a transaction that is worth something spawns a task that
  goes on to insert this, written in texts. -/
  inserts : ∀ nextSubId generation txInfo outcome now record,
    recordBytes program migrationKey txInfo=some record →
    ∃ task rawTx,spawnTasks generation
        [⟨(raydiumSubscription settings nextSubId).1,.transaction txInfo,outcome⟩]=[task] ∧
      task.start bs58 (.transaction txInfo) now=
        some { task with
          stage := .inserting (record.texts bs58).signature (record.texts bs58).poolAddress
            (record.texts bs58).tokenMint rawTx }
  /-- With any other it spawns a task that ends without. -/
  drops : ∀ nextSubId generation txInfo outcome now,
    recordBytes program migrationKey txInfo=none →
    ∃ task,spawnTasks generation
        [⟨(raydiumSubscription settings nextSubId).1,.transaction txInfo,outcome⟩]=[task] ∧
      task.start bs58 (.transaction txInfo) now=none
  /-- The texts stand for one pool, one token and one signature, if it is one. -/
  texts : ∀ first second : RecordBytes,first.texts bs58=second.texts bs58 ↔
    first.pool=second.pool ∧ first.mint=second.mint ∧
      (first.signature=second.signature ∨
        (first.signature.length≠64 ∧ second.signature.length≠64))

section Encoder

variable {bs58 : Bytes → String} (hbs58 : ∀ bytes,bs58 bytes=encode bytes)

include hbs58

/-- Of the registered subscriptions, a transaction with a message reaches
exactly those for transactions whose every listed account names, as a base58
text, a key of the message: keys are told apart by their bytes, and a text
that is none is never found. -/
theorem dispatched_by_key {H : Type} {subs : SubscriptionRegistry.SubscriptionMap H}
    {order : List (Subscription H)} (horder : subs.IterationOrder order)
    {txInfo : SubscribeUpdateTransactionInfo} {message : Message}
    (hmessage : messageOf txInfo=some message) (outcome : SubscriptionId → Except String Unit)
    (subscription : Subscription H) :
    (∃ call∈dispatchEvent bs58 outcome (.transaction txInfo) order,
      call.subscription=subscription) ↔
    subs.Contains subscription ∧ ∃ filter,subscription.subscriptionType=.transactions filter ∧
      ∀ account∈filter.accountInclude,NamesAccount account message := by
  obtain rfl : bs58=encode := funext hbs58
  have hkeys : accountKeysOf encode txInfo=message.accountKeys.map encode := by
    rw [accountKeysOf,hmessage]
    rfl
  have hpresent : (messageOf txInfo).isSome=true := by
    rw [hmessage]
    rfl
  rw [exists_call_iff,horder.mem_iff]
  refine and_congr_right fun _ => ?_
  unfold Subscription.matchesEvent
  cases htype : subscription.subscriptionType with
  | transactions filter =>
    simp only [SubscriptionType.transactions.injEq,exists_eq_left']
    rw [matchesTransaction_iff,forall_prop_of_true hpresent,hkeys]
    exact forall₂_congr fun account _ => mem_map_encode_iff
  | _ => simp only [Bool.false_eq_true,reduceCtorEq,false_and,exists_false]

omit hbs58 in
theorem dispatched_by_key_sampleTransaction :
    (∃ call∈dispatchEvent encode (fun _ => .ok ()) (.transaction sampleTransaction)
      [sampleSubscription],call.subscription=sampleSubscription) ↔
    (SubscriptionRegistry.SubscriptionMap.empty.insert sampleSubscription).Contains
      sampleSubscription ∧
    ∃ filter,sampleSubscription.subscriptionType=.transactions filter ∧
      ∀ account∈filter.accountInclude,
        NamesAccount account ⟨some ⟨1⟩,[[3],[1],[2],[0x8E,0xA2,0xCF]],[⟨1,[0,0,0,0,2,3]⟩]⟩ :=
  dispatched_by_key (fun _ => rfl) (by decide) rfl (fun _ => .ok ()) sampleSubscription

/-- What the monitor records of a transaction is decided on its bytes: the
program and the signer by their keys, a token by a remainder of its key. The
stored columns stand for one pool, one token and one signature each, where the
signature is one. -/
theorem record_by_key {program migrationKey : Bytes} {settings : TransactionMonitorSettings}
    (hprogram : settings.programId=bs58 program)
    (hmigration : settings.migrationPubkey=bs58 migrationKey) :
    RecordsByKey bs58 program migrationKey settings := by
  obtain rfl : bs58=encode := funext hbs58
  have hworth : ∀ origin txInfo,
      recordOfEvent encode (handlerTask settings origin (.transaction txInfo)).monitor.programId
        (handlerTask settings origin (.transaction txInfo)).migrationPubkey (.transaction txInfo)=
      (recordBytes program migrationKey txInfo).map (RecordBytes.texts encode) := by
    intro origin txInfo
    change recordOf encode settings.programId settings.migrationPubkey txInfo=_
    rw [hprogram,hmigration,recordOf_texts]
  refine ⟨?_,?_,texts_eq_iff⟩
  · intro nextSubId generation txInfo outcome now record hrecord
    rw [spawnTasks_installed]
    rcases start_cases encode (handlerTask settings
        ⟨generation,(raydiumSubscription settings nextSubId).1.id⟩ (.transaction txInfo))
        (.transaction txInfo) now with ⟨_,hnone⟩|⟨signature,poolAddress,mintAddress,rawTx,hstart,hsome⟩
    · rw [hworth,hrecord] at hnone
      cases hnone
    · rw [hworth,hrecord,Option.map_some,Option.some.injEq] at hsome
      rw [hsome]
      exact ⟨_,rawTx,rfl,hstart⟩
  · intro nextSubId generation txInfo outcome now hrecord
    rw [spawnTasks_installed]
    rcases start_cases encode (handlerTask settings
        ⟨generation,(raydiumSubscription settings nextSubId).1.id⟩ (.transaction txInfo))
        (.transaction txInfo) now with ⟨hstart,_⟩|⟨_,_,_,_,_,hsome⟩
    · exact ⟨_,rfl,hstart⟩
    · rw [hworth,hrecord] at hsome
      cases hsome

omit hbs58 in
theorem record_by_key_sampleSettings : RecordsByKey encode [1] [3] sampleSettings :=
  record_by_key (fun _ => rfl) (by decide) (by decide)

end Encoder

end SteamHandler.KeyExtraction
