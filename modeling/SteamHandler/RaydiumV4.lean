import SteamHandler.Dispatch

/-!
# The Raydium V4 monitor

The monitor turns a transaction update into a pool event: pool and mint come
from the account indices of the program's instructions, the signers from the
message header, the logs from the execution metadata. Account indices come off
the wire, so every access to the key list is guarded by its bound.
-/

namespace SteamHandler.RaydiumV4

open Messages Subscriptions Dispatch

/-- `str::contains`. -/
def contains (text pattern : String) : Bool := decide (pattern.toList <:+: text.toList)

/-- `str::ends_with`. -/
def endsWith (text pattern : String) : Bool := decide (pattern.toList <:+ text.toList)

/-- What the monitor reports about a transaction. -/
structure RaydiumV4PoolEvent where
  /-- Base58 signature. -/
  signature : String
  /-- The pool, when found. -/
  poolAddress : Option String
  /-- The minted token, when found. -/
  mintAddress : Option String
  /-- Base58 keys of the signers. -/
  signers : List String
  /-- Seconds since the epoch when the event was made. -/
  timestamp : UInt64
  /-- Log lines, none when they were not recorded. -/
  rawLogs : List String
  deriving DecidableEq, Repr

/-- What the monitor looks for. -/
structure RaydiumV4Monitor where
  /-- Base58 program address. -/
  programId : String
  /-- Base58 address of the expected signer. -/
  migrationPubkey : String
  deriving DecidableEq, Repr

/-- The subscription for the monitored program. -/
def RaydiumV4Monitor.createSubscription {H : Type} (monitor : RaydiumV4Monitor)
    (nextSubId : UInt64) (clientId : String) (handler : H) : Subscription H × UInt64 :=
  let filter : SubscribeRequestFilterTransactions :=
    { vote := none
      failed := some false
      signature := none
      accountInclude := [monitor.programId]
      accountExclude := []
      accountRequired := [] }
  Subscription.newTransactions nextSubId clientId filter
    ("Raydium V4 Monitor for program "++monitor.programId) handler

section Extraction

variable (accountKeys : List String)

/-- Look for an address that ends in `pump`; the first one replaces the token
found so far. -/
def scanAccounts (mintedToken : Option String) : List ℕ → Option String
  | [] => mintedToken
  | acctIdx::rest =>
    if h : acctIdx < accountKeys.length then
      let acctStr := accountKeys[acctIdx]
      if endsWith acctStr "pump" then some acctStr
      else scanAccounts mintedToken rest
    else scanAccounts mintedToken rest

/-- The fifth account of an instruction is taken for the pool. -/
def fifthAccount (poolAddress : Option String) (accountIndices : List ℕ) : Option String :=
  if h : 4 < accountIndices.length then
    let poolIdx := accountIndices[4]
    if hpool : poolIdx < accountKeys.length then some accountKeys[poolIdx]
    else poolAddress
  else poolAddress

/-- Search the top-level instructions of the program, up to the first that
yields a pool or a token. -/
def searchTopLevel (programId : String) (poolAddress mintedToken : Option String) :
    List CompiledInstruction → Option String × Option String
  | [] => (poolAddress,mintedToken)
  | ix::rest =>
    let programIdIndex := ix.programIdIndex.toNat
    if h : programIdIndex < accountKeys.length then
      let programKey := accountKeys[programIdIndex]
      if programKey=programId then
        let accountIndices := ix.accounts.map UInt8.toNat
        let poolAddress := fifthAccount accountKeys poolAddress accountIndices
        let mintedToken := scanAccounts accountKeys mintedToken accountIndices
        if mintedToken.isSome || poolAddress.isSome then (poolAddress,mintedToken)
        else searchTopLevel programId poolAddress mintedToken rest
      else searchTopLevel programId poolAddress mintedToken rest
    else searchTopLevel programId poolAddress mintedToken rest

/-- Search the inner instructions of one top-level instruction. -/
def searchInner (mintedToken : Option String) : List InnerInstruction → Option String
  | [] => mintedToken
  | innerIx::rest =>
    let mintedToken := scanAccounts accountKeys mintedToken (innerIx.accounts.map UInt8.toNat)
    if mintedToken.isSome then mintedToken else searchInner mintedToken rest

/-- Search all inner instructions, of whatever program. -/
def searchAllInner (mintedToken : Option String) : List InnerInstructions → Option String
  | [] => mintedToken
  | innerIxObj::rest =>
    let mintedToken := searchInner accountKeys mintedToken innerIxObj.instructions
    if mintedToken.isSome then mintedToken else searchAllInner mintedToken rest

end Extraction

/-- Header count, zero for a missing header. -/
def numSigners (message : Message) : ℕ :=
  ((message.header.map MessageHeader.numRequiredSignatures).getD 0).toNat

section Monitor

variable (bs58 : Bytes → String)

/-- Extract pool address, mint address, and signers from a transaction. -/
def extractPoolAddressMintAndSigners (txInfo : SubscribeUpdateTransactionInfo)
    (programId : String) : Except String (Option String × Option String × List String) :=
  match txInfo.transaction with
  | none => .error "No top-level `transaction` in tx_info"
  | some transaction =>
    match transaction.message with
    | none => .error "No `message` in `transaction`"
    | some message =>
      let accountKeys := message.accountKeys.map bs58
      let signers := accountKeys.take (numSigners message)
      let found := searchTopLevel accountKeys programId none none message.instructions
      let mintedToken :=
        if found.2.isNone then
          match txInfo.statusMeta with
          | some statusMeta =>
            if !statusMeta.innerInstructionsNone then
              searchAllInner accountKeys found.2 statusMeta.innerInstructions
            else found.2
          | none => found.2
        else found.2
      .ok (found.1,mintedToken,signers)

/-- A signature is 64 bytes; anything else has no text of its own. -/
def signatureText (signature : Bytes) : String :=
  if signature.length=64 then bs58 signature else "invalid-signature"

/-- The recorded log lines. -/
def logMessagesOf (txInfo : SubscribeUpdateTransactionInfo) : List String :=
  match txInfo.statusMeta with
  | some statusMeta => if !statusMeta.logMessagesNone then statusMeta.logMessages else []
  | none => []

/-- Process a transaction to extract pool information. -/
def RaydiumV4Monitor.processTransaction (monitor : RaydiumV4Monitor)
    (txInfo : SubscribeUpdateTransactionInfo) (now : Int64) : Except String RaydiumV4PoolEvent :=
  match extractPoolAddressMintAndSigners bs58 txInfo monitor.programId with
  | .error error => .error error
  | .ok (maybePool,maybeMint,signers) => .ok
    { signature := signatureText bs58 txInfo.signature
      poolAddress := maybePool
      mintAddress := maybeMint
      signers := signers
      timestamp := now.toUInt64
      rawLogs := logMessagesOf txInfo }

/-- Process a transaction event from the subscription. -/
def RaydiumV4Monitor.createPoolEventFromSubscription (monitor : RaydiumV4Monitor)
    (event : SubscriptionEvent) (now : Int64) : Except String RaydiumV4PoolEvent :=
  match event with
  | .transaction txInfo => monitor.processTransaction bs58 txInfo now
  | _ => .error "Expected transaction event but got something else"

/-- The search leaves what it was given unless the program is among the keys. -/
theorem searchTopLevel_of_not_mem {accountKeys : List String} {programId : String}
    (habsent : programId∉accountKeys) (poolAddress mintedToken : Option String)
    (instructions : List CompiledInstruction) :
    searchTopLevel accountKeys programId poolAddress mintedToken instructions=
      (poolAddress,mintedToken) := by
  induction instructions with
  | nil => rfl
  | cons ix instructions ih =>
    rw [searchTopLevel]
    split
    · rename_i hbound
      have hother : accountKeys[ix.programIdIndex.toNat]≠programId := by
        intro hsame
        rw [←hsame] at habsent
        exact habsent (List.getElem_mem hbound)
      rw [if_neg hother]
      exact ih
    · exact ih

/-- Extraction of a transaction with a message succeeds. -/
theorem extract_of_message {txInfo : SubscribeUpdateTransactionInfo} {message : Message}
    (h : messageOf txInfo=some message) (programId : String) :
    ∃ mint,extractPoolAddressMintAndSigners bs58 txInfo programId=
      .ok ((searchTopLevel (message.accountKeys.map bs58) programId none none
          message.instructions).1,mint,
        (message.accountKeys.map bs58).take (numSigners message)) := by
  obtain ⟨transaction,htransaction,hmessage⟩ := Option.bind_eq_some_iff.mp h
  unfold extractPoolAddressMintAndSigners
  rw [htransaction]
  dsimp only
  rw [hmessage]
  exact ⟨_,rfl⟩

/-- An extraction that succeeds read the message of the update. -/
theorem message_of_extract {txInfo : SubscribeUpdateTransactionInfo} {programId : String}
    {found : Option String × Option String × List String}
    (h : extractPoolAddressMintAndSigners bs58 txInfo programId=.ok found) :
    ∃ message,messageOf txInfo=some message ∧
      found.1=(searchTopLevel (message.accountKeys.map bs58) programId none none
        message.instructions).1 ∧
      found.2.2=(message.accountKeys.map bs58).take (numSigners message) := by
  cases hmessage : messageOf txInfo with
  | some message =>
    obtain ⟨mint,hextract⟩ := extract_of_message bs58 hmessage programId
    have hfound := Except.ok.inj (h.symm.trans hextract)
    exact ⟨message,rfl,by rw [hfound],by rw [hfound]⟩
  | none =>
    unfold extractPoolAddressMintAndSigners at h
    cases htransaction : txInfo.transaction with
    | none =>
      rw [htransaction] at h
      cases h
    | some transaction =>
      rw [htransaction] at h
      rw [messageOf,htransaction,Option.bind_some] at hmessage
      dsimp only at h
      rw [hmessage] at h
      cases h

/-- A pool is only found in a transaction that lists the program, so the
subscription's own account check lets it through. -/
theorem matchesTransaction_of_pool {txInfo : SubscribeUpdateTransactionInfo} {programId : String}
    {pool : String} {mint : Option String} {signers : List String}
    (h : extractPoolAddressMintAndSigners bs58 txInfo programId=.ok (some pool,mint,signers))
    {filter : SubscribeRequestFilterTransactions} (hfilter : filter.accountInclude=[programId]) :
    matchesTransaction bs58 filter txInfo=true := by
  obtain ⟨message,hmessage,hpool,_⟩ := message_of_extract bs58 h
  have hkeys : accountKeysOf bs58 txInfo=message.accountKeys.map bs58 := by
    rw [accountKeysOf,hmessage]
    rfl
  rw [matchesTransaction_iff,hfilter,hkeys]
  intro _ account haccount
  rw [List.mem_singleton.mp haccount]
  by_contra habsent
  rw [searchTopLevel_of_not_mem habsent] at hpool
  cases hpool

end Monitor

end SteamHandler.RaydiumV4
