import SteamHandler.RaydiumV4
import SteamHandler.Dispatch
import SteamHandler.Base58

/-!
# What extraction computes

The search loops of the monitor share two accumulators and leave by three
kinds of `break`. Stated without them: the first instruction of the program
that yields a pool or a token is the only one that counts, and the inner
instructions are looked at exactly when it has yielded no token.
-/

namespace SteamHandler.Extraction

open Messages Dispatch RaydiumV4

section Specification

variable (keys : List String)

/-- The account in range at an index that ends in `pump`. -/
def pumpAt (index : UInt8) : Option String :=
  keys[index.toNat]?.filter fun acctStr => endsWith acctStr "pump"

/-- The first account in range that ends in `pump`. -/
def mintAmong (accounts : Bytes) : Option String := accounts.findSome? (pumpAt keys)

/-- The fifth account, when it is there and in range. -/
def poolAmong (accounts : Bytes) : Option String :=
  accounts[4]?.bind fun index => keys[index.toNat]?

/-- The instruction invokes the program. -/
def invokes (programId : String) (ix : CompiledInstruction) : Bool :=
  decide (keys[ix.programIdIndex.toNat]?=some programId)

/-- The top-level instructions of the program. -/
def programInstructions (programId : String) (message : Message) : List CompiledInstruction :=
  message.instructions.filter (invokes keys programId)

/-- The instruction yields a pool or a token. -/
def yields (ix : CompiledInstruction) : Bool :=
  (poolAmong keys ix.accounts).isSome || (mintAmong keys ix.accounts).isSome

/-- The first instruction of the program that yields anything. -/
def decisive (programId : String) (message : Message) : Option CompiledInstruction :=
  (programInstructions keys programId message).find? (yields keys)

/-- The first `pump` account over all recorded inner instructions in order. -/
def innerMint (statusMeta : Option TransactionStatusMeta) : Option String :=
  match statusMeta with
  | some statusMeta =>
    if statusMeta.innerInstructionsNone then none
    else (statusMeta.innerInstructions.flatMap InnerInstructions.instructions).findSome?
      fun innerIx => mintAmong keys innerIx.accounts
  | none => none

/-- How many signers the header announces; none without a header. -/
def announcedSigners (message : Message) : ℕ :=
  match message.header with
  | some header => header.numRequiredSignatures.toNat
  | none => 0

/-- The pool that extraction returns. -/
def specPool (programId : String) (message : Message) : Option String :=
  (decisive keys programId message).bind fun ix => poolAmong keys ix.accounts

/-- The token that extraction returns. -/
def specMint (programId : String) (message : Message)
    (statusMeta : Option TransactionStatusMeta) : Option String :=
  ((decisive keys programId message).bind fun ix => mintAmong keys ix.accounts).or
    (innerMint keys statusMeta)

end Specification

/-- What is read off the header is the announced count. -/
theorem numSigners_eq (message : Message) : numSigners message=announcedSigners message := by
  unfold numSigners announcedSigners
  cases message.header <;> rfl

section Loops

variable {keys : List String}

/-- The scan keeps what it was given unless it finds a token. -/
theorem scanAccounts_eq (mintedToken : Option String) (accounts : Bytes) :
    scanAccounts keys mintedToken (accounts.map UInt8.toNat)=
      (mintAmong keys accounts).or mintedToken := by
  induction accounts with
  | nil => rfl
  | cons index accounts ih =>
    have hhead : mintAmong keys (index::accounts)=
        (pumpAt keys index).or (mintAmong keys accounts) := by
      rw [mintAmong,List.findSome?_cons]
      cases pumpAt keys index <;> rfl
    rw [List.map_cons,scanAccounts,hhead,pumpAt]
    split
    · rename_i hbound
      rw [List.getElem?_eq_getElem hbound,Option.filter_some]
      dsimp only
      split
      · rfl
      · exact ih
    · rename_i hbound
      rw [List.getElem?_eq_none (Nat.not_lt.mp hbound)]
      exact ih

/-- With no pool found before, the fifth account decides. -/
theorem fifthAccount_none (accounts : Bytes) :
    fifthAccount keys none (accounts.map UInt8.toNat)=poolAmong keys accounts := by
  unfold fifthAccount poolAmong
  split
  · rename_i hlong
    rw [List.length_map] at hlong
    rw [List.getElem?_eq_getElem hlong,Option.bind_some]
    simp only [List.getElem_map]
    split
    · rename_i hbound
      rw [List.getElem?_eq_getElem hbound]
    · rename_i hbound
      rw [List.getElem?_eq_none (Nat.not_lt.mp hbound)]
  · rename_i hshort
    rw [List.length_map] at hshort
    rw [List.getElem?_eq_none (Nat.not_lt.mp hshort)]
    rfl

/-- The search stops at the first instruction of the program that yields
anything, so nothing is carried from one instruction to the next. -/
theorem searchTopLevel_eq (programId : String) (instructions : List CompiledInstruction) :
    searchTopLevel keys programId none none instructions=
      match (instructions.filter (invokes keys programId)).find? (yields keys) with
      | some ix => (poolAmong keys ix.accounts,mintAmong keys ix.accounts)
      | none => (none,none) := by
  induction instructions with
  | nil => rfl
  | cons ix instructions ih =>
    rw [searchTopLevel]
    by_cases hinvokes : invokes keys programId ix=true
    · have hkey : keys[ix.programIdIndex.toNat]?=some programId := of_decide_eq_true hinvokes
      obtain ⟨hbound,hprogram⟩ := List.getElem?_eq_some_iff.mp hkey
      have hscan : scanAccounts keys none (ix.accounts.map UInt8.toNat)=
          mintAmong keys ix.accounts := by
        rw [scanAccounts_eq,Option.or_none]
      rw [dif_pos hbound]
      dsimp only
      rw [if_pos hprogram,fifthAccount_none,hscan,List.filter_cons_of_pos hinvokes,
        List.find?_cons,yields,Bool.or_comm]
      cases hyields : (poolAmong keys ix.accounts).isSome || (mintAmong keys ix.accounts).isSome with
      | true => rfl
      | false =>
        rw [Bool.or_eq_false_iff,Option.isSome_eq_false_iff,Option.isSome_eq_false_iff,
          Option.isNone_iff_eq_none,Option.isNone_iff_eq_none] at hyields
        rw [hyields.1,hyields.2]
        exact ih
    · have hother : keys[ix.programIdIndex.toNat]?≠some programId :=
        fun hkey => hinvokes (decide_eq_true hkey)
      rw [List.filter_cons_of_neg hinvokes]
      split
      · rename_i hbound
        rw [List.getElem?_eq_getElem hbound] at hother
        dsimp only
        rw [if_neg fun hprogram => hother (congrArg some hprogram)]
        exact ih
      · exact ih

/-- The first token among the inner instructions of one instruction. -/
theorem searchInner_none (instructions : List InnerInstruction) :
    searchInner keys none instructions=
      instructions.findSome? fun innerIx => mintAmong keys innerIx.accounts := by
  induction instructions with
  | nil => rfl
  | cons innerIx instructions ih =>
    rw [searchInner,scanAccounts_eq,Option.or_none,List.findSome?_cons]
    cases hmint : mintAmong keys innerIx.accounts with
    | some mint => rfl
    | none => exact ih

/-- The first token among all inner instructions. -/
theorem searchAllInner_none (groups : List InnerInstructions) :
    searchAllInner keys none groups=
      (groups.flatMap InnerInstructions.instructions).findSome? fun innerIx =>
        mintAmong keys innerIx.accounts := by
  induction groups with
  | nil => rfl
  | cons group groups ih =>
    rw [searchAllInner,searchInner_none,List.flatMap_cons,List.findSome?_append]
    cases hmint : group.instructions.findSome? fun innerIx => mintAmong keys innerIx.accounts with
    | some mint => rfl
    | none => exact ih

/-- The inner instructions are searched when no token was found before. -/
theorem mintSearch_eq (found : Option String) (statusMeta : Option TransactionStatusMeta) :
    (if found.isNone=true then
      match statusMeta with
      | some statusMeta =>
        if (!statusMeta.innerInstructionsNone)=true then
          searchAllInner keys found statusMeta.innerInstructions
        else found
      | none => found
    else found)=found.or (innerMint keys statusMeta) := by
  cases found with
  | some mint => rfl
  | none =>
    cases statusMeta with
    | none => rfl
    | some statusMeta =>
      dsimp only [innerMint]
      rw [searchAllInner_none]
      cases statusMeta.innerInstructionsNone <;> rfl

end Loops

variable (bs58 : Bytes → String)

/-- The base58 keys of a message. -/
def keysOf (message : Message) : List String := message.accountKeys.map bs58

/-- With a message, extraction returns what the specification says. -/
theorem extract_eq_spec {txInfo : SubscribeUpdateTransactionInfo} {message : Message}
    (h : messageOf txInfo=some message) (programId : String) :
    extractPoolAddressMintAndSigners bs58 txInfo programId=
      .ok (specPool (keysOf bs58 message) programId message,
        specMint (keysOf bs58 message) programId message txInfo.statusMeta,
        (keysOf bs58 message).take (announcedSigners message)) := by
  obtain ⟨transaction,htransaction,hmessage⟩ := Option.bind_eq_some_iff.mp h
  unfold extractPoolAddressMintAndSigners
  rw [htransaction]
  dsimp only
  rw [hmessage]
  dsimp only
  rw [←numSigners_eq,specPool,specMint,decisive,programInstructions,keysOf,searchTopLevel_eq,
    ←mintSearch_eq]
  cases (message.instructions.filter
      (invokes (message.accountKeys.map bs58) programId)).find?
        (yields (message.accountKeys.map bs58)) <;> rfl

/-- Without a message, extraction fails. -/
theorem extract_error_iff (txInfo : SubscribeUpdateTransactionInfo) (programId : String) :
    (∃ error,extractPoolAddressMintAndSigners bs58 txInfo programId=.error error) ↔
      messageOf txInfo=none := by
  constructor
  · intro ⟨error,herror⟩
    cases hmessage : messageOf txInfo with
    | none => rfl
    | some message =>
      rw [extract_eq_spec bs58 hmessage] at herror
      cases herror
  · intro hmissing
    unfold extractPoolAddressMintAndSigners
    cases htransaction : txInfo.transaction with
    | none => exact ⟨_,rfl⟩
    | some transaction =>
      rw [messageOf,htransaction,Option.bind_some] at hmissing
      dsimp only
      rw [hmissing]
      exact ⟨_,rfl⟩

/-- A pool comes from the decisive instruction. -/
theorem pool_of_decisive {keys : List String} {programId pool : String} {message : Message}
    (h : specPool keys programId message=some pool) :
    ∃ ix,decisive keys programId message=some ix ∧ poolAmong keys ix.accounts=some pool :=
  Option.bind_eq_some_iff.mp h

/-- Extraction equals its declarative specification: it fails exactly when the
transaction or its message is missing; otherwise pool and token come from the
first instruction of the program that yields either, the token from the inner
instructions if that one has none, and the signers are the prefix that the
header announces, empty without a header. So a pool and a top-level token never come from two
instructions. -/
theorem extraction_meets_spec (txInfo : SubscribeUpdateTransactionInfo) (programId : String) :
    ((∃ error,extractPoolAddressMintAndSigners bs58 txInfo programId=.error error) ↔
      txInfo.transaction=none ∨ ∃ transaction,txInfo.transaction=some transaction ∧
        transaction.message=none) ∧
    ∀ message,messageOf txInfo=some message →
      extractPoolAddressMintAndSigners bs58 txInfo programId=
        .ok (specPool (keysOf bs58 message) programId message,
          specMint (keysOf bs58 message) programId message txInfo.statusMeta,
          (keysOf bs58 message).take
            (min (announcedSigners message) (keysOf bs58 message).length)) ∧
      ∀ pool mint,specPool (keysOf bs58 message) programId message=some pool →
        specMint (keysOf bs58 message) programId message txInfo.statusMeta=some mint →
        ∃ ix∈programInstructions (keysOf bs58 message) programId message,
          poolAmong (keysOf bs58 message) ix.accounts=some pool ∧
          (mintAmong (keysOf bs58 message) ix.accounts=some mint ∨
            mintAmong (keysOf bs58 message) ix.accounts=none ∧
              innerMint (keysOf bs58 message) txInfo.statusMeta=some mint) := by
  refine ⟨?_,fun message hmessage => ⟨?_,?_⟩⟩
  · rw [extract_error_iff,messageOf,Option.bind_eq_none_iff]
    cases txInfo.transaction with
    | none => simp only [reduceCtorEq,false_implies,implies_true,true_or]
    | some transaction => simp only [Option.some.injEq,forall_eq',reduceCtorEq,false_or,
        exists_eq_left']
  · rw [extract_eq_spec bs58 hmessage,←List.take_eq_take_min]
  · intro pool mint hpool hmint
    obtain ⟨ix,hdecisive,hfound⟩ := pool_of_decisive hpool
    refine ⟨ix,List.mem_of_find?_eq_some hdecisive,hfound,?_⟩
    rw [specMint,hdecisive,Option.bind_some,Option.or_eq_some_iff] at hmint
    exact hmint

section Presence

variable (keys : List String)

/-- An account in range ends in `pump`. -/
def ListsPump (accounts : Bytes) : Prop :=
  ∃ index∈accounts,∃ acctStr,keys[index.toNat]?=some acctStr ∧ endsWith acctStr "pump"=true

/-- Some instruction of the program has its fifth account in range. -/
def PoolPresent (programId : String) (message : Message) : Prop :=
  ∃ ix∈message.instructions,keys[ix.programIdIndex.toNat]?=some programId ∧
    ∃ index,ix.accounts[4]?=some index ∧ index.toNat < keys.length

/-- Some instruction of the program lists a token. -/
def TopLevelMintPresent (programId : String) (message : Message) : Prop :=
  ∃ ix∈message.instructions,keys[ix.programIdIndex.toNat]?=some programId ∧
    ListsPump keys ix.accounts

/-- Some recorded inner instruction lists a token. -/
def InnerMintPresent (statusMeta : Option TransactionStatusMeta) : Prop :=
  ∃ recorded,statusMeta=some recorded ∧ recorded.innerInstructionsNone=false ∧
    ∃ group∈recorded.innerInstructions,∃ innerIx∈group.instructions,
      ListsPump keys innerIx.accounts

/-- What is there is returned. -/
def MissesNothing (bs58 : Bytes → String) (txInfo : SubscribeUpdateTransactionInfo)
    (message : Message) (programId : String) : Prop :=
  ∀ pool mint signers,
    extractPoolAddressMintAndSigners bs58 txInfo programId=.ok (pool,mint,signers) →
    (PoolPresent (keysOf bs58 message) programId message → pool.isSome=true) ∧
    (TopLevelMintPresent (keysOf bs58 message) programId message ∨
      InnerMintPresent (keysOf bs58 message) txInfo.statusMeta → mint.isSome=true)

variable {keys}

theorem isSome_pumpAt {index : UInt8} :
    (pumpAt keys index).isSome=true ↔
      ∃ acctStr,keys[index.toNat]?=some acctStr ∧ endsWith acctStr "pump"=true := by
  rw [pumpAt,Option.isSome_filter]
  cases keys[index.toNat]? with
  | none => simp only [Option.any_none,Bool.false_eq_true,reduceCtorEq,false_and,exists_false]
  | some acctStr => simp only [Option.any_some,Option.some.injEq,exists_eq_left']

/-- A token is found exactly where one is listed. -/
theorem isSome_mintAmong {accounts : Bytes} :
    (mintAmong keys accounts).isSome=true ↔ ListsPump keys accounts := by
  rw [mintAmong,List.findSome?_isSome_iff]
  simp only [isSome_pumpAt,ListsPump]

/-- A pool is found exactly where the fifth account is in range. -/
theorem isSome_poolAmong {accounts : Bytes} :
    (poolAmong keys accounts).isSome=true ↔
      ∃ index,accounts[4]?=some index ∧ index.toNat < keys.length := by
  rw [poolAmong]
  cases accounts[4]? with
  | none => simp only [Option.bind_none,Option.isSome_none,Bool.false_eq_true,reduceCtorEq,
      false_and,exists_false]
  | some index =>
    simp only [Option.bind_some,Option.some.injEq,exists_eq_left']
    rw [Option.isSome_iff_ne_none,ne_eq,List.getElem?_eq_none_iff,Nat.not_le]

theorem mem_programInstructions {programId : String} {message : Message}
    {ix : CompiledInstruction} :
    ix∈programInstructions keys programId message ↔
      ix∈message.instructions ∧ keys[ix.programIdIndex.toNat]?=some programId := by
  rw [programInstructions,List.mem_filter,invokes,decide_eq_true_iff]

/-- The fallback finds a token exactly when a recorded inner instruction lists
one. -/
theorem isSome_innerMint {statusMeta : Option TransactionStatusMeta} :
    (innerMint keys statusMeta).isSome=true ↔ InnerMintPresent keys statusMeta := by
  cases statusMeta with
  | none => simp only [innerMint,InnerMintPresent,Option.isSome_none,Bool.false_eq_true,
      reduceCtorEq,false_and,exists_false]
  | some recorded =>
    simp only [innerMint,InnerMintPresent,Option.some.injEq,exists_eq_left']
    cases recorded.innerInstructionsNone with
    | true => simp only [if_true,Option.isSome_none,Bool.false_eq_true,Bool.true_eq_false,
        false_and]
    | false =>
      simp only [Bool.false_eq_true,if_false,true_and,List.findSome?_isSome_iff,
        isSome_mintAmong,List.mem_flatMap]
      constructor
      · intro ⟨innerIx,⟨group,hgroup,hinner⟩,hlists⟩
        exact ⟨group,hgroup,innerIx,hinner,hlists⟩
      · intro ⟨group,hgroup,innerIx,hinner,hlists⟩
        exact ⟨innerIx,⟨group,hgroup,hinner⟩,hlists⟩

/-- The decisive instruction serves for all instructions of the program: it
yields a pool if any of them does, and a token if any of them does, unless an
inner instruction supplies one. -/
def DecisiveServes (keys : List String) (programId : String) (message : Message)
    (statusMeta : Option TransactionStatusMeta) : Prop :=
  ∀ ix,decisive keys programId message=some ix →
    (PoolPresent keys programId message → (poolAmong keys ix.accounts).isSome=true) ∧
    (TopLevelMintPresent keys programId message →
      (mintAmong keys ix.accounts).isSome=true ∨ InnerMintPresent keys statusMeta)

/-- An instruction of the program that yields something makes some instruction
decisive. -/
theorem exists_decisive {programId : String} {message : Message} {ix : CompiledInstruction}
    (hmem : ix∈programInstructions keys programId message) (hyields : yields keys ix=true) :
    ∃ first,decisive keys programId message=some first := by
  rw [←Option.isSome_iff_exists,decisive,List.find?_isSome]
  exact ⟨ix,hmem,hyields⟩

theorem exists_decisive_of_pool {programId : String} {message : Message}
    (h : PoolPresent keys programId message) :
    ∃ first,decisive keys programId message=some first := by
  obtain ⟨ix,hmem,hinvokes,hpool⟩ := h
  refine exists_decisive (mem_programInstructions.mpr ⟨hmem,hinvokes⟩) ?_
  rw [yields,isSome_poolAmong.mpr hpool,Bool.true_or]

theorem exists_decisive_of_mint {programId : String} {message : Message}
    (h : TopLevelMintPresent keys programId message) :
    ∃ first,decisive keys programId message=some first := by
  obtain ⟨ix,hmem,hinvokes,hmint⟩ := h
  refine exists_decisive (mem_programInstructions.mpr ⟨hmem,hinvokes⟩) ?_
  rw [yields,isSome_mintAmong.mpr hmint,Bool.or_true]

end Presence

/-- For every update with a message: extraction misses nothing that is there,
if and only if the first instruction of the program that yields anything
serves for all of them. -/
theorem misses_nothing_iff {bs58 : Bytes → String} {txInfo : SubscribeUpdateTransactionInfo}
    {message : Message} (hmessage : messageOf txInfo=some message) (programId : String) :
    MissesNothing bs58 txInfo message programId ↔
      DecisiveServes (keysOf bs58 message) programId message txInfo.statusMeta := by
  have hextract := extract_eq_spec bs58 hmessage programId
  have hmint : ∀ ix,decisive (keysOf bs58 message) programId message=some ix →
      ((specMint (keysOf bs58 message) programId message txInfo.statusMeta).isSome=true ↔
        (mintAmong (keysOf bs58 message) ix.accounts).isSome=true ∨
          InnerMintPresent (keysOf bs58 message) txInfo.statusMeta) := by
    intro ix hdecisive
    rw [specMint,hdecisive,Option.bind_some,Option.isSome_or,Bool.or_eq_true,isSome_innerMint]
  constructor
  · intro h ix hdecisive
    obtain ⟨hpools,hmints⟩ := h _ _ _ hextract
    constructor
    · intro hpresent
      have hpool := hpools hpresent
      rw [specPool,hdecisive,Option.bind_some] at hpool
      exact hpool
    · intro hpresent
      exact (hmint ix hdecisive).mp (hmints (Or.inl hpresent))
  · intro h pool mint signers hreturned
    rw [hextract] at hreturned
    cases hreturned
    constructor
    · intro hpresent
      obtain ⟨ix,hdecisive⟩ := exists_decisive_of_pool hpresent
      rw [specPool,hdecisive,Option.bind_some]
      exact (h ix hdecisive).1 hpresent
    · rintro (hpresent|hpresent)
      · obtain ⟨ix,hdecisive⟩ := exists_decisive_of_mint hpresent
        exact (hmint ix hdecisive).mpr ((h ix hdecisive).2 hpresent)
      · rw [specMint,Option.isSome_or,isSome_innerMint.mpr hpresent,Bool.or_true]

/-- A message with two instructions of the program `2`, both with the pool `4`; the
first one lists the token. -/
def servedMessage : Message :=
  ⟨none,[[1],[3],[0x8E,0xA2,0xCF]],[⟨0,[0,0,0,0,1,2]⟩,⟨0,[1,1,1,1,1]⟩]⟩

/-- Its transaction. -/
def servedTransaction : SubscribeUpdateTransactionInfo := ⟨[],false,some ⟨some servedMessage⟩,none⟩

theorem misses_nothing_iff_served :
    MissesNothing Base58.encode servedTransaction servedMessage "2" ∧
      PoolPresent (keysOf Base58.encode servedMessage) "2" servedMessage ∧
      TopLevelMintPresent (keysOf Base58.encode servedMessage) "2" servedMessage := by
  have hdecisive : decisive (keysOf Base58.encode servedMessage) "2" servedMessage=
      some ⟨0,[0,0,0,0,1,2]⟩ := by decide
  refine ⟨(misses_nothing_iff rfl "2").mpr fun ix hix => ?_,
    ⟨⟨0,[1,1,1,1,1]⟩,by decide,by decide,1,by decide,by decide⟩,
    ⟨⟨0,[0,0,0,0,1,2]⟩,by decide,by decide,2,by decide,"pump",by decide,by decide⟩⟩
  obtain rfl := Option.some.inj (hdecisive.symm.trans hix)
  exact ⟨fun _ => by decide,fun _ => Or.inl (by decide)⟩

/-- A transaction with two instructions of the program `2`: the first lists the
token, the second has the pool `4`. -/
def splitTransaction : SubscribeUpdateTransactionInfo where
  signature := []
  isVote := false
  transaction := some ⟨some
    { header := none
      accountKeys := [[1],[3],[0x8E,0xA2,0xCF]]
      instructions := [⟨0,[2]⟩,⟨0,[1,1,1,1,1]⟩] }⟩
  statusMeta := none

/-- Its message. -/
def splitMessage : Message := ⟨none,[[1],[3],[0x8E,0xA2,0xCF]],[⟨0,[2]⟩,⟨0,[1,1,1,1,1]⟩]⟩

/-- The search ends with the token of the first instruction and misses the pool
of the second. -/
theorem extraction_misses_pool : ¬MissesNothing Base58.encode splitTransaction splitMessage "2" := by
  intro h
  have hextract : extractPoolAddressMintAndSigners Base58.encode splitTransaction "2"=
      .ok (none,some "pump",[]) := by decide
  have hpool := (h _ _ _ hextract).1
    ⟨⟨0,[1,1,1,1,1]⟩,by decide,by decide,1,by decide,by decide⟩
  cases hpool

end SteamHandler.Extraction
