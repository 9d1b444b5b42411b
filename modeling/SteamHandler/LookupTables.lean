import SteamHandler.Extraction

/-!
# Addresses loaded from lookup tables

The instructions of a versioned transaction also address the keys that were
loaded from lookup tables, behind the keys of the message. Extraction resolves
every index among the keys of the message alone and skips the others. It
agrees with the search over all keys unless that search ends with a loaded
address.
-/

namespace SteamHandler.LookupTables

open Messages Dispatch RaydiumV4 Extraction

/-- The loaded addresses in the order in which instructions address them. -/
def loadedAddresses (statusMeta : Option TransactionStatusMeta) : List Bytes :=
  match statusMeta with
  | some recorded => recorded.loadedWritableAddresses++recorded.loadedReadonlyAddresses
  | none => []

/-- The message with these addresses appended to its keys. -/
def appendKeys (message : Message) (addresses : List Bytes) : Message :=
  { message with accountKeys := message.accountKeys++addresses }

/-- The update in which the loaded addresses have become keys of the message. -/
def withLoadedKeys (txInfo : SubscribeUpdateTransactionInfo) : SubscribeUpdateTransactionInfo :=
  { txInfo with
    transaction := txInfo.transaction.map fun transaction =>
      { transaction with
        message := transaction.message.map fun message =>
          appendKeys message (loadedAddresses txInfo.statusMeta) }
    statusMeta := txInfo.statusMeta.map fun recorded =>
      { recorded with
        loadedWritableAddresses := []
        loadedReadonlyAddresses := [] } }

section Resolution

variable (keys loaded : List String)

/-- The first index among the accounts that resolves to a token. -/
def tokenIndex (accounts : Bytes) : Option UInt8 :=
  accounts.find? fun index => (pumpAt keys index).isSome

/-- The accounts of all recorded inner instructions in order. -/
def innerAccounts (statusMeta : Option TransactionStatusMeta) : Bytes :=
  match statusMeta with
  | some recorded =>
    if recorded.innerInstructionsNone then []
    else (recorded.innerInstructions.flatMap InnerInstructions.instructions).flatMap
      InnerInstruction.accounts
  | none => []

/-- What the search over all keys ends with is not loaded: neither the program key
of the instruction that decides it, nor the pool and the token it finds there,
nor, without a token there, the one it finds among the inner instructions. Loaded
addresses that come behind these, or that yield nothing, do not matter. -/
structure EndsInMessage (programId : String) (message : Message)
    (statusMeta : Option TransactionStatusMeta) : Prop where
  /-- The deciding instruction names the program by a key of the message. -/
  program : ∀ ix,decisive (keys++loaded) programId message=some ix →
    ix.programIdIndex.toNat < keys.length
  /-- Its fifth account is a key of the message, unless it is out of range. -/
  pool : ∀ ix,decisive (keys++loaded) programId message=some ix →
    ∀ index,ix.accounts[4]?=some index → index.toNat < (keys++loaded).length →
      index.toNat < keys.length
  /-- So is its token. -/
  mint : ∀ ix,decisive (keys++loaded) programId message=some ix →
    ∀ index,tokenIndex (keys++loaded) ix.accounts=some index → index.toNat < keys.length
  /-- So is the token of the inner instructions, when these are searched. -/
  inner : ((decisive (keys++loaded) programId message).bind fun ix =>
      mintAmong (keys++loaded) ix.accounts)=none →
    ∀ index,tokenIndex (keys++loaded) (innerAccounts statusMeta)=some index →
      index.toNat < keys.length

variable {keys loaded}

/-- A key of the message is found under its index among all keys. -/
theorem getElem?_append_static {index : ℕ} (h : index < keys.length) :
    (keys++loaded)[index]?=keys[index]? := List.getElem?_append_left h

/-- What is found among the keys of the message is found among all keys. -/
theorem getElem?_of_static {index : ℕ} {key : String} (h : keys[index]?=some key) :
    (keys++loaded)[index]?=some key := by
  obtain ⟨hbound,_⟩ := List.getElem?_eq_some_iff.mp h
  rw [getElem?_append_static hbound,h]

/-- A token of the message is a token among all keys. -/
theorem pumpAt_of_static {index : UInt8} (h : (pumpAt keys index).isSome=true) :
    (pumpAt (keys++loaded) index).isSome=true := by
  obtain ⟨acctStr,hkey,hpump⟩ := isSome_pumpAt.mp h
  exact isSome_pumpAt.mpr ⟨acctStr,getElem?_of_static hkey,hpump⟩

/-- The token found is the one at its first index. -/
theorem mintAmong_cons (keys : List String) (index : UInt8) (accounts : Bytes) :
    mintAmong keys (index::accounts)=(pumpAt keys index).or (mintAmong keys accounts) := by
  rw [mintAmong,List.findSome?_cons]
  cases pumpAt keys index <;> rfl

/-- Where the first token among all keys is one of the message, it is the first
token of the message. -/
theorem mintAmong_append {accounts : Bytes}
    (h : ∀ index,tokenIndex (keys++loaded) accounts=some index → index.toNat < keys.length) :
    mintAmong (keys++loaded) accounts=mintAmong keys accounts := by
  induction accounts with
  | nil => rfl
  | cons index accounts ih =>
    rw [tokenIndex,List.find?_cons] at h
    rw [mintAmong_cons,mintAmong_cons]
    cases hfirst : pumpAt (keys++loaded) index with
    | some acctStr =>
      rw [hfirst] at h
      have hsame : pumpAt (keys++loaded) index=pumpAt keys index := by
        rw [pumpAt,pumpAt,getElem?_append_static (h index rfl)]
      rw [←hsame,hfirst]
      rfl
    | none =>
      rw [hfirst] at h
      have hnone : pumpAt keys index=none := by
        rw [←Option.not_isSome_iff_eq_none]
        intro hsome
        have hfound := @pumpAt_of_static keys loaded index hsome
        rw [hfirst] at hfound
        cases hfound
      rw [hnone,Option.none_or,Option.none_or]
      exact ih h

/-- Where the fifth account is not loaded, the pool is the same. -/
theorem poolAmong_append {accounts : Bytes}
    (h : ∀ index,accounts[4]?=some index → index.toNat < (keys++loaded).length →
      index.toNat < keys.length) : poolAmong (keys++loaded) accounts=poolAmong keys accounts := by
  rw [poolAmong,poolAmong]
  cases hfifth : accounts[4]? with
  | none => rfl
  | some index =>
    rw [Option.bind_some,Option.bind_some]
    by_cases hbound : index.toNat < (keys++loaded).length
    · exact getElem?_append_static (h index hfifth hbound)
    · have hbeyond : (keys++loaded).length ≤ index.toNat := Nat.not_lt.mp hbound
      rw [List.getElem?_eq_none hbeyond,List.getElem?_eq_none]
      rw [List.length_append] at hbeyond
      omega

/-- An instruction that invokes the program and yields something does so among
all keys. -/
theorem decides_of_static {programId : String} {ix : CompiledInstruction}
    (h : (invokes keys programId ix && yields keys ix)=true) :
    (invokes (keys++loaded) programId ix && yields (keys++loaded) ix)=true := by
  rw [Bool.and_eq_true,yields,Bool.or_eq_true] at h ⊢
  obtain ⟨hinvokes,hyields⟩ := h
  refine ⟨decide_eq_true (getElem?_of_static (of_decide_eq_true hinvokes)),?_⟩
  rcases hyields with hpool|hmint
  · obtain ⟨index,hfifth,hbound⟩ := isSome_poolAmong.mp hpool
    refine Or.inl (isSome_poolAmong.mpr ⟨index,hfifth,?_⟩)
    rw [List.length_append]
    omega
  · obtain ⟨index,hmem,acctStr,hkey,hpump⟩ := isSome_mintAmong.mp hmint
    exact Or.inr (isSome_mintAmong.mpr ⟨index,hmem,acctStr,getElem?_of_static hkey,hpump⟩)

/-- The deciding instruction is the first one that invokes the program and yields
something. -/
theorem decisive_eq (keys : List String) (programId : String) (message : Message) :
    decisive keys programId message=
      message.instructions.find? fun ix => invokes keys programId ix && yields keys ix := by
  rw [decisive,programInstructions,List.find?_filter]
  simp only [Bool.decide_and,Bool.decide_eq_true]

variable {programId : String} {message : Message} {statusMeta : Option TransactionStatusMeta}

/-- Where the search over all keys ends in the message, the search among its keys
ends at the same instruction. -/
theorem decisive_append (h : EndsInMessage keys loaded programId message statusMeta) :
    decisive (keys++loaded) programId message=decisive keys programId message := by
  cases hfull : decisive (keys++loaded) programId message with
  | none =>
    rw [decisive_eq,List.find?_eq_none] at hfull
    rw [eq_comm,decisive_eq,List.find?_eq_none]
    exact fun ix hix hdecides => hfull ix hix (decides_of_static hdecides)
  | some ix =>
    have hpool := poolAmong_append (h.pool ix hfull)
    have hmint := mintAmong_append (h.mint ix hfull)
    have hprogram := h.program ix hfull
    rw [decisive_eq,List.find?_eq_some_iff_append] at hfull
    obtain ⟨hdecides,earlier,later,hsplit,hbefore⟩ := hfull
    rw [eq_comm,decisive_eq,List.find?_eq_some_iff_append]
    refine ⟨?_,earlier,later,hsplit,fun other hother => ?_⟩
    · rw [invokes,yields,hpool,hmint,getElem?_append_static hprogram] at hdecides
      exact hdecides
    · have hnot := hbefore other hother
      rw [Bool.not_eq_true'] at hnot ⊢
      refine Bool.eq_false_iff.mpr fun hearlier => ?_
      rw [decides_of_static hearlier] at hnot
      cases hnot

/-- And finds the same pool there. -/
theorem specPool_append (h : EndsInMessage keys loaded programId message statusMeta) :
    specPool (keys++loaded) programId message=specPool keys programId message := by
  rw [specPool,specPool,←decisive_append h]
  cases hdecisive : decisive (keys++loaded) programId message with
  | none => rfl
  | some ix => exact poolAmong_append (h.pool ix hdecisive)

/-- The first token of several instructions is the first one among all their
accounts. -/
theorem mintAmong_flatMap (keys : List String) (instructions : List InnerInstruction) :
    mintAmong keys (instructions.flatMap InnerInstruction.accounts)=
      instructions.findSome? fun innerIx => mintAmong keys innerIx.accounts := by
  induction instructions with
  | nil => rfl
  | cons innerIx instructions ih =>
    rw [List.flatMap_cons,mintAmong,List.findSome?_append,List.findSome?_cons,←ih]
    rw [←mintAmong,←mintAmong]
    cases mintAmong keys innerIx.accounts <;> rfl

/-- So is that of the inner instructions. -/
theorem innerMint_eq (keys : List String) (statusMeta : Option TransactionStatusMeta) :
    innerMint keys statusMeta=mintAmong keys (innerAccounts statusMeta) := by
  cases statusMeta with
  | none => rfl
  | some recorded =>
    rw [innerMint,innerAccounts]
    cases recorded.innerInstructionsNone with
    | true => rfl
    | false => exact (mintAmong_flatMap keys _).symm

/-- So the token is the same. -/
theorem specMint_append (h : EndsInMessage keys loaded programId message statusMeta) :
    specMint (keys++loaded) programId message statusMeta=
      specMint keys programId message statusMeta := by
  have htop : ((decisive (keys++loaded) programId message).bind fun ix =>
      mintAmong (keys++loaded) ix.accounts)=
      (decisive (keys++loaded) programId message).bind fun ix => mintAmong keys ix.accounts := by
    cases hdecisive : decisive (keys++loaded) programId message with
    | none => rfl
    | some ix => exact mintAmong_append (h.mint ix hdecisive)
  rw [specMint,specMint,←decisive_append h,←htop,innerMint_eq,innerMint_eq]
  cases hmint : (decisive (keys++loaded) programId message).bind fun ix =>
      mintAmong (keys++loaded) ix.accounts with
  | some mint => rfl
  | none => rw [Option.none_or,Option.none_or,mintAmong_append (h.inner hmint)]

/-- A pool that extraction finds is a key. -/
theorem mem_of_specPool {keys : List String} {pool : String}
    (h : specPool keys programId message=some pool) : pool∈keys := by
  obtain ⟨ix,_,hpool⟩ := pool_of_decisive h
  obtain ⟨index,_,hkey⟩ := Option.bind_eq_some_iff.mp hpool
  exact List.mem_of_getElem? hkey

/-- So is a token. -/
theorem mem_of_specMint {keys : List String} {mint : String}
    (h : specMint keys programId message statusMeta=some mint) : mint∈keys := by
  have hamong : ∀ accounts,mintAmong keys accounts=some mint → mint∈keys := by
    intro accounts hmint
    obtain ⟨index,_,hpump⟩ := List.exists_of_findSome?_eq_some hmint
    exact List.mem_of_getElem? (Option.eq_some_of_filter_eq_some hpump)
  rw [specMint,innerMint_eq,Option.or_eq_some_iff] at h
  rcases h with htop|⟨_,hinner⟩
  · obtain ⟨ix,_,hmint⟩ := Option.bind_eq_some_iff.mp htop
    exact hamong _ hmint
  · exact hamong _ hinner

end Resolution

variable {bs58 : Bytes → String} {txInfo : SubscribeUpdateTransactionInfo} {message : Message}

/-- The message with all keys. -/
theorem messageOf_withLoadedKeys (hmessage : messageOf txInfo=some message) :
    messageOf (withLoadedKeys txInfo)=
      some (appendKeys message (loadedAddresses txInfo.statusMeta)) := by
  obtain ⟨transaction,htransaction,hinner⟩ := Option.bind_eq_some_iff.mp hmessage
  rw [messageOf,withLoadedKeys,htransaction,Option.map_some,Option.bind_some,hinner]
  rfl

/-- Its base58 keys. -/
theorem keysOf_appendKeys (addresses : List Bytes) :
    keysOf bs58 (appendKeys message addresses)=keysOf bs58 message++addresses.map bs58 := by
  rw [keysOf,keysOf,appendKeys,List.map_append]

/-- Emptying the loaded addresses leaves the inner instructions. -/
theorem innerMint_withLoadedKeys (keys : List String) :
    innerMint keys (withLoadedKeys txInfo).statusMeta=innerMint keys txInfo.statusMeta := by
  rw [withLoadedKeys]
  cases txInfo.statusMeta <;> rfl

/-- The result of extraction over all keys. -/
theorem extract_withLoadedKeys (hmessage : messageOf txInfo=some message) (programId : String) :
    extractPoolAddressMintAndSigners bs58 (withLoadedKeys txInfo) programId=
      .ok (specPool (keysOf bs58 message++(loadedAddresses txInfo.statusMeta).map bs58) programId
          message,
        specMint (keysOf bs58 message++(loadedAddresses txInfo.statusMeta).map bs58) programId
          message txInfo.statusMeta,
        (keysOf bs58 message++(loadedAddresses txInfo.statusMeta).map bs58).take
          (announcedSigners message)) := by
  rw [extract_eq_spec bs58 (messageOf_withLoadedKeys hmessage),keysOf_appendKeys,specMint,
    innerMint_withLoadedKeys]
  rfl

/-- The update with other loaded addresses. -/
def loading (txInfo : SubscribeUpdateTransactionInfo) (writable readonly : List Bytes) :
    SubscribeUpdateTransactionInfo :=
  { txInfo with
    statusMeta := txInfo.statusMeta.map fun recorded =>
      { recorded with
        loadedWritableAddresses := writable
        loadedReadonlyAddresses := readonly } }

/-- Extraction does not read the loaded addresses. -/
theorem extract_loading (bs58 : Bytes → String) (txInfo : SubscribeUpdateTransactionInfo)
    (writable readonly : List Bytes) (programId : String) :
    extractPoolAddressMintAndSigners bs58 (loading txInfo writable readonly) programId=
      extractPoolAddressMintAndSigners bs58 txInfo programId := by
  unfold extractPoolAddressMintAndSigners loading
  cases txInfo.statusMeta <;> rfl

section Distinct

variable {keys loaded : List String} {programId : String}
variable {statusMeta : Option TransactionStatusMeta}

/-- A key behind those of the message is loaded. -/
theorem mem_loaded_of_getElem? {index : ℕ} {key : String} (h : (keys++loaded)[index]?=some key)
    (hbeyond : ¬index < keys.length) : key∈loaded := by
  rw [List.getElem?_append_right (Nat.not_lt.mp hbeyond)] at h
  exact List.mem_of_getElem? h

/-- The first token is the one at its index. -/
theorem mintAmong_of_tokenIndex {keys : List String} {accounts : Bytes} {index : UInt8}
    (h : tokenIndex keys accounts=some index) :
    ∃ acctStr,keys[index.toNat]?=some acctStr ∧ mintAmong keys accounts=some acctStr := by
  induction accounts with
  | nil => cases h
  | cons first accounts ih =>
    rw [tokenIndex,List.find?_cons] at h
    rw [mintAmong_cons]
    cases hfirst : pumpAt keys first with
    | some acctStr =>
      rw [hfirst] at h
      cases h
      exact ⟨acctStr,Option.eq_some_of_filter_eq_some hfirst,rfl⟩
    | none =>
      rw [hfirst] at h
      exact ih h

/-- Where the loaded addresses are neither keys of the message nor the program, a
search that ends with keys of the message alone ends in the message. -/
theorem endsInMessage_of_static
    (hdistinct : ∀ address∈loaded,address∉keys ∧ address≠programId)
    (hpool : ∀ pool,specPool (keys++loaded) programId message=some pool → pool∈keys)
    (hmint : ∀ mint,specMint (keys++loaded) programId message statusMeta=some mint → mint∈keys) :
    EndsInMessage keys loaded programId message statusMeta := by
  constructor
  · intro ix hdecisive
    by_contra hbeyond
    have hinvokes := (mem_programInstructions.mp (List.mem_of_find?_eq_some hdecisive)).2
    exact (hdistinct _ (mem_loaded_of_getElem? hinvokes hbeyond)).2 rfl
  · intro ix hdecisive index hfifth hbound
    by_contra hbeyond
    have hkey := List.getElem?_eq_getElem hbound
    refine (hdistinct _ (mem_loaded_of_getElem? hkey hbeyond)).1 (hpool _ ?_)
    rw [specPool,hdecisive,Option.bind_some,poolAmong,hfifth,Option.bind_some,hkey]
  · intro ix hdecisive index htoken
    by_contra hbeyond
    obtain ⟨key,hkey,hfound⟩ := mintAmong_of_tokenIndex htoken
    refine (hdistinct _ (mem_loaded_of_getElem? hkey hbeyond)).1 (hmint key ?_)
    rw [specMint,hdecisive,Option.bind_some,hfound,Option.some_or]
  · intro hnone index htoken
    by_contra hbeyond
    obtain ⟨key,hkey,hfound⟩ := mintAmong_of_tokenIndex htoken
    refine (hdistinct _ (mem_loaded_of_getElem? hkey hbeyond)).1 (hmint key ?_)
    rw [specMint,hnone,Option.none_or,innerMint_eq,hfound]

end Distinct

/-- The pool and the token that are returned are among these keys. -/
def ReturnsKeys (bs58 : Bytes → String) (txInfo : SubscribeUpdateTransactionInfo)
    (programId : String) (keys : List String) : Prop :=
  ∀ pool mint signers,
    extractPoolAddressMintAndSigners bs58 txInfo programId=.ok (pool,mint,signers) →
    (∀ address,pool=some address → address∈keys) ∧ ∀ address,mint=some address → address∈keys

/-- What is extracted of an update, next to what is extracted once its loaded
addresses have become keys of the message. -/
structure ResolvesInMessage (bs58 : Bytes → String) (txInfo : SubscribeUpdateTransactionInfo)
    (message : Message) (programId : String) : Prop where
  /-- The loaded addresses play no role. -/
  independent : ∀ writable readonly,
    extractPoolAddressMintAndSigners bs58 (loading txInfo writable readonly) programId=
      extractPoolAddressMintAndSigners bs58 txInfo programId
  /-- The signers are the same. -/
  signers : ∃ pool mint otherPool otherMint signers,
    extractPoolAddressMintAndSigners bs58 txInfo programId=.ok (pool,mint,signers) ∧
    extractPoolAddressMintAndSigners bs58 (withLoadedKeys txInfo) programId=
      .ok (otherPool,otherMint,signers)
  /-- Pool and token are the same where the search over all keys ends in the message. -/
  agrees : EndsInMessage (keysOf bs58 message) ((loadedAddresses txInfo.statusMeta).map bs58)
      programId message txInfo.statusMeta →
    extractPoolAddressMintAndSigners bs58 txInfo programId=
      extractPoolAddressMintAndSigners bs58 (withLoadedKeys txInfo) programId
  /-- Where they are the same, no address is returned that is loaded only. -/
  static : extractPoolAddressMintAndSigners bs58 txInfo programId=
      extractPoolAddressMintAndSigners bs58 (withLoadedKeys txInfo) programId →
    ReturnsKeys bs58 (withLoadedKeys txInfo) programId (keysOf bs58 message)
  /-- For loaded addresses that are neither keys of the message nor the program, this
  is exact. -/
  exactly : (∀ address∈(loadedAddresses txInfo.statusMeta).map bs58,
      address∉keysOf bs58 message ∧ address≠programId) →
    (extractPoolAddressMintAndSigners bs58 txInfo programId=
        extractPoolAddressMintAndSigners bs58 (withLoadedKeys txInfo) programId ↔
      ReturnsKeys bs58 (withLoadedKeys txInfo) programId (keysOf bs58 message))

/-- Indices are resolved among the keys of the message alone. The signers are
those of the update in which the loaded addresses have become keys; pool and
token are too unless the search over all keys ends with a loaded address. -/
theorem extraction_agrees_with_loaded (hmessage : messageOf txInfo=some message)
    (hsigners : announcedSigners message ≤ message.accountKeys.length) (programId : String) :
    ResolvesInMessage bs58 txInfo message programId := by
  have hlength : announcedSigners message ≤ (keysOf bs58 message).length := by
    rw [keysOf,List.length_map]
    exact hsigners
  have htake : (keysOf bs58 message++(loadedAddresses txInfo.statusMeta).map bs58).take
      (announcedSigners message)=(keysOf bs58 message).take (announcedSigners message) :=
    List.take_append_of_le_length hlength
  have hextract := extract_eq_spec bs58 hmessage programId
  have hfull := @extract_withLoadedKeys bs58 txInfo message hmessage programId
  rw [htake] at hfull
  have hagrees : EndsInMessage (keysOf bs58 message)
      ((loadedAddresses txInfo.statusMeta).map bs58) programId message txInfo.statusMeta →
      extractPoolAddressMintAndSigners bs58 txInfo programId=
        extractPoolAddressMintAndSigners bs58 (withLoadedKeys txInfo) programId := by
    intro hends
    rw [hextract,hfull,specPool_append hends,specMint_append hends]
  have hstatic : extractPoolAddressMintAndSigners bs58 txInfo programId=
      extractPoolAddressMintAndSigners bs58 (withLoadedKeys txInfo) programId →
      ReturnsKeys bs58 (withLoadedKeys txInfo) programId (keysOf bs58 message) := by
    intro hsame pool mint signers hreturned
    rw [←hsame,hextract] at hreturned
    cases hreturned
    exact ⟨fun _ => mem_of_specPool,fun _ => mem_of_specMint⟩
  refine ⟨fun writable readonly => extract_loading bs58 txInfo writable readonly programId,
    ⟨_,_,_,_,_,hextract,hfull⟩,hagrees,hstatic,fun hdistinct => ⟨hstatic,fun hkeys => ?_⟩⟩
  obtain ⟨hpool,hmint⟩ := hkeys _ _ _ hfull
  exact hagrees (endsInMessage_of_static hdistinct hpool hmint)

/-- A transaction of the program `2` with its pool and token among the keys of
the message, and another token behind these in a lookup table. -/
def staticTransaction : SubscribeUpdateTransactionInfo where
  signature := []
  isVote := false
  transaction := some ⟨some
    { header := none
      accountKeys := [[1],[3],[0x8E,0xA2,0xCF]]
      instructions := [⟨0,[0,2,0,0,1,3]⟩] }⟩
  statusMeta := some
    { err := none
      innerInstructions := []
      innerInstructionsNone := false
      logMessages := []
      logMessagesNone := false
      loadedWritableAddresses := [[0,0x8E,0xA2,0xCF]]
      loadedReadonlyAddresses := [] }

theorem extraction_agrees_with_loaded_static :
    extractPoolAddressMintAndSigners Base58.encode staticTransaction "2"=
      extractPoolAddressMintAndSigners Base58.encode (withLoadedKeys staticTransaction) "2" := by
  refine (@extraction_agrees_with_loaded Base58.encode staticTransaction _ rfl (by decide)
    "2").agrees ?_
  have hdecisive : decisive (["2","4","pump"]++["1pump"]) "2"
      ⟨none,[[1],[3],[0x8E,0xA2,0xCF]],[⟨0,[0,2,0,0,1,3]⟩]⟩=some ⟨0,[0,2,0,0,1,3]⟩ := by decide
  refine ⟨?_,?_,?_,fun hnone => ?_⟩
  · intro ix hix
    obtain rfl := Option.some.inj (hdecisive.symm.trans hix)
    decide
  · intro ix hix index hfifth _
    obtain rfl := Option.some.inj (hdecisive.symm.trans hix)
    cases hfifth
    decide
  · intro ix hix index htoken
    obtain rfl := Option.some.inj (hdecisive.symm.trans hix)
    obtain rfl : index=2 := Option.some.inj (htoken.symm.trans (by decide))
    decide
  · exact absurd hnone (by decide)

/-- A transaction of the program `2` with its pool and token in lookup
tables. -/
def versionedTransaction : SubscribeUpdateTransactionInfo where
  signature := []
  isVote := false
  transaction := some ⟨some
    { header := none
      accountKeys := [[1]]
      instructions := [⟨0,[0,0,0,0,1,2]⟩] }⟩
  statusMeta := some
    { err := none
      innerInstructions := []
      innerInstructionsNone := false
      logMessages := []
      logMessagesNone := false
      loadedWritableAddresses := [[3]]
      loadedReadonlyAddresses := [[0x8E,0xA2,0xCF]] }

/-- Neither is found, though both are there. -/
theorem extraction_ignores_loaded :
    ¬∀ (txInfo : SubscribeUpdateTransactionInfo) (message : Message)
        (recorded : TransactionStatusMeta) (programId : String),
      messageOf txInfo=some message → txInfo.statusMeta=some recorded →
      announcedSigners message ≤ message.accountKeys.length →
      extractPoolAddressMintAndSigners Base58.encode txInfo programId=
        extractPoolAddressMintAndSigners Base58.encode (withLoadedKeys txInfo) programId := by
  intro hclaim
  have hsame := hclaim versionedTransaction _ _ "2" rfl rfl (by decide)
  have hstatic : extractPoolAddressMintAndSigners Base58.encode versionedTransaction "2"=
      .ok (none,none,[]) := by decide
  have hall : extractPoolAddressMintAndSigners Base58.encode (withLoadedKeys versionedTransaction)
      "2"=.ok (some "4",some "pump",[]) := by decide
  rw [hstatic,hall] at hsame
  cases hsame

end SteamHandler.LookupTables
