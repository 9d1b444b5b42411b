import Mathlib

/-!
# Yellowstone messages the program reads and writes

Only fields that the program inspects, or that a property refers to, are
decoded. The rest of a message which the program merely clones is kept in its
encoded form, so that equality of two messages is still equality of everything
that is sent.
-/

namespace SteamHandler.Messages

/-- A protobuf `bytes` field. -/
abbrev Bytes := List UInt8

/-- Which transactions a transactions subscription asks the server for. -/
structure SubscribeRequestFilterTransactions where
  /-- Vote or non-vote transactions only. -/
  vote : Option Bool
  /-- Failed or successful transactions only. -/
  failed : Option Bool
  /-- One transaction by its base58 signature. -/
  signature : Option String
  /-- At least one of these accounts occurs, when any is listed. -/
  accountInclude : List String
  /-- None of these accounts occurs. -/
  accountExclude : List String
  /-- All of these accounts occur. -/
  accountRequired : List String
  deriving DecidableEq, Repr

/-- Which account updates an accounts subscription asks the server for. -/
structure SubscribeRequestFilterAccounts where
  /-- Base58 account addresses, any address when empty. -/
  account : List String
  /-- Base58 owning programs, any owner when empty. -/
  owner : List String
  /-- Data filters and transaction flag, cloned but never inspected. -/
  otherCriteria : Bytes
  deriving DecidableEq, Repr

/-- A slots filter; the program never looks inside. -/
structure SubscribeRequestFilterSlots where
  /-- The filter as it is sent. -/
  encoded : Bytes
  deriving DecidableEq, Repr

/-- A blocks filter; the program never looks inside. -/
structure SubscribeRequestFilterBlocks where
  /-- The filter as it is sent. -/
  encoded : Bytes
  deriving DecidableEq, Repr

/-- A block metadata filter; the program never looks inside. -/
structure SubscribeRequestFilterBlocksMeta where
  /-- The filter as it is sent. -/
  encoded : Bytes
  deriving DecidableEq, Repr

/-- Filters of the request fields that the program always leaves empty. -/
structure UnusedFilter where
  /-- The filter as it would be sent. -/
  encoded : Bytes
  deriving DecidableEq, Repr

/-- Confirmation level at which the server reports. -/
inductive CommitmentLevel where
  | processed
  | confirmed
  | finalized
  deriving DecidableEq, Repr

/-- Client answer to a server ping. -/
structure SubscribeRequestPing where
  /-- Echoed identifier. -/
  id : ℤ
  deriving DecidableEq, Repr

/-- What the client writes on a subscription stream. Without a ping it
replaces the filter set of the connection. -/
structure SubscribeRequest where
  /-- Account filters by name. -/
  accounts : Finmap fun _ : String => SubscribeRequestFilterAccounts
  /-- Slot filters by name. -/
  slots : Finmap fun _ : String => SubscribeRequestFilterSlots
  /-- Transaction filters by name. -/
  transactions : Finmap fun _ : String => SubscribeRequestFilterTransactions
  /-- Transaction status filters by name. -/
  transactionsStatus : Finmap fun _ : String => SubscribeRequestFilterTransactions
  /-- Block filters by name. -/
  blocks : Finmap fun _ : String => SubscribeRequestFilterBlocks
  /-- Block metadata filters by name. -/
  blocksMeta : Finmap fun _ : String => SubscribeRequestFilterBlocksMeta
  /-- Entry filters by name. -/
  entry : Finmap fun _ : String => UnusedFilter
  /-- Confirmation level, the server's choice when absent. -/
  commitment : Option CommitmentLevel
  /-- Slices of account data to send. -/
  accountsDataSlice : List UnusedFilter
  /-- Ping answer, absent in filter updates. -/
  ping : Option SubscribeRequestPing
  /-- Slot to replay from. -/
  fromSlot : Option UInt64

/-- The `Default` value of a request. -/
def SubscribeRequest.default : SubscribeRequest :=
  { accounts := ∅, slots := ∅, transactions := ∅, transactionsStatus := ∅, blocks := ∅,
    blocksMeta := ∅, entry := ∅, commitment := none, accountsDataSlice := [], ping := none,
    fromSlot := none }

/-- Counts that open a transaction message. -/
structure MessageHeader where
  /-- Length of the prefix of the account keys that signed. -/
  numRequiredSignatures : UInt32
  deriving DecidableEq, Repr

/-- An instruction over account indices. -/
structure CompiledInstruction where
  /-- Index of the invoked program among the account keys. -/
  programIdIndex : UInt32
  /-- Indices of the accounts passed, one byte each. -/
  accounts : Bytes
  deriving DecidableEq, Repr

/-- An instruction invoked by another instruction. -/
structure InnerInstruction where
  /-- Index of the invoked program among the account keys. -/
  programIdIndex : UInt32
  /-- Indices of the accounts passed, one byte each. -/
  accounts : Bytes
  deriving DecidableEq, Repr

/-- Inner instructions of one top-level instruction. -/
structure InnerInstructions where
  /-- The invoked instructions in execution order. -/
  instructions : List InnerInstruction
  deriving DecidableEq, Repr

/-- The signed part of a transaction. -/
structure Message where
  /-- Signature counts, possibly missing on the wire. -/
  header : Option MessageHeader
  /-- Static account keys. -/
  accountKeys : List Bytes
  /-- Top-level instructions. -/
  instructions : List CompiledInstruction
  deriving DecidableEq, Repr

/-- A transaction envelope. -/
structure Transaction where
  /-- The message, possibly missing on the wire. -/
  message : Option Message
  deriving DecidableEq, Repr

/-- Execution results of a transaction. -/
structure TransactionStatusMeta where
  /-- The encoded error of a failed transaction. -/
  err : Option Bytes
  /-- Inner instructions by top-level instruction. -/
  innerInstructions : List InnerInstructions
  /-- Inner instructions were not recorded. -/
  innerInstructionsNone : Bool
  /-- Program log lines. -/
  logMessages : List String
  /-- Log lines were not recorded. -/
  logMessagesNone : Bool
  /-- Writable keys loaded from lookup tables. -/
  loadedWritableAddresses : List Bytes
  /-- Read-only keys loaded from lookup tables. -/
  loadedReadonlyAddresses : List Bytes
  deriving DecidableEq, Repr

/-- The payload of a transaction update. -/
structure SubscribeUpdateTransactionInfo where
  /-- Signature bytes, of any length on the wire. -/
  signature : Bytes
  /-- Whether this is a vote transaction. -/
  isVote : Bool
  /-- The transaction itself. -/
  transaction : Option Transaction
  /-- The source's `meta`, a reserved word here. -/
  statusMeta : Option TransactionStatusMeta
  deriving DecidableEq, Repr

/-- The payload of an account update. -/
structure SubscribeUpdateAccountInfo where
  /-- Address of the account. -/
  pubkey : Bytes
  /-- Program owning the account. -/
  owner : Bytes
  /-- Lamports, data and version, passed on unread. -/
  contents : Bytes
  deriving DecidableEq, Repr

/-- A block update, passed on unread. -/
structure SubscribeUpdateBlock where
  /-- The update as received. -/
  encoded : Bytes
  deriving DecidableEq, Repr

/-- A block metadata update, passed on unread. -/
structure SubscribeUpdateBlockMeta where
  /-- The update as received. -/
  encoded : Bytes
  deriving DecidableEq, Repr

/-- The shapes of a stream message. -/
inductive UpdateOneof where
  | account (account : Option SubscribeUpdateAccountInfo)
  | slot (slot : UInt64)
  | transaction (transaction : Option SubscribeUpdateTransactionInfo)
  | transactionStatus
  | block (block : SubscribeUpdateBlock)
  | ping
  | pong
  | blockMeta (blockMeta : SubscribeUpdateBlockMeta)
  | entry
  deriving DecidableEq, Repr

/-- One message of the server's stream. -/
structure SubscribeUpdate where
  /-- The update, possibly missing on the wire. -/
  updateOneof : Option UpdateOneof
  deriving DecidableEq, Repr

/-- A stream item: a message, or the debug text of the status that ended the
stream. -/
abbrev StreamItem := Except String SubscribeUpdate

end SteamHandler.Messages
