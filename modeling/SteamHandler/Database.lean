import SteamHandler.Messages

/-!
# The pool table

The table `liquidity_pools_v4` is a list of rows in insertion order, and every
statement executes atomically on it. The serial key and the creation time are
left to the database; the program reads neither.
-/

namespace SteamHandler.Database

/-- The JSON object stored with a pool. -/
structure RawTransaction where
  /-- Member `signature`. -/
  signature : String
  /-- Member `pool_address`. -/
  poolAddress : String
  /-- Member `mint_address`. -/
  mintAddress : String
  /-- Member `signers`. -/
  signers : List String
  /-- Member `timestamp`. -/
  timestamp : UInt64
  /-- Member `logs`. -/
  logs : List String
  deriving DecidableEq, Repr

/-- A row of `liquidity_pools_v4`. -/
structure Row where
  /-- Column `signature`. -/
  signature : String
  /-- Column `pool_address`. -/
  poolAddress : String
  /-- Column `token_mint`. -/
  tokenMint : String
  /-- Column `raw_transaction`. -/
  rawTransaction : RawTransaction
  /-- Column `is_active`. -/
  isActive : Bool
  /-- Column `death_reason`. -/
  deathReason : Option String
  deriving DecidableEq, Repr

/-- A successful `insert_pool`. -/
def insertPool (rows : List Row) (signature poolAddress tokenMint : String)
    (rawTx : RawTransaction) : List Row :=
  rows++[⟨signature,poolAddress,tokenMint,rawTx,true,none⟩]

/-- The update of one row by `mark_all_pools_inactive`. -/
def Row.markInactive (reason : String) (row : Row) : Row :=
  if row.isActive then
    { row with
      isActive := false
      deathReason := some reason }
  else row

/-- A successful `mark_all_pools_inactive`: the table and the number of rows
affected. -/
def markAllPoolsInactive (rows : List Row) (reason : String) : List Row × ℕ :=
  (rows.map (Row.markInactive reason),rows.countP Row.isActive)

/-- Some row is active. -/
def anyActive (rows : List Row) : Bool := rows.any Row.isActive

/-- An inserted row is active. -/
@[simp] theorem anyActive_insertPool (rows : List Row) (signature poolAddress tokenMint : String)
    (rawTx : RawTransaction) :
    anyActive (insertPool rows signature poolAddress tokenMint rawTx)=true := by
  rw [anyActive,insertPool,List.any_append]
  exact Bool.or_true _

/-- A marked row is inactive. -/
theorem isActive_markInactive (reason : String) (row : Row) :
    (row.markInactive reason).isActive=false := by
  unfold Row.markInactive
  split
  · rfl
  · exact Bool.eq_false_iff.mpr ‹_›

/-- Marking leaves no row active. -/
@[simp] theorem anyActive_markAllPoolsInactive (rows : List Row) (reason : String) :
    anyActive (markAllPoolsInactive rows reason).1=false := by
  rw [anyActive,markAllPoolsInactive,List.any_eq_false]
  intro marked hmarked
  obtain ⟨row,_,rfl⟩ := List.mem_map.mp hmarked
  rw [isActive_markInactive]
  exact Bool.false_ne_true

/-- No row is active when none is found active. -/
theorem anyActive_eq_false_iff {rows : List Row} :
    anyActive rows=false ↔ ∀ row∈rows,row.isActive=false := by
  simp only [anyActive,List.any_eq_false,Bool.not_eq_true]

end SteamHandler.Database
