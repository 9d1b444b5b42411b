import SteamHandler.TransitionSystem
import SteamHandler.Deployment

/-!
# The pool table over histories of calls

A history is the list of `insert_pool` and `mark_all_pools_inactive` calls that
succeeded, in the order in which their statements executed. In the abstract a
pool has at most one death, the reason of the first mark after its insertion;
the columns `is_active` and `death_reason` are two readings of it. Every pool
inserted is either still alive or was counted by exactly one mark.
-/

namespace SteamHandler.PoolHistory

open Database TransitionSystem

/-- A successful call. -/
inductive Call where
  /-- `insert_pool` with its arguments. -/
  | insertPool (signature poolAddress tokenMint : String) (rawTx : RawTransaction)
  /-- `mark_all_pools_inactive` with its argument. -/
  | markAllPoolsInactive (reason : String)
  deriving DecidableEq, Repr

/-- The statement of a call, executed on the table. -/
def execute (rows : List Row) : Call → List Row
  | .insertPool signature poolAddress tokenMint rawTx =>
    insertPool rows signature poolAddress tokenMint rawTx
  | .markAllPoolsInactive reason => (markAllPoolsInactive rows reason).1

/-- The count a call returns; an insertion returns none. -/
def returned (step : List Row × Call) : Option ℕ :=
  match step.2 with
  | .insertPool _ _ _ _ => none
  | .markAllPoolsInactive reason => some (markAllPoolsInactive step.1 reason).2

/-- The table under its calls. Every statement can execute at any time. -/
def poolTable : System (List Row) Call where
  initial := fun rows => rows=[]
  enabled := fun _ _ => True
  next := execute

/-- The table after a history that started on the empty table. -/
def rowsAfter (calls : List Call) : List Row := poolTable.final [] calls

/-- The counts returned in a history, in order. -/
def returnedCounts (calls : List Call) : List ℕ := (poolTable.steps [] calls).filterMap returned

/-- The call is an insertion. -/
def Call.isInsertion : Call → Bool
  | .insertPool _ _ _ _ => true
  | .markAllPoolsInactive _ => false

/-- The number of insertions in a history. -/
def insertions (calls : List Call) : ℕ := calls.countP Call.isInsertion

/-- The reason given by a mark. -/
def Call.reason? : Call → Option String
  | .insertPool _ _ _ _ => none
  | .markAllPoolsInactive reason => some reason

/-- The reasons of the marks in a history, in order. -/
def reasons (calls : List Call) : List String := calls.filterMap Call.reason?

/-- A pool with the reason it died for, if it did. An active pool with a
reason, or an inactive one without, cannot be written down. -/
structure Pool where
  /-- Argument `signature` of its insertion. -/
  signature : String
  /-- Argument `pool_address` of its insertion. -/
  poolAddress : String
  /-- Argument `token_mint` of its insertion. -/
  tokenMint : String
  /-- Argument `raw_tx` of its insertion. -/
  rawTransaction : RawTransaction
  /-- Why it died. -/
  death : Option String

/-- A pool as the table records it. -/
def Pool.row (pool : Pool) : Row :=
  ⟨pool.signature,pool.poolAddress,pool.tokenMint,pool.rawTransaction,pool.death.isNone,pool.death⟩

/-- A pool dies of the first of several reasons, unless it is dead already. -/
def Pool.marked (causes : List String) (pool : Pool) : Pool :=
  { pool with death := pool.death.or causes.head? }

/-- The pools a history inserts, each with the first reason given after it. -/
def pools : List Call → List Pool
  | [] => []
  | .insertPool signature poolAddress tokenMint rawTx::later =>
    ⟨signature,poolAddress,tokenMint,rawTx,(reasons later).head?⟩::pools later
  | .markAllPoolsInactive _::later => pools later

theorem marked_nil (pool : Pool) : pool.marked []=pool := by
  rw [Pool.marked,List.head?_nil,Option.or_none]

/-- Of two rounds of marks only the first can kill. -/
theorem marked_marked (first second : List String) (pool : Pool) :
    (pool.marked first).marked second=pool.marked (first++second) := by
  simp only [Pool.marked,Option.or_assoc,List.head?_append]

/-- A dead pool stays as it is. -/
theorem marked_of_dead {pool : Pool} (hdead : pool.death.isNone=false) (causes : List String) :
    pool.marked causes=pool := by
  cases pool with
  | mk signature poolAddress tokenMint rawTransaction death =>
    cases death with
    | none => cases hdead
    | some reason => rfl

/-- The update of a row is a mark of its pool. -/
theorem row_marked (pool : Pool) (reason : String) :
    (pool.marked [reason]).row=pool.row.markInactive reason := by
  cases pool with
  | mk signature poolAddress tokenMint rawTransaction death =>
    cases death with
    | none => rfl
    | some earlier => rfl

/-- An insertion adds a pool that is alive. -/
theorem execute_insertPool (start : List Pool) (signature poolAddress tokenMint : String)
    (rawTx : RawTransaction) :
    execute (start.map Pool.row) (.insertPool signature poolAddress tokenMint rawTx)=
      (start++[Pool.mk signature poolAddress tokenMint rawTx none]).map Pool.row := by
  rw [List.map_append]
  rfl

/-- A mark marks every pool. -/
theorem execute_markAllPoolsInactive (start : List Pool) (reason : String) :
    execute (start.map Pool.row) (.markAllPoolsInactive reason)=
      (start.map (Pool.marked [reason])).map Pool.row := by
  rw [List.map_map,execute,markAllPoolsInactive,List.map_map]
  exact List.map_congr_left fun pool _ => (row_marked pool reason).symm

/-- The table refines the list of pools, from any table that does. -/
theorem final_row (start : List Pool) (calls : List Call) :
    poolTable.final (start.map Pool.row) calls=
      (start.map (Pool.marked (reasons calls))++pools calls).map Pool.row := by
  induction calls generalizing start with
  | nil =>
    have hsame : start.map (Pool.marked [])=start := by
      rw [funext marked_nil]
      exact List.map_id _
    change start.map Pool.row=(start.map (Pool.marked [])++[]).map Pool.row
    rw [hsame,List.append_nil]
  | cons call later ih =>
    rw [final_cons]
    change poolTable.final (execute (start.map Pool.row) call) later=_
    cases call with
    | insertPool signature poolAddress tokenMint rawTx =>
      have hpools : (start++[Pool.mk signature poolAddress tokenMint rawTx none]).map
            (Pool.marked (reasons later))++pools later=
          start.map (Pool.marked (reasons later))++
            pools (.insertPool signature poolAddress tokenMint rawTx::later) := by
        rw [List.map_append,List.append_assoc]
        rfl
      rw [execute_insertPool,ih,hpools]
      rfl
    | markAllPoolsInactive reason =>
      have hboth : Pool.marked (reasons later)∘Pool.marked [reason]=
          Pool.marked (reasons (.markAllPoolsInactive reason::later)) :=
        funext (marked_marked [reason] (reasons later))
      rw [execute_markAllPoolsInactive,ih,List.map_map,hboth]
      rfl

/-- The rows are the pools inserted. -/
theorem rowsAfter_eq (calls : List Call) : rowsAfter calls=(pools calls).map Pool.row :=
  final_row [] calls

theorem rowsAfter_append (first second : List Call) :
    rowsAfter (first++second)=poolTable.final (rowsAfter first) second := final_append _ _ _

/-- Later calls mark the pools there are and add others behind them. -/
theorem pools_append (first second : List Call) :
    pools (first++second)=(pools first).map (Pool.marked (reasons second))++pools second := by
  induction first with
  | nil => rfl
  | cons call first ih =>
    cases call with
    | insertPool signature poolAddress tokenMint rawTx =>
      have hreasons : (reasons (first++second)).head?=
          (reasons first).head?.or (reasons second).head? := by
        rw [reasons,List.filterMap_append]
        exact List.head?_append
      rw [List.cons_append,pools,ih,hreasons]
      rfl
    | markAllPoolsInactive reason => exact ih

/-- Every insertion is a pool. -/
theorem length_pools (calls : List Call) : (pools calls).length=insertions calls := by
  induction calls with
  | nil => rfl
  | cons call later ih =>
    cases call with
    | insertPool signature poolAddress tokenMint rawTx =>
      rw [insertions,List.countP_cons_of_pos rfl]
      exact congrArg (·+1) ih
    | markAllPoolsInactive reason =>
      rw [insertions,List.countP_cons_of_neg Bool.false_ne_true]
      exact ih

/-- Two columns, one fact. -/
theorem isActive_iff_of_mem {calls : List Call} {row : Row} (hrow : row∈rowsAfter calls) :
    row.isActive=true ↔ row.deathReason=none := by
  rw [rowsAfter_eq] at hrow
  obtain ⟨pool,_,rfl⟩ := List.mem_map.mp hrow
  exact Option.isNone_iff_eq_none

/-- The row of an insertion carries the first reason given after it. -/
theorem row_of_insertion (earlier later : List Call) (signature poolAddress tokenMint : String)
    (rawTx : RawTransaction) :
    (rowsAfter (earlier++.insertPool signature poolAddress tokenMint rawTx::later))[insertions earlier]?=
      some ⟨signature,poolAddress,tokenMint,rawTx,(reasons later).head?.isNone,
        (reasons later).head?⟩ := by
  rw [rowsAfter_eq,pools_append,List.map_append,List.getElem?_append_right]
  · rw [List.length_map,List.length_map,length_pools,Nat.sub_self]
    rfl
  · rw [List.length_map,List.length_map,length_pools]

/-- An insertion for every number below their count. -/
theorem exists_insertion {calls : List Call} {index : ℕ} (hindex : index < insertions calls) :
    ∃ earlier later signature poolAddress tokenMint rawTx,
      calls=earlier++.insertPool signature poolAddress tokenMint rawTx::later ∧
        insertions earlier=index := by
  induction calls generalizing index with
  | nil => exact absurd hindex (Nat.not_lt_zero _)
  | cons call later ih =>
    cases call with
    | insertPool signature poolAddress tokenMint rawTx =>
      cases index with
      | zero => exact ⟨[],later,signature,poolAddress,tokenMint,rawTx,rfl,rfl⟩
      | succ index =>
        rw [insertions,List.countP_cons_of_pos rfl] at hindex
        obtain ⟨earlier,after,inserted,pool,token,raw,rfl,rfl⟩ := ih (Nat.lt_of_succ_lt_succ hindex)
        refine ⟨_::earlier,after,inserted,pool,token,raw,rfl,?_⟩
        rw [insertions,List.countP_cons_of_pos rfl]
        rfl
    | markAllPoolsInactive reason =>
      rw [insertions,List.countP_cons_of_neg Bool.false_ne_true] at hindex
      obtain ⟨earlier,after,inserted,pool,token,raw,rfl,rfl⟩ := ih hindex
      refine ⟨_::earlier,after,inserted,pool,token,raw,rfl,?_⟩
      rw [insertions,List.countP_cons_of_neg Bool.false_ne_true]
      rfl

/-- Every row is that of an insertion. -/
theorem insertion_of_row {calls : List Call} {index : ℕ} {row : Row}
    (hrow : (rowsAfter calls)[index]?=some row) :
    ∃ earlier later signature poolAddress tokenMint rawTx,
      calls=earlier++.insertPool signature poolAddress tokenMint rawTx::later ∧
        insertions earlier=index ∧
        row=⟨signature,poolAddress,tokenMint,rawTx,(reasons later).head?.isNone,
          (reasons later).head?⟩ := by
  have hbound : index < insertions calls := by
    have hlength := (List.getElem?_eq_some_iff.mp hrow).1
    rw [rowsAfter_eq,List.length_map,length_pools] at hlength
    exact hlength
  obtain ⟨earlier,later,signature,poolAddress,tokenMint,rawTx,rfl,rfl⟩ := exists_insertion hbound
  rw [row_of_insertion] at hrow
  exact ⟨earlier,later,signature,poolAddress,tokenMint,rawTx,rfl,rfl,(Option.some.inj hrow).symm⟩

/-- A row that is inactive is never written again. -/
theorem row_of_inactive {calls : List Call} (later : List Call) {index : ℕ} {row : Row}
    (hrow : (rowsAfter calls)[index]?=some row) (hinactive : row.isActive=false) :
    (rowsAfter (calls++later))[index]?=some row := by
  rw [rowsAfter_eq,List.getElem?_map] at hrow
  obtain ⟨pool,hpool,rfl⟩ := Option.map_eq_some_iff.mp hrow
  have hbound : index < (pools calls).length := (List.getElem?_eq_some_iff.mp hpool).1
  rw [rowsAfter_eq,pools_append,List.map_append,List.getElem?_append_left (by simpa using hbound),
    List.getElem?_map,List.getElem?_map,hpool]
  exact congrArg (fun pool => some (Pool.row pool)) (marked_of_dead hinactive _)

/-- What one call does to the account: an insertion adds an active row, a mark
returns the active rows and leaves none. -/
theorem account_next (rows : List Row) (call : Call) :
    rows.countP Row.isActive+insertions [call]=
      (returned (rows,call)).toList.sum+(execute rows call).countP Row.isActive := by
  cases call with
  | insertPool signature poolAddress tokenMint rawTx =>
    rw [execute,insertPool,List.countP_append]
    exact (Nat.zero_add _).symm
  | markAllPoolsInactive reason =>
    have hnone : (rows.map (Row.markInactive reason)).countP Row.isActive=0 := by
      rw [List.countP_eq_zero]
      intro marked hmarked
      obtain ⟨row,_,rfl⟩ := List.mem_map.mp hmarked
      rw [isActive_markInactive]
      exact Bool.false_ne_true
    change rows.countP Row.isActive+0=rows.countP Row.isActive+0+
      (rows.map (Row.markInactive reason)).countP Row.isActive
    rw [hnone]

/-- A history can be run on the empty table. -/
theorem legal_calls (rows : List Row) (calls : List Call) : poolTable.Legal rows calls := by
  induction calls generalizing rows with
  | nil => trivial
  | cons call later ih => exact ⟨trivial,ih _⟩

/-- Every insertion was counted by one mark or is still active. -/
theorem insertions_eq (calls : List Call) :
    insertions calls=(returnedCounts calls).sum+(rowsAfter calls).countP Row.isActive := by
  refine System.Legal.run_induction
    (P := fun calls => insertions calls=
      (returnedCounts calls).sum+(rowsAfter calls).countP Row.isActive) rfl ?_ (legal_calls [] calls)
  intro history call _ hpast _
  have hstep := account_next (rowsAfter history) call
  have hcounts : returnedCounts (history++[call])=
      returnedCounts history++(returned (rowsAfter history,call)).toList := by
    rw [returnedCounts,steps_snoc,List.filterMap_append]
    rfl
  have hinserted : insertions (history++[call])=insertions history+insertions [call] :=
    List.countP_append
  rw [hinserted,hpast,hcounts,List.sum_append,rowsAfter_append]
  change _=_+(execute (rowsAfter history) call).countP Row.isActive
  omega

/-- Lifecycle accounting, in every history of successful calls: a row is active
exactly when it has no death reason; every row is that of an insertion, and its
reason is that of the first mark after this insertion; an inactive row stays as
it is, whatever calls follow; and the pools inserted are those the marks have
counted and those still active. -/
theorem pool_lifecycle (calls : List Call) :
    (∀ row∈rowsAfter calls,row.isActive=true ↔ row.deathReason=none) ∧
    (∀ (index : ℕ) (row : Row),(rowsAfter calls)[index]?=some row →
      ∃ earlier later signature poolAddress tokenMint rawTx,
        calls=earlier++.insertPool signature poolAddress tokenMint rawTx::later ∧
          insertions earlier=index ∧
          row=⟨signature,poolAddress,tokenMint,rawTx,(reasons later).head?.isNone,
            (reasons later).head?⟩) ∧
    (∀ (later : List Call) (index : ℕ) (row : Row),(rowsAfter calls)[index]?=some row →
      row.isActive=false → (rowsAfter (calls++later))[index]?=some row) ∧
    insertions calls=(returnedCounts calls).sum+(rowsAfter calls).countP Row.isActive :=
  ⟨fun _ hrow => isActive_iff_of_mem hrow,
    fun _ _ hrow => insertion_of_row hrow,
    fun later _ _ hrow hinactive => row_of_inactive later hrow hinactive,
    insertions_eq calls⟩

example (signature poolAddress tokenMint : String) (rawTx : RawTransaction) :
    returnedCounts [.insertPool signature poolAddress tokenMint rawTx,.markAllPoolsInactive "test",
      .markAllPoolsInactive "control+c"]=[1,0] := rfl

section Program

open Messages Deployment

variable (bs58 : Bytes → String) (settings : TransactionMonitorSettings)

/-- The successful call that a step of the program makes, if any. -/
def databaseCall (step : State × Action) : List Call :=
  match step.2 with
  | .markAllPoolsInactive true => [.markAllPoolsInactive "control+c"]
  | .insertPool task true =>
    match task.stage with
    | .spawned _ => []
    | .inserting signature poolAddress mintAddress rawTx =>
      [.insertPool signature poolAddress mintAddress rawTx]
  | _ => []

theorem reason_of_databaseCall {step : State × Action} {call : Call} {reason : String}
    (hcall : call∈databaseCall step) (hreason : call.reason?=some reason) : reason="control+c" := by
  obtain ⟨state,action⟩ := step
  cases action with
  | markAllPoolsInactive succeeds =>
    cases succeeds with
    | false => cases hcall
    | true =>
      rw [List.mem_singleton.mp hcall] at hreason
      exact (Option.some.inj hreason).symm
  | insertPool task succeeds =>
    cases succeeds with
    | false => cases hcall
    | true =>
      cases hstage : task.stage with
      | spawned event =>
        simp only [databaseCall,hstage,List.not_mem_nil] at hcall
      | inserting signature poolAddress mintAddress rawTx =>
        simp only [databaseCall,hstage,List.mem_singleton] at hcall
        rw [hcall] at hreason
        cases hreason
  | _ => cases hcall

/-- The successful calls of a run, in order. -/
def databaseCalls (start : State) (actions : List Action) : List Call :=
  ((deployment bs58 settings).steps start actions).flatMap databaseCall

/-- A step of the program does to the table what its call does. -/
theorem rows_next (state : State) (action : Action) :
    poolTable.final state.rows (databaseCall (state,action))=
      (next bs58 settings state action).rows := by
  cases action with
  | markAllPoolsInactive succeeds => cases succeeds <;> rfl
  | startTask task now =>
    unfold next
    dsimp only
    split <;> rfl
  | insertPool task succeeds =>
    cases hstage : task.stage with
    | spawned event => cases succeeds <;> simp only [databaseCall,next,hstage,final_nil]
    | inserting signature poolAddress mintAddress rawTx =>
      cases succeeds <;> simp only [databaseCall,next,hstage] <;> rfl
  | _ => rfl

/-- The table of the program is that of its calls. -/
theorem rows_of_calls {start : State} {actions : List Action}
    (hinit : (deployment bs58 settings).initial start)
    (hrun : (deployment bs58 settings).Legal start actions) :
    poolTable.final start.rows (databaseCalls bs58 settings start actions)=
      ((deployment bs58 settings).final start actions).rows :=
  (legal_flatMap_steps State.rows databaseCall
    (fun state action _ _ => ⟨legal_calls _ _,rows_next bs58 settings state action⟩)
    (System.Reachable.start hinit) hrun).2

end Program

end SteamHandler.PoolHistory
