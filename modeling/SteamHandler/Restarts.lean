import SteamHandler.PoolHistory
import SteamHandler.Recording

/-!
# The table across restarts

The program keeps nothing but its table: whatever ends it, the next start finds
the rows as they are. A start may fail on the settings, on the database or on the
inputs of the manager, and creates the table where there is none. A life of the
program is a start and the steps taken until it ends or is killed, at any of its
await points.
-/

namespace SteamHandler.Restarts

open Messages Database Deployment PoolHistory TransitionSystem
open Recording (asInserted)

/-- What `main` reads of the settings. -/
structure Settings where
  /-- `shyft.endpoint`. -/
  endpoint : String
  /-- `shyft.x_token`. -/
  xToken : String
  /-- `transaction_monitor`. -/
  transactionMonitor : TransactionMonitorSettings

/-- What a start depends on. -/
structure Launch where
  /-- The result of `Settings::new`. -/
  loaded : Except String Settings
  /-- The result of connecting the pool to the database. -/
  connected : Except String Unit
  /-- The result of the `CREATE TABLE` statement. -/
  created : Except String Unit
  /-- The clock when the manager is created. -/
  clock : ConnectionManager.Instant

/-- The database, without the table before the first start. -/
abbrev Tables := Option (List Row)

/-- `CREATE TABLE IF NOT EXISTS liquidity_pools_v4`. -/
def createTable (tables : Tables) : Tables := some (tables.getD [])

/-- `Database::connect`, which ends in `initialize`. -/
def connect (launch : Launch) (tables : Tables) : Except String Unit × Tables :=
  match launch.connected with
  | .error error => (.error error,tables)
  | .ok () =>
    match launch.created with
    | .error error => (.error error,tables)
    | .ok () => (.ok (),createTable tables)

/-- `Orchestrator::new`: create the manager. -/
def newOrchestrator (settings : Settings) (clock : ConnectionManager.Instant) (rows : List Row) :
    Except String State :=
  match ConnectionManager.State.new settings.endpoint settings.xToken clock with
  | .error error => .error error
  | .ok system => .ok ⟨system,[],rows,[],.setup,1⟩

/-- `main`, up to `setup_raydium_v4_monitor`. -/
def main (launch : Launch) (tables : Tables) : Except String (Settings × State) × Tables :=
  match launch.loaded with
  | .error error => (.error error,tables)
  | .ok settings =>
    let database := connect launch tables
    match database.1 with
    | .error error => (.error error,database.2)
    | .ok () =>
      match newOrchestrator settings launch.clock (database.2.getD []) with
      | .error error => (.error error,database.2)
      | .ok state => (.ok (settings,state),database.2)

/-- A start, and the steps until the program ends or is killed. -/
structure Life where
  /-- The start. -/
  launch : Launch
  /-- The steps. -/
  actions : List Action

section Lives

variable (bs58 : Bytes → String)

/-- The steps are those of a program that started; one that did not takes none. -/
def Lived (tables : Tables) (life : Life) : Prop :=
  match (main life.launch tables).1 with
  | .ok (settings,state) =>
    (deployment bs58 settings.transactionMonitor).Legal state life.actions
  | .error _ => life.actions=[]

instance decidableLived (tables : Tables) (life : Life) : Decidable (Lived bs58 tables life) :=
  match hmain : (main life.launch tables).1 with
  | .ok (settings,state) =>
    decidable_of_iff ((deployment bs58 settings.transactionMonitor).Legal state life.actions)
      (by rw [Lived,hmain])
  | .error _ => decidable_of_iff (life.actions=[]) (by rw [Lived,hmain])

/-- What a life leaves behind. -/
def leaves (tables : Tables) (life : Life) : Tables :=
  match (main life.launch tables).1 with
  | .ok (settings,state) =>
    some ((deployment bs58 settings.transactionMonitor).final state life.actions).rows
  | .error _ => (main life.launch tables).2

/-- One life after the other, from a database without the table. -/
def lifetimes : System Tables Life where
  initial := fun tables => tables=none
  enabled := Lived bs58
  next := leaves bs58

instance decidableLifetimesEnabled (tables : Tables) (life : Life) :
    Decidable ((lifetimes bs58).enabled tables life) := decidableLived bs58 tables life

/-- The successful calls of a life. -/
def callsOfLife (step : Tables × Life) : List Call :=
  match (main step.2.launch step.1).1 with
  | .ok (settings,state) =>
    databaseCalls bs58 settings.transactionMonitor state step.2.actions
  | .error _ => []

/-- The rows at the end of some lives. -/
def rowsAtEnd (lives : List Life) : List Row := ((lifetimes bs58).final none lives).getD []

/-- A failed start leaves the rows alone. -/
theorem rows_of_main (launch : Launch) (tables : Tables) :
    (main launch tables).2.getD []=tables.getD [] ∧
      ∀ settings state,(main launch tables).1=.ok (settings,state) →
        state=.start launch.clock (tables.getD []) := by
  have hdatabase : (connect launch tables).2.getD []=tables.getD [] := by
    unfold connect
    cases launch.connected with
    | error error => rfl
    | ok connected =>
      cases launch.created with
      | error error => rfl
      | ok created => rfl
  unfold main
  cases launch.loaded with
  | error error => exact ⟨rfl,fun settings state h => by cases h⟩
  | ok settings =>
    dsimp only
    cases (connect launch tables).1 with
    | error error => exact ⟨hdatabase,fun settings state h => by cases h⟩
    | ok connected =>
      dsimp only
      rw [newOrchestrator,hdatabase]
      cases hnew : ConnectionManager.State.new (H:=Handler) settings.endpoint settings.xToken
          launch.clock with
      | error error => exact ⟨hdatabase,fun settings state h => by cases h⟩
      | ok system =>
        refine ⟨hdatabase,fun read state h => ?_⟩
        have hsystem : system=.start launch.clock := by
          unfold ConnectionManager.State.new at hnew
          split at hnew
          · cases hnew
          · split at hnew
            · cases hnew
            · exact (Except.ok.inj hnew).symm
        refine (congrArg Prod.snd (Except.ok.inj h)).symm.trans ?_
        rw [hsystem]
        rfl

/-- A life does to the rows what its calls do. -/
theorem rows_of_life {tables : Tables} {life : Life} (hlived : Lived bs58 tables life) :
    poolTable.final (tables.getD []) (callsOfLife bs58 (tables,life))=
      (leaves bs58 tables life).getD [] := by
  obtain ⟨hrows,hstarted⟩ := rows_of_main life.launch tables
  unfold Lived at hlived
  unfold callsOfLife leaves
  cases hmain : (main life.launch tables).1 with
  | error error => exact hrows.symm
  | ok started =>
    obtain ⟨settings,state⟩ := started
    rw [hmain] at hlived
    have hstate := hstarted settings state hmain
    have hcalls := rows_of_calls bs58 settings.transactionMonitor
      ⟨life.launch.clock,tables.getD [],hstate⟩ hlived
    have hbegan : state.rows=tables.getD [] := congrArg State.rows hstate
    rw [hbegan] at hcalls
    exact hcalls

/-- The calls of some lives, in order. -/
def callsOfLives (tables : Tables) (lives : List Life) : List Call :=
  ((lifetimes bs58).steps tables lives).flatMap (callsOfLife bs58)

/-- The table is that of the calls of all lives so far. -/
theorem rowsAtEnd_eq {lives : List Life} (hlives : (lifetimes bs58).Legal none lives) :
    rowsAtEnd bs58 lives=rowsAfter (callsOfLives bs58 none lives) :=
  (legal_flatMap_steps (fun tables : Tables => tables.getD []) (callsOfLife bs58)
    (fun _ _ _ hlived => ⟨legal_calls _ _,rows_of_life bs58 hlived⟩)
    (System.Reachable.start rfl) hlives).2.symm

/-- Later lives add their calls. -/
theorem callsOfLives_append (tables : Tables) (earlier later : List Life) :
    callsOfLives bs58 tables (earlier++later)=callsOfLives bs58 tables earlier++
      callsOfLives bs58 ((lifetimes bs58).final tables earlier) later := by
  rw [callsOfLives,steps_append,List.flatMap_append]
  rfl

/-- All marks give the same reason. -/
theorem reason_of_callsOfLives {tables : Tables} {lives : List Life} {reason : String}
    (h : reason∈reasons (callsOfLives bs58 tables lives)) : reason="control+c" := by
  obtain ⟨call,hcall,hreason⟩ := List.mem_filterMap.mp h
  obtain ⟨⟨before,life⟩,_,hmade⟩ := List.mem_flatMap.mp hcall
  unfold callsOfLife at hmade
  split at hmade
  · obtain ⟨step,_,hstep⟩ := List.mem_flatMap.mp hmade
    exact reason_of_databaseCall hstep hreason
  · cases hmade

/-- A life that marks successfully gives the reason. -/
theorem marks_of_life {tables : Tables} {life : Life} (hlived : Lived bs58 tables life)
    (hmarks : .markAllPoolsInactive true∈life.actions) :
    "control+c"∈reasons (callsOfLife bs58 (tables,life)) := by
  unfold Lived at hlived
  unfold callsOfLife
  cases hmain : (main life.launch tables).1 with
  | error error =>
    rw [hmain] at hlived
    have hnothing : life.actions=[] := hlived
    rw [hnothing] at hmarks
    cases hmarks
  | ok started =>
    obtain ⟨settings,state⟩ := started
    obtain ⟨before,hstep⟩ := @exists_step_of_mem _ _ (deployment bs58 settings.transactionMonitor)
      state _ _ hmarks
    have hcall : Call.markAllPoolsInactive "control+c"∈
        databaseCalls bs58 settings.transactionMonitor state life.actions :=
      List.mem_flatMap.mpr ⟨_,hstep,List.mem_cons_self⟩
    exact List.mem_filterMap.mpr ⟨_,hcall,rfl⟩

/-- The table after the first lives, and after all of them. -/
theorem rowsAtEnd_split {earlier later : List Life}
    (hlives : (lifetimes bs58).Legal none (earlier++later)) :
    rowsAtEnd bs58 earlier=rowsAfter (callsOfLives bs58 none earlier) ∧
      rowsAtEnd bs58 (earlier++later)=rowsAfter (callsOfLives bs58 none earlier++
        callsOfLives bs58 ((lifetimes bs58).final none earlier) later) := by
  refine ⟨rowsAtEnd_eq bs58 (legal_append.mp hlives).1,?_⟩
  rw [rowsAtEnd_eq bs58 hlives,callsOfLives_append]

/-- Lives that begin with one that marks successfully give the reason. -/
theorem marks_of_lives {tables : Tables} {life : Life} (later : List Life)
    (hlived : Lived bs58 tables life) (hmarks : .markAllPoolsInactive true∈life.actions) :
    reasons (callsOfLives bs58 tables (life::later))≠[] := by
  have hcalls : callsOfLives bs58 tables (life::later)=callsOfLife bs58 (tables,life)++
      callsOfLives bs58 (leaves bs58 tables life) later := List.flatMap_cons
  rw [hcalls,reasons,List.filterMap_append]
  exact List.append_ne_nil_of_left_ne_nil
    (List.ne_nil_of_mem (marks_of_life bs58 hlived hmarks)) _

end Lives

/-- Marks that follow do not change what was inserted, and leave it dead if there
is one. -/
theorem row_after_marks {calls : List Call} (later : List Call) {index : ℕ} {row : Row}
    (hrow : (rowsAfter calls)[index]?=some row) :
    ∃ final,(rowsAfter (calls++later))[index]?=some final ∧
      asInserted final=asInserted row ∧ (reasons later≠[] → final.isActive=false) := by
  rw [rowsAfter_eq,List.getElem?_map] at hrow
  obtain ⟨pool,hpool,rfl⟩ := Option.map_eq_some_iff.mp hrow
  have hbound : index < ((pools calls).map (Pool.marked (reasons later))).length := by
    rw [List.length_map]
    exact (List.getElem?_eq_some_iff.mp hpool).1
  refine ⟨(pool.marked (reasons later)).row,?_,rfl,fun hmarked => ?_⟩
  · rw [rowsAfter_eq,pools_append,List.getElem?_map,List.getElem?_append_left hbound,
      List.getElem?_map,hpool]
    rfl
  · cases hreasons : reasons later with
    | nil => exact absurd hreasons hmarked
    | cons reason rest =>
      change ((pool.death.or (some reason)).isNone)=false
      cases pool.death <;> rfl

/-- Where all marks give the same reason, a row is active or dead for it. -/
theorem deathReason_of_row {calls : List Call} {given : String}
    (hsame : ∀ reason∈reasons calls,reason=given) {row : Row} (hmem : row∈rowsAfter calls) :
    row.deathReason=if row.isActive then none else some given := by
  obtain ⟨index,hindex⟩ := List.mem_iff_getElem?.mp hmem
  obtain ⟨earlier,later,_,_,_,_,hcalls,_,hrow⟩ := insertion_of_row hindex
  cases hreasons : reasons later with
  | nil =>
    rw [hrow,hreasons]
    rfl
  | cons reason rest =>
    have hgiven : reason∈reasons calls := by
      rw [hcalls,reasons,List.filterMap_append]
      refine List.mem_append_right _ ?_
      change reason∈reasons later
      rw [hreasons]
      exact List.mem_cons_self
    rw [hrow,hreasons,hsame reason hgiven]
    rfl

/-- What restarts do to the table. -/
structure AcrossRestarts (bs58 : Bytes → String) (lives : List Life) : Prop where
  /-- No row is lost, moved or rewritten, except for its activity. -/
  kept : ∀ earlier later,lives=earlier++later → ∀ (index : ℕ) (row : Row),
    (rowsAtEnd bs58 earlier)[index]?=some row →
      ∃ final : Row,(rowsAtEnd bs58 lives)[index]?=some final ∧ asInserted final=asInserted row
  /-- A row that was inactive at the end of a life stays as it was. -/
  settled : ∀ earlier later,lives=earlier++later → ∀ (index : ℕ) (row : Row),
    (rowsAtEnd bs58 earlier)[index]?=some row → row.isActive=false →
      (rowsAtEnd bs58 lives)[index]?=some row
  /-- The rows left active, by a kill or by a mark that failed or came too early, are
  inactive after the next life that marks them successfully. -/
  cleared : ∀ earlier life later,lives=earlier++life::later →
    .markAllPoolsInactive true∈life.actions → ∀ (index : ℕ) (row : Row),
    (rowsAtEnd bs58 earlier)[index]?=some row →
      ∃ final : Row,(rowsAtEnd bs58 lives)[index]?=some final ∧ final.isActive=false
  /-- There is one reason for being inactive, and active rows have none. -/
  reason : ∀ row∈rowsAtEnd bs58 lives,
    row.deathReason=if row.isActive then none else some "control+c"

/-- However often the program is started, whatever its starts depend on and
wherever it is killed, its table is the history of all its lives. -/
theorem pools_across_restarts {bs58 : Bytes → String} {lives : List Life}
    (hlives : (lifetimes bs58).Legal none lives) : AcrossRestarts bs58 lives := by
  constructor
  · intro earlier later hsplit index row hrow
    subst hsplit
    obtain ⟨hbefore,hafter⟩ := rowsAtEnd_split bs58 hlives
    rw [hbefore] at hrow
    obtain ⟨final,hfinal,hsame,_⟩ := row_after_marks
      (callsOfLives bs58 ((lifetimes bs58).final none earlier) later) hrow
    rw [hafter]
    exact ⟨final,hfinal,hsame⟩
  · intro earlier later hsplit index row hrow hinactive
    subst hsplit
    obtain ⟨hbefore,hafter⟩ := rowsAtEnd_split bs58 hlives
    rw [hbefore] at hrow
    rw [hafter]
    exact row_of_inactive _ hrow hinactive
  · intro earlier life later hsplit hmarks index row hrow
    subst hsplit
    obtain ⟨hbefore,hafter⟩ := rowsAtEnd_split bs58 hlives
    have hmarked := marks_of_lives bs58 later (legal_append.mp hlives).2.1 hmarks
    rw [hbefore] at hrow
    obtain ⟨final,hfinal,_,hdead⟩ := row_after_marks
      (callsOfLives bs58 ((lifetimes bs58).final none earlier) (life::later)) hrow
    rw [hafter]
    exact ⟨final,hfinal,hdead hmarked⟩
  · intro row hmem
    rw [rowsAtEnd_eq bs58 hlives] at hmem
    exact deathReason_of_row (fun _ hreason => reason_of_callsOfLives bs58 hreason) hmem

/-- A start that finds everything it needs. -/
def goodLaunch (clock : ConnectionManager.Instant) : Launch :=
  ⟨.ok ⟨"endpoint","token",sampleSettings⟩,.ok (),.ok (),clock⟩

/-- A start without the database, a life that is killed after an insertion, a start
without a token, and a life that marks the pools at once. -/
def sampleLives : List Life :=
  [⟨{ goodLaunch 0 with connected := .error "connection refused" },[]⟩,
    ⟨goodLaunch 1,sampleRun++[.startTask sampleTask 0,.insertPool samplePending true]⟩,
    ⟨{ goodLaunch 2 with loaded := .ok ⟨"endpoint","",sampleSettings⟩ },[]⟩,
    ⟨goodLaunch 3,[.setup,.ctrlC,.markAllPoolsInactive true]⟩]

theorem pools_across_restarts_sampleLives :
    AcrossRestarts Base58.encode sampleLives ∧
      (rowsAtEnd Base58.encode (sampleLives.take 3)).map Row.isActive=[true] ∧
      (rowsAtEnd Base58.encode sampleLives).map Row.isActive=[false] :=
  ⟨pools_across_restarts (by decide),by decide,by decide⟩

end SteamHandler.Restarts
