import SteamHandler.Base58
import SteamHandler.Deployment

/-!
# Pools left active by a shutdown

`run` marks the pools first and shuts the manager down afterwards, while the
handler's tasks go on by themselves. Whether a row is active when `run`
returns is decided by the insertions between the mark and the return; the
table's activity is followed through a run by the two statements that touch
it.
-/

namespace SteamHandler.Shutdown

open Messages Subscriptions Dispatch Database Deployment TransitionSystem

variable {bs58 : Bytes → String} {settings : TransactionMonitorSettings}

/-- Guard: every database call succeeds. -/
def DatabaseSucceeds (_ : State) : Action → Prop
  | .markAllPoolsInactive succeeds => succeeds=true
  | .insertPool _ succeeds => succeeds=true
  | _ => True

instance decidableDatabaseSucceeds (state : State) :
    ∀ action,Decidable (DatabaseSucceeds state action)
  | .markAllPoolsInactive _ => inferInstanceAs (Decidable (_=_))
  | .insertPool _ _ => inferInstanceAs (Decidable (_=_))
  | .system _ => inferInstanceAs (Decidable True)
  | .setup => inferInstanceAs (Decidable True)
  | .ctrlC => inferInstanceAs (Decidable True)
  | .ctrlCFailed => inferInstanceAs (Decidable True)
  | .requestShutdown => inferInstanceAs (Decidable True)
  | .finishRun => inferInstanceAs (Decidable True)
  | .startTask _ _ => inferInstanceAs (Decidable True)

/-- Whether the table has an active row after an action. -/
def activeAfter (active : Bool) : Action → Bool
  | .markAllPoolsInactive true => false
  | .insertPool _ true => true
  | _ => active

/-- An insertion comes after the mark. -/
def InsertedAfterMark (actions : List Action) : Prop :=
  ∃ earlier later task,actions=earlier++.markAllPoolsInactive true::later ∧
    .insertPool task true∈later

/-- One step changes the activity of the table as its statement does. -/
theorem anyActive_next {state : State} {action : Action}
    (henabled : Enabled bs58 settings state action) :
    anyActive (next bs58 settings state action).rows=activeAfter (anyActive state.rows) action := by
  cases action with
  | markAllPoolsInactive succeeds =>
    cases succeeds with
    | true => exact anyActive_markAllPoolsInactive _ _
    | false => rfl
  | startTask task now =>
    unfold next
    dsimp only
    split <;> rfl
  | insertPool task succeeds =>
    obtain ⟨_,hstage⟩ := henabled
    unfold next
    dsimp only
    split
    · rename_i hspawned
      rw [hspawned] at hstage
      exact hstage.elim
    · cases succeeds with
      | true => exact anyActive_insertPool _ _ _ _ _
      | false => rfl
  | _ => rfl

/-- So does a whole run. -/
theorem anyActive_final {start : State} {actions : List Action}
    (hrun : (deployment bs58 settings).Legal start actions) :
    anyActive ((deployment bs58 settings).final start actions).rows=
      actions.foldl activeAfter (anyActive start.rows) := by
  induction actions generalizing start with
  | nil => rfl
  | cons action actions ih =>
    rw [List.foldl_cons,←anyActive_next hrun.1]
    exact ih hrun.2

/-- Without a further mark the activity is that of the insertions. -/
theorem foldl_activeAfter {actions : List Action}
    (hcalm : .markAllPoolsInactive true∉actions) (active : Bool) :
    actions.foldl activeAfter active=true ↔
      active=true ∨ ∃ task,.insertPool task true∈actions := by
  induction actions generalizing active with
  | nil => simp only [List.foldl_nil,List.not_mem_nil,exists_false,or_false]
  | cons action actions ih =>
    have hrest : .markAllPoolsInactive true∉actions :=
      fun hmem => hcalm (List.mem_cons_of_mem _ hmem)
    rw [List.foldl_cons,ih hrest]
    cases action with
    | insertPool task succeeds =>
      cases succeeds with
      | true => simp only [activeAfter,true_or,true_iff,List.mem_cons]; exact Or.inr ⟨task,Or.inl rfl⟩
      | false => simp only [activeAfter,List.mem_cons,Action.insertPool.injEq,Bool.true_eq_false,
          and_false,false_or]
    | markAllPoolsInactive succeeds =>
      cases succeeds with
      | true => exact absurd List.mem_cons_self hcalm
      | false => simp only [activeAfter,List.mem_cons,reduceCtorEq,false_or]
    | _ => simp only [activeAfter,List.mem_cons,reduceCtorEq,false_or]

/-- The main task has passed its mark. -/
def Marked (phase : RunPhase) : Prop :=
  phase=.shuttingDown ∨ phase=.shutDown ∨ phase=.returned

/-- Past the mark the main task is in none of the phases before. -/
theorem Marked.not_early {phase : RunPhase} (h : Marked phase) :
    phase≠.setup ∧ phase≠.waiting ∧ phase≠.marking := by
  rcases h with rfl|rfl|rfl <;> decide

/-- Past the mark the main task stays there. -/
theorem marked_next {state : State} {action : Action}
    (henabled : Enabled bs58 settings state action) (hmarked : Marked state.phase) :
    Marked (next bs58 settings state action).phase := by
  obtain ⟨hsetup,hwaiting,hmarking⟩ := hmarked.not_early
  cases action with
  | setup => exact absurd henabled.1 hsetup
  | ctrlC => exact absurd henabled hwaiting
  | ctrlCFailed => exact absurd henabled hwaiting
  | markAllPoolsInactive succeeds => exact absurd henabled hmarking
  | requestShutdown => exact Or.inr (Or.inl rfl)
  | finishRun => exact Or.inr (Or.inr rfl)
  | system action => exact hmarked
  | startTask task now =>
    unfold next
    dsimp only
    split <;> exact hmarked
  | insertPool task succeeds =>
    unfold next
    dsimp only
    split <;> exact hmarked

/-- There is no second mark in a run. -/
theorem no_second_mark {start : State} {actions : List Action}
    (hrun : (deployment bs58 settings).Legal start actions) (hmarked : Marked start.phase) :
    .markAllPoolsInactive true∉actions := by
  induction actions generalizing start with
  | nil => exact List.not_mem_nil
  | cons action actions ih =>
    intro hmem
    rcases List.mem_cons.mp hmem with hhead|htail
    · have henabled := hrun.1
      rw [←hhead] at henabled
      exact absurd henabled hmarked.not_early.2.2
    · exact ih hrun.2 (marked_next hrun.1 hmarked) htail

/-- A run that has come to the shutdown has marked the pools. -/
theorem exists_mark {start : State} {actions : List Action}
    (hinit : (deployment bs58 settings).initial start)
    (hrun : ((deployment bs58 settings).restrict DatabaseSucceeds).Legal start actions)
    (hphase : ((deployment bs58 settings).final start actions).phase=.shuttingDown ∨
      ((deployment bs58 settings).final start actions).phase=.shutDown) :
    ∃ earlier later,actions=earlier++.markAllPoolsInactive true::later := by
  refine System.Legal.history_invariant
    (I := fun history state => state.phase=.shuttingDown ∨ state.phase=.shutDown →
      ∃ earlier later,history=earlier++.markAllPoolsInactive true::later) ?_ ?_ hrun hphase
  · intro hearly
    obtain ⟨clock,rows,rfl⟩ := hinit
    rcases hearly with h|h <;> cases h
  · intro history state action hpast henabled hlate
    have hextend : (state.phase=.shuttingDown ∨ state.phase=.shutDown) →
        ∃ earlier later,history++[action]=earlier++.markAllPoolsInactive true::later := by
      intro hbefore
      obtain ⟨earlier,later,rfl⟩ := hpast hbefore
      exact ⟨earlier,later++[action],by rw [List.append_assoc,List.cons_append]⟩
    obtain ⟨henabled,hsucceeds⟩ := henabled
    cases action with
    | markAllPoolsInactive succeeds =>
      have htrue : succeeds=true := hsucceeds
      exact ⟨history,[],by rw [htrue]⟩
    | requestShutdown => exact hextend (Or.inl henabled.1)
    | setup => rcases hlate with h|h <;> cases h
    | ctrlC => rcases hlate with h|h <;> cases h
    | ctrlCFailed => rcases hlate with h|h <;> cases h
    | finishRun => rcases hlate with h|h <;> cases h
    | system action => exact hextend hlate
    | startTask task now =>
      refine hextend ?_
      change (next bs58 settings state (.startTask task now)).phase=_ ∨
        (next bs58 settings state (.startTask task now)).phase=_ at hlate
      unfold next at hlate
      dsimp only at hlate
      split at hlate <;> exact hlate
    | insertPool task succeeds =>
      refine hextend ?_
      change (next bs58 settings state (.insertPool task succeeds)).phase=_ ∨
        (next bs58 settings state (.insertPool task succeeds)).phase=_ at hlate
      unfold next at hlate
      dsimp only at hlate
      split at hlate <;> exact hlate

/-- After the mark, some row is active exactly when one has been inserted. -/
theorem anyActive_after_mark {start : State} {earlier later : List Action}
    (hrun : (deployment bs58 settings).Legal start
      (earlier++.markAllPoolsInactive true::later)) :
    anyActive ((deployment bs58 settings).final start
      (earlier++.markAllPoolsInactive true::later)).rows=true ↔
      ∃ task,.insertPool task true∈later := by
  obtain ⟨_,hmark,hlater⟩ := legal_append.mp hrun
  have hcalm := no_second_mark hlater (Or.inl rfl)
  rw [anyActive_final hrun,List.foldl_append,List.foldl_cons,foldl_activeAfter hcalm]
  simp only [activeAfter,Bool.false_eq_true,false_or]

/-- In every run with every database call succeeding: at the moment `run`
returns no row is active, if and only if no insertion was executed between the
mark and the return. -/
theorem no_active_pool_iff {start : State} {actions : List Action}
    (hinit : (deployment bs58 settings).initial start)
    (hrun : ((deployment bs58 settings).restrict DatabaseSucceeds).Legal start
      (actions++[.finishRun])) :
    (∀ row∈((deployment bs58 settings).final start (actions++[.finishRun])).rows,
      row.isActive=false) ↔ ¬InsertedAfterMark actions := by
  obtain ⟨hpast,hfinish,_⟩ := legal_append.mp hrun
  have hphase : ((deployment bs58 settings).final start actions).phase=.shutDown := hfinish.1.1
  have hlegal := System.Legal.of_restrict hpast
  rw [←anyActive_eq_false_iff,final_append]
  change anyActive ((deployment bs58 settings).final start actions).rows=false ↔ _
  rw [←Bool.not_eq_true]
  refine not_congr ?_
  constructor
  · intro hactive
    obtain ⟨earlier,later,rfl⟩ := exists_mark hinit hpast (Or.inr hphase)
    obtain ⟨task,htask⟩ := (anyActive_after_mark hlegal).mp hactive
    exact ⟨earlier,later,task,rfl,htask⟩
  · intro hinserted
    obtain ⟨earlier,later,task,rfl,htask⟩ := hinserted
    exact (anyActive_after_mark hlegal).mpr ⟨task,htask⟩

/-- The task of an update inserts its row before the signal. -/
def earlyTaskRun : List Action :=
  sampleRun++[.startTask sampleTask 0,.insertPool samplePending true,.ctrlC,
    .markAllPoolsInactive true,.requestShutdown]

/-- An update is dispatched before the signal, and its task runs between the
mark and the shutdown. -/
def lateTaskRun : List Action :=
  sampleRun++[.ctrlC,.markAllPoolsInactive true,.startTask sampleTask 0,
    .insertPool samplePending true,.requestShutdown]

theorem no_active_pool_iff_bothRuns :
    ((∀ row∈((deployment Base58.encode sampleSettings).final (.start 0 [])
        (earlyTaskRun++[.finishRun])).rows,row.isActive=false) ↔
      ¬InsertedAfterMark earlyTaskRun) ∧
    ((deployment Base58.encode sampleSettings).final (.start 0 [])
      (earlyTaskRun++[.finishRun])).rows.map Row.isActive=[false] ∧
    ((∀ row∈((deployment Base58.encode sampleSettings).final (.start 0 [])
        (lateTaskRun++[.finishRun])).rows,row.isActive=false) ↔
      ¬InsertedAfterMark lateTaskRun) ∧
    ((deployment Base58.encode sampleSettings).final (.start 0 [])
      (lateTaskRun++[.finishRun])).rows.map Row.isActive=[true] :=
  ⟨no_active_pool_iff ⟨0,[],rfl⟩ (by decide),by decide,
    no_active_pool_iff ⟨0,[],rfl⟩ (by decide),by decide⟩

/-- The row of the late task is active when `run` returns. -/
theorem shutdown_leaves_active_pool :
    ¬∀ actions,((deployment Base58.encode sampleSettings).restrict DatabaseSucceeds).Legal
        (.start 0 []) (actions++[.finishRun]) →
      ∀ row∈((deployment Base58.encode sampleSettings).final (.start 0 [])
        (actions++[.finishRun])).rows,row.isActive=false := by
  intro hclaim
  have hactive : anyActive ((deployment Base58.encode sampleSettings).final (.start 0 [])
      (lateTaskRun++[.finishRun])).rows=true := by decide
  have hinactive := anyActive_eq_false_iff.mpr (hclaim lateTaskRun (by decide))
  exact absurd (hactive.symm.trans hinactive) Bool.false_ne_true.symm

end SteamHandler.Shutdown
