import SteamHandler.TransitionSystem

/-!
# Endless runs and fairness

An endless run takes at most one step at each moment. Its beginnings are legal
runs, so that what holds of these holds of it at all times; that something comes
about in it at all rests on fairness. A choice of actions is treated fairly if it
is made in the end where it stays possible, or, in the strong sense, where it is
possible again and again. The rules below turn fairness into progress: for a
single choice, along a measure, and for a queue that a fair choice serves.
-/

namespace SteamHandler.Behaviours

open TransitionSystem

variable {σ τ α β γ : Type*}

/-- An endless run of a system. -/
structure Behaviour (sys : System σ α) where
  /-- The state at each moment. -/
  state : ℕ → σ
  /-- The step taken at each moment, if any. -/
  action : ℕ → Option α
  /-- It begins in an initial state. -/
  initial : sys.initial (state 0)
  /-- Steps are taken where they are enabled, and have their effect. -/
  taken : ∀ moment performed,action moment=some performed →
    sys.enabled (state moment) performed ∧
      state (moment+1)=sys.next (state moment) performed
  /-- Nothing changes without a step. -/
  idle : ∀ moment,action moment=none → state (moment+1)=state moment

namespace Behaviour

variable {sys : System σ α} (run : Behaviour sys)

/-- The steps taken before a moment. -/
def history (moment : ℕ) : List α := (List.range moment).filterMap run.action

theorem history_succ (moment : ℕ) :
    run.history (moment+1)=run.history moment++(run.action moment).toList := by
  rw [history,List.range_succ,List.filterMap_append,List.filterMap_cons,List.filterMap_nil]
  cases run.action moment <;> rfl

/-- The beginnings of an endless run are legal runs. -/
theorem history_run (moment : ℕ) :
    sys.Legal (run.state 0) (run.history moment) ∧
      sys.final (run.state 0) (run.history moment)=run.state moment := by
  induction moment with
  | zero => exact ⟨trivial,rfl⟩
  | succ moment ih =>
    obtain ⟨hlegal,hfinal⟩ := ih
    rw [history_succ,legal_append,final_append,hfinal]
    cases hstep : run.action moment with
    | none => exact ⟨⟨hlegal,trivial⟩,(run.idle moment hstep).symm⟩
    | some performed =>
      obtain ⟨henabled,hnext⟩ := run.taken moment performed hstep
      exact ⟨⟨hlegal,henabled,trivial⟩,hnext.symm⟩

/-- If all its steps meet a guard, so do those of its beginnings. -/
theorem history_restrict {guard : σ → α → Prop}
    (hguard : ∀ moment performed,run.action moment=some performed →
      guard (run.state moment) performed) (moment : ℕ) :
    (sys.restrict guard).Legal (run.state 0) (run.history moment) := by
  induction moment with
  | zero => trivial
  | succ moment ih =>
    rw [history_succ]
    refine legal_append.mpr ⟨ih,?_⟩
    change (sys.restrict guard).Legal (sys.final (run.state 0) (run.history moment)) _
    rw [(run.history_run moment).2]
    cases hstep : run.action moment with
    | none => trivial
    | some performed =>
      exact ⟨⟨(run.taken moment performed hstep).1,hguard moment performed hstep⟩,trivial⟩

/-- Every state of an endless run is reachable. -/
theorem reachable (moment : ℕ) : sys.Reachable (run.state moment) :=
  ⟨_,_,run.initial,(run.history_run moment).1,(run.history_run moment).2⟩

/-- Later histories go on where earlier ones end. -/
theorem history_later {first later : ℕ} (hle : first ≤ later) :
    run.history first<+:run.history later := by
  induction hle with
  | refl => exact List.prefix_refl _
  | step _ ih =>
    rw [history_succ]
    exact ih.trans (List.prefix_append _ _)

/-- What every step keeps from some moment on holds from then on. -/
theorem kept {P : σ → Prop} {first : ℕ} (hstart : P (run.state first))
    (hstep : ∀ moment performed,first ≤ moment → run.action moment=some performed →
      sys.enabled (run.state moment) performed → P (run.state moment) →
      P (sys.next (run.state moment) performed)) {later : ℕ} (hle : first ≤ later) :
    P (run.state later) := by
  induction later,hle using Nat.le_induction with
  | base => exact hstart
  | succ moment hle ih =>
    cases haction : run.action moment with
    | none =>
      rw [run.idle moment haction]
      exact ih
    | some performed =>
      obtain ⟨henabled,hnext⟩ := run.taken moment performed haction
      rw [hnext]
      exact hstep moment performed hle haction henabled ih

/-- A choice of actions is made at a moment. -/
def Takes (chosen : α → Prop) (moment : ℕ) : Prop :=
  ∃ performed,run.action moment=some performed ∧ chosen performed

end Behaviour

/-- Some action of the choice is enabled. -/
def Possible (sys : System σ α) (chosen : α → Prop) (state : σ) : Prop :=
  ∃ performed,sys.enabled state performed ∧ chosen performed

namespace Behaviour

variable {sys : System σ α} {run : Behaviour sys} {chosen : α → Prop}

/-- Weak fairness: a choice that stays possible is made. -/
def WeaklyFair (run : Behaviour sys) (chosen : α → Prop) : Prop :=
  ∀ first,(∀ moment,first ≤ moment → Possible sys chosen (run.state moment)) →
    ∃ moment,first ≤ moment ∧ run.Takes chosen moment

/-- Strong fairness: a choice that is possible again and again is made. -/
def StronglyFair (run : Behaviour sys) (chosen : α → Prop) : Prop :=
  ∀ first,(∀ moment,first ≤ moment →
      ∃ later,moment ≤ later ∧ Possible sys chosen (run.state later)) →
    ∃ moment,first ≤ moment ∧ run.Takes chosen moment

/-- Fairness asks nothing where the choice is impossible from some moment on. -/
theorem stronglyFair_of_impossible (last : ℕ)
    (h : ∀ moment,last ≤ moment → ¬Possible sys chosen (run.state moment)) :
    run.StronglyFair chosen := by
  intro first hagain
  obtain ⟨later,hlater,hpossible⟩ := hagain (max first last) (Nat.le_max_left _ _)
  exact absurd hpossible (h later ((Nat.le_max_right first last).trans hlater))

theorem StronglyFair.weaklyFair (h : run.StronglyFair chosen) : run.WeaklyFair chosen :=
  fun first hstays => h first fun moment hle => ⟨moment,Nat.le_refl _,hstays moment hle⟩

/-- The first time a choice is made, everything that only this choice changes is
still as it was. -/
theorem first_taken {P : σ → Prop} {first : ℕ} (hstart : P (run.state first))
    (hkept : ∀ moment performed,first ≤ moment → run.action moment=some performed →
      sys.enabled (run.state moment) performed → ¬chosen performed → P (run.state moment) →
      P (sys.next (run.state moment) performed))
    (htaken : (∀ moment,first ≤ moment → P (run.state moment)) →
      ∃ moment,first ≤ moment ∧ run.Takes chosen moment) :
    ∃ moment,first ≤ moment ∧ run.Takes chosen moment ∧ P (run.state moment) := by
  classical
  -- Without the choice so far, nothing has changed.
  have huntil : ∀ later,first ≤ later →
      (∀ moment,first ≤ moment → moment < later → ¬run.Takes chosen moment) →
      P (run.state later) := by
    intro later hle
    induction later,hle using Nat.le_induction with
    | base => exact fun _ => hstart
    | succ moment hle ih =>
      intro hnever
      have hbefore := ih fun earlier hfirst hlt => hnever earlier hfirst (Nat.lt_succ_of_lt hlt)
      cases haction : run.action moment with
      | none =>
        rw [run.idle moment haction]
        exact hbefore
      | some performed =>
        obtain ⟨henabled,hnext⟩ := run.taken moment performed haction
        rw [hnext]
        refine hkept moment performed hle haction henabled (fun hchosen => ?_) hbefore
        exact hnever moment hle (Nat.lt_succ_self _) ⟨performed,haction,hchosen⟩
  have hexists : ∃ moment,first ≤ moment ∧ run.Takes chosen moment := by
    by_contra hnever
    refine hnever (htaken fun moment hle => huntil moment hle fun earlier hfirst _ htakes => ?_)
    exact hnever ⟨earlier,hfirst,htakes⟩
  refine ⟨Nat.find hexists,(Nat.find_spec hexists).1,(Nat.find_spec hexists).2,?_⟩
  refine huntil _ (Nat.find_spec hexists).1 fun earlier hfirst hlt htakes => ?_
  exact Nat.find_min hexists hlt ⟨hfirst,htakes⟩

/-- The rule of weak fairness: what keeps a choice possible until it is made leads
to it. -/
theorem WeaklyFair.leads (hfair : run.WeaklyFair chosen) {P : σ → Prop} {first : ℕ}
    (hstart : P (run.state first))
    (hkept : ∀ moment performed,first ≤ moment → run.action moment=some performed →
      sys.enabled (run.state moment) performed → ¬chosen performed → P (run.state moment) →
      P (sys.next (run.state moment) performed))
    (hpossible : ∀ moment,first ≤ moment → P (run.state moment) →
      Possible sys chosen (run.state moment)) :
    ∃ moment,first ≤ moment ∧ run.Takes chosen moment ∧ P (run.state moment) :=
  first_taken hstart hkept fun hstays =>
    hfair first fun moment hle => hpossible moment hle (hstays moment hle)

end Behaviour

/-- The measure rule: what is reached, or gets nearer, from every moment on is
reached. -/
theorem eventually_of_measure {P : ℕ → Prop} (measure : ℕ → ℕ) {first : ℕ}
    (hprogress : ∀ moment,first ≤ moment → ¬P moment →
      ∃ later,moment ≤ later ∧ (P later ∨ measure later < measure moment)) :
    ∃ moment,first ≤ moment ∧ P moment := by
  have hfrom : ∀ size moment,first ≤ moment → measure moment=size →
      ∃ later,first ≤ later ∧ P later := by
    intro size
    induction size using Nat.strong_induction_on with
    | _ size ih =>
      intro moment hle hsize
      by_cases hreached : P moment
      · exact ⟨moment,hle,hreached⟩
      · obtain ⟨later,hlater,hgoal|hlower⟩ := hprogress moment hle hreached
        · exact ⟨later,hle.trans hlater,hgoal⟩
        · rw [hsize] at hlower
          exact ih _ hlower later (hle.trans hlater) rfl
  exact hfrom _ first (Nat.le_refl _) rfl

/-- Finitely many things that come about and stay come about together. -/
theorem eventually_all {P : γ → ℕ → Prop} (items : List γ) {first : ℕ}
    (hstays : ∀ item moment later,moment ≤ later → P item moment → P item later)
    (h : ∀ item∈items,∃ moment,first ≤ moment ∧ P item moment) :
    ∃ moment,first ≤ moment ∧ ∀ item∈items,P item moment := by
  induction items with
  | nil => exact ⟨first,Nat.le_refl _,fun item hitem => absurd hitem List.not_mem_nil⟩
  | cons item items ih =>
    obtain ⟨hitem,hitems⟩ := List.forall_mem_cons.mp h
    obtain ⟨moment,hle,hhead⟩ := hitem
    obtain ⟨later,_,htail⟩ := ih hitems
    refine ⟨max moment later,hle.trans (Nat.le_max_left _ _),List.forall_mem_cons.mpr ⟨?_,?_⟩⟩
    · exact hstays item _ _ (Nat.le_max_left _ _) hhead
    · exact fun other hother => hstays other _ _ (Nat.le_max_right _ _) (htail other hother)

namespace Behaviour

section Queues

variable {sys : System σ α} {run : Behaviour sys} {chosen : α → Prop}

/-- What the steps before a moment leave in a log. -/
def log (run : Behaviour sys) (entry : σ × α → Option γ) (moment : ℕ) : List γ :=
  (sys.steps (run.state 0) (run.history moment)).filterMap entry

theorem log_succ (entry : σ × α → Option γ) (moment : ℕ) :
    run.log entry (moment+1)=run.log entry moment++
      ((run.action moment).bind fun performed => entry (run.state moment,performed)).toList := by
  rw [log,log,history_succ]
  cases run.action moment with
  | none => rw [Option.toList_none,List.append_nil,Option.bind_none,Option.toList_none,List.append_nil]
  | some performed =>
    rw [Option.toList_some,steps_snoc,List.filterMap_append,(run.history_run moment).2,
      Option.bind_some,List.filterMap_cons,List.filterMap_nil]
    cases entry (run.state moment,performed) <;> rfl

/-- Logs only grow. -/
theorem log_later (entry : σ × α → Option γ) {first later : ℕ} (hle : first ≤ later) :
    run.log entry first<+:run.log entry later := by
  induction hle with
  | refl => exact List.prefix_refl _
  | step _ ih =>
    rw [log_succ]
    exact ih.trans (List.prefix_append _ _)

/-- A log of the actions alone. -/
theorem log_action (entry : α → Option γ) (moment : ℕ) :
    run.log (fun step => entry step.2) moment=(run.history moment).filterMap entry := by
  induction moment with
  | zero => rfl
  | succ moment ih =>
    rw [log_succ,history_succ,List.filterMap_append,ih]
    cases run.action moment with
    | none => rfl
    | some performed =>
      rw [Option.bind_some,Option.toList_some,List.filterMap_cons,List.filterMap_nil]
      cases entry performed <;> rfl

variable {queue : σ → List γ} {put take : σ × α → Option γ}

/-- What was put into a queue was taken, in order, or is still there. -/
theorem log_queue
    (hqueue : ∀ state action,sys.enabled state action →
      queue state++(put (state,action)).toList=
        (take (state,action)).toList++queue (sys.next state action)) (moment : ℕ) :
    queue (run.state 0)++run.log put moment=
      run.log take moment++queue (run.state moment) := by
  have hfifo := System.Legal.fifo queue hqueue (run.history_run moment).1
  rw [(run.history_run moment).2] at hfifo
  exact hfifo

/-- A queue that is not empty stays so until something is taken, which a fair
choice does in the end. -/
theorem StronglyFair.takes (hfair : run.StronglyFair chosen)
    (hqueue : ∀ state action,sys.enabled state action →
      queue state++(put (state,action)).toList=
        (take (state,action)).toList++queue (sys.next state action))
    (hchosen : ∀ state action,sys.enabled state action →
      (chosen action ↔ (take (state,action)).isSome=true)) {first : ℕ}
    (hopen : ∀ moment,first ≤ moment → ∃ later,moment ≤ later ∧
      (queue (run.state later)≠[] → Possible sys chosen (run.state later)))
    (hwaiting : queue (run.state first)≠[]) :
    ∃ moment,first ≤ moment ∧ run.Takes chosen moment ∧
      (run.log take first).length < (run.log take (moment+1)).length := by
  have hkept : ∀ moment performed,first ≤ moment → run.action moment=some performed →
      sys.enabled (run.state moment) performed → ¬chosen performed → queue (run.state moment)≠[] →
      queue (sys.next (run.state moment) performed)≠[] := by
    intro moment performed _ _ henabled hother hstill
    have hstep := hqueue _ performed henabled
    have hnone : take (run.state moment,performed)=none := by
      rw [hchosen _ _ henabled] at hother
      exact Option.not_isSome_iff_eq_none.mp hother
    rw [hnone,Option.toList_none,List.nil_append] at hstep
    rw [←hstep]
    exact List.append_ne_nil_of_left_ne_nil hstill _
  have htaken : (∀ moment,first ≤ moment → queue (run.state moment)≠[]) →
      ∃ moment,first ≤ moment ∧ run.Takes chosen moment := by
    intro hstays
    refine hfair first fun moment hle => ?_
    obtain ⟨later,hlater,hpossible⟩ := hopen moment hle
    exact ⟨later,hlater,hpossible (hstays later (hle.trans hlater))⟩
  obtain ⟨moment,hle,htakes,_⟩ := first_taken (P:=fun state => queue state≠[]) hwaiting hkept htaken
  refine ⟨moment,hle,htakes,?_⟩
  obtain ⟨performed,haction,hperformed⟩ := htakes
  obtain ⟨item,hitem⟩ := Option.isSome_iff_exists.mp
    ((hchosen _ _ (run.taken moment performed haction).1).mp hperformed)
  have hbefore : (run.log take first).length ≤ (run.log take moment).length :=
    (log_later take hle).length_le
  rw [log_succ,haction,Option.bind_some,hitem,List.length_append]
  exact Nat.lt_succ_of_le hbefore

/-- The room rule: a bounded queue that a fair choice takes from, and can take from
again and again, has room again and again, unless the service ends. -/
theorem StronglyFair.makesRoom (hfair : run.StronglyFair chosen) (queue : σ → List γ)
    (put take : σ × α → Option γ) (ended : σ → Prop) {capacity : ℕ}
    (hqueue : ∀ state action,sys.enabled state action →
      queue state++(put (state,action)).toList=
        (take (state,action)).toList++queue (sys.next state action))
    (hchosen : ∀ state action,sys.enabled state action →
      (chosen action ↔ (take (state,action)).isSome=true))
    (hopen : ∀ moment,∃ later,moment ≤ later ∧ (ended (run.state later) ∨
      (queue (run.state later)≠[] → Possible sys chosen (run.state later))))
    (hsingle : ∀ state action,chosen action → put (state,action)=none) (hcapacity : 0 < capacity)
    (hbounded : ∀ moment,(queue (run.state moment)).length ≤ capacity) (first : ℕ) :
    ∃ moment,first ≤ moment ∧
      (ended (run.state moment) ∨ (queue (run.state moment)).length < capacity) := by
  by_cases hends : ∃ moment,first ≤ moment ∧ ended (run.state moment)
  · obtain ⟨moment,hle,hended⟩ := hends
    exact ⟨moment,hle,Or.inl hended⟩
  by_cases hfree : (queue (run.state first)).length < capacity
  · exact ⟨first,Nat.le_refl _,Or.inr hfree⟩
  have hwaiting : queue (run.state first)≠[] := by
    intro hempty
    rw [hempty,List.length_nil] at hfree
    exact hfree hcapacity
  obtain ⟨moment,hle,⟨performed,haction,hperformed⟩,_⟩ :=
    hfair.takes hqueue hchosen (fun other hother => by
      obtain ⟨later,hlater,hended|hpossible⟩ := hopen other
      · exact absurd ⟨later,hother.trans hlater,hended⟩ hends
      · exact ⟨later,hlater,hpossible⟩) hwaiting
  obtain ⟨henabled,hnext⟩ := run.taken moment performed haction
  obtain ⟨item,hitem⟩ := Option.isSome_iff_exists.mp ((hchosen _ _ henabled).mp hperformed)
  have hstep := congrArg List.length (hqueue _ _ henabled)
  have hbefore := hbounded moment
  rw [hsingle _ _ hperformed,hitem,Option.toList_none,List.append_nil,Option.toList_some,
    List.length_append,List.length_singleton] at hstep
  refine ⟨moment+1,hle.trans (Nat.le_succ _),Or.inr ?_⟩
  rw [hnext]
  omega

/-- The service rule: a queue that a fair choice takes from, and can take from again
and again, is served. Whatever was put into it is taken, unless the service ends. -/
theorem StronglyFair.serves (hfair : run.StronglyFair chosen) (queue : σ → List γ)
    (put take : σ × α → Option γ) (ended : σ → Prop)
    (hqueue : ∀ state action,sys.enabled state action →
      queue state++(put (state,action)).toList=
        (take (state,action)).toList++queue (sys.next state action))
    (hchosen : ∀ state action,sys.enabled state action →
      (chosen action ↔ (take (state,action)).isSome=true))
    (hopen : ∀ moment,∃ later,moment ≤ later ∧ (ended (run.state later) ∨
      (queue (run.state later)≠[] → Possible sys chosen (run.state later)))) (first : ℕ) :
    ∃ moment,first ≤ moment ∧ (ended (run.state moment) ∨
      queue (run.state 0)++run.log put first<+:run.log take moment) := by
  by_cases hends : ∃ moment,first ≤ moment ∧ ended (run.state moment)
  · obtain ⟨moment,hle,hended⟩ := hends
    exact ⟨moment,hle,Or.inl hended⟩
  have hledger : ∀ moment,queue (run.state 0)++run.log put moment=
      run.log take moment++queue (run.state moment) := log_queue hqueue
  obtain ⟨moment,hle,htaken⟩ := @eventually_of_measure
    (fun moment => (queue (run.state 0)++run.log put first).length ≤ (run.log take moment).length)
    (fun moment => (queue (run.state 0)++run.log put first).length-(run.log take moment).length)
    first fun moment hle hbehind => by
      have hwaiting : queue (run.state moment)≠[] := by
        intro hempty
        have hall := hledger moment
        have hmore : (run.log put first).length ≤ (run.log put moment).length :=
          (log_later put hle).length_le
        rw [hempty,List.append_nil] at hall
        rw [←hall,List.length_append,List.length_append] at hbehind
        omega
      obtain ⟨later,hlater,_,hgrown⟩ := hfair.takes hqueue hchosen (fun other hother => by
        obtain ⟨later,hlater,hended|hpossible⟩ := hopen other
        · exact absurd ⟨later,hle.trans (hother.trans hlater),hended⟩ hends
        · exact ⟨later,hlater,hpossible⟩) hwaiting
      exact ⟨later+1,hlater.trans (Nat.le_succ _),Or.inr (by omega)⟩
  refine ⟨moment,hle,Or.inr ?_⟩
  have hput : queue (run.state 0)++run.log put first<+:
      queue (run.state 0)++run.log put moment :=
    (List.prefix_append_right_inj _).mpr (log_later put hle)
  rw [hledger moment] at hput
  exact List.prefix_of_prefix_length_le hput (List.prefix_append _ _) htaken

end Queues

end Behaviour

section Views

variable {concrete : System σ α} {spec : System τ β}

/-- Along a simulation, an endless run is seen as one. -/
def Behaviour.along (run : Behaviour concrete) (sim : Simulation concrete spec) :
    Behaviour spec where
  state moment := sim.view (run.state moment)
  action moment := (run.action moment).bind fun performed =>
    sim.performs (run.state moment) performed
  initial := sim.initial _ run.initial
  taken := by
    intro moment performed haction
    obtain ⟨action,hstep,hperforms⟩ := Option.bind_eq_some_iff.mp haction
    obtain ⟨henabled,hnext⟩ := run.taken moment action hstep
    rw [hnext]
    exact sim.visible _ action performed (run.reachable moment) henabled hperforms
  idle := by
    intro moment haction
    cases hstep : run.action moment with
    | none => rw [run.idle moment hstep]
    | some action =>
      obtain ⟨henabled,hnext⟩ := run.taken moment action hstep
      rw [hstep,Option.bind_some] at haction
      rw [hnext]
      exact sim.silent _ action (run.reachable moment) henabled haction

end Views

section Idling

variable {sys : System σ α}

/-- The states of a run that goes on with one action for ever. -/
def idling (sys : System σ α) (start : σ) (actions : List α) (rest : α) : ℕ → σ
  | 0 => start
  | moment+1 => sys.next (idling sys start actions rest moment) (actions.getD moment rest)

/-- Its beginning is the run. -/
theorem idling_eq {start : σ} {actions : List α} {rest : α} {moment : ℕ}
    (hle : moment ≤ actions.length) :
    idling sys start actions rest moment=sys.final start (actions.take moment) := by
  induction moment with
  | zero => rfl
  | succ moment ih =>
    have hlt : moment < actions.length := hle
    rw [idling,ih hlt.le,List.take_succ_eq_append_getElem hlt,final_append,List.getD_eq_getElem _ _ hlt]
    rfl

/-- Each of its steps is enabled where the last action always is. -/
theorem enabled_of_idling {start : σ} {actions : List α} {rest : α} (hrun : sys.Legal start actions)
    (hrest : ∀ state,sys.enabled state rest) (moment : ℕ) :
    sys.enabled (idling sys start actions rest moment) (actions.getD moment rest) := by
  rcases Nat.lt_or_ge moment actions.length with hlt|hge
  · have hsplit := List.take_append_drop moment actions
    rw [←hsplit,legal_append,List.drop_eq_getElem_cons hlt] at hrun
    rw [idling_eq hlt.le,List.getD_eq_getElem _ _ hlt]
    exact hrun.2.1
  · rw [List.getD_eq_default _ _ hge]
    exact hrest _

/-- A legal run that goes on with an action that is always enabled. -/
def Behaviour.thenAlways {start : σ} (hinit : sys.initial start) {actions : List α}
    (hrun : sys.Legal start actions) (rest : α) (hrest : ∀ state,sys.enabled state rest) :
    Behaviour sys where
  state := idling sys start actions rest
  action moment := some (actions.getD moment rest)
  initial := hinit
  taken := by
    intro moment performed haction
    obtain rfl := Option.some.inj haction
    exact ⟨enabled_of_idling hrun hrest moment,rfl⟩
  idle := fun moment haction => by cases haction

/-- A guard that the run and the last action meet is always met. -/
theorem guard_of_idling {start : σ} {actions : List α} {rest : α} {guard : σ → α → Prop}
    (hrun : (sys.restrict guard).Legal start actions) (hrest : ∀ state,sys.enabled state rest)
    (hguard : ∀ state,guard state rest) (moment : ℕ) :
    guard (idling sys start actions rest moment) (actions.getD moment rest) := by
  have hsame : idling (sys.restrict guard) start actions rest moment=
      idling sys start actions rest moment := by
    induction moment with
    | zero => rfl
    | succ moment ih =>
      rw [idling,idling,ih]
      rfl
  rw [←hsame]
  exact (enabled_of_idling hrun (fun state => ⟨hrest state,hguard state⟩) moment).2

/-- What the run ends with, if it is kept, holds from then on. -/
theorem idling_kept {start : σ} {actions : List α} {rest : α} {I : σ → Prop}
    (hfinal : I (sys.final start actions)) (hkept : ∀ state,I state → I (sys.next state rest))
    {moment : ℕ} (hle : actions.length ≤ moment) :
    I (idling sys start actions rest moment) := by
  induction moment,hle using Nat.le_induction with
  | base =>
    rw [idling_eq (Nat.le_refl _),List.take_length]
    exact hfinal
  | succ moment hle ih =>
    rw [idling,List.getD_eq_default _ _ hle]
    exact hkept _ ih

/-- What the last action makes grow has no bound. -/
theorem idling_unbounded {start : σ} {actions : List α} {rest : α} (measure : σ → ℕ)
    (hgrows : ∀ state,measure state+1 ≤ measure (sys.next state rest)) (bound : ℕ) :
    bound ≤ measure (idling sys start actions rest (actions.length+bound)) := by
  induction bound with
  | zero => exact Nat.zero_le _
  | succ bound ih =>
    change bound+1 ≤ measure (idling sys start actions rest ((actions.length+bound)+1))
    rw [idling,List.getD_eq_default _ _ (Nat.le_add_right _ _)]
    exact (Nat.succ_le_succ ih).trans (hgrows _)

end Idling

end SteamHandler.Behaviours
