import Mathlib

/-!
# Guarded transition systems and their legal runs

A system enables actions in states, and the chosen action fixes the successor.
All nondeterminism is therefore carried by the list of actions, so that a run
is data: its legality is decidable when the guards are, and histories can be
read off the list. Restricting a system conjoins a second guard; a property of
every legal run of the restriction is a property of every run whose steps all
meet that guard. A simulation carries reachability from a system to a more
abstract one, with or without guards; where a step amounts to several steps of
another system, or none, the traces of the steps make up a run there, and what
they log makes up what that run logs.
-/

namespace SteamHandler.TransitionSystem

/-- Initial states, action guards and the successor each action determines. -/
structure System (σ α : Type*) where
  /-- States in which a run may begin. -/
  initial : σ → Prop
  /-- Guard of an action in a state. -/
  enabled : σ → α → Prop
  /-- Successor; meaningful only where the action is enabled. -/
  next : σ → α → σ

variable {σ τ α β : Type*} (sys : System σ α)

/-- Every action of the list is enabled in the state it is taken in. -/
def System.Legal : σ → List α → Prop
  | _,[] => True
  | state,action::rest => sys.enabled state action ∧ System.Legal (sys.next state action) rest

/-- The state in which the listed actions end. -/
def System.final (start : σ) (actions : List α) : σ := actions.foldl sys.next start

/-- The steps of a run: each action with the state it is taken in. -/
def System.steps : σ → List α → List (σ × α)
  | _,[] => []
  | state,action::rest => (state,action)::System.steps (sys.next state action) rest

/-- Legality of a concrete run is decided guard by guard. -/
instance System.decidableLegal [hd : ∀ state action, Decidable (sys.enabled state action)] :
    ∀ (start : σ) (actions : List α), Decidable (sys.Legal start actions)
  | _,[] => inferInstanceAs (Decidable True)
  | start,action::rest =>
    have : Decidable (sys.Legal (sys.next start action) rest) :=
      System.decidableLegal (sys.next start action) rest
    inferInstanceAs (Decidable (_ ∧ _))

/-- States in which some legal run from an initial state ends. -/
def System.Reachable (state : σ) : Prop :=
  ∃ start actions, sys.initial start ∧ sys.Legal start actions ∧ sys.final start actions=state

/-- Some legal run leads from a state to one with the property. -/
def System.CanReach (state : σ) (P : σ → Prop) : Prop :=
  ∃ actions, sys.Legal state actions ∧ P (sys.final state actions)

/-- The same system under an additional guard. -/
def System.restrict (guard : σ → α → Prop) : System σ α :=
  { sys with enabled := fun state action => sys.enabled state action ∧ guard state action }

instance System.decidableRestrict {guard : σ → α → Prop}
    [hs : ∀ state action, Decidable (sys.enabled state action)]
    [hg : ∀ state action, Decidable (guard state action)] (state : σ) (action : α) :
    Decidable ((sys.restrict guard).enabled state action) :=
  inferInstanceAs (Decidable (sys.enabled state action ∧ guard state action))

variable {sys}

@[simp] theorem final_nil (start : σ) : sys.final start []=start := rfl

@[simp] theorem final_cons (start : σ) (action : α) (rest : List α) :
    sys.final start (action::rest)=sys.final (sys.next start action) rest := rfl

@[simp] theorem final_append (start : σ) (first second : List α) :
    sys.final start (first++second)=sys.final (sys.final start first) second := by
  simp only [System.final,List.foldl_append]

/-- A run is legal when both of its halves are. -/
theorem legal_append {start : σ} {first second : List α} :
    sys.Legal start (first++second) ↔
      sys.Legal start first ∧ sys.Legal (sys.final start first) second := by
  induction first generalizing start with
  | nil => simp only [List.nil_append,System.Legal,true_and,final_nil]
  | cons action first ih =>
    simp only [List.cons_append,System.Legal,ih,and_assoc]
    rfl

/-- The steps of a run are those of its halves. -/
theorem steps_append (start : σ) (first second : List α) :
    sys.steps start (first++second)=
      sys.steps start first++sys.steps (sys.final start first) second := by
  induction first generalizing start with
  | nil => rfl
  | cons action first ih =>
    rw [List.cons_append,System.steps,System.steps,ih,List.cons_append]
    rfl

/-- The last step of a run. -/
theorem steps_snoc (start : σ) (history : List α) (action : α) :
    sys.steps start (history++[action])=
      sys.steps start history++[(sys.final start history,action)] := by
  rw [steps_append]
  rfl

/-- Every step of a legal run is taken where it is enabled. -/
theorem System.Legal.enabled_of_mem_steps {start : σ} {actions : List α}
    (hrun : sys.Legal start actions) {step : σ × α} (hstep : step∈sys.steps start actions) :
    sys.enabled step.1 step.2 := by
  induction actions generalizing start with
  | nil => exact absurd hstep List.not_mem_nil
  | cons action actions ih =>
    rcases List.mem_cons.mp hstep with rfl|hlater
    · exact hrun.1
    · exact ih hrun.2 hlater

/-- Every action of a run is taken in some step of it. -/
theorem exists_step_of_mem {start : σ} {actions : List α} {action : α} (h : action∈actions) :
    ∃ state, (state,action)∈sys.steps start actions := by
  induction actions generalizing start with
  | nil => cases h
  | cons first actions ih =>
    rcases List.mem_cons.mp h with rfl|hlater
    · exact ⟨start,List.mem_cons_self⟩
    · obtain ⟨state,hstep⟩ := @ih (sys.next start first) hlater
      exact ⟨state,List.mem_cons_of_mem _ hstep⟩

/-- A step of a run splits it where the step is taken. -/
theorem exists_split_of_mem_steps {start : σ} {actions : List α} {step : σ × α}
    (hstep : step∈sys.steps start actions) :
    ∃ earlier later,actions=earlier++step.2::later ∧ step.1=sys.final start earlier := by
  induction actions generalizing start with
  | nil => exact absurd hstep List.not_mem_nil
  | cons action actions ih =>
    rcases List.mem_cons.mp hstep with rfl|hlater
    · exact ⟨[],actions,rfl,rfl⟩
    · obtain ⟨earlier,later,hsplit,hstate⟩ := ih hlater
      exact ⟨action::earlier,later,congrArg (action::·) hsplit,hstate⟩

/-- Induction over the legal runs from a state, by their last action. -/
theorem System.Legal.run_induction {P : List α → Prop} {start : σ} (hnil : P [])
    (hsnoc : ∀ history action, sys.Legal start history → P history →
      sys.enabled (sys.final start history) action → P (history++[action]))
    {actions : List α} (hrun : sys.Legal start actions) : P actions := by
  induction actions using List.reverseRecOn with
  | nil => exact hnil
  | append_singleton history action ih =>
    obtain ⟨hpast,hlast⟩ := legal_append.mp hrun
    exact hsnoc history action hpast (ih hpast) hlast.1

/-- A relation between the history of a run and its current state holds at the
end of every legal run when it holds initially and each step extends it. -/
theorem System.Legal.history_invariant {I : List α → σ → Prop} {start : σ}
    (hinit : I [] start)
    (hstep : ∀ history state action, I history state → sys.enabled state action →
      I (history++[action]) (sys.next state action))
    {actions : List α} (hrun : sys.Legal start actions) :
    I actions (sys.final start actions) := by
  refine System.Legal.run_induction (P := fun actions => I actions (sys.final start actions))
    hinit ?_ hrun
  intro history action _ hpast henabled
  rw [final_append]
  exact hstep history _ action hpast henabled

/-- A state with the property needs no step. -/
theorem System.CanReach.here {P : σ → Prop} {state : σ} (h : P state) : sys.CanReach state P :=
  ⟨[],trivial,h⟩

/-- One step first. -/
theorem System.CanReach.step {P : σ → Prop} {state : σ} (action : α)
    (ha : sys.enabled state action) (h : sys.CanReach (sys.next state action) P) :
    sys.CanReach state P := by
  obtain ⟨actions,hrun,hfinal⟩ := h
  exact ⟨action::actions,⟨ha,hrun⟩,hfinal⟩

/-- Initial states are reachable. -/
theorem System.Reachable.start {state : σ} (h : sys.initial state) : sys.Reachable state :=
  ⟨state,[],h,trivial,rfl⟩

/-- An enabled step from a reachable state reaches its successor. -/
theorem System.Reachable.step {state : σ} (h : sys.Reachable state) {action : α}
    (ha : sys.enabled state action) : sys.Reachable (sys.next state action) := by
  obtain ⟨start,actions,hinit,hrun,rfl⟩ := h
  refine ⟨start,actions++[action],hinit,?_,final_append _ _ _⟩
  exact legal_append.mpr ⟨hrun,ha,trivial⟩

/-- A legal run from a reachable state ends in one. -/
theorem System.Reachable.run {state : σ} (h : sys.Reachable state) {actions : List α}
    (hrun : sys.Legal state actions) : sys.Reachable (sys.final state actions) := by
  obtain ⟨start,past,hinit,hpast,rfl⟩ := h
  exact ⟨start,past++actions,hinit,legal_append.mpr ⟨hpast,hrun⟩,final_append _ _ _⟩

/-- The invariant rule: what holds initially and is kept by every enabled step
from a reachable state holds in every reachable state. -/
theorem System.Reachable.invariant {I : σ → Prop} (hinit : ∀ state, sys.initial state → I state)
    (hstep : ∀ state action, sys.Reachable state → I state → sys.enabled state action →
      I (sys.next state action))
    {state : σ} (h : sys.Reachable state) : I state := by
  obtain ⟨start,actions,hstart,hrun,rfl⟩ := h
  have hboth : sys.Reachable (sys.final start actions) ∧ I (sys.final start actions) :=
    System.Legal.history_invariant (I := fun _ current => sys.Reachable current ∧ I current)
      ⟨System.Reachable.start hstart,hinit start hstart⟩
      (fun _ _ _ hi ha => ⟨System.Reachable.step hi.1 ha,hstep _ _ hi.1 hi.2 ha⟩) hrun
  exact hboth.2

/-- Steps of a restriction are steps of the system. -/
theorem System.Legal.of_restrict {guard : σ → α → Prop} {start : σ} {actions : List α}
    (h : (sys.restrict guard).Legal start actions) : sys.Legal start actions := by
  induction actions generalizing start with
  | nil => trivial
  | cons action actions ih => exact ⟨h.1.1,ih h.2⟩

/-- Every state of a restriction is a state of the system, so that invariants
of the system need not be proved again under a guard. -/
theorem System.Reachable.of_restrict {guard : σ → α → Prop} {state : σ}
    (h : (sys.restrict guard).Reachable state) : sys.Reachable state := by
  obtain ⟨start,actions,hinit,hrun,hfinal⟩ := h
  exact ⟨start,actions,hinit,System.Legal.of_restrict hrun,hfinal⟩

/-- A view of one system's states as another's, under which every concrete step
is an enabled abstract step or leaves the view as it is. -/
structure Simulation (concrete : System σ α) (spec : System τ β) where
  /-- The abstract state a concrete state stands for. -/
  view : σ → τ
  /-- The abstract action a concrete step performs, if any. -/
  performs : σ → α → Option β
  /-- Runs begin in corresponding states. -/
  initial : ∀ state, concrete.initial state → spec.initial (view state)
  /-- A silent step does not change the view. -/
  silent : ∀ state action, concrete.Reachable state → concrete.enabled state action →
    performs state action=none → view (concrete.next state action)=view state
  /-- A performed action is enabled and has the abstract effect. -/
  visible : ∀ state action performed, concrete.Reachable state → concrete.enabled state action →
    performs state action=some performed →
      spec.enabled (view state) performed ∧
      view (concrete.next state action)=spec.next (view state) performed

variable {concrete : System σ α} {spec : System τ β}

/-- The view of a reachable state is reachable, under any pair of guards such
that the concrete one implies the abstract one for the action performed. -/
theorem Simulation.reachable_restrict (sim : Simulation concrete spec) {guard : σ → α → Prop}
    {specGuard : τ → β → Prop}
    (hguard : ∀ state action performed, concrete.Reachable state →
      concrete.enabled state action → guard state action →
      sim.performs state action=some performed → specGuard (sim.view state) performed)
    {state : σ} (h : (concrete.restrict guard).Reachable state) :
    (spec.restrict specGuard).Reachable (sim.view state) := by
  refine System.Reachable.invariant
    (I := fun state => (spec.restrict specGuard).Reachable (sim.view state)) ?_ ?_ h
  · exact fun state hstart => System.Reachable.start (sim.initial state hstart)
  · intro state action hreach hview henabled
    have hconcrete := hreach.of_restrict
    cases hperforms : sim.performs state action with
    | none =>
      have hsame := sim.silent state action hconcrete henabled.1 hperforms
      change (spec.restrict specGuard).Reachable (sim.view (concrete.next state action))
      rw [hsame]
      exact hview
    | some performed =>
      have hstep := sim.visible state action performed hconcrete henabled.1 hperforms
      have hallowed := hguard state action performed hconcrete henabled.1 henabled.2 hperforms
      change (spec.restrict specGuard).Reachable (sim.view (concrete.next state action))
      rw [hstep.2]
      exact System.Reachable.step hview ⟨hstep.1,hallowed⟩

/-- The view of a reachable state is reachable. -/
theorem Simulation.reachable (sim : Simulation concrete spec) {state : σ}
    (h : concrete.Reachable state) : spec.Reachable (sim.view state) := by
  refine System.Reachable.invariant (I := fun state => spec.Reachable (sim.view state)) ?_ ?_ h
  · exact fun state hstart => System.Reachable.start (sim.initial state hstart)
  · intro state action hreach hview henabled
    cases hperforms : sim.performs state action with
    | none =>
      rw [sim.silent state action hreach henabled hperforms]
      exact hview
    | some performed =>
      have hstep := sim.visible state action performed hreach henabled hperforms
      rw [hstep.2]
      exact System.Reachable.step hview hstep.1

/-- Where every concrete step is a legal run of another system between the
views of its states, every concrete run is one: the traces of its steps, one
after the other. -/
theorem legal_flatMap_steps (view : σ → τ) (trace : σ × α → List β)
    (hstep : ∀ state action, concrete.Reachable state → concrete.enabled state action →
      spec.Legal (view state) (trace (state,action)) ∧
      spec.final (view state) (trace (state,action))=view (concrete.next state action))
    {start : σ} (hreach : concrete.Reachable start) {actions : List α}
    (hrun : concrete.Legal start actions) :
    spec.Legal (view start) ((concrete.steps start actions).flatMap trace) ∧
      spec.final (view start) ((concrete.steps start actions).flatMap trace)=
        view (concrete.final start actions) := by
  refine System.Legal.run_induction
    (P := fun actions => spec.Legal (view start) ((concrete.steps start actions).flatMap trace) ∧
      spec.final (view start) ((concrete.steps start actions).flatMap trace)=
        view (concrete.final start actions)) ⟨trivial,rfl⟩ ?_ hrun
  intro history action hpast hview henabled
  obtain ⟨hlegal,hfinal⟩ := hview
  have hlast := hstep _ action (hreach.run hpast) henabled
  rw [steps_snoc,List.flatMap_append,List.flatMap_singleton,legal_append,final_append,hfinal,
    final_append]
  exact ⟨⟨hlegal,hlast.1⟩,hlast.2⟩

/-- Where every step logs, behind what is pending, what its trace logs and what is
pending after it, so does every run. -/
theorem log_flatMap_steps {γ : Type*} (view : σ → τ) (trace : σ × α → List β)
    (pending : σ → List γ) (log : σ × α → List γ) (specLog : τ × β → List γ)
    (hstep : ∀ state action, concrete.Reachable state → concrete.enabled state action →
      spec.final (view state) (trace (state,action))=view (concrete.next state action) ∧
      pending state++log (state,action)=
        (spec.steps (view state) (trace (state,action))).flatMap specLog++
          pending (concrete.next state action))
    {start : σ} (hreach : concrete.Reachable start) {actions : List α}
    (hrun : concrete.Legal start actions) :
    pending start++(concrete.steps start actions).flatMap log=
      (spec.steps (view start) ((concrete.steps start actions).flatMap trace)).flatMap specLog++
        pending (concrete.final start actions) := by
  have hboth : spec.final (view start) ((concrete.steps start actions).flatMap trace)=
        view (concrete.final start actions) ∧
      pending start++(concrete.steps start actions).flatMap log=
        (spec.steps (view start) ((concrete.steps start actions).flatMap trace)).flatMap specLog++
          pending (concrete.final start actions) := by
    refine System.Legal.run_induction
      (P := fun actions => spec.final (view start) ((concrete.steps start actions).flatMap trace)=
          view (concrete.final start actions) ∧
        pending start++(concrete.steps start actions).flatMap log=
          (spec.steps (view start) ((concrete.steps start actions).flatMap trace)).flatMap specLog++
            pending (concrete.final start actions)) ⟨rfl,List.append_nil _⟩ ?_ hrun
    intro history action hpast ⟨hfinal,hlogs⟩ henabled
    obtain ⟨hlast,hlog⟩ := hstep _ action (hreach.run hpast) henabled
    rw [steps_snoc,List.flatMap_append,List.flatMap_append,List.flatMap_singleton,
      List.flatMap_singleton,final_append,final_append,steps_append,List.flatMap_append,hfinal,
      ←List.append_assoc,hlogs,List.append_assoc,hlog,List.append_assoc]
    exact ⟨hlast,rfl⟩
  exact hboth.2

section Measures

/-- A property that can be reached from wherever another one holds can be reached
from where that one can. -/
theorem System.CanReach.trans {P Q : σ → Prop} {state : σ} (h : sys.CanReach state P)
    (hlater : ∀ reached,P reached → sys.CanReach reached Q) : sys.CanReach state Q := by
  obtain ⟨first,hfirst,hreached⟩ := h
  obtain ⟨second,hsecond,hfinal⟩ := hlater _ hreached
  refine ⟨first++second,legal_append.mpr ⟨hfirst,hsecond⟩,?_⟩
  rw [final_append]
  exact hfinal

/-- What a restriction can reach, the system can. -/
theorem System.CanReach.of_restrict {guard : σ → α → Prop} {P : σ → Prop} {state : σ}
    (h : (sys.restrict guard).CanReach state P) : sys.CanReach state P := by
  obtain ⟨actions,hrun,hfinal⟩ := h
  exact ⟨actions,System.Legal.of_restrict hrun,hfinal⟩

/-- The progress rule: a goal is reached if, as long as it is not, some run
lowers a measure and keeps an invariant. -/
theorem System.canReach_of_measure {P I : σ → Prop} (measure : σ → ℕ)
    (hprogress : ∀ state,I state → ¬P state → ∃ actions,sys.Legal state actions ∧
      I (sys.final state actions) ∧ measure (sys.final state actions) < measure state)
    {state : σ} (h : I state) : sys.CanReach state (fun reached => I reached ∧ P reached) := by
  induction hsize : measure state using Nat.strong_induction_on generalizing state with
  | _ size ih =>
    by_cases hgoal : P state
    · exact System.CanReach.here ⟨h,hgoal⟩
    · obtain ⟨actions,hrun,hkept,hlower⟩ := hprogress state h hgoal
      rw [hsize] at hlower
      obtain ⟨later,hlater,hfinal⟩ := ih _ hlower hkept rfl
      refine ⟨actions++later,legal_append.mpr ⟨hrun,hlater⟩,?_⟩
      rw [final_append]
      exact hfinal

/-- The queue rule: where every step puts at most one item at the end of a queue
and takes at most one from its front, a run takes the items that were queued or
put, in that order, up to those still queued. -/
theorem System.Legal.fifo {γ : Type*} (queue : σ → List γ) {put take : σ × α → Option γ}
    (hstep : ∀ state action,sys.enabled state action →
      queue state++(put (state,action)).toList=
        (take (state,action)).toList++queue (sys.next state action))
    {start : σ} {actions : List α} (hrun : sys.Legal start actions) :
    queue start++(sys.steps start actions).filterMap put=
      (sys.steps start actions).filterMap take++queue (sys.final start actions) := by
  induction actions generalizing start with
  | nil => exact List.append_nil _
  | cons action actions ih =>
    have hcons : ∀ log : σ × α → Option γ,(sys.steps start (action::actions)).filterMap log=
        (log (start,action)).toList++(sys.steps (sys.next start action) actions).filterMap log := by
      intro log
      rw [System.steps,List.filterMap_cons]
      cases log (start,action) <;> rfl
    rw [hcons,hcons,←List.append_assoc,hstep start action hrun.1,List.append_assoc,ih hrun.2,
      List.append_assoc]
    rfl

/-- The accounting rule: if every step's cost is covered by what it is credited
and by what it takes from a potential, so is the cost of every run. -/
theorem System.Legal.cost_le (potential : σ → ℕ) {cost credit : α → ℕ}
    (hstep : ∀ state action,sys.enabled state action →
      potential (sys.next state action)+cost action ≤ potential state+credit action)
    {start : σ} {actions : List α} (hrun : sys.Legal start actions) :
    potential (sys.final start actions)+(actions.map cost).sum ≤
      potential start+(actions.map credit).sum := by
  induction actions generalizing start with
  | nil => exact Nat.le_refl _
  | cons action actions ih =>
    have hfirst := hstep start action hrun.1
    have hlater := ih hrun.2
    simp only [final_cons,List.map_cons,List.sum_cons]
    omega

end Measures

end SteamHandler.TransitionSystem
