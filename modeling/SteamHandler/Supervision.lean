import SteamHandler.TransitionSystem

/-!
# A supervisor and its detached workers

A supervisor keeps at most one session at a time, and each session is served
by a worker of its own. Workers are detached: they end by themselves, announce
it by one or more notices in a queue they all share, and hear nothing from the
supervisor. A notice does not name its sender, so the supervisor takes every
notice to be about its current session. Sessions are numbered in the order in
which they are opened; the numbers are ghosts.

Three questions about such a design are answered here. The last notice of a
worker is never lost. When the supervisor acts on last notices only, no notice
is ever about another session. When it gives a session up only after the
worker has left its loop, no other worker is serving.
-/

namespace SteamHandler.Supervision

open TransitionSystem

/-- A queued notice that a worker ends. -/
structure Notice where
  /-- Ghost number of the session whose worker sent it. -/
  sender : ℕ
  /-- The sender owes no further notice. -/
  last : Bool
  deriving DecidableEq, Repr

/-- The life of a worker. -/
inductive Worker where
  /-- Its session is not opened yet. -/
  | unspawned
  /-- In its loop. -/
  | serving
  /-- Out of its loop, with so many notices still to send. -/
  | leaving (owed : ℕ)
  deriving DecidableEq, Repr

/-- The supervisor, the queue and all workers. -/
@[ext] structure State where
  /-- The supervisor has not stopped. -/
  running : Bool
  /-- The session it keeps. -/
  current : Option ℕ
  /-- The shared queue, oldest first. -/
  notices : List Notice
  /-- The worker of each session. -/
  workers : ℕ → Worker
  /-- How many sessions have been opened. -/
  opened : ℕ

/-- The steps of supervisor and workers. -/
inductive Action where
  /-- The supervisor opens a session, whose worker starts serving. -/
  | openSession
  /-- A worker does what it is for. -/
  | serve (session : ℕ)
  /-- A worker leaves its loop. -/
  | finish (session owed : ℕ)
  /-- A worker sends a notice. -/
  | notify (session : ℕ)
  /-- The supervisor takes a notice and gives its session up. -/
  | consume
  /-- The supervisor gives its session up for a reason of its own. -/
  | drop
  /-- The supervisor stops. -/
  | stop
  deriving DecidableEq, Repr

/-- When each step can happen. -/
def Enabled (state : State) : Action → Prop
  | .openSession => state.running=true ∧ state.current=none
  | .serve session => state.workers session=.serving
  | .finish session owed => state.workers session=.serving ∧ 0 < owed
  | .notify session => ∃ owed,state.workers session=.leaving (owed+1)
  | .consume => state.running=true ∧ state.current≠none ∧ state.notices≠[]
  | .drop => state.running=true ∧ state.current≠none
  | .stop => state.running=true

/-- What each step does. A notice to a stopped supervisor is lost. -/
def next (state : State) : Action → State
  | .openSession =>
    { state with
      current := some state.opened
      workers := Function.update state.workers state.opened .serving
      opened := state.opened+1 }
  | .serve _ => state
  | .finish session owed =>
    { state with workers := Function.update state.workers session (.leaving owed) }
  | .notify session =>
    match state.workers session with
    | .leaving (owed+1) =>
      { state with
        workers := Function.update state.workers session (.leaving owed)
        notices :=
          if state.running then state.notices++[⟨session,decide (owed=0)⟩] else state.notices }
    | _ => state
  | .consume =>
    { state with
      current := none
      notices := state.notices.tail }
  | .drop => { state with current := none }
  | .stop => { state with running := false }

/-- Supervisor and workers as a transition system. -/
def supervision : System State Action where
  initial := fun state => state=⟨true,none,[],fun _ => .unspawned,0⟩
  enabled := Enabled
  next := next

/-- A notice step, with the number of notices then still owed. -/
theorem next_notify {state : State} {session owed : ℕ}
    (h : state.workers session=.leaving (owed+1)) :
    next state (.notify session)=
      { state with
        workers := Function.update state.workers session (.leaving owed)
        notices :=
          if state.running then state.notices++[⟨session,decide (owed=0)⟩]
          else state.notices } := by
  simp only [next,h]

/-- The queue only ever loses notices or gains the one just sent. -/
theorem mem_notices_next {state : State} {action : Action} {notice : Notice}
    (henabled : Enabled state action) (h : notice∈(next state action).notices) :
    notice∈state.notices ∨
      ∃ session owed,action=.notify session ∧ state.workers session=.leaving (owed+1) ∧
        notice=⟨session,decide (owed=0)⟩ := by
  cases action with
  | notify session =>
    obtain ⟨owed,howed⟩ := henabled
    rw [next_notify howed] at h
    dsimp only at h
    split at h
    · rcases List.mem_append.mp h with hold|hnew
      · exact Or.inl hold
      · exact Or.inr ⟨session,owed,rfl,howed,List.mem_singleton.mp hnew⟩
    · exact Or.inl h
  | consume => exact Or.inl (List.mem_of_mem_tail h)
  | _ => exact Or.inl h

/-- What a step can do to a worker: start it when its session is opened, take
it out of its loop, or count down the notices it owes. -/
theorem workers_next {state : State} {action : Action} (henabled : Enabled state action)
    (session : ℕ) :
    (next state action).workers session=state.workers session ∨
    (action=.openSession ∧ session=state.opened ∧
      (next state action).workers session=.serving) ∨
    (∃ owed,0 < owed ∧ state.workers session=.serving ∧
      (next state action).workers session=.leaving owed) ∨
    ∃ owed,action=.notify session ∧ state.workers session=.leaving (owed+1) ∧
      (next state action).workers session=.leaving owed := by
  cases action with
  | openSession =>
    rcases eq_or_ne session state.opened with rfl|hne
    · exact Or.inr (Or.inl ⟨rfl,rfl,Function.update_self _ _ _⟩)
    · exact Or.inl (Function.update_of_ne hne _ _)
  | finish moved owed =>
    rcases eq_or_ne session moved with rfl|hne
    · exact Or.inr (Or.inr (Or.inl ⟨owed,henabled.2,henabled.1,Function.update_self _ _ _⟩))
    · exact Or.inl (Function.update_of_ne hne _ _)
  | notify moved =>
    obtain ⟨owed,howed⟩ := henabled
    rw [next_notify howed]
    rcases eq_or_ne session moved with rfl|hne
    · exact Or.inr (Or.inr (Or.inr ⟨owed,rfl,howed,Function.update_self _ _ _⟩))
    · exact Or.inl (Function.update_of_ne hne _ _)
  | _ => exact Or.inl rfl

/-- Sessions not opened yet have no worker. -/
theorem unspawned_of_opened_le {state : State} (h : supervision.Reachable state) {session : ℕ}
    (hlate : state.opened ≤ session) : state.workers session=.unspawned := by
  refine System.Reachable.invariant
    (I := fun state => ∀ session,state.opened ≤ session → state.workers session=.unspawned)
    ?_ ?_ h session hlate
  · intro start hstart session _
    rw [hstart]
  · intro state action _ hinv henabled session hlate
    have hopened : state.opened ≤ (next state action).opened := by
      cases action with
      | notify moved =>
        obtain ⟨owed,howed⟩ := henabled
        rw [next_notify howed]
      | openSession => exact Nat.le_succ _
      | _ => exact le_rfl
    have hbefore := hinv session (hopened.trans hlate)
    rcases workers_next henabled session with hsame|⟨rfl,rfl,_⟩|⟨_,_,hserving,_⟩|⟨_,_,howing,_⟩
    · exact hsame.trans hbefore
    · exact absurd hlate (Nat.not_succ_le_self _)
    · rw [hbefore] at hserving
      cases hserving
    · rw [hbefore] at howing
      cases howing

/-- Sessions that have been opened have one. -/
theorem spawned_of_lt_opened {state : State} (h : supervision.Reachable state) {session : ℕ}
    (hearly : session < state.opened) : state.workers session≠.unspawned := by
  refine System.Reachable.invariant
    (I := fun state => ∀ session,session < state.opened → state.workers session≠.unspawned)
    ?_ ?_ h session hearly
  · intro start hstart session hearly
    rw [hstart] at hearly
    exact absurd hearly (Nat.not_lt_zero _)
  · intro state action _ hinv henabled session hearly hunspawned
    rcases workers_next henabled session with hsame|⟨_,_,hserving⟩|⟨_,_,_,hleaving⟩|⟨_,_,_,hleaving⟩
    · have hbefore : session < state.opened := by
        cases action with
        | openSession =>
          refine lt_of_le_of_ne (Nat.lt_succ_iff.mp hearly) fun hnew => ?_
          have hserving : (next state .openSession).workers session=.serving := by
            rw [hnew]
            exact Function.update_self _ _ _
          cases hserving.symm.trans hunspawned
        | notify moved =>
          obtain ⟨owed,howed⟩ := henabled
          simp only [supervision,next_notify howed] at hearly
          exact hearly
        | _ => exact hearly
      exact hinv session hbefore (hsame.symm.trans hunspawned)
    · cases hserving.symm.trans hunspawned
    · cases hleaving.symm.trans hunspawned
    · cases hleaving.symm.trans hunspawned

/-- The session that is kept has been opened. -/
theorem current_lt_opened {state : State} (h : supervision.Reachable state) {session : ℕ}
    (hcurrent : state.current=some session) : session < state.opened := by
  refine System.Reachable.invariant
    (I := fun state => ∀ session,state.current=some session → session < state.opened)
    ?_ ?_ h session hcurrent
  · intro start hstart session hcurrent
    rw [hstart] at hcurrent
    cases hcurrent
  · intro state action _ hinv henabled session hcurrent
    cases action with
    | openSession =>
      rw [←Option.some.inj hcurrent]
      exact Nat.lt_succ_self _
    | notify moved =>
      obtain ⟨owed,howed⟩ := henabled
      simp only [supervision,next_notify howed] at hcurrent ⊢
      exact hinv session hcurrent
    | consume => cases hcurrent
    | drop => cases hcurrent
    | _ => exact hinv session hcurrent

/-- A worker whose last notice is queued owes nothing. -/
theorem gone_of_last_notice {state : State} (h : supervision.Reachable state) {notice : Notice}
    (hmem : notice∈state.notices) (hlast : notice.last=true) :
    state.workers notice.sender=.leaving 0 := by
  refine System.Reachable.invariant
    (I := fun state => ∀ notice∈state.notices,notice.last=true →
      state.workers notice.sender=.leaving 0) ?_ ?_ h notice hmem hlast
  · intro start hstart notice hmem
    rw [hstart] at hmem
    cases hmem
  · intro state action hreach hinv henabled notice hmem hlast
    rcases mem_notices_next henabled hmem with hold|⟨session,owed,rfl,howed,rfl⟩
    · have hgone := hinv notice hold hlast
      rcases workers_next henabled notice.sender with
        hsame|⟨rfl,hsender,_⟩|⟨_,_,hserving,_⟩|⟨_,_,howing,_⟩
      · exact hsame.trans hgone
      · rw [hsender,unspawned_of_opened_le hreach le_rfl] at hgone
        cases hgone
      · rw [hgone] at hserving
        cases hserving
      · rw [hgone] at howing
        cases howing
    · have hzero : owed=0 := of_decide_eq_true hlast
      subst hzero
      change (next state (.notify session)).workers session=_
      rw [next_notify howed]
      exact Function.update_self _ _ _

/-- Nothing of a worker follows its last notice in the queue. -/
theorem pairwise_notices {state : State} (h : supervision.Reachable state) :
    state.notices.Pairwise fun earlier later =>
      earlier.last=true → later.sender≠earlier.sender := by
  refine System.Reachable.invariant
    (I := fun state => state.notices.Pairwise fun earlier later =>
      earlier.last=true → later.sender≠earlier.sender) ?_ ?_ h
  · intro start hstart
    rw [hstart]
    exact List.Pairwise.nil
  · intro state action hreach hinv henabled
    cases action with
    | notify session =>
      obtain ⟨owed,howed⟩ := henabled
      change ((next state (.notify session)).notices).Pairwise _
      rw [next_notify howed]
      dsimp only
      split
      · refine List.pairwise_append.mpr ⟨hinv,List.pairwise_singleton _ _,?_⟩
        intro earlier hearlier later hlater hlast hsame
        have hgone := gone_of_last_notice hreach hearlier hlast
        rw [List.mem_singleton.mp hlater] at hsame
        rw [←hsame,howed] at hgone
        cases hgone
      · exact hinv
    | consume => exact hinv.tail
    | _ => exact hinv

/-- No lost notice: while the supervisor keeps the session of a worker that is
gone, the worker's last notice is in the queue. -/
theorem last_notice_pending {state : State} (h : supervision.Reachable state)
    (hrunning : state.running=true) {session : ℕ} (hcurrent : state.current=some session)
    (hgone : state.workers session=.leaving 0) : ⟨session,true⟩∈state.notices := by
  refine System.Reachable.invariant
    (I := fun state => state.running=true → ∀ session,state.current=some session →
      state.workers session=.leaving 0 → ⟨session,true⟩∈state.notices)
    ?_ ?_ h hrunning session hcurrent hgone
  · intro start hstart _ session hcurrent
    rw [hstart] at hcurrent
    cases hcurrent
  · intro state action _ hinv henabled hrunning session hcurrent hgone
    cases action with
    | openSession =>
      cases hcurrent
      have hserving : (next state .openSession).workers state.opened=.serving :=
        Function.update_self _ _ _
      exact absurd (hserving.symm.trans hgone) (by simp only [reduceCtorEq,not_false_iff])
    | finish moved owed =>
      have hworkers := workers_next (show Enabled state (.finish moved owed) from henabled) session
      change (next state (.finish moved owed)).workers session=_ at hgone
      rcases hworkers with hsame|⟨hopen,_,_⟩|⟨left,hleft,_,howes⟩|⟨_,hnotify,_,_⟩
      · exact hinv hrunning session hcurrent (hsame.symm.trans hgone)
      · cases hopen
      · have hzero : left=0 := Worker.leaving.inj (howes.symm.trans hgone)
        omega
      · cases hnotify
    | notify moved =>
      obtain ⟨owed,howed⟩ := henabled
      simp only [supervision,next_notify howed] at hrunning hcurrent hgone ⊢
      rw [if_pos hrunning,List.mem_append]
      rcases eq_or_ne session moved with rfl|hne
      · rw [Function.update_self] at hgone
        cases hgone
        exact Or.inr (List.mem_singleton.mpr rfl)
      · rw [Function.update_of_ne hne] at hgone
        exact Or.inl (hinv hrunning session hcurrent hgone)
    | serve moved => exact hinv hrunning session hcurrent hgone
    | consume => cases hcurrent
    | drop => cases hcurrent
    | stop => cases hrunning

/-- Guard: the supervisor gives its session up only on a worker's last notice. -/
def OnLastNotice (state : State) : Action → Prop
  | .consume => ∀ notice rest,state.notices=notice::rest → notice.last=true
  | .drop => False
  | _ => True

/-- Nothing of a session is left: its worker is unspawned or gone, and no
notice of it is queued. -/
def Settled (state : State) (session : ℕ) : Prop :=
  (state.workers session=.unspawned ∨ state.workers session=.leaving 0) ∧
    ∀ notice∈state.notices,notice.sender≠session

/-- As long as sessions are given up on last notices only, nothing is left of
any session but the current one. -/
theorem settled_of_ne_current {state : State}
    (h : (supervision.restrict OnLastNotice).Reachable state) (hrunning : state.running=true)
    {session : ℕ} (hother : state.current≠some session) : Settled state session := by
  refine System.Reachable.invariant
    (I := fun state => state.running=true → ∀ session,state.current≠some session →
      Settled state session) ?_ ?_ h hrunning session hother
  · intro start hstart _ session _
    rw [hstart]
    exact ⟨Or.inl rfl,fun notice hmem => absurd hmem List.not_mem_nil⟩
  · intro state action hreach hinv henabled hrunning session hother
    have hlegal := hreach.of_restrict
    obtain ⟨henabled,hguard⟩ := henabled
    cases action with
    | openSession =>
      have hnone : state.current≠some session := by
        rw [henabled.2]
        exact (Option.some_ne_none session).symm
      have hne : session≠state.opened := fun hsame => hother (congrArg some hsame.symm)
      obtain ⟨hworker,hqueue⟩ := hinv henabled.1 session hnone
      refine ⟨?_,hqueue⟩
      change Function.update state.workers _ _ _=_ ∨ Function.update state.workers _ _ _=_
      rw [Function.update_of_ne hne]
      exact hworker
    | serve moved => exact hinv hrunning session hother
    | finish moved owed =>
      obtain ⟨hworker,hqueue⟩ := hinv hrunning session hother
      have hne : session≠moved := by
        intro hsame
        rw [hsame,henabled.1] at hworker
        rcases hworker with hworker|hworker <;> cases hworker
      refine ⟨?_,hqueue⟩
      change Function.update state.workers _ _ _=_ ∨ Function.update state.workers _ _ _=_
      rw [Function.update_of_ne hne]
      exact hworker
    | notify moved =>
      obtain ⟨owed,howed⟩ := henabled
      simp only [supervision,System.restrict,next_notify howed] at hrunning hother ⊢
      obtain ⟨hworker,hqueue⟩ := hinv hrunning session hother
      have hne : session≠moved := by
        intro hsame
        rw [hsame,howed] at hworker
        rcases hworker with hworker|hworker <;> cases hworker
      refine ⟨?_,?_⟩
      · dsimp only
        rw [Function.update_of_ne hne]
        exact hworker
      · intro notice hmem
        dsimp only at hmem
        rw [if_pos hrunning,List.mem_append,List.mem_singleton] at hmem
        rcases hmem with hold|rfl
        · exact hqueue notice hold
        · exact hne.symm
    | consume =>
      cases hnotices : state.notices with
      | nil => exact absurd hnotices henabled.2.2
      | cons head rest =>
        have hhead : head∈state.notices := by
          rw [hnotices]
          exact List.mem_cons_self
        have hlast := hguard head rest hnotices
        have hgone := gone_of_last_notice hlegal hhead hlast
        have horder := pairwise_notices hlegal
        rw [hnotices] at horder
        -- The notice taken is about the current session, by the invariant.
        have hown : state.current=some head.sender := by
          by_contra hforeign
          exact (hinv henabled.1 _ hforeign).2 head hhead rfl
        have htail : (next state .consume).notices=rest := by
          simp only [next,hnotices,List.tail_cons]
        change (state.workers session=_ ∨ state.workers session=_) ∧
          ∀ notice∈(next state .consume).notices,notice.sender≠session
        rw [htail]
        rcases eq_or_ne session head.sender with rfl|hne
        · exact ⟨Or.inr hgone,fun notice hmem => List.rel_of_pairwise_cons horder hmem hlast⟩
        · have hforeign : state.current≠some session := by
            rw [hown]
            exact fun hsame => hne (Option.some.inj hsame).symm
          obtain ⟨hworker,hqueue⟩ := hinv henabled.1 session hforeign
          refine ⟨hworker,fun notice hmem => hqueue notice ?_⟩
          rw [hnotices]
          exact List.mem_cons_of_mem _ hmem
    | drop => exact hguard.elim
    | stop => cases hrunning

/-- Under the same guard every queued notice is about the current session. -/
theorem current_of_notice {state : State}
    (h : (supervision.restrict OnLastNotice).Reachable state) (hrunning : state.running=true)
    {notice : Notice} (hmem : notice∈state.notices) : state.current=some notice.sender := by
  by_contra hforeign
  exact (settled_of_ne_current h hrunning hforeign).2 notice hmem rfl

/-- Guard: the supervisor gives its session up, or stops, only when the
session's worker has left its loop. -/
def AfterServing (state : State) : Action → Prop
  | .consume => ∀ session,state.current=some session → state.workers session≠.serving
  | .drop => ∀ session,state.current=some session → state.workers session≠.serving
  | .stop => ∀ session,state.current=some session → state.workers session≠.serving
  | _ => True

/-- Under that guard only the worker of the current session serves. -/
theorem current_of_serving {state : State}
    (h : (supervision.restrict AfterServing).Reachable state) {session : ℕ}
    (hserving : state.workers session=.serving) :
    state.running=true ∧ state.current=some session := by
  refine System.Reachable.invariant
    (I := fun state => ∀ session,state.workers session=.serving →
      state.running=true ∧ state.current=some session) ?_ ?_ h session hserving
  · intro start hstart session hserving
    rw [hstart] at hserving
    cases hserving
  · intro state action _ hinv henabled session hserving
    obtain ⟨henabled,hguard⟩ := henabled
    have hbefore : action=.openSession ∧ session=state.opened ∨
        state.workers session=.serving := by
      rcases workers_next henabled session with
        hsame|⟨hopen,hnew,_⟩|⟨_,_,hbefore,_⟩|⟨_,_,_,howes⟩
      · exact Or.inr (hsame.symm.trans hserving)
      · exact Or.inl ⟨hopen,hnew⟩
      · exact Or.inr hbefore
      · cases howes.symm.trans hserving
    rcases hbefore with ⟨rfl,rfl⟩|hbefore
    · exact ⟨henabled.1,rfl⟩
    · obtain ⟨hrunning,hcurrent⟩ := hinv session hbefore
      cases action with
      | openSession =>
        rw [henabled.2] at hcurrent
        cases hcurrent
      | notify moved =>
        obtain ⟨owed,howed⟩ := henabled
        simp only [supervision,System.restrict,next_notify howed]
        exact ⟨hrunning,hcurrent⟩
      | consume => exact absurd hbefore (hguard session hcurrent)
      | drop => exact absurd hbefore (hguard session hcurrent)
      | stop => exact absurd hbefore (hguard session hcurrent)
      | _ => exact ⟨hrunning,hcurrent⟩

end SteamHandler.Supervision
