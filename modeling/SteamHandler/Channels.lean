import SteamHandler.TransitionSystem

/-!
# Channels that close when nobody can send any more

A channel is a queue of messages and the set of those who hold a sender for
it. Senders are made from senders: a holder clones its own for somebody else.
A receiver that finds the queue empty waits as long as there is a holder, and
is told that the channel is closed once there is none. Closing is therefore
final, and a receiver that holds a sender of its own channel, or works for
somebody who holds one, is never told.
-/

namespace SteamHandler.Channels

open TransitionSystem

/-- Messages in flight, oldest first, and the holders of a sender. -/
@[ext] structure Channel (ι α : Type*) where
  /-- What is sent and not taken yet. -/
  queue : List α
  /-- Who can still send. -/
  holders : Finset ι

variable {ι α : Type*}

/-- The receiver is told that there is nothing left and never will be. -/
def Channel.Closed (channel : Channel ι α) : Prop := channel.queue=[] ∧ channel.holders=∅

/-- A channel with a holder is not closed. -/
theorem Channel.not_closed {channel : Channel ι α} {holder : ι} (h : holder∈channel.holders) :
    ¬channel.Closed := by
  intro hclosed
  rw [hclosed.2] at h
  exact absurd h (Finset.notMem_empty holder)

/-- What happens to a channel. -/
inductive Operation (ι α : Type*) where
  /-- A holder makes a sender for another. -/
  | clone (holder heir : ι)
  /-- A holder drops its sender. -/
  | drop (holder : ι)
  /-- A holder sends a message. -/
  | send (holder : ι) (message : α)
  /-- The oldest message leaves the queue. -/
  | take

/-- When an operation can happen. -/
def Enabled (channel : Channel ι α) : Operation ι α → Prop
  | .clone holder heir => holder∈channel.holders ∧ heir∉channel.holders
  | .drop holder => holder∈channel.holders
  | .send holder _ => holder∈channel.holders
  | .take => channel.queue≠[]

/-- Nothing happens to a closed channel. -/
theorem Channel.Closed.not_enabled {channel : Channel ι α} (h : channel.Closed)
    (operation : Operation ι α) : ¬Enabled channel operation := by
  intro henabled
  cases operation with
  | clone holder heir => exact Channel.not_closed henabled.1 h
  | drop holder => exact Channel.not_closed henabled h
  | send holder message => exact Channel.not_closed henabled h
  | take => exact henabled h.1

variable [DecidableEq ι]

/-- What an operation does. -/
def next (channel : Channel ι α) : Operation ι α → Channel ι α
  | .clone _ heir => { channel with holders := insert heir channel.holders }
  | .drop holder => { channel with holders := channel.holders.erase holder }
  | .send _ message => { channel with queue := channel.queue++[message] }
  | .take => { channel with queue := channel.queue.tail }

/-- Channels as a transition system. -/
def channels (ι α : Type*) [DecidableEq ι] : System (Channel ι α) (Operation ι α) where
  initial := fun channel => channel.queue=[]
  enabled := Enabled
  next := next

/-- The runs of a closed channel are empty. -/
theorem Channel.Closed.run_eq_nil {channel : Channel ι α} (h : channel.Closed)
    {operations : List (Operation ι α)} (hrun : (channels ι α).Legal channel operations) :
    operations=[] := by
  cases operations with
  | nil => rfl
  | cons operation later => exact absurd hrun.1 (h.not_enabled operation)

/-- A system whose steps are runs of a channel does nothing to it once it is
closed. -/
theorem Channel.Closed.of_run {σ β : Type*} {sys : System σ β} {view : σ → Channel ι α}
    {trace : σ × β → List (Operation ι α)}
    (hstep : ∀ state action,sys.Reachable state → sys.enabled state action →
      (channels ι α).Legal (view state) (trace (state,action)) ∧
      (channels ι α).final (view state) (trace (state,action))=view (sys.next state action))
    {start : σ} (hreach : sys.Reachable start) {actions : List β} (hrun : sys.Legal start actions)
    (hclosed : (view start).Closed) :
    (∀ step∈sys.steps start actions,trace step=[]) ∧ (view (sys.final start actions)).Closed := by
  obtain ⟨hlegal,hfinal⟩ := legal_flatMap_steps view trace hstep hreach hrun
  have hnothing := hclosed.run_eq_nil hlegal
  rw [hnothing,final_nil] at hfinal
  rw [←hfinal]
  exact ⟨List.flatMap_eq_nil_iff.mp hnothing,hclosed⟩

end SteamHandler.Channels
