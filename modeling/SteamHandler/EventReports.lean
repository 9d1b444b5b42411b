import SteamHandler.StreamDispatch

/-!
# What a processor reports to the manager

A processor reports pings as they come, an error as an error and then as a
closed connection, and the end of its stream as a closed connection. What it
sends is therefore a function of its stream. The stream-event channel passes
it on in order, without loss or repetition, as long as the manager runs.
-/

namespace SteamHandler.EventReports

open Messages ConnectionManager ManagerRuns StreamDispatch TransitionSystem

variable {H : Type}

/-- The report that a stream item calls for, if it leaves the processor in its
loop. -/
def reportOfItem (item : StreamItem) : List StreamEvent :=
  if isPing item then [.pingReceived] else []

/-- What a processor reports of its stream: the items it took, and whether the
stream came to its end after them. -/
def reports : List StreamItem → Bool → List StreamEvent
  | [],ended => if ended then [.connectionClosed] else []
  | .error status::_,_ => [.connectionError ("Stream error: "++status),.connectionClosed]
  | .ok msg::rest,ended => reportOfItem (.ok msg)++reports rest ended

/-- What a processor still has to send. -/
def outstanding : ProcessorPhase → List StreamEvent
  | .sending .pingReceived => [.pingReceived]
  | .sending (.connectionError error) => [.connectionError error,.connectionClosed]
  | .sending .connectionClosed => [.connectionClosed]
  | _ => []

/-- The action is the end of the processor's stream. -/
def endsStream (generation : Generation) : Action H → Bool
  | .endOfStream other => decide (other=generation)
  | _ => false

/-- The stream of the processor ended in the run. -/
def streamEnded (generation : Generation) (actions : List (Action H)) : Bool :=
  actions.any (endsStream generation)

theorem streamEnded_snoc (generation : Generation) (history : List (Action H))
    (action : Action H) :
    streamEnded generation (history++[action])=
      (streamEnded generation history || endsStream generation action) := by
  rw [streamEnded,List.any_append,List.any_cons,List.any_nil,Bool.or_false]
  rfl

/-- Items without an error are reported one by one. -/
theorem reports_append {items : List StreamItem} (hok : ∀ item∈items,item.isOk=true)
    (later : List StreamItem) (ended : Bool) :
    reports (items++later) ended=items.flatMap reportOfItem++reports later ended := by
  induction items with
  | nil => rfl
  | cons item items ih =>
    obtain ⟨hitem,hitems⟩ := List.forall_mem_cons.mp hok
    cases item with
    | error status => cases hitem
    | ok msg =>
      rw [List.cons_append,reports,ih hitems,List.flatMap_cons,List.append_assoc]

/-- An item taken is an item to be reported. -/
theorem outstanding_onItem (item : StreamItem) : outstanding (.onItem item)=reports [item] false := by
  cases item with
  | error status => rfl
  | ok msg =>
    obtain ⟨update⟩ := msg
    cases update with
    | none => rfl
    | some update =>
      cases update with
      | transaction txInfo => cases txInfo <;> rfl
      | account accountInfo => cases accountInfo <;> rfl
      | _ => rfl

/-- A send takes the first of what is outstanding. -/
theorem outstanding_sending (event : StreamEvent) :
    outstanding (.sending event)=event::outstanding (.afterSend event) := by
  cases event <;> rfl

/-- What a processor has sent and has still to send is what it reports of its
stream. -/
structure Reported (generation : Generation) (start : State H) (history : List (Action H))
    (phase : ProcessorPhase) : Prop where
  /-- Sent or outstanding is what is reported of the items taken. -/
  sent : eventsSent generation start history++outstanding phase=
    reports (itemsTaken generation history) (streamEnded generation history)
  /-- A processor that may take items has had no error and no end. -/
  unbroken : MayTake phase → streamEnded generation history=false ∧
    ∀ item∈itemsTaken generation history,item.isOk=true

variable {generation : Generation} {start : State H} {history : List (Action H)}
variable {action : Action H} {phase : ProcessorPhase}

/-- A step that reads nothing off the stream sends what it no longer owes. -/
theorem Reported.move (h : Reported generation start history phase) {after : ProcessorPhase}
    (htaken : takenBy generation action=none) (hended : endsStream generation action=false)
    (hsent : (sendOf generation ((connectionManager H).final start history,action)).toList++
      outstanding after=outstanding phase)
    (hmayTake : MayTake after → MayTake phase) :
    Reported generation start (history++[action]) after := by
  have hitems : itemsTaken generation (history++[action])=itemsTaken generation history := by
    rw [itemsTaken_snoc,htaken,Option.toList_none,List.append_nil]
  have hend : streamEnded generation (history++[action])=streamEnded generation history := by
    rw [streamEnded_snoc,hended,Bool.or_false]
  constructor
  · rw [hitems,hend,eventsSent_snoc,List.append_assoc,hsent]
    exact h.sent
  · rw [hitems,hend]
    exact fun hopen => h.unbroken (hmayTake hopen)

/-- A processor that reads has reported all it took. -/
theorem Reported.reading (h : Reported generation start history .reading) :
    eventsSent generation start history=(itemsTaken generation history).flatMap reportOfItem := by
  obtain ⟨hended,hok⟩ := h.unbroken (Or.inr trivial)
  have hsent := h.sent
  have hreports := reports_append hok [] false
  rw [List.append_nil] at hreports
  rw [hended,hreports] at hsent
  have hnothing : reports [] false=[] := rfl
  rw [hnothing,List.append_nil] at hsent
  have houtstanding : outstanding .reading=[] := rfl
  rw [houtstanding,List.append_nil] at hsent
  exact hsent

/-- The processor takes an item. -/
theorem Reported.take (h : Reported generation start history .reading) (item : StreamItem) :
    Reported generation start (history++[.receiveItem generation item]) (.onItem item) := by
  obtain ⟨hended,hok⟩ := h.unbroken (Or.inr trivial)
  have hitems : itemsTaken generation (history++[.receiveItem generation item])=
      itemsTaken generation history++[item] := by
    rw [itemsTaken_snoc,takenBy,if_pos rfl,Option.toList_some]
  have hend : streamEnded generation (history++[.receiveItem generation item])=false := by
    rw [streamEnded_snoc,hended]
    rfl
  have hsilent : eventsSent generation start (history++[.receiveItem generation item])=
      eventsSent generation start history := by
    rw [eventsSent_snoc]
    exact List.append_nil _
  constructor
  · rw [hitems,hend,hsilent,reports_append hok,h.reading,outstanding_onItem]
  · intro hopen
    refine ⟨hend,fun earlier hearlier => ?_⟩
    rw [hitems] at hearlier
    rcases List.mem_append.mp hearlier with hpast|hlast
    · exact hok earlier hpast
    · rw [List.mem_singleton.mp hlast]
      exact isOk_of_mayTake hopen

/-- The processor's stream ends. -/
theorem Reported.finish (h : Reported generation start history .reading) :
    Reported generation start (history++[.endOfStream generation])
      (.sending .connectionClosed) := by
  obtain ⟨_,hok⟩ := h.unbroken (Or.inr trivial)
  have hitems : itemsTaken generation (history++[.endOfStream generation])=
      itemsTaken generation history := by
    rw [itemsTaken_snoc]
    exact List.append_nil _
  have hend : streamEnded generation (history++[.endOfStream generation])=true := by
    rw [streamEnded_snoc,endsStream,decide_eq_true rfl,Bool.or_true]
  have hsilent : eventsSent generation start (history++[.endOfStream generation])=
      eventsSent generation start history := by
    rw [eventsSent_snoc]
    exact List.append_nil _
  have hreports := reports_append hok [] true
  rw [List.append_nil] at hreports
  constructor
  · rw [hitems,hend,hsilent,hreports,h.reading]
    rfl
  · intro hopen
    rcases hopen with hunspawned|hloop
    · cases hunspawned
    · cases hloop

section Steps

variable {state : State H} (hstate : (connectionManager H).final start history=state)
include hstate

/-- A step that concerns other processors, or none. -/
theorem Reported.unmoved (h : Reported generation start history (state.processors generation))
    (henabled : Enabled state action)
    (hother : ∀ phase,movedBy state action≠some (generation,phase))
    (htaken : takenBy generation action=none) (hended : endsStream generation action=false)
    (hsend : sendOf generation (state,action)=none) :
    Reported generation start (history++[action])
      ((next state action).processors generation) := by
  rw [processor_unmoved henabled hother]
  refine h.move htaken hended ?_ id
  rw [hstate,hsend]
  exact List.nil_append _

/-- The processor sends. -/
theorem Reported.send (h : Reported generation start history (state.processors generation))
    (henabled : Enabled state (.sendEvent generation)) :
    Reported generation start (history++[.sendEvent generation])
      ((next state (.sendEvent generation)).processors generation) := by
  obtain ⟨event,hphase,_⟩ := next_sendEvent henabled
  have hmovedBy : movedBy state (.sendEvent generation)=
      some (generation,.afterSend event) := by
    simp only [movedBy,hphase]
  have hsent : sendOf generation (state,.sendEvent generation)=some event := by
    simp only [sendOf,hphase,if_true]
  rw [hphase] at h
  rw [processor_moved henabled hmovedBy]
  refine h.move rfl rfl ?_ fun hopen => ?_
  · rw [hstate,hsent,outstanding_sending]
    rfl
  · cases event with
    | pingReceived => exact Or.inr rfl
    | connectionError error =>
      rcases hopen with hunspawned|hloop
      · cases hunspawned
      · cases hloop
    | connectionClosed =>
      rcases hopen with hunspawned|hloop
      · cases hunspawned
      · cases hloop

/-- Every step keeps the reports in step with the stream. -/
theorem Reported.step (hreach : (connectionManager H).Reachable state)
    (h : Reported generation start history (state.processors generation))
    (henabled : Enabled state action) :
    Reported generation start (history++[action])
      ((next state action).processors generation) := by
  have hother : ∀ {other : Generation} {phase : ProcessorPhase},other≠generation →
      ∀ after,some (other,phase)≠some (generation,after) :=
    fun hne after hsame => hne (congrArg Prod.fst (Option.some.inj hsame))
  cases action with
  | receiveItem other item =>
    rcases eq_or_ne other generation with rfl|hne
    · have hmovedBy : movedBy state (.receiveItem other item)=some (other,.onItem item) := rfl
      have hreading : state.processors other=.reading := henabled
      rw [hreading] at h
      rw [processor_moved henabled hmovedBy]
      exact h.take item
    · refine h.unmoved hstate henabled (hother hne) ?_ rfl rfl
      rw [takenBy,if_neg hne]
  | endOfStream other =>
    rcases eq_or_ne other generation with rfl|hne
    · have hmovedBy : movedBy state (.endOfStream other)=
          some (other,.sending .connectionClosed) := rfl
      have hreading : state.processors other=.reading := henabled
      rw [hreading] at h
      rw [processor_moved henabled hmovedBy]
      exact h.finish
    · refine h.unmoved hstate henabled (hother hne) rfl ?_ rfl
      exact decide_eq_false hne
  | dispatch other order outcome =>
    rcases eq_or_ne other generation with rfl|hne
    · have hmovedBy : movedBy state (.dispatch other order outcome)=some (other,.reading) := rfl
      obtain ⟨event,hphase,_⟩ := dispatching_of_dispatch henabled
      rw [hphase] at h
      rw [processor_moved henabled hmovedBy]
      exact h.move rfl rfl rfl fun _ => Or.inr trivial
    · exact h.unmoved hstate henabled (hother hne) rfl rfl rfl
  | sendEvent other =>
    rcases eq_or_ne other generation with rfl|hne
    · exact h.send hstate henabled
    · refine h.unmoved hstate henabled ?_ rfl rfl ?_
      · obtain ⟨event,hphase,_⟩ := next_sendEvent henabled
        simp only [movedBy,hphase]
        exact hother hne
      · exact if_neg hne
  | connectSucceeded order =>
    rcases eq_or_ne state.nextGeneration generation with hfresh|hne
    · have hmovedBy : movedBy state (.connectSucceeded order)=some (generation,.reading) := by
        rw [←hfresh]
        rfl
      have hunspawned : state.processors generation=.unspawned :=
        Sessions.unspawned_of_nextGeneration_le hreach (Nat.le_of_eq hfresh)
      rw [hunspawned] at h
      rw [processor_moved henabled hmovedBy]
      exact h.move rfl rfl rfl fun _ => Or.inl rfl
    · exact h.unmoved hstate henabled (hother hne) rfl rfl rfl
  | _ => exact h.unmoved hstate henabled (fun phase => (Option.some_ne_none _).symm) rfl rfl rfl

end Steps

/-- In every run, every processor has reported its stream up to what it still
has to send. -/
theorem reported_of_run (generation : Generation) {actions : List (Action H)}
    (hinit : (connectionManager H).initial start)
    (hrun : (connectionManager H).Legal start actions) :
    Reported generation start actions
      (((connectionManager H).final start actions).processors generation) := by
  refine System.Legal.run_induction (P := fun actions => Reported generation start actions
    (((connectionManager H).final start actions).processors generation)) ?_ ?_ hrun
  · obtain ⟨clock,rfl⟩ := initial_iff.mp hinit
    exact ⟨rfl,fun _ => ⟨rfl,fun item hitem => absurd hitem List.not_mem_nil⟩⟩
  · intro history action hpast h henabled
    rw [final_append]
    exact h.step rfl ((System.Reachable.start hinit).run hpast) henabled

section Queue

/-- The event a step gets into the stream-event channel. -/
def queuedBy (step : State H × Action H) : Option SentEvent :=
  match step.2 with
  | .sendEvent generation =>
    if step.1.manager.phase=.exited then none
    else (sendOf generation step).map fun event => ⟨event,generation⟩
  | _ => none

/-- The event a step takes off it. -/
def takenOff (step : State H × Action H) : Option SentEvent :=
  match step.2 with
  | .receiveEvent _ => step.1.events.head?
  | _ => none

/-- The events the manager has taken in a run. -/
def eventsTaken (start : State H) (actions : List (Action H)) : List SentEvent :=
  ((connectionManager H).steps start actions).filterMap takenOff

/-- The events that got into the channel in a run. -/
def eventsQueued (start : State H) (actions : List (Action H)) : List SentEvent :=
  ((connectionManager H).steps start actions).filterMap queuedBy

/-- The events of one sender. -/
def ofSender (generation : Generation) (events : List SentEvent) : List StreamEvent :=
  events.filterMap fun sent => if sent.sender=generation then some sent.event else none

/-- What a step does to the stream-event channel. -/
theorem events_next {state : State H} (henabled : Enabled state action) :
    state.events++(queuedBy (state,action)).toList=
      (takenOff (state,action)).toList++(next state action).events := by
  cases action with
  | sendEvent generation =>
    obtain ⟨event,hphase,hnext⟩ := next_sendEvent henabled
    have hsent : sendOf generation (state,.sendEvent generation)=some event := by
      simp only [sendOf,hphase,if_true]
    rw [hnext]
    simp only [queuedBy,takenOff,hsent,Option.map_some]
    split
    · exact List.append_nil _
    · rfl
  | receiveEvent accepted =>
    obtain ⟨_,_,hevents,hnext⟩ := next_receiveEvent henabled
    rw [hnext]
    simp only [queuedBy,takenOff,hevents,List.head?_cons,Option.toList_some,Option.toList_none]
    exact List.append_nil _
  | connectFailed =>
    rw [next_connectFailed]
    exact List.append_nil _
  | recordConnection =>
    obtain ⟨_,_,hnext⟩ := next_recordConnection henabled
    rw [hnext]
    exact List.append_nil _
  | receiveCommand =>
    obtain ⟨_,_,_,hnext⟩ := next_receiveCommand henabled
    rw [hnext]
    exact List.append_nil _
  | _ => exact List.append_nil _

/-- The manager takes what was queued, in that order, up to what is queued now. -/
theorem eventsQueued_eq {actions : List (Action H)} (hinit : (connectionManager H).initial start)
    (hrun : (connectionManager H).Legal start actions) :
    eventsQueued start actions=
      eventsTaken start actions++((connectionManager H).final start actions).events := by
  obtain ⟨clock,rfl⟩ := initial_iff.mp hinit
  exact System.Legal.fifo State.events (fun _ _ henabled => events_next henabled) hrun

theorem ofSender_append (generation : Generation) (first second : List SentEvent) :
    ofSender generation (first++second)=ofSender generation first++ofSender generation second :=
  List.filterMap_append

/-- While the task runs, what a processor sends gets into the channel. -/
theorem ofSender_queuedBy {state : State H} (hrunning : state.manager.phase≠.exited)
    (action : Action H) :
    ofSender generation (queuedBy (state,action)).toList=
      (sendOf generation (state,action)).toList := by
  cases action with
  | sendEvent other =>
    simp only [queuedBy,if_neg hrunning]
    rcases eq_or_ne other generation with rfl|hne
    · cases sendOf other (state,.sendEvent other) with
      | none => rfl
      | some event =>
        simp only [Option.map_some,Option.toList_some,ofSender,List.filterMap_cons,if_true,
          List.filterMap_nil]
    · have hsilent : sendOf generation (state,.sendEvent other)=none := if_neg hne
      rw [hsilent]
      cases sendOf other (state,.sendEvent other) with
      | none => rfl
      | some event =>
        simp only [Option.map_some,Option.toList_some,ofSender,List.filterMap_cons,if_neg hne,
          List.filterMap_nil,Option.toList_none]
  | _ => rfl

/-- Once the task has ended, nothing more gets into the channel. -/
theorem queuedBy_exited {state : State H} (hexited : state.manager.phase=.exited)
    (action : Action H) : queuedBy (state,action)=none := by
  cases action with
  | sendEvent other => exact if_pos hexited
  | _ => rfl

/-- What is queued of a processor is what it sent, up to the end of the task. -/
theorem ofSender_queued (generation : Generation) {actions : List (Action H)}
    (hrun : (connectionManager H).Legal start actions) :
    ofSender generation (eventsQueued start actions) <+: eventsSent generation start actions ∧
      (((connectionManager H).final start actions).manager.phase≠.exited →
        ofSender generation (eventsQueued start actions)=eventsSent generation start actions) := by
  refine System.Legal.run_induction (P := fun actions =>
    ofSender generation (eventsQueued start actions) <+: eventsSent generation start actions ∧
      (((connectionManager H).final start actions).manager.phase≠.exited →
        ofSender generation (eventsQueued start actions)=eventsSent generation start actions))
    ⟨List.nil_prefix,fun _ => rfl⟩ ?_ hrun
  intro history action _ h henabled
  have hqueued : eventsQueued start (history++[action])=eventsQueued start history++
      (queuedBy ((connectionManager H).final start history,action)).toList := by
    rw [eventsQueued,steps_snoc,List.filterMap_append,List.filterMap_cons,List.filterMap_nil]
    cases queuedBy ((connectionManager H).final start history,action) <;> rfl
  rw [hqueued,ofSender_append,eventsSent_snoc,final_append]
  by_cases hexited : ((connectionManager H).final start history).manager.phase=.exited
  · have hafter : (next ((connectionManager H).final start history) action).manager.phase=.exited := by
      rw [exited_next henabled hexited]
      exact hexited
    rw [queuedBy_exited hexited]
    have hnothing : ofSender generation (none : Option SentEvent).toList=[] := rfl
    rw [hnothing,List.append_nil]
    exact ⟨h.1.trans (List.prefix_append _ _),fun hrunning => absurd hafter hrunning⟩
  · rw [ofSender_queuedBy hexited,h.2 hexited]
    exact ⟨List.prefix_rfl,fun _ => rfl⟩

end Queue

/-- What the manager makes of the streams. -/
structure EventsExact (start : State H) (actions : List (Action H)) : Prop where
  /-- What the manager has taken of a processor begins what that one reports of its
  stream. -/
  inOrder : ∀ generation,ofSender generation (eventsTaken start actions) <+:
    reports (itemsTaken generation actions) (streamEnded generation actions)
  /-- While the task runs, the rest is in the channel or about to be sent. -/
  complete : ((connectionManager H).final start actions).manager.phase≠.exited → ∀ generation,
    ofSender generation (eventsTaken start actions)++
      ofSender generation ((connectionManager H).final start actions).events++
      outstanding (((connectionManager H).final start actions).processors generation)=
        reports (itemsTaken generation actions) (streamEnded generation actions)

/-- In every run, the manager takes from each processor what that processor
reports of its stream, in the order of the stream: a ping for every ping, and an
error or the end of the stream once, as what closes the connection. Nothing is
lost or repeated on the way while the task runs. -/
theorem manager_sees_the_streams {actions : List (Action H)}
    (hinit : (connectionManager H).initial start)
    (hrun : (connectionManager H).Legal start actions) : EventsExact start actions := by
  have htakenQueued : ∀ generation,ofSender generation (eventsQueued start actions)=
      ofSender generation (eventsTaken start actions)++
        ofSender generation ((connectionManager H).final start actions).events := by
    intro generation
    rw [eventsQueued_eq hinit hrun,ofSender_append]
  constructor
  · intro generation
    have hsent := (reported_of_run generation hinit hrun).sent
    have hqueued := (ofSender_queued generation hrun).1
    rw [htakenQueued] at hqueued
    rw [←hsent]
    exact ((List.prefix_append _ _).trans hqueued).trans (List.prefix_append _ _)
  · intro hrunning generation
    rw [←htakenQueued,(ofSender_queued generation hrun).2 hrunning]
    exact (reported_of_run generation hinit hrun).sent

/-- A stream with a ping, an update of no kind that is dispatched and an error. -/
def failingStream : List (Action Unit) :=
  [.enterLoop,.connectSucceeded [],.recordConnection,
    .receiveItem 0 (.ok ⟨some .ping⟩),.sendEvent 0,.receiveItem 0 (.ok ⟨none⟩),.receiveEvent true,
    .receiveItem 0 (.error "reset"),.enterLoop,.sendEvent 0]

theorem manager_sees_the_streams_failingStream :
    EventsExact (.start 0) failingStream ∧
      eventsTaken (.start 0) failingStream=[⟨.pingReceived,0⟩] ∧
      outstanding (((connectionManager Unit).final (.start 0) failingStream).processors 0)=
        [.connectionClosed] :=
  ⟨manager_sees_the_streams (initial_iff.mpr ⟨0,rfl⟩) (by decide),by decide,by decide⟩

end SteamHandler.EventReports
