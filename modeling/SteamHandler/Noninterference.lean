import SteamHandler.ManagerRuns
import SteamHandler.RequestChoices

/-!
# Clients do not interfere

As long as every identifier is added for one client only, the commands of
different clients do not meet: what is registered for a client, what a request
can say about it and which of its handlers are called depend on its own commands
alone. Two runs that handle the same commands of a client, whatever else they do
and in whatever order, are the same to it.
-/

namespace SteamHandler.Noninterference

open Messages Subscriptions SubscriptionRegistry CommandHistory Requests Dispatch
open ConnectionManager ManagerRuns StaleFilters RequestChoices TransitionSystem

variable {H : Type}

/-- Every identifier is added for one client only. -/
def OneOwner (history : List (ManagerCommand H)) : Prop :=
  ∀ first∈additions history,∀ second∈additions history,
    first.id=second.id → first.clientId=second.clientId

instance decidableOneOwner (history : List (ManagerCommand H)) : Decidable (OneOwner history) :=
  inferInstanceAs (Decidable (∀ first∈additions history,∀ second∈additions history,_))

/-- The identifier was added for the client. -/
def addedFor (history : List (ManagerCommand H)) (clientId : String) (subId : SubscriptionId) :
    Bool :=
  (additions history).any fun added => added.id=subId && added.clientId=clientId

/-- The command is one of the client's, or removes one of its identifiers. -/
def concerns (history : List (ManagerCommand H)) (clientId : String) : ManagerCommand H → Bool
  | .addSubscription subscription => subscription.clientId=clientId
  | .removeSubscription subId => addedFor history clientId subId
  | .removeClientSubscriptions other => other=clientId
  | .shutdown => false

/-- The commands of a history that concern a client. -/
def ownCommands (history : List (ManagerCommand H)) (clientId : String) :
    List (ManagerCommand H) :=
  history.filter (concerns history clientId)

variable {history : List (ManagerCommand H)} {clientId : String} {subscription : Subscription H}

theorem added_of_mem_additions (h : subscription∈additions history) :
    .addSubscription subscription∈history := by
  obtain ⟨command,hcommand,hadded⟩ := List.mem_filterMap.mp h
  cases command with
  | addSubscription added =>
    obtain rfl := Option.some.inj hadded
    exact hcommand
  | _ => cases hadded

/-- Identifiers with one owner keep it. -/
theorem ownersKept_of_oneOwner (h : OneOwner history) : OwnersKept history :=
  ownersKept_of_one_owner fun first second hfirst hsecond hsame =>
    h first (mem_additions hfirst) second (mem_additions hsecond) hsame

/-- A part of such a history is one. -/
theorem OneOwner.filter (h : OneOwner history) (chosen : ManagerCommand H → Bool) :
    OneOwner (history.filter chosen) := by
  have hpart : ∀ added∈additions (history.filter chosen),added∈additions history :=
    fun added hadded => mem_additions (List.mem_of_mem_filter (added_of_mem_additions hadded))
  exact fun first hfirst second hsecond => h first (hpart first hfirst) second (hpart second hsecond)

/-- What supersedes a subscription concerns its client. -/
theorem concerns_of_supersedes (howned : OneOwner history)
    (hadded : .addSubscription subscription∈history) {command : ManagerCommand H}
    (hcommand : command∈history) (h : Supersedes command subscription) :
    concerns history subscription.clientId command=true := by
  cases command with
  | addSubscription later =>
    exact decide_eq_true (howned later (mem_additions hcommand) subscription
      (mem_additions hadded) h)
  | removeSubscription subId =>
    refine List.any_eq_true.mpr ⟨subscription,mem_additions hadded,?_⟩
    have hsame : subscription.id=subId := h.symm
    rw [Bool.and_eq_true]
    exact ⟨decide_eq_true hsame,decide_eq_true rfl⟩
  | removeClientSubscriptions other => exact decide_eq_true h
  | shutdown => exact h.elim

/-- A subscription stands in a history exactly when it stands in its client's own
part of it. -/
theorem standing_ownCommands (howned : OneOwner history)
    (hclient : subscription.clientId=clientId) :
    Standing (ownCommands history clientId) subscription ↔ Standing history subscription := by
  have hconcerned : concerns history clientId (.addSubscription subscription)=true :=
    decide_eq_true hclient
  constructor
  · rintro ⟨before,after,hsplit,hlater⟩
    obtain ⟨first,rest,rfl,_,hrest⟩ := List.filter_eq_append_iff.mp hsplit
    obtain ⟨skipped,later,rfl,_,_,hafter⟩ := List.filter_eq_cons_iff.mp hrest
    refine ⟨first++skipped,later,(List.append_assoc _ _ _).symm,fun command hcommand hsupersedes => ?_⟩
    -- A command that supersedes it concerns its client, so the client's part has it too.
    have hadded : .addSubscription subscription∈first++(skipped++.addSubscription subscription::later) :=
      List.mem_append_right _ (List.mem_append_right _ List.mem_cons_self)
    have hmem : command∈first++(skipped++.addSubscription subscription::later) :=
      List.mem_append_right _ (List.mem_append_right _ (List.mem_cons_of_mem _ hcommand))
    have hconcerns := concerns_of_supersedes howned hadded hmem hsupersedes
    rw [hclient] at hconcerns
    refine hlater command ?_ hsupersedes
    rw [←hafter]
    exact List.mem_filter.mpr ⟨hcommand,hconcerns⟩
  · rintro ⟨before,after,hsplit,hlater⟩
    have hfiltered := congrArg (List.filter (concerns history clientId)) hsplit
    rw [List.filter_append,List.filter_cons_of_pos hconcerned] at hfiltered
    exact ⟨_,_,hfiltered,fun command hcommand => hlater command (List.mem_of_mem_filter hcommand)⟩

/-- The registry of a client's own commands is its part of the whole one. -/
theorem contains_ownCommands (howned : OneOwner history) :
    (registryAfter (ownCommands history clientId)).subscriptions.Contains subscription ↔
      (registryAfter history).subscriptions.Contains subscription ∧
        subscription.clientId=clientId := by
  have hkept := ownersKept_of_oneOwner howned
  have hown := ownersKept_of_oneOwner (howned.filter (concerns history clientId))
  change (registryAfter (ownCommands history clientId)).subscriptions.lookup _=_ ↔
    (registryAfter history).subscriptions.lookup _=_ ∧ _
  constructor
  · intro hregistered
    have hadded := added_of_lookup hregistered
    have hclient : subscription.clientId=clientId :=
      of_decide_eq_true (List.mem_filter.mp hadded).2
    obtain ⟨_,hstanding⟩ := (lookup_registryAfter hown _ _).mp hregistered
    have hthere := (standing_ownCommands howned hclient).mp hstanding
    exact ⟨(lookup_registryAfter hkept _ _).mpr ⟨rfl,hthere⟩,hclient⟩
  · intro ⟨hregistered,hclient⟩
    obtain ⟨_,hstanding⟩ := (lookup_registryAfter hkept _ _).mp hregistered
    have hthere := (standing_ownCommands howned hclient).mpr hstanding
    exact (lookup_registryAfter hown _ _).mpr ⟨rfl,hthere⟩

/-- Two registries are the same to a client. -/
structure SameFor (clientId : String) (first second : Registry H) : Prop where
  /-- The same subscriptions are registered for it. -/
  subscriptions : ∀ subscription,subscription.clientId=clientId →
    (first.subscriptions.Contains subscription ↔ second.subscriptions.Contains subscription)
  /-- The reverse index lists the same identifiers for it. -/
  index : first.idsOf clientId=second.idsOf clientId
  /-- Requests can hold the same under its name. -/
  entries : ∀ kind entry,
    (∃ request,Builds first.subscriptions request ∧ requestView request (kind,clientId)=entry) ↔
    ∃ request,Builds second.subscriptions request ∧ requestView request (kind,clientId)=entry
  /-- Dispatches call the same of its handlers. -/
  calls : ∀ bs58 outcome event order other,first.subscriptions.IterationOrder order →
    second.subscriptions.IterationOrder other →
    ∀ subscription,subscription.clientId=clientId →
      ((∃ call∈dispatchEvent bs58 outcome event order,call.subscription=subscription) ↔
        ∃ call∈dispatchEvent bs58 outcome event other,call.subscription=subscription)

section Views

variable {subs : SubscriptionMap H} {kind : Kind}

/-- The filters that a request can have under a client's name are those of the
subscriptions registered for it. -/
theorem exists_entry_iff (filter : SubscriptionType) :
    (∃ request,Builds subs request ∧ requestView request (kind,clientId)=some filter) ↔
      filter.kind=kind ∧ ∃ subscription,subs.Contains subscription ∧
        subscription.clientId=clientId ∧ subscription.subscriptionType=filter := by
  constructor
  · intro ⟨request,hbuilds,hview⟩
    exact (filtersExact_of_builds hbuilds).values kind clientId filter hview
  · rintro ⟨rfl,subscription,hregistered,rfl,rfl⟩
    exact exists_builds_of_registered hregistered

/-- It has none there exactly when none is registered. -/
theorem exists_noEntry_iff :
    (∃ request,Builds subs request ∧ requestView request (kind,clientId)=none) ↔
      ∀ subscription,subs.Contains subscription → subscription.subscriptionType.kind=kind →
        subscription.clientId≠clientId := by
  constructor
  · intro ⟨request,hbuilds,hview⟩ subscription hregistered hkind hclient
    have hsome := ((filtersExact_of_builds hbuilds).keys kind clientId).mpr
      ⟨subscription,hregistered,hkind,hclient⟩
    rw [hview] at hsome
    cases hsome
  · intro hnone
    obtain ⟨order,horder⟩ := subs.exists_iterationOrder
    have hbuilds : Builds subs (buildSubscribeRequest order) := ⟨order,horder,rfl⟩
    refine ⟨buildSubscribeRequest order,hbuilds,?_⟩
    by_contra hview
    obtain ⟨subscription,hregistered,hkind,hclient⟩ :=
      ((filtersExact_of_builds hbuilds).keys kind clientId).mp (Option.isSome_iff_ne_none.mpr hview)
    exact hnone subscription hregistered hkind hclient

end Views

/-- Registries with the same subscriptions of a client, both mirrored by their
index, are the same to it. -/
theorem SameFor.of_contains {first second : Registry H} (hfirst : Mirrors first)
    (hsecond : Mirrors second)
    (h : ∀ subscription,subscription.clientId=clientId →
      (first.subscriptions.Contains subscription ↔ second.subscriptions.Contains subscription)) :
    SameFor clientId first second := by
  constructor
  · exact h
  · have hlisted : ∀ (registry other : Registry H),Mirrors registry → Mirrors other →
        (∀ subscription,subscription.clientId=clientId →
          registry.subscriptions.Contains subscription →
            other.subscriptions.Contains subscription) →
        ∀ subId,subId∈registry.idsOf clientId → subId∈other.idsOf clientId := by
      intro registry other hregistry hother hsub subId hmem
      obtain ⟨subscription,hlookup,hclient⟩ := (hregistry.listed clientId subId).mp hmem
      obtain rfl := SubscriptionMap.id_of_lookup hlookup
      exact (hother.listed clientId _).mpr ⟨subscription,hsub subscription hclient hlookup,hclient⟩
    refine Finset.ext fun subId => ⟨?_,?_⟩
    · exact hlisted first second hfirst hsecond (fun other hclient => (h other hclient).mp) subId
    · exact hlisted second first hsecond hfirst (fun other hclient => (h other hclient).mpr) subId
  · intro kind entry
    cases entry with
    | none =>
      rw [exists_noEntry_iff,exists_noEntry_iff]
      refine forall_congr' fun subscription => ?_
      constructor
      · exact fun hnone hregistered hkind hclient =>
          hnone ((h subscription hclient).mpr hregistered) hkind hclient
      · exact fun hnone hregistered hkind hclient =>
          hnone ((h subscription hclient).mp hregistered) hkind hclient
    | some filter =>
      rw [exists_entry_iff,exists_entry_iff]
      refine and_congr_right fun _ => exists_congr fun subscription => ?_
      constructor
      · exact fun ⟨hregistered,hclient,hfilter⟩ =>
          ⟨(h subscription hclient).mp hregistered,hclient,hfilter⟩
      · exact fun ⟨hregistered,hclient,hfilter⟩ =>
          ⟨(h subscription hclient).mpr hregistered,hclient,hfilter⟩
  · intro bs58 outcome event order other horder hother subscription hclient
    rw [exists_call_iff,exists_call_iff,horder.mem_iff,hother.mem_iff,h subscription hclient]

/-- Two runs in which the manager handles the same commands of a client are the
same to this client at their ends, whatever other clients, the server and the
streams do in them, as long as no identifier is added for two clients. -/
theorem clients_do_not_interfere {start other : State H} {actions moves : List (Action H)}
    (hinit : (connectionManager H).initial start) (hother : (connectionManager H).initial other)
    (hrun : (connectionManager H).Legal start actions)
    (hmoves : (connectionManager H).Legal other moves)
    (howned : OneOwner (handledCommands start actions))
    (halso : OneOwner (handledCommands other moves)) {clientId : String}
    (hsame : ownCommands (handledCommands start actions) clientId=
      ownCommands (handledCommands other moves) clientId) :
    SameFor clientId ((connectionManager H).final start actions).registry
      ((connectionManager H).final other moves).registry := by
  rw [(registry_of_run hinit hrun).2,(registry_of_run hother hmoves).2]
  refine SameFor.of_contains (mirrors_registryAfter (ownersKept_of_oneOwner howned))
    (mirrors_registryAfter (ownersKept_of_oneOwner halso)) fun subscription hclient => ?_
  have hfirst := @contains_ownCommands H _ clientId subscription howned
  have hsecond := @contains_ownCommands H _ clientId subscription halso
  rw [hsame] at hfirst
  rw [and_iff_left hclient] at hfirst hsecond
  exact hfirst.symm.trans hsecond

/-- One client adds a subscription. -/
def quietRun : List (Action Unit) :=
  [.enterLoop,.connectSucceeded [],.recordConnection,
    .sendCommand (.addSubscription (.onSlots 1 "a" ⟨[]⟩ ())),.receiveCommand]

/-- Another one comes before it, and leaves after it. -/
def busyRun : List (Action Unit) :=
  [.sendCommand (.addSubscription (.onSlots 7 "b" ⟨[]⟩ ())),.enterLoop,.connectSucceeded [],
    .recordConnection,.receiveCommand,.sendUpdate [.onSlots 7 "b" ⟨[]⟩ ()] true,.enterLoop,
    .sendCommand (.addSubscription (.onSlots 1 "a" ⟨[]⟩ ())),
    .sendCommand (.removeClientSubscriptions "b"),.receiveCommand,
    .sendUpdate [.onSlots 1 "a" ⟨[]⟩ (),.onSlots 7 "b" ⟨[]⟩ ()] false,.enterLoop,
    .connectSucceeded [.onSlots 7 "b" ⟨[]⟩ (),.onSlots 1 "a" ⟨[]⟩ ()],.recordConnection,
    .receiveCommand]

theorem clients_do_not_interfere_busyRun :
    SameFor "a" ((connectionManager Unit).final (.start 0) quietRun).registry
      ((connectionManager Unit).final (.start 5) busyRun).registry :=
  clients_do_not_interfere (initial_iff.mpr ⟨0,rfl⟩) (initial_iff.mpr ⟨5,rfl⟩) (by decide) (by decide)
    (by decide) (by decide) (by decide)

end SteamHandler.Noninterference
