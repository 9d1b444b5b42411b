import SteamHandler.SubscriptionRegistry

/-!
# The registry as an image of the command history

What a history of commands says about a subscription is independent of how the
two maps are updated: its last addition stands until an addition of the same
identifier, the removal of the identifier or the removal of its client. The
maps follow the history as long as no addition moves a registered identifier
to another client, which identifiers drawn from the counter never do.
-/

namespace SteamHandler.CommandHistory

open Subscriptions KeyedStore SubscriptionRegistry

variable {H : Type}

/-- A later command that replaces or removes the subscription. -/
def Supersedes : ManagerCommand H → Subscription H → Prop
  | .addSubscription later,subscription => later.id=subscription.id
  | .removeSubscription subId,subscription => subId=subscription.id
  | .removeClientSubscriptions clientId,subscription => clientId=subscription.clientId
  | .shutdown,_ => False

/-- The subscription was added and no later command superseded it. -/
def Standing (history : List (ManagerCommand H)) (subscription : Subscription H) : Prop :=
  ∃ before after, history=before++.addSubscription subscription::after ∧
    ∀ command∈after, ¬Supersedes command subscription

/-- The registry the manager holds after a history. -/
def registryAfter (history : List (ManagerCommand H)) : Registry H :=
  Registry.empty.handleAll history

/-- No addition carries an identifier that is registered at that moment under
another client. -/
def OwnersKept (history : List (ManagerCommand H)) : Prop :=
  ∀ before added after, history=before++.addSubscription added::after →
    ∀ registered, (registryAfter before).subscriptions.lookup added.id=some registered →
      registered.clientId=added.clientId

/-- The reverse index lists exactly the registered identifiers of each client,
and lists no client without one. -/
structure Mirrors (registry : Registry H) : Prop where
  /-- Both directions of the correspondence. -/
  listed : ∀ clientId subId, subId∈registry.idsOf clientId ↔
    ∃ subscription, registry.subscriptions.lookup subId=some subscription ∧
      subscription.clientId=clientId
  /-- A client without identifiers has no entry. -/
  nonempty : ∀ clientId, registry.clientSubscriptions.lookup clientId≠some ∅

section Commands

variable {registry : Registry H}

/-- An addition lists its identifier under its client and nothing else. -/
theorem idsOf_addSubscription (subscription : Subscription H) (clientId : String) :
    (registry.addSubscription subscription).idsOf clientId=
      if clientId=subscription.clientId then insert subscription.id (registry.idsOf clientId)
      else registry.idsOf clientId := by
  simp only [Registry.idsOf,Registry.addSubscription,KeyedStore.lookup_insert]
  split
  · subst clientId
    rfl
  · rfl

/-- Unlisting erases one identifier of one client. -/
theorem getD_unlist (clientSubs : Finmap fun _ : String => Finset SubscriptionId)
    (owner clientId : String) (subId : SubscriptionId) :
    ((Registry.unlist clientSubs owner subId).lookup clientId).getD ∅=
      if clientId=owner then ((clientSubs.lookup clientId).getD ∅).erase subId
      else (clientSubs.lookup clientId).getD ∅ := by
  unfold Registry.unlist
  cases hfound : clientSubs.lookup owner with
  | none =>
    dsimp only
    split
    · subst clientId
      rw [hfound]
      rfl
    · rfl
  | some subs =>
    dsimp only
    by_cases hsame : clientId=owner
    · subst hsame
      rw [if_pos rfl,hfound]
      split
      · rw [KeyedStore.lookup_erase,if_pos rfl]
        exact Eq.symm ‹_›
      · rw [KeyedStore.lookup_insert,if_pos rfl]
        rfl
    · rw [if_neg hsame]
      split
      · rw [KeyedStore.lookup_erase,if_neg hsame]
      · rw [KeyedStore.lookup_insert,if_neg hsame]

/-- Unlisting leaves no empty set behind. -/
theorem lookup_unlist_nonempty {clientSubs : Finmap fun _ : String => Finset SubscriptionId}
    (h : ∀ clientId, clientSubs.lookup clientId≠some ∅) (owner clientId : String)
    (subId : SubscriptionId) :
    (Registry.unlist clientSubs owner subId).lookup clientId≠some ∅ := by
  unfold Registry.unlist
  cases clientSubs.lookup owner with
  | none => exact h clientId
  | some subs =>
    dsimp only
    split
    · rw [KeyedStore.lookup_erase]
      split
      · exact (Option.some_ne_none _).symm
      · exact h clientId
    · rename_i hleft
      rw [KeyedStore.lookup_insert]
      split
      · exact fun hempty => hleft (Option.some.inj hempty)
      · exact h clientId

/-- Adding keeps the correspondence when the identifier keeps its client. -/
theorem mirrors_addSubscription (h : Mirrors registry) {subscription : Subscription H}
    (howner : ∀ registered, registry.subscriptions.lookup subscription.id=some registered →
      registered.clientId=subscription.clientId) :
    Mirrors (registry.addSubscription subscription) where
  listed := fun clientId subId => by
    have hlookup : (registry.addSubscription subscription).subscriptions.lookup subId=
        if subId=subscription.id then some subscription
        else registry.subscriptions.lookup subId := SubscriptionMap.lookup_inserted _ _ _
    rw [idsOf_addSubscription,hlookup]
    by_cases hid : subId=subscription.id
    · subst hid
      by_cases hclient : clientId=subscription.clientId
      · simp only [hclient,if_true,Finset.mem_insert_self,Option.some.injEq,true_iff]
        exact ⟨subscription,rfl,rfl⟩
      · have hunlisted : subscription.id∉registry.idsOf clientId := by
          intro hlisted
          obtain ⟨registered,hregistered,hof⟩ := (h.listed _ _).mp hlisted
          exact hclient (hof.symm.trans (howner registered hregistered))
        simp only [hclient,if_false,hunlisted,if_true,Option.some.injEq,false_iff]
        rintro ⟨_,rfl,hof⟩
        exact hclient hof.symm
    · simp only [hid,if_false]
      rw [←h.listed clientId subId]
      split
      · simp only [Finset.mem_insert,hid,false_or]
      · rfl
  nonempty := fun clientId => by
    simp only [Registry.addSubscription,KeyedStore.lookup_insert]
    split
    · exact fun hempty => Finset.insert_ne_empty _ _ (Option.some.inj hempty)
    · exact h.nonempty clientId

/-- Removing an identifier, known or not, keeps the correspondence. -/
theorem mirrors_removeSubscription (h : Mirrors registry) (removedId : SubscriptionId) :
    Mirrors (registry.removeSubscription removedId) where
  listed := fun clientId subId => by
    have hlookup : (registry.removeSubscription removedId).subscriptions.lookup subId=
        if subId=removedId then none else registry.subscriptions.lookup subId :=
      SubscriptionMap.lookup_removed _ _ _
    rw [hlookup]
    simp only [Registry.idsOf,Registry.removeSubscription]
    cases hfound : registry.subscriptions.lookup removedId with
    | none =>
      have hbefore := h.listed clientId subId
      rw [Registry.idsOf] at hbefore
      dsimp only
      rw [hbefore]
      by_cases hid : subId=removedId
      · subst hid
        simp only [hfound,if_true]
      · simp only [hid,if_false]
    | some removed =>
      have hbefore := h.listed clientId subId
      rw [Registry.idsOf] at hbefore
      dsimp only
      rw [getD_unlist]
      by_cases hid : subId=removedId
      · subst hid
        simp only [if_true,reduceCtorEq,false_and,exists_false,iff_false]
        split
        · exact Finset.notMem_erase _ _
        · rw [hbefore]
          rintro ⟨registered,hregistered,hof⟩
          rw [hfound] at hregistered
          cases hregistered
          exact absurd hof.symm ‹_›
      · simp only [hid,if_false]
        rw [←hbefore]
        split
        · simp only [Finset.mem_erase,ne_eq,hid,not_false_eq_true,true_and]
        · rfl
  nonempty := fun clientId => by
    simp only [Registry.removeSubscription]
    cases registry.subscriptions.lookup removedId with
    | none => exact h.nonempty clientId
    | some removed => exact lookup_unlist_nonempty h.nonempty _ _ _

/-- Removing a client keeps the correspondence. -/
theorem mirrors_removeClientSubscriptions (h : Mirrors registry) (removedClient : String) :
    Mirrors (registry.removeClientSubscriptions removedClient) where
  listed := fun clientId subId => by
    have hlookup : (registry.removeClientSubscriptions removedClient).subscriptions.lookup subId=
        if subId∈registry.idsOf removedClient then none
        else registry.subscriptions.lookup subId := SubscriptionMap.lookup_removedAll _ _ _
    rw [hlookup]
    have hids : (registry.removeClientSubscriptions removedClient).idsOf clientId=
        if clientId=removedClient then ∅ else registry.idsOf clientId := by
      simp only [Registry.idsOf,Registry.removeClientSubscriptions,KeyedStore.lookup_erase]
      split <;> rfl
    rw [hids]
    by_cases hclient : clientId=removedClient
    · subst hclient
      simp only [if_true,Finset.notMem_empty,false_iff]
      rintro ⟨registered,hregistered,hof⟩
      split at hregistered
      · cases hregistered
      · exact ‹¬_› ((h.listed _ _).mpr ⟨registered,hregistered,hof⟩)
    · rw [if_neg hclient,h.listed]
      refine exists_congr fun registered => ?_
      constructor
      · rintro ⟨hregistered,hof⟩
        refine ⟨?_,hof⟩
        rw [if_neg,hregistered]
        intro hlisted
        obtain ⟨other,hother,hofOther⟩ := (h.listed _ _).mp hlisted
        rw [hregistered] at hother
        cases hother
        exact hclient (hof.symm.trans hofOther)
      · rintro ⟨hregistered,hof⟩
        split at hregistered
        · cases hregistered
        · exact ⟨hregistered,hof⟩
  nonempty := fun clientId => by
    simp only [Registry.removeClientSubscriptions,KeyedStore.lookup_erase]
    split
    · exact (Option.some_ne_none _).symm
    · exact h.nonempty clientId

end Commands

section Histories

variable {history : List (ManagerCommand H)}

@[simp] theorem registryAfter_snoc (command : ManagerCommand H) :
    registryAfter (history++[command])=((registryAfter history).handle command).1 := by
  simp only [registryAfter,Registry.handleAll_append,Registry.handleAll_singleton]

/-- Histories that keep owners are closed under prefixes. -/
theorem OwnersKept.of_append {later : List (ManagerCommand H)}
    (h : OwnersKept (history++later)) : OwnersKept history := by
  intro before added after hsplit registered hregistered
  have hwhole : history++later=before++.addSubscription added::(after++later) := by
    rw [hsplit,List.append_assoc,List.cons_append]
  exact h before added _ hwhole registered hregistered

/-- The last command of such a history, when it adds, keeps the owner. -/
theorem OwnersKept.last {subscription : Subscription H}
    (h : OwnersKept (history++[.addSubscription subscription])) :
    ∀ registered,
      (registryAfter history).subscriptions.lookup subscription.id=some registered →
        registered.clientId=subscription.clientId :=
  h history subscription [] rfl

/-- No subscription stands after the empty history. -/
theorem not_standing_nil (subscription : Subscription H) : ¬Standing [] subscription := by
  rintro ⟨before,after,hsplit,_⟩
  cases before <;> cases hsplit

/-- One more command either adds the subscription, or leaves it standing
without superseding it. -/
theorem standing_snoc (command : ManagerCommand H) (subscription : Subscription H) :
    Standing (history++[command]) subscription ↔
      command=.addSubscription subscription ∨
        (Standing history subscription ∧ ¬Supersedes command subscription) := by
  constructor
  · rintro ⟨before,after,hsplit,hlater⟩
    cases after using List.reverseRecOn with
    | nil =>
      have hlast := List.append_inj' hsplit rfl
      exact Or.inl (List.cons.inj hlast.2).1
    | append_singleton after last =>
      rw [←List.cons_append,←List.append_assoc] at hsplit
      have hlast := List.append_inj' hsplit rfl
      have hcommand : command=last := (List.cons.inj hlast.2).1
      subst hcommand
      refine Or.inr ⟨⟨before,after,hlast.1,?_⟩,?_⟩
      · exact fun other hother => hlater other (List.mem_append_left _ hother)
      · exact hlater command (List.mem_append_right _ (List.mem_singleton_self _))
  · rintro (rfl|⟨⟨before,after,hsplit,hlater⟩,hkeep⟩)
    · exact ⟨history,[],rfl,fun _ h => nomatch h⟩
    · refine ⟨before,after++[command],?_,?_⟩
      · rw [hsplit,List.append_assoc,List.cons_append]
      · intro other hother
        rcases List.mem_append.mp hother with hother|hother
        · exact hlater other hother
        · rw [List.mem_singleton] at hother
          exact hother ▸ hkeep

/-- The reverse index mirrors the registry after every history that keeps
owners. -/
theorem mirrors_registryAfter (h : OwnersKept history) : Mirrors (registryAfter history) := by
  induction history using List.reverseRecOn with
  | nil =>
    refine ⟨fun clientId subId => ?_,fun clientId => ?_⟩
    · simp only [registryAfter,Registry.handleAll_nil,Registry.idsOf,Registry.empty,
        Finmap.lookup_empty,Option.getD_none,Finset.notMem_empty,
        SubscriptionMap.lookup_empty_map,reduceCtorEq,false_and,exists_false]
    · simp only [registryAfter,Registry.handleAll_nil,Registry.empty,Finmap.lookup_empty]
      exact (Option.some_ne_none _).symm
  | append_singleton history command ih =>
    have hpast := ih h.of_append
    rw [registryAfter_snoc]
    cases command with
    | addSubscription subscription => exact mirrors_addSubscription hpast h.last
    | removeSubscription subId => exact mirrors_removeSubscription hpast subId
    | removeClientSubscriptions clientId => exact mirrors_removeClientSubscriptions hpast clientId
    | shutdown => exact hpast

/-- The registry holds exactly the standing subscriptions. -/
theorem lookup_registryAfter (h : OwnersKept history) (subId : SubscriptionId)
    (subscription : Subscription H) :
    (registryAfter history).subscriptions.lookup subId=some subscription ↔
      subscription.id=subId ∧ Standing history subscription := by
  induction history using List.reverseRecOn generalizing subId subscription with
  | nil =>
    simp only [registryAfter,Registry.handleAll_nil,Registry.empty,
      SubscriptionMap.lookup_empty_map,reduceCtorEq,not_standing_nil,and_false]
  | append_singleton history command ih =>
    have hpast := ih h.of_append
    have hmirrors := mirrors_registryAfter h.of_append
    rw [registryAfter_snoc,standing_snoc]
    cases command with
    | addSubscription added =>
      simp only [Registry.handle,Registry.addSubscription,SubscriptionMap.lookup_inserted,
        ManagerCommand.addSubscription.injEq,Supersedes]
      by_cases hid : subId=added.id
      · simp only [hid,if_true,Option.some.injEq]
        constructor
        · rintro rfl
          exact ⟨rfl,Or.inl rfl⟩
        · rintro ⟨hown,rfl|⟨_,hkeep⟩⟩
          · rfl
          · exact absurd hown.symm hkeep
      · simp only [hid,if_false,hpast]
        refine and_congr_right fun hown => ?_
        subst hown
        constructor
        · exact fun hstanding => Or.inr ⟨hstanding,fun hsame => hid hsame.symm⟩
        · rintro (rfl|⟨hstanding,_⟩)
          · exact absurd rfl hid
          · exact hstanding
    | removeSubscription removedId =>
      simp only [Registry.handle,Registry.removeSubscription,SubscriptionMap.lookup_removed,
        reduceCtorEq,false_or,Supersedes]
      by_cases hid : subId=removedId
      · subst hid
        simp only [if_true,reduceCtorEq,false_iff,not_and,not_not]
        exact fun hown _ => hown.symm
      · simp only [hid,if_false,hpast]
        refine and_congr_right fun hown => ?_
        subst hown
        exact ⟨fun hstanding => ⟨hstanding,fun hsame => hid hsame.symm⟩,fun hboth => hboth.1⟩
    | removeClientSubscriptions clientId =>
      simp only [Registry.handle,Registry.removeClientSubscriptions,
        SubscriptionMap.lookup_removedAll,reduceCtorEq,false_or,Supersedes]
      constructor
      · intro hfound
        split at hfound
        · cases hfound
        · rename_i hunlisted
          obtain ⟨hown,hstanding⟩ := (hpast subId subscription).mp hfound
          refine ⟨hown,hstanding,fun hclient => hunlisted ?_⟩
          exact (hmirrors.listed _ _).mpr ⟨subscription,hfound,hclient.symm⟩
      · rintro ⟨hown,hstanding,hclient⟩
        have hfound := (hpast subId subscription).mpr ⟨hown,hstanding⟩
        rw [if_neg,hfound]
        intro hlisted
        obtain ⟨registered,hregistered,hof⟩ := (hmirrors.listed _ _).mp hlisted
        rw [hfound] at hregistered
        cases hregistered
        exact hclient hof.symm
    | shutdown =>
      simp only [Registry.handle,reduceCtorEq,false_or,Supersedes,not_false_eq_true,and_true]
      exact hpast subId subscription

/-- Only added subscriptions are ever registered. -/
theorem added_of_lookup {subId : SubscriptionId} {subscription : Subscription H}
    (h : (registryAfter history).subscriptions.lookup subId=some subscription) :
    .addSubscription subscription∈history := by
  induction history using List.reverseRecOn generalizing subId subscription with
  | nil =>
    simp only [registryAfter,Registry.handleAll_nil,Registry.empty,
      SubscriptionMap.lookup_empty_map,reduceCtorEq] at h
  | append_singleton history command ih =>
    rw [registryAfter_snoc] at h
    rw [List.mem_append,List.mem_singleton]
    cases command with
    | addSubscription added =>
      simp only [Registry.handle,Registry.addSubscription,SubscriptionMap.lookup_inserted] at h
      split at h
      · cases h
        exact Or.inr rfl
      · exact Or.inl (ih h)
    | removeSubscription removedId =>
      simp only [Registry.handle,Registry.removeSubscription,SubscriptionMap.lookup_removed] at h
      split at h
      · cases h
      · exact Or.inl (ih h)
    | removeClientSubscriptions clientId =>
      simp only [Registry.handle,Registry.removeClientSubscriptions,
        SubscriptionMap.lookup_removedAll] at h
      split at h
      · cases h
      · exact Or.inl (ih h)
    | shutdown => exact Or.inl (ih h)

/-- When every identifier is used for one client only, as with identifiers
drawn from the counter, every history keeps owners. -/
theorem ownersKept_of_one_owner
    (h : ∀ first second : Subscription H, .addSubscription first∈history →
      .addSubscription second∈history → first.id=second.id → first.clientId=second.clientId) :
    OwnersKept history := by
  intro before added after hsplit registered hregistered
  have hadded : .addSubscription added∈history := by
    rw [hsplit]
    exact List.mem_append_right _ List.mem_cons_self
  have hfirst : .addSubscription registered∈history := by
    rw [hsplit]
    exact List.mem_append_left _ (added_of_lookup hregistered)
  exact h registered added hfirst hadded (SubscriptionMap.id_of_lookup hregistered)

/-- After every command of a history that keeps owners: an identifier is a key
of the registry exactly when its last addition stands, and then holds that
addition's subscription; the reverse index lists an identifier under a client
exactly when the registered subscription names that client; and no client is
listed with an empty set. -/
theorem registry_agrees_with_history {commands : List (ManagerCommand H)}
    (hkept : OwnersKept commands) (handled : List (ManagerCommand H))
    (hpast : handled<+:commands) :
    (∀ subId subscription,
      (registryAfter handled).subscriptions.lookup subId=some subscription ↔
        subscription.id=subId ∧ Standing handled subscription) ∧
    (∀ clientId subId, subId∈(registryAfter handled).idsOf clientId ↔
      ∃ subscription, (registryAfter handled).subscriptions.lookup subId=some subscription ∧
        subscription.clientId=clientId) ∧
    (∀ clientId, (registryAfter handled).clientSubscriptions.lookup clientId≠some ∅) := by
  obtain ⟨later,rfl⟩ := hpast
  have hhandled := hkept.of_append
  have hmirrors := mirrors_registryAfter hhandled
  exact ⟨lookup_registryAfter hhandled,hmirrors.listed,hmirrors.nonempty⟩

/-- A client updates its subscription, another one comes, the first client
leaves and adds again. -/
def reAddHistory : List (ManagerCommand Unit) :=
  [.addSubscription (.onSlots 1 "a" ⟨[0]⟩ ()),.addSubscription (.onSlots 1 "a" ⟨[1]⟩ ()),
    .addSubscription (.onSlots 2 "b" ⟨[]⟩ ()),.removeClientSubscriptions "a",
    .removeSubscription ⟨7⟩,.addSubscription (.onSlots 1 "a" ⟨[2]⟩ ())]

theorem registry_agrees_with_reAddHistory :
    (∀ subId subscription,
      (registryAfter reAddHistory).subscriptions.lookup subId=some subscription ↔
        subscription.id=subId ∧ Standing reAddHistory subscription) ∧
    (∀ clientId subId, subId∈(registryAfter reAddHistory).idsOf clientId ↔
      ∃ subscription,
        (registryAfter reAddHistory).subscriptions.lookup subId=some subscription ∧
        subscription.clientId=clientId) ∧
    (∀ clientId, (registryAfter reAddHistory).clientSubscriptions.lookup clientId≠some ∅) := by
  have hkept : OwnersKept reAddHistory := by
    apply ownersKept_of_one_owner
    intro first second hfirst hsecond hid
    simp only [reAddHistory,List.mem_cons,List.not_mem_nil,ManagerCommand.addSubscription.injEq,
      reduceCtorEq,false_or,or_false] at hfirst hsecond
    rcases hfirst with rfl|rfl|rfl|rfl <;> rcases hsecond with rfl|rfl|rfl|rfl <;>
      first | rfl | cases hid
  exact registry_agrees_with_history hkept reAddHistory List.prefix_rfl

end Histories

end SteamHandler.CommandHistory
