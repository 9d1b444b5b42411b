import Mathlib

/-!
# Finite maps and stores written key by key

Two general facts about associative storage. A finite map has no preferred
order: an iteration order is any list of its values, and erasing several keys
does not depend on the order of the erasures. A store that is only written
through keyed overwrites holds, under each key, the value of the last write to
that key; over all orders of the same writes, any write may be the last one.
-/

namespace SteamHandler.KeyedStore

section FiniteMaps

variable {κ ν : Type*} [DecidableEq κ]

/-- The values of a finite map, without an order. -/
def values (entries : Finmap fun _ : κ => ν) : Multiset ν := entries.entries.map Sigma.snd

/-- A value occurs exactly when some key looks it up. -/
theorem mem_values {entries : Finmap fun _ : κ => ν} {value : ν} :
    value∈values entries ↔ ∃ key, entries.lookup key=some value := by
  simp only [values,Multiset.mem_map,Sigma.exists,Finmap.mem_lookup_iff.symm,Option.mem_def]
  constructor
  · rintro ⟨key,_,h,rfl⟩
    exact ⟨key,h⟩
  · rintro ⟨key,h⟩
    exact ⟨key,value,h,rfl⟩

/-- Values that determine their key are pairwise distinct in that key. -/
theorem nodup_map_values {entries : Finmap fun _ : κ => ν} {keyOf : ν → κ}
    (h : ∀ key value, entries.lookup key=some value → keyOf value=key) :
    ((values entries).map keyOf).Nodup := by
  have hkeys : (values entries).map keyOf=entries.entries.keys := by
    rw [values,Multiset.map_map,Multiset.keys]
    refine Multiset.map_congr rfl fun entry hentry => ?_
    exact h entry.1 entry.2 (Finmap.mem_lookup_iff.mpr hentry)
  rw [hkeys]
  exact entries.nodupKeys.nodup_keys

/-- Insertion changes one key. -/
theorem lookup_insert (entries : Finmap fun _ : κ => ν) (key other : κ) (value : ν) :
    (entries.insert key value).lookup other=
      if other=key then some value else entries.lookup other := by
  by_cases h : other=key
  · subst h
    rw [if_pos rfl,Finmap.lookup_insert]
  · rw [if_neg h,Finmap.lookup_insert_of_ne _ h]

/-- Erasure hides one key. -/
theorem lookup_erase (entries : Finmap fun _ : κ => ν) (key other : κ) :
    (entries.erase key).lookup other=if other=key then none else entries.lookup other := by
  by_cases h : other=key
  · subst h
    rw [if_pos rfl,Finmap.lookup_erase]
  · rw [if_neg h,Finmap.lookup_erase_ne h]

instance eraseCommutes :
    RightCommutative fun (entries : Finmap fun _ : κ => ν) (key : κ) => entries.erase key :=
  ⟨fun _ _ _ => Finmap.erase_erase⟩

/-- Erase every key of a finite set, in whichever order. -/
def eraseAll (entries : Finmap fun _ : κ => ν) (keys : Finset κ) : Finmap fun _ : κ => ν :=
  keys.val.foldl (fun rest key => rest.erase key) entries

/-- Erasing a set of keys hides exactly those keys. -/
theorem lookup_eraseAll (entries : Finmap fun _ : κ => ν) (keys : Finset κ) (key : κ) :
    (eraseAll entries keys).lookup key=if key∈keys then none else entries.lookup key := by
  suffices h : ∀ (many : Multiset κ) (rest : Finmap fun _ : κ => ν),
      (many.foldl (fun rest key => rest.erase key) rest).lookup key=
        if key∈many then none else rest.lookup key from h keys.val entries
  intro many
  induction many using Multiset.induction with
  | empty => intro rest; simp only [Multiset.foldl_zero,Multiset.notMem_zero,if_false]
  | cons head many ih =>
    intro rest
    rw [Multiset.foldl_cons,ih,lookup_erase]
    by_cases hmany : key∈many
    · simp only [hmany,if_true,Multiset.mem_cons,or_true]
    · simp only [hmany,if_false,Multiset.mem_cons,or_false]

end FiniteMaps

/-- Items of a chosen kind can be moved behind all others. -/
theorem chosen_last_perm {α : Type*} (items : List α) (chosen : α → Bool) :
    (items.filter (fun item => !chosen item)++items.filter chosen).Perm items := by
  have h := List.filter_append_perm (fun item => !chosen item) items
  simpa only [Bool.not_not] using h

section Overwrites

variable {σ α κ ν : Type*} [DecidableEq κ]
variable (view : σ → κ → Option ν) (write : σ → α → σ) (key : α → κ) (value : α → ν)

/-- A write replaces what is stored under its own key and nothing else. -/
def Overwrites : Prop :=
  ∀ store item k, view (write store item) k=if key item=k then some (value item) else view store k

variable {view write key value} (hwrite : Overwrites view write key value)

include hwrite

/-- Keys that no write mentions keep what they held. -/
theorem view_foldl_of_unwritten {items : List α} (store : σ) {k : κ}
    (h : ∀ item∈items, key item≠k) : view (items.foldl write store) k=view store k := by
  induction items generalizing store with
  | nil => rfl
  | cons item items ih =>
    obtain ⟨hitem,hitems⟩ := List.forall_mem_cons.mp h
    rw [List.foldl_cons,ih (write store item) hitems,hwrite,if_neg hitem]

/-- A key that some write mentions ends up with the value of one of the writes
to it. -/
theorem view_foldl_of_written {items : List α} (store : σ) {k : κ}
    (h : ∃ item∈items, key item=k) :
    ∃ item∈items, key item=k ∧ view (items.foldl write store) k=some (value item) := by
  induction items generalizing store with
  | nil => obtain ⟨item,hitem,_⟩ := h; cases hitem
  | cons item items ih =>
    by_cases hlater : ∃ later∈items, key later=k
    · obtain ⟨later,hmem,hkey,hview⟩ := ih (write store item) hlater
      exact ⟨later,List.mem_cons_of_mem _ hmem,hkey,hview⟩
    · have hunwritten : ∀ later∈items, key later≠k := fun later hmem hkey => hlater ⟨later,hmem,hkey⟩
      obtain ⟨first,hmem,hkey⟩ := h
      have hfirst : first=item := by
        rcases List.mem_cons.mp hmem with hhead|htail
        · exact hhead
        · exact absurd hkey (hunwritten first htail)
      subst hfirst
      refine ⟨first,List.mem_cons_self,hkey,?_⟩
      rw [List.foldl_cons,view_foldl_of_unwritten hwrite _ hunwritten,hwrite,if_pos hkey]

/-- Starting from an empty store, a key holds a value exactly when it was
written, and then the value of a write to it. -/
theorem view_foldl_isSome {items : List α} {store : σ} {k : κ} (hempty : view store k=none) :
    (view (items.foldl write store) k).isSome ↔ ∃ item∈items, key item=k := by
  constructor
  · intro h
    by_contra hn
    have hunwritten : ∀ item∈items, key item≠k := fun item hmem hkey => hn ⟨item,hmem,hkey⟩
    rw [view_foldl_of_unwritten hwrite store hunwritten,hempty] at h
    cases h
  · intro h
    obtain ⟨_,_,_,hview⟩ := view_foldl_of_written hwrite store h
    rw [hview]
    rfl

/-- Any chosen kind of writes can be made to come last: in this rearrangement
every key written by a chosen item holds the value of a chosen item. -/
theorem view_foldl_chosen_last (items : List α) (store : σ) (chosen : α → Bool) {k : κ}
    (h : ∃ item∈items, key item=k ∧ chosen item=true) :
    ∃ item∈items, key item=k ∧ chosen item=true ∧
      view ((items.filter (fun item => !chosen item)++items.filter chosen).foldl write store) k=
        some (value item) := by
  obtain ⟨item,hmem,hkey,hchosen⟩ := h
  have hwritten : ∃ later∈items.filter chosen,key later=k :=
    ⟨item,List.mem_filter.mpr ⟨hmem,hchosen⟩,hkey⟩
  obtain ⟨last,hlast,hlastKey,hview⟩ := view_foldl_of_written hwrite
    ((items.filter fun item => !chosen item).foldl write store) hwritten
  obtain ⟨hlastMem,hlastChosen⟩ := List.mem_filter.mp hlast
  exact ⟨last,hlastMem,hlastKey,hlastChosen,by rw [List.foldl_append]; exact hview⟩

end Overwrites

end SteamHandler.KeyedStore
