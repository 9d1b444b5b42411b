import Mathlib

/-!
# Readers-writer locks

A lock is held by any number of readers or by one writer. That a writer has no
readers beside it is part of what a lock is, so no holder has to keep it. What
is taken and given back leaves the lock as it was, and nobody else's holding
changes.
-/

namespace SteamHandler.RwLocks

/-- Who holds a lock, for reading or for writing. -/
@[ext] structure RwLock (ι : Type*) where
  /-- The holders of a read guard. -/
  readers : Finset ι
  /-- The holder of the write guard. -/
  writer : Option ι
  /-- Nobody reads what is being written. -/
  exclusive : writer.isSome=true → readers=∅

namespace RwLock

variable {ι : Type*}

/-- The lock nobody holds. -/
def free : RwLock ι := ⟨∅,none,fun _ => rfl⟩

/-- A read guard can be had. -/
def CanRead (lock : RwLock ι) : Prop := lock.writer=none

/-- A write guard can be had. -/
def CanWrite (lock : RwLock ι) : Prop := lock.writer=none ∧ lock.readers=∅

instance decidableCanRead [DecidableEq ι] (lock : RwLock ι) : Decidable lock.CanRead :=
  inferInstanceAs (Decidable (_=_))

instance decidableCanWrite [DecidableEq ι] (lock : RwLock ι) : Decidable lock.CanWrite :=
  inferInstanceAs (Decidable (_ ∧ _))

/-- Where somebody reads nobody writes. -/
theorem canRead_of_mem {lock : RwLock ι} {holder : ι} (h : holder∈lock.readers) :
    lock.CanRead := by
  have hempty := lock.exclusive
  rw [CanRead,←Option.not_isSome_iff_eq_none]
  intro hsome
  rw [hempty hsome] at h
  exact absurd h (Finset.notMem_empty holder)

/-- A lock that can be written can be read. -/
theorem CanWrite.canRead {lock : RwLock ι} (h : lock.CanWrite) : lock.CanRead := h.1

theorem canWrite_free : (free : RwLock ι).CanWrite := ⟨rfl,rfl⟩

variable [DecidableEq ι]

/-- Take a read guard. -/
def read (lock : RwLock ι) (holder : ι) : RwLock ι :=
  if lock.writer=none then
    ⟨insert holder lock.readers,none,fun hsome => absurd hsome Bool.false_ne_true⟩
  else lock

/-- Take the write guard. -/
def write (lock : RwLock ι) (holder : ι) : RwLock ι :=
  if lock.readers=∅ then ⟨∅,some holder,fun _ => rfl⟩ else lock

/-- Give back what is held. -/
def release (lock : RwLock ι) (holder : ι) : RwLock ι where
  readers := lock.readers.erase holder
  writer := if lock.writer=some holder then none else lock.writer
  exclusive := by
    intro hsome
    have hempty : lock.readers=∅ := by
      refine lock.exclusive ?_
      split at hsome
      · cases hsome
      · exact hsome
    rw [hempty,Finset.erase_empty]

variable {lock : RwLock ι} {holder other : ι}

theorem readers_read (h : lock.CanRead) : (lock.read holder).readers=insert holder lock.readers := by
  rw [CanRead] at h
  rw [read,if_pos h]

theorem writer_read (h : lock.CanRead) : (lock.read holder).writer=none := by
  rw [CanRead] at h
  rw [read,if_pos h]

theorem readers_write (h : lock.CanWrite) : (lock.write holder).readers=∅ := by
  rw [write,if_pos h.2]

theorem writer_write (h : lock.CanWrite) : (lock.write holder).writer=some holder := by
  rw [write,if_pos h.2]

theorem mem_readers_release :
    other∈(lock.release holder).readers ↔ other≠holder ∧ other∈lock.readers :=
  Finset.mem_erase

/-- The writer gives back the write guard. -/
theorem writer_release (h : lock.writer=some holder) : (lock.release holder).writer=none :=
  if_pos h

/-- A reader gives back a read guard. -/
theorem writer_release_of_mem (h : holder∈lock.readers) : (lock.release holder).writer=none := by
  have hnone := canRead_of_mem h
  rw [CanRead] at hnone
  change (if lock.writer=some holder then none else lock.writer)=none
  rw [hnone,if_neg (Option.some_ne_none holder).symm]

/-- A read guard taken and given back leaves no trace. -/
theorem release_read (h : lock.CanRead) (hnew : holder∉lock.readers) :
    (lock.read holder).release holder=lock := by
  ext1
  · change (lock.read holder).readers.erase holder=lock.readers
    rw [readers_read h,Finset.erase_insert hnew]
  · have hmem : holder∈(lock.read holder).readers := by
      rw [readers_read h]
      exact Finset.mem_insert_self _ _
    rw [writer_release_of_mem hmem,h]

/-- Nor does the write guard. -/
theorem release_write (h : lock.CanWrite) : (lock.write holder).release holder=lock := by
  ext1
  · change (lock.write holder).readers.erase holder=lock.readers
    rw [readers_write h,Finset.erase_empty,h.2]
  · rw [writer_release (writer_write h),h.1]

end RwLock

end SteamHandler.RwLocks
