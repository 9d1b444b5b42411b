import Mathlib

/-!
# The reconnection backoff

The failure branch of the manager loop counts the failure and sleeps for
`initial_interval.mul_f64(multiplier.powi(failures as i32 - 1))`, capped by
`max_interval`. The cap is applied to the product, so the product itself must
be a representable duration: `mul_f64` panics from `2^64` seconds on, and the
panic ends the manager task. Durations and instants are counted in
nanoseconds; powers of two are exact doubles, so the doubles involved are kept
as rationals.
-/

namespace SteamHandler.Backoff

/-- A span of time in nanoseconds. -/
abbrev Duration := ℕ

/-- `Duration::from_secs`. -/
def fromSecs (seconds : ℕ) : Duration := seconds*10^9

/-- Results of the double arithmetic: exact, or overflowed to infinity. -/
inductive F64 where
  | finite (value : ℚ)
  | infinite
  deriving DecidableEq, Repr

/-- `2.0_f64.powi(exponent)`, exact between overflow and underflow. -/
def powi2 (exponent : ℤ) : F64 :=
  if 1024 ≤ exponent then .infinite
  else if exponent≤-1024 then .finite 0
  else .finite (2^exponent)

/-- Nearest natural number, the even one when two are equally near. -/
def roundTiesEven (value : ℚ) : ℕ :=
  let below := ⌊value⌋₊
  if value-below < 1/2 then below
  else if 1/2 < value-below then below+1
  else below+below%2

/-- `Duration::from_secs_f64`: `none` where it panics. -/
def fromSecsF64 : F64 → Option Duration
  | .infinite => none
  | .finite seconds => if 2^64 ≤ seconds then none else some (roundTiesEven (seconds*10^9))

/-- `Duration::mul_f64`: multiply as seconds, then convert back. -/
def mulF64 (duration : Duration) : F64 → Option Duration
  | .infinite => none
  | .finite factor => fromSecsF64 (.finite (factor*(duration/10^9)))

/-- `backoff.initial_interval`. -/
def initialInterval : Duration := fromSecs 1

/-- `backoff.max_interval`. -/
def maxInterval : Duration := fromSecs 60

/-- `failures as i32 - 1`. Where the subtraction overflows, a checked build
panics and an unchecked one wraps to the largest exponent, whose power is
infinite: either way no duration results. -/
def backoffExponent (failures : UInt32) : ℤ :=
  Int.bmod (Int.bmod failures.toNat (2^32)-1) (2^32)

/-- The sleep after the given number of consecutive failures, `none` where its
computation panics. -/
def backoffTime (failures : UInt32) : Option Duration :=
  (mulF64 initialInterval (powi2 (backoffExponent failures))).map fun product =>
    min product maxInterval

/-- The failure branch: count the failure, then compute the sleep. Opaque to
unification, which would otherwise evaluate the machine arithmetic. -/
@[irreducible] def failureBranch (failures : UInt32) : Option (UInt32 × Duration) :=
  let failures := failures+1
  (backoffTime failures).map fun sleep => (failures,sleep)

theorem failureBranch_eq (failures : UInt32) :
    failureBranch failures=(backoffTime (failures+1)).map fun sleep => (failures+1,sleep) := by
  unfold failureBranch
  rfl

/-- Counter and last sleep after so many consecutive failed attempts, starting
from a reset counter; `none` once a panic has ended the manager task. -/
def outage : ℕ → Option (UInt32 × Duration)
  | 0 => some (0,0)
  | attempts+1 => (outage attempts).bind fun state => failureBranch state.1

/-- More seconds last longer. -/
theorem fromSecs_le {first second : ℕ} (h : first ≤ second) : fromSecs first ≤ fromSecs second :=
  Nat.mul_le_mul_right _ h

/-- Natural numbers are their own nearest natural number. -/
theorem roundTiesEven_natCast (n : ℕ) : roundTiesEven (n : ℚ)=n := by
  unfold roundTiesEven
  simp only [Nat.floor_natCast,sub_self]
  norm_num

/-- One second times a representable power of two is that many seconds. -/
theorem mulF64_initialInterval (value : ℚ) :
    mulF64 initialInterval (.finite value)=
      if 2^64 ≤ value then none else some (roundTiesEven (value*10^9)) := by
  have hone : value*((initialInterval : ℕ)/10^9)=value := by
    norm_num [initialInterval,fromSecs]
  simp only [mulF64,fromSecsF64,hone]

/-- The exponent of an ordinary failure count. -/
theorem backoffExponent_small {failures : UInt32} (hpos : 0 < failures.toNat)
    (h : failures.toNat ≤ 2^31) : backoffExponent failures=failures.toNat-1 := by
  unfold backoffExponent
  rcases Nat.lt_or_ge failures.toNat (2^31) with hlt|hge
  · have hinner : Int.bmod (failures.toNat : ℤ) (2^32)=failures.toNat := by
      rw [Int.bmod_def]
      omega
    rw [hinner,Int.bmod_def]
    omega
  · have hedge : failures.toNat=2^31 := by omega
    rw [hedge]
    rfl

/-- Up to 64 failures the product is a duration and the cap applies to it. -/
theorem backoffTime_of_le {failures : UInt32} (hpos : 0 < failures.toNat)
    (h : failures.toNat ≤ 64) :
    backoffTime failures=some (fromSecs (min (2^(failures.toNat-1)) 60)) := by
  have hexponent : backoffExponent failures=((failures.toNat-1 : ℕ) : ℤ) := by
    rw [backoffExponent_small hpos (by omega)]
    omega
  have hpower : powi2 (backoffExponent failures)=.finite ((2^(failures.toNat-1) : ℕ) : ℚ) := by
    rw [hexponent,powi2,if_neg (by omega),if_neg (by omega),zpow_natCast]
    push_cast
    rfl
  have hsmall : ¬(2 : ℚ)^64 ≤ ((2^(failures.toNat-1) : ℕ) : ℚ) := by
    have hlt : 2^(failures.toNat-1) < 2^64 := Nat.pow_lt_pow_right (by omega) (by omega)
    exact_mod_cast Nat.not_le.mpr hlt
  have hround : roundTiesEven (((2^(failures.toNat-1) : ℕ) : ℚ)*10^9)=
      2^(failures.toNat-1)*10^9 := by
    have h := roundTiesEven_natCast (2^(failures.toNat-1)*10^9)
    push_cast at h ⊢
    exact h
  unfold backoffTime
  rw [hpower,mulF64_initialInterval,if_neg hsmall,hround,Option.map_some]
  simp only [maxInterval,fromSecs,Option.some.injEq]
  exact (Nat.mul_min_mul_right _ _ _)

/-- From the 65th failure on, up to the sign change of the cast, the product
is too large for a duration. -/
theorem backoffTime_panics {failures : UInt32} (hlow : 64 < failures.toNat)
    (hhigh : failures.toNat ≤ 2^31) : backoffTime failures=none := by
  have hexponent : backoffExponent failures=((failures.toNat-1 : ℕ) : ℤ) := by
    rw [backoffExponent_small (by omega) hhigh]
    omega
  unfold backoffTime
  rw [hexponent,powi2]
  split
  · rfl
  · rw [if_neg (by omega),zpow_natCast,mulF64_initialInterval,if_pos]
    · rfl
    · exact pow_le_pow_right₀ (by norm_num) (by omega)

/-- Small counters do not wrap. -/
theorem toNat_add_one {failures : UInt32} (h : failures.toNat ≤ 64) :
    (failures+1).toNat=failures.toNat+1 := by
  rw [UInt32.toNat_add]
  change (failures.toNat+1)%2^32=failures.toNat+1
  omega

/-- Up to the 64th failure the branch counts it and sleeps as intended. -/
theorem failureBranch_of_lt {failures : UInt32} (h : failures.toNat < 64) :
    failureBranch failures=some (failures+1,fromSecs (min (2^failures.toNat) 60)) := by
  have hnat := toNat_add_one (Nat.le_of_lt h)
  have hsleep := @backoffTime_of_le (failures+1) (by omega) (by omega)
  rw [hnat,Nat.add_sub_cancel] at hsleep
  rw [failureBranch_eq,hsleep,Option.map_some]

/-- The 65th failure panics. -/
theorem failureBranch_at_64 {failures : UInt32} (h : failures.toNat=64) :
    failureBranch failures=none := by
  have hnat := toNat_add_one (Nat.le_of_eq h)
  rw [failureBranch_eq,backoffTime_panics (by omega) (by omega),Option.map_none]

/-- Up to 64 failures the outage goes on with the exact counter. -/
theorem outage_of_le {attempts : ℕ} (h : attempts+1 ≤ 64) :
    outage (attempts+1)=
      some (UInt32.ofNat (attempts+1),fromSecs (min (2^attempts) 60)) := by
  induction attempts with
  | zero => exact failureBranch_of_lt (by decide)
  | succ attempts ih =>
    have hnat : (UInt32.ofNat (attempts+1)).toNat=attempts+1 := by
      rw [UInt32.toNat_ofNat']
      omega
    have hcounter : UInt32.ofNat (attempts+1)+1=UInt32.ofNat (attempts+1+1) := by
      rw [←UInt32.toNat_inj,toNat_add_one (by omega),hnat,UInt32.toNat_ofNat']
      omega
    rw [outage,ih (by omega),Option.bind_some,failureBranch_of_lt (by rw [hnat]; omega),hnat,
      hcounter]

/-- The 65th consecutive failure ends the task, and with it the outage loop. -/
theorem outage_panics (later : ℕ) : outage (65+later)=none := by
  induction later with
  | zero =>
    change (outage (63+1)).bind _=none
    rw [outage_of_le (by omega),Option.bind_some]
    exact failureBranch_at_64 (by decide)
  | succ later ih =>
    change (outage (65+later)).bind _=none
    rw [ih,Option.bind_none]

/-- The manager task survives its first consecutive failures with the capped
exponential sleep after each of them exactly as long as there are at most 64. -/
theorem outage_survives_iff (attempts : ℕ) (hpos : 1 ≤ attempts) :
    outage attempts=some (UInt32.ofNat attempts,fromSecs (min (2^(attempts-1)) 60)) ↔
      attempts ≤ 64 := by
  constructor
  · intro h
    by_contra hlarge
    have hsplit : attempts=65+(attempts-65) := by omega
    rw [hsplit,outage_panics] at h
    cases h
  · intro h
    obtain ⟨previous,rfl⟩ : ∃ previous,attempts=previous+1 := ⟨attempts-1,by omega⟩
    exact outage_of_le h

theorem outage_survives_sixtyFour :
    outage 64=some (UInt32.ofNat 64,fromSecs (min (2^(64-1)) 60)) ↔ 64 ≤ 64 :=
  outage_survives_iff 64 (by decide)

/-- At the 65th failure the claimed minute of sleep is a panic instead. -/
theorem outage_ends_at_65 :
    ¬outage 65=some (UInt32.ofNat 65,fromSecs (min (2^(65-1)) 60)) ∧ outage 65=none := by
  have hnone := outage_panics 0
  exact ⟨fun h => (by rw [hnone] at h; cases h),hnone⟩

end SteamHandler.Backoff
