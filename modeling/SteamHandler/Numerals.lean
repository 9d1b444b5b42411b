import Mathlib

/-!
# Numerals with leading zeros, and their change of base

A numeral is a list of digits, most significant first. Leading zeros belong to
it: they do not change its value, so a numeral is its value together with
their number. A change of base keeps both, which is why it can be undone and
why it reaches every numeral of the other base.
-/

namespace SteamHandler.Numerals

/-- Every digit is one of the base. -/
def IsNumeral (base : ℕ) (numeral : List ℕ) : Prop := ∀ digit∈numeral,digit < base

/-- How many zeros the numeral begins with. -/
def leadingZeros (numeral : List ℕ) : ℕ := (numeral.takeWhile (·==0)).length

/-- The number that the digits stand for. -/
def value (base : ℕ) (numeral : List ℕ) : ℕ := Nat.ofDigits base numeral.reverse

/-- The numeral of a value behind some leading zeros. -/
def numeralOf (base zeros number : ℕ) : List ℕ :=
  List.replicate zeros 0++(Nat.digits base number).reverse

/-- Write a numeral of one base in another one. -/
def changeBase (source target : ℕ) (numeral : List ℕ) : List ℕ :=
  numeralOf target (leadingZeros numeral) (value source numeral)

section Values

variable (base : ℕ)

@[simp] theorem value_nil : value base []=0 := rfl

/-- Appending a digit shifts the others by one place. -/
@[simp] theorem value_append_singleton (numeral : List ℕ) (digit : ℕ) :
    value base (numeral++[digit])=value base numeral*base+digit := by
  rw [value,List.reverse_append,List.reverse_singleton,List.singleton_append,Nat.ofDigits_cons,
    Nat.add_comm,Nat.mul_comm]
  rfl

/-- The value as a running total from the most significant digit. -/
theorem value_eq_foldl (numeral : List ℕ) :
    value base numeral=numeral.foldl (fun total digit => total*base+digit) 0 := by
  induction numeral using List.reverseRecOn with
  | nil => rfl
  | append_singleton numeral digit ih =>
    rw [value_append_singleton,List.foldl_append,←ih]
    rfl

/-- The front part of a numeral counts in places behind the rest. -/
theorem value_append (front rest : List ℕ) :
    value base (front++rest)=value base front*base^rest.length+value base rest := by
  rw [value,List.reverse_append,Nat.ofDigits_append,List.length_reverse,Nat.add_comm,Nat.mul_comm]
  rfl

theorem value_replicate_zero (count : ℕ) : value base (List.replicate count 0)=0 := by
  rw [value,List.reverse_replicate,Nat.ofDigits_replicate_zero]

/-- Leading zeros add nothing. -/
theorem value_numeralOf (zeros number : ℕ) : value base (numeralOf base zeros number)=number := by
  rw [numeralOf,value_append,value_replicate_zero,Nat.zero_mul,Nat.zero_add,value,
    List.reverse_reverse,Nat.ofDigits_digits]

/-- A numeral stays below the number of numerals of its length. -/
theorem value_lt {numeral : List ℕ} (hbase : 1 < base) (hnumeral : IsNumeral base numeral) :
    value base numeral < base^numeral.length := by
  have hdigits : ∀ digit∈numeral.reverse,digit < base :=
    fun digit hdigit => hnumeral digit (List.mem_reverse.mp hdigit)
  have hlt := Nat.ofDigits_lt_base_pow_length hbase hdigits
  rw [List.length_reverse] at hlt
  exact hlt

end Values

section Zeros

variable {base : ℕ}

theorem leadingZeros_replicate_append (zeros : ℕ) (rest : List ℕ) :
    leadingZeros (List.replicate zeros 0++rest)=zeros+leadingZeros rest := by
  induction zeros with
  | zero => rw [List.replicate_zero,List.nil_append,Nat.zero_add]
  | succ zeros ih =>
    have hcons : leadingZeros (0::(List.replicate zeros 0++rest))=
        leadingZeros (List.replicate zeros 0++rest)+1 := rfl
    rw [List.replicate_succ,List.cons_append,hcons,ih]
    omega

/-- The digits of a number do not begin with a zero. -/
theorem leadingZeros_digits (number : ℕ) :
    leadingZeros (Nat.digits base number).reverse=0 := by
  rcases Nat.eq_zero_or_pos number with rfl|hpos
  · rw [Nat.digits_zero]
    rfl
  · have hnonempty : Nat.digits base number≠[] :=
      Nat.digits_ne_nil_iff_ne_zero.mpr (Nat.pos_iff_ne_zero.mp hpos)
    have hlast : (Nat.digits base number).getLast hnonempty≠0 :=
      Nat.getLast_digit_ne_zero base (Nat.pos_iff_ne_zero.mp hpos)
    have hsplit := List.dropLast_append_getLast hnonempty
    rw [leadingZeros,←hsplit,List.reverse_append,List.reverse_singleton,List.singleton_append,
      List.takeWhile_cons_of_neg]
    · rfl
    · rw [beq_iff_eq]
      exact hlast

/-- The zeros asked for are the leading zeros. -/
theorem leadingZeros_numeralOf (zeros number : ℕ) :
    leadingZeros (numeralOf base zeros number)=zeros := by
  rw [numeralOf,leadingZeros_replicate_append,leadingZeros_digits,Nat.add_zero]

theorem isNumeral_numeralOf (hbase : 1 < base) (zeros number : ℕ) :
    IsNumeral base (numeralOf base zeros number) := by
  intro digit hdigit
  rcases List.mem_append.mp hdigit with hzero|hsignificant
  · have hdigitZero : digit=0 := (List.mem_replicate.mp hzero).2
    omega
  · exact Nat.digits_lt_base hbase (List.mem_reverse.mp hsignificant)

/-- A numeral is its leading zeros followed by the digits of its value. -/
theorem numeralOf_value (hbase : 1 < base) {numeral : List ℕ} (hnumeral : IsNumeral base numeral) :
    numeralOf base (leadingZeros numeral) (value base numeral)=numeral := by
  have hsplit : numeral.takeWhile (·==0)++numeral.dropWhile (·==0)=numeral :=
    List.takeWhile_append_dropWhile
  have hzeros : numeral.takeWhile (·==0)=List.replicate (leadingZeros numeral) 0 := by
    refine List.eq_replicate_of_mem fun digit hdigit => ?_
    have hzero : (digit==0)=true := List.mem_takeWhile_imp (p:=(·==0)) hdigit
    exact beq_iff_eq.mp hzero
  have hvalue : value base numeral=value base (numeral.dropWhile (·==0)) := by
    have hfull := value_append base (numeral.takeWhile (·==0)) (numeral.dropWhile (·==0))
    rw [hsplit,hzeros,value_replicate_zero,Nat.zero_mul,Nat.zero_add] at hfull
    exact hfull
  have hdigits : Nat.digits base (value base (numeral.dropWhile (·==0)))=
      (numeral.dropWhile (·==0)).reverse := by
    refine Nat.digits_ofDigits base hbase _ ?_ ?_
    · intro digit hdigit
      exact hnumeral digit ((List.dropWhile_sublist _).subset (List.mem_reverse.mp hdigit))
    · intro hnonempty
      rw [List.getLast_reverse]
      have hsome : numeral.dropWhile (·==0)≠[] :=
        fun hempty => hnonempty (by rw [hempty,List.reverse_nil])
      have hfirst : ((numeral.dropWhile (·==0)).head hsome==0)=false :=
        List.head_dropWhile_not (·==0) hsome
      exact beq_eq_false_iff_ne.mp hfirst
  rw [numeralOf,hvalue,hdigits,List.reverse_reverse,←hzeros,hsplit]

end Zeros

section Bases

variable {source target : ℕ}

theorem isNumeral_changeBase (htarget : 1 < target) (numeral : List ℕ) :
    IsNumeral target (changeBase source target numeral) := isNumeral_numeralOf htarget _ _

/-- A change of base can be undone. -/
theorem changeBase_changeBase (hsource : 1 < source) {numeral : List ℕ}
    (hnumeral : IsNumeral source numeral) :
    changeBase target source (changeBase source target numeral)=numeral := by
  have hzeros : leadingZeros (changeBase source target numeral)=leadingZeros numeral :=
    leadingZeros_numeralOf _ _
  have hvalue : value target (changeBase source target numeral)=value source numeral :=
    value_numeralOf target _ _
  rw [changeBase,hzeros,hvalue]
  exact numeralOf_value hsource hnumeral

end Bases

section Endings

variable {base : ℕ}

/-- A numeral without leading zero is at least the weight of its first place. -/
theorem pow_le_value {first : ℕ} (rest : List ℕ) (hfirst : first≠0) :
    base^rest.length ≤ value base (first::rest) := by
  have hvalue := value_append base [first] rest
  have hone : value base [first]=first := by
    rw [←List.nil_append [first],value_append_singleton,value_nil,Nat.zero_mul,Nat.zero_add]
  rw [List.singleton_append,hone] at hvalue
  have hweight : 1*base^rest.length ≤ first*base^rest.length :=
    Nat.mul_le_mul_right _ (Nat.pos_of_ne_zero hfirst)
  omega

/-- Whether a numeral ends in given digits, not beginning with a zero, is a
matter of the remainder of its value. -/
theorem suffix_iff_mod (hbase : 1 < base) {numeral ending : List ℕ}
    (hnumeral : IsNumeral base numeral) (hending : IsNumeral base ending)
    (hleading : ∀ first rest,ending=first::rest → first≠0) :
    ending<:+numeral ↔ value base numeral%base^ending.length=value base ending := by
  constructor
  · rintro ⟨front,rfl⟩
    rw [value_append,Nat.mul_add_mod_of_lt (value_lt base hbase hending)]
  · intro hmod
    have hlong : ending.length ≤ numeral.length := by
      by_contra hshort
      cases ending with
      | nil => exact hshort (Nat.zero_le _)
      | cons first rest =>
        have hrest : numeral.length ≤ rest.length := by
          rw [List.length_cons] at hshort
          omega
        have hsmall : value base numeral < base^rest.length :=
          lt_of_lt_of_le (value_lt base hbase hnumeral)
            (Nat.pow_le_pow_right (by omega) hrest)
        have hlarge : base^rest.length ≤ value base (first::rest) :=
          pow_le_value rest (hleading first rest rfl)
        have hle := Nat.mod_le (value base numeral) (base^(first::rest).length)
        omega
    have hsplit := List.take_append_drop (numeral.length-ending.length) numeral
    have hlength : (numeral.drop (numeral.length-ending.length)).length=ending.length := by
      rw [List.length_drop]
      omega
    have hback : IsNumeral base (numeral.drop (numeral.length-ending.length)) :=
      fun digit hdigit => hnumeral digit (List.mem_of_mem_drop hdigit)
    have hvalue : value base (numeral.drop (numeral.length-ending.length))=value base ending := by
      rw [←hmod]
      conv_rhs => rw [←hsplit,value_append,hlength]
      have hlt := value_lt base hbase hback
      rw [hlength] at hlt
      exact (Nat.mul_add_mod_of_lt hlt).symm
    refine ⟨numeral.take (numeral.length-ending.length),?_⟩
    have hsame : numeral.drop (numeral.length-ending.length)=ending := by
      refine List.reverse_injective (Nat.ofDigits_inj_of_len_eq hbase ?_ ?_ ?_ hvalue)
      · rw [List.length_reverse,List.length_reverse,hlength]
      · exact fun digit hdigit => hback digit (List.mem_reverse.mp hdigit)
      · exact fun digit hdigit => hending digit (List.mem_reverse.mp hdigit)
    rw [hsame] at hsplit
    exact hsplit

end Endings

end SteamHandler.Numerals
