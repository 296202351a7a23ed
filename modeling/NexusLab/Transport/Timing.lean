import Mathlib.Data.Rat.Floor
import NexusLab.Transport.Link

/-! # The serialization delay

The delay of a chunk is its number of bit nanoseconds over the bandwidth, rounded up.  The product
does not fit into a word, so the source divides first and multiplies the remainder bit by bit; the
loop is a long division, and none of its operations leaves the range of a word. -/

namespace NexusLab.Transport

/-! ## Operations that may not wrap -/

def exactAdd (a b : Nat) : Option Nat := if a + b ≤ maxU64 then some (a + b) else none

def exactSub (a b : Nat) : Option Nat := if b ≤ a then some (a - b) else none

def exactMul (a b : Nat) : Option Nat := if a * b ≤ maxU64 then some (a * b) else none

/-- Doubling in a step of the loop, which fails as soon as an operation would wrap. -/
def exactDouble (product : FractionProduct) (result : DivisionResult) : Option DivisionResult := do
  let quotient ← exactMul result.quotient 2
  let toDenominator ← exactSub product.denominator result.remainder
  if result.remainder ≥ toDenominator then
    return ⟨← exactAdd quotient 1, ← exactSub result.remainder toDenominator⟩
  else return ⟨quotient, ← exactMul result.remainder 2⟩

/-- Adding the numerator, likewise. -/
def exactAddNumerator (product : FractionProduct) (doubled : DivisionResult) :
    Option DivisionResult := do
  let complement ← exactSub product.denominator product.numerator
  if doubled.remainder ≥ complement then
    return ⟨← exactAdd doubled.quotient 1, ← exactSub doubled.remainder complement⟩
  else return ⟨doubled.quotient, ← exactAdd doubled.remainder product.numerator⟩

def exactStep (product : FractionProduct) (result : DivisionResult) (bit : Nat) :
    Option DivisionResult := do
  let doubled ← exactDouble product result
  if product.multiplier.testBit bit = false then return doubled
  else exactAddNumerator product doubled

def exactFraction (product : FractionProduct) : Option DivisionResult :=
  (List.range 64).reverse.foldlM (exactStep product) ⟨0, 0⟩

/-- The delay, computed so that an operation that would wrap makes the whole computation fail. -/
def exactDelay (bytes : ByteCount) (bandwidth : BitsPerSecond) : Option (Option SimDurationNs) := do
  if bytes = 0 ∨ bandwidth = 0 then return none
  else
    let wholeSeconds := bytes / bandwidth
    if wholeSeconds > maxU64 / bitNanosecondsPerByte then return none
    else
      let nanoseconds ← exactMul wholeSeconds bitNanosecondsPerByte
      let fractional ← exactFraction ⟨bytes % bandwidth, bitNanosecondsPerByte, bandwidth⟩
      -- the room that the seconds leave
      if fractional.quotient > (← exactSub maxU64 nanoseconds) then return none
      else
        let nanoseconds ← exactAdd nanoseconds fractional.quotient
        if fractional.remainder ≠ 0 then
          if nanoseconds = maxU64 then return none else return some (← exactAdd nanoseconds 1)
        else return some nanoseconds

/-! ## The loop -/

/-- What the loop has divided once it has seen the bits from `bit` on. -/
structure Divided (product : FractionProduct) (bit : Nat) (result : DivisionResult) : Prop where
  equation : result.quotient * product.denominator + result.remainder =
    product.numerator * (product.multiplier >>> bit)
  small : result.remainder < product.denominator

/-- The fractions the source multiplies: a proper one, of words. -/
structure FractionProduct.Proper (product : FractionProduct) : Prop where
  proper : product.numerator < product.denominator
  denominator : product.denominator ≤ maxU64
  multiplier : product.multiplier ≤ maxU64

/-- A part of the multiplier bounds the quotient. -/
theorem quotient_le {n d m q r : Nat} (proper : n < d) (equation : q * d + r = n * m) : q ≤ m := by
  have below : q * d ≤ m * d := by
    calc q * d ≤ n * m := by omega
      _ ≤ d * m := Nat.mul_le_mul_right m (Nat.le_of_lt proper)
      _ = m * d := Nat.mul_comm d m
  exact Nat.le_of_mul_le_mul_right below (by omega)

theorem shiftRight_succ_double (m bit : Nat) :
    m >>> bit = 2 * (m >>> (bit + 1)) + (m.testBit bit).toNat := by
  have low : (m >>> bit) % 2 = (m.testBit bit).toNat := by
    rw [Nat.testBit_eq_decide_div_mod_eq, Nat.shiftRight_eq_div_pow]
    rcases Nat.mod_two_eq_zero_or_one (m / 2 ^ bit) with zero | one
    · simp [zero]
    · simp [one]
  rw [Nat.shiftRight_succ]
  omega

theorem exactAdd_eq {a b : Nat} (fits : a + b ≤ maxU64) :
    exactAdd a b = some (a + b) ∧ U64.add a b = a + b :=
  ⟨if_pos fits, U64.add_eq (Nat.lt_of_le_of_lt fits (by decide))⟩

theorem exactSub_eq {a b : Nat} (le : b ≤ a) (fits : a ≤ maxU64) :
    exactSub a b = some (a - b) ∧ U64.sub a b = a - b :=
  ⟨if_pos le, U64.sub_eq le (Nat.lt_of_le_of_lt fits (by decide))⟩

theorem exactMul_eq {a b : Nat} (fits : a * b ≤ maxU64) :
    exactMul a b = some (a * b) ∧ U64.mul a b = a * b :=
  ⟨if_pos fits, U64.mul_eq (Nat.lt_of_le_of_lt fits (by decide))⟩

/-- Doubling, the first half of a step. -/
def doubledResult (product : FractionProduct) (result : DivisionResult) : DivisionResult :=
  if result.remainder ≥ product.denominator - result.remainder then
    ⟨result.quotient * 2 + 1, result.remainder - (product.denominator - result.remainder)⟩
  else ⟨result.quotient * 2, result.remainder * 2⟩

/-- Adding the numerator, the second half. -/
def addedResult (product : FractionProduct) (doubled : DivisionResult) : DivisionResult :=
  if doubled.remainder ≥ product.denominator - product.numerator then
    ⟨doubled.quotient + 1, doubled.remainder - (product.denominator - product.numerator)⟩
  else ⟨doubled.quotient, doubled.remainder + product.numerator⟩

section Step

variable {product : FractionProduct} {result : DivisionResult} {bit : Nat}

theorem doubledResult_equation (small : result.remainder < product.denominator) :
    (doubledResult product result).quotient * product.denominator +
        (doubledResult product result).remainder =
      2 * (result.quotient * product.denominator + result.remainder) ∧
      (doubledResult product result).remainder < product.denominator := by
  unfold doubledResult
  split
  · refine ⟨?_, by simp only; omega⟩
    simp only [Nat.add_mul, Nat.one_mul, Nat.mul_right_comm _ 2]
    omega
  · refine ⟨?_, by simp only; omega⟩
    simp only [Nat.mul_right_comm _ 2]
    omega

theorem addedResult_equation (proper : product.numerator < product.denominator)
    (small : result.remainder < product.denominator) :
    (addedResult product result).quotient * product.denominator +
        (addedResult product result).remainder =
      result.quotient * product.denominator + result.remainder + product.numerator ∧
      (addedResult product result).remainder < product.denominator := by
  unfold addedResult
  split
  · refine ⟨?_, by simp only; omega⟩
    simp only [Nat.add_mul, Nat.one_mul]
    omega
  · refine ⟨?_, by simp only; omega⟩
    simp only
    omega

theorem exactDouble_eq (small : result.remainder < product.denominator)
    (denominator : product.denominator ≤ maxU64)
    (fits : (doubledResult product result).quotient ≤ maxU64) :
    exactDouble product result = some (doubledResult product result) ∧
      (let quotient := U64.mul result.quotient 2
       let toDenominator := U64.sub product.denominator result.remainder
       if result.remainder ≥ toDenominator then
         (⟨U64.add quotient 1, U64.sub result.remainder toDenominator⟩ : DivisionResult)
       else ⟨quotient, U64.mul result.remainder 2⟩) = doubledResult product result := by
  obtain ⟨toDenominator, toDenominator'⟩ := exactSub_eq (Nat.le_of_lt small) denominator
  unfold doubledResult at fits ⊢
  unfold exactDouble
  by_cases carry : result.remainder ≥ product.denominator - result.remainder
  · rw [if_pos carry] at fits ⊢
    simp only at fits
    obtain ⟨twice, twice'⟩ := exactMul_eq (a := result.quotient) (b := 2) (by omega)
    obtain ⟨next, next'⟩ := exactAdd_eq fits
    obtain ⟨rest, rest'⟩ := exactSub_eq carry (by omega)
    simp [twice, toDenominator, carry, next, rest, twice', toDenominator', next', rest']
  · rw [if_neg carry] at fits ⊢
    simp only at fits
    obtain ⟨twice, twice'⟩ := exactMul_eq fits
    obtain ⟨rest, rest'⟩ := exactMul_eq (a := result.remainder) (b := 2) (by omega)
    simp only [twice, toDenominator, rest, twice', toDenominator', rest', if_neg carry]
    simp [carry]

theorem exactAddNumerator_eq (proper : product.Proper)
    (small : result.remainder < product.denominator)
    (fits : (addedResult product result).quotient ≤ maxU64) :
    exactAddNumerator product result = some (addedResult product result) ∧
      (let complement := U64.sub product.denominator product.numerator
       if result.remainder ≥ complement then
         (⟨U64.add result.quotient 1, U64.sub result.remainder complement⟩ : DivisionResult)
       else ⟨result.quotient, U64.add result.remainder product.numerator⟩) =
        addedResult product result := by
  obtain ⟨complement, complement'⟩ :=
    exactSub_eq (Nat.le_of_lt proper.proper) proper.denominator
  have denominator := proper.denominator
  unfold addedResult at fits ⊢
  unfold exactAddNumerator
  by_cases carry : result.remainder ≥ product.denominator - product.numerator
  · rw [if_pos carry] at fits ⊢
    simp only at fits
    obtain ⟨next, next'⟩ := exactAdd_eq fits
    obtain ⟨rest, rest'⟩ := exactSub_eq carry (by omega)
    simp [complement, carry, next, rest, complement', next', rest']
  · rw [if_neg carry] at fits ⊢
    obtain ⟨rest, rest'⟩ := exactAdd_eq (a := result.remainder) (b := product.numerator) (by omega)
    simp [complement, carry, rest, complement', rest']

/-- One more bit of the multiplier, without any operation that wraps. -/
theorem Divided.step (proper : product.Proper) (divided : Divided product (bit + 1) result) :
    exactStep product result bit = some (multiplyFractionStep product result bit) ∧
      Divided product bit (multiplyFractionStep product result bit) := by
  obtain ⟨equation, small⟩ := divided
  have shifted := shiftRight_succ_double product.multiplier bit
  have bounded : product.multiplier >>> bit ≤ maxU64 :=
    (Nat.shiftRight_le _ _).trans proper.multiplier
  obtain ⟨doubled, doubledSmall⟩ := doubledResult_equation small
  rw [equation, Nat.mul_left_comm] at doubled
  have doubledLe := quotient_le proper.proper doubled
  obtain ⟨exact₁, wrapped₁⟩ := exactDouble_eq small proper.denominator (by omega)
  unfold exactStep multiplyFractionStep
  dsimp only at wrapped₁ ⊢
  rw [exact₁, wrapped₁]
  cases set : product.multiplier.testBit bit with
  | false =>
    simp only [set, Bool.toNat_false, Nat.add_zero] at shifted
    rw [if_pos rfl]
    refine ⟨rfl, ?_, doubledSmall⟩
    rw [doubled, shifted]
  | true =>
    rw [set] at shifted
    obtain ⟨added, addedSmall⟩ := addedResult_equation proper.proper doubledSmall
    have total : product.numerator * (2 * product.multiplier >>> (bit + 1)) + product.numerator =
        product.numerator * (product.multiplier >>> bit) := by
      rw [shifted, Bool.toNat_true, Nat.mul_add, Nat.mul_one]
    rw [doubled, total] at added
    have addedLe := quotient_le proper.proper added
    obtain ⟨exact₂, wrapped₂⟩ := exactAddNumerator_eq proper doubledSmall (by omega)
    dsimp only at wrapped₂
    simp only [Bool.true_eq_false, if_false, wrapped₂]
    exact ⟨exact₂, added, addedSmall⟩

/-- The whole loop is the division with remainder. -/
theorem multiplyFraction_eq (proper : product.Proper) :
    exactFraction product = some (multiplyFraction product) ∧
      Divided product 0 (multiplyFraction product) := by
  have loop : ∀ (bits : Nat) (result : DivisionResult), Divided product bits result →
      (List.range bits).reverse.foldlM (exactStep product) result =
          some ((List.range bits).reverse.foldl (multiplyFractionStep product) result) ∧
        Divided product 0 ((List.range bits).reverse.foldl (multiplyFractionStep product) result) := by
    intro bits
    induction bits with
    | zero => exact fun result divided => ⟨rfl, divided⟩
    | succ bits ih =>
      intro result divided
      obtain ⟨exact, next⟩ := divided.step proper
      rw [List.range_succ, List.reverse_append, List.reverse_singleton, List.singleton_append,
        List.foldlM_cons, exact, List.foldl_cons]
      exact ih _ next
  have start : Divided product 64 ⟨0, 0⟩ := by
    have gone : product.multiplier >>> 64 = 0 := by
      rw [Nat.shiftRight_eq_div_pow]
      exact Nat.div_eq_of_lt (Nat.lt_of_le_of_lt proper.multiplier (by decide))
    exact ⟨by simp [gone], Nat.lt_of_le_of_lt (Nat.zero_le _) proper.proper⟩
  unfold exactFraction multiplyFraction
  exact loop 64 ⟨0, 0⟩ start

end Step

/-! ## The delay -/

/-- Rounding up a division with a remainder. -/
theorem ceil_div_eq {total divisor quotient remainder : Nat}
    (equation : total = quotient * divisor + remainder) (small : remainder < divisor) :
    ⌈(total : ℚ) / divisor⌉₊ = if remainder = 0 then quotient else quotient + 1 := by
  have positive : (0 : ℚ) < divisor := by exact_mod_cast Nat.lt_of_le_of_lt (Nat.zero_le _) small
  have ceil_le : ∀ n : Nat, ⌈(total : ℚ) / divisor⌉₊ ≤ n ↔ total ≤ n * divisor := by
    intro n
    rw [Nat.ceil_le, div_le_iff₀ positive]
    exact_mod_cast Iff.rfl
  split
  · rename_i none
    refine Nat.le_antisymm ((ceil_le _).mpr (by omega)) ?_
    by_contra below
    have fits := (ceil_le (quotient - 1)).mp (by omega)
    have step : (quotient - 1) * divisor + divisor = quotient * divisor := by
      rw [← Nat.succ_mul]
      congr 1
      omega
    omega
  · rename_i some
    refine Nat.le_antisymm ((ceil_le _).mpr ?_) ?_
    · rw [Nat.add_mul, Nat.one_mul]
      omega
    · by_contra below
      have fits := (ceil_le quotient).mp (by omega)
      omega

/-- The delay in nanoseconds as a rational number, rounded up. -/
noncomputable def exactNanoseconds (bytes : ByteCount) (bandwidth : BitsPerSecond) : Nat :=
  ⌈(bytes * 8 * 10 ^ 9 : ℚ) / bandwidth⌉₊

section Delay

variable {bytes bandwidth : Nat}

theorem exactNanoseconds_eq (positive : 0 < bandwidth) :
    exactNanoseconds bytes bandwidth =
      bytes / bandwidth * bitNanosecondsPerByte +
        (if bytes % bandwidth * bitNanosecondsPerByte % bandwidth = 0 then
          bytes % bandwidth * bitNanosecondsPerByte / bandwidth
        else bytes % bandwidth * bitNanosecondsPerByte / bandwidth + 1) := by
  have whole := Nat.div_add_mod' bytes bandwidth
  have fraction := Nat.div_add_mod' (bytes % bandwidth * bitNanosecondsPerByte) bandwidth
  have equation : bytes * bitNanosecondsPerByte =
      (bytes / bandwidth * bitNanosecondsPerByte +
        bytes % bandwidth * bitNanosecondsPerByte / bandwidth) * bandwidth +
        bytes % bandwidth * bitNanosecondsPerByte % bandwidth := by
    calc bytes * bitNanosecondsPerByte
        = (bytes / bandwidth * bandwidth + bytes % bandwidth) * bitNanosecondsPerByte := by
          rw [whole]
      _ = bytes / bandwidth * bitNanosecondsPerByte * bandwidth +
          bytes % bandwidth * bitNanosecondsPerByte := by ring
      _ = _ := by
        rw [Nat.add_mul, Nat.add_assoc, fraction]
  have ceiling := ceil_div_eq equation (Nat.mod_lt _ positive)
  have cast : ((bytes * bitNanosecondsPerByte : Nat) : ℚ) = bytes * 8 * 10 ^ 9 := by
    rw [bitNanosecondsPerByte]
    push_cast
    ring
  rw [cast] at ceiling
  rw [exactNanoseconds, ceiling]
  split <;> omega

/-- The source's fraction divides exactly. -/
theorem fractional_eq (positive : 0 < bandwidth) (fits : bandwidth ≤ maxU64) :
    exactFraction ⟨bytes % bandwidth, bitNanosecondsPerByte, bandwidth⟩ =
        some (multiplyFraction ⟨bytes % bandwidth, bitNanosecondsPerByte, bandwidth⟩) ∧
      multiplyFraction ⟨bytes % bandwidth, bitNanosecondsPerByte, bandwidth⟩ =
        ⟨bytes % bandwidth * bitNanosecondsPerByte / bandwidth,
          bytes % bandwidth * bitNanosecondsPerByte % bandwidth⟩ := by
  have proper : FractionProduct.Proper ⟨bytes % bandwidth, bitNanosecondsPerByte, bandwidth⟩ :=
    ⟨Nat.mod_lt _ positive, fits, show bitNanosecondsPerByte ≤ maxU64 by decide⟩
  obtain ⟨exact, equation, small⟩ := multiplyFraction_eq proper
  refine ⟨exact, ?_⟩
  generalize multiplyFraction ⟨bytes % bandwidth, bitNanosecondsPerByte, bandwidth⟩ = result
    at equation small
  simp only [Nat.shiftRight_zero] at equation small
  obtain ⟨quotient, remainder⟩ := result
  simp only [DivisionResult.mk.injEq] at equation small ⊢
  rw [← equation, Nat.add_comm, Nat.add_mul_div_right _ _ positive, Nat.add_mul_mod_self_right,
    Nat.div_eq_of_lt small, Nat.mod_eq_of_lt small, Nat.zero_add]
  exact ⟨rfl, rfl⟩

/-- Bytes over some bandwidth take as long as their exact delay, if that fits into a word. -/
theorem serializationDelay_eq (some_bytes : bytes ≠ 0) (positive : 0 < bandwidth)
    (fits : bandwidth ≤ maxU64) :
    serializationDelay bytes bandwidth =
        (if exactNanoseconds bytes bandwidth ≤ maxU64 then some (exactNanoseconds bytes bandwidth)
        else none) ∧
      exactDelay bytes bandwidth = some (serializationDelay bytes bandwidth) := by
  obtain ⟨exactly, fraction⟩ := @fractional_eq bytes bandwidth positive fits
  rw [fraction] at exactly
  rw [exactNanoseconds_eq positive]
  unfold serializationDelay exactDelay
  have defined : ¬ (bytes = 0 ∨ bandwidth = 0) := by omega
  simp only [if_neg defined, fraction, exactly]
  generalize bytes % bandwidth * bitNanosecondsPerByte / bandwidth = quotient
  generalize bytes % bandwidth * bitNanosecondsPerByte % bandwidth = remainder
  have whole := Nat.div_lt_iff_lt_mul (x := maxU64) (y := bytes / bandwidth)
    (show 0 < bitNanosecondsPerByte by decide)
  have adds : ∀ a b, a + b ≤ maxU64 → exactAdd a b = some (a + b) := fun _ _ fits => if_pos fits
  have subs : ∀ a b, b ≤ a → exactSub a b = some (a - b) := fun _ _ fits => if_pos fits
  have muls : ∀ a b, a * b ≤ maxU64 → exactMul a b = some (a * b) := fun _ _ fits => if_pos fits
  -- what follows holds for any limit, and must not compute with this one
  generalize maxU64 = limit at whole adds muls ⊢
  by_cases large : bytes / bandwidth > limit / bitNanosecondsPerByte
  · have beyond := whole.mp large
    rw [if_pos large, if_pos large, if_neg (by split <;> omega)]
    exact ⟨rfl, rfl⟩
  have within := Nat.not_lt.mp (mt whole.mpr large)
  rw [if_neg large, if_neg large, muls _ _ within]
  generalize bytes / bandwidth * bitNanosecondsPerByte = nanoseconds at within
  rw [Option.bind_eq_bind, Option.bind_some, Option.bind_eq_bind, Option.bind_some,
    subs _ _ within, Option.bind_some]
  by_cases excess : quotient > limit - nanoseconds
  · rw [if_pos excess, if_pos excess, if_neg (by split <;> omega)]
    exact ⟨rfl, rfl⟩
  have room : nanoseconds + quotient ≤ limit := by omega
  rw [if_neg excess, if_neg excess, adds _ _ room, Option.bind_some]
  by_cases even : remainder = 0
  · simp [even, room]
  simp only [ne_eq, even, not_false_eq_true, if_true, if_false]
  by_cases last : nanoseconds + quotient = limit
  · rw [if_pos last, if_pos last, if_neg (by omega)]
    exact ⟨rfl, rfl⟩
  · have next : nanoseconds + quotient + 1 ≤ limit := by omega
    have sum : nanoseconds + (quotient + 1) = nanoseconds + quotient + 1 := by omega
    rw [if_neg last, if_neg last, sum, if_pos next, adds _ _ next, Option.bind_some]
    exact ⟨rfl, rfl⟩

theorem exactNanoseconds_pos (some_bytes : bytes ≠ 0) (positive : 0 < bandwidth) :
    1 ≤ exactNanoseconds bytes bandwidth := by
  have bits : (0 : ℚ) < bytes * 8 * 10 ^ 9 := by
    have : (0 : ℚ) < bytes := by exact_mod_cast Nat.pos_of_ne_zero some_bytes
    positivity
  have divisor : (0 : ℚ) < bandwidth := by exact_mod_cast positive
  exact Nat.ceil_pos.mpr (div_pos bits divisor)

/-- The delay is the exact number of nanoseconds rounded up, unless it is undefined or does not fit
into a word; and no operation on the way wraps. -/
theorem serialization_delay_exact (fits : bandwidth ≤ maxU64) :
    (serializationDelay bytes bandwidth = none ↔
      bytes = 0 ∨ bandwidth = 0 ∨ maxU64 < exactNanoseconds bytes bandwidth) ∧
    (∀ delay, serializationDelay bytes bandwidth = some delay →
      delay = exactNanoseconds bytes bandwidth ∧ 1 ≤ delay) ∧
    exactDelay bytes bandwidth = some (serializationDelay bytes bandwidth) := by
  by_cases undefined : bytes = 0 ∨ bandwidth = 0
  · have isNone : serializationDelay bytes bandwidth = none := if_pos undefined
    have exactly : exactDelay bytes bandwidth = some none := if_pos undefined
    rw [isNone, exactly, ← or_assoc]
    refine ⟨iff_of_true rfl (.inl undefined), ?_, rfl⟩
    intro delay impossible
    cases impossible
  · obtain ⟨some_bytes, some_bandwidth⟩ := not_or.mp undefined
    have positive := Nat.pos_of_ne_zero some_bandwidth
    obtain ⟨value, exactly⟩ := serializationDelay_eq some_bytes positive fits
    have atLeast := exactNanoseconds_pos some_bytes positive
    refine ⟨?_, ?_, exactly⟩
    · rw [value]
      simp [some_bytes, some_bandwidth]
    · intro delay isDelay
      rw [value] at isDelay
      split at isDelay
      · cases isDelay
        exact ⟨rfl, atLeast⟩
      · cases isDelay

theorem serialization_delay_exact_frame :
    serializationDelay 1048576 400000000000 = some 20972 ∧
      exactNanoseconds 1048576 400000000000 = 20972 := by
  have delay : serializationDelay 1048576 400000000000 = some 20972 := by decide +kernel
  have exactly := @serialization_delay_exact 1048576 400000000000 (by decide)
  exact ⟨delay, (exactly.2.1 20972 delay).1.symm⟩

end Delay

end NexusLab.Transport
