import Mathlib.Algebra.Order.Field.Power
import Mathlib.Algebra.Order.Field.Rat
import Mathlib.Tactic.FieldSimp
import Mathlib.Tactic.Linarith
import Mathlib.Tactic.NormNum
import Mathlib.Tactic.Positivity
import Mathlib.Tactic.Ring
import LineScript.Number.Binary64

/-!
# Rounding to the nearest number

A magnitude stands for a rational number. The magnitude that is found for a quotient is one of those
that stand for the numbers nearest to it (`LineScript.Number.Binary64.abs_value_nearest_le`), and it
is infinite from the middle between the largest finite number and the next power of two on
(`LineScript.Number.Binary64.infinity_le_nearest_iff`).
-/

namespace LineScript.Number

/-- A quotient is rounded to a number at most half a unit away. -/
theorem roundQuotient_bounds (num : Nat) {den : Nat} (pos : 0 < den) :
    2 * (roundQuotient num den * den) ≤ 2 * num + den ∧
      2 * num ≤ 2 * (roundQuotient num den * den) + den := by
  have whole := Nat.div_add_mod' num den
  have part := Nat.mod_lt num pos
  unfold roundQuotient
  simp only []
  split
  next => omega
  next =>
    split
    next =>
      rw [Nat.add_mul]
      omega
    next =>
      rcases Nat.mod_two_eq_zero_or_one (num / den) with even | odd
      · rw [even, Nat.add_zero]
        omega
      · rw [odd, Nat.add_mul]
        omega

/-- An even number is reached by rounding from half a unit below it on. -/
theorem le_roundQuotient_iff {num den goal : Nat} (pos : 0 < den) (even : goal % 2 = 0) :
    goal ≤ roundQuotient num den ↔ 2 * (goal * den) ≤ 2 * num + den := by
  have whole := Nat.div_add_mod' num den
  have part := Nat.mod_lt num pos
  have multiples {first second : Nat} (le : first ≤ second) : first * den ≤ second * den :=
    Nat.mul_le_mul_right den le
  have next : (num / den + 1) * den = num / den * den + den := Nat.succ_mul _ _
  have second : (num / den + 2) * den = num / den * den + den + den := by
    rw [Nat.succ_mul, Nat.succ_mul]
  -- A goal beyond the next number is not reached. The next number is, from the half of the step on,
  -- or behind it if the number below is even, and so the next one is not.
  rcases Nat.lt_trichotomy goal (num / den + 1) with below | same | above
  · have reached := multiples (Nat.le_of_lt_succ below)
    have least : num / den ≤ roundQuotient num den := by
      unfold roundQuotient
      simp only []
      split
      · exact Nat.le_refl _
      · split <;> omega
    exact ⟨fun _ => by omega, fun _ => Nat.le_trans (Nat.le_of_lt_succ below) least⟩
  · rw [same, next]
    unfold roundQuotient
    simp only []
    split
    · exact ⟨by omega, by omega⟩
    · split
      · exact ⟨by omega, by omega⟩
      · exact ⟨by omega, by omega⟩
  · have missed : (num / den + 2) * den ≤ goal * den := multiples above
    have most : roundQuotient num den ≤ num / den + 1 := by
      unfold roundQuotient
      simp only []
      split
      · exact Nat.le_succ _
      · split <;> omega
    exact ⟨by omega, by omega⟩

/-- A scaled quotient is the quotient over a power of two. -/
theorem scaleQuotient_eq (num : Nat) {den : Nat} (pos : 0 < den) (scale : Int) :
    0 < (scaleQuotient num den scale).2 ∧
      ((scaleQuotient num den scale).1 : ℚ) / (scaleQuotient num den scale).2 =
        (num : ℚ) / den / 2 ^ scale := by
  unfold scaleQuotient
  simp only [Nat.pow_eq]
  split
  next negative =>
    have power : (2 : ℚ) ^ scale = ((2 : ℚ) ^ scale.natAbs)⁻¹ := by
      rw [← zpow_natCast, ← zpow_neg]
      congr 1
      omega
    refine ⟨pos, ?_⟩
    rw [power]
    push_cast
    field_simp
  next positive =>
    have power : (2 : ℚ) ^ scale = (2 : ℚ) ^ scale.natAbs := by
      rw [← zpow_natCast]
      congr 1
      omega
    refine ⟨Nat.mul_pos pos (Nat.two_pow_pos _), ?_⟩
    rw [power]
    push_cast
    field_simp

namespace Binary64

/-- The number that a magnitude stands for, if it is finite. -/
def value (magnitude : Nat) : ℚ :=
  (significand ⟨false, magnitude⟩ : ℚ) * 2 ^ scale ⟨false, magnitude⟩

/-- The number that a magnitude stands for, from its exponent and its significand. -/
theorem value_eq {exponent significand : Nat} (few : significand ≤ 2 ^ 53)
    (normal : 0 < exponent → 2 ^ 52 ≤ significand) :
    value (exponent * 2 ^ 52 + significand) = significand * 2 ^ (exponent - 1074 : Int) := by
  unfold value Binary64.significand scale
  simp only [Nat.pow_eq]
  by_cases small : significand < 2 ^ 52
  · have least : exponent = 0 := by omega
    have none : significand / 2 ^ 52 = 0 := Nat.div_eq_of_lt small
    rw [least, Nat.zero_mul, Nat.zero_add, if_pos small, none]
    norm_num
  · rw [if_neg (by omega)]
    by_cases full : significand = 2 ^ 53
    · have quotient : (exponent * 2 ^ 52 + significand) / 2 ^ 52 = exponent + 2 := by omega
      have rest : (exponent * 2 ^ 52 + significand) % 2 ^ 52 = 0 := by omega
      have power : ((max 1 (exponent + 2) : Nat) : Int) - 1075 = exponent - 1074 + 1 := by
        omega
      rw [quotient, rest, power, full, zpow_add_one₀ two_ne_zero]
      push_cast
      ring
    · have quotient : (exponent * 2 ^ 52 + significand) / 2 ^ 52 = exponent + 1 := by omega
      have rest : 2 ^ 52 + (exponent * 2 ^ 52 + significand) % 2 ^ 52 = significand := by omega
      have power : ((max 1 (exponent + 1) : Nat) : Int) - 1075 = exponent - 1074 := by
        omega
      rw [quotient, rest, power]

/-- Every magnitude is made of an exponent and a significand. -/
theorem exists_parts (magnitude : Nat) :
    ∃ exponent significand, magnitude = exponent * 2 ^ 52 + significand ∧
      significand < 2 ^ 53 ∧ (0 < exponent → 2 ^ 52 ≤ significand) := by
  by_cases small : magnitude < 2 ^ 52
  · exact ⟨0, magnitude, by omega, by omega, by omega⟩
  · exact ⟨magnitude / 2 ^ 52 - 1, 2 ^ 52 + magnitude % 2 ^ 52, by omega, by omega, by omega⟩

/-- A positive number lies between two neighbouring powers of two, at the logarithm. -/
theorem pow_log2_le {num : Nat} (positive : num ≠ 0) :
    (2 : ℚ) ^ (num.log2 : Int) ≤ num ∧ (num : ℚ) < 2 ^ (num.log2 + 1 : Int) := by
  have lower := Nat.log2_self_le positive
  have upper : num < 2 ^ (num.log2 + 1) := Nat.lt_log2_self
  constructor
  · rw [zpow_natCast]
    exact_mod_cast lower
  · have power : (2 : ℚ) ^ (num.log2 + 1 : Int) = ((2 ^ (num.log2 + 1) : Nat) : ℚ) := by
      push_cast
      exact_mod_cast zpow_natCast (2 : ℚ) (num.log2 + 1)
    rw [power]
    exact_mod_cast upper

/-- The first guess of the exponent is right or one too large. -/
theorem guess_bounds {num den : Nat} (positive : num ≠ 0) (pos : den ≠ 0) :
    (2 : ℚ) ^ 51 < (num : ℚ) / den / 2 ^ ((num.log2 : Int) - den.log2 - 52) ∧
      (num : ℚ) / den / 2 ^ ((num.log2 : Int) - den.log2 - 52) < 2 ^ 53 := by
  obtain ⟨lower, upper⟩ := pow_log2_le positive
  obtain ⟨lower', upper'⟩ := pow_log2_le pos
  have denominator : (0 : ℚ) < den := by exact_mod_cast Nat.pos_of_ne_zero pos
  have unit : (0 : ℚ) < 2 ^ ((num.log2 : Int) - den.log2 - 52) := by positivity
  constructor
  · rw [lt_div_iff₀ unit, lt_div_iff₀ denominator]
    calc
      (2 : ℚ) ^ 51 * 2 ^ ((num.log2 : Int) - den.log2 - 52) * den
          < 2 ^ 51 * 2 ^ ((num.log2 : Int) - den.log2 - 52) * 2 ^ (den.log2 + 1 : Int) := by
            gcongr
      _ = 2 ^ (num.log2 : Int) := by
            rw [← zpow_natCast, ← zpow_add₀ two_ne_zero, ← zpow_add₀ two_ne_zero]
            congr 1
            push_cast
            ring
      _ ≤ num := lower
  · rw [div_lt_iff₀ unit, div_lt_iff₀ denominator]
    calc
      (num : ℚ) < 2 ^ (num.log2 + 1 : Int) := upper
      _ = 2 ^ 53 * 2 ^ ((num.log2 : Int) - den.log2 - 52) * 2 ^ (den.log2 : Int) := by
            rw [← zpow_natCast, ← zpow_add₀ two_ne_zero, ← zpow_add₀ two_ne_zero]
            congr 1
            push_cast
            ring
      _ ≤ 2 ^ 53 * 2 ^ ((num.log2 : Int) - den.log2 - 52) * den := by gcongr

/-- Corrected, the guess of the exponent leaves a significand with 53 bits. -/
theorem corrected_bounds {quotient : ℚ} {top bottom : Nat} {guess : Int} (pos : 0 < bottom)
    (scaled : (top : ℚ) / bottom = quotient / 2 ^ guess)
    (lower : 2 ^ 51 < quotient / 2 ^ guess) (upper : quotient / 2 ^ guess < 2 ^ 53) :
    2 ^ 52 ≤ quotient / 2 ^ (if top < 2 ^ 52 * bottom then guess - 1 else guess) ∧
      quotient / 2 ^ (if top < 2 ^ 52 * bottom then guess - 1 else guess) < 2 ^ 53 := by
  have positive : (0 : ℚ) < bottom := by exact_mod_cast pos
  by_cases less : top < 2 ^ 52 * bottom
  · have double : quotient / 2 ^ (guess - 1) = 2 * (quotient / 2 ^ guess) := by
      rw [zpow_sub_one₀ two_ne_zero]
      field_simp
    have below : (top : ℚ) / bottom < 2 ^ 52 := by
      rw [div_lt_iff₀ positive]
      exact_mod_cast less
    rw [if_pos less, double]
    rw [scaled] at below
    constructor <;> linarith
  · have above : 2 ^ 52 ≤ (top : ℚ) / bottom := by
      rw [le_div_iff₀ positive]
      exact_mod_cast Nat.le_of_not_lt less
    rw [if_neg less, ← scaled]
    rw [← scaled] at upper
    exact ⟨above, upper⟩

/-- The magnitude for a positive quotient is made of an exponent and of the quotient over the power
of two with it, rounded to a significand. -/
theorem exists_nearest_eq {num den : Nat} (positive : num ≠ 0) (pos : 0 < den) :
    ∃ exponent top bottom : Nat, 0 < bottom ∧
      (top : ℚ) / bottom = (num : ℚ) / den / 2 ^ (exponent - 1074 : Int) ∧
      top < 2 ^ 53 * bottom ∧ (0 < exponent → 2 ^ 52 * bottom ≤ top) ∧
      nearest num den = exponent * 2 ^ 52 + roundQuotient top bottom := by
  obtain ⟨lower, upper⟩ := guess_bounds positive pos.ne'
  obtain ⟨guessPos, guessed⟩ := scaleQuotient_eq num pos (num.log2 - den.log2 - 52)
  obtain ⟨lower, upper⟩ := corrected_bounds guessPos guessed lower upper
  generalize same : (if (scaleQuotient num den (num.log2 - den.log2 - 52)).1 <
      2 ^ 52 * (scaleQuotient num den (num.log2 - den.log2 - 52)).2 then
    (num.log2 - den.log2 - 52 - 1 : Int) else num.log2 - den.log2 - 52) = corrected at lower upper
  obtain ⟨bottomPos, scaled⟩ := scaleQuotient_eq num pos (max minScale corrected)
  have least : minScale = -1074 := rfl
  have exponent : (((max minScale corrected - minScale).toNat : Nat) : Int) - 1074 =
      max minScale corrected := by omega
  have bottom : (0 : ℚ) < (scaleQuotient num den (max minScale corrected)).2 := by
    exact_mod_cast bottomPos
  refine ⟨(max minScale corrected - minScale).toNat,
    (scaleQuotient num den (max minScale corrected)).1,
    (scaleQuotient num den (max minScale corrected)).2, bottomPos, ?_, ?_, ?_, ?_⟩
  · rw [exponent]
    exact scaled
  · have smaller : (num : ℚ) / den / 2 ^ max minScale corrected ≤ num / den / 2 ^ corrected := by
      gcongr
      · norm_num
      · exact le_max_right _ _
    have less := (scaled ▸ smaller).trans_lt upper
    rw [div_lt_iff₀ bottom] at less
    exact_mod_cast less
  · intro normal
    have own : max minScale corrected = corrected := by omega
    rw [own] at scaled bottom ⊢
    rw [← scaled, le_div_iff₀ bottom] at lower
    exact_mod_cast lower
  · unfold nearest
    have other : (num == 0) = false := beq_eq_false_iff_ne.mpr positive
    simp only [other, Bool.false_eq_true, ↓reduceIte, Nat.pow_eq, same]

/-- A number at most half a unit away is nearer than any other whole number. -/
theorem abs_sub_le_of_half {number : ℚ} {near : Nat} (half : |(near : ℚ) - number| ≤ 1 / 2)
    (other : Nat) : |(near : ℚ) - number| ≤ |(other : ℚ) - number| := by
  by_cases same : other = near
  · rw [same]
  · have apart : (1 : ℚ) ≤ |(other : ℚ) - near| := by
      have whole : (1 : Int) ≤ |(other : Int) - near| := by
        apply Int.one_le_abs
        omega
      exact_mod_cast whole
    have through : |(other : ℚ) - near| ≤ |(other : ℚ) - number| + |(near : ℚ) - number| := by
      rw [abs_sub_comm (near : ℚ) number]
      exact abs_sub_le _ _ _
    linarith

theorem abs_roundQuotient_sub_le (top : Nat) {bottom : Nat} (pos : 0 < bottom) :
    |(roundQuotient top bottom : ℚ) - top / bottom| ≤ 1 / 2 := by
  obtain ⟨upper, lower⟩ := roundQuotient_bounds top pos
  have positive : (0 : ℚ) < bottom := by exact_mod_cast pos
  have above : 2 * ((roundQuotient top bottom : ℚ) * bottom) ≤ 2 * top + bottom := by
    exact_mod_cast upper
  have below : 2 * (top : ℚ) ≤ 2 * (roundQuotient top bottom * bottom) + bottom := by
    exact_mod_cast lower
  have same : (roundQuotient top bottom : ℚ) - top / bottom =
      (roundQuotient top bottom * bottom - top) / bottom := by field_simp
  rw [same, abs_le, le_div_iff₀ positive, div_le_iff₀ positive]
  constructor <;> linarith

/-- A significand that is rounded has 53 bits, or is the next power of two. -/
theorem roundQuotient_le {top bottom : Nat} (pos : 0 < bottom) (few : top < 2 ^ 53 * bottom) :
    roundQuotient top bottom ≤ 2 ^ 53 := by
  obtain ⟨upper, -⟩ := roundQuotient_bounds top pos
  have less : 2 * roundQuotient top bottom * bottom < (2 * 2 ^ 53 + 1) * bottom := by
    rw [Nat.mul_assoc, Nat.add_mul, Nat.mul_assoc]
    omega
  have bound := Nat.lt_of_mul_lt_mul_right less
  omega

theorem value_nearest_parts {exponent top bottom : Nat} (pos : 0 < bottom)
    (few : top < 2 ^ 53 * bottom) (normal : 0 < exponent → 2 ^ 52 * bottom ≤ top) :
    value (exponent * 2 ^ 52 + roundQuotient top bottom) =
      roundQuotient top bottom * 2 ^ (exponent - 1074 : Int) := by
  refine value_eq (roundQuotient_le pos few) fun positive => ?_
  rw [le_roundQuotient_iff pos (by norm_num)]
  have enough := normal positive
  omega

section Units

variable {exponent near : Nat}

/-- A number with at least the same exponent is a whole number of units, and so not nearer than the
rounded one. -/
theorem abs_sub_le_of_le {exponent' : Nat} {quotient : ℚ} (half : |(near : ℚ) - quotient| ≤ 1 / 2)
    (wide : exponent ≤ exponent') (significand : Nat) :
    |(near : ℚ) - quotient| * 2 ^ (exponent - 1074 : Int) ≤
      |(significand : ℚ) * 2 ^ (exponent' - 1074 : Int) -
        quotient * 2 ^ (exponent - 1074 : Int)| := by
  have unit : (0 : ℚ) < 2 ^ (exponent - 1074 : Int) := by positivity
  have units : (significand : ℚ) * 2 ^ (exponent' - 1074 : Int) =
      ((significand * 2 ^ (exponent' - exponent) : Nat) : ℚ) * 2 ^ (exponent - 1074 : Int) := by
    push_cast
    rw [mul_assoc, ← zpow_natCast, ← zpow_add₀ two_ne_zero]
    congr 2
    omega
  rw [units, ← sub_mul, abs_mul, abs_of_pos unit]
  exact mul_le_mul_of_nonneg_right (abs_sub_le_of_half half _) unit.le

/-- A number with a smaller exponent is below all significands with 53 bits, and so not nearer than
the rounded one. -/
theorem abs_sub_le_of_lt {exponent' significand : Nat} {quotient : ℚ}
    (half : |(near : ℚ) - quotient| ≤ 1 / 2) (enough : 2 ^ 52 ≤ quotient)
    (small : exponent' < exponent) (few : significand < 2 ^ 53) :
    |(near : ℚ) - quotient| * 2 ^ (exponent - 1074 : Int) ≤
      |(significand : ℚ) * 2 ^ (exponent' - 1074 : Int) -
        quotient * 2 ^ (exponent - 1074 : Int)| := by
  have unit : (0 : ℚ) < 2 ^ (exponent - 1074 : Int) := by positivity
  have power : (2 : ℚ) ^ (exponent' - 1074 : Int) ≤ 2 ^ (exponent - 1074 - 1 : Int) :=
    zpow_le_zpow_right₀ (by norm_num) (by omega)
  have bits : (significand : ℚ) ≤ 2 ^ 53 := by exact_mod_cast Nat.le_of_lt few
  have short : (significand : ℚ) * 2 ^ (exponent' - 1074 : Int) ≤
      2 ^ 52 * 2 ^ (exponent - 1074 : Int) := by
    calc
      (significand : ℚ) * 2 ^ (exponent' - 1074 : Int)
          ≤ 2 ^ 53 * 2 ^ (exponent - 1074 - 1 : Int) := by gcongr
      _ = 2 ^ 52 * 2 ^ (exponent - 1074 : Int) := by
            rw [zpow_sub_one₀ two_ne_zero]
            ring
  have least := abs_sub_le_of_half half (2 ^ 52)
  have far : |((2 ^ 52 : Nat) : ℚ) - quotient| = quotient - 2 ^ 52 := by
    rw [abs_sub_comm]
    push_cast
    exact abs_of_nonneg (by linarith)
  calc
    |(near : ℚ) - quotient| * 2 ^ (exponent - 1074 : Int)
        ≤ (quotient - 2 ^ 52) * 2 ^ (exponent - 1074 : Int) :=
          mul_le_mul_of_nonneg_right (far ▸ least) unit.le
    _ ≤ quotient * 2 ^ (exponent - 1074 : Int) -
          significand * 2 ^ (exponent' - 1074 : Int) := by linarith
    _ ≤ |(significand : ℚ) * 2 ^ (exponent' - 1074 : Int) -
          quotient * 2 ^ (exponent - 1074 : Int)| := by
          rw [abs_sub_comm]
          exact le_abs_self _

end Units

/-- No other magnitude stands for a number nearer to a quotient than the one that is found for
it. -/
theorem abs_value_nearest_le (num : Nat) {den : Nat} (pos : 0 < den) (other : Nat) :
    |value (nearest num den) - (num : ℚ) / den| ≤ |value other - (num : ℚ) / den| := by
  by_cases positive : num = 0
  · have zero : value (nearest num den) - (num : ℚ) / den = 0 := by
      rw [positive]
      norm_num [nearest, value, significand]
    rw [zero, abs_zero]
    exact abs_nonneg _
  obtain ⟨exponent, top, bottom, bottomPos, scaled, few, normal, found⟩ :=
    exists_nearest_eq positive pos
  have half := abs_roundQuotient_sub_le top bottomPos
  have unit : (0 : ℚ) < 2 ^ (exponent - 1074 : Int) := by positivity
  have quotient : (num : ℚ) / den = top / bottom * 2 ^ (exponent - 1074 : Int) := by
    rw [scaled]
    field_simp
  obtain ⟨exponent', significand', rfl, few', normal'⟩ := exists_parts other
  rw [found, quotient, value_nearest_parts bottomPos few normal, ← sub_mul, abs_mul,
    abs_of_pos unit, value_eq (Nat.le_of_lt few') normal']
  by_cases wide : exponent ≤ exponent'
  · exact abs_sub_le_of_le half wide significand'
  · have enough : (2 : ℚ) ^ 52 ≤ top / bottom := by
      rw [le_div_iff₀ (by exact_mod_cast bottomPos)]
      exact_mod_cast normal (by omega)
    exact abs_sub_le_of_lt half enough (Nat.lt_of_not_le wide) few'

/-- The middle between the largest finite number and the next power of two. -/
def middle : Nat := (2 ^ 54 - 1) * 2 ^ 970

theorem cast_middle : (middle : ℚ) = (2 ^ 54 - 1) * 2 ^ (970 : Int) := by
  unfold middle
  rw [Nat.cast_mul, Nat.cast_pow]
  norm_num only [Nat.cast_ofNat, zpow_ofNat]

section Middle

variable {exponent top bottom : Nat}

/-- A quotient with a smaller exponent than the largest finite number is below the middle. -/
theorem lt_middle_of_lt (pos : 0 < bottom) (short : exponent < 2045)
    (few : top < 2 ^ 53 * bottom) :
    (top : ℚ) / bottom * 2 ^ (exponent - 1074 : Int) < middle := by
  have power : (2 : ℚ) ^ (exponent - 1074 : Int) ≤ 2 ^ (970 : Int) :=
    zpow_le_zpow_right₀ (by norm_num) (by omega)
  have quotient : (top : ℚ) / bottom < 2 ^ 53 := by
    rw [div_lt_iff₀ (by exact_mod_cast pos)]
    exact_mod_cast few
  rw [cast_middle]
  calc
    (top : ℚ) / bottom * 2 ^ (exponent - 1074 : Int)
        < 2 ^ 53 * 2 ^ (exponent - 1074 : Int) := by gcongr
    _ ≤ 2 ^ 53 * 2 ^ (970 : Int) := by gcongr
    _ ≤ (2 ^ 54 - 1) * 2 ^ (970 : Int) := by
          gcongr
          norm_num

/-- A quotient with the exponent of the largest finite number reaches the middle if its significand
is rounded to the next power of two. -/
theorem middle_le_iff_of_eq (pos : 0 < bottom) (same : exponent = 2045) :
    (middle : ℚ) ≤ top / bottom * 2 ^ (exponent - 1074 : Int) ↔
      2 ^ 53 ≤ roundQuotient top bottom := by
  have positive : (0 : ℚ) < bottom := by exact_mod_cast pos
  have power : (exponent : Int) - 1074 = 970 + 1 := by omega
  have cast : 2 * (2 ^ 53 * bottom) ≤ 2 * top + bottom ↔
      (2 : ℚ) * (2 ^ 53 * bottom) ≤ 2 * top + bottom := by exact_mod_cast Iff.rfl
  have double : (top : ℚ) / bottom * 2 ^ (970 + 1 : Int) =
      2 * top / bottom * 2 ^ (970 : Int) := by
    rw [zpow_add_one₀ two_ne_zero]
    ring
  rw [cast_middle, le_roundQuotient_iff pos (by norm_num), power, cast, double,
    mul_le_mul_iff_of_pos_right (by positivity), le_div_iff₀ positive]
  constructor <;> intro le <;> linarith

/-- A quotient with a larger exponent is above the middle. -/
theorem middle_le_of_lt (pos : 0 < bottom) (wide : 2045 < exponent)
    (normal : 2 ^ 52 * bottom ≤ top) :
    (middle : ℚ) ≤ top / bottom * 2 ^ (exponent - 1074 : Int) := by
  have power : (2 : ℚ) ^ (970 + 1 + 1 : Int) ≤ 2 ^ (exponent - 1074 : Int) :=
    zpow_le_zpow_right₀ (by norm_num) (by omega)
  have quotient : (2 : ℚ) ^ 52 ≤ top / bottom := by
    rw [le_div_iff₀ (by exact_mod_cast pos)]
    exact_mod_cast normal
  rw [cast_middle]
  calc
    ((2 : ℚ) ^ 54 - 1) * 2 ^ (970 : Int) ≤ 2 ^ 54 * 2 ^ (970 : Int) := by
          gcongr
          norm_num
    _ = 2 ^ 52 * 2 ^ (970 + 1 + 1 : Int) := by
          rw [zpow_add_one₀ two_ne_zero, zpow_add_one₀ two_ne_zero]
          ring
    _ ≤ top / bottom * 2 ^ (exponent - 1074 : Int) := by gcongr

end Middle

/-- The magnitude for a quotient is infinite from the middle between the largest finite number and
the next power of two on. -/
theorem infinity_le_nearest_iff (num : Nat) {den : Nat} (pos : 0 < den) :
    infinity ≤ nearest num den ↔ middle * den ≤ num := by
  have infinite : infinity = 2047 * 2 ^ 52 := rfl
  by_cases positive : num = 0
  · have zero : nearest num den = 0 := by
      rw [positive]
      rfl
    have large : 0 < middle * den := by
      unfold middle
      positivity
    rw [zero, positive, infinite]
    omega
  obtain ⟨exponent, top, bottom, bottomPos, scaled, few, normal, found⟩ :=
    exists_nearest_eq positive pos
  have bound : middle * den ≤ num ↔
      (middle : ℚ) ≤ top / bottom * 2 ^ (exponent - 1074 : Int) := by
    have quotient : (num : ℚ) / den = top / bottom * 2 ^ (exponent - 1074 : Int) := by
      rw [scaled]
      field_simp
    rw [← quotient, le_div_iff₀ (by exact_mod_cast pos)]
    exact_mod_cast Iff.rfl
  rw [bound, found, infinite]
  rcases Nat.lt_trichotomy exponent 2045 with short | same | wide
  · have most := roundQuotient_le bottomPos few
    have less := lt_middle_of_lt bottomPos short few
    exact ⟨by omega, fun more => absurd less (not_lt.mpr more)⟩
  · rw [middle_le_iff_of_eq bottomPos same]
    omega
  · have many := normal (by omega)
    have enough : 2 ^ 52 ≤ roundQuotient top bottom := by
      rw [le_roundQuotient_iff bottomPos (by norm_num)]
      omega
    exact ⟨fun _ => middle_le_of_lt bottomPos wide many, fun _ => by omega⟩

end Binary64

end LineScript.Number
