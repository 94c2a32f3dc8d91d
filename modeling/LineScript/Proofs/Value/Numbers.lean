import LineScript.Value.Entries

/-!
# Numbers among the values

Truth values, whole numbers and floats without a fractional part are *whole*. Zero is the one that
does not count as true, and a truth value is the same key as the whole numbers 0 or 1.
-/

namespace LineScript

namespace Number.Binary64

variable {x : Binary64}

theorem quotient_eq_zero_iff : x.quotient.1 = 0 ↔ x.magnitude = 0 := by
  have normal : 0 < Nat.pow 2 52 := Nat.pow_pos Nat.two_pos
  have significand : x.significand = 0 ↔ x.magnitude = 0 := by
    unfold significand
    split
    · rfl
    · omega
  unfold quotient
  split
  · exact significand
  · have unit : Nat.pow 2 x.scale.natAbs ≠ 0 :=
      Nat.ne_of_gt (Nat.pow_pos Nat.two_pos)
    rw [← significand]
    exact Nat.mul_eq_zero.trans (or_iff_left unit)

/-- A float that stands for a whole number is zero exactly if the number is. -/
theorem isZero_of_toInt? {i : Int} (whole : x.toInt? = some i) : x.isZero = (i == 0) := by
  obtain ⟨num, den, parts⟩ : ∃ num den, x.quotient = (num, den) := ⟨_, _, rfl⟩
  have zero : num = 0 ↔ x.magnitude = 0 := by
    simpa [parts] using @quotient_eq_zero_iff x
  simp only [toInt?, parts] at whole
  split at whole
  · cases whole
  split at whole
  next divides =>
    have divisor : den ∣ num := Nat.dvd_of_mod_eq_zero (beq_iff_eq.mp divides)
    have vanishes : num / den = 0 ↔ x.magnitude = 0 := by
      rw [← zero]
      refine ⟨Nat.eq_zero_of_dvd_of_div_eq_zero divisor, ?_⟩
      rintro rfl
      exact Nat.zero_div den
    obtain rfl := Option.some.inj whole
    generalize num / den = number at vanishes
    rw [Bool.eq_iff_iff]
    cases x.negative <;> simp [isZero, vanishes]
  · cases whole

end Number.Binary64

namespace Value

variable {value : Value} {i : Int} {b : Bool}

theorem cases_of_wholeNumber? (whole : value.wholeNumber? = some i) :
    (∃ b, value = .bool b ∧ i = if b then 1 else 0) ∨ value = .int i ∨
      ∃ x, value = .float x ∧ x.toInt? = some i := by
  cases value with
  | bool b => exact Or.inl ⟨b, rfl, (Option.some.inj whole).symm⟩
  | int own => exact Or.inr (Or.inl (congrArg int (Option.some.inj whole)))
  | float x => exact Or.inr (Or.inr ⟨x, rfl, whole⟩)
  | _ => cases whole

theorem truthy_of_wholeNumber? (whole : value.wholeNumber? = some i) :
    value.truthy = (i != 0) := by
  obtain ⟨b, rfl, rfl⟩ | rfl | ⟨x, rfl, own⟩ := cases_of_wholeNumber? whole
  · cases b <;> rfl
  · rfl
  · rw [truthy, Number.Binary64.isZero_of_toInt? own]
    rfl

theorem sameKey_bool_iff :
    value.sameKey (.bool b) = true ↔ value.wholeNumber? = some (if b then 1 else 0) := by
  cases value with
  | float x => cases number : x.toInt? <;> simp [sameKey, wholeNumber?, number]
  | _ => simp [sameKey, wholeNumber?]

theorem truthy_of_sameKey (same : value.sameKey (.bool b) = true) : value.truthy = b := by
  rw [truthy_of_wholeNumber? (sameKey_bool_iff.mp same)]
  cases b <;> rfl

end Value

end LineScript
