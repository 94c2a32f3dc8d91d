import LineScript.Text.LetterCase

/-!
# Characters that differ in case

Two characters differ in case at most when their small letters count as the same letter. A letter
from A to Z has its small letter for that and, where small letters share a capital, one more: the
long s counts as the letter S (`LineScript.Text.sameFold_s`).
-/

namespace LineScript.Text

/-- A small letter is that of itself, of the capital 32 places in front of it, or of a capital of a
run. -/
theorem exists_of_smallCode {code small : Nat} (same : smallCode code = small) :
    code = small ∨ (65 ≤ code ∧ code ≤ 90) ∧ code + 32 = small ∨
      ∃ run ∈ capitalRuns, run.smallOf? code = some small := by
  unfold smallCode at same
  split at same
  next =>
    split at same
    next capital =>
      rw [Bool.and_eq_true, decide_eq_true_eq, decide_eq_true_eq] at capital
      exact Or.inr (Or.inl ⟨capital, same⟩)
    next => exact Or.inl same
  next =>
    cases found : capitalRuns.findSome? fun run => run.smallOf? code with
    | none =>
        rw [found] at same
        exact Or.inl same
    | some other =>
        rw [found] at same
        obtain rfl : other = small := same
        exact Or.inr (Or.inr (List.exists_of_findSome?_eq_some found))

/-- Whether no run of capitals has some code point among its small letters. -/
def IsOutsideRuns (small : Nat) : Prop :=
  ∀ run ∈ capitalRuns, small < run.small ∨ run.small + (run.last - run.first) < small

instance (small : Nat) : Decidable (IsOutsideRuns small) :=
  inferInstanceAs (Decidable (∀ run ∈ capitalRuns, _))

theorem eq_of_smallCode {code small : Nat} (outside : IsOutsideRuns small)
    (same : smallCode code = small) :
    code = small ∨ (65 ≤ code ∧ code ≤ 90) ∧ code + 32 = small := by
  rcases exists_of_smallCode same with same | same | ⟨run, member, own⟩
  · exact Or.inl same
  · exact Or.inr same
  · unfold CapitalRun.smallOf? at own
    split at own
    next inside =>
      simp only [Bool.and_eq_true, decide_eq_true_eq] at inside
      have reached := Option.some.inj own
      have apart := outside run member
      omega
    next => cases own

/-- The small letter of a character is its fold, or a letter that counts as the same. -/
theorem exists_of_foldCode (c : Char) :
    smallCode c.toNat = foldCode c ∨
      ∃ letters ∈ sameLetters, letters.head? = some (foldCode c) ∧
        smallCode c.toNat ∈ letters := by
  unfold foldCode lettersLike
  cases found : sameLetters.find? fun letters => letters.contains (smallCode c.toNat) with
  | none => exact Or.inl rfl
  | some letters =>
      have own : letters.contains (smallCode c.toNat) = true :=
        List.find?_some (p := fun letters : List Nat => letters.contains (smallCode c.toNat)) found
      have member := List.contains_iff_mem.mp own
      refine Or.inr ⟨letters, List.mem_of_find?_eq_some found, ?_, member⟩
      cases letters with
      | nil => cases member
      | cons first rest => rfl

/-- A character that differs from another in case at most is one of the small letters that count as
the same letter, or the capital in front of one of them, if all of them are outside the runs. -/
theorem exists_of_sameFold {c d : Char} {smalls : List Nat}
    (outside : ∀ small ∈ smalls, IsOutsideRuns small) (own : foldCode d ∈ smalls)
    (alike : ∀ letters ∈ sameLetters, letters.head? = some (foldCode d) →
      ∀ small ∈ letters, small ∈ smalls)
    (same : sameFold d c = true) :
    ∃ small ∈ smalls,
      c.toNat = small ∨ (65 ≤ c.toNat ∧ c.toNat ≤ 90) ∧ c.toNat + 32 = small := by
  have fold : foldCode d = foldCode c := beq_iff_eq.mp same
  have member : smallCode c.toNat ∈ smalls := by
    rcases exists_of_foldCode c with small | ⟨letters, listed, first, small⟩
    · rw [small, ← fold]
      exact own
    · rw [← fold] at first
      exact alike letters listed first _ small
  exact ⟨smallCode c.toNat, member, eq_of_smallCode (outside _ member) rfl⟩

/-- The characters that differ from the letter S in case at most are its two forms and the
long s. -/
theorem sameFold_s {c : Char} (same : sameFold 's' c = true) : c ∈ ['s', 'S', 'ſ'] := by
  have outside : ∀ small ∈ [0x73, 0x17f], IsOutsideRuns small := by decide +kernel
  obtain ⟨small, member, own⟩ := exists_of_sameFold outside (by decide) (by decide) same
  have place : c.toNat = 's'.toNat ∨ c.toNat = 'S'.toNat ∨ c.toNat = 'ſ'.toNat := by
    have values : 's'.toNat = 0x73 ∧ 'S'.toNat = 0x53 ∧ 'ſ'.toNat = 0x17f := by decide
    simp only [List.mem_cons, List.not_mem_nil, or_false] at member
    omega
  simpa only [Char.toNat_inj, List.mem_cons, List.not_mem_nil, or_false] using place

/-- The characters that differ from one in case at most, where only this one counts as its fold, are
itself and the capital in front of it. -/
theorem eq_of_sameFold {c d : Char} (outside : IsOutsideRuns d.toNat) (own : foldCode d = d.toNat)
    (alone : ∀ letters ∈ sameLetters, letters.head? ≠ some d.toNat) (same : sameFold d c = true) :
    c = d ∨ (65 ≤ c.toNat ∧ c.toNat ≤ 90) ∧ c.toNat + 32 = d.toNat := by
  obtain ⟨small, member, place⟩ := exists_of_sameFold
    (List.forall_mem_singleton.mpr outside) (List.mem_singleton.mpr own)
    (fun letters listed first => absurd (own ▸ first) (alone letters listed)) same
  obtain rfl := List.mem_singleton.mp member
  exact place.imp_left Char.toNat_inj.mp

/-- The characters that differ from one of these letters in case at most are its two forms. -/
theorem sameFold_letter {small capital c : Char}
    (known : (small, capital) ∈ [('e', 'E'), ('m', 'M'), ('r', 'R')])
    (same : sameFold small c = true) : c ∈ [small, capital] := by
  have plain : ∀ pair ∈ [('e', 'E'), ('m', 'M'), ('r', 'R')], IsOutsideRuns pair.1.toNat ∧
      foldCode pair.1 = pair.1.toNat ∧
      (∀ letters ∈ sameLetters, letters.head? ≠ some pair.1.toNat) ∧
      pair.2.toNat + 32 = pair.1.toNat := by decide +kernel
  obtain ⟨outside, own, alone, apart⟩ := plain _ known
  change capital.toNat + 32 = small.toNat at apart
  rcases eq_of_sameFold outside own alone same with same | ⟨-, place⟩
  · exact List.mem_cons.mpr (Or.inl same)
  · have front : c = capital := Char.toNat_inj.mp (Nat.add_right_cancel (place.trans apart.symm))
    exact List.mem_cons_of_mem _ (List.mem_singleton.mpr front)

theorem sameFold_capital {small capital c : Char}
    (known : (small, capital) ∈ [('e', 'E'), ('m', 'M'), ('r', 'R')])
    (same : sameFold capital c = true) : c ∈ [capital, small] := by
  have alike : ∀ pair ∈ [('e', 'E'), ('m', 'M'), ('r', 'R')],
      foldCode pair.1 = foldCode pair.2 := by
    decide +kernel
  have own : foldCode small = foldCode capital := alike _ known
  unfold sameFold at same
  rw [← own] at same
  exact (List.Perm.swap capital small []).mem_iff.mp (sameFold_letter known same)

/-- Only itself differs from a space or from the number sign in case at most. -/
theorem sameFold_sign {d c : Char} (known : d ∈ [' ', '#']) (same : sameFold d c = true) :
    c = d := by
  have plain : ∀ sign ∈ [' ', '#'], IsOutsideRuns sign.toNat ∧ foldCode sign = sign.toNat ∧
      (∀ letters ∈ sameLetters, letters.head? ≠ some sign.toNat) ∧ sign.toNat < 65 :=
    List.forall_mem_cons.mpr
      ⟨by decide +kernel, List.forall_mem_singleton.mpr (by decide +kernel)⟩
  obtain ⟨outside, own, alone, low⟩ := plain _ known
  rcases eq_of_sameFold outside own alone same with same | ⟨capital, place⟩
  · exact same
  · omega

end LineScript.Text
