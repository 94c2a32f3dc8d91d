import LineScript.Bundled.Pause
import LineScript.Proofs.Number.Nearest
import LineScript.Proofs.Pattern.Reading
import LineScript.Proofs.Text.LetterCase

/-!
# What a pause is

The pattern of a pause takes digits and a unit of time from a line, of which it knows the two
letters in both forms and the long s as another form of the letter S.
-/

namespace LineScript.Bundled.Pause

open Pattern (Node Place Captures)

/-- Whether characters name a unit of so many milliseconds, in any case; the long s is one more form
of the letter S. -/
inductive IsUnit : List Char → Nat → Prop where
  | milliseconds {m s : Char} : m ∈ ['m', 'M'] → s ∈ ['s', 'S', 'ſ'] → IsUnit [m, s] 1
  | seconds {s : Char} : s ∈ ['s', 'S', 'ſ'] → IsUnit [s] 1000
  | minutes {m : Char} : m ∈ ['m', 'M'] → IsUnit [m] 60000

/-- Whether characters are a pause: the word SLEEP and a space in any case, digits, any white space
and a unit. A line feed at the end is let pass. -/
inductive IsPause : List Char → List Char → List Char → Nat → Prop where
  | intro {word digits white unit last : List Char} {factor : Nat} :
      List.Forall₂ (fun c d => Text.sameFold c d = true) "SLEEP ".toList word →
      digits ≠ [] → (∀ c ∈ digits, Text.isDigit c = true) →
      (∀ c ∈ white, Text.isBlank c = true) → IsUnit unit factor → last ∈ [[], ['\n']] →
      IsPause (word ++ (digits ++ (white ++ (unit ++ last)))) digits unit factor

theorem IsPause.named {line digits unit : List Char} {factor : Nat}
    (paused : IsPause line digits unit factor) : IsUnit unit factor := by
  cases paused with
  | intro _ _ _ _ named _ => exact named

/-- The pattern node for what follows the word. -/
def amount : Node :=
  .seq (.group 1 (.repeated 1 none true (.one (.oneOf false false [.category false .digit]))))
    (.seq (.repeated 0 none true (.one (.oneOf false false [.category false .blank])))
      (.seq (.group 2 (.either (.seq (letter 'm') (letter 's'))
          (.either (letter 's') (letter 'm'))))
        (.anchor .finalEnd)))

theorem root_pause :
    pause.root = .seq (.anchor .textStart)
      ("SLEEP ".toList.foldr (fun c rest => .seq (letter c) rest) amount) := rfl

theorem reads_letter {c : Char} {place next : Place} {captures held : Captures}
    (read : (letter c).Reads place captures next held) :
    held = captures ∧ ∃ d, Text.sameFold c d = true ∧ place.ahead = d :: next.ahead := by
  obtain ⟨same, d, alike, ahead, -⟩ := read
  exact ⟨same, d, alike, ahead⟩

/-- The unit that is read. -/
theorem reads_unit {place next : Place} {captures held : Captures}
    (read : (Node.either (.seq (letter 'm') (letter 's'))
      (.either (letter 's') (letter 'm'))).Reads place captures next held) :
    held = captures ∧ ∃ unit factor, IsUnit unit factor ∧ place.ahead = unit ++ next.ahead := by
  rcases read with ⟨between, kept, first, second⟩ | read | read
  · obtain ⟨rfl, m, one, ahead⟩ := reads_letter first
    obtain ⟨rfl, s, two, further⟩ := reads_letter second
    have named := IsUnit.milliseconds (Text.sameFold_letter (by decide) one) (Text.sameFold_s two)
    refine ⟨rfl, [m, s], 1, named, ?_⟩
    rw [ahead, further]
    rfl
  · obtain ⟨rfl, s, same, ahead⟩ := reads_letter read
    exact ⟨rfl, [s], 1000, .seconds (Text.sameFold_s same), ahead⟩
  · obtain ⟨rfl, m, same, ahead⟩ := reads_letter read
    exact ⟨rfl, [m], 60000, .minutes (Text.sameFold_letter (by decide) same), ahead⟩

/-- A line from which the pattern takes something is a pause, and the pattern takes its digits and
its unit. -/
theorem exists_isPause {line : List Char} {groups : List (Option (List Char))}
    (found : pause.groups? line = some groups) :
    ∃ digits unit factor, IsPause line digits unit factor ∧ groups = [some digits, some unit] := by
  obtain ⟨_, held, read, rfl⟩ := Pattern.exists_reads_of_groups? root_pause found
  obtain ⟨word, second, alike, ahead, rest⟩ := Node.reads_word read
  obtain ⟨third, _, ⟨_, numeral, rfl⟩, rest⟩ := rest
  obtain ⟨rfl, digits, enough, accepted, behindWord⟩ := Node.reads_category numeral
  obtain ⟨fourth, _, space, rest⟩ := rest
  obtain ⟨rfl, white, -, blank, behindDigits⟩ := Node.reads_category space
  obtain ⟨fifth, _, ⟨_, named, rfl⟩, rest⟩ := rest
  obtain ⟨rfl, unit, factor, known, behindWhite⟩ := reads_unit named
  obtain ⟨rfl, last⟩ := Node.reads_finalEnd rest
  have whole : line = word ++ (digits ++ (white ++ (unit ++ fifth.ahead))) := by
    rw [← behindWhite, ← behindDigits, ← behindWord]
    exact ahead
  refine ⟨digits, unit, factor, ?_, ?_⟩
  · rw [whole]
    exact .intro alike (List.ne_nil_of_length_pos enough) accepted blank known last
  · rw [Place.textUpTo_of_ahead behindWord, Place.textUpTo_of_ahead behindWhite]
    rfl

theorem inSmallLetters_ofList (chars : List Char) :
    Text.inSmallLetters (String.ofList chars) = String.ofList (chars.map Text.smallLetter) := by
  apply String.toList_injective
  unfold Text.inSmallLetters
  rw [String.toList_map, String.toList_ofList, String.toList_ofList]

/-- The handler knows a unit in both forms of its letters, but not with the long s. -/
theorem millisecondsIn?_of_isUnit {unit : List Char} {factor : Nat} (named : IsUnit unit factor) :
    millisecondsIn? (String.ofList unit) = if 'ſ' ∈ unit then none else some factor := by
  unfold millisecondsIn?
  rw [inSmallLetters_ofList]
  cases named with
  | milliseconds one two =>
      simp only [List.mem_cons, List.not_mem_nil, or_false] at one two
      rcases one with rfl | rfl <;> rcases two with rfl | rfl | rfl <;> rfl
  | seconds one =>
      simp only [List.mem_cons, List.not_mem_nil, or_false] at one
      rcases one with rfl | rfl | rfl <;> rfl
  | minutes one =>
      simp only [List.mem_cons, List.not_mem_nil, or_false] at one
      rcases one with rfl | rfl <;> rfl

/-- The seconds in a pause, rounded to a floating-point number. -/
def amountOf (digits : List Char) (factor : Nat) : Number.Binary64 :=
  ⟨false, Number.Binary64.nearest (Text.numeral digits * factor) 1000⟩

/-- Whether a pause can be carried out: its digits are few enough for a number, its unit is written
without the long s, and its seconds are no more than a floating-point number can tell. -/
structure Timely (digits unit : List Char) (factor : Nat) : Prop where
  few : digits.length ≤ maxDigits
  plain : 'ſ' ∉ unit
  finite : Text.numeral digits * factor < Number.Binary64.middle * 1000

theorem amountOf_lt_infinity_iff (digits : List Char) (factor : Nat) :
    (amountOf digits factor).magnitude < Number.Binary64.infinity ↔
      Text.numeral digits * factor < Number.Binary64.middle * 1000 := by
  unfold amountOf
  rw [← Nat.not_le, Number.Binary64.infinity_le_nearest_iff _ (by norm_num), Nat.not_le]

/-- A pause that can be carried out has its seconds. -/
theorem seconds_of_timely {digits unit : List Char} {factor : Nat} (named : IsUnit unit factor)
    (timely : Timely digits unit factor) :
    seconds (String.ofList digits) (String.ofList unit) = .ok (amountOf digits factor) := by
  have few : ¬maxDigits < digits.length := Nat.not_lt.mpr timely.few
  have finite : ¬Number.Binary64.infinity ≤
      Number.Binary64.nearest (Text.numeral digits * factor) 1000 := by
    rw [Nat.not_le]
    exact (amountOf_lt_infinity_iff digits factor).mpr timely.finite
  unfold seconds
  rw [millisecondsIn?_of_isUnit named, if_neg timely.plain]
  simp only [String.toList_ofList, few, finite, ↓reduceIte]
  rfl

/-- What is wrong with a pause that cannot be carried out, where the digits are read first, then the
unit is looked up, and then the seconds are found. -/
inductive Fails (digits unit : List Char) (factor : Nat) : Fault → Prop where
  | tooManyDigits : maxDigits < digits.length →
      Fails digits unit factor (.tooManyDigits digits.length)
  | missingKey : digits.length ≤ maxDigits → 'ſ' ∈ unit →
      Fails digits unit factor (.missingKey (Text.inSmallLetters (String.ofList unit)))
  | quotientTooLarge : digits.length ≤ maxDigits → 'ſ' ∉ unit →
      Number.Binary64.middle * 1000 ≤ Text.numeral digits * factor →
      Fails digits unit factor .quotientTooLarge

theorem Timely.not_fails {digits unit : List Char} {factor : Nat} {fault : Fault}
    (timely : Timely digits unit factor) : ¬Fails digits unit factor fault := by
  intro fails
  cases fails with
  | tooManyDigits many => exact absurd timely.few (Nat.not_le.mpr many)
  | missingKey _ long => exact timely.plain long
  | quotientTooLarge _ _ infinite => exact absurd timely.finite (Nat.not_lt.mpr infinite)

theorem timely_or_fails (digits unit : List Char) (factor : Nat) :
    Timely digits unit factor ∨ ∃ fault, Fails digits unit factor fault := by
  by_cases few : digits.length ≤ maxDigits
  · by_cases plain : 'ſ' ∈ unit
    · exact Or.inr ⟨_, .missingKey few plain⟩
    · by_cases finite : Text.numeral digits * factor < Number.Binary64.middle * 1000
      · exact Or.inl ⟨few, plain, finite⟩
      · exact Or.inr ⟨_, .quotientTooLarge few plain (Nat.le_of_not_lt finite)⟩
  · exact Or.inr ⟨_, .tooManyDigits (Nat.lt_of_not_le few)⟩

/-- A pause that cannot be carried out has none. -/
theorem seconds_of_fails {digits unit : List Char} {factor : Nat} {fault : Fault}
    (named : IsUnit unit factor) (fails : Fails digits unit factor fault) :
    seconds (String.ofList digits) (String.ofList unit) = .error fault := by
  unfold seconds
  rw [millisecondsIn?_of_isUnit named, String.toList_ofList]
  cases fails with
  | tooManyDigits many =>
      simp only [many, ↓reduceIte]
      rfl
  | missingKey few long =>
      simp only [Nat.not_lt.mpr few, long, ↓reduceIte]
      rfl
  | quotientTooLarge few plain infinite =>
      have reached : Number.Binary64.infinity ≤
          Number.Binary64.nearest (Text.numeral digits * factor) 1000 := by
        rw [Number.Binary64.infinity_le_nearest_iff _ (by norm_num)]
        exact infinite
      simp only [Nat.not_lt.mpr few, plain, reached, ↓reduceIte]
      rfl

section Sleep

variable {Memory : Type} (host : Host Memory) {digits unit : List Char} {factor : Nat}

/-- A pause that can be carried out lets its seconds pass once and ends the line. -/
theorem sleep_of_timely (named : IsUnit unit factor) (timely : Timely digits unit factor) :
    sleep host (String.ofList digits) (String.ofList unit) = do
      Query.note (.sleeping (amountOf digits factor))
      host.sleep (amountOf digits factor)
      return .sentinel .done := by
  unfold sleep
  rw [seconds_of_timely named timely]
  rfl

/-- A pause that cannot be carried out fails at once. -/
theorem sleep_of_fails {fault : Fault} (named : IsUnit unit factor)
    (fails : Fails digits unit factor fault) :
    sleep host (String.ofList digits) (String.ofList unit) = Query.fail fault := by
  unfold sleep
  rw [seconds_of_fails named fails]
  rfl

end Sleep

/-- The seconds of a pause are those that its digits and its unit tell, or as near to them as any
floating-point number. -/
theorem abs_amountOf_le (digits : List Char) (factor other : Nat) :
    |Number.Binary64.value (amountOf digits factor).magnitude -
        (Text.numeral digits * factor : ℚ) / 1000| ≤
      |Number.Binary64.value other - (Text.numeral digits * factor : ℚ) / 1000| := by
  have positive : 0 < 1000 := by norm_num
  have nearest := Number.Binary64.abs_value_nearest_le (Text.numeral digits * factor) positive other
  push_cast at nearest
  exact nearest

end LineScript.Bundled.Pause
