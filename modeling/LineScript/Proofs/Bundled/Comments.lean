import LineScript.Bundled.Comments
import LineScript.Script.Line

/-!
# Comments and blank lines are recognized

A line of white space, and one that starts with `#` or with the word `REM ` in any case behind any
white space, is matched by one of the actions for comments, and takes no arguments. It is never
taken for a control value.
-/

namespace LineScript

namespace Pattern

/-- A greedy repetition of a test leads to the goal if it can be reached behind some characters
that pass the test. -/
theorem optionalRounds_isSome {test : CharTest} {goal : Goal} {captures : Captures}
    {taken rest behind : List Char} {budget : Nat}
    (accepted : ∀ c ∈ taken, test.accepts c = true) (enough : taken.length ≤ budget)
    (reached : (goal ⟨taken.reverse ++ behind, rest⟩ captures).isSome = true) :
    (optionalRounds true (Node.one test).run budget none ⟨behind, taken ++ rest⟩ captures
      goal).isSome = true := by
  induction taken generalizing behind budget with
  | nil =>
      cases budget with
      | zero => exact reached
      | succ budget =>
          unfold optionalRounds
          simp only [↓reduceIte]
          cases (Node.one test).run ⟨behind, [] ++ rest⟩ captures _ with
          | none => exact reached
          | some found => rfl
  | cons c taken ih =>
      obtain ⟨own, others⟩ := List.forall_mem_cons.mp accepted
      rw [List.reverse_cons, List.append_assoc, List.singleton_append] at reached
      cases budget with
      | zero => cases enough
      | succ budget =>
          have forward : (taken ++ rest).length < (c :: taken ++ rest).length :=
            Nat.lt_succ_self _
          obtain ⟨found, further⟩ := Option.isSome_iff_exists.mp
            (ih others (Nat.le_of_succ_le_succ enough) reached)
          unfold optionalRounds Node.run
          simp only [List.cons_append, own, ↓reduceIte, Option.map_none] at forward ⊢
          rw [if_pos forward, further]
          rfl

theorem groups?_isSome {pattern : Pattern} {chars : List Char}
    (found : (pattern.root.run ⟨[], chars⟩ [] fun _ captures => some captures).isSome = true) :
    (pattern.groups? chars).isSome = true := by
  obtain ⟨captures, reached⟩ := Option.isSome_iff_exists.mp found
  have searched : pattern.root.searchFrom [] chars = some captures := by
    cases chars with
    | nil => exact reached
    | cons c rest =>
        unfold Node.searchFrom
        rw [reached]
        rfl
  unfold groups?
  rw [searched]
  rfl

end Pattern

namespace Bundled.Comments

/-- Whether characters are white space, or start behind any white space with `#` or with the word
`REM ` in any case. -/
inductive Skipped : List Char → Prop where
  | blank {chars : List Char} : (∀ c ∈ chars, Text.isBlank c = true) → Skipped chars
  | hash {white : List Char} (rest : List Char) :
      (∀ c ∈ white, Text.isBlank c = true) → Skipped (white ++ '#' :: rest)
  | remark {white : List Char} {r e m : Char} (rest : List Char) :
      (∀ c ∈ white, Text.isBlank c = true) → r ∈ ['R', 'r'] → e ∈ ['E', 'e'] → m ∈ ['M', 'm'] →
      Skipped (white ++ r :: e :: m :: ' ' :: rest)

/-- White space is passed over, up to where the goal can be reached. -/
theorem blanks_run_isSome {white rest : List Char} {goal : Pattern.Goal}
    (blank : ∀ c ∈ white, Text.isBlank c = true)
    (reached : (goal ⟨white.reverse, rest⟩ []).isSome = true) :
    (blanks.run ⟨[], white ++ rest⟩ [] goal).isSome = true := by
  have accepted : ∀ c ∈ white,
      (Pattern.CharTest.oneOf false false [.category false .blank]).accepts c = true := by
    intro c member
    unfold Pattern.CharTest.accepts Pattern.ClassItem.contains Pattern.Category.contains
    simp [blank c member]
  have enough : white.length ≤ (white ++ rest).length + 1 := by
    rw [List.length_append]
    omega
  rw [← List.append_nil white.reverse] at reached
  exact Pattern.optionalRounds_isSome accepted enough reached

theorem groups?_of_skipped {chars : List Char} (skipped : Skipped chars) :
    (blankLine.groups? chars).isSome = true ∨ (comment.groups? chars).isSome = true := by
  cases skipped with
  | blank blank =>
      refine Or.inl (Pattern.groups?_isSome ?_)
      have passed : (blanks.run ⟨[], chars ++ []⟩ [] fun next held =>
          (Pattern.Node.anchor .finalEnd).run next held fun _ captures => some captures).isSome =
            true :=
        blanks_run_isSome blank rfl
      rw [List.append_nil] at passed
      exact passed
  | hash rest blank =>
      refine Or.inr (Pattern.groups?_isSome ?_)
      exact blanks_run_isSome blank rfl
  | remark rest blank one two three =>
      refine Or.inr (Pattern.groups?_isSome ?_)
      refine blanks_run_isSome blank ?_
      simp only [List.mem_cons, List.not_mem_nil, or_false] at one two three
      rcases one with rfl | rfl <;> rcases two with rfl | rfl <;> rcases three with rfl | rfl <;>
        rfl

/-- Skipped characters are none, or the first of them is white space, `#` or the letter R. -/
theorem Skipped.head {c : Char} {chars : List Char} (skipped : Skipped (c :: chars)) :
    Text.isBlank c = true ∨ c ∈ ['#', 'R', 'r'] := by
  generalize whole : c :: chars = all at skipped
  have first {white rest : List Char} {d : Char} (blank : ∀ c ∈ white, Text.isBlank c = true)
      (split : c :: chars = white ++ d :: rest) : Text.isBlank c = true ∨ c = d := by
    cases white with
    | nil => exact Or.inr (List.cons.inj split).1
    | cons other white =>
        rw [(List.cons.inj split).1]
        exact Or.inl (blank other List.mem_cons_self)
  cases skipped with
  | blank blank => exact Or.inl (blank c (whole ▸ List.mem_cons_self))
  | hash rest blank =>
      rcases first blank whole with white | rfl
      · exact Or.inl white
      · exact Or.inr (by decide)
  | remark rest blank one _ _ =>
      rcases first blank whole with white | rfl
      · exact Or.inl white
      · exact Or.inr (List.mem_cons_of_mem _ one)

/-- Behind white space the text that is left begins with the first other character. -/
theorem trimBlank_append {white : List Char} {c : Char} (rest : List Char)
    (blank : ∀ d ∈ white, Text.isBlank d = true) (other : Text.isBlank c = false) :
    ∃ more, Text.trimBlank (white ++ c :: rest) = c :: more := by
  have front : (white ++ c :: rest).dropWhile Text.isBlank = c :: rest := by
    rw [List.dropWhile_append_of_pos blank]
    exact List.dropWhile_cons_of_neg (Bool.eq_false_iff.mp other)
  unfold Text.trimBlank
  rw [front, List.reverse_cons, List.dropWhile_append]
  split
  · rw [List.dropWhile_cons_of_neg (Bool.eq_false_iff.mp other)]
    exact ⟨[], rfl⟩
  · rw [List.reverse_append]
    exact ⟨_, rfl⟩

theorem not_finish_of_head {c : Char} (letter : c ∈ ['#', 'R', 'r']) (more : List Char) :
    Text.isWordInCapitals "FINISH" (c :: more) = false := by
  have different (d : Char) (other : d ≠ 'F') (own : Text.capitals c = [d]) :
      Text.isWordInCapitals "FINISH" (c :: more) = false := by
    unfold Text.isWordInCapitals
    rw [List.flatMap_cons, own, beq_eq_false_iff_ne]
    intro same
    exact other (List.cons.inj same).1
  simp only [List.mem_cons, List.not_mem_nil, or_false] at letter
  rcases letter with rfl | rfl | rfl
  · exact different '#' (by decide) rfl
  · exact different 'R' (by decide) rfl
  · exact different 'R' (by decide) rfl

theorem not_finish_of_skipped {chars : List Char} (skipped : Skipped chars) :
    Text.isWordInCapitals "FINISH" (Text.trimBlank chars) = false := by
  have notBlank : ∀ c ∈ ['#', 'R', 'r'], Text.isBlank c = false :=
    List.forall_mem_cons.mpr ⟨rfl, List.forall_mem_cons.mpr ⟨rfl,
      List.forall_mem_singleton.mpr rfl⟩⟩
  have behind {white rest : List Char} {c : Char} (blank : ∀ d ∈ white, Text.isBlank d = true)
      (letter : c ∈ ['#', 'R', 'r']) :
      Text.isWordInCapitals "FINISH" (Text.trimBlank (white ++ c :: rest)) = false := by
    obtain ⟨more, trimmed⟩ := trimBlank_append rest blank (notBlank c letter)
    rw [trimmed]
    exact not_finish_of_head letter more
  cases skipped with
  | blank blank =>
      have trimmed : Text.trimBlank chars = [] := by
        rw [← List.append_nil chars]
        unfold Text.trimBlank
        rw [List.dropWhile_append_of_pos blank]
        rfl
      rw [trimmed]
      rfl
  | hash rest blank => exact behind blank (by decide)
  | remark rest blank one _ _ => exact behind blank (List.mem_cons_of_mem _ one)

/-- A skipped line is no control value. -/
theorem ofText_of_skipped {content : String} (skipped : Skipped content.toList) :
    Line.ofText content = .text content := by
  have other : content ≠ "DONE" := by
    rintro rfl
    rcases skipped.head with blank | letter
    · exact absurd blank (by decide)
    · exact absurd letter (by decide)
  unfold Line.ofText
  rw [not_finish_of_skipped skipped, if_neg other]
  rfl

end Bundled.Comments

end LineScript
