import Mathlib.Data.List.TakeWhile
import LineScript.Proofs.Bundled.Shapes
import LineScript.Proofs.Script.Numbering

/-!
# Assignments to names

A line with a name, ` = ` and a value is cut there, unless ` = ` stands in the value once more. The
other bundled actions pass the line, and so do those for comments unless the name is REM.
-/

namespace LineScript

theorem Reference.IsName.isTail_or {chars : List Char} (named : IsName chars) :
    ∀ c ∈ chars, isTail c = true ∨ c = '_' := by
  have own {c : Char} {tail : List Char} (capital : isCapital c = true)
      (inside : ∀ d ∈ tail, isTail d = true) : ∀ d ∈ c :: tail, isTail d = true ∨ d = '_' := by
    refine List.forall_mem_cons.mpr ⟨Or.inl ?_, fun d member => Or.inl (inside d member)⟩
    exact Bool.or_eq_true_iff.mpr (Or.inl capital)
  induction named with
  | part capital inside => exact own capital inside
  | parts capital inside _ ih =>
      exact List.forall_mem_append.mpr
        ⟨own capital inside, List.forall_mem_cons.mpr ⟨Or.inr rfl, ih⟩⟩

/-- A character that stands in no name is not in one. -/
theorem Reference.IsName.notMem {chars : List Char} {c : Char} (named : IsName chars)
    (other : isTail c = false ∧ c ≠ '_') : c ∉ chars := by
  intro member
  rcases named.isTail_or c member with tail | underscore
  · exact Bool.false_ne_true (other.1.symm.trans tail)
  · exact other.2 underscore

theorem Text.isBlank_of_isCapital {c : Char} (capital : Reference.isCapital c = true) :
    isBlank c = false := by
  unfold Reference.isCapital at capital
  rw [Bool.and_eq_true, decide_eq_true_eq, decide_eq_true_eq, Char.le_def, Char.le_def,
    UInt32.le_iff_toNat_le, UInt32.le_iff_toNat_le] at capital
  have low : 65 ≤ c.toNat := capital.1
  have high : c.toNat ≤ 90 := capital.2
  unfold isBlank
  simp only [Bool.or_eq_false_iff, Bool.and_eq_false_iff, decide_eq_false_iff_not,
    beq_eq_false_iff_ne]
  omega

namespace Pattern.LongestTaken

variable {reach : List Char → List Char → Option Captures} {ahead taken rest : List Char}
  {found : Option Captures} {held : Captures}

/-- A piece that leads to captures is the one that is taken if no longer one leads to any. -/
theorem eq_of_reached (longest : LongestTaken reach ahead found) (whole : ahead = taken ++ rest)
    (reached : reach taken rest = some held)
    (failed : ∀ longer others, ahead = longer ++ others → taken.length < longer.length →
      reach longer others = none) : found = some held := by
  cases longest with
  | unreached none =>
      rw [none taken rest whole] at reached
      cases reached
  | @reached other behind _ split reached' failed' =>
      rcases Nat.lt_trichotomy other.length taken.length with shorter | same | longer
      · rw [failed' taken rest whole shorter] at reached
        cases reached
      · obtain ⟨rfl, rfl⟩ := List.append_inj (split.symm.trans whole) same
        exact reached'.symm.trans reached
      · rw [failed other behind split longer] at reached'
        cases reached'

end Pattern.LongestTaken

namespace Bundled.Variables

open Pattern (Captures Goal LongestTaken Node Place)
open Reference (IsName quote)

section Cut

variable {captures : Captures} {behind ahead front back : List Char}

theorem longestTaken_anything {goal : Goal} (unbroken : '\n' ∉ ahead) :
    LongestTaken (fun taken rest => goal ⟨taken.reverse ++ behind, rest⟩ captures) ahead
      (anything.run ⟨behind, ahead⟩ captures goal) := by
  refine LongestTaken.of_optionalRounds ?_ (Nat.le_succ ahead.length)
  intro c member
  unfold Pattern.CharTest.accepts
  rw [bne_iff_ne]
  rintro rfl
  exact unbroken member

/-- The pattern node for what stands behind ` = `. -/
def value : Node :=
  .seq (.group 2 anything) (.anchor .finalEnd)

/-- The pattern node for what stands behind the name. -/
def separated : Node :=
  .seq (.one (.exactly ' ')) (.seq (.one (.exactly '=')) (.seq (.one (.exactly ' ')) value))

/-- The value reaches to the end of the line. -/
theorem value_run (unbroken : '\n' ∉ ahead) :
    (value.run ⟨behind, ahead⟩ captures fun _ held => some held) =
      some ((2, ahead) :: captures) := by
  refine (longestTaken_anything unbroken).eq_of_reached (List.append_nil ahead).symm ?_ ?_
  · have text : Place.textUpTo ⟨behind, ahead ++ []⟩ ⟨ahead.reverse ++ behind, []⟩ = ahead :=
      Place.textUpTo_append _ _ _
    rw [List.append_nil] at text
    rw [text]
    rfl
  · intro longer others whole more
    rw [whole, List.length_append] at more
    omega

theorem separated_run (place : Place) (goal : Goal) :
    separated.run place captures goal =
      (Node.literal " = ".toList).run place captures fun next held => value.run next held goal :=
  rfl

/-- Behind a name that is too long the rest of the line does not start with ` = `, unless ` = `
stands behind the name once more. -/
theorem isInfix_of_longer {longer others : List Char}
    (whole : front ++ (" = ".toList ++ back) = longer ++ others)
    (more : front.length < longer.length) (starts : " = ".toList <+: others) :
    " = ".toList <:+: ' ' :: back := by
  rcases List.append_eq_append_iff.mp whole with ⟨extra, rfl, rest⟩ | ⟨extra, rfl, -⟩
  · rcases extra with _ | ⟨c, _ | ⟨d, extra⟩⟩
    · rw [List.append_nil] at more
      exact absurd more (Nat.lt_irrefl _)
    · -- the rest starts with the sign
      obtain ⟨-, rfl⟩ := List.cons.inj rest
      exact absurd (List.cons_prefix_cons.mp starts).1 (by decide)
    · obtain ⟨-, rest⟩ := List.cons.inj rest
      obtain ⟨-, rest⟩ := List.cons.inj rest
      change ' ' :: back = extra ++ others at rest
      rw [rest]
      exact starts.isInfix.trans (List.suffix_append extra others).isInfix
  · rw [List.length_append] at more
    omega

/-- A line is cut at its last ` = `. -/
theorem groups?_assignment (unbroken : '\n' ∉ front ++ (" = ".toList ++ back))
    (last : ¬" = ".toList <:+: ' ' :: back) :
    assignment.groups? (front ++ (" = ".toList ++ back)) = some [some front, some back] := by
  have clear : '\n' ∉ back := fun member =>
    unbroken (List.mem_append_right front (List.mem_append_right _ member))
  have first : Place.textUpTo ⟨[], front ++ (" = ".toList ++ back)⟩
      ⟨front.reverse ++ [], " = ".toList ++ back⟩ = front := Place.textUpTo_append _ _ _
  have answered : assignment.root.searchFrom [] (front ++ (" = ".toList ++ back)) =
      some [(2, back), (1, front)] := by
    refine (Node.searchFrom_textStart _ _).trans ?_
    refine (longestTaken_anything unbroken).eq_of_reached rfl ?_ ?_
    · change separated.run _ _ _ = _
      rw [separated_run, Node.run_literal_append, value_run clear, first]
    · intro longer others whole more
      change separated.run _ _ _ = _
      rw [separated_run, Node.run_literal_eq_none]
      exact fun starts => last (isInfix_of_longer whole more starts)
  unfold Pattern.groups?
  rw [answered]
  rfl

end Cut

section Passed

variable {name : List Char}

/-- White space cannot stand in front of a line that starts with another character. -/
theorem eq_nil_of_blank {c d : Char} {chars white rest : List Char}
    (blank : ∀ e ∈ white, Text.isBlank e = true) (other : Text.isBlank c = false)
    (whole : c :: chars = white ++ d :: rest) : white = [] := by
  cases white with
  | nil => rfl
  | cons e white =>
      obtain ⟨rfl, -⟩ := List.cons.inj whole
      rw [blank c List.mem_cons_self] at other
      cases other

/-- A name in front of a space is all there is in front of the first space. -/
theorem eq_of_space {front rest others : List Char} (named : IsName name) (clear : ' ' ∉ front)
    (whole : name ++ ' ' :: rest = front ++ ' ' :: others) : name = front ∧ rest = others := by
  have taken {chars behind : List Char} (spaceless : ' ' ∉ chars) :
      (chars ++ ' ' :: behind).takeWhile (· != ' ') = chars := by
    rw [List.takeWhile_append_of_pos, List.takeWhile_cons_of_neg (by decide), List.append_nil]
    intro c member
    exact bne_iff_ne.mpr fun space => spaceless (space ▸ member)
  have same : name = front := by
    rw [← taken (named.notMem (by decide)), whole, taken clear]
  subst same
  exact ⟨rfl, (List.cons.inj (List.append_cancel_left whole)).2⟩

/-- Of all lines that start with a name and a space, only those with the name REM are skipped. -/
theorem not_skipped (named : IsName name) (other : name ≠ "REM".toList) (rest : List Char) :
    ¬Comments.Skipped (name ++ ' ' :: rest) := by
  obtain ⟨c, tail, first, capital⟩ := named.head
  have notBlank := Text.isBlank_of_isCapital capital
  intro skipped
  generalize whole : name ++ ' ' :: rest = line at skipped
  cases skipped with
  | blank blank =>
      have own := blank c (by rw [← whole, first]; exact List.mem_cons_self)
      exact Bool.false_ne_true (notBlank.symm.trans own)
  | hash others blank =>
      rw [first] at whole
      obtain rfl := eq_nil_of_blank blank notBlank whole
      obtain ⟨rfl, -⟩ := List.cons.inj whole
      exact absurd capital (by decide)
  | @remark white r e m others blank one two three =>
      have front : white = [] := by
        rw [first] at whole
        exact eq_nil_of_blank blank notBlank whole
      subst front
      have letter {small upper d : Char} (known : d ∈ [upper, small]) (member : d ∈ name)
          (foreign : Reference.isTail small = false ∧ small ≠ '_') : d = upper := by
        simp only [List.mem_cons, List.not_mem_nil, or_false] at known
        refine known.resolve_right ?_
        rintro rfl
        exact named.notMem foreign member
      have clear : ' ' ∉ [r, e, m] := by
        intro member
        simp only [List.mem_cons, List.not_mem_nil, or_false] at member
        rcases member with rfl | rfl | rfl
        · exact absurd one (by decide)
        · exact absurd two (by decide)
        · exact absurd three (by decide)
      have cut : name ++ ' ' :: rest = [r, e, m] ++ ' ' :: others := whole
      obtain ⟨rfl, -⟩ := eq_of_space named clear cut
      obtain rfl := letter one (by simp) (by decide)
      obtain rfl := letter two (by simp) (by decide)
      obtain rfl := letter three (by simp) (by decide)
      exact other rfl

/-- The other bundled patterns are not found in an assignment to a name. -/
theorem groups?_others (named : IsName name) (rest : List Char) :
    Pause.pause.groups? (name ++ (" = ".toList ++ rest)) = none ∧
      Keystroke.waiting.groups? (name ++ (" = ".toList ++ rest)) = none := by
  constructor
  · refine Option.eq_none_iff_forall_ne_some.mpr fun groups found => ?_
    obtain ⟨_, _, _, paused, -⟩ := Pause.exists_isPause found
    exact paused.notMem_equals
      (List.mem_append_right name (List.mem_append_left rest (by decide)))
  · refine Option.eq_none_iff_forall_ne_some.mpr fun groups found => ?_
    obtain ⟨more, whole⟩ := isPrefix_of_groups?_waiting found
    have split : name ++ ' ' :: '=' :: ' ' :: rest =
        "WAIT".toList ++ ' ' :: ("FOR KEYSTROKE".toList ++ more) := whole.symm
    obtain ⟨-, behind⟩ := eq_of_space named (by decide) split
    exact absurd (List.cons.inj behind).1 (by decide)

end Passed

/-- A line that assigns what is written to a name. -/
def lineOf (name written : String) : String :=
  name ++ " = " ++ written

theorem toList_lineOf (name written : String) :
    (lineOf name written).toList = name.toList ++ (" = ".toList ++ written.toList) := by
  unfold lineOf
  rw [String.toList_append, String.toList_append, List.append_assoc]

/-- Whether something written can be assigned in a line: it has no line break in it and, with a
space in front, no ` = `. -/
structure Fits (written : List Char) : Prop where
  unbroken : Text.Unbroken written
  single : ¬" = ".toList <:+: ' ' :: written

theorem fits_of_isName {name : List Char} (named : IsName name) : Fits name := by
  refine ⟨⟨named.notMem (by decide), named.notMem (by decide)⟩, fun inside => ?_⟩
  have sign : '=' ∈ ' ' :: name := inside.subset (by decide)
  exact named.notMem (by decide) (List.mem_of_ne_of_mem (by decide) sign)

/-- Double quotes add no ` = ` to a text. -/
theorem fits_quote {content : String} (unbroken : Text.Unbroken content.toList)
    (single : ¬" = ".toList <:+: content.toList) : Fits (quote content).toList := by
  rw [Reference.toList_quote]
  refine ⟨⟨?_, ?_⟩, ?_⟩
  · simpa using unbroken.1
  · simpa using unbroken.2
  · intro inside
    rcases List.infix_cons_iff.mp inside with starts | inside
    · have second := (List.cons_prefix_cons.mp starts).2
      exact absurd (List.cons_prefix_cons.mp second).1 (by decide)
    · rcases List.infix_cons_iff.mp inside with starts | inside
      · exact absurd (List.cons_prefix_cons.mp starts).1 (by decide)
      · rcases List.infix_concat_iff.mp inside with ends | inside
        · obtain none | ⟨front, split, -⟩ := List.suffix_concat_iff.mp ends
          · cases none
          · have last := congrArg List.getLast? split
            rw [List.getLast?_concat] at last
            exact absurd last (by decide)
        · exact single inside

theorem mem_dropWhile_isBlank {c : Char} {chars : List Char} (member : c ∈ chars)
    (filled : Text.isBlank c = false) : c ∈ chars.dropWhile Text.isBlank := by
  rw [← List.takeWhile_append_dropWhile (p := Text.isBlank) (l := chars)] at member
  refine (List.mem_append.mp member).resolve_left fun taken => ?_
  exact Bool.false_ne_true (filled.symm.trans (List.mem_takeWhile_imp taken))

/-- A text with an equals sign in it is not the word FINISH in any case. -/
theorem not_finish_of_sign {chars : List Char} (sign : '=' ∈ chars) :
    Text.isWordInCapitals "FINISH" (Text.trimBlank chars) = false := by
  have kept : '=' ∈ Text.trimBlank chars := by
    unfold Text.trimBlank
    refine List.mem_reverse.mpr (mem_dropWhile_isBlank (List.mem_reverse.mpr ?_) rfl)
    exact mem_dropWhile_isBlank sign rfl
  unfold Text.isWordInCapitals
  rw [beq_eq_false_iff_ne]
  intro same
  have shown : '=' ∈ (Text.trimBlank chars).flatMap Text.capitals :=
    List.mem_flatMap.mpr ⟨'=', kept, List.mem_singleton_self _⟩
  rw [same] at shown
  exact absurd shown (by decide)

theorem unbroken_lineOf {name written : String} (named : IsName name.toList)
    (fits : Fits written.toList) : Text.Unbroken (lineOf name written).toList := by
  rw [toList_lineOf]
  refine ⟨?_, ?_⟩
  · simp [named.notMem (c := '\r') (by decide), fits.unbroken.1]
  · simp [named.ne_break, fits.unbroken.2]

theorem equals_mem_lineOf (name written : String) : '=' ∈ (lineOf name written).toList := by
  rw [toList_lineOf]
  exact List.mem_append_right _ (List.mem_append_left _ (by decide))

theorem lineOf_ne_empty (name written : String) : lineOf name written ≠ "" := by
  intro same
  have sign := equals_mem_lineOf name written
  rw [same] at sign
  cases sign

/-- A line with ` = ` in it is no control value. -/
theorem ofText_lineOf (name written : String) :
    Line.ofText (lineOf name written) = .text (lineOf name written) := by
  have sign := equals_mem_lineOf name written
  have other : lineOf name written ≠ "DONE" := by
    intro same
    rw [same] at sign
    exact absurd sign (by decide)
  unfold Line.ofText
  rw [not_finish_of_sign sign, if_neg other]
  rfl

end Bundled.Variables

end LineScript
