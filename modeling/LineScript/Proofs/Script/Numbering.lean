import LineScript.Script.Line

/-!
# The numbers of lines

A text is cut at its line breaks, where a carriage return with a line feed behind it is one break
(`LineScript.Text.cut_iff`). A line of a script bears the number of the items up to it, those of
empty lines included, and no FINISH stands before it (`LineScript.Script.exists_standsBehind`).
-/

namespace LineScript

namespace Text

/-- Whether no character breaks a line. -/
def Unbroken (segment : List Char) : Prop :=
  '\r' ∉ segment ∧ '\n' ∉ segment

/-- Whether a text is cut at its line breaks into segments. -/
inductive Cut : List Char → List (List Char) → Prop where
  | last {segment : List Char} : Unbroken segment → Cut segment [segment]
  | pair {segment rest : List Char} {segments : List (List Char)} :
      Unbroken segment → Cut rest segments →
      Cut (segment ++ '\r' :: '\n' :: rest) (segment :: segments)
  | feed {segment rest : List Char} {segments : List (List Char)} :
      Unbroken segment → Cut rest segments →
      Cut (segment ++ '\n' :: rest) (segment :: segments)
  | carriage {segment rest : List Char} {segments : List (List Char)} :
      Unbroken segment → rest.head? ≠ some '\n' → Cut rest segments →
      Cut (segment ++ '\r' :: rest) (segment :: segments)

theorem unbroken_nil : Unbroken [] :=
  ⟨List.not_mem_nil, List.not_mem_nil⟩

theorem Unbroken.cons {segment : List Char} {c : Char} (unbroken : Unbroken segment)
    (carriage : c ≠ '\r') (feed : c ≠ '\n') : Unbroken (c :: segment) := by
  refine ⟨?_, ?_⟩
  · rintro (_ | ⟨_, member⟩)
    · exact carriage rfl
    · exact unbroken.1 member
  · rintro (_ | ⟨_, member⟩)
    · exact feed rfl
    · exact unbroken.2 member

theorem Cut.ne_nil {chars : List Char} {segments : List (List Char)} (cut : Cut chars segments) :
    segments ≠ [] := by
  cases cut <;> exact List.cons_ne_nil _ _

theorem Cut.cons {chars segment : List Char} {others : List (List Char)} {c : Char}
    (cut : Cut chars (segment :: others)) (carriage : c ≠ '\r') (feed : c ≠ '\n') :
    Cut (c :: chars) ((c :: segment) :: others) := by
  cases cut with
  | last unbroken => exact .last (unbroken.cons carriage feed)
  | pair unbroken rest => exact .pair (unbroken.cons carriage feed) rest
  | feed unbroken rest => exact .feed (unbroken.cons carriage feed) rest
  | carriage unbroken other rest => exact .carriage (unbroken.cons carriage feed) other rest

/-- The segments of a text are those that its line breaks cut it into. -/
theorem cut_segments (chars : List Char) : Cut chars (segments chars) := by
  fun_induction segments chars with
  | case1 => exact .last unbroken_nil
  | case2 rest ih => exact .pair unbroken_nil ih
  | case3 rest other ih =>
      refine .carriage unbroken_nil ?_ ih
      intro next
      obtain ⟨tail, rfl⟩ := List.head?_eq_some_iff.mp next
      exact other tail rfl
  | case4 rest ih => exact .feed unbroken_nil ih
  | case5 c rest pair carriage feed none ih => exact absurd none ih.ne_nil
  | case6 c rest pair carriage feed segment others found ih =>
      rw [found] at ih
      exact ih.cons carriage feed

theorem segments_cons {c : Char} {chars segment : List Char} {others : List (List Char)}
    (carriage : c ≠ '\r') (feed : c ≠ '\n') (rest : segments chars = segment :: others) :
    segments (c :: chars) = (c :: segment) :: others := by
  rw [segments, rest]
  · rintro tail rfl
    exact absurd rfl carriage
  · exact carriage
  · exact feed

theorem segments_append {segment chars : List Char} {others : List (List Char)}
    (unbroken : Unbroken segment) (rest : segments chars = [] :: others) :
    segments (segment ++ chars) = segment :: others := by
  induction segment with
  | nil => exact rest
  | cons c segment ih =>
      have carriage : c ≠ '\r' := by
        rintro rfl
        exact unbroken.1 List.mem_cons_self
      have feed : c ≠ '\n' := by
        rintro rfl
        exact unbroken.2 List.mem_cons_self
      refine segments_cons carriage feed (ih ⟨?_, ?_⟩)
      · intro member
        exact unbroken.1 (List.mem_cons_of_mem c member)
      · intro member
        exact unbroken.2 (List.mem_cons_of_mem c member)

/-- The line breaks of a text cut it into its segments and nothing else. -/
theorem cut_iff {chars : List Char} {cuts : List (List Char)} :
    Cut chars cuts ↔ segments chars = cuts := by
  constructor
  · intro cut
    induction cut with
    | last unbroken =>
        have whole := segments_append unbroken (show segments [] = [[]] from rfl)
        rw [List.append_nil] at whole
        exact whole
    | pair unbroken rest ih =>
        refine segments_append unbroken ?_
        rw [segments, ih]
    | feed unbroken rest ih =>
        refine segments_append unbroken ?_
        rw [segments, ih]
    | carriage unbroken other rest ih =>
        refine segments_append unbroken ?_
        rw [segments, ih]
        rintro tail rfl
        exact other rfl
  · rintro rfl
    exact cut_segments chars

example : segments "a\r\n\rb".toList = [['a'], [], ['b']] := by
  decide

end Text

namespace Script

/-- Whether a text, a list or a tuple consists of some items: a text of what its line breaks cut it
into. -/
inductive ConsistsOf : Value → List Value → Prop where
  | text {content : String} {segments : List (List Char)} : Text.Cut content.toList segments →
      ConsistsOf (.text content) (segments.map fun segment => .text (String.ofList segment))
  | list (items : List Value) : ConsistsOf (.list items) items
  | tuple (items : List Value) : ConsistsOf (.tuple items) items

theorem numberFrom_empty (number : Nat) (items : List Value) :
    numberFrom number (.text "" :: items) = numberFrom (number + 1) items := rfl

theorem numberFrom_cons {item : Value} (filled : item ≠ .text "") (number : Nat)
    (items : List Value) :
    numberFrom number (item :: items) =
      (number, Line.ofValue item) :: numberFrom (number + 1) items := by
  rw [numberFrom]
  exact filled

theorem le_of_mem_numberFrom {number : Nat} {items : List Value} {line : Nat × Line}
    (member : line ∈ numberFrom number items) : number ≤ line.1 := by
  induction items generalizing number with
  | nil => cases member
  | cons item items ih =>
      by_cases empty : item = .text ""
      · rw [empty, numberFrom_empty] at member
        exact Nat.le_of_succ_le (ih member)
      · rw [numberFrom_cons empty] at member
        rcases List.mem_cons.mp member with rfl | member
        · exact Nat.le_refl number
        · exact Nat.le_of_succ_le (ih member)

theorem numberFrom_increasing (number : Nat) (items : List Value) :
    (numberFrom number items).Pairwise fun first second => first.1 < second.1 := by
  induction items generalizing number with
  | nil => exact List.Pairwise.nil
  | cons item items ih =>
      by_cases empty : item = .text ""
      · rw [empty, numberFrom_empty]
        exact ih (number + 1)
      · rw [numberFrom_cons empty]
        refine List.Pairwise.cons ?_ (ih (number + 1))
        intro line member
        exact le_of_mem_numberFrom member

theorem ofValue_empty_ne : Line.ofValue (.text "") ≠ .sentinel .finish := by
  decide

theorem numberFrom_append (number : Nat) (before after : List Value) :
    numberFrom number (before ++ after) =
      numberFrom number before ++ numberFrom (number + before.length) after := by
  induction before generalizing number with
  | nil => rfl
  | cons item before ih =>
      have count : number + (item :: before).length = number + 1 + before.length := by
        rw [List.length_cons]
        omega
      rw [List.cons_append, count]
      by_cases empty : item = .text ""
      · rw [empty, numberFrom_empty, numberFrom_empty, ih]
      · rw [numberFrom_cons empty, numberFrom_cons empty, ih, List.cons_append]

theorem beforeFinish_cons {line : Nat × Line} (other : line.2 ≠ .sentinel .finish)
    (lines : List (Nat × Line)) : beforeFinish (line :: lines) = line :: beforeFinish lines :=
  List.takeWhile_cons_of_pos (decide_eq_true other)

theorem beforeFinish_finish (number : Nat) (lines : List (Nat × Line)) :
    beforeFinish ((number, .sentinel .finish) :: lines) = [] := rfl

theorem beforeFinish_numberFrom_append {before : List Value}
    (others : ∀ earlier ∈ before, Line.ofValue earlier ≠ .sentinel .finish) (number : Nat)
    (lines : List (Nat × Line)) :
    beforeFinish (numberFrom number before ++ lines) =
      numberFrom number before ++ beforeFinish lines := by
  induction before generalizing number with
  | nil => rfl
  | cons item before ih =>
      have rest := fun earlier member => others earlier (List.mem_cons_of_mem item member)
      by_cases empty : item = .text ""
      · rw [empty, numberFrom_empty, ih rest]
      · rw [numberFrom_cons empty, List.cons_append,
          beforeFinish_cons (others item List.mem_cons_self), ih rest, List.cons_append]

/-- A line stands at a number in a row of items, behind some of them: it is not empty, and there is
no FINISH before it. -/
structure StandsBehind (before : List Value) (items : List Value) (number : Nat) (line : Line) :
    Prop where
  split : ∃ item after, items = before ++ item :: after ∧ item ≠ .text "" ∧
    Line.ofValue item = line
  count : number = before.length + 1
  unfinished : ∀ earlier ∈ before, Line.ofValue earlier ≠ .sentinel .finish

/-- A line that stands in a row of items is one of those before FINISH, behind the lines of the
items before it. -/
theorem StandsBehind.beforeFinish_eq {before items : List Value} {number : Nat} {line : Line}
    (stands : StandsBehind before items number line) (other : line ≠ .sentinel .finish) :
    ∃ back, beforeFinish (ofItems items) = ofItems before ++ (number, line) :: back := by
  obtain ⟨⟨item, after, rfl, filled, rfl⟩, rfl, unfinished⟩ := stands
  refine ⟨beforeFinish (numberFrom (before.length + 2) after), ?_⟩
  unfold ofItems
  rw [numberFrom_append, beforeFinish_numberFrom_append unfinished, numberFrom_cons filled,
    beforeFinish_cons other, Nat.add_comm 1]

theorem exists_of_beforeFinish_numberFrom {first number : Nat} {items : List Value} {line : Line}
    {front back : List (Nat × Line)}
    (lines : beforeFinish (numberFrom first items) = front ++ (number, line) :: back) :
    ∃ before item after, items = before ++ item :: after ∧ item ≠ .text "" ∧
      Line.ofValue item = line ∧ number = first + before.length ∧
      (∀ earlier ∈ before, Line.ofValue earlier ≠ .sentinel .finish) ∧
      front = numberFrom first before := by
  have absent : front ++ (number, line) :: back ≠ [] :=
    List.append_ne_nil_of_right_ne_nil front (List.cons_ne_nil _ back)
  induction items generalizing first front with
  | nil => exact absurd lines.symm absent
  | cons item items ih =>
      by_cases empty : item = .text ""
      · rw [empty, numberFrom_empty] at lines
        obtain ⟨before, found, after, rfl, filled, same, count, unfinished, ahead⟩ :=
          ih lines absent
        refine ⟨item :: before, found, after, rfl, filled, same, ?_, ?_, ?_⟩
        · rw [List.length_cons]
          omega
        · rw [empty]
          exact List.forall_mem_cons.mpr ⟨ofValue_empty_ne, unfinished⟩
        · rw [empty, numberFrom_empty]
          exact ahead
      · rw [numberFrom_cons empty] at lines
        by_cases finish : Line.ofValue item = .sentinel .finish
        · rw [finish, beforeFinish_finish] at lines
          exact absurd lines.symm absent
        · rw [beforeFinish_cons finish] at lines
          cases front with
          | nil =>
              obtain ⟨same, -⟩ := List.cons.inj lines
              cases same
              refine ⟨[], item, items, rfl, empty, rfl, rfl, ?_, rfl⟩
              intro earlier member
              cases member
          | cons ahead front =>
              obtain ⟨rfl, rest⟩ := List.cons.inj lines
              obtain ⟨before, found, after, rfl, filled, same, count, unfinished, rfl⟩ :=
                ih rest (List.append_ne_nil_of_right_ne_nil front (List.cons_ne_nil _ back))
              refine ⟨item :: before, found, after, rfl, filled, same, ?_, ?_, ?_⟩
              · rw [List.length_cons]
                omega
              · exact List.forall_mem_cons.mpr ⟨finish, unfinished⟩
              · rw [numberFrom_cons empty]

/-- A line before FINISH stands at its number in the row of items, behind the items of the lines in
front of it. -/
theorem exists_standsBehind {items : List Value} {number : Nat} {line : Line}
    {front back : List (Nat × Line)}
    (lines : beforeFinish (ofItems items) = front ++ (number, line) :: back) :
    ∃ before, StandsBehind before items number line ∧ front = ofItems before := by
  obtain ⟨before, item, after, split, filled, same, count, unfinished, ahead⟩ :=
    exists_of_beforeFinish_numberFrom lines
  refine ⟨before, ⟨⟨item, after, split, filled, same⟩, ?_, unfinished⟩, ahead⟩
  rw [count, Nat.add_comm]

/-- The numbers of the lines before FINISH increase. -/
theorem beforeFinish_increasing (items : List Value) :
    (beforeFinish (ofItems items)).Pairwise fun first second => first.1 < second.1 :=
  (numberFrom_increasing 1 items).sublist (List.takeWhile_sublist _)

end Script

end LineScript
