import LineScript.Bundled.Basic
import LineScript.Proofs.Bundled.Comments
import LineScript.Proofs.Bundled.Pause
import LineScript.Proofs.Session.Dereferencing

/-!
# Lines that bundled patterns are found in

A pattern is found in a line only if the line has the shape that the pattern spells out. So a line
of one shape is passed by the actions for the other shapes: those for comments and keystrokes pass
pauses and assignments to names, and neither of the last two is taken for the other. Only the name
REM makes a comment of an assignment.
-/

namespace LineScript.Bundled

open Pattern (Node)

section Found

variable {line : List Char} {groups : List (Option (List Char))}

/-- A line in which the pattern of blank lines is found is white space. -/
theorem isBlank_of_groups?_blankLine (found : Comments.blankLine.groups? line = some groups) :
    ∀ c ∈ line, Text.isBlank c = true := by
  obtain ⟨_, _, ⟨last, _, blanks, ends⟩, -⟩ := Pattern.exists_reads_of_groups? rfl found
  obtain ⟨-, white, -, blank, ahead⟩ := Node.reads_category blanks
  obtain ⟨-, ends⟩ := Node.reads_finalEnd ends
  have whole : line = white ++ last.ahead := ahead
  rw [whole]
  refine List.forall_mem_append.mpr ⟨blank, fun c member => ?_⟩
  simp only [List.mem_cons, List.not_mem_nil, or_false] at ends
  rcases ends with none | feed
  · rw [none] at member
    cases member
  · rw [feed, List.mem_singleton] at member
    rw [member]
    rfl

/-- A line in which the pattern of comments is found is skipped. -/
theorem skipped_of_groups?_comment (found : Comments.comment.groups? line = some groups) :
    Comments.Skipped line := by
  obtain ⟨last, _, ⟨start, _, blanks, word⟩, -⟩ := Pattern.exists_reads_of_groups? rfl found
  obtain ⟨-, white, -, blank, ahead⟩ := Node.reads_category blanks
  have whole : line = white ++ start.ahead := ahead
  rw [whole]
  rcases word with ⟨-, c, sign, rest, -⟩ | remark
  · obtain rfl := Text.sameFold_sign (by decide) sign
    rw [rest]
    exact .hash last.ahead blank
  · obtain ⟨second, _, ⟨-, r, one, first, -⟩, third, _, ⟨-, e, two, behind, -⟩, fourth, _,
      ⟨-, m, three, further, -⟩, ⟨-, space, four, rest, -⟩⟩ := remark
    obtain rfl := Text.sameFold_sign (by decide) four
    rw [first, behind, further, rest]
    exact .remark last.ahead blank (Text.sameFold_capital (by decide) one)
      (Text.sameFold_capital (by decide) two) (Text.sameFold_capital (by decide) three)

/-- The patterns of blank lines and comments are found in no line that is not skipped. -/
theorem groups?_comments_eq_none (kept : ¬Comments.Skipped line) :
    Comments.blankLine.groups? line = none ∧ Comments.comment.groups? line = none := by
  constructor
  · cases found : Comments.blankLine.groups? line with
    | none => rfl
    | some groups => exact absurd (.blank (isBlank_of_groups?_blankLine found)) kept
  · cases found : Comments.comment.groups? line with
    | none => rfl
    | some groups => exact absurd (skipped_of_groups?_comment found) kept

/-- A line in which the pattern of assignments is found has ` = ` in it. -/
theorem isInfix_of_groups?_assignment (found : Variables.assignment.groups? line = some groups) :
    " = ".toList <:+: line := by
  obtain ⟨_, _, ⟨second, _, ⟨_, front, -⟩, third, _, ⟨-, _, space, first, -⟩, fourth, _,
    ⟨-, _, equals, behind, -⟩, last, _, ⟨-, _, space', further, -⟩, -⟩, -⟩ :=
    Pattern.exists_reads_of_groups? rfl found
  obtain ⟨-, front, -, -, ahead⟩ := Node.reads_repeated front
  obtain rfl := beq_iff_eq.mp space
  obtain rfl := beq_iff_eq.mp equals
  obtain rfl := beq_iff_eq.mp space'
  refine ⟨front, last.ahead, ?_⟩
  have whole : line = front ++ second.ahead := ahead
  rw [whole, first, behind, further, List.append_assoc]
  rfl

/-- A line in which the pattern of keystrokes is found starts with its words. -/
theorem isPrefix_of_groups?_waiting (found : Keystroke.waiting.groups? line = some groups) :
    "WAIT FOR KEYSTROKE".toList <+: line := by
  obtain ⟨_, _, read, -⟩ := Pattern.exists_reads_of_groups? rfl found
  obtain ⟨word, rest, alike, ahead, -⟩ := Node.reads_word read
  have same : "WAIT FOR KEYSTROKE".toList = word := by
    refine List.forall₂_eq_eq_eq ▸ alike.imp fun c d passed => ?_
    exact (beq_iff_eq.mp passed).symm
  have whole : line = word ++ rest.ahead := ahead
  rw [same, whole]
  exact List.prefix_append word rest.ahead

end Found

namespace Pause

variable {line digits unit : List Char} {factor : Nat}

theorem notMem_of_alike {chars word : List Char} {c : Char}
    (alike : List.Forall₂ (fun d e => Text.sameFold d e = true) chars word)
    (other : (chars.any fun d => Text.sameFold d c) = false) : c ∉ word := by
  induction alike with
  | nil => exact List.not_mem_nil
  | cons same _ ih =>
      obtain ⟨own, others⟩ := Bool.or_eq_false_iff.mp (List.any_cons.symm.trans other)
      intro member
      rcases List.mem_cons.mp member with rfl | later
      · exact Bool.false_ne_true (own.symm.trans same)
      · exact ih others later

theorem IsUnit.notMem_equals (named : IsUnit unit factor) : '=' ∉ unit := by
  intro member
  cases named with
  | milliseconds one two =>
      rcases List.mem_cons.mp member with rfl | second
      · exact absurd one (by decide)
      · exact absurd (List.mem_singleton.mp second ▸ two) (by decide)
  | seconds one => exact absurd (List.mem_singleton.mp member ▸ one) (by decide)
  | minutes one => exact absurd (List.mem_singleton.mp member ▸ one) (by decide)

theorem IsPause.notMem_equals (paused : IsPause line digits unit factor) : '=' ∉ line := by
  cases paused with
  | intro alike _ numeral blank named last =>
      simp only [List.mem_append, not_or]
      refine ⟨notMem_of_alike alike (by decide), ?_, ?_, named.notMem_equals, ?_⟩
      · exact fun member => absurd (numeral '=' member) (by decide)
      · exact fun member => absurd (blank '=' member) (by decide)
      · simp only [List.mem_cons, List.not_mem_nil, or_false] at last
        rcases last with rfl | rfl
        · exact List.not_mem_nil
        · decide

theorem IsPause.head (paused : IsPause line digits unit factor) :
    ∃ c rest, line = c :: rest ∧ c ∈ ['s', 'S', 'ſ'] := by
  cases paused with
  | intro alike _ _ _ _ _ =>
      cases alike with
      | cons same _ => exact ⟨_, _, rfl, Text.sameFold_s same⟩

/-- The other patterns are not found in a pause. -/
theorem IsPause.groups?_others (paused : IsPause line digits unit factor) :
    ¬Comments.Skipped line ∧ Variables.assignment.groups? line = none ∧
      Keystroke.waiting.groups? line = none := by
  obtain ⟨c, rest, whole, letter⟩ := paused.head
  refine ⟨?_, ?_, ?_⟩
  · intro skipped
    rw [whole] at skipped
    simp only [List.mem_cons, List.not_mem_nil, or_false] at letter
    rcases letter with rfl | rfl | rfl <;> exact absurd skipped.head (by decide)
  · refine Option.eq_none_iff_forall_ne_some.mpr fun groups found => paused.notMem_equals ?_
    exact (isInfix_of_groups?_assignment found).subset (by decide)
  · refine Option.eq_none_iff_forall_ne_some.mpr fun groups found => ?_
    have first := isPrefix_of_groups?_waiting found
    rw [whole] at first
    have start : 'W' = c := (List.cons_prefix_cons.mp first).1
    exact absurd (start ▸ letter) (by decide)

end Pause

end LineScript.Bundled
