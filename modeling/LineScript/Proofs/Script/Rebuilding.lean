import LineScript.CommandLine.Files
import LineScript.Proofs.Script.Lines

/-!
# Rebuilding a text from its lines

The numbered lines of a text are its segments between the line breaks that are not empty, each with
its place among all of them. Put back at their numbers they give the text again, but for the way in
which its line breaks are written and for those at its end. A file of the text has the same lines
(`LineScript.Script.ofText_rebuilds`).
-/

namespace LineScript

namespace Text

theorem Unbroken.tail {segment : List Char} {c : Char} (unbroken : Unbroken (c :: segment)) :
    Unbroken segment :=
  ⟨fun member => unbroken.1 (List.mem_cons_of_mem c member),
    fun member => unbroken.2 (List.mem_cons_of_mem c member)⟩

/-- No segment of a text has a line break in it. -/
theorem Cut.unbroken {chars : List Char} {cuts : List (List Char)} (cut : Cut chars cuts) :
    ∀ segment ∈ cuts, Unbroken segment := by
  induction cut with
  | last unbroken => exact List.forall_mem_singleton.mpr unbroken
  | pair unbroken rest ih => exact List.forall_mem_cons.mpr ⟨unbroken, ih⟩
  | feed unbroken rest ih => exact List.forall_mem_cons.mpr ⟨unbroken, ih⟩
  | carriage unbroken other rest ih => exact List.forall_mem_cons.mpr ⟨unbroken, ih⟩

theorem unifyBreaks_append {segment : List Char} (unbroken : Unbroken segment)
    (rest : List Char) : unifyBreaks (segment ++ rest) = segment ++ unifyBreaks rest := by
  induction segment with
  | nil => rfl
  | cons c segment ih =>
      have carriage : c ≠ '\r' := by
        rintro rfl
        exact unbroken.1 List.mem_cons_self
      rw [List.cons_append, List.cons_append, unifyBreaks, ih unbroken.tail]
      · rintro tail rfl
        exact absurd rfl carriage
      · exact carriage

theorem intercalate_cons {cuts : List (List Char)} (filled : cuts ≠ []) (segment : List Char) :
    ['\n'].intercalate (segment :: cuts) = segment ++ '\n' :: ['\n'].intercalate cuts := by
  rw [List.intercalate_cons_of_ne_nil filled, List.append_assoc]
  rfl

/-- The segments of a text, joined with line feeds, are the text with its breaks unified. -/
theorem Cut.unifyBreaks_eq {chars : List Char} {cuts : List (List Char)}
    (cut : Cut chars cuts) : unifyBreaks chars = ['\n'].intercalate cuts := by
  induction cut with
  | @last segment unbroken =>
      have whole := unifyBreaks_append unbroken []
      rw [List.append_nil] at whole
      rw [whole, List.intercalate_singleton]
      exact List.append_nil segment
  | pair unbroken rest ih =>
      rw [unifyBreaks_append unbroken, unifyBreaks, ih, intercalate_cons rest.ne_nil]
  | feed unbroken rest ih =>
      rw [unifyBreaks_append unbroken, intercalate_cons rest.ne_nil, ← ih]
      rfl
  | carriage unbroken other rest ih =>
      rw [unifyBreaks_append unbroken, unifyBreaks, ih, intercalate_cons rest.ne_nil]
      rintro tail rfl
      exact other rfl

/-- Segments joined with line feeds are cut there again. -/
theorem cut_intercalate {cuts : List (List Char)} (unbroken : ∀ segment ∈ cuts, Unbroken segment)
    (filled : cuts ≠ []) : Cut (['\n'].intercalate cuts) cuts := by
  induction cuts with
  | nil => exact absurd rfl filled
  | cons segment cuts ih =>
      obtain ⟨own, others⟩ := List.forall_mem_cons.mp unbroken
      by_cases last : cuts = []
      · rw [last, List.intercalate_singleton]
        exact .last own
      · rw [intercalate_cons last]
        exact .feed own (ih others last)

/-- Unifying the line breaks of a text changes none of its segments. -/
theorem segments_unifyBreaks (chars : List Char) :
    segments (unifyBreaks chars) = segments chars := by
  have cut := cut_segments chars
  rw [cut.unifyBreaks_eq]
  exact cut_iff.mp (cut_intercalate cut.unbroken cut.ne_nil)

/-- The segments that are not empty, each with its place, where the first of all has a given one. -/
def filledFrom (number : Nat) (cuts : List (List Char)) : List (Nat × List Char) :=
  ((cuts.zipIdx number).filter fun cut => cut.1 ≠ []).map Prod.swap

/-- Segments put back at their places, with empty ones at the places before them. -/
def placedFrom (number : Nat) : List (Nat × List Char) → List (List Char)
  | [] => []
  | (place, segment) :: rest =>
    List.replicate (place - number) [] ++ segment :: placedFrom (place + 1) rest

theorem filledFrom_empty (number : Nat) (cuts : List (List Char)) :
    filledFrom number ([] :: cuts) = filledFrom (number + 1) cuts := rfl

theorem filledFrom_cons {segment : List Char} (filled : segment ≠ []) (number : Nat)
    (cuts : List (List Char)) :
    filledFrom number (segment :: cuts) = (number, segment) :: filledFrom (number + 1) cuts := by
  unfold filledFrom
  rw [List.zipIdx_cons]
  exact congrArg (List.map Prod.swap) (List.filter_cons_of_pos (decide_eq_true filled))

theorem mem_of_mem_filledFrom {number : Nat} {cuts : List (List Char)} {line : Nat × List Char}
    (member : line ∈ filledFrom number cuts) : number ≤ line.1 ∧ line.2 ∈ cuts := by
  induction cuts generalizing number with
  | nil => cases member
  | cons segment cuts ih =>
      by_cases empty : segment = []
      · rw [empty, filledFrom_empty] at member
        obtain ⟨least, own⟩ := ih member
        exact ⟨Nat.le_of_succ_le least, List.mem_cons_of_mem segment own⟩
      · rw [filledFrom_cons empty] at member
        rcases List.mem_cons.mp member with rfl | member
        · exact ⟨Nat.le_refl number, List.mem_cons_self⟩
        · obtain ⟨least, own⟩ := ih member
          exact ⟨Nat.le_of_succ_le least, List.mem_cons_of_mem segment own⟩

theorem placedFrom_of_lt {number place : Nat} (lower : number < place) (segment : List Char)
    (rest : List (Nat × List Char)) :
    placedFrom number ((place, segment) :: rest) =
      [] :: placedFrom (number + 1) ((place, segment) :: rest) := by
  have gap : place - number = place - (number + 1) + 1 := by omega
  rw [placedFrom, placedFrom, gap, List.replicate_succ, List.cons_append]

/-- The segments at their places are all segments but some empty ones at the end. -/
theorem exists_placedFrom (number : Nat) (cuts : List (List Char)) :
    ∃ rest, cuts = placedFrom number (filledFrom number cuts) ++ List.replicate rest [] := by
  induction cuts generalizing number with
  | nil => exact ⟨0, rfl⟩
  | cons segment cuts ih =>
      obtain ⟨rest, same⟩ := ih (number + 1)
      by_cases empty : segment = []
      · rw [empty, filledFrom_empty]
        cases lines : filledFrom (number + 1) cuts with
        | nil =>
            rw [lines] at same
            exact ⟨rest + 1, congrArg (List.cons []) same⟩
        | cons line others =>
            have lower : number < line.1 := by
              have first : line ∈ filledFrom (number + 1) cuts := by
                rw [lines]
                exact List.mem_cons_self
              exact (mem_of_mem_filledFrom first).1
            rw [lines] at same
            rw [placedFrom_of_lt lower]
            exact ⟨rest, congrArg (List.cons []) same⟩
      · rw [filledFrom_cons empty, placedFrom, Nat.sub_self]
        exact ⟨rest, congrArg (List.cons segment) same⟩

/-- An empty segment at the end is a line feed there, unless it is the only segment. -/
theorem intercalate_append_empty {cuts : List (List Char)} (filled : cuts ≠ []) :
    ['\n'].intercalate (cuts ++ [[]]) = ['\n'].intercalate cuts ++ ['\n'] := by
  induction cuts with
  | nil => exact absurd rfl filled
  | cons segment cuts ih =>
      rw [List.cons_append, intercalate_cons (List.append_ne_nil_of_right_ne_nil cuts
        (List.cons_ne_nil [] []))]
      by_cases last : cuts = []
      · rw [last, List.intercalate_singleton]
        rfl
      · rw [ih last, intercalate_cons last, List.append_assoc]
        rfl

/-- Empty segments at the end are line feeds there. -/
theorem exists_intercalate_append (cuts : List (List Char)) (rest : Nat) :
    ∃ breaks, ['\n'].intercalate (cuts ++ List.replicate rest []) =
      ['\n'].intercalate cuts ++ List.replicate breaks '\n' := by
  induction rest with
  | zero =>
      refine ⟨0, ?_⟩
      rw [List.replicate_zero, List.replicate_zero, List.append_nil, List.append_nil]
  | succ rest ih =>
      obtain ⟨breaks, same⟩ := ih
      rw [List.replicate_succ', ← List.append_assoc]
      by_cases none : cuts ++ List.replicate rest [] = []
      · obtain ⟨rfl, none⟩ := List.append_eq_nil_iff.mp none
        rw [none]
        exact ⟨0, rfl⟩
      · refine ⟨breaks + 1, ?_⟩
        rw [intercalate_append_empty none, same, List.append_assoc, List.replicate_succ']

/-- A text with unified breaks is its segments at their places, joined with line feeds, but for
line feeds at its end. -/
theorem exists_unifyBreaks {chars : List Char} {cuts : List (List Char)} (cut : Cut chars cuts) :
    ∃ breaks, unifyBreaks chars =
      ['\n'].intercalate (placedFrom 1 (filledFrom 1 cuts)) ++ List.replicate breaks '\n' := by
  obtain ⟨rest, same⟩ := exists_placedFrom 1 cuts
  obtain ⟨breaks, joined⟩ := exists_intercalate_append (placedFrom 1 (filledFrom 1 cuts)) rest
  refine ⟨breaks, ?_⟩
  rw [cut.unifyBreaks_eq, ← joined, ← same]

example : placedFrom 1 (filledFrom 1 [['a'], [], ['b'], []]) = [['a'], [], ['b']] := by
  decide

end Text

namespace Script

/-- The line that a numbered segment stands for. -/
def lineOf (segment : Nat × List Char) : Nat × Line :=
  (segment.1, Line.ofText (String.ofList segment.2))

theorem numberFrom_segments (number : Nat) (cuts : List (List Char)) :
    numberFrom number (cuts.map fun segment => .text (String.ofList segment)) =
      (Text.filledFrom number cuts).map lineOf := by
  induction cuts generalizing number with
  | nil => rfl
  | cons segment cuts ih =>
      rw [List.map_cons]
      by_cases empty : segment = []
      · rw [empty, Text.filledFrom_empty]
        exact ih (number + 1)
      · have filled : Value.text (String.ofList segment) ≠ .text "" := by
          intro same
          exact empty (String.ofList_injective (Value.text.inj same))
        rw [Text.filledFrom_cons empty, numberFrom_cons filled, ih, List.map_cons]
        rfl

/-- The lines of a text are its segments that are not empty, at their places. -/
theorem ofText_eq {content : String} {cuts : List (List Char)}
    (cut : Text.Cut content.toList cuts) :
    ofText content = (Text.filledFrom 1 cuts).map lineOf := by
  unfold ofText ofItems
  rw [Text.cut_iff.mp cut, numberFrom_segments]

theorem unbroken_of_mem_ofText {content line : String} {number : Nat}
    (member : (number, Line.text line) ∈ ofText content) : Text.Unbroken line.toList := by
  have cut := Text.cut_segments content.toList
  rw [ofText_eq cut] at member
  obtain ⟨⟨place, segment⟩, own, same⟩ := List.mem_map.mp member
  obtain ⟨-, within⟩ := Text.mem_of_mem_filledFrom own
  have found : Line.ofText (String.ofList segment) = .text line := congrArg Prod.snd same
  rcases Line.ofText_eq (String.ofList segment) with ⟨mark, sentinel⟩ | text
  · rw [sentinel] at found
    cases found
  · rw [text] at found
    rw [← Line.text.inj found, String.toList_ofList]
    exact cut.unbroken segment within

/-- A text and the text with its breaks unified have the same lines. -/
theorem ofText_unifyBreaks (content : String) :
    ofText (String.ofList (Text.unifyBreaks content.toList)) = ofText content := by
  unfold ofText
  rw [String.toList_ofList, Text.segments_unifyBreaks]

end Script

namespace CommandLine.Files

/-- What is read from a file of a text is the text with its line breaks unified. -/
theorem text_of_toUTF8 {files : Files} {path : Path} {content : String}
    (holds : files.content? path = some (.bytes content.toUTF8)) :
    files.text path = .ok (String.ofList (Text.unifyBreaks content.toList)) := by
  have decoded : String.fromUTF8? content.toUTF8 = some content :=
    dif_pos content.isValidUTF8
  unfold text
  simp only [holds, decoded]

end CommandLine.Files

namespace Script

/-- The lines of a text are what its line breaks leave of it, without the empty segments and each at
its place. No line has a break in it, the numbers increase, and the text is rebuilt from the
segments at their numbers, up to line feeds at its end. A text with unified breaks, or a file of the
text, has the same lines. -/
theorem ofText_rebuilds (content : String) :
    ∃ cuts, (∀ others, Text.Cut content.toList others ↔ others = cuts) ∧
      ofText content = (Text.filledFrom 1 cuts).map lineOf ∧
      (∀ number line, (number, .text line) ∈ ofText content → Text.Unbroken line.toList) ∧
      (ofText content).Pairwise (fun first second => first.1 < second.1) ∧
      (∃ breaks, Text.unifyBreaks content.toList =
        ['\n'].intercalate (Text.placedFrom 1 (Text.filledFrom 1 cuts)) ++
          List.replicate breaks '\n') ∧
      ofText (String.ofList (Text.unifyBreaks content.toList)) = ofText content ∧
      ∀ (files : CommandLine.Files) path,
        files.content? path = some (.bytes content.toUTF8) →
          (files.text path).map ofText = .ok (ofText content) := by
  have cut := Text.cut_segments content.toList
  refine ⟨Text.segments content.toList, ?_, ofText_eq cut, ?_, numberFrom_increasing 1 _,
    Text.exists_unifyBreaks cut, ofText_unifyBreaks content, ?_⟩
  · intro others
    rw [Text.cut_iff]
    exact eq_comm
  · intro number line member
    exact unbroken_of_mem_ofText member
  · intro files path holds
    rw [CommandLine.Files.text_of_toUTF8 holds]
    exact congrArg Except.ok (ofText_unifyBreaks content)

end Script

end LineScript
