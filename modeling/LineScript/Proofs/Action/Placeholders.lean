import LineScript.Action.Template

/-!
# The placeholders of a template

The literal pieces of a template are what its leftmost placeholders that do not overlap leave of
it: in front of a placeholder there is no place, in the piece before it, where another one starts,
and the next is looked for behind its end. A template has one such row of pieces.
-/

namespace LineScript.Template

/-- A double quote, one or more other characters, and a double quote. -/
def IsPlaceholder (chars : List Char) : Prop :=
  ∃ inside, chars = '"' :: inside ++ ['"'] ∧ inside ≠ [] ∧ '"' ∉ inside

/-- Whether the first of some characters are a placeholder. -/
def StartsPlaceholder (chars : List Char) : Prop :=
  ∃ placeholder rest, IsPlaceholder placeholder ∧ chars = placeholder ++ rest

/-- Whether a placeholder starts at one of the characters of a piece, with what is behind the
piece. -/
def StartsWithin (piece behind : List Char) : Prop :=
  ∃ front rest, piece = front ++ rest ∧ rest ≠ [] ∧ StartsPlaceholder (rest ++ behind)

/-- The pieces that the leftmost placeholders which do not overlap leave of some characters. -/
inductive Cut : List Char → List (List Char) → Prop where
  | last {piece : List Char} : ¬StartsWithin piece [] → Cut piece [piece]
  | next {piece placeholder rest : List Char} {others : List (List Char)} :
      IsPlaceholder placeholder → ¬StartsWithin piece (placeholder ++ rest) → Cut rest others →
      Cut (piece ++ (placeholder ++ rest)) (piece :: others)

theorem StartsPlaceholder.split {chars : List Char} (starts : StartsPlaceholder chars) :
    ∃ inside rest, inside ≠ [] ∧ '"' ∉ inside ∧ chars = '"' :: (inside ++ '"' :: rest) := by
  obtain ⟨_, rest, ⟨inside, rfl, filled, plain⟩, rfl⟩ := starts
  exact ⟨inside, rest, filled, plain, by simp⟩

theorem StartsPlaceholder.two_le_count {chars : List Char} (starts : StartsPlaceholder chars) :
    2 ≤ chars.count '"' := by
  obtain ⟨inside, rest, _, _, rfl⟩ := starts.split
  rw [List.count_cons_self, List.count_append, List.count_cons_self]
  omega

theorem not_startsPlaceholder_cons {c : Char} (other : c ≠ '"') (chars : List Char) :
    ¬StartsPlaceholder (c :: chars) := by
  intro starts
  obtain ⟨inside, rest, _, _, whole⟩ := starts.split
  exact other (List.cons.inj whole).1

/-- Two double quotes in a row do not start a placeholder. -/
theorem not_startsPlaceholder_quotes (chars : List Char) :
    ¬StartsPlaceholder ('"' :: '"' :: chars) := by
  intro starts
  obtain ⟨inside, rest, filled, plain, whole⟩ := starts.split
  cases inside with
  | nil => exact filled rfl
  | cons c inside =>
      obtain ⟨rfl, _⟩ := List.cons.inj (List.cons.inj whole).2
      exact plain List.mem_cons_self

theorem not_startsWithin_nil (behind : List Char) : ¬StartsWithin [] behind := by
  rintro ⟨front, rest, split, filled, _⟩
  exact filled (List.append_eq_nil_iff.mp split.symm).2

theorem not_startsWithin_cons {c : Char} {piece behind : List Char}
    (first : ¬StartsPlaceholder (c :: (piece ++ behind))) (others : ¬StartsWithin piece behind) :
    ¬StartsWithin (c :: piece) behind := by
  rintro ⟨front, rest, split, filled, starts⟩
  rcases List.cons_eq_append_iff.mp split with ⟨rfl, rfl⟩ | ⟨front, rfl, rfl⟩
  · exact first starts
  · exact others ⟨front, rest, rfl, filled, starts⟩

namespace Cut

theorem ne_nil {chars : List Char} {pieces : List (List Char)} (cut : Cut chars pieces) :
    pieces ≠ [] := by
  cases cut with
  | last _ => exact List.cons_ne_nil _ _
  | next _ _ _ => exact List.cons_ne_nil _ _

/-- A character where no placeholder starts belongs to the first piece. -/
theorem prependChar {c : Char} {chars : List Char} {pieces : List (List Char)}
    (cut : Cut chars pieces) (first : ¬StartsPlaceholder (c :: chars)) :
    Cut (c :: chars) (prependChar c pieces) := by
  cases cut with
  | last free =>
      refine .last (not_startsWithin_cons ?_ free)
      rw [List.append_nil]
      exact first
  | next placeholder free cut =>
      exact .next placeholder (not_startsWithin_cons first free) cut

/-- A single double quote starts no placeholder. -/
theorem of_one_quote {inside : List Char} (plain : '"' ∉ inside) :
    Cut ('"' :: inside) ['"' :: inside] := by
  refine .last ?_
  rintro ⟨front, rest, split, _, starts⟩
  have one : ('"' :: inside).count '"' = 1 := by
    rw [List.count_cons_self, List.count_eq_zero.mpr plain]
  have two := starts.two_le_count
  rw [split, List.count_append] at one
  rw [List.append_nil] at two
  omega

/-- Scanning cuts a text at its placeholders, with what is behind an open double quote kept. -/
theorem of_scan (opened : Option (List Char)) (chars : List Char)
    (plain : ∀ inside ∈ opened, '"' ∉ inside) :
    Cut ((opened.elim [] (List.cons '"')) ++ chars) (scan opened chars) := by
  -- a double quote is open or not; where it is, what is behind it holds no other one
  induction opened, chars using scan.induct with
  | case1 => exact .last (not_startsWithin_nil [])
  | case2 inside =>
      rw [List.append_nil]
      exact of_one_quote (plain inside rfl)
  | case3 rest ih =>
      unfold scan
      rw [if_pos rfl]
      exact ih (by simp)
  | case4 c rest other ih =>
      unfold scan
      rw [if_neg other]
      exact (ih (by simp)).prependChar (not_startsPlaceholder_cons other rest)
  | case5 inside rest empty ih =>
      obtain rfl := List.isEmpty_iff.mp empty
      unfold scan
      simp only [↓reduceIte, List.isEmpty_nil]
      exact (ih (by simp)).prependChar (not_startsPlaceholder_quotes rest)
  | case6 inside rest filled ih =>
      unfold scan
      simp only [↓reduceIte, filled]
      have placeholder : IsPlaceholder ('"' :: inside ++ ['"']) :=
        ⟨inside, rfl, fun empty => filled (List.isEmpty_iff.mpr empty), plain inside rfl⟩
      have behind := Cut.next placeholder (not_startsWithin_nil _) (ih (by simp))
      simpa using behind
  | case7 inside c rest other ih =>
      unfold scan
      rw [if_neg other]
      have further : ∀ opened ∈ some (inside ++ [c]), '"' ∉ opened := by
        rintro _ ⟨⟩ member
        rcases List.mem_append.mp member with before | last
        · exact plain inside rfl before
        · exact other (List.mem_singleton.mp last).symm
      simpa using ih further

/-- The literal pieces of a template are those around its placeholders. -/
theorem literals (template : List Char) : Cut template (literals template) :=
  of_scan none template (by simp)

/-- A place in front of a placeholder where another one starts is not in the piece before it. -/
theorem eq_nil_of_leftmost {front more placeholder rest behind : List Char}
    (first : IsPlaceholder placeholder) (same : placeholder ++ rest = more ++ behind)
    (leftmost : ¬StartsWithin (front ++ more) behind) : more = [] := by
  cases more with
  | nil => rfl
  | cons c more =>
      exact absurd ⟨front, c :: more, rfl, List.cons_ne_nil c more, placeholder, rest, first,
        same.symm⟩ leftmost

end Cut

/-- The text behind a placeholder is told by where the placeholder starts. -/
theorem IsPlaceholder.rest_eq {first second rest others : List Char}
    (one : IsPlaceholder first) (two : IsPlaceholder second)
    (same : first ++ rest = second ++ others) : rest = others := by
  obtain ⟨inside, rfl, -, plain⟩ := one
  obtain ⟨within, rfl, -, free⟩ := two
  have whole : inside ++ '"' :: rest = within ++ '"' :: others := by simpa using same
  rcases List.append_eq_append_iff.mp whole with ⟨more, rfl, behind⟩ | ⟨more, rfl, behind⟩
  · cases more with
    | nil => exact (List.cons.inj behind).2
    | cons c more =>
        obtain ⟨rfl, _⟩ := List.cons.inj behind
        exact absurd (List.mem_append_right _ List.mem_cons_self) free
  · cases more with
    | nil => exact (List.cons.inj behind).2.symm
    | cons c more =>
        obtain ⟨rfl, _⟩ := List.cons.inj behind
        exact absurd (List.mem_append_right _ List.mem_cons_self) plain

theorem IsPlaceholder.ne_nil {chars : List Char} (placeholder : IsPlaceholder chars) :
    chars ≠ [] := by
  obtain ⟨inside, rfl, _⟩ := placeholder
  exact List.cons_ne_nil _ _

namespace Cut

theorem startsWithin_of_placeholder {piece placeholder : List Char} (rest : List Char)
    (own : IsPlaceholder placeholder) : StartsWithin (piece ++ (placeholder ++ rest)) [] := by
  refine ⟨piece, placeholder ++ rest, rfl, ?_, placeholder, rest, own, List.append_nil _⟩
  intro empty
  exact own.ne_nil (List.append_eq_nil_iff.mp empty).1

/-- The first of two leftmost placeholders is the other. -/
theorem leftmost_unique {piece placeholder rest other second behind : List Char}
    (one : IsPlaceholder placeholder) (two : IsPlaceholder second)
    (first : ¬StartsWithin piece (placeholder ++ rest))
    (also : ¬StartsWithin other (second ++ behind))
    (same : piece ++ (placeholder ++ rest) = other ++ (second ++ behind)) :
    piece = other ∧ rest = behind := by
  rcases List.append_eq_append_iff.mp same with ⟨more, rfl, whole⟩ | ⟨more, rfl, whole⟩
  · obtain rfl := eq_nil_of_leftmost one whole also
    exact ⟨(List.append_nil _).symm, one.rest_eq two whole⟩
  · obtain rfl := eq_nil_of_leftmost two whole first
    exact ⟨List.append_nil _, (two.rest_eq one whole).symm⟩

/-- A template is cut in one way. -/
theorem unique {chars : List Char} {pieces others : List (List Char)} (cut : Cut chars pieces)
    (other : Cut chars others) : pieces = others := by
  induction cut generalizing others with
  | last free =>
      cases other with
      | last _ => rfl
      | next own _ _ => exact absurd (startsWithin_of_placeholder _ own) free
  | @next piece placeholder rest _ own first _ ih =>
      generalize whole : piece ++ (placeholder ++ rest) = text at other
      cases other with
      | last free =>
          rw [← whole] at free
          exact absurd (startsWithin_of_placeholder _ own) free
      | next two also cut =>
          obtain ⟨rfl, rfl⟩ := leftmost_unique own two first also whole
          rw [ih cut]

end Cut

end LineScript.Template
