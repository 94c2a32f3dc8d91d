import LineScript.Session.State

/-!
# What a text stands for

A text between double quotes stands for the text inside, a name for the entry of the state under
it, and every other text for itself. Dereferencing finds this for all texts but some of those that
end with a line feed: where the characters before it are a text between double quotes or a name, the
line feed is overlooked, in the first case altogether, in the second when the text is told to be a
name (`LineScript.State.dereference_text_iff`).
-/

namespace LineScript

namespace Reference

/-- Whether a character may stand in a name behind the first of a part. -/
def isTail (c : Char) : Bool :=
  isCapital c || ('0' ≤ c && c ≤ '9')

/-- Whether characters are a name: a capital with capitals and digits behind it, or such a part,
an underscore and a name. -/
inductive IsName : List Char → Prop where
  | part {c : Char} {tail : List Char} :
      isCapital c = true → (∀ d ∈ tail, isTail d = true) → IsName (c :: tail)
  | parts {c : Char} {tail others : List Char} :
      isCapital c = true → (∀ d ∈ tail, isTail d = true) → IsName others →
      IsName (c :: tail ++ '_' :: others)

/-- What may follow the first character of a name: the tail of its part, and behind an underscore
a name. -/
theorem isRest_iff (chars : List Char) :
    isRest chars = true ↔ ∃ tail, (∀ d ∈ tail, isTail d = true) ∧
      (chars = tail ∨ ∃ others, chars = tail ++ '_' :: others ∧ isParts others = true) := by
  induction chars with
  | nil => exact ⟨fun _ => ⟨[], List.forall_mem_nil _, Or.inl rfl⟩, fun _ => by rw [isRest]⟩
  | cons c rest ih =>
      by_cases underscore : c = '_'
      · subst underscore
        rw [isRest, if_pos rfl]
        constructor
        · intro name
          exact ⟨[], List.forall_mem_nil _, Or.inr ⟨rest, rfl, name⟩⟩
        · rintro ⟨tail, inside, whole⟩
          cases tail with
          | nil =>
              rcases whole with whole | ⟨others, whole, name⟩
              · cases whole
              · cases whole
                exact name
          | cons d tail =>
              have first : d = '_' := by
                rcases whole with whole | ⟨others, whole, name⟩
                · exact (List.cons.inj whole).1.symm
                · exact (List.cons.inj whole).1.symm
              subst first
              exact absurd (inside '_' List.mem_cons_self) (by decide)
      · rw [isRest, if_neg underscore, Bool.and_eq_true, ih]
        constructor
        · rintro ⟨own, tail, inside, whole⟩
          refine ⟨c :: tail, List.forall_mem_cons.mpr ⟨own, inside⟩, ?_⟩
          rcases whole with rfl | ⟨others, rfl, name⟩
          · exact Or.inl rfl
          · exact Or.inr ⟨others, rfl, name⟩
        · rintro ⟨tail, inside, whole⟩
          cases tail with
          | nil =>
              rcases whole with whole | ⟨others, whole, name⟩
              · cases whole
              · exact absurd (List.cons.inj whole).1 underscore
          | cons d tail =>
              obtain ⟨own, behind⟩ := List.forall_mem_cons.mp inside
              rcases whole with whole | ⟨others, whole, name⟩
              · obtain ⟨rfl, rfl⟩ := List.cons.inj whole
                exact ⟨own, rest, behind, Or.inl rfl⟩
              · obtain ⟨rfl, rfl⟩ := List.cons.inj whole
                exact ⟨own, tail, behind, Or.inr ⟨others, rfl, name⟩⟩

theorem isName_of_isParts {chars : List Char} (parts : isParts chars = true) : IsName chars := by
  induction length : chars.length using Nat.strongRecOn generalizing chars with
  | ind size ih =>
      cases chars with
      | nil => cases parts
      | cons c rest =>
          rw [isParts, Bool.and_eq_true, isRest_iff] at parts
          obtain ⟨capital, tail, inside, rfl | ⟨others, rfl, name⟩⟩ := parts
          · exact .part capital inside
          · refine .parts capital inside (ih others.length ?_ name rfl)
            rw [← length, List.length_cons, List.length_append, List.length_cons]
            omega

/-- The test for names accepts names and nothing else. -/
theorem isParts_iff (chars : List Char) : isParts chars = true ↔ IsName chars := by
  constructor
  · exact isName_of_isParts
  · intro name
    induction name with
    | part capital inside =>
        rw [isParts, capital, Bool.true_and, isRest_iff]
        exact ⟨_, inside, Or.inl rfl⟩
    | parts capital inside _ ih =>
        rw [List.cons_append, isParts, capital, Bool.true_and, isRest_iff]
        exact ⟨_, inside, Or.inr ⟨_, rfl, ih⟩⟩

/-- A text in double quotes. -/
def quote (inside : String) : String :=
  "\"" ++ inside ++ "\""

theorem toList_quote (inside : String) :
    (quote inside).toList = '"' :: (inside.toList ++ ['"']) := by
  simp [quote]

theorem withoutFinalBreak_concat (chars : List Char) :
    withoutFinalBreak (chars ++ ['\n']) = chars := by
  simp [withoutFinalBreak]

/-- A line feed is taken from the end of characters if there is one. -/
theorem withoutFinalBreak_eq_iff (chars front : List Char) :
    withoutFinalBreak chars = front ↔
      chars = front ++ ['\n'] ∨ chars = front ∧ chars.getLast? ≠ some '\n' := by
  by_cases last : chars.getLast? = some '\n'
  · obtain ⟨init, rfl⟩ := List.getLast?_eq_some_iff.mp last
    rw [withoutFinalBreak_concat]
    constructor
    · rintro rfl
      exact Or.inl rfl
    · rintro (same | ⟨-, other⟩)
      · exact List.append_cancel_right same
      · exact absurd last other
  · rw [withoutFinalBreak, if_neg last]
    constructor
    · intro same
      exact Or.inr ⟨same, last⟩
    · rintro (rfl | ⟨same, -⟩)
      · exact absurd List.getLast?_concat last
      · exact same

theorem IsName.head {chars : List Char} (name : IsName chars) :
    ∃ c rest, chars = c :: rest ∧ isCapital c = true := by
  cases name with
  | part capital _ => exact ⟨_, _, rfl, capital⟩
  | parts capital _ _ => exact ⟨_, _, rfl, capital⟩

theorem IsName.ne_break {chars : List Char} (name : IsName chars) : '\n' ∉ chars := by
  have own {c : Char} {tail : List Char} (capital : isCapital c = true)
      (inside : ∀ d ∈ tail, isTail d = true) : '\n' ∉ c :: tail := by
    intro member
    rcases List.mem_cons.mp member with rfl | later
    · exact absurd capital (by decide)
    · exact absurd (inside '\n' later) (by decide)
  induction name with
  | part capital inside => exact own capital inside
  | parts capital inside _ ih =>
      intro member
      rcases List.mem_append.mp member with first | second
      · exact own capital inside first
      · rcases List.mem_cons.mp second with same | later
        · exact absurd same (by decide)
        · exact ih later

theorem eq_append_break {content : String} {front : List Char}
    (ends : content.toList = front ++ ['\n']) : content = String.ofList front ++ "\n" := by
  apply String.toList_injective
  rw [String.toList_append, String.toList_ofList]
  exact ends

/-- The test for names lets a line feed at the end pass. -/
theorem isReference_iff (content : String) :
    isReference content = true ↔
      IsName content.toList ∨ ∃ name : String, IsName name.toList ∧ content = name ++ "\n" := by
  unfold isReference
  rw [isParts_iff]
  constructor
  · intro accepted
    rcases (withoutFinalBreak_eq_iff content.toList _).mp rfl with ends | ⟨same, -⟩
    · refine Or.inr ⟨String.ofList (withoutFinalBreak content.toList), ?_, eq_append_break ends⟩
      rw [String.toList_ofList]
      exact accepted
    · rw [same]
      exact Or.inl accepted
  · rintro (name | ⟨name, accepted, rfl⟩)
    · have same : withoutFinalBreak content.toList = content.toList := by
        refine (withoutFinalBreak_eq_iff _ _).mpr (Or.inr ⟨rfl, ?_⟩)
        intro last
        exact name.ne_break (List.mem_of_getLast? last)
      rw [same]
      exact name
    · rw [String.toList_append]
      change IsName (withoutFinalBreak (name.toList ++ ['\n']))
      rw [withoutFinalBreak_concat]
      exact accepted

/-- The text inside the double quotes that characters begin and end with. -/
def insideQuotes? : List Char → Option String
  | '"' :: rest =>
    if rest.getLast? = some '"' then some (String.ofList rest.dropLast) else none
  | _ => none

theorem unquote?_eq (content : String) :
    unquote? content = (insideQuotes? content.toList).orElse fun _ =>
      insideQuotes? (withoutFinalBreak content.toList) := rfl

theorem insideQuotes?_eq_some_iff (chars : List Char) (inside : String) :
    insideQuotes? chars = some inside ↔ chars = (quote inside).toList := by
  rw [toList_quote]
  unfold insideQuotes?
  split
  · rename_i rest
    by_cases last : rest.getLast? = some '"'
    · obtain ⟨front, rfl⟩ := List.getLast?_eq_some_iff.mp last
      simp [String.ext_iff]
    · rw [if_neg last]
      constructor
      · intro none
        cases none
      · intro same
        rw [(List.cons.inj same).2] at last
        exact absurd List.getLast?_concat last
  · rename_i other
    constructor
    · intro none
      cases none
    · intro same
      exact absurd same (other _)

theorem quote_ne_append_break (inside front : String) : quote inside ≠ front ++ "\n" := by
  intro same
  have last : (quote inside).toList.getLast? = (front.toList ++ ['\n']).getLast? := by
    rw [same, String.toList_append]
    rfl
  rw [toList_quote, ← List.cons_append, List.getLast?_concat, List.getLast?_concat] at last
  exact absurd last (by decide)

/-- Quotes are taken from a text in quotes, and so is a line feed behind them. -/
theorem unquote?_eq_some_iff (content inside : String) :
    unquote? content = some inside ↔ content = quote inside ∨ content = quote inside ++ "\n" := by
  rw [unquote?_eq]
  rcases (withoutFinalBreak_eq_iff content.toList _).mp rfl with ends | ⟨same, last⟩
  · obtain ⟨front, rfl⟩ : ∃ front, content = front ++ "\n" := ⟨_, eq_append_break ends⟩
    have outer : insideQuotes? (front ++ "\n").toList = none := by
      apply Option.eq_none_iff_forall_ne_some.mpr
      intro other found
      rw [insideQuotes?_eq_some_iff] at found
      exact quote_ne_append_break other front (String.toList_injective found).symm
    have inner : withoutFinalBreak (front ++ "\n").toList = front.toList := by
      rw [String.toList_append]
      exact withoutFinalBreak_concat front.toList
    rw [outer, inner, Option.orElse_none, insideQuotes?_eq_some_iff, String.toList_inj]
    constructor
    · rintro rfl
      exact Or.inr rfl
    · rintro (whole | whole)
      · exact absurd whole.symm (quote_ne_append_break inside front)
      · exact String.append_left_inj "\n" |>.mp whole
  · rw [← same]
    have single : ((insideQuotes? content.toList).orElse fun _ => insideQuotes? content.toList) =
        insideQuotes? content.toList := by
      cases insideQuotes? content.toList <;> rfl
    rw [single, insideQuotes?_eq_some_iff, String.toList_inj]
    constructor
    · exact Or.inl
    · rintro (whole | rfl)
      · exact whole
      · exact absurd (by simp) last

/-- What a text stands for in a state: the text inside its double quotes, the entry of the state
under the name that it is, or itself. The name of a missing entry stands for nothing. -/
inductive StandsFor (state : State) : String → Except Fault Value → Prop where
  | quoted (inside : String) : StandsFor state (quote inside) (.ok (.text inside))
  | entry {name : String} {value : Value} :
      IsName name.toList → state.get? name = some value → StandsFor state name (.ok value)
  | missing {name : String} :
      IsName name.toList → state.get? name = none →
      StandsFor state name (.error (.script (.unknownReference name)))
  | itself {content : String} :
      (∀ inside, content ≠ quote inside) → ¬IsName content.toList →
      StandsFor state content (.ok (.text content))

theorem not_isName_append_break (front : String) : ¬IsName (front ++ "\n").toList := by
  intro name
  refine name.ne_break ?_
  rw [String.toList_append]
  exact List.mem_append_right _ List.mem_cons_self

/-- A text that ends with a line feed stands for itself and nothing else. -/
theorem standsFor_append_break_iff (state : State) (front : String)
    (meaning : Except Fault Value) :
    StandsFor state (front ++ "\n") meaning ↔ meaning = .ok (.text (front ++ "\n")) := by
  constructor
  · intro stands
    generalize whole : front ++ "\n" = content at stands
    cases stands with
    | quoted inside => exact absurd whole.symm (quote_ne_append_break inside front)
    | entry name _ => exact absurd (whole ▸ name) (not_isName_append_break front)
    | missing name _ => exact absurd (whole ▸ name) (not_isName_append_break front)
    | itself _ _ => rfl
  · rintro rfl
    refine .itself ?_ (not_isName_append_break front)
    intro inside same
    exact quote_ne_append_break inside front same.symm

end Reference

namespace State

open Reference

theorem dereference_of_quoted (state : State) {content inside : String}
    (quoted : content = quote inside ∨ content = quote inside ++ "\n") :
    state.dereference (.text content) = .ok (.text inside) := by
  have found := (unquote?_eq_some_iff content inside).mpr quoted
  simp only [dereference, found]

/-- A name, with or without a line feed behind it, is looked up as it is. -/
theorem dereference_of_name (state : State) {content : String} {name : String}
    (named : IsName name.toList) (same : content = name ∨ content = name ++ "\n") :
    state.dereference (.text content) =
      match state.get? content with
      | some value => .ok value
      | none => .error (.script (.unknownReference content)) := by
  obtain ⟨c, rest, first, capital⟩ := named.head
  have unquoted : unquote? content = none := by
    apply Option.eq_none_iff_forall_ne_some.mpr
    intro inside found
    have starts : content.toList.head? = some '"' := by
      rcases (unquote?_eq_some_iff content inside).mp found with rfl | rfl <;>
        simp [toList_quote]
    have begins : content.toList.head? = some c := by
      rcases same with rfl | rfl <;> simp [first]
    rw [begins, Option.some.injEq] at starts
    exact absurd (starts ▸ capital) (by decide)
  have accepted : isReference content = true := by
    rw [isReference_iff]
    rcases same with rfl | rfl
    · exact Or.inl named
    · exact Or.inr ⟨name, named, rfl⟩
  cases held : state.get? content with
  | some value => simp only [dereference, unquoted, accepted, held, ↓reduceIte]
  | none => simp only [dereference, unquoted, accepted, held, ↓reduceIte]

theorem dereference_of_other (state : State) {content : String}
    (unquoted : ∀ inside, content ≠ quote inside ∧ content ≠ quote inside ++ "\n")
    (unnamed : ¬IsName content.toList)
    (unbroken : ∀ name : String, IsName name.toList → content ≠ name ++ "\n") :
    state.dereference (.text content) = .ok (.text content) := by
  have plain : unquote? content = none := by
    apply Option.eq_none_iff_forall_ne_some.mpr
    intro inside found
    rcases (unquote?_eq_some_iff content inside).mp found with same | same
    · exact (unquoted inside).1 same
    · exact (unquoted inside).2 same
  have refused : isReference content = false := by
    apply Bool.eq_false_iff.mpr
    intro accepted
    rcases (isReference_iff content).mp accepted with named | ⟨name, named, same⟩
    · exact unnamed named
    · exact unbroken name named same
  simp only [dereference, plain, refused, Bool.false_eq_true, ↓reduceIte]

/-- **Dereferencing a text.** A text is dereferenced to what it stands for, but for two kinds of
texts that end with a line feed and should stand for themselves. Behind a text in double quotes the
line feed is overlooked: the text stands for what is inside the quotes. Behind a name it makes the
text a name that is looked up with the line feed, and so unknown in nearly all states. -/
theorem dereference_text_iff (state : State) (content : String) :
    (StandsFor state content (state.dereference (.text content)) ↔
      (∀ inside, content ≠ quote inside ++ "\n") ∧
      ∀ name : String, IsName name.toList → content = name ++ "\n" →
        state.get? content = some (.text content)) ∧
    (∀ inside, content = quote inside ++ "\n" →
      state.dereference (.text content) = .ok (.text inside)) ∧
    ∀ name : String, IsName name.toList → content = name ++ "\n" →
      state.dereference (.text content) =
        match state.get? content with
        | some value => .ok value
        | none => .error (.script (.unknownReference content)) := by
  have behindQuotes : ∀ inside, content = quote inside ++ "\n" →
      state.dereference (.text content) = .ok (.text inside) :=
    fun inside same => dereference_of_quoted state (Or.inr same)
  have behindName : ∀ name : String, IsName name.toList → content = name ++ "\n" →
      state.dereference (.text content) =
        match state.get? content with
        | some value => .ok value
        | none => .error (.script (.unknownReference content)) :=
    fun name named same => dereference_of_name state named (Or.inr same)
  refine ⟨⟨?_, ?_⟩, behindQuotes, behindName⟩
  · intro stands
    refine ⟨?_, ?_⟩
    · rintro inside rfl
      rw [standsFor_append_break_iff, behindQuotes inside rfl] at stands
      have longer := congrArg (fun text => text.toList.length)
        (Value.text.inj (Except.ok.inj stands))
      simp only [String.toList_append, toList_quote, List.length_append, List.length_cons] at longer
      omega
    · rintro name named rfl
      rw [standsFor_append_break_iff, behindName name named rfl] at stands
      cases found : state.get? (name ++ "\n") with
      | some value =>
          rw [found] at stands
          exact congrArg some (Except.ok.inj stands)
      | none =>
          rw [found] at stands
          cases stands
  · rintro ⟨unquoted, looked⟩
    by_cases quoted : ∃ inside, content = quote inside
    · obtain ⟨inside, rfl⟩ := quoted
      rw [dereference_of_quoted state (Or.inl rfl)]
      exact .quoted inside
    · by_cases named : IsName content.toList
      · rw [dereference_of_name state named (Or.inl rfl)]
        cases found : state.get? content with
        | some value => exact .entry named found
        | none => exact .missing named found
      · have itself : state.dereference (.text content) = .ok (.text content) := by
          by_cases broken : ∃ name : String, IsName name.toList ∧ content = name ++ "\n"
          · obtain ⟨name, own, same⟩ := broken
            rw [behindName name own same, looked name own same]
          · refine dereference_of_other state ?_ named ?_
            · intro inside
              exact ⟨fun same => quoted ⟨inside, same⟩, unquoted inside⟩
            · intro name own same
              exact broken ⟨name, own, same⟩
        rw [itself]
        exact .itself (fun inside same => quoted ⟨inside, same⟩) named

/-- A line feed inside double quotes is kept, and quotes inside them are too. -/
theorem dereference_text_iff_inside :
    StandsFor [("X", .text "ex")] (quote "X\n\"")
      (State.dereference [("X", .text "ex")] (.text (quote "X\n\""))) ∧
    State.dereference [("X", .text "ex")] (.text (quote "X\n\"")) = .ok (.text "X\n\"") := by
  have stands := (dereference_text_iff [("X", .text "ex")] (quote "X\n\"")).1.mpr
    ⟨fun inside => quote_ne_append_break _ _,
      fun name _ same => absurd same (quote_ne_append_break _ _)⟩
  exact ⟨stands, dereference_of_quoted _ (Or.inl rfl)⟩

/-- A line feed behind double quotes goes with them, and behind a name it makes another name. -/
theorem not_standsFor_behind :
    State.dereference [("X", .text "ex")] (.text "\"X\"\n") = .ok (.text "X") ∧
      ¬StandsFor [("X", .text "ex")] "\"X\"\n"
        (State.dereference [("X", .text "ex")] (.text "\"X\"\n")) ∧
      State.dereference [("X", .text "ex")] (.text "X\n") =
        .error (.script (.unknownReference "X\n")) ∧
      ¬StandsFor [("X", .text "ex")] "X\n"
        (State.dereference [("X", .text "ex")] (.text "X\n")) := by
  have quoted : State.dereference [("X", .text "ex")] (.text "\"X\"\n") = .ok (.text "X") := rfl
  have named : State.dereference [("X", .text "ex")] (.text "X\n") =
      .error (.script (.unknownReference "X\n")) := rfl
  refine ⟨quoted, ?_, named, ?_⟩
  · intro stands
    rw [quoted] at stands
    have itself := (standsFor_append_break_iff _ "\"X\"" _).mp stands
    exact absurd (Value.text.inj (Except.ok.inj itself)) (by decide)
  · intro stands
    rw [named] at stands
    cases (standsFor_append_break_iff _ "X" _).mp stands

end State

end LineScript
