import LineScript.Proofs.Script.Numbering

/-!
# The lines of a row of items

The lines that items stand for do not depend on their numbers, and those of some rows of items put
together are the lines of each of them, up to the first FINISH. A line that an item of text stands
for stands for itself as an item.
-/

namespace LineScript

namespace Script

/-- The lines that some items stand for. -/
def linesOf (items : List Value) : List Line :=
  (ofItems items).map Prod.snd

/-- The lines before FINISH that some items stand for. -/
def executedOf (items : List Value) : List Line :=
  (beforeFinish (ofItems items)).map Prod.snd

theorem map_snd_numberFrom (number : Nat) (items : List Value) :
    (numberFrom number items).map Prod.snd = linesOf items := by
  unfold linesOf ofItems
  generalize 1 = other
  induction items generalizing number other with
  | nil => rfl
  | cons item items ih =>
      by_cases empty : item = .text ""
      · rw [empty, numberFrom_empty, numberFrom_empty]
        exact ih _ _
      · rw [numberFrom_cons empty, numberFrom_cons empty, List.map_cons, List.map_cons]
        exact congrArg _ (ih _ _)

theorem map_snd_beforeFinish (lines : List (Nat × Line)) :
    (beforeFinish lines).map Prod.snd =
      (lines.map Prod.snd).takeWhile fun line => line ≠ .sentinel .finish := by
  unfold beforeFinish
  rw [List.takeWhile_map]
  rfl

theorem executedOf_eq (items : List Value) :
    executedOf items = (linesOf items).takeWhile fun line => line ≠ .sentinel .finish :=
  map_snd_beforeFinish _

theorem linesOf_append (before after : List Value) :
    linesOf (before ++ after) = linesOf before ++ linesOf after := by
  unfold linesOf ofItems
  rw [numberFrom_append, List.map_append, map_snd_numberFrom (1 + before.length)]
  rfl

theorem linesOf_cons {item : Value} (filled : item ≠ .text "") (items : List Value) :
    linesOf (item :: items) = Line.ofValue item :: linesOf items := by
  unfold linesOf ofItems
  rw [numberFrom_cons filled, List.map_cons, map_snd_numberFrom]
  rfl

theorem linesOf_empty (items : List Value) : linesOf (.text "" :: items) = linesOf items := by
  unfold linesOf ofItems
  rw [numberFrom_empty, map_snd_numberFrom]
  rfl

theorem mem_linesOf {items : List Value} {line : Line} (member : line ∈ linesOf items) :
    ∃ item ∈ items, item ≠ .text "" ∧ Line.ofValue item = line := by
  induction items with
  | nil => cases member
  | cons item items ih =>
      by_cases empty : item = .text ""
      · rw [empty, linesOf_empty] at member
        obtain ⟨other, own, found⟩ := ih member
        exact ⟨other, List.mem_cons_of_mem item own, found⟩
      · rw [linesOf_cons empty] at member
        rcases List.mem_cons.mp member with rfl | later
        · exact ⟨item, List.mem_cons_self, empty, rfl⟩
        · obtain ⟨other, own, found⟩ := ih later
          exact ⟨other, List.mem_cons_of_mem item own, found⟩

theorem executedOf_cons {item : Value} (filled : item ≠ .text "")
    (other : Line.ofValue item ≠ .sentinel .finish) (items : List Value) :
    executedOf (item :: items) = Line.ofValue item :: executedOf items := by
  rw [executedOf_eq, executedOf_eq, linesOf_cons filled]
  exact List.takeWhile_cons_of_pos (decide_eq_true other)

/-- Items without FINISH are executed before those behind them. -/
theorem executedOf_append {before : List Value}
    (unfinished : ∀ item ∈ before, Line.ofValue item ≠ .sentinel .finish) (after : List Value) :
    executedOf (before ++ after) = linesOf before ++ executedOf after := by
  rw [executedOf_eq, executedOf_eq, linesOf_append, List.takeWhile_append_of_pos]
  intro line member
  obtain ⟨item, own, -, rfl⟩ := mem_linesOf member
  exact decide_eq_true (unfinished item own)

theorem executedOf_empty (items : List Value) :
    executedOf (.text "" :: items) = executedOf items := by
  rw [executedOf_eq, executedOf_eq, linesOf_empty]

theorem executedOf_finish {item : Value} (finish : Line.ofValue item = .sentinel .finish)
    (items : List Value) : executedOf (item :: items) = [] := by
  have filled : item ≠ .text "" := by
    rintro rfl
    exact ofValue_empty_ne finish
  rw [executedOf_eq, linesOf_cons filled, finish]
  rfl

/-- Items behind FINISH are not executed. -/
theorem executedOf_append_of_finish {before : List Value}
    (finished : ∃ item ∈ before, Line.ofValue item = .sentinel .finish) (after : List Value) :
    executedOf (before ++ after) = executedOf before := by
  induction before with
  | nil =>
      obtain ⟨item, impossible, -⟩ := finished
      cases impossible
  | cons item before ih =>
      rw [List.cons_append]
      by_cases finish : Line.ofValue item = .sentinel .finish
      · rw [executedOf_finish finish, executedOf_finish finish]
      · have later : ∃ item ∈ before, Line.ofValue item = .sentinel .finish := by
          obtain ⟨other, member, own⟩ := finished
          rcases List.mem_cons.mp member with rfl | behind
          · exact absurd own finish
          · exact ⟨other, behind, own⟩
        by_cases empty : item = .text ""
        · rw [empty, executedOf_empty, executedOf_empty, ih later]
        · rw [executedOf_cons empty finish, executedOf_cons empty finish, ih later]

/-- A text line that is put among some items is executed where it stands, or not at all. -/
theorem executedOf_put {content : String} (text : Line.ofText content = .text content)
    (before after : List Value) :
    ∃ front back extra, extra ∈ [[], [Line.text content]] ∧
      executedOf (before ++ .text content :: after) = front ++ (extra ++ back) ∧
      executedOf (before ++ after) = front ++ back := by
  by_cases finished : ∃ item ∈ before, Line.ofValue item = .sentinel .finish
  · refine ⟨executedOf before, [], [], List.mem_cons_self, ?_, ?_⟩
    · rw [executedOf_append_of_finish finished, List.append_nil, List.append_nil]
    · rw [executedOf_append_of_finish finished, List.append_nil]
  · have unfinished : ∀ item ∈ before, Line.ofValue item ≠ .sentinel .finish :=
      fun item member finish => finished ⟨item, member, finish⟩
    rw [executedOf_append unfinished, executedOf_append unfinished]
    by_cases empty : content = ""
    · refine ⟨_, _, [], List.mem_cons_self, ?_, rfl⟩
      rw [empty, executedOf_empty]
      rfl
    · refine ⟨_, _, [.text content], List.mem_cons_of_mem _ List.mem_cons_self, ?_, rfl⟩
      have own : Line.ofValue (.text content) = .text content := text
      have other : Line.ofValue (.text content) ≠ .sentinel .finish := by
        rw [own]
        rintro ⟨⟩
      rw [executedOf_cons (fun same => empty (Value.text.inj same)) other, own]
      rfl

end Script

namespace Line

/-- Whether a line stands for itself as an item of a script. -/
structure Normal (line : Line) : Prop where
  filled : line.toValue ≠ .text ""
  self : ofValue line.toValue = line

theorem ofText_eq (content : String) :
    (∃ mark, ofText content = .sentinel mark) ∨ ofText content = .text content := by
  unfold ofText
  split
  · exact Or.inl ⟨.finish, rfl⟩
  · split
    · exact Or.inl ⟨.done, rfl⟩
    · exact Or.inr rfl

/-- The line that a line stands for as an item stands for itself. -/
theorem normal_ofValue_toValue {line : Line} (filled : line.toValue ≠ .text "") :
    (ofValue line.toValue).Normal := by
  cases line with
  | sentinel mark => exact ⟨by rintro ⟨⟩, rfl⟩
  | text content =>
      change (ofText content).Normal
      rcases ofText_eq content with ⟨mark, same⟩ | same
      · rw [same]
        exact ⟨by rintro ⟨⟩, rfl⟩
      · rw [same]
        exact ⟨filled, same⟩

end Line

namespace Script

theorem linesOf_map_toValue {lines : List Line} (normal : ∀ line ∈ lines, line.Normal) :
    linesOf (lines.map Line.toValue) = lines := by
  induction lines with
  | nil => rfl
  | cons line lines ih =>
      obtain ⟨own, rest⟩ := List.forall_mem_cons.mp normal
      rw [List.map_cons, linesOf_cons own.filled, own.self, ih rest]

/-- The lines that lines stand for as items stand for themselves. -/
theorem normal_of_mem_linesOf {contents : List Line} {line : Line}
    (member : line ∈ linesOf (contents.map Line.toValue)) : line.Normal := by
  obtain ⟨item, own, filled, rfl⟩ := mem_linesOf member
  obtain ⟨content, -, rfl⟩ := List.mem_map.mp own
  exact Line.normal_ofValue_toValue filled

end Script

end LineScript
