import LineScript.Pattern.Search

/-!
# Literal texts and greedy repetitions

The tree of a literal text matches these characters and no others. A greedy repetition of a test
that all the characters ahead pass takes the longest of their first pieces from which the goal can
be reached. A pattern that starts with the start of the text is only tried there.
-/

namespace LineScript.Pattern

variable {captures : Captures} {goal : Goal} {behind ahead : List Char}

theorem Place.textUpTo_append (taken rest further : List Char) :
    textUpTo ⟨behind, taken ++ rest⟩ ⟨further, rest⟩ = taken := by
  unfold textUpTo
  rw [List.length_append, Nat.add_sub_cancel, List.take_left]

namespace Node

theorem run_sequence_cons (node : Node) (nodes : List Node) (place : Place)
    (captures : Captures) (goal : Goal) :
    (sequence (node :: nodes)).run place captures goal =
      node.run place captures fun next held => (sequence nodes).run next held goal := by
  cases nodes with
  | nil => rfl
  | cons other others => rfl

theorem run_literal_cons (c : Char) (chars : List Char) (place : Place) :
    (literal (c :: chars)).run place captures goal =
      (one (.exactly c)).run place captures fun next held =>
        (literal chars).run next held goal := by
  unfold literal
  rw [List.map_cons, run_sequence_cons]

theorem run_exactly_cons (c d : Char) :
    (one (.exactly c)).run ⟨behind, d :: ahead⟩ captures goal =
      if d = c then goal ⟨d :: behind, ahead⟩ captures else none := by
  unfold run CharTest.accepts
  simp only [beq_iff_eq]

/-- A literal text is matched by these characters. -/
theorem run_literal_append (chars rest : List Char) :
    (literal chars).run ⟨behind, chars ++ rest⟩ captures goal =
      goal ⟨chars.reverse ++ behind, rest⟩ captures := by
  induction chars generalizing behind with
  | nil => rfl
  | cons c chars ih =>
      rw [run_literal_cons, List.cons_append, run_exactly_cons, if_pos rfl, ih,
        List.reverse_cons, List.append_assoc, List.singleton_append]

/-- A literal text is matched by nothing else. -/
theorem run_literal_eq_none {chars : List Char} (different : ¬chars <+: ahead) :
    (literal chars).run ⟨behind, ahead⟩ captures goal = none := by
  induction chars generalizing behind ahead with
  | nil => exact absurd List.nil_prefix different
  | cons c chars ih =>
      rw [run_literal_cons]
      cases ahead with
      | nil => rfl
      | cons d ahead =>
          rw [run_exactly_cons]
          by_cases same : d = c
          · rw [if_pos same]
            apply ih
            intro others
            exact different (List.cons_prefix_cons.mpr ⟨same.symm, others⟩)
          · exact if_neg same

/-- Behind the start of a text its start is not found again. -/
theorem searchFrom_textStart_eq_none (body : Node) (c : Char) (chars : List Char) :
    (seq (.anchor .textStart) body).searchFrom (c :: behind) chars = none := by
  induction chars generalizing c behind with
  | nil => rfl
  | cons d chars ih =>
      unfold searchFrom
      rw [ih]
      rfl

/-- A tree behind the start of the text is matched there or not at all. -/
theorem searchFrom_textStart (body : Node) (chars : List Char) :
    (seq (.anchor .textStart) body).searchFrom [] chars =
      body.run ⟨[], chars⟩ [] fun _ captures => some captures := by
  cases chars with
  | nil => rfl
  | cons c chars =>
      unfold searchFrom
      rw [searchFrom_textStart_eq_none, Option.orElse_eq_or, Option.or_none]
      rfl

/-- Trees that match alike are found alike. -/
theorem searchFrom_congr {node other : Node} (alike : node.run = other.run)
    (chars : List Char) : node.searchFrom behind chars = other.searchFrom behind chars := by
  induction chars generalizing behind with
  | nil =>
      unfold searchFrom
      rw [alike]
  | cons c chars ih =>
      unfold searchFrom
      rw [alike, ih]

end Node

/-- What the longest of the first pieces of some characters leads to, of those that lead to
captures: `reach` tells for a first piece and the characters behind it. -/
inductive LongestTaken (reach : List Char → List Char → Option Captures) (ahead : List Char) :
    Option Captures → Prop where
  | unreached : (∀ taken rest, ahead = taken ++ rest → reach taken rest = none) →
      LongestTaken reach ahead none
  | reached {taken rest : List Char} {held : Captures} :
      ahead = taken ++ rest → reach taken rest = some held →
      (∀ longer others, ahead = longer ++ others → taken.length < longer.length →
        reach longer others = none) →
      LongestTaken reach ahead (some held)

namespace LongestTaken

variable {reach other : List Char → List Char → Option Captures} {found : Option Captures}

theorem nil : LongestTaken reach [] (reach [] []) := by
  cases reached : reach [] [] with
  | none =>
      refine .unreached fun taken rest split => ?_
      obtain ⟨rfl, rfl⟩ := List.append_eq_nil_iff.mp split.symm
      exact reached
  | some held =>
      refine .reached rfl reached fun longer others split more => ?_
      obtain ⟨rfl, rfl⟩ := List.append_eq_nil_iff.mp split.symm
      exact absurd more (Nat.lt_irrefl 0)

/-- No piece is tried before those with the first character, and the empty one comes last. -/
theorem cons {c : Char} (longest : LongestTaken (fun taken => reach (c :: taken)) ahead found) :
    LongestTaken reach (c :: ahead) (found.orElse fun _ => reach [] (c :: ahead)) := by
  cases longest with
  | unreached failed =>
      rw [Option.orElse_none]
      cases reached : reach [] (c :: ahead) with
      | none =>
          refine .unreached fun taken rest split => ?_
          rcases List.cons_eq_append_iff.mp split with ⟨rfl, rfl⟩ | ⟨taken, rfl, rfl⟩
          · exact reached
          · exact failed taken rest rfl
      | some held =>
          refine .reached (List.nil_append _).symm reached fun longer others split more => ?_
          rcases List.cons_eq_append_iff.mp split with ⟨rfl, rfl⟩ | ⟨longer, rfl, rfl⟩
          · exact absurd more (Nat.lt_irrefl 0)
          · exact failed longer others rfl
  | reached whole reached failed =>
      refine .reached (congrArg (List.cons c) whole) reached fun longer others split more => ?_
      rcases List.cons_eq_append_iff.mp split with ⟨rfl, rfl⟩ | ⟨longer, rfl, rest⟩
      · exact absurd more (Nat.not_lt_zero _)
      · exact failed longer others rest (Nat.lt_of_succ_lt_succ more)

/-- The empty piece is not tried where it leads to nothing. -/
theorem cons_of_none {c : Char}
    (longest : LongestTaken (fun taken => reach (c :: taken)) ahead found)
    (empty : reach [] (c :: ahead) = none) : LongestTaken reach (c :: ahead) found := by
  have whole := longest.cons
  rwa [empty, Option.orElse_eq_or, Option.or_none] at whole

theorem congr (longest : LongestTaken reach ahead found)
    (same : ∀ taken rest, ahead = taken ++ rest → reach taken rest = other taken rest) :
    LongestTaken other ahead found := by
  cases longest with
  | unreached failed =>
      refine .unreached fun taken rest split => ?_
      rw [← same taken rest split]
      exact failed taken rest split
  | reached whole reached failed =>
      refine .reached whole ((same _ _ whole).symm.trans reached) fun longer others split more => ?_
      rw [← same longer others split]
      exact failed longer others split more

/-- A greedy repetition of a test takes as many as possible of the characters ahead. -/
theorem of_optionalRounds {test : CharTest} {budget : Nat}
    (accepted : ∀ c ∈ ahead, test.accepts c = true) (enough : ahead.length ≤ budget) :
    LongestTaken (fun taken rest => goal ⟨taken.reverse ++ behind, rest⟩ captures) ahead
      (optionalRounds true (Node.one test).run budget none ⟨behind, ahead⟩ captures
        goal) := by
  induction ahead generalizing behind budget with
  | nil =>
      cases budget with
      | zero => exact nil
      | succ budget => exact nil
  | cons c ahead ih =>
      obtain ⟨own, others⟩ := List.forall_mem_cons.mp accepted
      cases budget with
      | zero => cases enough
      | succ budget =>
          have further : LongestTaken
              (fun taken rest => goal ⟨taken.reverse ++ c :: behind, rest⟩ captures) ahead
              (optionalRounds true (Node.one test).run budget none ⟨c :: behind, ahead⟩ captures
                goal) :=
            ih others (Nat.le_of_succ_le_succ enough)
          have forward : ahead.length < (c :: ahead).length := Nat.lt_succ_self _
          have same (taken : List Char) :
              taken.reverse ++ c :: behind = (c :: taken).reverse ++ behind := by
            rw [List.reverse_cons, List.append_assoc, List.singleton_append]
          unfold optionalRounds Node.run
          simp only [own, forward, ↓reduceIte, Option.map_none]
          simp only [same] at further
          exact cons further

end LongestTaken

end LineScript.Pattern
