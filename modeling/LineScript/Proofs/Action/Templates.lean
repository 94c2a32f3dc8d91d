import LineScript.Action.Matcher
import LineScript.Proofs.Action.TemplateSource

/-!
# What a template takes from a line

A template matches a line without a line break if the line is its literal pieces with one character
at least at every placeholder. Of all the ways to fill the placeholders it takes the one in which
the first argument is longest, then the second, and so on.
-/

namespace LineScript.Template

open Pattern (Captures LongestTaken Node)

/-- Whether a line is some pieces with an argument between any two, each of one character at
least. -/
inductive Fills : List (List Char) → List (List Char) → List Char → Prop where
  | last (piece : List Char) : Fills [piece] [] piece
  | next (piece : List Char) {arg line : List Char} {pieces args : List (List Char)} :
      arg ≠ [] → Fills pieces args line →
      Fills (piece :: pieces) (arg :: args) (piece ++ (arg ++ line))

/-- Whether the first texts of two rows that differ in length, if there are any, are a shorter one
in the first row and a longer one in the second. -/
inductive NoLonger : List (List Char) → List (List Char) → Prop where
  | nil : NoLonger [] []
  | shorter {text other : List Char} {texts others : List (List Char)} :
      text.length < other.length → NoLonger (text :: texts) (other :: others)
  | alike {text other : List Char} {texts others : List (List Char)} :
      text.length = other.length → NoLonger texts others →
      NoLonger (text :: texts) (other :: others)

/-- Whether some arguments fill the pieces to a line, and the first is as long as it can be, the
second as long as it can be behind that, and so on. -/
def Longest (pieces args : List (List Char)) (line : List Char) : Prop :=
  Fills pieces args line ∧ ∀ others, Fills pieces others line → NoLonger others args

/-- What a template with some pieces takes from a line: the longest arguments that fill it, or
nothing if there are none. -/
inductive Answers (pieces : List (List Char)) (line : List Char) :
    Option (List (List Char)) → Prop where
  | unfilled : (∀ args, ¬Fills pieces args line) → Answers pieces line none
  | filled {args : List (List Char)} : Longest pieces args line → Answers pieces line (some args)

/-- The captures with some arguments as groups from a number on. -/
def numbered : (index : Nat) → Captures → List (List Char) → Captures
  | _, captures, [] => captures
  | index, captures, arg :: args => numbered (index + 1) ((index, arg) :: captures) args

theorem Fills.length_eq {pieces args : List (List Char)} {line : List Char}
    (fills : Fills pieces args line) : pieces.length = args.length + 1 := by
  induction fills with
  | last piece => rfl
  | next piece _ _ ih => rw [List.length_cons, List.length_cons, ih]

theorem Fills.last_inv {piece line : List Char} {args : List (List Char)}
    (fills : Fills [piece] args line) : args = [] ∧ line = piece := by
  cases fills with
  | last => exact ⟨rfl, rfl⟩
  | next _ _ rest => cases rest

/-- Behind the first of several pieces stand an argument and what the other pieces fill. -/
theorem Fills.next_inv {piece other line : List Char} {pieces args : List (List Char)}
    (fills : Fills (piece :: other :: pieces) args line) :
    ∃ arg more rest, args = arg :: more ∧ arg ≠ [] ∧ line = piece ++ (arg ++ rest) ∧
      Fills (other :: pieces) more rest := by
  cases fills with
  | next _ filled rest => exact ⟨_, _, _, rfl, filled, rfl, rest⟩

theorem Fills.prefix {piece line : List Char} {pieces args : List (List Char)}
    (fills : Fills (piece :: pieces) args line) : piece <+: line := by
  cases fills with
  | last => exact List.prefix_rfl
  | next _ _ _ => exact List.prefix_append _ _

/-- In front of an argument a longer argument decides, and the arguments behind it among equals. -/
theorem Longest.next {piece arg rest other : List Char} {pieces args : List (List Char)}
    (filled : arg ≠ []) (longest : Longest (other :: pieces) args rest)
    (failed : ∀ longer behind others, arg ++ rest = longer ++ behind →
      arg.length < longer.length → ¬Fills (other :: pieces) others behind) :
    Longest (piece :: other :: pieces) (arg :: args) (piece ++ (arg ++ rest)) := by
  refine ⟨.next piece filled longest.1, fun others fills => ?_⟩
  obtain ⟨first, more, behind, rfl, -, whole, further⟩ := fills.next_inv
  replace whole := List.append_cancel_left whole
  rcases Nat.lt_trichotomy first.length arg.length with shorter | same | longer
  · exact .shorter shorter
  · obtain ⟨rfl, rfl⟩ := List.append_inj whole same.symm
    exact .alike rfl (longest.2 more further)
  · exact absurd further (failed first behind more whole longer)

section Run

variable {index : Nat} {captures : Captures} {behind ahead : List Char}

/-- An argument is one character at least, as many as possible of those ahead. -/
theorem longestTaken_argument (index : Nat) (captures : Captures) (behind : List Char)
    (goal : Pattern.Goal) (unbroken : '\n' ∉ ahead) :
    LongestTaken
      (fun taken rest => if taken = [] then none else
        goal ⟨taken.reverse ++ behind, rest⟩ ((index, taken) :: captures))
      ahead ((argument index).run ⟨behind, ahead⟩ captures goal) := by
  cases ahead with
  | nil => exact .nil
  | cons c ahead =>
      have accepted : ∀ d ∈ c :: ahead, Pattern.CharTest.anyButBreak.accepts d = true := by
        intro d member
        unfold Pattern.CharTest.accepts
        rw [bne_iff_ne]
        rintro rfl
        exact unbroken member
      obtain ⟨own, others⟩ := List.forall_mem_cons.mp accepted
      have entered : (argument index).run ⟨behind, c :: ahead⟩ captures goal =
          Pattern.optionalRounds true (Node.one .anyButBreak).run (ahead.length + 1) none
            ⟨c :: behind, ahead⟩ captures fun next held => goal next
              ((index, Pattern.Place.textUpTo ⟨behind, c :: ahead⟩ next) :: held) := by
        unfold argument Node.run Node.run Pattern.rounds Pattern.rounds Node.run
        simp only [own, ↓reduceIte]
        rfl
      rw [entered]
      refine LongestTaken.cons_of_none
        ((LongestTaken.of_optionalRounds others (Nat.le_succ ahead.length)).congr ?_) rfl
      rintro taken rest rfl
      rw [← List.cons_append, Pattern.Place.textUpTo_append, if_neg (List.cons_ne_nil c taken),
        List.reverse_cons, List.append_assoc, List.singleton_append]

theorem run_finalEnd (unbroken : '\n' ∉ ahead) {goal : Pattern.Goal} :
    (Node.anchor .finalEnd).run ⟨behind, ahead⟩ captures goal =
      if ahead = [] then goal ⟨behind, ahead⟩ captures else none := by
  have other : ahead ≠ ['\n'] := by
    rintro rfl
    exact unbroken List.mem_cons_self
  unfold Node.run Pattern.Anchor.holds
  simp only [List.isEmpty_iff, Bool.or_eq_true, beq_iff_eq, other, or_false]

theorem run_nodeOf_last {goal : Pattern.Goal} (piece rest : List Char) :
    (nodeOf index [piece]).run ⟨behind, piece ++ rest⟩ captures goal =
      (Node.anchor .finalEnd).run ⟨piece.reverse ++ behind, rest⟩ captures goal :=
  Node.run_literal_append piece rest

theorem run_nodeOf_next {goal : Pattern.Goal} (piece other rest : List Char)
    (others : List (List Char)) :
    (nodeOf index (piece :: other :: others)).run ⟨behind, piece ++ rest⟩ captures goal =
      (argument index).run ⟨piece.reverse ++ behind, rest⟩ captures fun next held =>
        (nodeOf (index + 1) (other :: others)).run next held goal :=
  Node.run_literal_append piece rest

theorem run_nodeOf_eq_none {goal : Pattern.Goal} {piece : List Char}
    (others : List (List Char)) (different : ¬piece <+: ahead) :
    (nodeOf index (piece :: others)).run ⟨behind, ahead⟩ captures goal = none := by
  cases others with
  | nil => exact Node.run_literal_eq_none different
  | cons other others => exact Node.run_literal_eq_none different

end Run

/-- Whether the tree of some pieces, with the first argument number `index`, takes the longest
arguments that fill them from all that is ahead, if that has no line break. -/
def TakesLongest (index : Nat) (pieces : List (List Char)) : Prop :=
  ∀ (captures : Captures) (behind ahead : List Char), '\n' ∉ ahead →
    ∃ answer, Answers pieces ahead answer ∧
      (nodeOf index pieces).run ⟨behind, ahead⟩ captures (fun _ held => some held) =
        answer.map (numbered index captures)

theorem takesLongest_last (index : Nat) (piece : List Char) : TakesLongest index [piece] := by
  intro captures behind ahead unbroken
  by_cases first : piece <+: ahead
  · obtain ⟨rest, rfl⟩ := first
    rw [run_nodeOf_last, run_finalEnd fun member => unbroken (List.mem_append_right piece member)]
    by_cases empty : rest = []
    · subst empty
      rw [List.append_nil]
      refine ⟨some [], .filled ⟨.last piece, fun args fills => ?_⟩, rfl⟩
      rw [fills.last_inv.1]
      exact .nil
    · refine ⟨none, .unfilled fun args fills => ?_, if_neg empty⟩
      exact empty (List.append_right_eq_self.mp fills.last_inv.2)
  · exact ⟨none, .unfilled fun args fills => first fills.prefix, run_nodeOf_eq_none [] first⟩

section Ahead

variable {index : Nat} {pieces : List (List Char)} {captures held : Captures}
  {behind ahead : List Char}

theorem TakesLongest.not_fills (takes : TakesLongest index pieces) (unbroken : '\n' ∉ ahead)
    (nothing : (nodeOf index pieces).run ⟨behind, ahead⟩ captures (fun _ held => some held) = none)
    (args : List (List Char)) : ¬Fills pieces args ahead := by
  obtain ⟨answer, answers, same⟩ := takes captures behind ahead unbroken
  rw [same] at nothing
  cases answers with
  | unfilled failed => exact failed args
  | filled _ => cases nothing

theorem TakesLongest.longest (takes : TakesLongest index pieces) (unbroken : '\n' ∉ ahead)
    (reached : (nodeOf index pieces).run ⟨behind, ahead⟩ captures (fun _ held => some held) =
      some held) :
    ∃ args, Longest pieces args ahead ∧ held = numbered index captures args := by
  obtain ⟨answer, answers, same⟩ := takes captures behind ahead unbroken
  rw [same] at reached
  cases answers with
  | unfilled _ => cases reached
  | filled longest => exact ⟨_, longest, (Option.some.inj reached).symm⟩

end Ahead

/-- The first argument is the longest from which the tree of the other pieces is matched. -/
theorem takesLongest_next {index : Nat} (piece : List Char) {other : List Char}
    {others : List (List Char)} (further : TakesLongest (index + 1) (other :: others)) :
    TakesLongest index (piece :: other :: others) := by
  intro captures behind ahead unbroken
  by_cases first : piece <+: ahead
  · obtain ⟨rest, rfl⟩ := first
    have clear (arg more : List Char) (split : rest = arg ++ more) : '\n' ∉ more := fun member =>
      unbroken (List.mem_append_right piece (split ▸ List.mem_append_right arg member))
    -- the argument is followed by the other pieces, so it leads to what these take
    have longest := longestTaken_argument index captures (piece.reverse ++ behind)
      (fun next held =>
        (nodeOf (index + 1) (other :: others)).run next held fun _ held => some held)
      (clear [] rest rfl)
    rw [run_nodeOf_next]
    generalize (argument index).run _ _ _ = found at longest
    cases longest with
    | unreached failed =>
        refine ⟨none, .unfilled fun args fills => ?_, rfl⟩
        obtain ⟨arg, more, behind, rfl, filled, whole, rest⟩ := fills.next_inv
        have split := List.append_cancel_left whole
        have nothing := failed arg behind split
        rw [if_neg filled] at nothing
        exact further.not_fills (clear arg behind split) nothing more rest
    | @reached arg more held whole reached failed =>
        by_cases empty : arg = []
        · rw [if_pos empty] at reached
          cases reached
        rw [if_neg empty] at reached
        obtain ⟨args, longest, rfl⟩ := further.longest (clear arg more whole) reached
        subst whole
        refine ⟨some (arg :: args), .filled (longest.next empty ?_), rfl⟩
        intro longer behind args split extended
        have filled : longer ≠ [] := List.ne_nil_of_length_pos (by omega)
        have nothing := failed longer behind split extended
        rw [if_neg filled] at nothing
        exact further.not_fills (clear longer behind split) nothing args
  · exact ⟨none, .unfilled fun args fills => first fills.prefix, run_nodeOf_eq_none _ first⟩

/-- The tree of some pieces takes the longest arguments that fill them. -/
theorem takesLongest {pieces : List (List Char)} (filled : pieces ≠ []) (index : Nat) :
    TakesLongest index pieces := by
  induction pieces generalizing index with
  | nil => exact absurd rfl filled
  | cons piece others ih =>
      cases others with
      | nil => exact takesLongest_last index piece
      | cons other others => exact takesLongest_next piece (ih (List.cons_ne_nil _ _) (index + 1))

theorem lookup_numbered_of_lt {group index : Nat} (before : group < index) (captures : Captures)
    (args : List (List Char)) :
    (numbered index captures args).lookup group = captures.lookup group := by
  induction args generalizing index captures with
  | nil => rfl
  | cons arg args ih =>
      unfold numbered
      have other : (group == index) = false := beq_false_of_ne (by omega)
      rw [ih (Nat.lt_succ_of_lt before), List.lookup_cons, other]

theorem lookup_numbered {place : Nat} (index : Nat) (captures : Captures)
    {args : List (List Char)} (given : place < args.length) :
    (numbered index captures args).lookup (index + place) = args[place] := by
  induction args generalizing index captures place with
  | nil => cases given
  | cons arg args ih =>
      unfold numbered
      cases place with
      | zero =>
          rw [Nat.add_zero, lookup_numbered_of_lt (Nat.lt_succ_self index), List.lookup_cons_self]
          rfl
      | succ place =>
          have further := ih (index + 1) ((index, arg) :: captures) (Nat.lt_of_succ_lt_succ given)
          rw [Nat.add_right_comm, Nat.add_assoc] at further
          exact further

/-- The groups of the pattern are the arguments in their order. -/
theorem map_lookup_numbered (args : List (List Char)) :
    ((List.range args.length).map fun index => (numbered 1 [] args).lookup (index + 1)) =
      args.map some := by
  apply List.ext_getElem
  · simp
  · intro place first second
    rw [List.length_map, List.length_range] at first
    simp only [List.getElem_map, List.getElem_range]
    rw [Nat.add_comm]
    exact lookup_numbered 1 [] first

theorem exists_answers (template : String) {line : List Char} (unbroken : '\n' ∉ line) :
    ∃ answer, Answers (literals template.toList) line answer ∧
      (pattern template).groups? line = answer.map (List.map some) := by
  have cut := Cut.literals template.toList
  obtain ⟨answer, answers, same⟩ := takesLongest cut.ne_nil 1 [] [] line unbroken
  refine ⟨answer, answers, ?_⟩
  unfold Pattern.groups? pattern
  simp only [Node.searchFrom_textStart]
  rw [same]
  cases answers with
  | unfilled _ => rfl
  | @filled args longest =>
      have count : (literals template.toList).length - 1 = args.length := by
        rw [longest.1.length_eq, Nat.add_sub_cancel]
      rw [count, Option.map_some, Option.map_some, map_lookup_numbered, Option.map_some]

end LineScript.Template

namespace LineScript.Matcher

open Template (Cut Fills Longest)

theorem patternReply_congr {pattern other : Pattern}
    (same : ∀ line, pattern.groups? line = other.groups? line) (line : Value) :
    patternReply pattern line = patternReply other line := by
  unfold patternReply
  simp only [same]

/-- The reply with some arguments. -/
theorem patternReply_of_groups? {pattern : Pattern} {line : String} {args : List (List Char)}
    (groups : pattern.groups? line.toList = some (args.map some)) :
    patternReply pattern (.text line) = .list (args.map fun arg => .text (String.ofList arg)) := by
  unfold patternReply
  simp only [groups, List.map_map]
  rfl

/-- The matcher made from a template replies at once to a line without a line break: with nothing if
the line is not its pieces with some text at each placeholder, and else with these texts, the first
as long as it can be, then the second, and so on. It replies as the pattern that its source is read
as: the escaped pieces with `(.+)` between any two, from the start of the line to its end. -/
theorem ask_template (template : String) :
    ∃ pattern pieces,
      ofValue (.text template) = .ok (.pattern pattern) ∧
      (∀ others, Cut template.toList others ↔ others = pieces) ∧
      pattern.source = String.ofList
        ('^' :: "(.+)".toList.intercalate (pieces.map Pattern.escape) ++ ['$']) ∧
      (∃ read, Pattern.ofSource? {} pattern.source = some read ∧
        ∀ line, patternReply read line = patternReply pattern line) ∧
      (∀ (Memory : Type) (host : Host Memory) (line : Value),
        ask host line (.pattern pattern) = pure (.now (patternReply pattern line))) ∧
      ∀ line : String, '\n' ∉ line.toList →
        (patternReply pattern (.text line) = .null ↔ ¬∃ args, Fills pieces args line.toList) ∧
        ((∃ args, Fills pieces args line.toList) → ∃ args, Longest pieces args line.toList ∧
          patternReply pattern (.text line) =
            .list (args.map fun arg => .text (String.ofList arg))) := by
  obtain ⟨read, reads, same⟩ := Template.ofSource?_source template
  have cut := Cut.literals template.toList
  refine ⟨Template.pattern template, Template.literals template.toList, rfl, fun others =>
    ⟨fun other => other.unique cut, ?_⟩, rfl, ⟨read, reads, patternReply_congr same⟩,
    fun _ _ _ => rfl, ?_⟩
  · rintro rfl
    exact cut
  intro line unbroken
  obtain ⟨answer, answers, groups⟩ := Template.exists_answers template unbroken
  cases answers with
  | unfilled nothing =>
      have reply : patternReply (Template.pattern template) (.text line) = .null := by
        unfold patternReply
        simp only [groups, Option.map_none]
      have unfilled : ¬∃ args, Fills (Template.literals template.toList) args line.toList :=
        not_exists.mpr nothing
      exact ⟨⟨fun _ => unfilled, fun _ => reply⟩, fun filled => absurd filled unfilled⟩
  | filled longest =>
      have reply := patternReply_of_groups? groups
      rw [reply]
      exact ⟨⟨nofun, fun unfilled => absurd ⟨_, longest.1⟩ unfilled⟩, fun _ => ⟨_, longest, rfl⟩⟩

/-- Where two arguments compete for the same text, the first one has it. -/
theorem ask_template_competing :
    '\n' ∉ "set a to b to c".toList ∧
      ∃ pattern, ofValue (.text "set \"NAME\" to \"VALUE\"") = .ok (.pattern pattern) ∧
        patternReply pattern (.text "set a to b to c") = .list [.text "a to b", .text "c"] ∧
        Longest ["set ".toList, " to ".toList, []] ["a to b".toList, "c".toList]
          "set a to b to c".toList := by
  have unbroken : '\n' ∉ "set a to b to c".toList := by decide
  obtain ⟨pattern, pieces, made, cut, -, -, -, replies⟩ :=
    ask_template "set \"NAME\" to \"VALUE\""
  obtain ⟨nothing, taken⟩ := replies "set a to b to c" unbroken
  have own : Template.pattern "set \"NAME\" to \"VALUE\"" = pattern :=
    Matcher.pattern.inj (Except.ok.inj made)
  have reply : patternReply pattern (.text "set a to b to c") =
      .list [.text "a to b", .text "c"] := by
    rw [← own]
    rfl
  have filled : ∃ args, Fills pieces args "set a to b to c".toList := by
    refine Classical.byContradiction fun unfilled => ?_
    rw [nothing.mpr unfilled] at reply
    cases reply
  obtain ⟨args, longest, listed⟩ := taken filled
  have split : pieces = ["set ".toList, " to ".toList, []] :=
    ((cut _).mp (Cut.literals _)).symm.trans rfl
  have texts : args.map (fun arg => Value.text (String.ofList arg)) =
      ["a to b".toList, "c".toList].map fun arg => Value.text (String.ofList arg) :=
    (Value.list.inj (listed.symm.trans reply)).trans rfl
  have alone (one other : List Char)
      (same : Value.text (String.ofList one) = Value.text (String.ofList other)) : one = other :=
    String.ofList_injective (Value.text.inj same)
  rw [split, (List.map_inj_right alone).mp texts] at longest
  exact ⟨unbroken, pattern, made, reply, longest⟩

end LineScript.Matcher
