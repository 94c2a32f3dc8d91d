import LineScript.Action.Template
import LineScript.Pattern.Parser
import LineScript.Proofs.Action.Placeholders
import LineScript.Proofs.Pattern.Greedy

/-!
# The source of a template

The pattern of a template is built as a tree, beside the source it would be read from: the escaped
pieces with `(.+)` between any two, from the start of the text to its end. The source reads to a
tree that matches alike. An escaped character stands for itself, and nothing in an escaped piece
is taken for a quantifier of what stands before it.
-/

namespace LineScript.Pattern

namespace Parser

theorem escape?_special {c : Char} (special : c ∈ specialChars) :
    escape? {} c = some (.one (.exactly c)) := by
  have each : (specialChars.all fun d => escape? {} d = some (.one (.exactly d))) = true := by
    decide
  exact of_decide_eq_true (List.all_eq_true.mp each c special)

/-- Whether some characters start with an atom: with no quantifier, bar or closing parenthesis. -/
def StartsAtom (chars : List Char) : Prop :=
  ∃ c rest, chars = c :: rest ∧ c ∉ ['*', '+', '?', '\x7b', '|', ')']

theorem StartsAtom.quantifier?_eq_none {chars : List Char} (starts : StartsAtom chars) :
    quantifier? chars = none := by
  obtain ⟨c, rest, rfl, other⟩ := starts
  unfold quantifier?
  split
  case h_5 => rfl
  -- the other cases are the characters that no atom starts with
  all_goals
    rename_i whole
    cases whole
    exact absurd (by decide) other

theorem startsAtom_escapeChar (c : Char) (rest : List Char) :
    StartsAtom (escapeChar c ++ rest) := by
  unfold escapeChar
  by_cases special : specialChars.contains c = true
  · rw [if_pos special]
    exact ⟨'\\', c :: rest, rfl, by decide⟩
  · rw [if_neg special]
    have escaped : ['*', '+', '?', '\x7b', '|', ')'].all specialChars.contains = true := by
      decide
    exact ⟨c, rest, rfl, fun member => special (List.all_eq_true.mp escaped c member)⟩

/-- A sequence goes on behind an atom without a quantifier. -/
theorem sequence?_of_atom? {fuel groups : Nat} {chars : List Char} {node tree : Node}
    {rest out : Rest} (starts : StartsAtom chars)
    (atom : atom? {} fuel ⟨chars, groups⟩ = some (node, rest))
    (unquantified : quantifier? rest.chars = none)
    (others : sequence? {} (fuel + 1) rest = some (tree, out)) :
    sequence? {} (fuel + 2) ⟨chars, groups⟩ =
      some (if tree = .empty then node else .seq node tree, out) := by
  obtain ⟨c, more, rfl, other⟩ := starts
  have piece : piece? {} (fuel + 1) ⟨c :: more, groups⟩ = some (node, rest) := by
    unfold piece?
    rw [atom]
    simp only [Option.bind_eq_bind, Option.bind_some, unquantified]
    rfl
  unfold sequence?
  split
  case h_1 whole => cases whole
  case h_4 =>
    rw [piece]
    simp only [Option.bind_eq_bind, Option.bind_some]
    rw [others]
    rfl
  all_goals
    rename_i whole
    cases whole
    exact absurd (by decide) other

theorem atom?_escapeChar (fuel groups : Nat) (c : Char) (rest : List Char) :
    atom? {} (fuel + 1) ⟨escapeChar c ++ rest, groups⟩ =
      some (.one (.exactly c), ⟨rest, groups⟩) := by
  unfold escapeChar
  by_cases special : specialChars.contains c = true
  · rw [if_pos special]
    unfold atom?
    simp only [List.cons_append, List.nil_append]
    rw [escape?_special (List.contains_iff_mem.mp special)]
    rfl
  · rw [if_neg special, List.singleton_append]
    unfold atom?
    split
    case h_1 whole => cases whole
    case h_16 =>
      rename_i whole
      cases whole
      rfl
    -- a character with a meaning of its own would have been escaped
    all_goals
      rename_i whole
      cases whole
      exact absurd (by decide) special

/-- Whether what is left of a source reads to its end as a tree that matches in some way, with so
many groups in all. -/
structure ReadsAs (rest : Rest) (matching : Matching) (groups : Nat) : Prop where
  unquantified : quantifier? rest.chars = none
  reads : ∃ tree, tree ≠ .empty ∧ tree.run = matching ∧
    ∀ fuel, rest.chars.length + 6 ≤ fuel → sequence? {} fuel rest = some (tree, ⟨[], groups⟩)

/-- A match of an atom, and then of what stands behind it. -/
def followed (node : Node) (matching : Matching) : Matching :=
  fun place captures goal => node.run place captures fun next held => matching next held goal

namespace ReadsAs

variable {groups count : Nat} {rest : List Char} {matching : Matching}

theorem cons {chars : List Char} {node : Node} {more : Rest} (starts : StartsAtom chars)
    (shorter : more.chars.length < chars.length)
    (atom : ∀ fuel, atom? {} (fuel + 5) ⟨chars, groups⟩ = some (node, more))
    (reads : ReadsAs more matching count) :
    ReadsAs ⟨chars, groups⟩ (followed node matching) count := by
  obtain ⟨tree, filled, same, others⟩ := reads.reads
  refine ⟨starts.quantifier?_eq_none, .seq node tree, nofun, ?_, fun fuel enough => ?_⟩
  · subst same
    rfl
  · change chars.length + 6 ≤ fuel at enough
    obtain ⟨steps, rfl⟩ : ∃ steps, fuel = steps + 7 := ⟨fuel - 7, by omega⟩
    have read := sequence?_of_atom? starts (atom steps) reads.unquantified
      (others (steps + 6) (by omega))
    rw [if_neg filled] at read
    exact read

theorem finalEnd : ReadsAs ⟨['$'], count⟩ (Node.anchor .finalEnd).run count := by
  refine ⟨rfl, .anchor .finalEnd, nofun, rfl, fun fuel enough => ?_⟩
  obtain ⟨steps, rfl⟩ : ∃ steps, fuel = steps + 3 := ⟨fuel - 3, by omega⟩
  rfl

theorem textStart (reads : ReadsAs ⟨rest, groups⟩ matching count) :
    ReadsAs ⟨'^' :: rest, groups⟩ (followed (.anchor .textStart) matching) count :=
  cons ⟨'^', rest, rfl, by decide⟩ (Nat.lt_succ_self _) (fun _ => rfl) reads

theorem escapeChar (c : Char) (reads : ReadsAs ⟨rest, groups⟩ matching count) :
    ReadsAs ⟨Pattern.escapeChar c ++ rest, groups⟩ (followed (.one (.exactly c)) matching)
      count := by
  refine cons (startsAtom_escapeChar c rest) ?_ (fun fuel => atom?_escapeChar _ _ c rest) reads
  have filled : 0 < (Pattern.escapeChar c).length := by
    unfold Pattern.escapeChar
    split <;> exact Nat.zero_lt_succ _
  change rest.length < (Pattern.escapeChar c ++ rest).length
  rw [List.length_append]
  omega

theorem argument (reads : ReadsAs ⟨rest, groups + 1⟩ matching count) :
    ReadsAs ⟨"(.+)".toList ++ rest, groups⟩ (followed (Template.argument (groups + 1)) matching)
      count :=
  cons ⟨'(', '.' :: '+' :: ')' :: rest, rfl, by decide⟩ (by simp; omega) (fun _ => rfl) reads

theorem escape (chars : List Char) (reads : ReadsAs ⟨rest, groups⟩ matching count) :
    ReadsAs ⟨Pattern.escape chars ++ rest, groups⟩ (followed (.literal chars) matching) count := by
  induction chars with
  | nil => exact reads
  | cons c chars ih =>
      have step : followed (.literal (c :: chars)) matching =
          followed (.one (.exactly c)) (followed (.literal chars) matching) := by
        funext place captures goal
        exact Node.run_literal_cons c chars place
      unfold Pattern.escape
      rw [step, List.flatMap_cons, List.append_assoc]
      exact ih.escapeChar c

end ReadsAs

end Parser

end LineScript.Pattern

namespace LineScript.Template

open Pattern.Parser (ReadsAs)

/-- The escaped pieces with `(.+)` between any two read as their tree does. -/
theorem readsAs_nodeOf {pieces : List (List Char)} (filled : pieces ≠ []) (groups : Nat) :
    ReadsAs ⟨"(.+)".toList.intercalate (pieces.map Pattern.escape) ++ ['$'], groups⟩
      (nodeOf (groups + 1) pieces).run (groups + (pieces.length - 1)) := by
  induction pieces generalizing groups with
  | nil => exact absurd rfl filled
  | cons piece others ih =>
      cases others with
      | nil =>
          rw [List.map_singleton, List.intercalate_singleton]
          exact ReadsAs.finalEnd.escape piece
      | cons other others =>
          have count : groups + ((piece :: other :: others).length - 1) =
              groups + 1 + ((other :: others).length - 1) := by
            simp only [List.length_cons]
            omega
          rw [List.map_cons, List.map_cons, List.intercalate_cons_cons, count, List.append_assoc,
            List.append_assoc]
          exact (ih (List.cons_ne_nil _ _) (groups + 1)).argument.escape piece

/-- The source of a template reads to a pattern that matches as the pattern of the template. -/
theorem ofSource?_source (template : String) :
    ∃ read, Pattern.ofSource? {} (pattern template).source = some read ∧
      ∀ line, read.groups? line = (pattern template).groups? line := by
  have pieces := (Cut.literals template.toList).ne_nil
  obtain ⟨-, tree, -, same, reads⟩ := (readsAs_nodeOf pieces 0).textStart
  have whole : (pattern template).source.toList = source template.toList := String.toList_ofList
  have started : 1 ≤ (source template.toList).length := Nat.le_add_left 1 _
  have enough : (source template.toList).length + 6 ≤
      4 * (source template.toList).length + 3 := by
    omega
  have read : Pattern.Parser.alternatives? {} (4 * (source template.toList).length + 4)
      ⟨source template.toList, 0⟩ =
        some (tree, ⟨[], 0 + ((literals template.toList).length - 1)⟩) := by
    unfold Pattern.Parser.alternatives?
    simp only [Option.bind_eq_bind]
    rw [show Pattern.Parser.sequence? {} _ ⟨source template.toList, 0⟩ = _ from reads _ enough]
    rfl
  refine ⟨⟨(pattern template).source, {}, tree, (literals template.toList).length - 1⟩, ?_,
    fun line => ?_⟩
  · unfold Pattern.ofSource?
    simp only [whole, read, Nat.zero_add]
  · unfold Pattern.groups?
    have alike : tree.run = (pattern template).root.run := same
    rw [Pattern.Node.searchFrom_congr alike]
    rfl

end LineScript.Template
