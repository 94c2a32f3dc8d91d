import Mathlib.Data.List.Forall2
import LineScript.Proofs.Pattern.Greedy

/-!
# What a match reads

A tree *reads* characters from one place to another, with the captures that it adds on the way.
Which of the readings a search finds depends on what has to match behind them, but it finds nothing
else: whatever it answers comes from a reading that leads to the goal
(`LineScript.Pattern.Node.exists_reads`).
-/

namespace LineScript.Pattern

theorem CharTest.accepts_category (kind : Category) (c : Char) :
    (oneOf false false [.category false kind]).accepts c = kind.contains c := by
  simp [accepts, ClassItem.contains]

/-- What some rounds of a reading read. -/
inductive Rounds (reads : Place → Captures → Place → Captures → Prop) :
    Nat → Place → Captures → Place → Captures → Prop where
  | none (place : Place) (captures : Captures) : Rounds reads 0 place captures place captures
  | more {count : Nat} {place next last : Place} {captures held final : Captures} :
      reads place captures next held → Rounds reads count next held last final →
      Rounds reads (count + 1) place captures last final

/-- Whether a tree reads what lies between two places, where the captures at the first become those
at the second. -/
def Node.Reads : Node → Place → Captures → Place → Captures → Prop
  | .empty, place, captures, next, held => next = place ∧ held = captures
  | .one test, place, captures, next, held =>
    held = captures ∧ ∃ c, test.accepts c = true ∧ place.ahead = c :: next.ahead ∧
      next.behind = c :: place.behind
  | .anchor condition, place, captures, next, held =>
    condition.holds place = true ∧ next = place ∧ held = captures
  | .seq first second, place, captures, next, held =>
    ∃ between kept, first.Reads place captures between kept ∧ second.Reads between kept next held
  | .either first second, place, captures, next, held =>
    first.Reads place captures next held ∨ second.Reads place captures next held
  | .group index body, place, captures, next, held =>
    ∃ kept, body.Reads place captures next kept ∧ held = (index, place.textUpTo next) :: kept
  | .repeated least most _ body, place, captures, next, held =>
    ∃ count, least ≤ count ∧ (∀ bound ∈ most, count ≤ max least bound) ∧
      Rounds body.Reads count place captures next held

variable {body : Matching} {reads : Place → Captures → Place → Captures → Prop}

/-- Whether whatever a matching answers comes from a reading that leads to the goal. -/
def Sound (body : Matching) (reads : Place → Captures → Place → Captures → Prop) : Prop :=
  ∀ ⦃place captures goal found⦄, body place captures goal = some found →
    ∃ next held, reads place captures next held ∧ goal next held = some found

theorem eq_some_of_orElse {first : Option Captures} {second : Unit → Option Captures}
    {found : Captures} (either : first.orElse second = some found) :
    first = some found ∨ second () = some found := by
  cases first with
  | none => exact Or.inr either
  | some other => exact Or.inl either

theorem Sound.optionalRounds (sound : Sound body reads) {greedy : Bool} {budget : Nat}
    {most : Option Nat} :
    Sound (optionalRounds greedy body budget most) fun place captures next held =>
      ∃ count, (∀ bound ∈ most, count ≤ bound) ∧ Rounds reads count place captures next held := by
  induction budget generalizing most with
  | zero =>
      intro place captures goal found answered
      exact ⟨place, captures, ⟨0, fun _ _ => Nat.zero_le _, .none place captures⟩, answered⟩
  | succ budget ih =>
      intro place captures goal found answered
      have stopped (reached : goal place captures = some found) :
          ∃ next held, (∃ count, (∀ bound ∈ most, count ≤ bound) ∧
            Rounds reads count place captures next held) ∧ goal next held = some found :=
        ⟨place, captures, ⟨0, fun _ _ => Nat.zero_le _, .none place captures⟩, reached⟩
      have another (positive : most ≠ some 0)
          (reached : body place captures (fun next held =>
            if next.ahead.length < place.ahead.length then
              Pattern.optionalRounds greedy body budget (most.map (· - 1)) next held goal
            else goal next held) = some found) :
          ∃ next held, (∃ count, (∀ bound ∈ most, count ≤ bound) ∧
            Rounds reads count place captures next held) ∧ goal next held = some found := by
        obtain ⟨next, held, first, rest⟩ := sound reached
        have least : ∀ bound ∈ most, 1 ≤ bound := by
          rintro bound rfl
          exact Nat.pos_of_ne_zero fun zero => positive (congrArg some zero)
        split at rest
        · obtain ⟨last, final, ⟨count, bounded, further⟩, led⟩ := ih rest
          refine ⟨last, final, ⟨count + 1, ?_, .more first further⟩, led⟩
          rintro bound rfl
          have one := least bound rfl
          have less := bounded (bound - 1) rfl
          omega
        · exact ⟨next, held, ⟨1, least, .more first (.none next held)⟩, rest⟩
      by_cases zero : most = some 0
      · subst zero
        exact stopped answered
      · rw [Pattern.optionalRounds] at answered
        · split at answered
          · rcases eq_some_of_orElse answered with further | reached
            · exact another zero further
            · exact stopped reached
          · rcases eq_some_of_orElse answered with reached | further
            · exact stopped reached
            · exact another zero further
        · exact zero

theorem Sound.rounds (sound : Sound body reads) {greedy : Bool} {more : Option Nat} {least : Nat} :
    Sound (rounds greedy body more least) fun place captures next held =>
      ∃ count, least ≤ count ∧ (∀ bound ∈ more, count ≤ least + bound) ∧
        Rounds reads count place captures next held := by
  induction least with
  | zero =>
      intro place captures goal found answered
      obtain ⟨next, held, ⟨count, bounded, read⟩, led⟩ := sound.optionalRounds answered
      refine ⟨next, held, ⟨count, Nat.zero_le _, ?_, read⟩, led⟩
      intro bound member
      rw [Nat.zero_add]
      exact bounded bound member
  | succ least ih =>
      intro place captures goal found answered
      obtain ⟨between, kept, first, rest⟩ := sound answered
      obtain ⟨next, held, ⟨count, enough, bounded, read⟩, led⟩ := ih rest
      refine ⟨next, held, ⟨count + 1, Nat.succ_le_succ enough, ?_, .more first read⟩, led⟩
      intro bound member
      have less := bounded bound member
      omega

/-- Whatever the match of a tree answers comes from a reading that leads to the goal. -/
theorem Node.exists_reads (node : Node) : Sound node.run node.Reads := by
  induction node with
  | empty =>
      intro place captures goal found answered
      exact ⟨place, captures, ⟨rfl, rfl⟩, answered⟩
  | one test =>
      intro place captures goal found answered
      obtain ⟨behind, ahead⟩ := place
      cases ahead with
      | nil => cases answered
      | cons c rest =>
          unfold run at answered
          simp only [] at answered
          split at answered
          next accepted =>
            exact ⟨⟨c :: behind, rest⟩, captures, ⟨rfl, c, accepted, rfl, rfl⟩, answered⟩
          next => cases answered
  | anchor condition =>
      intro place captures goal found answered
      unfold run at answered
      split at answered
      next holds => exact ⟨place, captures, ⟨holds, rfl, rfl⟩, answered⟩
      next => cases answered
  | seq first second one two =>
      intro place captures goal found answered
      obtain ⟨between, kept, before, rest⟩ := one answered
      obtain ⟨next, held, after, led⟩ := two rest
      exact ⟨next, held, ⟨between, kept, before, after⟩, led⟩
  | either first second one two =>
      intro place captures goal found answered
      rcases eq_some_of_orElse answered with answered | answered
      · obtain ⟨next, held, read, led⟩ := one answered
        exact ⟨next, held, Or.inl read, led⟩
      · obtain ⟨next, held, read, led⟩ := two answered
        exact ⟨next, held, Or.inr read, led⟩
  | group index body inside =>
      intro place captures goal found answered
      obtain ⟨next, kept, read, led⟩ := inside answered
      exact ⟨next, _, ⟨kept, read, rfl⟩, led⟩
  | repeated least most greedy body inside =>
      intro place captures goal found answered
      obtain ⟨next, held, ⟨count, enough, bounded, read⟩, led⟩ := Sound.rounds inside answered
      refine ⟨next, held, ⟨count, enough, ?_, read⟩, led⟩
      rintro bound rfl
      have less := bounded (bound - least) rfl
      omega

/-- Rounds of a test read characters that pass it, and capture nothing. -/
theorem Rounds.exists_taken {test : CharTest} {count : Nat} {place next : Place}
    {captures held : Captures}
    (rounds : Rounds (Node.one test).Reads count place captures next held) :
    held = captures ∧ ∃ taken, taken.length = count ∧ (∀ c ∈ taken, test.accepts c = true) ∧
      place.ahead = taken ++ next.ahead := by
  induction rounds with
  | none place captures => exact ⟨rfl, [], rfl, List.forall_mem_nil _, rfl⟩
  | more first _ ih =>
      obtain ⟨rfl, c, accepted, ahead, -⟩ := first
      obtain ⟨same, taken, count, others, further⟩ := ih
      refine ⟨same, c :: taken, congrArg Nat.succ count, ?_, ?_⟩
      · exact List.forall_mem_cons.mpr ⟨accepted, others⟩
      · rw [ahead, further]
        rfl

/-- A repeated test reads characters that pass it, as many as it has to. -/
theorem Node.reads_repeated {least : Nat} {most : Option Nat} {greedy : Bool} {test : CharTest}
    {place next : Place} {captures held : Captures}
    (read : (Node.repeated least most greedy (.one test)).Reads place captures next held) :
    held = captures ∧ ∃ taken, least ≤ taken.length ∧ (∀ c ∈ taken, test.accepts c = true) ∧
      place.ahead = taken ++ next.ahead := by
  obtain ⟨count, enough, -, rounds⟩ := read
  obtain ⟨same, taken, rfl, accepted, ahead⟩ := rounds.exists_taken
  exact ⟨same, taken, enough, accepted, ahead⟩

/-- A repeated kind of characters reads characters of this kind. -/
theorem Node.reads_category {least : Nat} {most : Option Nat} {greedy : Bool} {kind : Category}
    {place next : Place} {captures held : Captures}
    (read : (Node.repeated least most greedy (.one (.oneOf false false
      [.category false kind]))).Reads place captures next held) :
    held = captures ∧ ∃ taken, least ≤ taken.length ∧ (∀ c ∈ taken, kind.contains c = true) ∧
      place.ahead = taken ++ next.ahead := by
  obtain ⟨same, taken, enough, accepted, ahead⟩ := reads_repeated read
  refine ⟨same, taken, enough, fun c member => ?_, ahead⟩
  rw [← CharTest.accepts_category]
  exact accepted c member

/-- Where the end of a text is read, at most one line feed is left of it. -/
theorem Node.reads_finalEnd {place next : Place} {captures held : Captures}
    (read : (Node.anchor .finalEnd).Reads place captures next held) :
    held = captures ∧ place.ahead ∈ [[], ['\n']] := by
  obtain ⟨holds, -, same⟩ := read
  unfold Anchor.holds at holds
  rw [Bool.or_eq_true, List.isEmpty_iff, beq_iff_eq] at holds
  exact ⟨same, by simpa using holds⟩

theorem Place.textUpTo_of_ahead {place next : Place} {taken : List Char}
    (ahead : place.ahead = taken ++ next.ahead) : place.textUpTo next = taken := by
  obtain ⟨behind, chars⟩ := place
  obtain rfl : chars = taken ++ next.ahead := ahead
  exact textUpTo_append taken next.ahead next.behind

/-- A word that is tested letter by letter reads characters that pass the tests. -/
theorem Node.reads_word {test : Char → CharTest} {chars : List Char} {tail : Node}
    {place next : Place} {captures held : Captures}
    (read : (chars.foldr (fun c rest => .seq (.one (test c)) rest) tail).Reads place captures next
      held) :
    ∃ word between, List.Forall₂ (fun c d => (test c).accepts d = true) chars word ∧
      place.ahead = word ++ between.ahead ∧ tail.Reads between captures next held := by
  induction chars generalizing place with
  | nil => exact ⟨[], place, .nil, rfl, read⟩
  | cons c chars ih =>
      obtain ⟨second, _, ⟨rfl, d, same, ahead, -⟩, rest⟩ := read
      obtain ⟨word, between, alike, further, behind⟩ := ih rest
      refine ⟨d :: word, between, .cons same alike, ?_, behind⟩
      rw [ahead, further]
      rfl

/-- What a pattern that starts with the start of the text takes from a text comes from a reading of
the text from there. -/
theorem exists_reads_of_groups? {pattern : Pattern} {body : Node} {chars : List Char}
    {groups : List (Option (List Char))}
    (root : pattern.root = .seq (.anchor .textStart) body)
    (found : pattern.groups? chars = some groups) :
    ∃ next held, body.Reads ⟨[], chars⟩ [] next held ∧
      groups = (List.range pattern.groups).map fun index => held.lookup (index + 1) := by
  unfold groups? at found
  rw [root, Node.searchFrom_textStart, Option.map_eq_some_iff] at found
  obtain ⟨captures, answered, rfl⟩ := found
  obtain ⟨next, held, read, led⟩ := body.exists_reads answered
  obtain rfl := Option.some.inj led
  exact ⟨next, held, read, rfl⟩

end LineScript.Pattern
