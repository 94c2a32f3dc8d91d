import LineScript.Proofs.CommandLine.Interleaving
import LineScript.Proofs.Value.Entries

/-!
# Splitting again

The arguments that are left when the entries for the state are taken out of a command line are a
normal form: they stand in the order in which they were given, and a long option that the command
line does not know is among them only as the operand of `--output`. Nothing is taken out of such a
command line again. Entries that all hold texts can be written in front of it, each as
`--NAME=VALUE`, and are then taken out as they were
(`LineScript.CommandLine.splitStateOptions_again`).
-/

namespace LineScript

/-- Whether a value is one that an entry on a command line may have. -/
def Value.IsPlain (value : Value) : Prop :=
  value = .bool true ∨ ∃ content, value = .text content

namespace CommandLine

/-- Whether an argument is a long option that the command line does not know. -/
def IsUnknownOption (argument : String) : Prop :=
  isLong argument.toList = true ∧ argument ≠ "--" ∧ (nameAndValue argument).1 ∉ ownOptions

/-- Command lines on which a long option that the command line does not know stands only as the
operand of `--output`. Without an operand, `--output` is the last argument. -/
inductive IsNormal : List String → Prop where
  | nil : IsNormal []
  | lacking : IsNormal [outputOption]
  | output (operand : String) {rest : List String} :
      IsNormal rest → IsNormal (outputOption :: operand :: rest)
  | cons {argument : String} {rest : List String} :
      ¬IsUnknownOption argument → argument ≠ outputOption → IsNormal rest →
      IsNormal (argument :: rest)

/-- Whether a name is one that an entry on a command line may have. -/
def IsEntryName (name : String) : Prop :=
  '=' ∉ name.toList ∧ "--" ++ name ∉ ownOptions

/-- Entries that hold texts, as entries for the state. -/
def textEntries (given : Entries String) : Entries Value :=
  given.map fun entry => (entry.1, .text entry.2)

/-- The arguments that entries with texts are written as. -/
def written (given : Entries String) : List String :=
  given.map fun entry => "--" ++ entry.1 ++ "=" ++ entry.2

namespace ArgumentPiece

/-- Whether a piece of a command line is kept. -/
def IsKept : ArgumentPiece → Prop
  | .kept _ => True
  | .entry .. => False

/-- The entry for the state that a piece is. -/
def entry? : ArgumentPiece → Option (String × Value)
  | .kept _ => none
  | .entry name value => some (name, value)

/-- Whether a piece is no entry, or one with a name and a value that an entry may have. -/
def IsProper : ArgumentPiece → Prop
  | .kept _ => True
  | .entry name value => IsEntryName name ∧ value.IsPlain

end ArgumentPiece

section Keeping

theorem not_isKept_iff {argument : String} :
    ¬isKept argument = true ↔ IsUnknownOption argument := by
  simp [isKept, IsUnknownOption, and_assoc]

theorem isKept_iff {argument : String} :
    isKept argument = true ↔ ¬IsUnknownOption argument := by
  rw [← not_isKept_iff, not_not]

@[simp] theorem keptArguments_kept (arguments : List String) (others : List ArgumentPiece) :
    keptArguments (.kept arguments :: others) = arguments ++ keptArguments others := rfl

@[simp] theorem keptArguments_entry (name : String) (value : Value)
    (others : List ArgumentPiece) :
    keptArguments (.entry name value :: others) = keptArguments others := rfl

/-- The kept arguments stand in the order in which they were given. -/
theorem keptArguments_sublist (arguments : List String) :
    (keptArguments (pieces arguments)).Sublist arguments := by
  fun_induction pieces arguments with
  | case1 => exact List.Sublist.slnil
  | case2 argument kept operand rest takes ih => exact (ih.cons_cons operand).cons_cons argument
  | case3 argument kept rest alone ih => exact ih.cons_cons argument
  | case4 argument dropped name content rest joined ih => exact ih.cons argument
  | case5 argument dropped name alone => exact List.nil_sublist _
  | case6 argument dropped name next rest alone long ih =>
      rw [keptArguments_entry]
      exact ih.cons argument
  | case7 argument dropped name content rest alone short ih =>
      exact (ih.cons content).cons argument

theorem eq_of_cutAtEquals {chars name : List Char} (cut : cutAtEquals chars = (name, none)) :
    chars = name := by
  induction chars generalizing name with
  | nil => exact (Prod.mk.inj cut).1
  | cons c chars ih =>
      by_cases equals : c = '='
      · rw [cutAtEquals, if_pos equals] at cut
        cases (Prod.mk.inj cut).2
      · rw [cutAtEquals, if_neg equals] at cut
        obtain ⟨rfl, alone⟩ := Prod.mk.inj cut
        exact congrArg (List.cons c) (ih (Prod.ext rfl alone))

theorem eq_outputOption {argument : String}
    (takes : nameAndValue argument = (outputOption, none)) : argument = outputOption := by
  obtain ⟨name, alone⟩ := Prod.mk.inj takes
  have cut : cutAtEquals argument.toList = ((cutAtEquals argument.toList).1, none) :=
    Prod.ext rfl (Option.map_eq_none_iff.mp alone)
  rw [← name, ← eq_of_cutAtEquals cut, String.ofList_toList]

theorem pieces_output (operand : String) (rest : List String) :
    pieces (outputOption :: operand :: rest) =
      .kept [outputOption, operand] :: pieces rest := by
  rw [pieces, if_pos (by decide)]
  decide

/-- What is kept is normal: an `--output` that had an operand still stands in front of it, and one
without is still the last argument. -/
theorem isNormal_keptArguments (arguments : List String) :
    IsNormal (keptArguments (pieces arguments)) := by
  fun_induction pieces arguments with
  | case1 => exact .nil
  | case2 argument kept operand rest takes ih =>
      obtain rfl : argument = outputOption := eq_outputOption (beq_iff_eq.mp takes)
      exact .output operand ih
  | case3 argument kept rest alone ih =>
      by_cases output : argument = outputOption
      · -- with an argument behind it, it would have been kept together with that as its operand
        subst output
        cases rest with
        | nil => exact .lacking
        | cons operand rest => exact (alone operand rest (by decide) rfl).elim
      · exact .cons (isKept_iff.mp kept) output ih
  | case4 argument dropped name content rest joined ih => exact ih
  | case5 argument dropped name alone => exact .nil
  | case6 argument dropped name next rest alone long ih =>
      rw [keptArguments_entry]
      exact ih
  | case7 argument dropped name content rest alone short ih => exact ih

/-- Every argument of a normal command line is kept. -/
theorem IsNormal.all_kept {arguments : List String} (normal : IsNormal arguments) :
    (∀ piece ∈ pieces arguments, piece.IsKept) ∧
      keptArguments (pieces arguments) = arguments := by
  induction normal with
  | nil => exact ⟨List.forall_mem_nil _, rfl⟩
  | lacking => exact ⟨List.forall_mem_singleton.mpr trivial, rfl⟩
  | output operand normal ih =>
      obtain ⟨all, same⟩ := ih
      rw [pieces_output, keptArguments_kept, same]
      exact ⟨List.forall_mem_cons.mpr ⟨trivial, all⟩, rfl⟩
  | @cons argument rest known other normal ih =>
      obtain ⟨all, same⟩ := ih
      have alone : nameAndValue argument ≠ (outputOption, none) := fun takes =>
        other (eq_outputOption takes)
      rw [pieces_cons_of_isKept (isKept_iff.mpr known) alone, keptArguments_kept, same]
      exact ⟨List.forall_mem_cons.mpr ⟨trivial, all⟩, rfl⟩

end Keeping

section Writing

theorem stateEntries_eq (split : List ArgumentPiece) :
    stateEntries split = Entries.ofPairs (split.filterMap ArgumentPiece.entry?) := by
  unfold stateEntries
  congr 2

theorem filterMap_entry? {split : List ArgumentPiece} (all : ∀ piece ∈ split, piece.IsKept) :
    split.filterMap ArgumentPiece.entry? = [] := by
  refine List.filterMap_eq_nil_iff.mpr ?_
  intro piece member
  cases piece with
  | kept arguments => rfl
  | entry name value => cases all _ member

theorem not_mem_cutAtEquals (chars : List Char) : '=' ∉ (cutAtEquals chars).1 := by
  induction chars with
  | nil => exact List.not_mem_nil
  | cons c chars ih =>
      by_cases equals : c = '='
      · rw [cutAtEquals, if_pos equals]
        exact List.not_mem_nil
      · rw [cutAtEquals, if_neg equals]
        simp [Ne.symm equals, ih]

/-- The name of a long option starts with the hyphens. -/
theorem cutAtEquals_of_isLong {chars : List Char} (long : isLong chars = true) :
    (cutAtEquals chars).1 = '-' :: '-' :: (cutAtEquals chars).1.drop 2 := by
  have hyphens : chars.take 2 = ['-', '-'] := beq_iff_eq.mp long
  rcases chars with _ | ⟨first, _ | ⟨second, chars⟩⟩
  · cases hyphens
  · cases hyphens
  · obtain ⟨rfl, same⟩ := List.cons.inj hyphens
    obtain ⟨rfl, -⟩ := List.cons.inj same
    simp [cutAtEquals]

theorem IsUnknownOption.isEntryName {argument : String} (unknown : IsUnknownOption argument) :
    IsEntryName (String.ofList ((nameAndValue argument).1.toList.drop 2)) := by
  obtain ⟨long, -, unlisted⟩ := unknown
  have name : (nameAndValue argument).1.toList = (cutAtEquals argument.toList).1 :=
    String.toList_ofList
  have whole : "--" ++ String.ofList ((nameAndValue argument).1.toList.drop 2) =
      (nameAndValue argument).1 := by
    apply String.toList_injective
    simp only [String.toList_append, name, String.toList_ofList]
    exact (cutAtEquals_of_isLong long).symm
  refine ⟨?_, ?_⟩
  · rw [String.toList_ofList, name]
    intro member
    exact not_mem_cutAtEquals _ (List.mem_of_mem_drop member)
  · rw [whole]
    exact unlisted

/-- A long option that the command line does not know gives an entry that it may have. -/
theorem isProper_entry {argument : String} (dropped : ¬isKept argument = true) {value : Value}
    (plain : value.IsPlain) :
    (ArgumentPiece.entry (String.ofList ((nameAndValue argument).1.toList.drop 2))
      value).IsProper :=
  ⟨(not_isKept_iff.mp dropped).isEntryName, plain⟩

theorem pieces_proper (arguments : List String) : ∀ piece ∈ pieces arguments, piece.IsProper := by
  fun_induction pieces arguments with
  | case1 => exact List.forall_mem_nil _
  | case2 argument kept operand rest takes ih => exact List.forall_mem_cons.mpr ⟨trivial, ih⟩
  | case3 argument kept rest alone ih => exact List.forall_mem_cons.mpr ⟨trivial, ih⟩
  | case4 argument dropped name content rest joined ih =>
      exact List.forall_mem_cons.mpr ⟨isProper_entry dropped (Or.inr ⟨content, rfl⟩), ih⟩
  | case5 argument dropped name alone =>
      exact List.forall_mem_singleton.mpr (isProper_entry dropped (Or.inl rfl))
  | case6 argument dropped name next rest alone long ih =>
      exact List.forall_mem_cons.mpr ⟨isProper_entry dropped (Or.inl rfl), ih⟩
  | case7 argument dropped name content rest alone short ih =>
      exact List.forall_mem_cons.mpr ⟨isProper_entry dropped (Or.inr ⟨content, rfl⟩), ih⟩

theorem proper_of_listed {arguments : List String} {entry : String × Value}
    (listed : entry ∈ (pieces arguments).filterMap ArgumentPiece.entry?) :
    IsEntryName entry.1 ∧ entry.2.IsPlain := by
  obtain ⟨piece, split, taken⟩ := List.mem_filterMap.mp listed
  have proper := pieces_proper arguments piece split
  cases piece with
  | kept arguments => cases taken
  | entry name value =>
      cases taken
      exact proper

/-- The names of the entries on a command line can be written as options again. -/
theorem isEntryName_of_mem {arguments : List String} {name : String}
    (member : name ∈ (stateEntries (pieces arguments)).names) : IsEntryName name := by
  rw [stateEntries_eq] at member
  obtain ⟨entry, listed, rfl⟩ := List.mem_map.mp (Entries.mem_names_ofPairs member)
  exact (proper_of_listed listed).1

theorem textEntries_names (given : Entries String) : (textEntries given).names = given.names := by
  unfold textEntries Entries.names
  rw [List.map_map]
  rfl

theorem pieces_written {given : Entries String} (named : ∀ name ∈ given.names, IsEntryName name)
    (rest : List String) :
    pieces (written given ++ rest) =
      (textEntries given).map (fun entry => .entry entry.1 entry.2) ++ pieces rest := by
  induction given with
  | nil => rfl
  | cons entry given ih =>
      obtain ⟨own, others⟩ := List.forall_mem_cons.mp named
      have proper : (Item.entry entry.1 entry.2).IsProper := own
      change pieces ((Item.entry entry.1 entry.2).arguments ++ (written given ++ rest)) = _
      rw [pieces_arguments proper, ih others]
      rfl

theorem keptArguments_entries (entries : Entries Value) (others : List ArgumentPiece) :
    keptArguments (entries.map (fun entry => .entry entry.1 entry.2) ++ others) =
      keptArguments others := by
  induction entries with
  | nil => rfl
  | cons entry entries ih => exact ih

/-- Entries in front of kept arguments are taken out as they are. -/
theorem stateEntries_entries {entries : Entries Value} (apart : entries.names.Nodup)
    {others : List ArgumentPiece} (all : ∀ piece ∈ others, piece.IsKept) :
    stateEntries (entries.map (fun entry => .entry entry.1 entry.2) ++ others) = entries := by
  have own : (entries.map fun entry => ArgumentPiece.entry entry.1 entry.2).filterMap
      ArgumentPiece.entry? = entries := by
    rw [List.filterMap_map]
    exact List.filterMap_some
  rw [stateEntries_eq, List.filterMap_append, own, filterMap_entry? all, List.append_nil]
  exact Entries.ofPairs_of_nodup apart

/-- Entries with texts that are written in front of a normal command line are taken out of it. -/
theorem splitStateOptions_written {given : Entries String} (apart : given.names.Nodup)
    (named : ∀ name ∈ given.names, IsEntryName name) {rest : List String}
    (normal : IsNormal rest) :
    splitStateOptions (written given ++ rest) = (rest, textEntries given) := by
  obtain ⟨all, same⟩ := normal.all_kept
  rw [← textEntries_names] at apart
  rw [splitStateOptions, pieces_written named, keptArguments_entries, same,
    stateEntries_entries apart all]

end Writing

/-- **Splitting again.** What is left when the entries for the state are taken out of a command
line stands in the order in which it was given, and nothing is taken out of it again. A long option
that the command line does not know is left only as the operand of `--output`, and a command line
on which this is so already is left as it is. If all the entries are texts, then written in front of
what is left, in their order, they are taken out as they were. -/
theorem splitStateOptions_again {arguments remaining : List String} {state : Entries Value}
    (split : splitStateOptions arguments = (remaining, state)) :
    remaining.Sublist arguments ∧
      splitStateOptions remaining = (remaining, []) ∧
      IsNormal remaining ∧
      (IsNormal arguments → remaining = arguments) ∧
      ∀ given, state = textEntries given →
        splitStateOptions (written given ++ remaining) = (remaining, state) := by
  obtain ⟨rfl, rfl⟩ := Prod.mk.inj split
  have normal := isNormal_keptArguments arguments
  refine ⟨keptArguments_sublist arguments, ?_, normal, fun whole => whole.all_kept.2, ?_⟩
  · exact @splitStateOptions_written [] List.nodup_nil (List.forall_mem_nil _) _ normal
  · intro given texts
    have apart : (stateEntries (pieces arguments)).names.Nodup := Entries.nodup_ofPairs _
    have named : ∀ name ∈ given.names, IsEntryName name := by
      intro name member
      rw [← textEntries_names, ← texts] at member
      exact isEntryName_of_mem member
    rw [texts, textEntries_names] at apart
    rw [splitStateOptions_written apart named normal, texts]

/-- A command line with an entry that is given twice, an unknown option as an operand, and options
behind `--`. -/
def repeatedly : List String :=
  ["--name", "x", "a.txt", "--output", "--extra", "--name=y", "--", "--=v=w", "--output"]

theorem splitStateOptions_again_repeatedly :
    splitStateOptions repeatedly =
        (["a.txt", "--output", "--extra", "--", "--output"],
          [("name", .text "y"), ("", .text "v=w")]) ∧
      splitStateOptions
          (["--name=y", "--=v=w"] ++ ["a.txt", "--output", "--extra", "--", "--output"]) =
        (["a.txt", "--output", "--extra", "--", "--output"],
          [("name", .text "y"), ("", .text "v=w")]) := by
  have split : splitStateOptions repeatedly =
      (["a.txt", "--output", "--extra", "--", "--output"],
        [("name", .text "y"), ("", .text "v=w")]) := rfl
  obtain ⟨-, -, -, -, again⟩ := splitStateOptions_again split
  exact ⟨split, again [("name", "y"), ("", "v=w")] rfl⟩

end CommandLine

end LineScript
