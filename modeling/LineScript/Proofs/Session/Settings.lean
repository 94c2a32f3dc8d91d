import LineScript.Proofs.Value.Entries
import LineScript.Proofs.Value.Numbers
import LineScript.Vocabulary.Engine

/-!
# Settings laid over options

Options are made of settings, and `common` is then checked. Further settings can be laid over those
that options are made of, or over the options once they are made, and then they are not checked.
Both come to the same options exactly if the further settings hold no `common`, or one that is a
number equal to a truth value (`LineScript.Options.coerce_agree_iff`).
-/

namespace LineScript

namespace Value

/-- Whether a value is a number equal to a truth value. -/
def IsTruth (value : Value) : Prop :=
  value.wholeNumber? = some 0 ∨ value.wholeNumber? = some 1

theorem names?_named (named : Entries Value) :
    names? (named.map fun entry => (.text entry.1, entry.2)) = some named := by
  induction named with
  | nil => rfl
  | cons entry named ih =>
      unfold names? at ih ⊢
      rw [List.map_cons, List.mapM_cons, ih]
      rfl

end Value

namespace Options

variable {process : Environment} {settings : Entries Value}

theorem truthOf_of_wholeNumber? {value : Value} {truth : Bool}
    (whole : value.wholeNumber? = some (if truth then 1 else 0)) : truthOf value = .ok truth := by
  obtain ⟨b, rfl, own⟩ | rfl | ⟨x, rfl, own⟩ := Value.cases_of_wholeNumber? whole
  · have same : b = truth := by
      cases b <;> cases truth <;> simp at own ⊢
    rw [same, truthOf]
  · cases truth <;> rfl
  · rw [truthOf, own]
    cases truth <;> rfl

/-- A value is a number equal to a truth value exactly if it stands for a truth value that it is
equal to. -/
theorem exists_truthOf_iff {value : Value} :
    (∃ truth, truthOf value = .ok truth ∧ value.sameKey (.bool truth) = true) ↔ value.IsTruth := by
  constructor
  · rintro ⟨truth, -, same⟩
    rw [Value.sameKey_bool_iff] at same
    cases truth with
    | false => exact Or.inl same
    | true => exact Or.inr same
  · rintro (zero | one)
    · exact ⟨false, truthOf_of_wholeNumber? zero, Value.sameKey_bool_iff.mpr zero⟩
    · exact ⟨true, truthOf_of_wholeNumber? one, Value.sameKey_bool_iff.mpr one⟩

/-- Settings that are laid over options replace `common`, if they hold it, and go over the other
settings. -/
theorem withSettings_eq (apart : settings.names.Nodup) (options : Options) :
    withSettings options settings =
      ⟨(settings.get? "common").getD options.common,
        Entries.putAll options.extras (settings.erase "common")⟩ := by
  induction settings generalizing options with
  | nil => rfl
  | cons setting settings ih =>
      obtain ⟨name, value⟩ := setting
      obtain ⟨absent, others⟩ := List.nodup_cons.mp apart
      rw [withSettings, List.foldl_cons, Entries.get?_cons]
      by_cases own : name = "common"
      · -- names are given once, so no later setting replaces this one
        subst own
        have rest : Entries.get? settings "common" = none := Entries.get?_eq_none_iff.mpr absent
        have erased : Entries.erase (("common", value) :: settings) "common" =
            Entries.erase settings "common" := by
          simp [Entries.erase]
        have later := ih others ⟨value, options.extras⟩
        rw [rest] at later
        rw [if_pos rfl, if_pos rfl, erased]
        exact later
      · have erased : Entries.erase ((name, value) :: settings) "common" =
            (name, value) :: Entries.erase settings "common" := by
          simp [Entries.erase, own]
        rw [if_neg own, if_neg (Ne.symm own), erased]
        exact ih others _

/-- The environment of the process always says whether comments are skipped. -/
theorem exists_commonIn_ofProcess (process : Environment) :
    ∃ common, commonIn (ofProcess process) = .ok common := by
  obtain ⟨value, found⟩ : ∃ value, valueUnder (ofProcess process) commonVariable = .ok value :=
    ⟨_, rfl⟩
  unfold commonIn
  rw [found]
  cases value with
  | null => exact ⟨true, rfl⟩
  | _ => exact ⟨_, rfl⟩

/-- Settings that do not name an environment are all kept but for `common`, which has to be
valid. -/
theorem loadSettings_of_none (apart : settings.names.Nodup)
    (absent : settings.get? "env" = none) :
    ∃ fallback, loadSettings process settings =
      (truthOf ((settings.get? "common").getD (.bool fallback))).map fun common =>
        ⟨.bool common, settings.erase "common"⟩ := by
  obtain ⟨fallback, found⟩ := exists_commonIn_ofProcess process
  have laid : (Entries.putAll [("common", .bool fallback)] settings).erase "common" =
      settings.erase "common" := by
    have cleared : Entries.restrict [("common", Value.bool fallback)]
        (fun name => name ≠ "common") = [] := by
      simp [Entries.restrict]
    rw [Entries.erase_eq_restrict, Entries.restrict_putAll, cleared]
    exact Entries.ofPairs_of_nodup (Entries.nodup_restrict apart _)
  have value : (Entries.putAll [("common", .bool fallback)] settings).get? "common" =
      some ((settings.get? "common").getD (.bool fallback)) := by
    rw [Entries.get?_putAll _ apart]
    cases settings.get? "common" <;> rfl
  refine ⟨fallback, ?_⟩
  unfold loadSettings
  rw [absent, Entries.erase_of_get?_eq_none absent]
  change (commonIn (ofProcess process) >>= fun common =>
    ofSettings (Entries.putAll [("common", .bool common)] settings)) = _
  rw [found]
  change ofSettings (Entries.putAll [("common", .bool fallback)] settings) = _
  rw [ofSettings, value, laid, Option.getD_some]
  cases truthOf ((settings.get? "common").getD (.bool fallback)) <;> rfl

/-- Options made of a mapping and further settings do not depend on the environment of the process,
if the mapping holds `common`. -/
theorem coerce_ofEntries {mapping : Entries Value} (apart : mapping.names.Nodup)
    (distinct : settings.names.Nodup) (fresh : "env" ∉ mapping.names)
    (unnamed : "env" ∉ settings.names) {value : Value}
    (held : mapping.get? "common" = some value) :
    coerce process (Value.ofEntries mapping) settings =
      (truthOf ((settings.get? "common").getD value)).map fun common =>
        (⟨.bool common, (mapping.erase "common").putAll (settings.erase "common")⟩, false) := by
  have absent : (mapping.putAll settings).get? "env" = none := by
    rw [Entries.get?_putAll _ distinct, Entries.get?_eq_none_iff.mpr fresh,
      Entries.get?_eq_none_iff.mpr unnamed]
    rfl
  obtain ⟨fallback, loaded⟩ :=
    @loadSettings_of_none process _ (Entries.nodup_putAll apart settings) absent
  -- the mapping holds `common`, so what the environment says about it is never used
  have common : ((mapping.putAll settings).get? "common").getD (.bool fallback) =
      (settings.get? "common").getD value := by
    rw [Entries.get?_putAll _ distinct, held]
    cases settings.get? "common" <;> rfl
  have extras : (mapping.putAll settings).erase "common" =
      (mapping.erase "common").putAll (settings.erase "common") := by
    simp only [Entries.erase_eq_restrict, Entries.restrict_putAll]
  rw [common, extras] at loaded
  have named : coerce process (Value.ofEntries mapping) settings =
      (loadSettings process (mapping.putAll settings)).map fun options => (options, false) := by
    unfold coerce Value.ofEntries entriesOf
    simp only [bind, Except.bind, Value.names?_named]
    cases loadSettings process (mapping.putAll settings) <;> rfl
  rw [named, loaded]
  cases truthOf ((settings.get? "common").getD value) <;> rfl

/-- Options with further settings laid over them. -/
theorem coerce_options (distinct : settings.names.Nodup) (options : Options) :
    ∃ same, coerce process (.options options) settings =
      .ok (⟨(settings.get? "common").getD options.common,
        Entries.putAll options.extras (settings.erase "common")⟩, same) := by
  cases settings with
  | nil => exact ⟨true, rfl⟩
  | cons setting settings =>
      refine ⟨false, ?_⟩
      rw [← withSettings_eq distinct options]
      rfl

/-- Whether options are equal. As among the keys of a mapping, equal numbers are the same. -/
def IsEqual (first second : Options) : Prop :=
  first.common.sameKey second.common = true ∧ first.extras = second.extras

/-- Whether two ways to come by options agree: both find `common` invalid, or they give equal
options. Whether these are options that were there before makes no difference. -/
inductive Agree : Except Fault (Options × Bool) → Except Fault (Options × Bool) → Prop where
  | invalid (first second : TruthProblem) :
      Agree (.error (.invalidCommon first)) (.error (.invalidCommon second))
  | equal {first second : Options} (own other : Bool) :
      IsEqual first second → Agree (.ok (first, own)) (.ok (second, other))

/-- Whether settings hold no `common`, or one that is a number equal to a truth value. -/
def SetsTruth (settings : Entries Value) : Prop :=
  ∀ value, settings.get? "common" = some value → value.IsTruth

/-- Checked options agree with unchecked ones exactly if `common` stands for a truth value to which
the unchecked one is equal. -/
theorem agree_map_iff {laid checked : Value} {extras : Entries Value} {own : Bool} :
    Agree (.ok (⟨laid, extras⟩, own))
        ((truthOf checked).map fun common => (⟨.bool common, extras⟩, false)) ↔
      ∃ truth, truthOf checked = .ok truth ∧ laid.sameKey (.bool truth) = true := by
  cases meaning : truthOf checked with
  | error fault =>
      constructor
      · intro agree
        cases agree
      · rintro ⟨truth, ⟨⟩, -⟩
  | ok truth =>
      constructor
      · intro agree
        cases agree with
        | equal _ _ equal => exact ⟨truth, rfl, equal.1⟩
      · rintro ⟨_, ⟨⟩, same⟩
        exact .equal own false ⟨same, rfl⟩

theorem exists_truth_iff {value : Value} {common : Bool} (valid : truthOf value = .ok common) :
    (∃ truth, truthOf ((settings.get? "common").getD value) = .ok truth ∧
        ((settings.get? "common").getD (.bool common)).sameKey (.bool truth) = true) ↔
      SetsTruth settings := by
  unfold SetsTruth
  cases settings.get? "common" with
  | none =>
      have own : (Value.bool common).sameKey (.bool common) = true :=
        Value.sameKey_bool_iff.mpr rfl
      exact ⟨fun _ => nofun, fun _ => ⟨common, valid, own⟩⟩
  | some override =>
      simp only [Option.getD_some, Option.some.injEq, forall_eq']
      exact exists_truthOf_iff

end Options

namespace Engine

theorem ofOptions_registrations {first second : Options}
    (same : first.common.truthy = second.common.truthy) :
    (ofOptions first).registrations = (ofOptions second).registrations := by
  simp only [ofOptions, same]

/-- Engines that are made from options that count as true alike start with the same
registrations. -/
theorem create_registrations {process other : Environment} {settings : Entries Value}
    {value another : Value} {first second : Options} {own old : Bool}
    (made : Options.coerce process value settings = .ok (first, own))
    (remade : Options.coerce other another settings = .ok (second, old))
    (same : first.common.truthy = second.common.truthy) :
    (create process value settings).map registrations =
      (create other another settings).map registrations := by
  unfold create
  rw [made, remade]
  cases Action.refuseRepeated "Ottomaton.__init__" ["self", "options"] settings with
  | error fault => rfl
  | ok _ => exact congrArg Except.ok (ofOptions_registrations same)

end Engine

namespace Options

/-- **Settings laid over options.** Options are made of a mapping with a valid `common`, and further
settings are laid over them, or over the mapping before the options are made. This comes to equal
options exactly if the settings hold no `common`, or one that is a number equal to a truth value,
whatever the environments of the processes are. Engines that are made in both ways then start with
the same registrations. -/
theorem coerce_agree_iff {mapping overrides : Entries Value}
    (apart : mapping.names.Nodup) (distinct : overrides.names.Nodup)
    (fresh : "env" ∉ mapping.names) (unnamed : "env" ∉ overrides.names)
    {value : Value} {common : Bool} (held : mapping.get? "common" = some value)
    (valid : truthOf value = .ok common) (process other : Environment) :
    ∃ options, ofSettings mapping = .ok options ∧
      (Agree (coerce process (.options options) overrides)
          (coerce other (Value.ofEntries mapping) overrides) ↔ SetsTruth overrides) ∧
      (SetsTruth overrides →
        (Engine.create process (.options options) overrides).map Engine.registrations =
          (Engine.create other (Value.ofEntries mapping) overrides).map Engine.registrations) := by
  have made : ofSettings mapping = .ok ⟨.bool common, mapping.erase "common"⟩ := by
    rw [ofSettings, held, Option.getD_some, valid]
    rfl
  obtain ⟨own, laid⟩ := @coerce_options process _ distinct ⟨.bool common, mapping.erase "common"⟩
  have merged := @coerce_ofEntries other _ _ apart distinct fresh unnamed _ held
  refine ⟨_, made, ?_, ?_⟩
  · rw [laid, merged, agree_map_iff, exists_truth_iff valid]
  · intro sets
    obtain ⟨truth, meaning, same⟩ := (exists_truth_iff valid).mpr sets
    rw [meaning] at merged
    exact Engine.create_registrations laid merged (Value.truthy_of_sameKey same)

/-- A mapping with a text as its `common`. -/
def mapped : Entries Value :=
  [("base", .text "x"), ("common", .text "no")]

/-- Settings with a number as their `common`, and a new value for a known name. -/
def numbered : Entries Value :=
  [("level", .int 3), ("common", .int 1), ("base", .null)]

theorem truthOf_no : truthOf (.text "no") = .ok false := by
  have small : "no".map Char.toLower = "no" := by decide +kernel
  rw [truthOf, small]
  rfl

theorem coerce_agree_iff_numbered :
    ∃ options, ofSettings mapped = .ok options ∧
      Agree (coerce [] (.options options) numbered)
        (coerce [("OTTOMATON_COMMON", "0")] (Value.ofEntries mapped) numbered) := by
  have sets : SetsTruth numbered := by
    intro value present
    obtain rfl : .int 1 = value := Option.some.inj present
    exact Or.inr rfl
  obtain ⟨options, made, agree, -⟩ :=
    @coerce_agree_iff mapped numbered (by decide) (by decide) (by decide) (by decide) _ _ rfl
      truthOf_no [] [("OTTOMATON_COMMON", "0")]
  exact ⟨options, made, agree.mpr sets⟩

/-- A text that means no, laid over options, is kept as it is and so counts as true. -/
theorem coerce_overridden :
    ∃ options, ofSettings [("common", .bool true)] = .ok options ∧
      ¬Agree (coerce [] (.options options) [("common", .text "no")])
        (coerce [] (Value.ofEntries [("common", .bool true)]) [("common", .text "no")]) ∧
      (Engine.create [] (.options options) [("common", .text "no")]).map
        (fun engine => engine.registrations.length) = .ok 2 ∧
      (Engine.create [] (Value.ofEntries [("common", .bool true)]) [("common", .text "no")]).map
        (fun engine => engine.registrations.length) = .ok 0 := by
  have kept : coerce [] (.options ⟨.bool true, []⟩) [("common", .text "no")] =
      .ok (⟨.text "no", []⟩, false) := rfl
  have checked := @coerce_ofEntries [] [("common", .text "no")] [("common", .bool true)] (by decide)
    (by decide) (by decide) (by decide) _ rfl
  rw [Entries.get?_cons, if_pos rfl, Option.getD_some, truthOf_no] at checked
  refine ⟨⟨.bool true, []⟩, rfl, ?_, rfl, ?_⟩
  · rw [kept, checked]
    intro agree
    cases agree with
    | equal _ _ equal => cases equal.1
  · unfold Engine.create
    rw [checked]
    rfl

end Options

end LineScript
