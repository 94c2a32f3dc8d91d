import LineScript.Value.Entries

/-!
# Entries under other names

A name that is given a value has that value, and a name that is removed has none; all entries
under other names stay as they are, and in the same order. *Restricted* to some names, entries are
those under these names in their order. No name is given twice, and entries that are put one after
the other lie over those that were there before.
-/

namespace LineScript.Entries

variable {α : Type}

/-- The entries under some of the names. -/
def restrict (entries : Entries α) (kept : String → Bool) : Entries α :=
  entries.filter fun entry => kept entry.1

theorem get?_cons (key : String) (value : α) (entries : Entries α) (name : String) :
    get? ((key, value) :: entries) name = if name = key then some value else entries.get? name := by
  unfold get?
  by_cases same : name = key
  · subst same
    simp
  · have different : (name == key) = false := beq_eq_false_iff_ne.mpr same
    simp [List.lookup_cons, same, different]

@[simp] theorem get?_put_self (entries : Entries α) (name : String) (value : α) :
    (entries.put name value).get? name = some value := by
  induction entries with
  | nil => simp [put, get?]
  | cons entry rest ih =>
      obtain ⟨key, old⟩ := entry
      by_cases same : key = name
      · simp [put, same, get?_cons]
      · simp [put, same, get?_cons, Ne.symm same, ih]

theorem get?_put_of_ne (entries : Entries α) {name other : String} (value : α)
    (different : other ≠ name) : (entries.put name value).get? other = entries.get? other := by
  induction entries with
  | nil => simp [put, get?_cons, different]
  | cons entry rest ih =>
      obtain ⟨key, old⟩ := entry
      by_cases same : key = name
      · subst same
        simp [put, get?_cons, different]
      · simp [put, same, get?_cons, ih]

/-- A value is found among the entries under some names exactly when its name is one of them. -/
theorem get?_restrict (entries : Entries α) (kept : String → Bool) (name : String) :
    (entries.restrict kept).get? name = if kept name then entries.get? name else none := by
  unfold restrict
  induction entries with
  | nil => simp [get?]
  | cons entry rest ih =>
      obtain ⟨key, value⟩ := entry
      by_cases same : name = key
      · subst same
        cases held : kept name <;> simp [held, get?_cons, ih]
      · cases held : kept key <;> simp [held, get?_cons, same, ih]

theorem erase_eq_restrict (entries : Entries α) (name : String) :
    entries.erase name = entries.restrict fun other => other ≠ name := rfl

@[simp] theorem get?_erase_self (entries : Entries α) (name : String) :
    (entries.erase name).get? name = none := by
  simp [erase_eq_restrict, get?_restrict]

theorem get?_erase_of_ne (entries : Entries α) {name other : String} (different : other ≠ name) :
    (entries.erase name).get? other = entries.get? other := by
  simp [erase_eq_restrict, get?_restrict, different]

/-- A value that is given to another name leaves the entries as they are. -/
theorem restrict_put_of_not_kept (entries : Entries α) {kept : String → Bool} {name : String}
    (dropped : kept name = false) (value : α) :
    (entries.put name value).restrict kept = entries.restrict kept := by
  unfold restrict
  induction entries with
  | nil => simp [put, dropped]
  | cons entry rest ih =>
      obtain ⟨key, old⟩ := entry
      by_cases same : key = name
      · subst same
        simp [put, dropped]
      · simp only [put, same, ↓reduceIte, List.filter_cons, ih]

theorem restrict_restrict_of_subset (entries : Entries α) {kept wider : String → Bool}
    (subset : ∀ name, kept name = true → wider name = true) :
    (entries.restrict wider).restrict kept = entries.restrict kept := by
  unfold restrict
  rw [List.filter_filter]
  apply List.filter_congr
  intro entry _
  cases held : kept entry.1 with
  | false => rfl
  | true => rw [subset entry.1 held, Bool.and_true]

theorem restrict_erase_of_not_kept (entries : Entries α) {kept : String → Bool} {name : String}
    (dropped : kept name = false) :
    (entries.erase name).restrict kept = entries.restrict kept := by
  rw [erase_eq_restrict]
  apply restrict_restrict_of_subset
  intro other held
  have different : other ≠ name := by
    rintro rfl
    exact Bool.false_ne_true (dropped.symm.trans held)
  simpa using different

theorem restrict_cons (entry : String × α) (entries : Entries α) (kept : String → Bool) :
    restrict (entry :: entries) kept =
      if kept entry.1 then entry :: entries.restrict kept else entries.restrict kept :=
  List.filter_cons

/-- A value that is given to one of the names is given to it among the entries under these names. -/
theorem restrict_put_of_kept (entries : Entries α) {kept : String → Bool} {name : String}
    (held : kept name = true) (value : α) :
    (entries.put name value).restrict kept = (entries.restrict kept).put name value := by
  unfold restrict
  induction entries with
  | nil => simp [put, held]
  | cons entry rest ih =>
      obtain ⟨key, old⟩ := entry
      by_cases same : key = name
      · subst same
        simp [put, held]
      · cases other : kept key <;> simp [put, same, other, ih]

theorem restrict_putAll (entries new : Entries α) (kept : String → Bool) :
    (entries.putAll new).restrict kept = (entries.restrict kept).putAll (new.restrict kept) := by
  induction new generalizing entries with
  | nil => rfl
  | cons entry new ih =>
      change ((entries.put entry.1 entry.2).putAll new).restrict kept = _
      rw [ih, restrict_cons]
      cases held : kept entry.1 with
      | true =>
          rw [restrict_put_of_kept entries held]
          rfl
      | false =>
          rw [restrict_put_of_not_kept entries held]
          rfl

/-- A new name goes to the end. -/
theorem put_of_not_mem {entries : Entries α} {name : String} (absent : name ∉ entries.names)
    (value : α) : entries.put name value = entries ++ [(name, value)] := by
  induction entries with
  | nil => rfl
  | cons entry rest ih =>
      unfold names at absent ih
      rw [List.map_cons, List.mem_cons, not_or] at absent
      rw [put, if_neg (Ne.symm absent.1), ih absent.2, List.cons_append]

theorem names_put_of_mem {entries : Entries α} {name : String} (known : name ∈ entries.names)
    (value : α) : (entries.put name value).names = entries.names := by
  induction entries with
  | nil => cases known
  | cons entry rest ih =>
      obtain ⟨key, old⟩ := entry
      by_cases same : key = name
      · simp [names, put, same]
      · have later : name ∈ names rest := (List.mem_cons.mp known).resolve_left (Ne.symm same)
        rw [put, if_neg same]
        exact congrArg (List.cons key) (ih later)

/-- The names of entries stay apart when one of them or another name is given a value. -/
theorem nodup_put {entries : Entries α} (apart : entries.names.Nodup) (name : String) (value : α) :
    (entries.put name value).names.Nodup := by
  by_cases known : name ∈ entries.names
  · rw [names_put_of_mem known]
    exact apart
  · rw [put_of_not_mem known, names, List.map_append, List.nodup_append]
    refine ⟨apart, by simp, ?_⟩
    intro other member own single
    rw [List.mem_singleton.mp single]
    rintro rfl
    exact known member

theorem nodup_putAll {entries : Entries α} (apart : entries.names.Nodup) (new : Entries α) :
    (entries.putAll new).names.Nodup := by
  induction new generalizing entries with
  | nil => exact apart
  | cons entry new ih => exact ih (nodup_put apart entry.1 entry.2)

theorem nodup_ofPairs (pairs : List (String × α)) : (ofPairs pairs).names.Nodup :=
  @nodup_putAll α [] List.nodup_nil pairs

theorem mem_names_put {entries : Entries α} {name other : String} {value : α}
    (member : other ∈ (entries.put name value).names) : other = name ∨ other ∈ entries.names := by
  by_cases known : name ∈ entries.names
  · rw [names_put_of_mem known] at member
    exact Or.inr member
  · rw [put_of_not_mem known, names, List.map_append] at member
    rcases List.mem_append.mp member with old | own
    · exact Or.inr old
    · exact Or.inl (List.mem_singleton.mp own)

theorem mem_names_putAll {entries new : Entries α} {name : String}
    (member : name ∈ (entries.putAll new).names) : name ∈ entries.names ∨ name ∈ new.names := by
  induction new generalizing entries with
  | nil => exact Or.inl member
  | cons entry new ih =>
      rcases ih member with put | later
      · rcases mem_names_put put with rfl | old
        · exact Or.inr List.mem_cons_self
        · exact Or.inl old
      · exact Or.inr (List.mem_cons_of_mem _ later)

/-- The names of entries are among those that they are made of. -/
theorem mem_names_ofPairs {pairs : List (String × α)} {name : String}
    (member : name ∈ (ofPairs pairs).names) : name ∈ pairs.map Prod.fst :=
  (mem_names_putAll member).resolve_left List.not_mem_nil

/-- Entries that all have names of their own are put one behind the other. -/
theorem putAll_of_nodup {entries new : Entries α} (apart : (entries ++ new).names.Nodup) :
    entries.putAll new = entries ++ new := by
  induction new generalizing entries with
  | nil => exact (List.append_nil entries).symm
  | cons entry new ih =>
      have absent : entry.1 ∉ entries.names := by
        intro known
        rw [names, List.map_append, List.nodup_append] at apart
        exact apart.2.2 entry.1 known entry.1 List.mem_cons_self rfl
      have shifted : entries ++ entry :: new = entries ++ [entry] ++ new := by
        rw [List.append_assoc, List.singleton_append]
      change (entries.put entry.1 entry.2).putAll new = _
      rw [shifted] at apart ⊢
      rw [put_of_not_mem absent]
      exact ih apart

section Values

variable {Good : α → Prop}

theorem forall_put {entries : Entries α} (all : ∀ entry ∈ entries, Good entry.2) (name : String)
    {value : α} (good : Good value) : ∀ entry ∈ entries.put name value, Good entry.2 := by
  induction entries with
  | nil => exact List.forall_mem_singleton.mpr good
  | cons entry rest ih =>
      obtain ⟨first, others⟩ := List.forall_mem_cons.mp all
      rw [put]
      split
      · exact List.forall_mem_cons.mpr ⟨good, others⟩
      · exact List.forall_mem_cons.mpr ⟨first, ih others⟩

/-- The values of entries are among those that they are made of. -/
theorem forall_ofPairs {pairs : List (String × α)} (all : ∀ pair ∈ pairs, Good pair.2) :
    ∀ entry ∈ ofPairs pairs, Good entry.2 := by
  have given {entries : Entries α} (held : ∀ entry ∈ entries, Good entry.2) :
      ∀ entry ∈ entries.putAll pairs, Good entry.2 := by
    induction pairs generalizing entries with
    | nil => exact held
    | cons pair pairs ih =>
        obtain ⟨first, others⟩ := List.forall_mem_cons.mp all
        exact ih others (forall_put held pair.1 first)
  exact given (List.forall_mem_nil _)

theorem good_of_get? {entries : Entries α} (all : ∀ entry ∈ entries, Good entry.2) {name : String}
    {value : α} (present : entries.get? name = some value) : Good value := by
  obtain ⟨front, behind, rfl, -⟩ := List.lookup_eq_some_iff.mp present
  exact all (name, value) (by simp)

end Values

theorem get?_eq_none_iff {entries : Entries α} {name : String} :
    entries.get? name = none ↔ name ∉ entries.names := by
  induction entries with
  | nil => simp [get?, names]
  | cons entry rest ih =>
      obtain ⟨key, value⟩ := entry
      unfold names at ih ⊢
      by_cases same : name = key <;> simp [get?_cons, same, ih]

/-- Entries with names of their own are what they are made of. -/
theorem ofPairs_of_nodup {entries : Entries α} (apart : entries.names.Nodup) :
    ofPairs entries = entries :=
  putAll_of_nodup apart

theorem nodup_restrict {entries : Entries α} (apart : entries.names.Nodup)
    (kept : String → Bool) : (entries.restrict kept).names.Nodup :=
  apart.sublist (List.filter_sublist.map Prod.fst)

theorem erase_of_get?_eq_none {entries : Entries α} {name : String}
    (absent : entries.get? name = none) : entries.erase name = entries := by
  refine List.filter_eq_self.mpr ?_
  intro entry member
  have different : entry.1 ≠ name := by
    rintro rfl
    exact get?_eq_none_iff.mp absent (List.mem_map_of_mem member)
  simpa using different

/-- The value under a name is the new one, if there is one. -/
theorem get?_putAll (entries : Entries α) {new : Entries α} (apart : new.names.Nodup)
    (name : String) :
    (entries.putAll new).get? name = (new.get? name).or (entries.get? name) := by
  induction new generalizing entries with
  | nil => rfl
  | cons entry new ih =>
      obtain ⟨key, value⟩ := entry
      obtain ⟨absent, apart⟩ := List.nodup_cons.mp apart
      change ((entries.put key value).putAll new).get? name = _
      rw [ih _ apart, get?_cons]
      by_cases same : name = key
      · subst same
        rw [get?_put_self, get?_eq_none_iff.mpr absent, if_pos rfl]
        rfl
      · rw [get?_put_of_ne _ _ same, if_neg same]

end LineScript.Entries
