import LineScript.Value.Shown

/-!
# Ordered entries

States, options and environments map names to values and keep the order in which the names were
first given. `Entries` is that map as a list. A mapping among the dynamic values may have any
simple value as a key, and numbers that are equal are the same key.
-/

namespace LineScript

/-- Named values in the order in which the names were first given. -/
abbrev Entries (α : Type) := List (String × α)

namespace Entries

variable {α : Type}

/-- The value under a name. -/
def get? (entries : Entries α) (name : String) : Option α :=
  entries.lookup name

/-- Whether a name has a value. -/
def has (entries : Entries α) (name : String) : Bool :=
  (entries.get? name).isSome

/-- Give a name a value: a known name keeps its place, a new one goes to the end. -/
def put (entries : Entries α) (name : String) (value : α) : Entries α :=
  match entries with
  | [] => [(name, value)]
  | (key, old) :: rest =>
    if key = name then (key, value) :: rest else (key, old) :: put rest name value

/-- Remove a name. -/
def erase (entries : Entries α) (name : String) : Entries α :=
  entries.filter fun entry => entry.1 ≠ name

/-- Put some entries one after the other. -/
def putAll (entries new : Entries α) : Entries α :=
  new.foldl (fun entries entry => entries.put entry.1 entry.2) entries

/-- The entries made of pairs that may name a name more than once. -/
def ofPairs (pairs : List (String × α)) : Entries α :=
  putAll [] pairs

/-- The names in order. -/
def names (entries : Entries α) : List String :=
  entries.map Prod.fst

end Entries

namespace Value

/-- The whole number that a number or a truth value is. -/
def wholeNumber? : Value → Option Int
  | .bool b => some (if b then 1 else 0)
  | .int i => some i
  | .float x => x.toInt?
  | _ => none

/-- Whether two simple values are the same key of a mapping. -/
def sameKey : Value → Value → Bool
  | .null, .null => true
  | .text a, .text b => a == b
  | .sentinel a, .sentinel b => a == b
  | .pattern a, .pattern b => a.source == b.source && a.flags == b.flags
  | .callable a, .callable b => a.id == b.id
  | .tuple as, .tuple bs => sameKeys as bs
  | .float a, .float b => a == b || (a.isZero && b.isZero)
  | a, b =>
    match a.wholeNumber?, b.wholeNumber? with
    | some m, some n => m == n
    | _, _ => false
where
  /-- Whether two rows of simple values are the same, item by item. -/
  sameKeys : List Value → List Value → Bool
    | [], [] => true
    | a :: as, b :: bs => sameKey a b && sameKeys as bs
    | _, _ => false

/-- Give a key of a mapping a value: a known key keeps its place, a new one goes to the end. -/
def putKey (entries : List (Value × Value)) (key value : Value) : List (Value × Value) :=
  match entries with
  | [] => [(key, value)]
  | (old, held) :: rest =>
    if old.sameKey key then (old, value) :: rest else (old, held) :: putKey rest key value

/-- The entries of a mapping made of pairs that may give a key more than once. -/
def keyed (pairs : List (Value × Value)) : List (Value × Value) :=
  pairs.foldl (fun entries pair => putKey entries pair.1 pair.2) []

/-- A mapping from names. -/
def ofEntries (entries : Entries Value) : Value :=
  .dict (entries.map fun entry => (.text entry.1, entry.2))

/-- The value that a mapping has under a name. -/
def lookup? (entries : List (Value × Value)) (name : String) : Option Value :=
  (entries.find? fun entry => entry.1.sameKey (.text name)).map Prod.snd

/-- The entries of a mapping all of whose keys are names. -/
def names? (entries : List (Value × Value)) : Option (Entries Value) :=
  entries.mapM fun entry =>
    match entry.1 with
    | .text name => some (name, entry.2)
    | _ => none

/-- The attribute of a value: objects have their fields, options their settings. -/
def attribute? (value : Value) (name : String) : Option Value :=
  match value with
  | .object fields => fields.lookup name
  | .options ⟨common, extras⟩ => if name = "common" then some common else extras.lookup name
  | _ => none

end Value

end LineScript
