import LineScript.Library.Host
import LineScript.Proofs.Vocabulary.Flattening
import Mathlib.Data.List.Nodup

/-!
# What the memory of declared libraries holds

A pending result is awaited once, and what a stream has yielded is gone. So a value *holds* a
registration in a memory as long as what it refers to has not been used, and it does so whatever
else is used in between. What a recipe makes holds what the recipe describes, and refers to nothing
that has been there before (`LineScript.Library.make_holds`).
-/

namespace LineScript.Library

open Registration (Tree callsOf)

/-- A pending result or a stream, by its number. -/
inductive Handle where
  | promise (id : Nat)
  | stream (id : Nat)

namespace Memory

/-- What a handle refers to. -/
def held? (memory : Memory) : Handle → Option (Promise ⊕ Stream)
  | .promise id => memory.promises[id]?.map .inl
  | .stream id => memory.streams[id]?.map .inr

/-- Whether all that a memory has is there in another one, except for what some handles refer to. -/
structure Keeps (memory : Memory) (used : List Handle) (last : Memory) : Prop where
  functions : ∀ (id : Nat) function, memory.functions[id]? = some function →
    last.functions[id]? = some function
  held : ∀ handle object, handle ∉ used → memory.held? handle = some object →
    last.held? handle = some object

theorem held?_promise {memory : Memory} {id : Nat} {promise : Promise} :
    memory.held? (.promise id) = some (.inl promise) ↔ memory.promises[id]? = some promise := by
  simp [held?]

theorem held?_stream {memory : Memory} {id : Nat} {stream : Stream} :
    memory.held? (.stream id) = some (.inr stream) ↔ memory.streams[id]? = some stream := by
  simp [held?]

namespace Keeps

variable {memory between last : Memory} {used others : List Handle}

theorem refl (memory : Memory) : memory.Keeps [] memory :=
  ⟨fun _ _ stored => stored, fun _ _ _ stored => stored⟩

theorem trans (first : memory.Keeps used between) (second : between.Keeps others last) :
    memory.Keeps (used ++ others) last := by
  refine ⟨fun id function stored => second.functions _ _ (first.functions _ _ stored), ?_⟩
  intro handle object unused stored
  rw [List.mem_append, not_or] at unused
  exact second.held _ _ unused.2 (first.held _ _ unused.1 stored)

/-- What is new later has been new before, unless it has been used. -/
theorem covers {handle : Handle} (keeps : memory.Keeps used last)
    (absent : last.held? handle = none) : handle ∈ used ∨ memory.held? handle = none := by
  by_cases own : handle ∈ used
  · exact Or.inl own
  · cases stored : memory.held? handle with
    | none => exact Or.inr rfl
    | some object =>
        rw [keeps.held handle object own stored] at absent
        cases absent

theorem fresh {handle : Handle} (keeps : memory.Keeps [] last)
    (absent : last.held? handle = none) : memory.held? handle = none :=
  (keeps.covers absent).resolve_left List.not_mem_nil

end Keeps

/-- What is there is not among what is new. -/
theorem not_mem_of_held {memory : Memory} {handle : Handle} {object : Promise ⊕ Stream}
    {used : List Handle} (stored : memory.held? handle = some object)
    (fresh : ∀ other ∈ used, memory.held? other = none) : handle ∉ used := by
  intro member
  rw [fresh handle member] at stored
  cases stored

theorem held?_promise_size (memory : Memory) :
    memory.held? (.promise memory.promises.size) = none := by
  simp [held?]

theorem held?_stream_size (memory : Memory) :
    memory.held? (.stream memory.streams.size) = none := by
  simp [held?]

theorem held?_push_promise (memory : Memory) (promise : Promise) :
    held? { memory with promises := memory.promises.push promise }
      (.promise memory.promises.size) = some (.inl promise) :=
  held?_promise.mpr Array.getElem?_push_size

theorem held?_push_stream (memory : Memory) (stream : Stream) :
    held? { memory with streams := memory.streams.push stream }
      (.stream memory.streams.size) = some (.inr stream) :=
  held?_stream.mpr Array.getElem?_push_size

theorem getElem?_push_of_some {α : Type} {items : Array α} {index : Nat} {item : α}
    (stored : items[index]? = some item) (other : α) : (items.push other)[index]? = some item := by
  obtain ⟨bound, -⟩ := Array.getElem?_eq_some_iff.mp stored
  rw [Array.getElem?_push, if_neg (Nat.ne_of_lt bound)]
  exact stored

theorem keeps_push_function (memory : Memory) (function : Function) :
    memory.Keeps [] { memory with functions := memory.functions.push function } :=
  ⟨fun _ _ stored => getElem?_push_of_some stored function, fun _ _ _ stored => stored⟩

theorem keeps_push_promise (memory : Memory) (promise : Promise) :
    memory.Keeps [] { memory with promises := memory.promises.push promise } := by
  refine ⟨fun _ _ stored => stored, ?_⟩
  rintro (id | id) object - stored
  · obtain ⟨own, found, rfl⟩ := Option.map_eq_some_iff.mp stored
    exact held?_promise.mpr (getElem?_push_of_some found promise)
  · exact stored

theorem keeps_push_stream (memory : Memory) (stream : Stream) :
    memory.Keeps [] { memory with streams := memory.streams.push stream } := by
  refine ⟨fun _ _ stored => stored, ?_⟩
  rintro (id | id) object - stored
  · exact stored
  · obtain ⟨own, found, rfl⟩ := Option.map_eq_some_iff.mp stored
    exact held?_stream.mpr (getElem?_push_of_some found stream)

theorem keeps_setPromise (memory : Memory) (id : Nat) (promise : Promise) :
    memory.Keeps [.promise id]
      { memory with promises := memory.promises.setIfInBounds id promise } := by
  refine ⟨fun _ _ stored => stored, ?_⟩
  rintro (other | other) object unused stored
  · have different : id ≠ other := by
      rintro rfl
      exact unused List.mem_cons_self
    obtain ⟨own, found, rfl⟩ := Option.map_eq_some_iff.mp stored
    refine held?_promise.mpr ?_
    rw [Array.getElem?_setIfInBounds_ne different]
    exact found
  · exact stored

theorem keeps_setStream (memory : Memory) (id : Nat) (stream : Stream) :
    memory.Keeps [.stream id]
      { memory with streams := memory.streams.setIfInBounds id stream } := by
  refine ⟨fun _ _ stored => stored, ?_⟩
  rintro (other | other) object unused stored
  · exact stored
  · have different : id ≠ other := by
      rintro rfl
      exact unused List.mem_cons_self
    obtain ⟨own, found, rfl⟩ := Option.map_eq_some_iff.mp stored
    refine held?_stream.mpr ?_
    rw [Array.getElem?_setIfInBounds_ne different]
    exact found

theorem keeps_record (memory : Memory) (happenings : List Happening) :
    memory.Keeps [] { memory with happenings := happenings } :=
  ⟨fun _ _ stored => stored, fun _ _ _ stored => stored⟩

theorem held?_setStream {memory : Memory} {id : Nat} {old : Promise ⊕ Stream}
    (stored : memory.held? (.stream id) = some old) (stream : Stream) :
    held? { memory with streams := memory.streams.setIfInBounds id stream } (.stream id) =
      some (.inr stream) := by
  obtain ⟨own, stored, -⟩ := Option.map_eq_some_iff.mp stored
  obtain ⟨bound, -⟩ := Array.getElem?_eq_some_iff.mp stored
  refine held?_stream.mpr ?_
  rw [Array.getElem?_setIfInBounds_self_of_lt bound]

end Memory

/-- Whether a world has become another one by calls of functions and the use of some handles: the
engine is the same, nothing else has happened, and nothing else that there was has gone. -/
structure Advances (start last : World Memory) (calls : List String) (used : List Handle) :
    Prop where
  engine : last.engine = start.engine
  happenings : last.memory.happenings =
    (calls.map fun name => Happening.generated name true).reverse ++ start.memory.happenings
  keeps : start.memory.Keeps used last.memory

namespace Advances

variable {start between last : World Memory} {calls later : List String}
  {used others : List Handle}

theorem refl (world : World Memory) : Advances world world [] [] :=
  ⟨rfl, rfl, .refl world.memory⟩

theorem trans (first : Advances start between calls used)
    (second : Advances between last later others) :
    Advances start last (calls ++ later) (used ++ others) := by
  refine ⟨second.engine.trans first.engine, ?_, first.keeps.trans second.keeps⟩
  rw [second.happenings, first.happenings, List.map_append, List.reverse_append, List.append_assoc]

/-- What a world comes to without a call or a change of the engine. -/
theorem of_keeps {memory : Memory} (keeps : start.memory.Keeps used memory)
    (same : memory.happenings = start.memory.happenings) :
    Advances start { start with memory := memory } [] used :=
  ⟨rfl, same, keeps⟩

/-- Handles that refer to nothing, or are used anyway, make no difference. -/
theorem of_covered (advances : Advances start last calls others)
    (covered : ∀ handle ∈ others, handle ∈ used ∨ start.memory.held? handle = none) :
    Advances start last calls used := by
  refine ⟨advances.engine, advances.happenings, advances.keeps.functions, ?_⟩
  intro handle object unused stored
  refine advances.keeps.held handle object (fun member => ?_) stored
  rcases covered handle member with own | none
  · exact unused own
  · rw [none] at stored
    cases stored

theorem of_subset (advances : Advances start last calls others) (within : others ⊆ used) :
    Advances start last calls used :=
  advances.of_covered fun _ member => Or.inl (within member)

end Advances

/-- What a function gives, by how it gives it. -/
def Giving.shape : Giving → List Tree → Option Tree
  | .returned, [tree] => some tree
  | .awaited, [tree] => some (.pending tree)
  | .yielded, trees => some (.stream false trees)
  | .yieldedAsync, trees => some (.stream true trees)
  | _, _ => none

/-- Whether a recipe describes a registration. -/
inductive Recipe.Describes : Recipe → Tree → Prop where
  | leaf {value : Value} : value.isLeaf = true → Describes (.plain value) (.leaf value)
  | nil : Describes (.list []) (.list [])
  | cons {item : Recipe} {tree : Tree} {items : List Recipe} {trees : List Tree} :
      Describes item tree → Describes (.list items) (.list trees) →
      Describes (.list (item :: items)) (.list (tree :: trees))
  | tuple {items : List Recipe} {trees : List Tree} :
      Describes (.list items) (.list trees) → Describes (.tuple items) (.tuple trees)
  | stream {items : List Recipe} {trees : List Tree} (asynchronous : Bool) :
      Describes (.list items) (.list trees) →
      Describes (.stream items asynchronous) (.stream asynchronous trees)
  | pending {result : Recipe} {tree : Tree} :
      Describes result tree → Describes (.pending result) (.pending tree)
  | function {items : List Recipe} {trees : List Tree} {giving : Giving} {tree : Tree}
      (name : String) :
      Describes (.list items) (.list trees) → giving.shape trees = some tree →
      Describes (.function (.generating name items giving none)) (.call name tree)

/-- Whether a value holds a registration in a memory, with the names of the functions that are
still to be called, in order, and the handles that it refers to. -/
inductive Holds (memory : Memory) : Value → Tree → List String → List Handle → Prop where
  | leaf {value : Value} : value.isLeaf = true → Holds memory value (.leaf value) [] []
  | nil : Holds memory (.list []) (.list []) [] []
  | cons {value : Value} {tree : Tree} {calls later : List String} {used others : List Handle}
      {values : List Value} {trees : List Tree} :
      Holds memory value tree calls used →
      Holds memory (.list values) (.list trees) later others →
      Holds memory (.list (value :: values)) (.list (tree :: trees)) (calls ++ later)
        (used ++ others)
  | tuple {values : List Value} {trees : List Tree} {calls : List String} {used : List Handle} :
      Holds memory (.list values) (.list trees) calls used →
      Holds memory (.tuple values) (.tuple trees) calls used
  | stream {id : Nat} {values : List Value} {trees : List Tree} {calls : List String}
      {used : List Handle} (asynchronous : Bool) :
      memory.held? (.stream id) = some (.inr (.known values)) →
      Holds memory (.list values) (.list trees) calls used →
      Holds memory (.stream id asynchronous) (.stream asynchronous trees) calls
        (.stream id :: used)
  | entering {id : Nat} {name : String} {items : List Recipe} {trees : List Tree}
      {flag : Bool} (asynchronous : Bool) :
      memory.held? (.stream id) = some (.inr (.entering name items none true flag)) →
      (Recipe.list items).Describes (.list trees) →
      Holds memory (.stream id asynchronous) (.stream asynchronous trees)
        (name :: callsOf trees) [.stream id]
  | pending {id : Nat} {value : Value} {tree : Tree} {calls : List String} {used : List Handle} :
      memory.held? (.promise id) = some (.inl (.known value)) →
      Holds memory value tree calls used →
      Holds memory (.pending id) (.pending tree) calls (.promise id :: used)
  | generating {id : Nat} {name : String} {item : Recipe} {tree : Tree} :
      memory.held? (.promise id) = some (.inl (.generating name [item] none true)) →
      item.Describes tree →
      Holds memory (.pending id) (.pending tree) (name :: tree.calls) [.promise id]
  | function {id : Nat} {name : String} {items : List Recipe} {trees : List Tree}
      {giving : Giving} {tree : Tree} :
      memory.functions[id]? = some (.generating name items giving none) →
      (Recipe.list items).Describes (.list trees) → giving.shape trees = some tree →
      Holds memory (.callable ⟨id, name⟩) (.call name tree) (name :: tree.calls) []

namespace Holds

variable {memory last : Memory} {value : Value} {tree : Tree} {trees : List Tree}
  {calls : List String} {used others : List Handle}

theorem exists_values (holds : Holds memory value (.list trees) calls used) :
    ∃ values, value = .list values := by
  cases holds <;> exact ⟨_, rfl⟩

theorem exists_stream {asynchronous : Bool}
    (holds : Holds memory value (.stream asynchronous trees) calls used) :
    ∃ id, value = .stream id asynchronous := by
  cases holds <;> exact ⟨_, rfl⟩

theorem exists_pending (holds : Holds memory value (.pending tree) calls used) :
    ∃ id, value = .pending id := by
  cases holds <;> exact ⟨_, rfl⟩

/-- What a value refers to is there. -/
theorem held (holds : Holds memory value tree calls used) :
    ∀ handle ∈ used, memory.held? handle ≠ none := by
  have there {handle : Handle} {object : Promise ⊕ Stream}
      (stored : memory.held? handle = some object) : memory.held? handle ≠ none := by
    rw [stored]
    rintro ⟨⟩
  induction holds with
  | leaf _ => exact List.forall_mem_nil _
  | nil => exact List.forall_mem_nil _
  | cons _ _ ih ih' => exact List.forall_mem_append.mpr ⟨ih, ih'⟩
  | tuple _ ih => exact ih
  | stream _ stored _ ih => exact List.forall_mem_cons.mpr ⟨there stored, ih⟩
  | entering _ stored _ => exact List.forall_mem_singleton.mpr (there stored)
  | pending stored _ ih => exact List.forall_mem_cons.mpr ⟨there stored, ih⟩
  | generating stored _ => exact List.forall_mem_singleton.mpr (there stored)
  | function _ _ _ => exact List.forall_mem_nil _

theorem disjoint_of_fresh (holds : Holds memory value tree calls used)
    (fresh : ∀ handle ∈ others, memory.held? handle = none) : used.Disjoint others :=
  fun handle own other => holds.held handle own (fresh handle other)

/-- A value holds what it holds whatever else is used. -/
theorem kept (holds : Holds memory value tree calls used) (keeps : memory.Keeps others last)
    (apart : used.Disjoint others) : Holds last value tree calls used := by
  induction holds with
  | leaf leaf => exact .leaf leaf
  | nil => exact .nil
  | cons _ _ ih ih' =>
      obtain ⟨own, rest⟩ := List.disjoint_append_left.mp apart
      exact .cons (ih own) (ih' rest)
  | tuple _ ih => exact .tuple (ih apart)
  | stream asynchronous stored _ ih =>
      obtain ⟨own, rest⟩ := List.disjoint_cons_left.mp apart
      exact .stream asynchronous (keeps.held _ _ own stored) (ih rest)
  | entering asynchronous stored describes =>
      have own := List.singleton_disjoint.mp apart
      exact .entering asynchronous (keeps.held _ _ own stored) describes
  | pending stored _ ih =>
      obtain ⟨own, rest⟩ := List.disjoint_cons_left.mp apart
      exact .pending (keeps.held _ _ own stored) (ih rest)
  | generating stored describes =>
      have own := List.singleton_disjoint.mp apart
      exact .generating (keeps.held _ _ own stored) describes
  | function stored describes shape =>
      exact .function (keeps.functions _ _ stored) describes shape

end Holds

/-- Whether a value has come to hold a registration, and refers to nothing that has been there
before, and to nothing twice. -/
def Brings (start last : World Memory) (value : Value) (tree : Tree) (calls : List String) : Prop :=
  ∃ used, Holds last.memory value tree calls used ∧ used.Nodup ∧
    ∀ handle ∈ used, start.memory.held? handle = none

namespace Brings

variable {start between last : World Memory} {value : Value} {tree : Tree} {calls : List String}

/-- A value that refers to nothing. -/
theorem of_nil (holds : Holds last.memory value tree calls []) :
    Brings start last value tree calls :=
  ⟨[], holds, List.nodup_nil, List.forall_mem_nil _⟩

/-- A value that refers to one thing, which is new. -/
theorem of_singleton {handle : Handle} (holds : Holds last.memory value tree calls [handle])
    (fresh : start.memory.held? handle = none) : Brings start last value tree calls :=
  ⟨[handle], holds, List.nodup_cons.mpr ⟨List.not_mem_nil, List.nodup_nil⟩,
    List.forall_mem_singleton.mpr fresh⟩

/-- Two values that are made one after the other. -/
theorem cons {values : List Value} {trees : List Tree} {later : List String}
    (first : Brings start between value tree calls) (before : start.memory.Keeps [] between.memory)
    (second : Brings between last (.list values) (.list trees) later)
    (after : between.memory.Keeps [] last.memory) :
    Brings start last (.list (value :: values)) (.list (tree :: trees)) (calls ++ later) := by
  obtain ⟨used, holds, nodup, fresh⟩ := first
  obtain ⟨others, holds', nodup', fresh'⟩ := second
  refine ⟨used ++ others, .cons (holds.kept after (List.disjoint_nil_right used)) holds', ?_, ?_⟩
  · exact List.nodup_append'.mpr ⟨nodup, nodup', holds.disjoint_of_fresh fresh'⟩
  · exact List.forall_mem_append.mpr
      ⟨fresh, fun handle member => before.fresh (fresh' handle member)⟩

/-- A value that is put behind something new. -/
theorem behind {other : Value} {tree' : Tree} {handle : Handle}
    (brings : Brings start between value tree calls)
    (before : start.memory.Keeps [] between.memory)
    (absent : between.memory.held? handle = none)
    (after : between.memory.Keeps [] last.memory)
    (refers : ∀ used, Holds last.memory value tree calls used →
      Holds last.memory other tree' calls (handle :: used)) :
    Brings start last other tree' calls := by
  obtain ⟨used, holds, nodup, fresh⟩ := brings
  refine ⟨handle :: used, refers used (holds.kept after (List.disjoint_nil_right used)), ?_, ?_⟩
  · rw [List.nodup_cons]
    exact ⟨fun member => holds.held handle member absent, nodup⟩
  · exact List.forall_mem_cons.mpr ⟨before.fresh absent, fresh⟩

end Brings

theorem Recipe.Describes.exists_items {recipe : Recipe} {trees : List Tree}
    (describes : recipe.Describes (.list trees)) : ∃ items, recipe = .list items := by
  cases describes <;> exact ⟨_, rfl⟩

mutual

/-- What a recipe makes holds the registration that the recipe describes. -/
theorem make_holds (tree : Tree) {recipe : Recipe} (describes : recipe.Describes tree)
    (start : World Memory) :
    ∃ value last, recipe.make.run start = (.ok value, last) ∧
      Brings start last value tree tree.calls ∧ Advances start last [] [] := by
  cases tree with
  | leaf content =>
      cases describes with
      | leaf leaf => exact ⟨_, start, rfl, .of_nil (.leaf leaf), .refl start⟩
  | list trees =>
      obtain ⟨items, rfl⟩ := describes.exists_items
      obtain ⟨values, last, made, brings, advances⟩ := makeItems_holds trees describes start
      refine ⟨.list values, last, ?_, brings, advances⟩
      rw [Recipe.make, run_bind_of_ok made]
      rfl
  | tuple trees =>
      cases describes with
      | tuple items =>
          obtain ⟨values, last, made, brings, advances⟩ := makeItems_holds trees items start
          obtain ⟨used, holds, rest⟩ := brings
          refine ⟨.tuple values, last, ?_, ⟨used, .tuple holds, rest⟩, advances⟩
          rw [Recipe.make, run_bind_of_ok made]
          rfl
  | stream asynchronous trees =>
      cases describes with
      | stream _ items =>
          obtain ⟨values, between, made, brings, advances⟩ := makeItems_holds trees items start
          have keeps := between.memory.keeps_push_stream (.known values)
          refine ⟨_, _, ?_, brings.behind advances.keeps (Memory.held?_stream_size _) keeps
            fun used holds => .stream asynchronous (Memory.held?_push_stream _ _) holds,
            advances.trans (.of_keeps keeps rfl)⟩
          rw [Recipe.make, run_bind_of_ok made]
          rfl
  | pending tree =>
      cases describes with
      | pending result =>
          obtain ⟨value, between, made, brings, advances⟩ := make_holds tree result start
          have keeps := between.memory.keeps_push_promise (.known value)
          refine ⟨_, _, ?_, brings.behind advances.keeps (Memory.held?_promise_size _) keeps
            fun used holds => .pending (Memory.held?_push_promise _ _) holds,
            advances.trans (.of_keeps keeps rfl)⟩
          rw [Recipe.make, run_bind_of_ok made]
          rfl
  | call name tree =>
      cases describes with
      | @function items trees giving _ _ describes shape =>
          have keeps := start.memory.keeps_push_function (.generating name items giving none)
          exact ⟨_, _, rfl, .of_nil (.function Array.getElem?_push_size describes shape),
            .of_keeps keeps rfl⟩

theorem makeItems_holds (trees : List Tree) {items : List Recipe}
    (describes : (Recipe.list items).Describes (.list trees)) (start : World Memory) :
    ∃ values last, (makeItems items).run start = (.ok values, last) ∧
      Brings start last (.list values) (.list trees) (callsOf trees) ∧
      Advances start last [] [] := by
  cases trees with
  | nil =>
      cases describes with
      | nil => exact ⟨[], start, rfl, .of_nil .nil, .refl start⟩
  | cons tree trees =>
      cases describes with
      | cons own rest =>
          obtain ⟨value, between, made, brings, advances⟩ := make_holds tree own start
          obtain ⟨values, last, made', brings', advances'⟩ := makeItems_holds trees rest between
          refine ⟨value :: values, last, ?_, brings.cons advances.keeps brings' advances'.keeps,
            advances.trans advances'⟩
          rw [makeItems, run_bind_of_ok made, run_bind_of_ok made']
          rfl

end

end LineScript.Library
