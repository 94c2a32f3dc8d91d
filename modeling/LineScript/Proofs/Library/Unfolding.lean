import LineScript.Proofs.Library.Holding

/-!
# Using up what a memory holds

When a value holds a registration, and refers to nothing twice, then it unfolds to it: waiting for
its pending results, drawing from its streams and calling its functions uses up what it refers to,
calls each of its functions once, with the engine, and does nothing else. So it comes to what the
leaves of the registration give, whatever else this is made of
(`LineScript.Library.resolve_flattens`).
-/

namespace LineScript.Library

open Registration (Tree callsOf Flattens Gives Settles Draws Unfolds UnfoldsAll UnfoldsDrawn
  Records)

variable {start between last : World Memory} {value : Value} {tree : Tree} {trees : List Tree}
  {calls : List String} {used : List Handle}

/-- Whether a value holds what is left of a registration after a first step. -/
def Continues (start last : World Memory) (value : Value) (tree : Tree) (calls : List String)
    (used : List Handle) : Prop :=
  ∃ now later others, calls = now ++ later ∧ Advances start last now used ∧
    Holds last.memory value tree later others ∧ others.Nodup ∧
    ∀ handle ∈ others, handle ∈ used ∨ start.memory.held? handle = none

theorem Brings.continues {now later : List String} (brings : Brings start last value tree later)
    (advances : Advances start last now used) :
    Continues start last value tree (now ++ later) used := by
  obtain ⟨others, holds, nodup, fresh⟩ := brings
  exact ⟨now, later, others, rfl, advances, holds, nodup, fun handle member =>
    Or.inr (fresh handle member)⟩

/-- The world after a function has been entered. -/
def entered (name : String) (world : World Memory) : World Memory :=
  { world with memory :=
    { world.memory with happenings := .generated name true :: world.memory.happenings } }

theorem enter_run (name : String) (world : World Memory) :
    (enter name none true).run world = (.ok (), entered name world) := rfl

theorem advances_entered (name : String) (world : World Memory) :
    Advances world (entered name world) [name] [] :=
  ⟨rfl, rfl, world.memory.keeps_record _⟩

theorem exists_of_describes_singleton {items : List Recipe}
    (describes : (Recipe.list items).Describes (.list [tree])) :
    ∃ item, items = [item] ∧ item.Describes tree := by
  cases describes with
  | cons own rest =>
      cases rest
      exact ⟨_, rfl, own⟩

/-- A function that returns its registration makes it when it is entered. -/
theorem generate_continues {name : String} {item : Recipe} (describes : item.Describes tree)
    (start : World Memory) :
    ∃ value last, (generate name [item] none true).run start = (.ok value, last) ∧
      Continues start last value tree (name :: tree.calls) [] := by
  obtain ⟨value, last, made, brings, advances⟩ := make_holds tree describes (entered name start)
  refine ⟨value, last, ?_, ?_⟩
  · rw [generate, run_bind_of_ok (enter_run name start)]
    exact made
  · have brings : Brings start last value tree tree.calls := brings
    exact brings.continues ((advances_entered name start).trans advances)

/-- A function that is called gives what is left of its registration. -/
theorem callGenerator_continues {id : Nat} {name : String} {items : List Recipe} {giving : Giving}
    (stored : start.memory.functions[id]? = some (.generating name items giving none))
    (describes : (Recipe.list items).Describes (.list trees))
    (shape : giving.shape trees = some tree) :
    ∃ value last, (callGenerator ⟨id, name⟩).run start = (.ok value, last) ∧
      Continues start last value tree (name :: tree.calls) [] := by
  have found : (functionOf ⟨id, name⟩).run start =
      (.ok (.generating name items giving none), start) := by
    change (Except.ok (start.memory.functions[id]?.getD _), start) = _
    rw [stored]
    rfl
  have called : (callGenerator ⟨id, name⟩).run start =
      (callGenerating name items giving none true).run start := by
    unfold callGenerator
    rw [run_bind_of_ok found]
  rw [called]
  cases giving with
  | returned =>
      match trees, shape with
      | [result], shape =>
        obtain rfl := Option.some.inj shape
        obtain ⟨item, rfl, own⟩ := exists_of_describes_singleton describes
        exact generate_continues own start
  | awaited =>
      match trees, shape with
      | [result], shape =>
        obtain rfl := Option.some.inj shape
        obtain ⟨item, rfl, own⟩ := exists_of_describes_singleton describes
        have keeps := start.memory.keeps_push_promise (.generating name [item] none true)
        refine ⟨_, _, rfl, Brings.continues (.of_singleton
          (.generating (Memory.held?_push_promise _ _) own) (Memory.held?_promise_size _))
          (.of_keeps keeps rfl)⟩
  | yielded =>
      obtain rfl := Option.some.inj shape
      have keeps := start.memory.keeps_push_stream (.entering name items none true false)
      exact ⟨_, _, rfl, Brings.continues (.of_singleton
        (.entering false (Memory.held?_push_stream _ _) describes) (Memory.held?_stream_size _))
        (.of_keeps keeps rfl)⟩
  | yieldedAsync =>
      obtain rfl := Option.some.inj shape
      have keeps := start.memory.keeps_push_stream (.entering name items none true true)
      exact ⟨_, _, rfl, Brings.continues (.of_singleton
        (.entering true (Memory.held?_push_stream _ _) describes) (Memory.held?_stream_size _))
        (.of_keeps keeps rfl)⟩

/-- The world after a pending result has been given away. -/
def spent (id : Nat) (world : World Memory) : World Memory :=
  { world with memory :=
    { world.memory with promises := world.memory.promises.setIfInBounds id .spent } }

theorem advances_spent (id : Nat) (world : World Memory) :
    Advances world (spent id world) [] [.promise id] :=
  .of_keeps (world.memory.keeps_setPromise id .spent) rfl

theorem read_run (world : World Memory) :
    (Memory.read : Query Memory Memory).run world = (.ok world.memory, world) := rfl

theorem await_run_known {id : Nat}
    (stored : start.memory.held? (.promise id) = some (.inl (.known value))) :
    (await id).run start = (.ok value, spent id start) := by
  unfold await
  rw [run_bind_of_ok (read_run start), Memory.held?_promise.mp stored]
  rfl

theorem await_run_generating {id : Nat} {name : String} {items : List Recipe}
    (stored : start.memory.held? (.promise id) =
      some (.inl (.generating name items none true))) :
    (await id).run start = (generate name items none true).run (spent id start) := by
  unfold await
  rw [run_bind_of_ok (read_run start), Memory.held?_promise.mp stored]
  rfl

/-- Waiting for a pending result gives what is left of its registration. -/
theorem await_continues {id : Nat}
    (holds : Holds start.memory (.pending id) (.pending tree) calls used) (once : used.Nodup) :
    ∃ value last, (await id).run start = (.ok value, last) ∧
      Continues start last value tree calls used := by
  have advances := advances_spent id start
  cases holds with
  | @pending _ value _ _ others stored own =>
      obtain ⟨new, rest⟩ := List.nodup_cons.mp once
      have spends := advances.of_subset
        (List.cons_subset_cons (.promise id) (List.nil_subset others))
      exact ⟨value, _, await_run_known stored, [], calls, others, rfl, spends,
        own.kept advances.keeps (List.disjoint_singleton.mpr new), rest, fun handle member =>
          Or.inl (List.mem_cons_of_mem _ member)⟩
  | generating stored describes =>
      obtain ⟨value, last, made, now, later, others, same, more, holds, nodup, covered⟩ :=
        generate_continues describes (spent id start)
      refine ⟨value, last, (await_run_generating stored).trans made, now, later, others, same,
        ?_, holds, nodup, ?_⟩
      · exact advances.trans more
      · intro handle member
        rcases covered handle member with impossible | none
        · cases impossible
        · exact advances.keeps.covers none

/-- The world after a stream has been changed. -/
def streaming (id : Nat) (stream : Stream) (world : World Memory) : World Memory :=
  { world with memory :=
    { world.memory with streams := world.memory.streams.setIfInBounds id stream } }

theorem setStream_run (id : Nat) (stream : Stream) (world : World Memory) :
    (Memory.setStream id stream).run world = (.ok (), streaming id stream world) := rfl

theorem advances_streaming (id : Nat) (stream : Stream) (world : World Memory) :
    Advances world (streaming id stream world) [] [.stream id] :=
  .of_keeps (world.memory.keeps_setStream id stream) rfl

theorem held?_streaming {id : Nat} {old : Promise ⊕ Stream}
    (stored : start.memory.held? (.stream id) = some old) (stream : Stream) :
    (streaming id stream start).memory.held? (.stream id) = some (.inr stream) :=
  Memory.held?_setStream stored stream

theorem next_run_known_nil {id : Nat}
    (stored : start.memory.held? (.stream id) = some (.inr (.known []))) :
    (next id).run start = (.ok none, start) := by
  unfold next
  rw [run_bind_of_ok (read_run start), Memory.held?_stream.mp stored]
  rfl

theorem next_run_known_cons {id : Nat} {values : List Value}
    (stored : start.memory.held? (.stream id) = some (.inr (.known (value :: values)))) :
    (next id).run start = (.ok (some value), streaming id (.known values) start) := by
  unfold next
  rw [run_bind_of_ok (read_run start), Memory.held?_stream.mp stored]
  rfl

theorem next_run_making {id : Nat} {items : List Recipe}
    (stored : start.memory.held? (.stream id) = some (.inr (.making items))) :
    (next id).run start = (makeNext id items).run start := by
  unfold next
  rw [run_bind_of_ok (read_run start), Memory.held?_stream.mp stored]
  rfl

/-- A generator is entered when it is drawn from for the first time. -/
theorem next_run_entering {id : Nat} {name : String} {items : List Recipe} {flag : Bool}
    (stored : start.memory.held? (.stream id) =
      some (.inr (.entering name items none true flag))) :
    ∃ inside, (next id).run start = (makeNext id items).run inside ∧
      inside.memory.held? (.stream id) = some (.inr (.making [])) ∧
      Advances start inside [name] [.stream id] := by
  refine ⟨entered name (streaming id (.making []) start), ?_,
    held?_streaming stored (.making []),
    (advances_streaming id (.making []) start).trans (advances_entered name _)⟩
  unfold next
  rw [run_bind_of_ok (read_run start), Memory.held?_stream.mp stored]
  rfl

/-- What a generator yields next holds what its recipe describes, and then the generator goes on
with the others. -/
theorem makeNext_cons_run {id : Nat} {item : Recipe} (items : List Recipe)
    (describes : item.Describes tree) {old : Promise ⊕ Stream}
    (stored : start.memory.held? (.stream id) = some old) :
    ∃ value last, (makeNext id (item :: items)).run start = (.ok (some value), last) ∧
      last.memory.held? (.stream id) = some (.inr (.making items)) ∧
      Brings start last value tree tree.calls ∧ Advances start last [] [.stream id] := by
  have first := advances_streaming id (.making []) start
  have set := held?_streaming stored (.making [])
  obtain ⟨value, between, made, brings, advances⟩ :=
    make_holds tree describes (streaming id (.making []) start)
  have still := advances.keeps.held _ _ List.not_mem_nil set
  have last := advances_streaming id (.making items) between
  obtain ⟨used, holds, nodup, fresh⟩ := brings
  have apart := List.disjoint_singleton.mpr (Memory.not_mem_of_held set fresh)
  refine ⟨value, streaming id (.making items) between, ?_, held?_streaming still _,
    ⟨used, holds.kept last.keeps apart, nodup, ?_⟩, ?_⟩
  · rw [makeNext, run_bind_of_ok (setStream_run id _ start), run_bind_of_ok made,
      run_bind_of_ok (setStream_run id _ between)]
    rfl
  · intro handle member
    exact (first.keeps.covers (fresh handle member)).resolve_left fun own => apart member own
  · exact ((first.trans advances).trans last).of_subset (by simp)

section Host

variable {run : Value → Procedure Memory Unit}

variable (run) in
/-- A stream of values that there are yields them. -/
theorem draws_of_known {id : Nat} {values : List Value}
    (stored : start.memory.held? (.stream id) = some (.inr (.known values))) :
    ∃ last, Draws (hostWith run) id start values last ∧ Advances start last [] [.stream id] := by
  induction values generalizing start with
  | nil =>
      exact ⟨start, .finish (next_run_known_nil stored),
        (Advances.refl start).of_subset (List.nil_subset _)⟩
  | cons value values ih =>
      obtain ⟨last, draws, advances⟩ := ih (held?_streaming stored (.known values))
      exact ⟨last, .draw (next_run_known_cons stored) draws,
        ((advances_streaming id (.known values) start).trans advances).of_subset (by simp)⟩

variable (run) in
/-- A generator that is drawn empty yields what its recipes describe. -/
theorem draws_of_making {id : Nat} {items : List Recipe} {begin : World Memory}
    {old : Promise ⊕ Stream} (describes : (Recipe.list items).Describes (.list trees))
    (stored : start.memory.held? (.stream id) = some old)
    (drawing : (next id).run begin = (makeNext id items).run start) :
    ∃ values last, Draws (hostWith run) id begin values last ∧
      Brings start last (.list values) (.list trees) (callsOf trees) ∧
      Advances start last [] [.stream id] := by
  induction items generalizing trees start begin old with
  | nil =>
      cases describes
      exact ⟨[], start, .finish drawing, .of_nil .nil,
        (Advances.refl start).of_subset (List.nil_subset _)⟩
  | cons item items ih =>
      cases describes with
      | @cons _ tree _ trees own rest =>
          obtain ⟨value, between, made, still, ⟨used, holds, nodup, fresh⟩, advances⟩ :=
            makeNext_cons_run items own stored
          obtain ⟨values, last, draws, ⟨others, holds', nodup', fresh'⟩, advances'⟩ :=
            ih rest still (next_run_making still)
          have apart := List.disjoint_singleton.mpr (Memory.not_mem_of_held stored fresh)
          have apart' := List.disjoint_singleton.mpr (Memory.not_mem_of_held still fresh')
          refine ⟨value :: values, last, .draw (drawing.trans made) draws,
            ⟨used ++ others, .cons (holds.kept advances'.keeps apart) holds', ?_, ?_⟩, ?_⟩
          · exact List.nodup_append'.mpr ⟨nodup, nodup', holds.disjoint_of_fresh fresh'⟩
          · refine List.forall_mem_append.mpr ⟨fresh, fun handle member => ?_⟩
            exact (advances.keeps.covers (fresh' handle member)).resolve_left
              fun own => apart' member own
          · exact (advances.trans advances').of_subset (by simp)

/-- What is reached from what is left is reached from the start. -/
theorem Continues.finish {Reached : World Memory → Prop}
    (continues : Continues start between value tree calls used)
    (rest : ∀ later others, Holds between.memory value tree later others → others.Nodup →
      ∃ last, Reached last ∧ Advances between last later others) :
    ∃ last, Reached last ∧ Advances start last calls used := by
  obtain ⟨now, later, others, rfl, advances, holds, nodup, covered⟩ := continues
  obtain ⟨last, reached, further⟩ := rest later others holds nodup
  refine ⟨last, reached, (advances.trans further).of_covered ?_⟩
  exact List.forall_mem_append.mpr ⟨fun handle member => Or.inl member, covered⟩

/-- An asynchronous stream that is drawn empty yields what is left of its registration. -/
theorem draws_continues {id : Nat}
    (holds : Holds start.memory (.stream id true) (.stream true trees) calls used)
    (once : used.Nodup) :
    ∃ values next, Draws (hostWith run) id start values next ∧
      Continues start next (.list values) (.list trees) calls used := by
  cases holds with
  | @stream _ values _ _ others _ stored all =>
      obtain ⟨new, rest⟩ := List.nodup_cons.mp once
      obtain ⟨next, draws, advances⟩ := draws_of_known run stored
      have spends := advances.of_subset
        (List.cons_subset_cons (.stream id) (List.nil_subset others))
      exact ⟨values, next, draws, [], calls, others, rfl, spends,
        all.kept advances.keeps (List.disjoint_singleton.mpr new), rest, fun handle member =>
          Or.inl (List.mem_cons_of_mem _ member)⟩
  | @entering _ name items _ _ _ stored describes =>
      obtain ⟨inside, drawing, still, first⟩ := next_run_entering stored
      obtain ⟨values, next, draws, ⟨others, all, nodup, fresh⟩, advances⟩ :=
        draws_of_making run describes still drawing
      refine ⟨values, next, draws, [name], callsOf trees, others, rfl,
        (first.trans advances).of_subset (by simp), all, nodup, ?_⟩
      exact fun handle member => first.keeps.covers (fresh handle member)

mutual

/-- A value unfolds to the registration that it holds, and this calls its functions once and uses up
what it refers to. -/
theorem unfolds_of_holds (tree : Tree) {value : Value} {calls : List String}
    {used : List Handle} {start : World Memory} (holds : Holds start.memory value tree calls used)
    (once : used.Nodup) :
    ∃ last, Unfolds (hostWith run) start value tree last ∧ Advances start last calls used := by
  -- The recursion is on the tree: a function or a generator that is entered makes new values.
  cases tree with
  | leaf content =>
      cases holds with
      | leaf leaf => exact ⟨start, .leaf start leaf, .refl start⟩
  | list trees =>
      obtain ⟨values, rfl⟩ := holds.exists_values
      obtain ⟨last, unfolds, advances⟩ := unfoldsAll_of_holds trees holds once
      exact ⟨last, .list unfolds, advances⟩
  | tuple trees =>
      cases holds with
      | tuple all =>
          obtain ⟨last, unfolds, advances⟩ := unfoldsAll_of_holds trees all once
          exact ⟨last, .tuple unfolds, advances⟩
  | stream asynchronous trees =>
      cases asynchronous with
      | true =>
          obtain ⟨id, rfl⟩ := holds.exists_stream
          obtain ⟨values, next, draws, continues⟩ := draws_continues holds once
          obtain ⟨last, unfolds, advances⟩ := continues.finish fun later others rest nodup =>
            unfoldsAll_of_holds trees rest nodup
          exact ⟨last, .asynchronous draws unfolds, advances⟩
      | false =>
          cases holds with
          | stream _ stored all =>
              obtain ⟨last, unfolds, advances⟩ := unfoldsDrawn_of_known trees stored all once
              exact ⟨last, .stream unfolds, advances⟩
          | entering _ stored describes =>
              obtain ⟨inside, drawing, still, first⟩ := next_run_entering stored
              obtain ⟨last, unfolds, advances⟩ :=
                unfoldsDrawn_of_making trees describes still drawing
              exact ⟨last, .stream unfolds, (first.trans advances).of_subset (by simp)⟩
  | pending result =>
      obtain ⟨id, rfl⟩ := holds.exists_pending
      obtain ⟨value, next, awaited, continues⟩ := await_continues holds once
      obtain ⟨last, unfolds, advances⟩ := continues.finish fun later others rest nodup =>
        unfolds_of_holds result rest nodup
      exact ⟨last, .pending awaited unfolds, advances⟩
  | call name result =>
      cases holds with
      | @function id _ items trees giving _ stored describes shape =>
          have noted : (start.noting (.invoking ⟨id, name⟩)).memory.functions[id]? =
              some (.generating name items giving none) := stored
          obtain ⟨value, next, called, continues⟩ := callGenerator_continues noted describes shape
          obtain ⟨last, unfolds, advances⟩ := continues.finish fun later others rest nodup =>
            unfolds_of_holds result rest nodup
          exact ⟨last, .call called unfolds, advances.engine, advances.happenings, advances.keeps⟩

theorem unfoldsAll_of_holds (trees : List Tree) {values : List Value} {calls : List String}
    {used : List Handle} {start : World Memory}
    (holds : Holds start.memory (.list values) (.list trees) calls used) (once : used.Nodup) :
    ∃ last, UnfoldsAll (hostWith run) start values trees last ∧
      Advances start last calls used := by
  cases trees with
  | nil =>
      cases holds with
      | nil => exact ⟨start, .nil start, .refl start⟩
  | cons tree trees =>
      cases holds with
      | cons own rest =>
          obtain ⟨first, second, apart⟩ := List.nodup_append'.mp once
          obtain ⟨between, unfolds, advances⟩ := unfolds_of_holds tree own first
          have other := rest.kept advances.keeps (List.disjoint_symm apart)
          obtain ⟨last, unfolds', advances'⟩ := unfoldsAll_of_holds trees other second
          exact ⟨last, .cons unfolds unfolds', advances.trans advances'⟩

theorem unfoldsDrawn_of_known (trees : List Tree) {id : Nat} {values : List Value}
    {calls : List String} {used : List Handle} {start : World Memory}
    (stored : start.memory.held? (.stream id) = some (.inr (.known values)))
    (holds : Holds start.memory (.list values) (.list trees) calls used)
    (once : (Handle.stream id :: used).Nodup) :
    ∃ last, UnfoldsDrawn (hostWith run) start id trees last ∧
      Advances start last calls (.stream id :: used) := by
  cases trees with
  | nil =>
      cases holds with
      | nil =>
          exact ⟨start, .finish (next_run_known_nil stored),
            (Advances.refl start).of_subset (List.nil_subset _)⟩
  | cons tree trees =>
      cases holds with
      | @cons value _ now later used others values _ own rest =>
          obtain ⟨new, nodup⟩ := List.nodup_cons.mp once
          obtain ⟨first, second, apart⟩ := List.nodup_append'.mp nodup
          rw [List.mem_append, not_or] at new
          have drawn := advances_streaming id (.known values) start
          have own := own.kept drawn.keeps (List.disjoint_singleton.mpr new.1)
          have rest := rest.kept drawn.keeps (List.disjoint_singleton.mpr new.2)
          obtain ⟨between, unfolds, advances⟩ := unfolds_of_holds tree own first
          have still := advances.keeps.held _ _ new.1 (held?_streaming stored (.known values))
          obtain ⟨last, unfolds', advances'⟩ := unfoldsDrawn_of_known trees still
            (rest.kept advances.keeps (List.disjoint_symm apart))
            (List.nodup_cons.mpr ⟨new.2, second⟩)
          have within : [Handle.stream id] ++ used ++ .stream id :: others ⊆
              .stream id :: (used ++ others) :=
            List.append_subset.mpr
              ⟨List.cons_subset_cons _ (List.subset_append_left used others),
                List.cons_subset_cons _ (List.subset_append_right used others)⟩
          exact ⟨last, .draw (next_run_known_cons stored) unfolds unfolds',
            ((drawn.trans advances).trans advances').of_subset within⟩

theorem unfoldsDrawn_of_making (trees : List Tree) {id : Nat} {items : List Recipe}
    {begin start : World Memory} {old : Promise ⊕ Stream}
    (describes : (Recipe.list items).Describes (.list trees))
    (stored : start.memory.held? (.stream id) = some old)
    (drawing : (next id).run begin = (makeNext id items).run start) :
    ∃ last, UnfoldsDrawn (hostWith run) begin id trees last ∧
      Advances start last (callsOf trees) [.stream id] := by
  cases trees with
  | nil =>
      cases describes with
      | nil => exact ⟨start, .finish drawing, (Advances.refl start).of_subset (List.nil_subset _)⟩
  | cons tree trees =>
      cases describes with
      | cons own rest =>
          obtain ⟨value, between, made, still, ⟨used, holds, nodup, fresh⟩, advances⟩ :=
            makeNext_cons_run _ own stored
          have unused := Memory.not_mem_of_held stored fresh
          obtain ⟨place, unfolds, advances'⟩ := unfolds_of_holds tree holds nodup
          have further := advances'.keeps.held _ _ unused still
          obtain ⟨last, unfolds', rest'⟩ :=
            unfoldsDrawn_of_making trees rest further (next_run_making further)
          refine ⟨last, .draw (drawing.trans made) unfolds unfolds',
            ((advances.trans advances').trans rest').of_covered ?_⟩
          intro handle member
          rcases List.mem_append.mp member with before | own
          · rcases List.mem_append.mp before with own | new
            · exact Or.inl own
            · exact Or.inr (fresh handle new)
          · exact Or.inl own

end

end Host

/-- Registrations are flattened. Whatever the host, a registration comes to what the leaves of the
tree that it unfolds to give, from left to right: their actions, or a fault if one of them gives
none. And each function of the tree is called once, in order, as any record of the calls shows. With
the host of declared libraries each value unfolds to the registration that it holds, if it refers to
nothing twice; each function is called with the engine, and nothing else happens. -/
theorem resolve_flattens :
    (∀ {Held : Type} (host : Host Held) {start last : World Held} {value : Value} {tree : Tree},
      Unfolds host start value tree last →
      Flattens (fun fuel => Registration.resolve host fuel value) tree.leaves start last ∧
        ∀ record, Records host record → record last = record start ++ tree.calls) ∧
    ∀ (run : Value → Procedure Memory Unit) {start : World Memory} {value : Value} {tree : Tree}
      {calls : List String} {used : List Handle},
      Holds start.memory value tree calls used → used.Nodup →
      ∃ last, Unfolds (hostWith run) start value tree last ∧ Advances start last calls used :=
  ⟨fun _ _ _ _ tree unfolds => ⟨Registration.flattens_of_unfolds tree unfolds,
      fun _ records => Unfolds.records records tree unfolds⟩,
    fun _ _ _ tree _ _ holds once => unfolds_of_holds tree holds once⟩

/-- An action for a control value. -/
def onSentinel (mark : Sentinel) (content : String) (deref : Bool) : Action :=
  ⟨.sentinel mark, .sentinel mark, .line (.text content), .bool deref⟩

/-- A pending tuple of an action and a generator function, which yields a list with a record. -/
def nested : Recipe :=
  .pending (.tuple [.plain (.action (onSentinel .finish "bud" false)),
    .function (.generating "more" [.list [.plain (.dict [(.text "matcher", .sentinel .done),
      (.text "handler", .text "leaf")])]] .yielded none)])

/-- A host that keeps the names of the functions that are called for their registrations. Each of
them makes an action for FINISH. -/
def tallying : Host (List String) where
  callMatcher _ _ := return .ready .null
  callHandler _ _ := return .ready .null
  callGenerator function := do
    modifyThe (World (List String)) fun world =>
      { world with memory := world.memory ++ [function.name] }
    return .action (onSentinel .finish function.name false)
  await _ := return .null
  next _ := return none
  sleep _ := return ()
  print _ := return ()
  readKey := return none

theorem records_tallying : Records tallying World.memory where
  callGenerator _ _ := rfl
  await _ _ := rfl
  next _ _ := rfl
  note _ _ := rfl

/-- The action and the record are the two actions, and the function is called once. Two functions in
lists are called one after the other. -/
theorem resolve_flattens_nested :
    (let start : World Memory := ⟨Engine.ofOptions ⟨.bool false, []⟩, [], {}⟩
      ∃ value place last, nested.make.run start = (.ok value, place) ∧
        Settles (fun fuel => Registration.resolve (host 0 0) fuel value) place
          (.ok [onSentinel .finish "bud" false, onSentinel .done "leaf" true]) last ∧
        last.memory.happenings = [.generated "more" true]) ∧
    let start : World (List String) := ⟨Engine.ofOptions ⟨.bool false, []⟩, [], []⟩
    ∃ last, Settles (fun fuel => Registration.resolve tallying fuel
        (.list [.list [.callable ⟨0, "bud"⟩], .callable ⟨1, "leaf"⟩])) start
        (.ok [onSentinel .finish "bud" false, onSentinel .finish "leaf" false]) last ∧
      last.memory = ["bud", "leaf"] := by
  constructor
  · intro start
    have describes : nested.Describes _ :=
      .pending (.tuple (.cons (.leaf rfl)
        (.cons (.function "more" (.cons (.cons (.leaf rfl) .nil) .nil) rfl) .nil)))
    obtain ⟨value, place, made, ⟨used, holds, once, -⟩, advances⟩ := make_holds _ describes start
    obtain ⟨last, unfolds, further⟩ :=
      resolve_flattens.2 (fun _ => throw .outOfFuel) holds once
    obtain ⟨flattens, -⟩ := resolve_flattens.1 _ unfolds
    refine ⟨value, place, last, made, ?_, ?_⟩
    · exact flattens.given [[onSentinel .finish "bud" false], [onSentinel .done "leaf" true]]
        (.cons (.action _) (.cons (.record rfl rfl) .nil))
    · rw [further.happenings, advances.happenings]
      rfl
  · intro start
    have unfolds : Unfolds tallying start
        (.list [.list [.callable ⟨0, "bud"⟩], .callable ⟨1, "leaf"⟩]) _ _ :=
      .list (.cons (.list (.cons (.call rfl (.leaf _ rfl)) (.nil _)))
        (.cons (.call rfl (.leaf _ rfl)) (.nil _)))
    obtain ⟨flattens, records⟩ := resolve_flattens.1 tallying unfolds
    refine ⟨_, flattens.given [[_], [_]] (.cons (.action _) (.cons (.action _) .nil)), ?_⟩
    exact records World.memory records_tallying

end LineScript.Library
