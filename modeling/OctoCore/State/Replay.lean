import OctoCore.State.History

/-!
# Domain data as the replay of the undo deque

`redo()` replays a record by its forward with the recorded arguments and result and
`mutableResult = false`, so a command that keeps the replay-consistency contract can
be replayed on the data it first ran on.  `Entry.Reversible` states that contract for
one command, over domain data only: a first run can be reverted and replayed from any
state with the same data, and a first run that raises leaves the data alone.

Under it, runs that admit a record, undos and redos keep the records of both deques a
chain of first runs, with the state's data at the cursor.  So the domain data is the
replay of the undo deque from the first state, and undoing every record restores it.
An undo followed by a redo restores the data only when there is something to undo:
with an empty undo deque `undo()` does nothing and `redo()` still replays.
-/

namespace Octo

/-- The replay-consistency contract of one command, over domain data only: a first
forward run is reverted by backward, and replayed by a forward with the result it
wrote, from any state with the same data; and a first run that raises leaves the data
as it was. -/
structure Entry.Reversible {D : Type} (entry : Entry D) : Prop where
  backward_restores : ∀ {args state result ran},
    entry.forward args Map.empty true state = .ok result ran →
      ∀ state' : State D, state'.data = ran.data →
        ∃ result' after, entry.backward args result state' = .ok result' after ∧
          after.data = state.data
  forward_replays : ∀ {args state result ran},
    entry.forward args Map.empty true state = .ok result ran →
      ∀ state' : State D, state'.data = state.data →
        ∃ after, entry.forward args result false state' = .ok result after ∧ after.data = ran.data
  forward_atomic : ∀ {args state fault after},
    entry.forward args Map.empty true state = .error fault after → after.data = state.data

/-- Every entry of the registry keeps the replay-consistency contract. -/
def CommandRegistry.Reversible {D : Type} (registry : CommandRegistry D) : Prop :=
  ∀ commandId entry, registry.getCommand commandId = some entry → entry.Reversible

/-- The calls the replay law is about: runs that admit a record, undos and redos. -/
def Call.isHistoryCall {D : Type} : Call D → Bool
  | .runCommand _ _ allowUndo => allowUndo
  | .undo | .redo => true
  | _ => false

namespace State

variable {D : Type} (registry : CommandRegistry D)

/-- Replay records in order, each by its forward with its recorded arguments and result
and `mutableResult = false`, as `redo()` runs it. -/
def replay : List CommandRecord → EStateM Fault (State D) Unit
  | [] => fun state => .ok () state
  | record :: records => fun state =>
      match registry.getCommand record.commandId with
      | none => .error .nullEntry state
      | some entry =>
          match entry.forward record.args record.result false state with
          | .ok _ state => replay records state
          | .error fault state => .error fault state

/-- A record's first run, as `_runCommand` made it: from a state with domain data
`data`, the forward of the record's entry on an empty mutable result returned the
record's result and left domain data `data'`. -/
def FirstRun (record : CommandRecord) (data data' : D) : Prop :=
  ∃ entry, registry.getCommand record.commandId = some entry ∧
    ∃ state ran : State D, state.data = data ∧
      entry.forward record.args Map.empty true state = .ok record.result ran ∧ ran.data = data'

/-- Records that each first ran on the domain data the one before left. -/
inductive Chain : D → List CommandRecord → D → Prop
  | nil (data : D) : Chain data [] data
  | cons {data data' data'' : D} {record : CommandRecord} {records : List CommandRecord} :
      FirstRun registry record data data' → Chain data' records data'' →
        Chain data (record :: records) data''

/-- The history of a state is a chain of first runs from `origin`: the undo deque ends
at the state's data, and the redo deque, from its back, goes on from there. -/
structure ReplayInvariant (origin : D) (state : State D) : Prop where
  done : Chain registry origin state.mUndo state.data
  undone : ∃ data, Chain registry state.data state.mRedo.reverse data

variable {registry}

theorem chain_append {data data'' : D} {records records' : List CommandRecord} :
    Chain registry data (records ++ records') data'' ↔
      ∃ data', Chain registry data records data' ∧ Chain registry data' records' data'' := by
  induction records generalizing data with
  | nil => exact ⟨fun chain => ⟨data, .nil data, chain⟩, fun ⟨_, .nil _, chain⟩ => chain⟩
  | cons record records ih =>
      constructor
      · rintro (_ | ⟨first, rest⟩)
        obtain ⟨data', front, back⟩ := ih.mp rest
        exact ⟨data', .cons first front, back⟩
      · rintro ⟨data', (_ | ⟨first, front⟩), back⟩
        exact .cons first (ih.mpr ⟨data', front, back⟩)

theorem chain_concat {data data'' : D} {records : List CommandRecord} {record : CommandRecord} :
    Chain registry data (records ++ [record]) data'' ↔
      ∃ data', Chain registry data records data' ∧ FirstRun registry record data' data'' := by
  rw [chain_append]
  constructor
  · rintro ⟨data', front, (_ | ⟨first, ⟨⟩⟩)⟩
    exact ⟨data', front, first⟩
  · rintro ⟨data', front, first⟩
    exact ⟨data', front, .cons first (.nil _)⟩

theorem ReplayInvariant.of_eq {origin : D} {state after : State D}
    (invariant : ReplayInvariant registry origin state) (undone : after.mUndo = state.mUndo)
    (redone : after.mRedo = state.mRedo) (same : after.data = state.data) :
    ReplayInvariant registry origin after :=
  ⟨by rw [undone, same]; exact invariant.done, by rw [redone, same]; exact invariant.undone⟩

/-! ## One step of the history under the contract -/

section Contract

variable (wellBehaved : registry.WellBehaved) (reversible : registry.Reversible)

include reversible in
theorem firstRun_replays {record : CommandRecord} {data data' : D}
    (first : FirstRun registry record data data') (state : State D) (start : state.data = data) :
    ∃ entry after, registry.getCommand record.commandId = some entry ∧
      entry.forward record.args record.result false state = .ok record.result after ∧
      after.data = data' := by
  obtain ⟨entry, found, _, _, rfl, forwarded, rfl⟩ := first
  obtain ⟨after, replayed, same⟩ := (reversible _ entry found).forward_replays forwarded state start
  exact ⟨entry, after, found, replayed, same⟩

include reversible in
theorem firstRun_reverts {record : CommandRecord} {data data' : D}
    (first : FirstRun registry record data data') (state : State D) (start : state.data = data') :
    ∃ entry result after, registry.getCommand record.commandId = some entry ∧
      entry.backward record.args record.result state = .ok result after ∧ after.data = data := by
  obtain ⟨entry, found, _, _, rfl, forwarded, rfl⟩ := first
  obtain ⟨result, after, reverted, same⟩ :=
    (reversible _ entry found).backward_restores forwarded state start
  exact ⟨entry, result, after, found, reverted, same⟩

include reversible in
/-- A chain of first runs replays from any state with its first data. -/
theorem replay_of_chain {data data' : D} {records : List CommandRecord}
    (chain : Chain registry data records data') {state : State D} (start : state.data = data) :
    ∃ after, replay registry records state = .ok () after ∧ after.data = data' := by
  induction chain generalizing state with
  | nil => exact ⟨state, rfl, start⟩
  | cons first _ ih =>
      obtain ⟨entry, after, found, replayed, same⟩ := firstRun_replays reversible first state start
      obtain ⟨final, replayedAll, finalData⟩ := ih same
      exact ⟨final, by simp [replay, found, replayed, replayedAll], finalData⟩

include wellBehaved reversible

theorem undo_of_chain {state : State D} {rest : List CommandRecord} {record : CommandRecord}
    {data : D} (popped : state.mUndo = rest ++ [record])
    (first : FirstRun registry record data state.data) :
    ∃ after, undo registry state = .ok () after ∧ after.mUndo = rest ∧
      after.mRedo = state.mRedo ++ [record] ∧ after.data = data := by
  obtain ⟨entry, result, after, found, reverted, restored⟩ :=
    firstRun_reverts reversible first { state with mUndo := rest } rfl
  obtain rfl := (wellBehaved _ entry found).backward_result reverted
  have returned := undoRecord_of_backward found reverted
  obtain ⟨undone, redone⟩ := undoRecord_ok_deques wellBehaved returned
  exact ⟨_, by rw [undo_of_append popped, returned], undone, redone, restored⟩

theorem redo_of_chain {state : State D} {rest : List CommandRecord} {record : CommandRecord}
    {data' : D} (popped : state.mRedo = rest ++ [record])
    (first : FirstRun registry record state.data data') :
    ∃ after, redo registry state = .ok () after ∧ after.mUndo = state.mUndo ++ [record] ∧
      after.mRedo = rest ∧ after.data = data' := by
  obtain ⟨entry, after, found, replayed, same⟩ :=
    firstRun_replays reversible first { state with mRedo := rest } rfl
  have returned := redoRecord_of_forward found replayed
  obtain ⟨undone, redone⟩ := redoRecord_ok_deques wellBehaved returned
  exact ⟨_, by rw [redo_of_append popped, returned], undone, redone, same⟩

variable {origin : D} {state : State D} (invariant : ReplayInvariant registry origin state)
include invariant

theorem replayInvariant_runCommand (commandId : CommandId) (args : Map) :
    ReplayInvariant registry origin
      (stateAfter (_runCommand registry commandId args true state)) := by
  cases ran : _runCommand registry commandId args true state with
  | ok result after =>
      obtain ⟨entry, ran', found, forwarded, rfl⟩ := _runCommand_ok ran
      have history := (wellBehaved _ entry found).forward_history args Map.empty true state
      rw [forwarded, stateAfter_ok] at history
      refine ⟨?_, ran'.data, .nil _⟩
      simp only [stateAfter_ok, if_true, history.1]
      exact chain_concat.mpr
        ⟨state.data, invariant.done, entry, found, state, ran', rfl, forwarded, rfl⟩
  | error fault after =>
      obtain ⟨undone, redone⟩ := _runCommand_error_deques wellBehaved ran
      refine invariant.of_eq undone redone ?_
      rcases _runCommand_error ran with ⟨-, rfl⟩ | ⟨entry, found, forwarded⟩
      · rfl
      · exact (reversible _ entry found).forward_atomic forwarded

theorem replayInvariant_undo :
    ReplayInvariant registry origin (stateAfter (undo registry state)) := by
  rcases undo_cases registry state with ⟨-, same⟩ | ⟨rest, record, popped, -⟩
  · rwa [same]
  · obtain ⟨data, done, first⟩ := chain_concat.mp (popped ▸ invariant.done)
    obtain ⟨after, returned, undone, redone, restored⟩ :=
      undo_of_chain wellBehaved reversible popped first
    obtain ⟨final, later⟩ := invariant.undone
    rw [returned, stateAfter_ok]
    exact ⟨by rw [undone, restored]; exact done, final,
      by simpa [redone, restored] using .cons first later⟩

theorem replayInvariant_redo :
    ReplayInvariant registry origin (stateAfter (redo registry state)) := by
  rcases redo_cases registry state with ⟨-, same⟩ | ⟨rest, record, popped, -⟩
  · rwa [same]
  · obtain ⟨final, later⟩ := invariant.undone
    rw [popped, List.reverse_append, List.reverse_singleton, List.singleton_append] at later
    obtain _ | ⟨first, later⟩ := later
    obtain ⟨after, returned, undone, redone, replayed⟩ :=
      redo_of_chain wellBehaved reversible popped first
    rw [returned, stateAfter_ok]
    exact ⟨by rw [undone, replayed]; exact chain_concat.mpr ⟨_, invariant.done, first⟩,
      final, by rw [redone, replayed]; exact later⟩

end Contract

end State

/-! ## The replay law over runs of calls -/

namespace World

variable {D : Type} {origin : D}

theorem replayInvariant_step {world : World D} (wellBehaved : world.registry.WellBehaved)
    (reversible : world.registry.Reversible)
    (invariant : State.ReplayInvariant world.registry origin world.state) {call : Call D}
    (historyCall : call.isHistoryCall) :
    (world.step call).1.registry = world.registry ∧
      State.ReplayInvariant world.registry origin (world.step call).1.state := by
  cases call with
  | runCommand commandId args allowUndo =>
      cases allowUndo
      · simp [Call.isHistoryCall] at historyCall
      · refine ⟨rfl, ?_⟩
        simpa [step, onState] using
          State.replayInvariant_runCommand wellBehaved reversible invariant commandId args
  | undo => exact ⟨rfl, State.replayInvariant_undo wellBehaved reversible invariant⟩
  | redo => exact ⟨rfl, State.replayInvariant_redo wellBehaved reversible invariant⟩
  | _ => simp [Call.isHistoryCall] at historyCall

theorem replayInvariant_run {world : World D} (wellBehaved : world.registry.WellBehaved)
    (reversible : world.registry.Reversible)
    (invariant : State.ReplayInvariant world.registry origin world.state) {calls : List (Call D)}
    (historyCalls : ∀ call ∈ calls, call.isHistoryCall) :
    (world.run calls).registry = world.registry ∧
      State.ReplayInvariant world.registry origin (world.run calls).state := by
  induction calls generalizing world with
  | nil => exact ⟨rfl, invariant⟩
  | cons call calls ih =>
      obtain ⟨same, next⟩ :=
        replayInvariant_step wellBehaved reversible invariant (historyCalls call (.head _))
      rw [← same] at wellBehaved reversible next
      obtain ⟨sameAll, final⟩ :=
        ih wellBehaved reversible next fun other member => historyCalls other (.tail _ member)
      rw [same] at final
      exact ⟨sameAll.trans same, final⟩

theorem data_of_undos {world : World D} (wellBehaved : world.registry.WellBehaved)
    (reversible : world.registry.Reversible)
    (invariant : State.ReplayInvariant world.registry origin world.state) {count : Nat}
    (enough : world.state.mUndo.length ≤ count) :
    (world.run (List.replicate count .undo)).state.data = origin := by
  induction count generalizing world with
  | zero =>
      obtain ⟨⟩ := List.length_eq_zero.mp (Nat.le_zero.mp enough) ▸ invariant.done
      rfl
  | succ count ih =>
      have undone := State.mUndo_undo wellBehaved world.state
      exact ih wellBehaved reversible (State.replayInvariant_undo wellBehaved reversible invariant)
        (by simp only [step, onState, undone, List.length_dropLast]; omega)

theorem data_of_undo_redo {world : World D} (wellBehaved : world.registry.WellBehaved)
    (reversible : world.registry.Reversible)
    (invariant : State.ReplayInvariant world.registry origin world.state)
    (nonempty : world.state.canUndo = true) :
    (world.run [.undo, .redo]).state.data = world.state.data := by
  rcases State.undo_cases world.registry world.state with ⟨empty, -⟩ | ⟨rest, record, popped, -⟩
  · simp [State.canUndo, empty] at nonempty
  · obtain ⟨data, -, first⟩ := State.chain_concat.mp (popped ▸ invariant.done)
    obtain ⟨after, undone, -, pushed, restored⟩ :=
      State.undo_of_chain wellBehaved reversible popped first
    obtain ⟨final, redone, -, -, replayed⟩ :=
      State.redo_of_chain wellBehaved reversible pushed (restored ▸ first)
    simp only [run, List.foldl, step, onState, undone, redone, stateAfter_ok, replayed]

/-- With nothing to undo, `undo()` does nothing and the next `redo()` still replays the
record at the back of the redo deque, by the forward of its entry with its recorded
arguments and result, which returns. -/
theorem redo_after_empty_undo {world : World D} (reversible : world.registry.Reversible)
    (invariant : State.ReplayInvariant world.registry origin world.state)
    (empty : world.state.mUndo = []) {rest : List State.CommandRecord}
    {record : State.CommandRecord} (popped : world.state.mRedo = rest ++ [record]) :
    (world.step .undo).1 = world ∧
      ∃ entry after, world.registry.getCommand record.commandId = some entry ∧
        entry.forward record.args record.result false { world.state with mRedo := rest } =
          .ok record.result after ∧
        (world.run [.undo, .redo]).state = { after with mUndo := after.mUndo ++ [record] } := by
  have unchanged : (world.step .undo).1 = world := by
    simp [step, onState, State.undo_of_nil empty]
  obtain ⟨final, later⟩ := invariant.undone
  rw [popped, List.reverse_append, List.reverse_singleton, List.singleton_append] at later
  obtain _ | ⟨first, -⟩ := later
  obtain ⟨entry, after, found, replayed, -⟩ :=
    State.firstRun_replays reversible first { world.state with mRedo := rest } rfl
  refine ⟨unchanged, entry, after, found, replayed, ?_⟩
  simp only [run, List.foldl, step, onState, State.undo_of_nil empty, stateAfter_ok,
    State.redo_of_append popped, State.redoRecord_of_forward found replayed]

/-- The replay law for a history that started at `world` and has reached `final`: the
domain data of `final` is the replay of its undo deque from the first state, undoing
every record restores the first state's data, an undo followed by a redo restores the
data when there is something to undo, and with nothing to undo the undo does nothing
and the redo replays. -/
structure ReplayLaw (world final : World D) : Prop where
  replays : ∃ replayed,
    State.replay world.registry final.state.mUndo world.state = .ok () replayed ∧
    replayed.data = final.state.data
  undo_all : ∀ count, final.state.mUndo.length ≤ count →
    (final.run (List.replicate count .undo)).state.data = world.state.data
  undo_redo : final.state.canUndo = true →
    (final.run [.undo, .redo]).state.data = final.state.data
  redo_after_empty_undo : final.state.mUndo = [] → ∀ rest record,
    final.state.mRedo = rest ++ [record] →
    (final.step .undo).1 = final ∧
      ∃ entry after, final.registry.getCommand record.commandId = some entry ∧
        entry.forward record.args record.result false { final.state with mRedo := rest } =
          .ok record.result after ∧
        (final.run [.undo, .redo]).state = { after with mUndo := after.mUndo ++ [record] }

/-- Domain data is the replay of the undo deque: if every registered command keeps the
replay-consistency contract, the replay law holds after any runs that admit a record,
undos and redos from a reachable world with an empty history. -/
theorem domain_data_replays_undo {world : World D} (reachable : Reachable world)
    (fresh : world.state.mUndo = [] ∧ world.state.mRedo = [])
    (reversible : world.registry.Reversible) (calls : List (Call D))
    (historyCalls : ∀ call ∈ calls, call.isHistoryCall) :
    ReplayLaw world (world.run calls) := by
  have wellBehaved := reachable.invariant.wellBehaved
  have start : State.ReplayInvariant world.registry world.state.data world.state :=
    ⟨fresh.1 ▸ .nil _, _, by rw [fresh.2]; exact .nil _⟩
  obtain ⟨same, invariant⟩ := replayInvariant_run wellBehaved reversible start historyCalls
  rw [← same] at wellBehaved reversible invariant
  refine ⟨?_, fun _ => data_of_undos wellBehaved reversible invariant,
    data_of_undo_redo wellBehaved reversible invariant,
    fun empty _ _ popped => redo_after_empty_undo reversible invariant empty popped⟩
  rw [same] at invariant reversible
  exact State.replay_of_chain reversible invariant.done rfl

theorem placeOrder_reversible : (Registration.entry placeOrder).Reversible where
  backward_restores {_ state _ _} forwarded state' same := by
    cases forwarded
    exact ⟨_, _, rfl, by simp only [same]; omega⟩
  forward_replays {_ state _ _} forwarded state' same := by
    cases forwarded
    exact ⟨_, rfl, by simp only [same]⟩
  forward_atomic forwarded := by cases forwarded

theorem foodOrdersWorld_reversible : foodOrdersWorld.registry.Reversible := by
  intro commandId entry found
  have registered : foodOrdersWorld.registry = ⟨[(1, Registration.entry placeOrder)]⟩ := rfl
  simp only [registered, CommandRegistry.getCommand, List.lookup_cons, List.lookup_nil] at found
  split at found
  · cases found
    exact placeOrder_reversible
  · cases found

theorem domain_data_replays_undo_of_placeOrder :
    Reachable foodOrdersWorld ∧
      (foodOrdersWorld.state.mUndo = [] ∧ foodOrdersWorld.state.mRedo = []) ∧
      foodOrdersWorld.registry.Reversible ∧
      (∀ call ∈ ([.runCommand 1 Map.empty true, .undo, .redo] : List (Call Int)),
        call.isHistoryCall) ∧
      ReplayLaw foodOrdersWorld
        (foodOrdersWorld.run [.runCommand 1 Map.empty true, .undo, .redo]) :=
  ⟨reachable_foodOrdersWorld, ⟨rfl, rfl⟩, foodOrdersWorld_reversible, by decide,
    domain_data_replays_undo reachable_foodOrdersWorld ⟨rfl, rfl⟩ foodOrdersWorld_reversible _
      (by decide)⟩

theorem redo_after_undo_of_nothing_replays :
    Reachable foodOrdersWorld ∧
      (foodOrdersWorld.state.mUndo = [] ∧ foodOrdersWorld.state.mRedo = []) ∧
      foodOrdersWorld.registry.Reversible ∧
      (foodOrdersWorld.run [.runCommand 1 Map.empty true, .undo]).state.data = 0 ∧
      ((foodOrdersWorld.run [.runCommand 1 Map.empty true, .undo]).run
        [.undo, .redo]).state.data = 1 :=
  ⟨reachable_foodOrdersWorld, ⟨rfl, rfl⟩, foodOrdersWorld_reversible, rfl, rfl⟩

end World

end Octo
