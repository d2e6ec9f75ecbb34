import OctoCore.State.Run

/-!
# Programs around one state

A program registers command subclasses in the static registry of its state family,
builds a state, and calls its methods, in any order.  `World` is the registry with
one state, `Call` is one such call, and `Reachable` holds of every world a program
can reach from an empty registry and a newly built state.

Over reachable worlds the registry holds only entries built by `Registration`, and
every recorded command has an entry; a command's entry never changes once it is
registered.  So each record in the deques goes back to the run that admitted it, through
an entry the registry still gives for its id, and `undo()` and `redo()` run that entry.
-/

namespace Octo

/-- The registry `_getCommandRegistry()` returns, always the same one, and the state. -/
structure World (D : Type) where
  registry : CommandRegistry D
  state : State D

/-- A call a program makes: a registration by `REGISTER_OCTO_COMMAND`, or a public
method of the state. -/
inductive Call (D : Type) where
  | register (command : CommandClass D)
  | getNextObjectId
  | runCommand (commandId : CommandId) (args : Map) (allowUndo : Bool)
  | undo
  | redo

/-- The fault a call ended with, if it did not return. -/
def faultOf {σ α : Type} : EStateM.Result Fault σ α → Option Fault
  | .ok _ _ => none
  | .error fault _ => some fault

namespace World

variable {D : Type}

/-- Run a method of the state, keeping the state it leaves and whether it raised. -/
def onState {α : Type} (world : World D) (ran : EStateM.Result Fault (State D) α) :
    World D × Option Fault :=
  ({ world with state := stateAfter ran }, faultOf ran)

/-- One call.  A registration that raises leaves the registry as it was. -/
def step (world : World D) : Call D → World D × Option Fault
  | .register command =>
      match world.registry.register command with
      | .ok registry => ({ world with registry }, none)
      | .error exception => (world, some (.exception exception))
  | .getNextObjectId => world.onState (State.getNextObjectId world.state)
  | .runCommand commandId args allowUndo =>
      world.onState (State.runCommand world.registry commandId args allowUndo world.state)
  | .undo => world.onState (State.undo world.registry world.state)
  | .redo => world.onState (State.redo world.registry world.state)

/-- A sequence of calls, each made whether or not the one before raised. -/
def run (world : World D) (calls : List (Call D)) : World D :=
  calls.foldl (fun world call => (world.step call).1) world

/-- The record a call admits to the history: the one `_runCommand` appends when it
returns with `allowUndo`, holding the result map its first forward wrote. -/
def admitted (world : World D) : Call D → Option State.CommandRecord
  | .runCommand commandId args true =>
      match State._runCommand world.registry commandId args true world.state with
      | .ok result _ => some ⟨commandId, args, result⟩
      | .error _ _ => none
  | _ => none

end World

/-- The worlds a program reaches from an empty registry and a newly built state. -/
inductive Reachable {D : Type} : World D → Prop
  | new {sessionId : SessionId} {data : D} {state : State D} :
      State.new sessionId data = .ok state → Reachable ⟨.empty, state⟩
  | step {world : World D} (call : Call D) : Reachable world → Reachable (world.step call).1

/-- A program that has built one state of session `10`, as `BasicState` of the state
tests does, with no data, and registered nothing yet. -/
def sessionTenWorld : World Unit := ⟨.empty, ⟨10, objectIdOf 10 1, [], [], ()⟩⟩

theorem reachable_sessionTenWorld : Reachable sessionTenWorld := .new (State.new_eq 10 ())

/-! ## Invariants of reachable worlds -/

namespace State

variable {D : Type} {registry : CommandRegistry D}

/-- Every record in `m_undo` or `m_redo`. -/
def records (state : State D) : List CommandRecord := state.mUndo ++ state.mRedo

@[simp] theorem stateAfter_runCommand (commandId : CommandId) (args : Map) (allowUndo : Bool)
    (state : State D) :
    stateAfter (runCommand registry commandId args allowUndo state) =
      stateAfter (_runCommand registry commandId args allowUndo state) := by
  unfold runCommand
  split <;> simp_all

/-- `undo()` keeps only records that were already there. -/
theorem records_undo (wellBehaved : registry.WellBehaved) (state : State D) :
    ∀ record ∈ (stateAfter (undo registry state)).records, record ∈ state.records := by
  rcases undo_cases registry state with ⟨-, same⟩ | ⟨rest, last, popped, same⟩
  · simp [same]
  · obtain ⟨undone, redone⟩ := undoRecord_deques wellBehaved last { state with mUndo := rest }
    rw [same]
    intro record member
    rcases redone with redone | redone <;>
      simp only [records, List.mem_append, List.mem_singleton, popped, undone, redone]
        at member ⊢ <;>
      tauto

/-- `redo()` keeps only records that were already there. -/
theorem records_redo (wellBehaved : registry.WellBehaved) (state : State D) :
    ∀ record ∈ (stateAfter (redo registry state)).records, record ∈ state.records := by
  rcases redo_cases registry state with ⟨-, same⟩ | ⟨rest, last, popped, same⟩
  · simp [same]
  · obtain ⟨undone, redone⟩ := redoRecord_deques wellBehaved last { state with mRedo := rest }
    rw [same]
    intro record member
    rcases undone with undone | undone <;>
      simp only [records, List.mem_append, List.mem_singleton, popped, undone, redone]
        at member ⊢ <;>
      tauto

end State

namespace World

variable {D : Type} {world : World D}

/-- Every call but a registration leaves the registry alone, and a registration
changes no lookup that already succeeds. -/
theorem getCommand_step {commandId : CommandId} {entry : Entry D}
    (found : world.registry.getCommand commandId = some entry) (call : Call D) :
    (world.step call).1.registry.getCommand commandId = some entry := by
  cases call with
  | register command =>
      simp only [step]
      split
      · exact (CommandRegistry.registerCommand_spec ‹_›).2.2 _ _ found
      · exact found
  | _ => exact found

theorem getCommand_run {commandId : CommandId} {entry : Entry D}
    (found : world.registry.getCommand commandId = some entry) (calls : List (Call D)) :
    (world.run calls).registry.getCommand commandId = some entry := by
  induction calls generalizing world with
  | nil => exact found
  | cons call calls ih => exact ih (getCommand_step found call)

/-- A call admits a record only as a run with `allowUndo`, whose lookup found an
entry and whose first forward wrote the record's result. -/
theorem admitted_spec {call : Call D} {record : State.CommandRecord}
    (admits : world.admitted call = some record) :
    call = .runCommand record.commandId record.args true ∧
      ∃ entry ran, world.registry.getCommand record.commandId = some entry ∧
        entry.forward record.args Map.empty true world.state = .ok record.result ran := by
  unfold admitted at admits
  split at admits
  · split at admits
    · cases admits
      obtain ⟨entry, ran, found, forwarded, -⟩ := State._runCommand_ok ‹_›
      exact ⟨rfl, entry, ran, found, forwarded⟩
    · cases admits
  · cases admits

/-- Every record a call leaves in the deques was there before, or is the record the
call admitted. -/
theorem records_step (wellBehaved : world.registry.WellBehaved) (call : Call D) :
    ∀ record ∈ (world.step call).1.state.records,
      record ∈ world.state.records ∨ world.admitted call = some record := by
  intro record member
  cases call with
  | register command =>
      simp only [step] at member
      split at member <;> exact .inl member
  | getNextObjectId =>
      simp only [step, onState, State.stateAfter_getNextObjectId] at member
      exact .inl member
  | runCommand commandId args allowUndo =>
      simp only [step, onState, State.stateAfter_runCommand] at member
      cases ran : State._runCommand world.registry commandId args allowUndo world.state with
      | ok result after =>
          rw [ran, stateAfter_ok] at member
          obtain ⟨undone, redone⟩ := State._runCommand_ok_deques wellBehaved ran
          cases allowUndo <;> simp_all [State.records, admitted]
          rcases member with old | rfl
          · exact .inl (.inl old)
          · exact .inr rfl
      | error fault after =>
          rw [ran, stateAfter_error] at member
          obtain ⟨undone, redone⟩ := State._runCommand_error_deques wellBehaved ran
          simp only [State.records, undone, redone] at member
          exact .inl member
  | undo => exact .inl (State.records_undo wellBehaved _ record member)
  | redo => exact .inl (State.records_redo wellBehaved _ record member)

/-- What holds in every reachable world: the registry holds only well-behaved
entries, and every recorded command has an entry. -/
structure Invariant (world : World D) : Prop where
  wellBehaved : world.registry.WellBehaved
  recorded : ∀ record ∈ world.state.records,
    ∃ entry, world.registry.getCommand record.commandId = some entry

theorem Invariant.step (invariant : world.Invariant) (call : Call D) :
    (world.step call).1.Invariant where
  wellBehaved := by
    cases call with
    | register command =>
        simp only [World.step]
        split
        · exact CommandRegistry.register_wellBehaved invariant.wellBehaved ‹_›
        · exact invariant.wellBehaved
    | _ => exact invariant.wellBehaved
  recorded record member := by
    rcases records_step invariant.wellBehaved call record member with old | new
    · obtain ⟨entry, found⟩ := invariant.recorded record old
      exact ⟨entry, getCommand_step found call⟩
    · obtain ⟨-, entry, -, found, -⟩ := admitted_spec new
      exact ⟨entry, getCommand_step found call⟩

end World

theorem Reachable.invariant {D : Type} {world : World D} (reachable : Reachable world) :
    world.Invariant := by
  induction reachable with
  | new built =>
      rw [State.new_eq, Except.ok.injEq] at built
      subst built
      exact ⟨CommandRegistry.empty_wellBehaved, by simp [State.records]⟩
  | step call _ invariant => exact invariant.step call

namespace World

variable {D : Type}

theorem run_append (world : World D) (calls calls' : List (Call D)) :
    world.run (calls ++ calls') = (world.run calls).run calls' :=
  List.foldl_append _ _ _ _

theorem run_append_singleton (world : World D) (calls : List (Call D)) (call : Call D) :
    world.run (calls ++ [call]) = ((world.run calls).step call).1 :=
  world.run_append calls [call]

end World

theorem Reachable.run {D : Type} {world : World D} (reachable : Reachable world)
    (calls : List (Call D)) : Reachable (world.run calls) := by
  induction calls generalizing world with
  | nil => exact reachable
  | cons call calls ih => exact ih (reachable.step call)

namespace World

variable {D : Type}

/-! ## Each record and the run that admitted it -/

/-- Every record in the deques after calls from a reachable world with empty deques was
admitted by one of the calls: a run whose lookup found an entry, whose first forward
wrote the record's result, and whose entry the registry still gives for the record's
id. -/
theorem records_admitted_along {start : World D} (reachable : Reachable start)
    (fresh : start.state.records = []) (calls : List (Call D)) :
    ∀ record ∈ (start.run calls).state.records, ∃ before call after entry ran,
      calls = before ++ call :: after ∧ (start.run before).admitted call = some record ∧
      (start.run before).registry.getCommand record.commandId = some entry ∧
      entry.forward record.args Map.empty true (start.run before).state =
        .ok record.result ran ∧
      (start.run calls).registry.getCommand record.commandId = some entry := by
  induction calls using List.reverseRecOn with
  | nil =>
      intro record member
      simp [run, fresh] at member
  | append_singleton calls call ih =>
      intro record member
      rw [run_append_singleton] at member ⊢
      rcases records_step (reachable.run calls).invariant.wellBehaved call record member with
        old | new
      · obtain ⟨before, call', after, entry, ran, split, admits, found, forwarded, current⟩ :=
          ih record old
        exact ⟨before, call', after ++ [call], entry, ran, by simp [split], admits, found,
          forwarded, getCommand_step current call⟩
      · obtain ⟨-, entry, ran, found, forwarded⟩ := admitted_spec new
        exact ⟨calls, call, [], entry, ran, rfl, new, found, forwarded, getCommand_step found call⟩

/-- `undo()` and `redo()` run the backward or the forward of the entry the registry
gives for their record's id, on the state with the record popped, and end as that code
ends; they never end on a null `Entry*`. -/
structure RunsRecordedEntries (world : World D) : Prop where
  undo_runs : ∀ rest record, world.state.mUndo = rest ++ [record] →
    ∃ entry, world.registry.getCommand record.commandId = some entry ∧
      (∀ result ran, entry.backward record.args record.result
          { world.state with mUndo := rest } = .ok result ran →
        State.undo world.registry world.state =
          .ok () { ran with mRedo := ran.mRedo ++ [{ record with result }] }) ∧
      ∀ fault ran, entry.backward record.args record.result
          { world.state with mUndo := rest } = .error fault ran →
        State.undo world.registry world.state = .error fault ran
  redo_runs : ∀ rest record, world.state.mRedo = rest ++ [record] →
    ∃ entry, world.registry.getCommand record.commandId = some entry ∧
      (∀ result ran, entry.forward record.args record.result false
          { world.state with mRedo := rest } = .ok result ran →
        State.redo world.registry world.state =
          .ok () { ran with mUndo := ran.mUndo ++ [{ record with result }] }) ∧
      ∀ fault ran, entry.forward record.args record.result false
          { world.state with mRedo := rest } = .error fault ran →
        State.redo world.registry world.state = .error fault ran
  undo_not_null : ∀ fault after,
    State.undo world.registry world.state = .error fault after → fault ≠ .nullEntry
  redo_not_null : ∀ fault after,
    State.redo world.registry world.state = .error fault after → fault ≠ .nullEntry

theorem Invariant.runsRecordedEntries {world : World D} (invariant : world.Invariant) :
    world.RunsRecordedEntries where
  undo_runs rest record popped := by
    obtain ⟨entry, found⟩ := invariant.recorded record (by simp [State.records, popped])
    refine ⟨entry, found, fun _ _ reverted => ?_, fun _ _ raised => ?_⟩
    · rw [State.undo_of_append popped, State.undoRecord_of_backward found reverted]
    · rw [State.undo_of_append popped, State.undoRecord_of_backward_error found raised]
  redo_runs rest record popped := by
    obtain ⟨entry, found⟩ := invariant.recorded record (by simp [State.records, popped])
    refine ⟨entry, found, fun _ _ replayed => ?_, fun _ _ raised => ?_⟩
    · rw [State.redo_of_append popped, State.redoRecord_of_forward found replayed]
    · rw [State.redo_of_append popped, State.redoRecord_of_forward_error found raised]
  undo_not_null fault after raised := by
    rcases State.undo_cases world.registry world.state with ⟨-, same⟩ | ⟨rest, record, popped, same⟩
    · rw [same] at raised
      cases raised
    · obtain ⟨entry, found⟩ := invariant.recorded record (by simp [State.records, popped])
      rw [same] at raised
      rcases State.undoRecord_error raised with ⟨missing, -⟩ | ⟨entry', found', reverted⟩
      · simp [found] at missing
      · obtain ⟨exception, rfl⟩ := (invariant.wellBehaved _ entry' found').backward_error reverted
        exact Fault.noConfusion
  redo_not_null fault after raised := by
    rcases State.redo_cases world.registry world.state with ⟨-, same⟩ | ⟨rest, record, popped, same⟩
    · rw [same] at raised
      cases raised
    · obtain ⟨entry, found⟩ := invariant.recorded record (by simp [State.records, popped])
      rw [same] at raised
      rcases State.redoRecord_error raised with ⟨missing, -⟩ | ⟨entry', found', replayed⟩
      · simp [found] at missing
      · obtain ⟨exception, rfl⟩ := (invariant.wellBehaved _ entry' found').forward_error replayed
        exact Fault.noConfusion

/-- What undo and redo find, in the world `calls` reach from `start`: every record of
either deque was admitted by one of the calls through an entry the registry still
gives for its id, and undo and redo run the entry the registry gives. -/
structure AdmittingEntries (start : World D) (calls : List (Call D)) : Prop where
  admitted_by : ∀ record ∈ (start.run calls).state.records, ∃ before call after entry ran,
    calls = before ++ call :: after ∧ (start.run before).admitted call = some record ∧
    (start.run before).registry.getCommand record.commandId = some entry ∧
    entry.forward record.args Map.empty true (start.run before).state =
      .ok record.result ran ∧
    (start.run calls).registry.getCommand record.commandId = some entry
  runs_entries : (start.run calls).RunsRecordedEntries

/-- Undo and redo find the entry each record was admitted with.  Take any calls a
program makes from a newly built state and an empty registry.  Every record then in
either deque was admitted by one of the calls, a run whose lookup found an entry and
whose first forward wrote the record's result, and the registry still gives that entry
for the record's id, whatever was registered since.  `undo()` and `redo()` run the
backward or forward of that entry on their record and never end on a null
`Entry*`. -/
theorem records_find_admitting_entry {sessionId : SessionId} {data : D} {state : State D}
    (built : State.new sessionId data = .ok state) (calls : List (Call D)) :
    AdmittingEntries ⟨.empty, state⟩ calls where
  admitted_by := records_admitted_along (.new built)
    (by cases (State.new_eq sessionId data).symm.trans built; rfl) calls
  runs_entries := ((Reachable.new built).run calls).invariant.runsRecordedEntries

/-! ## A world with records -/

/-- `PlaceOrder` of the state tests, with the orders count of `FoodOrdersState` as the
domain data: forward counts one more order and backward one fewer. -/
def placeOrder : CommandClass Int where
  commandId := 1
  acceptStatePtr _ := true
  forward _ := .read fun orders _ => .write (orders + 1) .done
  backward _ := .read fun orders _ => .write (orders - 1) .done

/-- A new `FoodOrdersState`, with no orders, whose registry holds `PlaceOrder`. -/
def foodOrdersWorld : World Int :=
  ((⟨.empty, ⟨1, objectIdOf 1 1, [], [], 0⟩⟩ : World Int).step (.register placeOrder)).1

theorem reachable_foodOrdersWorld : Reachable foodOrdersWorld :=
  .step _ (.new (State.new_eq 1 0))

/-- Two orders placed and the second undone: one record in each deque. -/
def twoOrdersWorld : World Int :=
  foodOrdersWorld.run [.runCommand 1 Map.empty true, .runCommand 1 Map.empty true, .undo]

theorem reachable_twoOrdersWorld : Reachable twoOrdersWorld :=
  reachable_foodOrdersWorld.run _

theorem records_find_admitting_entry_of_twoOrders :
    @State.new Int 1 0 = .ok ⟨1, objectIdOf 1 1, [], [], 0⟩ ∧
      ((⟨.empty, ⟨1, objectIdOf 1 1, [], [], 0⟩⟩ : World Int).run [.register placeOrder,
        .runCommand 1 Map.empty true, .runCommand 1 Map.empty true, .undo]).state.records.length =
        2 ∧
      AdmittingEntries ⟨.empty, ⟨1, objectIdOf 1 1, [], [], 0⟩⟩ [.register placeOrder,
        .runCommand 1 Map.empty true, .runCommand 1 Map.empty true, .undo] :=
  ⟨State.new_eq 1 0, rfl, records_find_admitting_entry (State.new_eq 1 0) _⟩

end World

end Octo
