import OctoCore.Command.Registry

/-!
# Running, undoing and redoing commands

`State.cpp` runs a command through the registry entry of its id, records it in the
undo deque, and moves records between the undo and redo deques on `undo()` and
`redo()`.  A record's result map is shared with the code that runs on it, so when
`undo()` or `redo()` pushes a record back, it pushes it with the map that code left.

Each operation gets one lemma saying everything it can do, which the later modules
cite instead of unfolding it.
-/

namespace Octo

namespace State

variable {D : Type} (registry : CommandRegistry D)

/-- `canUndo()`. -/
def canUndo (state : State D) : Bool := !state.mUndo.isEmpty

/-- `canRedo()`. -/
def canRedo (state : State D) : Bool := !state.mRedo.isEmpty

/-- `State::_runCommand`: look the command up, run its forward on a fresh result map
that it may write, and, if `allowUndo`, append its record to the undo deque and
clear the redo deque. -/
def _runCommand (commandId : CommandId) (args : Map) (allowUndo : Bool) :
    EStateM Fault (State D) Map := fun state =>
  match registry.getCommand commandId with
  | none => .error (.exception .inapplicableCommand) state
  | some wrappedCommand =>
      match wrappedCommand.forward args Map.empty true state with
      | .error fault state => .error fault state
      | .ok result state =>
          if allowUndo then
            .ok result
              { state with mUndo := state.mUndo ++ [⟨commandId, args, result⟩], mRedo := [] }
          else
            .ok result state

/-- `State::runCommand`: the result map of `_runCommand`, wrapped in a `Result` built
with the immutable constructor. -/
def runCommand (commandId : CommandId) (args : Map) (allowUndo : Bool) :
    EStateM Fault (State D) ResultBase := fun state =>
  match _runCommand registry commandId args allowUndo state with
  | .ok result state => .ok (ResultBase.ofConst result) state
  | .error fault state => .error fault state

/-- What `undo()` does once the record is popped: look its command up, run its
backward, and push the record onto the redo deque. -/
def undoRecord (record : CommandRecord) : EStateM Fault (State D) Unit := fun state =>
  match registry.getCommand record.commandId with
  | none => .error .nullEntry state
  | some wrappedCommand =>
      match wrappedCommand.backward record.args record.result state with
      | .error fault state => .error fault state
      | .ok result state => .ok () { state with mRedo := state.mRedo ++ [{ record with result }] }

/-- `State::undo`: if `canUndo()`, pop the back of the undo deque, then revert it. -/
def undo : EStateM Fault (State D) Unit := fun state =>
  match state.mUndo.getLast? with
  | none => .ok () state
  | some record => undoRecord registry record { state with mUndo := state.mUndo.dropLast }

/-- What `redo()` does once the record is popped: look its command up, replay its
forward with `mutableResult = false`, and push the record onto the undo deque. -/
def redoRecord (record : CommandRecord) : EStateM Fault (State D) Unit := fun state =>
  match registry.getCommand record.commandId with
  | none => .error .nullEntry state
  | some wrappedCommand =>
      match wrappedCommand.forward record.args record.result false state with
      | .error fault state => .error fault state
      | .ok result state => .ok () { state with mUndo := state.mUndo ++ [{ record with result }] }

/-- `State::redo`: if `canRedo()`, pop the back of the redo deque, then replay it. -/
def redo : EStateM Fault (State D) Unit := fun state =>
  match state.mRedo.getLast? with
  | none => .ok () state
  | some record => redoRecord registry record { state with mRedo := state.mRedo.dropLast }

/-! ## What each operation can do -/

section Inversion

variable {registry : CommandRegistry D}

theorem _runCommand_ok {commandId : CommandId} {args : Map} {allowUndo : Bool}
    {state after : State D} {result : Map}
    (returned : _runCommand registry commandId args allowUndo state = .ok result after) :
    ∃ entry ran, registry.getCommand commandId = some entry ∧
      entry.forward args Map.empty true state = .ok result ran ∧
      after = if allowUndo then
        { ran with mUndo := ran.mUndo ++ [⟨commandId, args, result⟩], mRedo := [] } else ran := by
  unfold _runCommand at returned
  split at returned
  · cases returned
  · rename_i entry found
    split at returned
    · cases returned
    · rename_i result' ran forwarded
      refine ⟨entry, ran, found, ?_⟩
      cases allowUndo <;> cases returned <;> exact ⟨forwarded, rfl⟩

theorem _runCommand_error {commandId : CommandId} {args : Map} {allowUndo : Bool}
    {state after : State D} {fault : Fault}
    (raised : _runCommand registry commandId args allowUndo state = .error fault after) :
    (registry.getCommand commandId = none ∧ after = state) ∨
      ∃ entry, registry.getCommand commandId = some entry ∧
        entry.forward args Map.empty true state = .error fault after := by
  unfold _runCommand at raised
  split at raised
  · cases raised; exact .inl ⟨‹_›, rfl⟩
  · rename_i entry found
    split at raised
    · cases raised; exact .inr ⟨entry, found, ‹_›⟩
    · cases allowUndo <;> cases raised

theorem runCommand_ok {commandId : CommandId} {args : Map} {allowUndo : Bool}
    {state after : State D} {result : ResultBase}
    (returned : runCommand registry commandId args allowUndo state = .ok result after) :
    result = ResultBase.ofConst result.mData ∧
      _runCommand registry commandId args allowUndo state = .ok result.mData after := by
  unfold runCommand at returned
  split at returned <;> cases returned
  exact ⟨rfl, ‹_›⟩

theorem runCommand_error {commandId : CommandId} {args : Map} {allowUndo : Bool}
    {state after : State D} {fault : Fault}
    (raised : runCommand registry commandId args allowUndo state = .error fault after) :
    _runCommand registry commandId args allowUndo state = .error fault after := by
  unfold runCommand at raised
  split at raised <;> cases raised
  assumption

/-- A command the state cannot run changes nothing: with no entry for its id, or with
the entry of a command subclass whose `acceptStatePtr` rejects the state, the run
raises `InapplicableCommandException` and leaves the state as it was. -/
theorem runCommand_inapplicable (state : State D) (args : Map) (allowUndo : Bool) :
    (∀ commandId, registry.getCommand commandId = none →
      runCommand registry commandId args allowUndo state =
        .error (.exception .inapplicableCommand) state) ∧
    ∀ command : CommandClass D,
      registry.getCommand command.commandId = some (Registration.entry command) →
      command.acceptStatePtr state.data = false →
      runCommand registry command.commandId args allowUndo state =
        .error (.exception .inapplicableCommand) state := by
  refine ⟨fun commandId missing => by simp [runCommand, _runCommand, missing],
    fun command found rejected => ?_⟩
  simp [runCommand, _runCommand, found, Registration.entry, Registration.forward, rejected]

theorem undo_of_nil {state : State D} (empty : state.mUndo = []) :
    undo registry state = .ok () state := by
  simp [undo, empty]

theorem undo_of_append {state : State D} {rest : List CommandRecord} {record : CommandRecord}
    (last : state.mUndo = rest ++ [record]) :
    undo registry state = undoRecord registry record { state with mUndo := rest } := by
  simp [undo, last]

theorem redo_of_nil {state : State D} (empty : state.mRedo = []) :
    redo registry state = .ok () state := by
  simp [redo, empty]

theorem redo_of_append {state : State D} {rest : List CommandRecord} {record : CommandRecord}
    (last : state.mRedo = rest ++ [record]) :
    redo registry state = redoRecord registry record { state with mRedo := rest } := by
  simp [redo, last]

variable (registry) in
/-- `undo()` does nothing on an empty undo deque, and otherwise pops the last record
and reverts it. -/
theorem undo_cases (state : State D) :
    (state.mUndo = [] ∧ undo registry state = .ok () state) ∨
      ∃ rest record, state.mUndo = rest ++ [record] ∧
        undo registry state = undoRecord registry record { state with mUndo := rest } := by
  rcases List.eq_nil_or_concat state.mUndo with empty | ⟨rest, record, popped⟩
  · exact .inl ⟨empty, undo_of_nil empty⟩
  · rw [List.concat_eq_append] at popped
    exact .inr ⟨rest, record, popped, undo_of_append popped⟩

variable (registry) in
/-- `redo()` does nothing on an empty redo deque, and otherwise pops the last record
and replays it. -/
theorem redo_cases (state : State D) :
    (state.mRedo = [] ∧ redo registry state = .ok () state) ∨
      ∃ rest record, state.mRedo = rest ++ [record] ∧
        redo registry state = redoRecord registry record { state with mRedo := rest } := by
  rcases List.eq_nil_or_concat state.mRedo with empty | ⟨rest, record, popped⟩
  · exact .inl ⟨empty, redo_of_nil empty⟩
  · rw [List.concat_eq_append] at popped
    exact .inr ⟨rest, record, popped, redo_of_append popped⟩

theorem undoRecord_ok {record : CommandRecord} {state after : State D}
    (returned : undoRecord registry record state = .ok () after) :
    ∃ entry result ran, registry.getCommand record.commandId = some entry ∧
      entry.backward record.args record.result state = .ok result ran ∧
      after = { ran with mRedo := ran.mRedo ++ [{ record with result }] } := by
  unfold undoRecord at returned
  split at returned
  · cases returned
  · split at returned
    · cases returned
    · cases returned; exact ⟨_, _, _, ‹_›, ‹_›, rfl⟩

theorem undoRecord_error {record : CommandRecord} {state after : State D} {fault : Fault}
    (raised : undoRecord registry record state = .error fault after) :
    (registry.getCommand record.commandId = none ∧ fault = .nullEntry ∧ after = state) ∨
      ∃ entry, registry.getCommand record.commandId = some entry ∧
        entry.backward record.args record.result state = .error fault after := by
  unfold undoRecord at raised
  split at raised
  · cases raised; exact .inl ⟨‹_›, rfl, rfl⟩
  · split at raised
    · cases raised; exact .inr ⟨_, ‹_›, ‹_›⟩
    · cases raised

theorem redoRecord_ok {record : CommandRecord} {state after : State D}
    (returned : redoRecord registry record state = .ok () after) :
    ∃ entry result ran, registry.getCommand record.commandId = some entry ∧
      entry.forward record.args record.result false state = .ok result ran ∧
      after = { ran with mUndo := ran.mUndo ++ [{ record with result }] } := by
  unfold redoRecord at returned
  split at returned
  · cases returned
  · split at returned
    · cases returned
    · cases returned; exact ⟨_, _, _, ‹_›, ‹_›, rfl⟩

theorem redoRecord_error {record : CommandRecord} {state after : State D} {fault : Fault}
    (raised : redoRecord registry record state = .error fault after) :
    (registry.getCommand record.commandId = none ∧ fault = .nullEntry ∧ after = state) ∨
      ∃ entry, registry.getCommand record.commandId = some entry ∧
        entry.forward record.args record.result false state = .error fault after := by
  unfold redoRecord at raised
  split at raised
  · cases raised; exact .inl ⟨‹_›, rfl, rfl⟩
  · split at raised
    · cases raised; exact .inr ⟨_, ‹_›, ‹_›⟩
    · cases raised

theorem undoRecord_of_backward {record : CommandRecord} {entry : Entry D}
    {state after : State D} {result : Map}
    (found : registry.getCommand record.commandId = some entry)
    (reverted : entry.backward record.args record.result state = .ok result after) :
    undoRecord registry record state =
      .ok () { after with mRedo := after.mRedo ++ [{ record with result }] } := by
  simp [undoRecord, found, reverted]

theorem redoRecord_of_forward {record : CommandRecord} {entry : Entry D}
    {state after : State D} {result : Map}
    (found : registry.getCommand record.commandId = some entry)
    (replayed : entry.forward record.args record.result false state = .ok result after) :
    redoRecord registry record state =
      .ok () { after with mUndo := after.mUndo ++ [{ record with result }] } := by
  simp [redoRecord, found, replayed]

theorem undoRecord_of_backward_error {record : CommandRecord} {entry : Entry D}
    {state after : State D} {fault : Fault}
    (found : registry.getCommand record.commandId = some entry)
    (raised : entry.backward record.args record.result state = .error fault after) :
    undoRecord registry record state = .error fault after := by
  simp [undoRecord, found, raised]

theorem redoRecord_of_forward_error {record : CommandRecord} {entry : Entry D}
    {state after : State D} {fault : Fault}
    (found : registry.getCommand record.commandId = some entry)
    (raised : entry.forward record.args record.result false state = .error fault after) :
    redoRecord registry record state = .error fault after := by
  simp [redoRecord, found, raised]

end Inversion

/-! ## The deques after each operation

With a registry of well-behaved entries, the effect of every operation on the two
deques is exact, whatever the command code does. -/

section Deques

variable {registry : CommandRegistry D} (wellBehaved : registry.WellBehaved)
include wellBehaved

theorem _runCommand_ok_deques {commandId : CommandId} {args : Map} {allowUndo : Bool}
    {state after : State D} {result : Map}
    (returned : _runCommand registry commandId args allowUndo state = .ok result after) :
    after.mUndo = (if allowUndo then state.mUndo ++ [⟨commandId, args, result⟩] else state.mUndo) ∧
      after.mRedo = (if allowUndo then [] else state.mRedo) := by
  obtain ⟨entry, ran, found, forwarded, rfl⟩ := _runCommand_ok returned
  have history := (wellBehaved commandId entry found).forward_history args Map.empty true state
  rw [forwarded, stateAfter_ok] at history
  cases allowUndo <;> simp [history]

theorem _runCommand_error_deques {commandId : CommandId} {args : Map} {allowUndo : Bool}
    {state after : State D} {fault : Fault}
    (raised : _runCommand registry commandId args allowUndo state = .error fault after) :
    after.mUndo = state.mUndo ∧ after.mRedo = state.mRedo := by
  rcases _runCommand_error raised with ⟨-, rfl⟩ | ⟨entry, found, forwarded⟩
  · exact ⟨rfl, rfl⟩
  · have history := (wellBehaved commandId entry found).forward_history args Map.empty true state
    rwa [forwarded, stateAfter_error] at history

theorem undoRecord_ok_deques {record : CommandRecord} {state after : State D}
    (returned : undoRecord registry record state = .ok () after) :
    after.mUndo = state.mUndo ∧ after.mRedo = state.mRedo ++ [record] := by
  obtain ⟨entry, result, ran, found, reverted, rfl⟩ := undoRecord_ok returned
  have behaved := wellBehaved _ entry found
  have history := behaved.backward_history record.args record.result state
  rw [reverted, stateAfter_ok] at history
  simp [history, behaved.backward_result reverted]

theorem undoRecord_error_deques {record : CommandRecord} {state after : State D} {fault : Fault}
    (raised : undoRecord registry record state = .error fault after) :
    after.mUndo = state.mUndo ∧ after.mRedo = state.mRedo := by
  rcases undoRecord_error raised with ⟨-, -, rfl⟩ | ⟨entry, found, reverted⟩
  · exact ⟨rfl, rfl⟩
  · have history := (wellBehaved _ entry found).backward_history record.args record.result state
    rwa [reverted, stateAfter_error] at history

theorem redoRecord_ok_deques {record : CommandRecord} {state after : State D}
    (returned : redoRecord registry record state = .ok () after) :
    after.mUndo = state.mUndo ++ [record] ∧ after.mRedo = state.mRedo := by
  obtain ⟨entry, result, ran, found, replayed, rfl⟩ := redoRecord_ok returned
  have behaved := wellBehaved _ entry found
  have history := behaved.forward_history record.args record.result false state
  rw [replayed, stateAfter_ok] at history
  simp [history, behaved.forward_result replayed]

theorem redoRecord_error_deques {record : CommandRecord} {state after : State D} {fault : Fault}
    (raised : redoRecord registry record state = .error fault after) :
    after.mUndo = state.mUndo ∧ after.mRedo = state.mRedo := by
  rcases redoRecord_error raised with ⟨-, -, rfl⟩ | ⟨entry, found, replayed⟩
  · exact ⟨rfl, rfl⟩
  · have history :=
      (wellBehaved _ entry found).forward_history record.args record.result false state
    rwa [replayed, stateAfter_error] at history

/-- Reverting a record leaves the undo deque alone and pushes the record onto the redo
deque if the revert returns. -/
theorem undoRecord_deques (record : CommandRecord) (state : State D) :
    (stateAfter (undoRecord registry record state)).mUndo = state.mUndo ∧
      ((stateAfter (undoRecord registry record state)).mRedo = state.mRedo ++ [record] ∨
        (stateAfter (undoRecord registry record state)).mRedo = state.mRedo) := by
  cases reverted : undoRecord registry record state with
  | ok _ after =>
      obtain ⟨undone, redone⟩ := undoRecord_ok_deques wellBehaved reverted
      exact ⟨undone, .inl redone⟩
  | error fault after =>
      obtain ⟨undone, redone⟩ := undoRecord_error_deques wellBehaved reverted
      exact ⟨undone, .inr redone⟩

/-- Replaying a record leaves the redo deque alone and pushes the record onto the undo
deque if the replay returns. -/
theorem redoRecord_deques (record : CommandRecord) (state : State D) :
    ((stateAfter (redoRecord registry record state)).mUndo = state.mUndo ++ [record] ∨
        (stateAfter (redoRecord registry record state)).mUndo = state.mUndo) ∧
      (stateAfter (redoRecord registry record state)).mRedo = state.mRedo := by
  cases replayed : redoRecord registry record state with
  | ok _ after =>
      obtain ⟨undone, redone⟩ := redoRecord_ok_deques wellBehaved replayed
      exact ⟨.inl undone, redone⟩
  | error fault after =>
      obtain ⟨undone, redone⟩ := redoRecord_error_deques wellBehaved replayed
      exact ⟨.inr undone, redone⟩

end Deques

end State

end Octo
