import OctoCore.State.World

/-!
# The two deques as one linear history

`m_undo` and `m_redo` together stand for one linear history with a cursor: the undo
deque holds the records before the cursor, oldest first, and the redo deque the records
after it, the next one to redo at its back.  `History` is that abstract history with
its moves, and `State.history` reads it off a state.

With a registry of well-behaved entries every call moves the abstract history by one
move, fixed by the call, by whether it raised and by the record it admitted, and a run
that raises leaves both deques as they were.  A revert or replay that raises is
different: `undo()` and `redo()` pop the record before its command runs and push it
only when the command returns, so the record is then in neither deque.  No move writes
a record, so along any run every recorded result keeps the map its first forward
wrote.
-/

namespace Octo

/-- A linear history of records with a cursor: the records before the cursor are done,
those from the cursor on were undone and can be redone. -/
@[ext] structure History where
  log : List State.CommandRecord
  cursor : Nat
  cursor_le : cursor ≤ log.length

namespace History

/-- Push a new record: the undone records are dropped and the record goes at the
cursor. -/
def push (history : History) (record : State.CommandRecord) : History where
  log := history.log.take history.cursor ++ [record]
  cursor := history.cursor + 1
  cursor_le := by simp [Nat.min_eq_left history.cursor_le]

/-- Step back over the last done record, if there is one. -/
def undo (history : History) : History where
  log := history.log
  cursor := history.cursor - 1
  cursor_le := Nat.le_trans (Nat.sub_le _ _) history.cursor_le

/-- Step forward over the next undone record, if there is one. -/
def redo (history : History) : History where
  log := history.log
  cursor := min (history.cursor + 1) history.log.length
  cursor_le := Nat.min_le_right _ _

/-- Lose the last done record and step back over it. -/
def dropDone (history : History) : History where
  log := history.log.eraseIdx (history.cursor - 1)
  cursor := history.cursor - 1
  cursor_le := Nat.le_trans (Nat.sub_le_sub_right history.cursor_le 1) (List.le_length_eraseIdx _ _)

/-- Lose the next undone record. -/
def dropUndone (history : History) : History where
  log := history.log.eraseIdx history.cursor
  cursor := history.cursor
  cursor_le := by
    have := history.cursor_le
    rw [List.length_eraseIdx]
    split <;> omega

/-- A move of the history.  The two losses are what an `undo()` whose revert raises
and a `redo()` whose replay raises do. -/
inductive Move where
  | stay
  | push (record : State.CommandRecord)
  | undo
  | redo
  | dropDone
  | dropUndone

/-- Make a move.  No move writes a record: a push puts its record at the cursor after
the done ones, a loss erases one record, and the other moves shift only the cursor. -/
def apply (history : History) : Move → History
  | .stay => history
  | .push record => history.push record
  | .undo => history.undo
  | .redo => history.redo
  | .dropDone => history.dropDone
  | .dropUndone => history.dropUndone

end History

namespace State

variable {D : Type}

/-- The history the deques stand for: the undo deque, then the redo deque from its
back, with the cursor between them. -/
def history (state : State D) : History where
  log := state.mUndo ++ state.mRedo.reverse
  cursor := state.mUndo.length
  cursor_le := by simp

section Abstraction

variable {state after : State D} {rest : List CommandRecord} {record : CommandRecord}

theorem history_of_deques (undone : after.mUndo = state.mUndo)
    (redone : after.mRedo = state.mRedo) :
    after.history = state.history := by
  ext <;> simp [history, undone, redone]

theorem history_push (undone : after.mUndo = state.mUndo ++ [record]) (redone : after.mRedo = []) :
    after.history = state.history.push record := by
  ext <;> simp [history, History.push, undone, redone]

theorem history_undo (popped : state.mUndo = rest ++ [record]) (undone : after.mUndo = rest)
    (redone : after.mRedo = state.mRedo ++ [record]) : after.history = state.history.undo := by
  ext <;> simp [history, History.undo, popped, undone, redone]

theorem history_redo (popped : state.mRedo = rest ++ [record])
    (undone : after.mUndo = state.mUndo ++ [record]) (redone : after.mRedo = rest) :
    after.history = state.history.redo := by
  ext <;> simp [history, History.redo, popped, undone, redone]

theorem history_dropDone (popped : state.mUndo = rest ++ [record]) (undone : after.mUndo = rest)
    (redone : after.mRedo = state.mRedo) : after.history = state.history.dropDone := by
  ext <;> simp [history, History.dropDone, popped, undone, redone,
    List.eraseIdx_append_of_length_le]

theorem history_dropUndone (popped : state.mRedo = rest ++ [record])
    (undone : after.mUndo = state.mUndo) (redone : after.mRedo = rest) :
    after.history = state.history.dropUndone := by
  ext <;> simp [history, History.dropUndone, popped, undone, redone,
    List.eraseIdx_append_of_length_le]

theorem history_log_before_cursor (popped : state.mUndo = rest ++ [record]) :
    state.history.log[state.history.cursor - 1]? = some record := by
  simp [history, popped, List.getElem_append_right]

theorem history_log_at_cursor (popped : state.mRedo = rest ++ [record]) :
    state.history.log[state.history.cursor]? = some record := by
  simp [history, popped, List.getElem_append_right]

theorem exists_undo_of_cursor_pos (done : 0 < state.history.cursor) :
    ∃ rest record, state.mUndo = rest ++ [record] := by
  rcases List.eq_nil_or_concat state.mUndo with empty | ⟨rest, record, popped⟩
  · simp [history, empty] at done
  · exact ⟨rest, record, by simpa using popped⟩

theorem exists_redo_of_cursor_lt (undone : state.history.cursor < state.history.log.length) :
    ∃ rest record, state.mRedo = rest ++ [record] := by
  rcases List.eq_nil_or_concat state.mRedo with empty | ⟨rest, record, popped⟩
  · simp [history, empty] at undone
  · exact ⟨rest, record, by simpa using popped⟩

theorem mUndo_eq_nil_of_cursor (start : state.history.cursor = 0) : state.mUndo = [] :=
  List.length_eq_zero.mp start

theorem mRedo_eq_nil_of_cursor (finish : state.history.cursor = state.history.log.length) :
    state.mRedo = [] := by
  simpa [history] using finish

theorem history_undo_of_nil (empty : state.mUndo = []) : state.history.undo = state.history := by
  ext <;> simp [history, History.undo, empty]

theorem history_redo_of_nil (empty : state.mRedo = []) : state.history.redo = state.history := by
  ext <;> simp [history, History.redo, empty]

end Abstraction

/-! ## Each operation as a move of the history -/

section Moves

variable {registry : CommandRegistry D} (wellBehaved : registry.WellBehaved)
include wellBehaved

theorem runCommand_admits {commandId : CommandId} {args : Map} {state after : State D}
    {result : ResultBase}
    (returned : runCommand registry commandId args true state = .ok result after) :
    after.history = state.history.push ⟨commandId, args, result.mData⟩ ∧ after.canRedo = false := by
  obtain ⟨undone, redone⟩ := _runCommand_ok_deques wellBehaved (runCommand_ok returned).2
  simp only [if_true] at undone redone
  exact ⟨history_push undone redone, by simp [canRedo, redone]⟩

theorem runCommand_keeps_history {commandId : CommandId} {args : Map} {state after : State D}
    {result : ResultBase}
    (returned : runCommand registry commandId args false state = .ok result after) :
    after.history = state.history := by
  obtain ⟨undone, redone⟩ := _runCommand_ok_deques wellBehaved (runCommand_ok returned).2
  exact history_of_deques undone redone

theorem runCommand_error_deques {commandId : CommandId} {args : Map} {allowUndo : Bool}
    {state after : State D} {fault : Fault}
    (raised : runCommand registry commandId args allowUndo state = .error fault after) :
    after.mUndo = state.mUndo ∧ after.mRedo = state.mRedo :=
  _runCommand_error_deques wellBehaved (runCommand_error raised)

/-- `undo()` with something to undo, whose revert returns: it ran the backward of the
entry of the record before the cursor, with that record's own arguments and result, and
it returns with the record pushed onto the redo deque, the log unchanged and the cursor
one back. -/
theorem undo_reverts {state ran : State D} {record : CommandRecord} {entry : Entry D}
    {result : Map} (done : 0 < state.history.cursor)
    (located : state.history.log[state.history.cursor - 1]? = some record)
    (found : registry.getCommand record.commandId = some entry)
    (reverted : entry.backward record.args record.result
      { state with mUndo := state.mUndo.dropLast } = .ok result ran) :
    undo registry state = .ok () { ran with mRedo := ran.mRedo ++ [record] } ∧
      ({ ran with mRedo := ran.mRedo ++ [record] } : State D).history = state.history.undo := by
  obtain ⟨rest, last, popped⟩ := exists_undo_of_cursor_pos done
  rw [history_log_before_cursor popped, Option.some.injEq] at located
  subst located
  obtain rfl := (wellBehaved _ entry found).backward_result reverted
  rw [popped, List.dropLast_concat] at reverted
  have returned := undoRecord_of_backward found reverted
  obtain ⟨undone, redone⟩ := undoRecord_ok_deques wellBehaved returned
  exact ⟨by rw [undo_of_append popped, returned], history_undo popped undone redone⟩

/-- `redo()` with something to redo, whose replay returns: it ran the forward of the
entry of the record at the cursor, with that record's own arguments and result and
`mutableResult = false`, and it returns with the record pushed onto the undo deque, the
log unchanged and the cursor one on. -/
theorem redo_replays {state ran : State D} {record : CommandRecord} {entry : Entry D}
    {result : Map} (undone : state.history.cursor < state.history.log.length)
    (located : state.history.log[state.history.cursor]? = some record)
    (found : registry.getCommand record.commandId = some entry)
    (replayed : entry.forward record.args record.result false
      { state with mRedo := state.mRedo.dropLast } = .ok result ran) :
    redo registry state = .ok () { ran with mUndo := ran.mUndo ++ [record] } ∧
      ({ ran with mUndo := ran.mUndo ++ [record] } : State D).history = state.history.redo := by
  obtain ⟨rest, last, popped⟩ := exists_redo_of_cursor_lt undone
  rw [history_log_at_cursor popped, Option.some.injEq] at located
  subst located
  obtain rfl := (wellBehaved _ entry found).forward_result replayed
  rw [popped, List.dropLast_concat] at replayed
  have returned := redoRecord_of_forward found replayed
  obtain ⟨undone, redone⟩ := redoRecord_ok_deques wellBehaved returned
  exact ⟨by rw [redo_of_append popped, returned], history_redo popped undone redone⟩

theorem mUndo_undo (state : State D) :
    (stateAfter (undo registry state)).mUndo = state.mUndo.dropLast := by
  rcases undo_cases registry state with ⟨empty, same⟩ | ⟨rest, record, popped, same⟩
  · simp [same, empty]
  · rw [same, popped, List.dropLast_concat]
    exact (undoRecord_deques wellBehaved record _).1

theorem undo_error_deques {state after : State D} {fault : Fault}
    (raised : undo registry state = .error fault after) :
    after.mUndo = state.mUndo.dropLast ∧ after.mRedo = state.mRedo := by
  rcases undo_cases registry state with ⟨-, same⟩ | ⟨rest, record, popped, same⟩
  · rw [same] at raised
    cases raised
  · rw [same] at raised
    rw [popped, List.dropLast_concat]
    exact undoRecord_error_deques wellBehaved raised

theorem redo_error_deques {state after : State D} {fault : Fault}
    (raised : redo registry state = .error fault after) :
    after.mRedo = state.mRedo.dropLast ∧ after.mUndo = state.mUndo := by
  rcases redo_cases registry state with ⟨-, same⟩ | ⟨rest, record, popped, same⟩
  · rw [same] at raised
    cases raised
  · rw [same] at raised
    rw [popped, List.dropLast_concat]
    exact (redoRecord_error_deques wellBehaved raised).symm

theorem history_of_undo_ok {state after : State D} (returned : undo registry state = .ok () after) :
    after.history = state.history.undo := by
  rcases undo_cases registry state with ⟨empty, same⟩ | ⟨rest, record, popped, same⟩
  · rw [same] at returned
    cases returned
    exact (history_undo_of_nil empty).symm
  · rw [same] at returned
    obtain ⟨undone, redone⟩ := undoRecord_ok_deques wellBehaved returned
    exact history_undo popped undone redone

theorem history_of_undo_error {state after : State D} {fault : Fault}
    (raised : undo registry state = .error fault after) :
    after.history = state.history.dropDone := by
  rcases undo_cases registry state with ⟨-, same⟩ | ⟨rest, record, popped, same⟩
  · rw [same] at raised
    cases raised
  · rw [same] at raised
    obtain ⟨undone, redone⟩ := undoRecord_error_deques wellBehaved raised
    exact history_dropDone popped undone redone

theorem history_of_redo_ok {state after : State D} (returned : redo registry state = .ok () after) :
    after.history = state.history.redo := by
  rcases redo_cases registry state with ⟨empty, same⟩ | ⟨rest, record, popped, same⟩
  · rw [same] at returned
    cases returned
    exact (history_redo_of_nil empty).symm
  · rw [same] at returned
    obtain ⟨undone, redone⟩ := redoRecord_ok_deques wellBehaved returned
    exact history_redo popped undone redone

theorem history_of_redo_error {state after : State D} {fault : Fault}
    (raised : redo registry state = .error fault after) :
    after.history = state.history.dropUndone := by
  rcases redo_cases registry state with ⟨-, same⟩ | ⟨rest, record, popped, same⟩
  · rw [same] at raised
    cases raised
  · rw [same] at raised
    obtain ⟨undone, redone⟩ := redoRecord_error_deques wellBehaved raised
    exact history_dropUndone popped undone redone

end Moves

end State

namespace World

variable {D : Type}

/-- The move of the history a call makes, fixed by the call, by whether it raised, and
by the record it admitted. -/
def moveOf (world : World D) : Call D → History.Move
  | .undo =>
      match (world.step .undo).2 with
      | none => .undo
      | some _ => .dropDone
  | .redo =>
      match (world.step .redo).2 with
      | none => .redo
      | some _ => .dropUndone
  | call =>
      match world.admitted call with
      | some record => .push record
      | none => .stay

/-- The moves the calls of a run make, in order. -/
def movesAlong : World D → List (Call D) → List History.Move
  | _, [] => []
  | world, call :: calls => world.moveOf call :: movesAlong (world.step call).1 calls

theorem moveOf_runCommand (world : World D) (commandId : CommandId) (args : Map)
    (allowUndo : Bool) :
    world.moveOf (.runCommand commandId args allowUndo) =
      match world.admitted (.runCommand commandId args allowUndo) with
      | some record => .push record
      | none => .stay := rfl

/-- One call moves the history by the move it makes. -/
theorem history_step {world : World D} (wellBehaved : world.registry.WellBehaved)
    (call : Call D) :
    (world.step call).1.state.history = world.state.history.apply (world.moveOf call) := by
  cases call with
  | register command =>
      simp only [step]
      split <;> rfl
  | getNextObjectId =>
      simp only [step, onState, State.stateAfter_getNextObjectId]
      rfl
  | runCommand commandId args allowUndo =>
      simp only [step, onState, moveOf_runCommand]
      cases ran : State.runCommand world.registry commandId args allowUndo world.state with
      | ok result after =>
          cases allowUndo with
          | false => exact State.runCommand_keeps_history wellBehaved ran
          | true =>
              have admits : world.admitted (.runCommand commandId args true) =
                  some ⟨commandId, args, result.mData⟩ := by
                simp [admitted, (State.runCommand_ok ran).2]
              rw [admits]
              exact (State.runCommand_admits wellBehaved ran).1
      | error fault after =>
          have admits : world.admitted (.runCommand commandId args allowUndo) = none := by
            cases allowUndo <;> simp [admitted, State.runCommand_error ran]
          obtain ⟨undone, redone⟩ := State.runCommand_error_deques wellBehaved ran
          rw [admits]
          exact State.history_of_deques undone redone
  | undo =>
      cases ran : State.undo world.registry world.state with
      | ok _ after =>
          simpa [moveOf, step, onState, ran, faultOf, History.apply] using
            State.history_of_undo_ok wellBehaved ran
      | error fault after =>
          simpa [moveOf, step, onState, ran, faultOf, History.apply] using
            State.history_of_undo_error wellBehaved ran
  | redo =>
      cases ran : State.redo world.registry world.state with
      | ok _ after =>
          simpa [moveOf, step, onState, ran, faultOf, History.apply] using
            State.history_of_redo_ok wellBehaved ran
      | error fault after =>
          simpa [moveOf, step, onState, ran, faultOf, History.apply] using
            State.history_of_redo_error wellBehaved ran

/-- Along a run the history makes the moves the calls make, one after the other. -/
theorem history_run {world : World D} (reachable : Reachable world) (calls : List (Call D)) :
    (world.run calls).state.history =
      (world.movesAlong calls).foldl History.apply world.state.history := by
  induction calls generalizing world with
  | nil => rfl
  | cons call calls ih =>
      rw [movesAlong, List.foldl_cons, ← history_step reachable.invariant.wellBehaved call]
      exact ih (reachable.step call)

/-- What each operation of the state does to the history its deques stand for. -/
structure RefinesHistory (world : World D) : Prop where
  run_admits : ∀ commandId args result after,
    State.runCommand world.registry commandId args true world.state = .ok result after →
      after.history = world.state.history.push ⟨commandId, args, result.mData⟩ ∧
        after.canRedo = false
  run_keeps : ∀ commandId args result after,
    State.runCommand world.registry commandId args false world.state = .ok result after →
      after.history = world.state.history
  run_raises : ∀ commandId args allowUndo fault after,
    State.runCommand world.registry commandId args allowUndo world.state = .error fault after →
      after.mUndo = world.state.mUndo ∧ after.mRedo = world.state.mRedo
  undo_reverts : ∀ record entry result ran, 0 < world.state.history.cursor →
    world.state.history.log[world.state.history.cursor - 1]? = some record →
    world.registry.getCommand record.commandId = some entry →
    entry.backward record.args record.result
      { world.state with mUndo := world.state.mUndo.dropLast } = .ok result ran →
    State.undo world.registry world.state = .ok () { ran with mRedo := ran.mRedo ++ [record] } ∧
      ({ ran with mRedo := ran.mRedo ++ [record] } : State D).history = world.state.history.undo
  redo_replays : ∀ record entry result ran,
    world.state.history.cursor < world.state.history.log.length →
    world.state.history.log[world.state.history.cursor]? = some record →
    world.registry.getCommand record.commandId = some entry →
    entry.forward record.args record.result false
      { world.state with mRedo := world.state.mRedo.dropLast } = .ok result ran →
    State.redo world.registry world.state = .ok () { ran with mUndo := ran.mUndo ++ [record] } ∧
      ({ ran with mUndo := ran.mUndo ++ [record] } : State D).history = world.state.history.redo
  undo_at_start : world.state.history.cursor = 0 →
    State.undo world.registry world.state = .ok () world.state
  redo_at_end : world.state.history.cursor = world.state.history.log.length →
    State.redo world.registry world.state = .ok () world.state

/-- The deques refine a linear history with a cursor: in every reachable world each
operation moves the history as the matching move of `History` does, and a run that
raises leaves the deques alone.  An undo or redo whose revert or replay of the record
next to the cursor returns, returns itself, having run that record's own entry. -/
theorem deques_refine_history {world : World D} (reachable : Reachable world) :
    world.RefinesHistory where
  run_admits _ _ _ _ := State.runCommand_admits reachable.invariant.wellBehaved
  run_keeps _ _ _ _ := State.runCommand_keeps_history reachable.invariant.wellBehaved
  run_raises _ _ _ _ _ := State.runCommand_error_deques reachable.invariant.wellBehaved
  undo_reverts _ _ _ _ := State.undo_reverts reachable.invariant.wellBehaved
  redo_replays _ _ _ _ := State.redo_replays reachable.invariant.wellBehaved
  undo_at_start start := State.undo_of_nil (State.mUndo_eq_nil_of_cursor start)
  redo_at_end finish := State.redo_of_nil (State.mRedo_eq_nil_of_cursor finish)

theorem deques_refine_history_of_twoOrders :
    Reachable twoOrdersWorld ∧ 0 < twoOrdersWorld.state.history.cursor ∧
      twoOrdersWorld.state.history.cursor < twoOrdersWorld.state.history.log.length ∧
      twoOrdersWorld.RefinesHistory :=
  ⟨reachable_twoOrdersWorld, by decide, by decide, deques_refine_history reachable_twoOrdersWorld⟩

/-- Recorded results never change.  Along any calls from a reachable world the history
makes exactly the moves the calls make, each fixed by the call, by whether it raised and
by the record it admitted, which holds the result map its first forward wrote.  No move
writes a record, so every record keeps its place in the log, shifted only past a lost
one, and its result.  The `Result` that `runCommand` hands back refuses every write. -/
theorem recorded_results_immutable {world : World D} (reachable : Reachable world)
    (calls : List (Call D)) :
    (world.run calls).state.history =
        (world.movesAlong calls).foldl History.apply world.state.history ∧
      ∀ commandId args allowUndo result after,
        State.runCommand world.registry commandId args allowUndo world.state = .ok result after →
        ∀ fieldId type value,
          result.setResultField fieldId type value = .error .commandResultMisuse := by
  refine ⟨history_run reachable calls, fun commandId args allowUndo result after returned => ?_⟩
  rw [(State.runCommand_ok returned).1]
  exact ResultBase.setResultField_of_immutable rfl

theorem recorded_results_immutable_of_twoOrders :
    Reachable twoOrdersWorld ∧
      ((twoOrdersWorld.run [.undo, .redo, .runCommand 1 Map.empty true]).state.history =
          (twoOrdersWorld.movesAlong [.undo, .redo, .runCommand 1 Map.empty true]).foldl
            History.apply twoOrdersWorld.state.history ∧
        ∀ commandId args allowUndo result after,
          State.runCommand twoOrdersWorld.registry commandId args allowUndo twoOrdersWorld.state =
            .ok result after →
          ∀ fieldId type value,
            result.setResultField fieldId type value = .error .commandResultMisuse) :=
  ⟨reachable_twoOrdersWorld,
    recorded_results_immutable reachable_twoOrdersWorld
      [.undo, .redo, .runCommand 1 Map.empty true]⟩

/-- A revert or replay that raises loses its record: a raising `undo()` leaves the
undo deque without its last record and the redo deque as it was, and a raising
`redo()` the other way round. -/
theorem failed_undo_redo_drop_record {world : World D} (reachable : Reachable world) :
    (∀ fault after, State.undo world.registry world.state = .error fault after →
      after.mUndo = world.state.mUndo.dropLast ∧ after.mRedo = world.state.mRedo) ∧
    (∀ fault after, State.redo world.registry world.state = .error fault after →
      after.mRedo = world.state.mRedo.dropLast ∧ after.mUndo = world.state.mUndo) :=
  ⟨fun _ _ => State.undo_error_deques reachable.invariant.wellBehaved,
    fun _ _ => State.redo_error_deques reachable.invariant.wellBehaved⟩

/-- A command whose backward raises, as `InsertEmployeesCommand` of the state tests
does. -/
def irreversibleCommand : CommandClass Unit where
  commandId := 1
  acceptStatePtr _ := true
  forward _ := .done
  backward _ := .raise (.stateException "Not implemented")

/-- The world after registering that command and running it once. -/
def irreversibleWorld : World Unit :=
  ((sessionTenWorld.step (.register irreversibleCommand)).1.step (.runCommand 1 Map.empty true)).1

theorem undo_of_irreversible_loses_record :
    Reachable irreversibleWorld ∧
      irreversibleWorld.state.mUndo = [⟨1, Map.empty, Map.empty⟩] ∧
      irreversibleWorld.state.mRedo = [] ∧
      State.undo irreversibleWorld.registry irreversibleWorld.state =
        .error (.exception (.stateException "Not implemented"))
          { irreversibleWorld.state with mUndo := [] } :=
  ⟨.step _ (.step _ reachable_sessionTenWorld), rfl, rfl, rfl⟩

/-- A command whose forward writes a result field, as `InsertEmployeesCommand` does
with `set_employee_ids`, so that its replay raises. -/
def resultWritingCommand : CommandClass Unit where
  commandId := 2
  acceptStatePtr _ := true
  forward _ := .setResultField 1 .int64 (0 : BitVec 64) .done
  backward _ := .done

/-- After the irreversible command, the result-writing one run and undone: the undo
deque ends with a record whose revert raises, the redo deque with one whose replay
raises. -/
def stuckWorld : World Unit :=
  irreversibleWorld.run [.register resultWritingCommand, .runCommand 2 Map.empty true, .undo]

theorem failed_undo_redo_drop_record_of_stuck :
    Reachable stuckWorld ∧
      (∃ fault after, State.undo stuckWorld.registry stuckWorld.state = .error fault after) ∧
      (∃ fault after, State.redo stuckWorld.registry stuckWorld.state = .error fault after) ∧
      ((∀ fault after, State.undo stuckWorld.registry stuckWorld.state = .error fault after →
        after.mUndo = stuckWorld.state.mUndo.dropLast ∧ after.mRedo = stuckWorld.state.mRedo) ∧
      (∀ fault after, State.redo stuckWorld.registry stuckWorld.state = .error fault after →
        after.mRedo = stuckWorld.state.mRedo.dropLast ∧ after.mUndo = stuckWorld.state.mUndo)) :=
  have reachable : Reachable stuckWorld :=
    (Reachable.step _ (.step _ reachable_sessionTenWorld)).run _
  ⟨reachable, ⟨_, _, rfl⟩, ⟨_, _, rfl⟩, failed_undo_redo_drop_record reachable⟩

end World

end Octo
