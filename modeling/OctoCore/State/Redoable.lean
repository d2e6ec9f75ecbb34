import OctoCore.State.World

/-!
# Commands that cannot be redone

`Registration::forward` builds the command's `Result` with `mutableResult`, and
`redo()` passes `false`, so a `set_` during a replay raises
`CommandResultMisuseException`: the comment of `Command` asks that the second call of
`forward` modify no result value, and the core enforces it.  A command whose forward
calls a `set_` on every path that returns, as `InsertEmployeesCommand` of the state
tests does with `set_employee_ids`, can therefore never be redone: `redo()` of its
record raises whatever the state, and the record leaves both deques.
-/

namespace Octo

namespace Action

variable {D : Type}

/-- Command code that cannot return without calling a `set_`: on every path it writes
a result field or raises. -/
inductive SetsResult : Action D → Prop
  | raise (exception : Exception) : SetsResult (.raise exception)
  | setResultField (fieldId : FieldId) (type : ValueType) (value : type.Carrier)
      (next : Action D) : SetsResult (.setResultField fieldId type value next)
  | read {next : D → Map → Action D} :
      (∀ data map, SetsResult (next data map)) → SetsResult (.read next)
  | write (data : D) {next : Action D} : SetsResult next → SetsResult (.write data next)
  | getNextObjectId {next : ObjectId → Action D} :
      (∀ objectId, SetsResult (next objectId)) → SetsResult (.getNextObjectId next)

/-- Run on an immutable result, such code never returns. -/
theorem exec_of_setsResult {action : Action D} (sets : action.SetsResult)
    {result : ResultBase} (immutable : result.mIsMutable = false) (state : State D) :
    ∃ fault after, action.exec result state = .error fault after := by
  induction sets generalizing state with
  | raise exception => exact ⟨_, _, rfl⟩
  | setResultField fieldId type value next =>
      simp [exec, ResultBase.setResultField_of_immutable immutable]
  | read _ ih => exact ih _ _ state
  | write data _ ih => exact ih _
  | getNextObjectId _ ih =>
      simp only [exec]
      split
      · exact ih _ _
      · exact ⟨_, _, rfl⟩

end Action

namespace Registration

variable {D : Type}

/-- The replay `redo()` asks of a command whose forward sets a result on every path
raises. -/
theorem forward_false_of_setsResult {command : CommandClass D}
    (sets : ∀ args, (command.forward args).SetsResult) (args result : Map) (state : State D) :
    ∃ fault after, forward command args result false state = .error fault after := by
  unfold forward
  split
  · obtain ⟨fault, after, ran⟩ :=
      @Action.exec_of_setsResult _ _ (sets args) ⟨false, result⟩ rfl state
    exact ⟨fault, after, by rw [ran]; rfl⟩
  · exact ⟨_, _, rfl⟩

end Registration

namespace World

variable {D : Type}

/-- A command whose forward calls a `set_` on every path cannot be redone.  In any
reachable world whose registry holds such a command, `redo()` of one of its records
raises, whatever the state: the record leaves the redo deque and does not reach the
undo deque. -/
theorem redo_of_setsResult {world : World D} (reachable : Reachable world)
    {command : CommandClass D}
    (registered : world.registry.getCommand command.commandId = some (Registration.entry command))
    (sets : ∀ args, (command.forward args).SetsResult)
    {rest : List State.CommandRecord} {record : State.CommandRecord}
    (popped : world.state.mRedo = rest ++ [record]) (same : record.commandId = command.commandId) :
    ∃ fault after, State.redo world.registry world.state = .error fault after ∧
      after.mUndo = world.state.mUndo ∧ after.mRedo = rest := by
  obtain ⟨fault, after, replayed⟩ := Registration.forward_false_of_setsResult sets record.args
    record.result { world.state with mRedo := rest }
  have raised : State.redoRecord world.registry record { world.state with mRedo := rest } =
      .error fault after := by
    simp only [State.redoRecord, same, registered]
    rw [show (Registration.entry command).forward = Registration.forward command from rfl,
      replayed]
  obtain ⟨undone, redone⟩ := State.redoRecord_error_deques reachable.invariant.wellBehaved raised
  exact ⟨fault, after, by rw [State.redo_of_append popped, raised], undone, redone⟩

/-- `FundCompanyCommand` of the state benchmark without its `has_` guard, on a state
with no data: its forward calls `set_new_ledger_entry_id(state->getNextObjectId())`
on every run, and its backward has nothing to erase. -/
def unguardedFundCommand : CommandClass Unit where
  commandId := 17
  acceptStatePtr _ := true
  forward _ := .getNextObjectId fun objectId => .setResultField 1 .int64 objectId .done
  backward _ := .done

/-- `BasicState` of session `10` after registering that command, running it once and
undoing it. -/
def unguardedFundWorld : World Unit :=
  sessionTenWorld.run [.register unguardedFundCommand, .runCommand 17 Map.empty true, .undo]

/-- The fund command has run once, with its id in the result, and been undone. -/
theorem unguardedFundWorld_eq : unguardedFundWorld =
    ⟨⟨[(17, Registration.entry unguardedFundCommand)]⟩, ⟨10, objectIdOf 10 1 + 1, [],
      [⟨17, Map.empty, Map.empty.insert 1 (wrap .int64 (objectIdOf 10 1))⟩], ()⟩⟩ := by
  have registered : sessionTenWorld.step (.register unguardedFundCommand) =
      (⟨⟨[(17, Registration.entry unguardedFundCommand)]⟩, sessionTenWorld.state⟩, none) := rfl
  have found : CommandRegistry.getCommand ⟨[(17, Registration.entry unguardedFundCommand)]⟩ 17 =
      some (Registration.entry unguardedFundCommand) := rfl
  have forwarded : (Registration.entry unguardedFundCommand).forward Map.empty Map.empty true
      sessionTenWorld.state = .ok (Map.empty.insert 1 (wrap .int64 (objectIdOf 10 1)))
        ⟨10, objectIdOf 10 1 + 1, [], [], ()⟩ := by
    simp only [Registration.entry, Registration.forward, unguardedFundCommand, Action.exec]
    rfl
  have ran : State.runCommand ⟨[(17, Registration.entry unguardedFundCommand)]⟩ 17 Map.empty true
      sessionTenWorld.state =
        .ok (ResultBase.ofConst (Map.empty.insert 1 (wrap .int64 (objectIdOf 10 1))))
          ⟨10, objectIdOf 10 1 + 1,
            [⟨17, Map.empty, Map.empty.insert 1 (wrap .int64 (objectIdOf 10 1))⟩], [], ()⟩ := by
    simp only [State.runCommand, State._runCommand, found, forwarded]
    rfl
  have reverted := @State.undoRecord_of_backward _ ⟨[(17, Registration.entry unguardedFundCommand)]⟩
    ⟨17, Map.empty, Map.empty.insert 1 (wrap .int64 (objectIdOf 10 1))⟩ _
    ⟨10, objectIdOf 10 1 + 1, [], [], ()⟩ _ _ found rfl
  simp only [unguardedFundWorld, run, List.foldl, registered]
  simp only [step, onState, ran, stateAfter_ok]
  rw [@State.undo_of_append _ _ _ [] _ rfl, reverted]
  rfl

theorem redo_of_setsResult_of_unguardedFund :
    Reachable unguardedFundWorld ∧
      unguardedFundWorld.registry.getCommand unguardedFundCommand.commandId =
        some (Registration.entry unguardedFundCommand) ∧
      (∀ args, (unguardedFundCommand.forward args).SetsResult) ∧
      unguardedFundWorld.state.mRedo =
        [] ++ [⟨17, Map.empty, Map.empty.insert 1 (wrap .int64 (objectIdOf 10 1))⟩] ∧
      (⟨17, Map.empty, Map.empty.insert 1 (wrap .int64 (objectIdOf 10 1))⟩ :
        State.CommandRecord).commandId = unguardedFundCommand.commandId ∧
      ∃ fault after, State.redo unguardedFundWorld.registry unguardedFundWorld.state =
          .error fault after ∧
        after.mUndo = unguardedFundWorld.state.mUndo ∧ after.mRedo = [] := by
  have reachable : Reachable unguardedFundWorld :=
    .step _ (.step _ (.step _ reachable_sessionTenWorld))
  have sets : ∀ args, (unguardedFundCommand.forward args).SetsResult := fun _ =>
    .getNextObjectId fun _ => .setResultField _ _ _ _
  rw [unguardedFundWorld_eq] at reachable ⊢
  exact ⟨reachable, rfl, sets, rfl, rfl,
    @redo_of_setsResult _ _ reachable unguardedFundCommand rfl sets _ _ rfl rfl⟩

end World

end Octo
