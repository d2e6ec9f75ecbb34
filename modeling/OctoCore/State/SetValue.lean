import OctoCore.State.Minting
import OctoCore.State.Registrations

/-!
# A command that saves the values it overwrites

`SetValueCommand` of the data-type tests writes each scalar argument it is given under
a key of `DataTypesState::m_key_value_store`.  Before that it saves the value it
replaces, if the key is there, into a result field, so that `backward` can put the
value back or else erase the key.  The save is a `set_` behind a test on the store,
so the replay of `redo()` reaches it whenever the key is there again, and raises
`CommandResultMisuseException` on the immutable result.

Right after `backward` the store holds the key of an argument exactly when it held it
before the first run.  So undoing and then redoing the command loses its record
exactly when its first run overwrote a value.
-/

namespace Octo

/-- `DataTypesState`: its `m_key_value_store`, a `std::map` from keys to values. -/
structure DataTypesState where
  mKeyValueStore : List (String × GenericValue)

/-- One scalar argument of `SetValueCommand`: its type, the key of the store it is
written under, its argument field, and the result field for the value it replaces. -/
structure SetValueField where
  type : ValueType
  key : String
  argField : FieldId
  prevField : FieldId

namespace SetValueField

/-- One block of `SetValueCommand::forward`: if the argument is there, save the value
its key holds, if any, into the result, then write the argument under the key. -/
def forward (field : SetValueField) (args : Map) (next : Action DataTypesState) :
    Action DataTypesState :=
  if args.hasField field.type field.argField then
    .read fun state _ =>
      let store : Action DataTypesState :=
        match args.atField field.type field.argField with
        | .ok value =>
            .write ⟨mapAssign state.mKeyValueStore field.key (wrap field.type value)⟩ next
        | .error exception => .raise exception
      match state.mKeyValueStore.lookup field.key with
      | some previous =>
          .setResultField field.prevField field.type (unwrap field.type previous) store
      | none => store
  else next

/-- One block of `SetValueCommand::backward`: if the argument is there, put the saved
value back under its key, or erase the key if nothing was saved. -/
def backward (field : SetValueField) (args : Map) (next : Action DataTypesState) :
    Action DataTypesState :=
  if args.hasField field.type field.argField then
    .read fun state result =>
      if result.hasField field.type field.prevField then
        match result.atField field.type field.prevField with
        | .ok previous =>
            .write ⟨mapAssign state.mKeyValueStore field.key (wrap field.type previous)⟩ next
        | .error exception => .raise exception
      else .write ⟨mapErase state.mKeyValueStore field.key⟩ next
  else next

variable {field : SetValueField} {args : Map}

theorem exec_forward_of_not_hasField (absent : args.hasField field.type field.argField = false)
    (next : Action DataTypesState) (result : ResultBase) (state : State DataTypesState) :
    (field.forward args next).exec result state = next.exec result state := by
  simp [forward, absent]

/-- A block whose argument is there: the save, if the key holds a value, then the
write. -/
theorem exec_forward_of_hasField {value : field.type.Carrier}
    (has : args.hasField field.type field.argField = true)
    (read : args.atField field.type field.argField = .ok value)
    (next : Action DataTypesState) (result : ResultBase) (state : State DataTypesState) :
    (field.forward args next).exec result state =
      let written : State DataTypesState := { state with
        data := ⟨mapAssign state.data.mKeyValueStore field.key (wrap field.type value)⟩ }
      match state.data.mKeyValueStore.lookup field.key with
      | some previous =>
          match result.setResultField field.prevField field.type (unwrap field.type previous) with
          | .ok result => next.exec result written
          | .error exception => .error (.exception exception) state
      | none => next.exec result written := by
  simp only [forward, has, if_true, Action.exec, read]
  cases state.data.mKeyValueStore.lookup field.key with
  | some previous =>
      cases result.setResultField field.prevField field.type (unwrap field.type previous) <;> rfl
  | none => rfl

/-- A block whose argument is there, on a mutable result: it saves the value the key
holds, if any, into its result field, and writes the argument under the key. -/
theorem exec_forward_mutable_of_hasField (has : args.hasField field.type field.argField = true)
    (next : Action DataTypesState) (result : Map) (state : State DataTypesState) :
    ∃ value result', (field.forward args next).exec ⟨true, result⟩ state =
        next.exec ⟨true, result'⟩ { state with
          data := ⟨mapAssign state.data.mKeyValueStore field.key (wrap field.type value)⟩ } ∧
      result'.hasField field.type field.prevField =
        ((state.data.mKeyValueStore.lookup field.key).isSome ||
          result.hasField field.type field.prevField) ∧
      ∀ type fieldId, fieldId ≠ field.prevField →
        result'.hasField type fieldId = result.hasField type fieldId := by
  obtain ⟨value, read⟩ := Map.atField_of_hasField has
  rw [exec_forward_of_hasField has read]
  cases state.data.mKeyValueStore.lookup field.key with
  | some previous =>
      obtain ⟨-, inserted, others⟩ :=
        result.getField_insert_wrap field.type field.prevField (unwrap field.type previous)
      exact ⟨value, _, rfl, by rw [inserted]; rfl, fun type fieldId other => (others _ _ other).2⟩
  | none => exact ⟨value, result, rfl, (Bool.false_or _).symm, fun _ _ _ => rfl⟩

theorem exec_backward_of_not_hasField (absent : args.hasField field.type field.argField = false)
    (next : Action DataTypesState) (result : ResultBase) (state : State DataTypesState) :
    (field.backward args next).exec result state = next.exec result state := by
  simp [backward, absent]

/-- A block whose argument is there: the key holds a value afterwards exactly when the
result has one saved, and every other key is left alone. -/
theorem exec_backward_of_hasField (has : args.hasField field.type field.argField = true)
    (next : Action DataTypesState) (result : ResultBase) (state : State DataTypesState) :
    ∃ store : List (String × GenericValue),
      (store.lookup field.key).isSome = result.mData.hasField field.type field.prevField ∧
      (∀ key, key ≠ field.key → store.lookup key = state.data.mKeyValueStore.lookup key) ∧
      (field.backward args next).exec result state =
        next.exec result { state with data := ⟨store⟩ } := by
  simp only [backward, has, if_true, Action.exec]
  split
  · rename_i saved
    obtain ⟨previous, read⟩ := Map.atField_of_hasField saved
    exact ⟨mapAssign state.data.mKeyValueStore field.key (wrap field.type previous),
      by simp [saved], fun key other => by simp [other], by rw [read]; rfl⟩
  · rename_i unsaved
    exact ⟨mapErase state.data.mKeyValueStore field.key, by simp [unsaved],
      fun key other => by simp [other], rfl⟩

end SetValueField

/-- The scalar arguments `SetValueCommand` handles, in the order of its code. -/
def setValueFields : List SetValueField :=
  [⟨.boolean, "bool", fieldIdOf "bool_arg", fieldIdOf "bool_prev_value"⟩,
   ⟨.int32, "int32", fieldIdOf "int32_arg", fieldIdOf "int32_prev_value"⟩,
   ⟨.int64, "int64", fieldIdOf "int64_arg", fieldIdOf "int64_prev_value"⟩,
   ⟨.real, "double", fieldIdOf "double_arg", fieldIdOf "double_prev_value"⟩,
   ⟨.string, "string", fieldIdOf "string_arg", fieldIdOf "string_prev_value"⟩]

/-- The blocks of `forward` for `fields`, one after the other. -/
def forwardBlocks (fields : List SetValueField) (args : Map) : Action DataTypesState :=
  fields.foldr (fun field next => field.forward args next) .done

/-- The blocks of `backward` for `fields`, one after the other. -/
def backwardBlocks (fields : List SetValueField) (args : Map) : Action DataTypesState :=
  fields.foldr (fun field next => field.backward args next) .done

@[simp] theorem forwardBlocks_cons (field : SetValueField) (fields : List SetValueField)
    (args : Map) :
    forwardBlocks (field :: fields) args = field.forward args (forwardBlocks fields args) := rfl

@[simp] theorem backwardBlocks_cons (field : SetValueField) (fields : List SetValueField)
    (args : Map) :
    backwardBlocks (field :: fields) args = field.backward args (backwardBlocks fields args) := rfl

/-- `SetValueCommand`, command `1` of `DataTypesState`.  It also declares container
arguments and results, which neither `forward` nor `backward` reads. -/
def setValueCommand : CommandClass DataTypesState where
  commandId := 1
  acceptStatePtr _ := true
  forward := forwardBlocks setValueFields
  backward := backwardBlocks setValueFields

/-- Whether some argument among `fields` that `args` holds names a key the store
already has. -/
def overwrites (fields : List SetValueField) (args : Map)
    (store : List (String × GenericValue)) : Bool :=
  fields.any fun field => args.hasField field.type field.argField && (store.lookup field.key).isSome

@[simp] theorem overwrites_cons (field : SetValueField) (fields : List SetValueField) (args : Map)
    (store : List (String × GenericValue)) :
    overwrites (field :: fields) args store =
      (args.hasField field.type field.argField && (store.lookup field.key).isSome ||
        overwrites fields args store) := rfl

theorem overwrites_congr {fields : List SetValueField} {args : Map}
    {store store' : List (String × GenericValue)}
    (same : ∀ field ∈ fields, args.hasField field.type field.argField = true →
      (store'.lookup field.key).isSome = (store.lookup field.key).isSome) :
    overwrites fields args store' = overwrites fields args store := by
  induction fields with
  | nil => rfl
  | cons field fields ih =>
      rw [overwrites_cons, overwrites_cons, ih fun other member => same other (.tail _ member)]
      cases has : args.hasField field.type field.argField
      · rfl
      · rw [same field (.head _) has]

theorem overwrites_mapAssign {fields : List SetValueField} {args : Map}
    {store : List (String × GenericValue)} {key : String} {value : GenericValue}
    (fresh : key ∉ fields.map SetValueField.key) :
    overwrites fields args (mapAssign store key value) = overwrites fields args store :=
  overwrites_congr fun field member _ => by
    have other : field.key ≠ key := fun same => fresh (same ▸ List.mem_map_of_mem _ member)
    simp [other]

/-! ## The three runs of `SetValueCommand` in an undo and a redo -/

section Runs

variable (args : Map) {fields : List SetValueField}

/-- The replay of `redo()`, on the immutable result: it raises
`CommandResultMisuseException` if some argument's key holds a value, and otherwise
returns with the result as it was. -/
theorem exec_forward_immutable (result : Map) (distinct : (fields.map SetValueField.key).Nodup)
    (state : State DataTypesState) :
    if overwrites fields args state.data.mKeyValueStore then
      ∃ after, (forwardBlocks fields args).exec ⟨false, result⟩ state =
        .error (.exception .commandResultMisuse) after
    else
      ∃ after, (forwardBlocks fields args).exec ⟨false, result⟩ state =
        .ok ⟨false, result⟩ after := by
  induction fields generalizing state with
  | nil => simp [overwrites, Action.exec]
  | cons field fields ih =>
      rw [List.map_cons, List.nodup_cons] at distinct
      rw [forwardBlocks_cons, overwrites_cons]
      cases has : args.hasField field.type field.argField
      · rw [SetValueField.exec_forward_of_not_hasField has, Bool.false_and, Bool.false_or]
        exact ih distinct.2 state
      · obtain ⟨value, read⟩ := Map.atField_of_hasField has
        rw [SetValueField.exec_forward_of_hasField has read]
        cases saved : state.data.mKeyValueStore.lookup field.key with
        | some previous =>
            simp [ResultBase.setResultField_of_immutable]
        | none =>
            have next := ih distinct.2 { state with
              data := ⟨mapAssign state.data.mKeyValueStore field.key (wrap field.type value)⟩ }
            rwa [overwrites_mapAssign distinct.1] at next

/-- A first run, on a mutable result: it returns; the result gains a saved value for
each argument whose key held one, and keeps every field the blocks do not save into. -/
theorem exec_forward_mutable (distinct : (fields.map SetValueField.key).Nodup)
    (distinctSaves : (fields.map SetValueField.prevField).Nodup) (result : Map)
    (state : State DataTypesState) :
    ∃ result' after,
      (forwardBlocks fields args).exec ⟨true, result⟩ state = .ok ⟨true, result'⟩ after ∧
      (∀ type fieldId, fieldId ∉ fields.map SetValueField.prevField →
        result'.hasField type fieldId = result.hasField type fieldId) ∧
      ∀ field ∈ fields, args.hasField field.type field.argField = true →
        result'.hasField field.type field.prevField =
          ((state.data.mKeyValueStore.lookup field.key).isSome ||
            result.hasField field.type field.prevField) := by
  induction fields generalizing result state with
  | nil => exact ⟨result, state, rfl, fun _ _ _ => rfl, fun _ member => nomatch member⟩
  | cons field fields ih =>
      rw [List.map_cons, List.nodup_cons] at distinct distinctSaves
      have apart : ∀ other ∈ fields, other.key ≠ field.key ∧ other.prevField ≠ field.prevField :=
        fun other member =>
          ⟨fun same => distinct.1 (same ▸ List.mem_map_of_mem _ member),
            fun same => distinctSaves.1 (same ▸ List.mem_map_of_mem _ member)⟩
      rw [forwardBlocks_cons]
      cases has : args.hasField field.type field.argField
      · obtain ⟨result', after, ran, kept, saved⟩ := ih distinct.2 distinctSaves.2 result state
        refine ⟨result', after, by rw [SetValueField.exec_forward_of_not_hasField has, ran],
          fun type fieldId fresh => kept type fieldId fun member => fresh (.tail _ member), ?_⟩
        rintro other (_ | ⟨_, member⟩) otherHas
        · rw [has] at otherHas; cases otherHas
        · exact saved other member otherHas
      · obtain ⟨value, saving, ran, saved, untouched⟩ :=
          SetValueField.exec_forward_mutable_of_hasField has (forwardBlocks fields args) result
            state
        obtain ⟨result', after, ran', kept, saved'⟩ := ih distinct.2 distinctSaves.2 saving _
        refine ⟨result', after, ran.trans ran', fun type fieldId fresh => ?_, ?_⟩
        · rw [kept type fieldId fun member => fresh (.tail _ member),
            untouched type fieldId fun same => fresh (same ▸ .head _)]
        · rintro other (_ | ⟨_, member⟩) otherHas
          · rw [kept _ _ distinctSaves.1, saved]
          · rw [saved' other member otherHas, untouched _ _ (apart other member).2]
            simp [(apart other member).1]

/-- `backward`, on the saved result: it returns with the result as it was; afterwards
the key of an argument holds a value exactly when the result has one saved for it,
and every other key is left alone. -/
theorem exec_backward (result : Map) (distinct : (fields.map SetValueField.key).Nodup)
    (state : State DataTypesState) :
    ∃ after, (backwardBlocks fields args).exec ⟨false, result⟩ state = .ok ⟨false, result⟩ after ∧
      (∀ key ∉ fields.map SetValueField.key,
        after.data.mKeyValueStore.lookup key = state.data.mKeyValueStore.lookup key) ∧
      ∀ field ∈ fields, args.hasField field.type field.argField = true →
        (after.data.mKeyValueStore.lookup field.key).isSome =
          result.hasField field.type field.prevField := by
  induction fields generalizing state with
  | nil => exact ⟨state, rfl, fun _ _ => rfl, fun _ member => nomatch member⟩
  | cons field fields ih =>
      rw [List.map_cons, List.nodup_cons] at distinct
      rw [backwardBlocks_cons]
      cases has : args.hasField field.type field.argField
      · obtain ⟨after, ran, kept, restored⟩ := ih distinct.2 state
        refine ⟨after, by rw [SetValueField.exec_backward_of_not_hasField has, ran],
          fun key fresh => kept key fun member => fresh (.tail _ member), ?_⟩
        rintro other (_ | ⟨_, member⟩) otherHas
        · rw [has] at otherHas; cases otherHas
        · exact restored other member otherHas
      · obtain ⟨store, present, untouched, ran⟩ :=
          SetValueField.exec_backward_of_hasField has (backwardBlocks fields args) ⟨false, result⟩
            state
        obtain ⟨after, ran', kept, restored⟩ := ih distinct.2 { state with data := ⟨store⟩ }
        refine ⟨after, by rw [ran, ran'], fun key fresh => ?_, ?_⟩
        · rw [kept key fun member => fresh (.tail _ member)]
          exact untouched key fun same => fresh (same ▸ .head _)
        · rintro other (_ | ⟨_, member⟩) otherHas
          · rw [kept _ distinct.1]; exact present
          · exact restored other member otherHas

end Runs

theorem setValueFields_keys_nodup : (setValueFields.map SetValueField.key).Nodup := by decide

theorem setValueFields_saves_nodup : (setValueFields.map SetValueField.prevField).Nodup := by
  decide

/-! ## Run, undo and redo in a registry holding `SetValueCommand` -/

section Registered

variable {registry : CommandRegistry DataTypesState}
  (registered : registry.getCommand 1 = some (Registration.entry setValueCommand))
  (wellBehaved : registry.WellBehaved)
include registered wellBehaved

/-- `runCommand` of `SetValueCommand` returns and admits a record whose result saves a
value for each argument whose key the store held. -/
theorem setValue_runCommand (args : Map) (state : State DataTypesState) :
    ∃ result after, State._runCommand registry 1 args true state = .ok result after ∧
      after.mUndo = state.mUndo ++ [⟨1, args, result⟩] ∧ after.mRedo = [] ∧
      ∀ field ∈ setValueFields, args.hasField field.type field.argField = true →
        result.hasField field.type field.prevField =
          (state.data.mKeyValueStore.lookup field.key).isSome := by
  obtain ⟨result, after, ran, -, saved⟩ := exec_forward_mutable args setValueFields_keys_nodup
    setValueFields_saves_nodup Map.empty state
  have forwarded : (Registration.entry setValueCommand).forward args Map.empty true state =
      .ok result after := by
    simp only [Registration.entry, Registration.forward, setValueCommand, if_true, ran]
    rfl
  have returned : State._runCommand registry 1 args true state = .ok result
      { after with mUndo := after.mUndo ++ [⟨1, args, result⟩], mRedo := [] } := by
    simp only [State._runCommand, registered, forwarded]
    rfl
  obtain ⟨undone, -⟩ := State._runCommand_ok_deques wellBehaved returned
  refine ⟨result, _, returned, by simpa using undone, rfl, fun field member has => ?_⟩
  rw [saved field member has]
  exact Bool.or_false _

/-- `undo()` of a `SetValueCommand` record returns, and leaves the key of each of its
arguments holding a value exactly when the record's result has one saved. -/
theorem setValue_undoRecord (record : State.CommandRecord) (same : record.commandId = 1)
    (state : State DataTypesState) :
    ∃ after, State.undoRecord registry record state = .ok () after ∧
      after.mUndo = state.mUndo ∧ after.mRedo = state.mRedo ++ [record] ∧
      ∀ field ∈ setValueFields, record.args.hasField field.type field.argField = true →
        (after.data.mKeyValueStore.lookup field.key).isSome =
          record.result.hasField field.type field.prevField := by
  obtain ⟨reverted, ran, -, restored⟩ :=
    exec_backward record.args record.result setValueFields_keys_nodup state
  have reversed : (Registration.entry setValueCommand).backward record.args record.result state =
      .ok record.result reverted := by
    simp only [Registration.entry, Registration.backward, setValueCommand, if_true,
      ResultBase.ofConst, ran]
    rfl
  have returned := State.undoRecord_of_backward (same ▸ registered) reversed
  obtain ⟨undone, redone⟩ := State.undoRecord_ok_deques wellBehaved returned
  exact ⟨_, returned, undone, redone, restored⟩

/-- `redo()` of a `SetValueCommand` record raises `CommandResultMisuseException` if
the key of one of its arguments holds a value, and otherwise returns. -/
theorem setValue_redoRecord (record : State.CommandRecord) (same : record.commandId = 1)
    (state : State DataTypesState) :
    if overwrites setValueFields record.args state.data.mKeyValueStore then
      ∃ after, State.redoRecord registry record state =
          .error (.exception .commandResultMisuse) after ∧
        after.mUndo = state.mUndo ∧ after.mRedo = state.mRedo
    else
      ∃ after, State.redoRecord registry record state = .ok () after ∧
        after.mUndo = state.mUndo ++ [record] ∧ after.mRedo = state.mRedo := by
  have found : registry.getCommand record.commandId =
      some (Registration.entry setValueCommand) := same ▸ registered
  have replay := exec_forward_immutable record.args record.result setValueFields_keys_nodup state
  split at replay
  · obtain ⟨after, ran⟩ := replay
    have raised : State.redoRecord registry record state =
        .error (.exception .commandResultMisuse) after := by
      simp only [State.redoRecord, found, Registration.entry, Registration.forward,
        setValueCommand, if_true, ran]
      rfl
    rw [if_pos ‹_›]
    exact ⟨after, raised, State.redoRecord_error_deques wellBehaved raised⟩
  · obtain ⟨after, ran⟩ := replay
    have replayed : (Registration.entry setValueCommand).forward record.args record.result false
        state = .ok record.result after := by
      simp only [Registration.entry, Registration.forward, setValueCommand, if_true, ran]
      rfl
    have returned := State.redoRecord_of_forward found replayed
    rw [if_neg ‹_›]
    exact ⟨_, returned, State.redoRecord_ok_deques wellBehaved returned⟩

end Registered

namespace World

/-- Undoing and then redoing `SetValueCommand` loses its record exactly when its run
overwrote a value.  In any reachable world whose registry holds the command under its
id, run it with any arguments, undo it, and redo it: the run and the undo return, and
the redo raises `CommandResultMisuseException` exactly when one of the arguments it
was given names a key the store held before the run.  The record is then in neither
deque; otherwise it is back at the end of the undo deque. -/
theorem setValue_redo_fails_iff_overwrote {world : World DataTypesState}
    (reachable : Reachable world)
    (registered : world.registry.getCommand 1 = some (Registration.entry setValueCommand))
    (args : Map) :
    ∃ result : Map,
      world.faultsAlong [.runCommand 1 args true, .undo, .redo] =
        [none, none, if overwrites setValueFields args world.state.data.mKeyValueStore then
          some (.exception .commandResultMisuse) else none] ∧
      (world.run [.runCommand 1 args true, .undo, .redo]).state.mUndo =
        world.state.mUndo ++
          (if overwrites setValueFields args world.state.data.mKeyValueStore then []
            else [⟨1, args, result⟩]) ∧
      (world.run [.runCommand 1 args true, .undo, .redo]).state.mRedo = [] := by
  have wellBehaved := reachable.invariant.wellBehaved
  obtain ⟨result, ran, returned, undone, redone, saved⟩ :=
    setValue_runCommand registered wellBehaved args world.state
  obtain ⟨reverted, reverts, undone', redone', restored⟩ := setValue_undoRecord registered
    wellBehaved ⟨1, args, result⟩ rfl { ran with mUndo := world.state.mUndo }
  have first : world.step (.runCommand 1 args true) = (⟨world.registry, ran⟩, none) := by
    simp only [step, onState, State.runCommand, returned, stateAfter_ok]
    rfl
  have second : (World.mk world.registry ran).step .undo = (⟨world.registry, reverted⟩, none) := by
    simp only [step, onState, State.undo_of_append undone, reverts, stateAfter_ok]
    rfl
  have popped : reverted.mRedo = [] ++ [⟨1, args, result⟩] := by rw [redone', redone]
  have presence : overwrites setValueFields args reverted.data.mKeyValueStore =
      overwrites setValueFields args world.state.data.mKeyValueStore :=
    overwrites_congr fun field member has =>
      (restored field member has).trans (saved field member has)
  have replay := setValue_redoRecord registered wellBehaved ⟨1, args, result⟩ rfl
    { reverted with mRedo := [] }
  refine ⟨result, ?_⟩
  simp only [faultsAlong, run, List.foldl, first, second]
  rw [← presence]
  split at replay
  · rename_i overwritten
    obtain ⟨after, raised, undone'', redone''⟩ := replay
    have third : (World.mk world.registry reverted).step .redo =
        (⟨world.registry, after⟩, some (.exception .commandResultMisuse)) := by
      simp only [step, onState, State.redo_of_append popped, raised, stateAfter_error]
      rfl
    simp only [third, overwritten, if_true, List.append_nil, true_and]
    exact ⟨by simpa [undone'] using undone'', redone''⟩
  · rename_i kept
    obtain ⟨after, replayed, undone'', redone''⟩ := replay
    have third :
        (World.mk world.registry reverted).step .redo = (⟨world.registry, after⟩, none) := by
      simp only [step, onState, State.redo_of_append popped, replayed, stateAfter_ok]
      rfl
    simp only [third, kept, Bool.false_eq_true, if_false, true_and]
    exact ⟨by simpa [undone'] using undone'', redone''⟩

/-- `DataTypesState state;` of the data-type test with `SetValueCommand` registered,
after `state.runCommand(cmd)` with `bool_arg` `true` and `int32_arg` `15`. -/
def dataTypesWorld : World DataTypesState :=
  (⟨.empty, ⟨10, objectIdOf 10 1, [], [], ⟨[]⟩⟩⟩ : World DataTypesState).run
    [.register setValueCommand,
      .runCommand 1 ((Map.empty.insert (fieldIdOf "bool_arg") (wrap .boolean true)).insert
        (fieldIdOf "int32_arg") (wrap .int32 (15 : BitVec 32))) true]

/-- The arguments of a second command that sets `bool_arg`, to `false`. -/
def boolFalseArgs : Map := Map.empty.insert (fieldIdOf "bool_arg") (wrap .boolean false)

theorem setValue_redo_fails_iff_overwrote_of_dataTypes :
    Reachable dataTypesWorld ∧
      dataTypesWorld.registry.getCommand 1 = some (Registration.entry setValueCommand) ∧
      ∃ result : Map,
        dataTypesWorld.faultsAlong [.runCommand 1 boolFalseArgs true, .undo, .redo] =
          [none, none,
            if overwrites setValueFields boolFalseArgs dataTypesWorld.state.data.mKeyValueStore then
              some (.exception .commandResultMisuse) else none] ∧
        (dataTypesWorld.run [.runCommand 1 boolFalseArgs true, .undo, .redo]).state.mUndo =
          dataTypesWorld.state.mUndo ++
            (if overwrites setValueFields boolFalseArgs dataTypesWorld.state.data.mKeyValueStore
              then [] else [⟨1, boolFalseArgs, result⟩]) ∧
        (dataTypesWorld.run [.runCommand 1 boolFalseArgs true, .undo, .redo]).state.mRedo = [] := by
  have reachable : Reachable dataTypesWorld := .step _ (.step _ (.new (State.new_eq 10 ⟨[]⟩)))
  exact ⟨reachable, rfl, setValue_redo_fails_iff_overwrote reachable rfl boolFalseArgs⟩

-- The second command overwrites `bool`, so its redo raises.
example : dataTypesWorld.faultsAlong [.runCommand 1 boolFalseArgs true, .undo, .redo] =
    [none, none, some (.exception .commandResultMisuse)] := by
  rfl

-- A command that sets only `int64`, which the store does not hold, is redone.
example : dataTypesWorld.faultsAlong
    [.runCommand 1 (Map.empty.insert (fieldIdOf "int64_arg") (wrap .int64 (7 : BitVec 64))) true,
      .undo, .redo] = [none, none, none] := by
  rfl

end World

end Octo
