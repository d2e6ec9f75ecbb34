import OctoCore.State.Basic

/-!
# Command code, results and the registry

A command subclass supplies `forward(State*, Result&)` and `backward(State*, const
Result)`.  That code may read its arguments, read and write the data of the state,
mint object ids, read its result, write result fields through `set_*`, and throw.
`Action` is such code as the tree of those steps; `Action.exec` runs it against a
state and a `ResultBase`, whose `setResultField` refuses to write unless the result
is mutable.  The tree has no step for the other public members of `State`: command
code here never calls `runCommand`, `undo` or `redo` from inside a command, and never
reads `sessionId()`, `canUndo()` or `canRedo()`.  No command of the repository does.

`CommandRegistry::Registration` wraps a subclass into the `Entry` of function
pointers the registry stores: it first tries the `dynamic_cast` of `acceptStatePtr`,
then builds the typed result, mutable on request for `forward` and immutable for
`backward`.
-/

namespace Octo

/-- `CommandBase::ResultBase`: typed access to a result map, which it may write only
when `m_is_mutable` is set. -/
structure ResultBase where
  mIsMutable : Bool
  mData : Map

namespace ResultBase

/-- `ResultBase(const std::shared_ptr<const Map>&)`: a result that must not change. -/
def ofConst (data : Map) : ResultBase := ⟨false, data⟩

/-- `setResultField`, behind every `set_` of `OCTO_RESULT`: raise
`CommandResultMisuseException` unless the result is mutable, otherwise write the
wrapped value. -/
def setResultField (result : ResultBase) (fieldId : FieldId) (type : ValueType)
    (value : type.Carrier) : Except Exception ResultBase :=
  if !result.mIsMutable then .error .commandResultMisuse
  else .ok { result with mData := result.mData.insert fieldId (wrap type value) }

/-- An immutable result refuses every write. -/
theorem setResultField_of_immutable {result : ResultBase} (immutable : result.mIsMutable = false)
    (fieldId : FieldId) (type : ValueType) (value : type.Carrier) :
    result.setResultField fieldId type value = .error .commandResultMisuse := by
  simp [setResultField, immutable]

/-- A `set_` of a result field returns only on a mutable result; the field then reads
back the value at its type, and every other field reads as before. -/
theorem getField_setResultField {result result' : ResultBase} {fieldId : FieldId}
    {type : ValueType} {value : type.Carrier}
    (written : result.setResultField fieldId type value = .ok result') :
    result.mIsMutable = true ∧ result'.mData.getField type fieldId = some value ∧
      result'.mData.hasField type fieldId = true ∧
      ∀ other type', other ≠ fieldId →
        result'.mData.getField type' other = result.mData.getField type' other := by
  unfold setResultField at written
  split at written
  case isTrue => cases written
  case isFalse mutable =>
    cases written
    obtain ⟨read, has, others⟩ := result.mData.getField_insert_wrap type fieldId value
    exact ⟨by simpa using mutable, read, has,
      fun other type' different => (others other type' different).1⟩

end ResultBase

/-- The code of a command's `forward` or `backward`, given its arguments. -/
inductive Action (D : Type) where
  | done
  | raise (exception : Exception)
  | read (next : D → Map → Action D)
  | write (data : D) (next : Action D)
  | getNextObjectId (next : ObjectId → Action D)
  | setResultField (fieldId : FieldId) (type : ValueType) (value : type.Carrier) (next : Action D)

namespace Action

variable {D : Type}

/-- Run command code on a state with its typed result; `read` sees the data of the
state and `result.data()`. -/
def exec : Action D → ResultBase → EStateM Fault (State D) ResultBase
  | done, result => fun state => .ok result state
  | raise exception, _ => fun state => .error (.exception exception) state
  | read next, result => fun state => (next state.data result.mData).exec result state
  | write data next, result => fun state => next.exec result { state with data }
  | getNextObjectId next, result => fun state =>
      match State.getNextObjectId state with
      | .ok objectId state => (next objectId).exec result state
      | .error fault state => .error fault state
  | setResultField fieldId type value next, result => fun state =>
      match result.setResultField fieldId type value with
      | .ok result => next.exec result state
      | .error exception => .error (.exception exception) state

/-- Command code never touches the undo and redo deques, whether it returns or
raises. -/
theorem exec_history (action : Action D) (result : ResultBase) (state : State D) :
    (stateAfter (action.exec result state)).mUndo = state.mUndo ∧
      (stateAfter (action.exec result state)).mRedo = state.mRedo := by
  induction action generalizing result state with
  | done | raise => exact ⟨rfl, rfl⟩
  | read next ih => exact ih _ _ _ _
  | write data next ih => exact ih _ _
  | getNextObjectId next ih =>
      have minted := State.stateAfter_getNextObjectId state
      cases called : State.getNextObjectId state with
      | ok objectId after =>
          rw [called, stateAfter_ok] at minted
          subst minted
          simpa only [exec, called] using ih objectId result _
      | error fault after =>
          rw [called, stateAfter_error] at minted
          simp [exec, called, minted]
  | setResultField fieldId type value next ih =>
      simp only [exec]
      split
      · exact ih _ _
      · exact ⟨rfl, rfl⟩

/-- Command code raises only exceptions: its own, `set_` misuse and the exhaustion of
object ids. -/
theorem exec_error {action : Action D} {result : ResultBase} {state after : State D}
    {fault : Fault} (raised : action.exec result state = .error fault after) :
    ∃ exception, fault = .exception exception := by
  induction action generalizing result state with
  | done => cases raised
  | raise exception => cases raised; exact ⟨exception, rfl⟩
  | read next ih => exact ih _ _ raised
  | write data next ih => exact ih raised
  | getNextObjectId next ih =>
      simp only [exec] at raised
      split at raised
      · exact ih _ raised
      · cases raised
        exact ⟨_, State.getNextObjectId_error ‹_›⟩
  | setResultField fieldId type value next ih =>
      simp only [exec] at raised
      split at raised
      · exact ih raised
      · cases raised; exact ⟨_, rfl⟩

/-- Command code that returns leaves an immutable result as it found it. -/
theorem exec_of_immutable {action : Action D} {result result' : ResultBase}
    {state state' : State D} (immutable : result.mIsMutable = false)
    (returned : action.exec result state = .ok result' state') : result' = result := by
  induction action generalizing state with
  | done => cases returned; rfl
  | raise => cases returned
  | read next ih => exact ih _ _ returned
  | write data next ih => exact ih returned
  | getNextObjectId next ih =>
      simp only [exec] at returned
      split at returned
      · exact ih _ returned
      · cases returned
  | setResultField fieldId type value next ih =>
      simp only [exec, ResultBase.setResultField_of_immutable immutable] at returned
      cases returned

end Action

/-- A subclass of `Command<State, commandId>`: its id, whether `acceptStatePtr` can
cast the state to the type it needs, and its `forward` and `backward`. -/
structure CommandClass (D : Type) where
  commandId : CommandId
  acceptStatePtr : D → Bool
  forward : Map → Action D
  backward : Map → Action D

/-- `CommandRegistry::ForwardFn`: run a command forward from its arguments, its result
map and `mutableResult`, giving back the result map it leaves. -/
abbrev ForwardFn (D : Type) := Map → Map → Bool → EStateM Fault (State D) Map

/-- `CommandRegistry::BackwardFn`: run a command backward from its arguments and its
result map. -/
abbrev BackwardFn (D : Type) := Map → Map → EStateM Fault (State D) Map

/-- `CommandRegistry::Entry`: the two function pointers stored for a command id. -/
structure Entry (D : Type) where
  forward : ForwardFn D
  backward : BackwardFn D

/-- What every entry built by `Registration` guarantees the core: its calls leave the
undo and redo deques alone, whether they return or raise, a call that returns gives
back the result map it was given, unless it is a forward run with `mutableResult`
set, and a call that raises raises an exception. -/
structure Entry.WellBehaved {D : Type} (entry : Entry D) : Prop where
  forward_history : ∀ args result mutableResult state,
    (stateAfter (entry.forward args result mutableResult state)).mUndo = state.mUndo ∧
      (stateAfter (entry.forward args result mutableResult state)).mRedo = state.mRedo
  backward_history : ∀ args result state,
    (stateAfter (entry.backward args result state)).mUndo = state.mUndo ∧
      (stateAfter (entry.backward args result state)).mRedo = state.mRedo
  forward_result : ∀ {args result state result' state'},
    entry.forward args result false state = .ok result' state' → result' = result
  backward_result : ∀ {args result state result' state'},
    entry.backward args result state = .ok result' state' → result' = result
  forward_error : ∀ {args result mutableResult state fault state'},
    entry.forward args result mutableResult state = .error fault state' →
      ∃ exception, fault = .exception exception
  backward_error : ∀ {args result state fault state'},
    entry.backward args result state = .error fault state' →
      ∃ exception, fault = .exception exception

namespace Registration

variable {D : Type}

/-- Hand back `res.data()`, the map behind the typed result, once the code has run. -/
def returnData : EStateM.Result Fault (State D) ResultBase → EStateM.Result Fault (State D) Map
  | .ok res state => .ok res.mData state
  | .error fault state => .error fault state

@[simp] theorem stateAfter_returnData (ran : EStateM.Result Fault (State D) ResultBase) :
    stateAfter (returnData ran) = stateAfter ran := by
  cases ran <;> rfl

theorem returnData_eq_ok {ran : EStateM.Result Fault (State D) ResultBase} {map : Map}
    {state : State D} (returned : returnData ran = .ok map state) :
    ∃ res, ran = .ok res state ∧ res.mData = map := by
  cases ran with
  | ok res after => cases returned; exact ⟨res, rfl, rfl⟩
  | error => cases returned

theorem returnData_eq_error {ran : EStateM.Result Fault (State D) ResultBase} {fault : Fault}
    {state : State D} (raised : returnData ran = .error fault state) :
    ran = .error fault state := by
  cases ran with
  | ok => cases raised
  | error => cases raised; rfl

/-- `Registration<CommandSubclass>::forward`. -/
def forward (command : CommandClass D) : ForwardFn D := fun args result mutableResult state =>
  if command.acceptStatePtr state.data then
    returnData ((command.forward args).exec ⟨mutableResult, result⟩ state)
  else
    .error (.exception .inapplicableCommand) state

/-- `Registration<CommandSubclass>::backward`. -/
def backward (command : CommandClass D) : BackwardFn D := fun args result state =>
  if command.acceptStatePtr state.data then
    returnData ((command.backward args).exec (ResultBase.ofConst result) state)
  else
    .error (.exception .inapplicableCommand) state

/-- The `Entry` that `Registration()` stores. -/
def entry (command : CommandClass D) : Entry D := ⟨forward command, backward command⟩

/-- The three facts that make recorded results immutable and the history untouched
by command code: `setResultField` refuses to write an immutable result, `forward`
builds its result from `mutableResult`, and `backward` uses the immutable
constructor.  What either raises is an exception, its own or the failed cast's. -/
theorem entry_wellBehaved (command : CommandClass D) : (entry command).WellBehaved where
  forward_history args result mutableResult state := by
    simp only [entry, forward]
    split
    · simpa only [stateAfter_returnData] using Action.exec_history _ _ state
    · exact ⟨rfl, rfl⟩
  backward_history args result state := by
    simp only [entry, backward]
    split
    · simpa only [stateAfter_returnData] using Action.exec_history _ _ state
    · exact ⟨rfl, rfl⟩
  forward_result {args result state result' state'} returned := by
    simp only [entry, forward] at returned
    split at returned
    · obtain ⟨res, ran, data⟩ := returnData_eq_ok returned
      rw [← data, Action.exec_of_immutable rfl ran]
    · cases returned
  backward_result {args result state result' state'} returned := by
    simp only [entry, backward] at returned
    split at returned
    · obtain ⟨res, ran, data⟩ := returnData_eq_ok returned
      rw [← data, Action.exec_of_immutable rfl ran]
      rfl
    · cases returned
  forward_error {args result mutableResult state fault state'} raised := by
    simp only [entry, forward] at raised
    split at raised
    · exact Action.exec_error (returnData_eq_error raised)
    · cases raised; exact ⟨_, rfl⟩
  backward_error {args result state fault state'} raised := by
    simp only [entry, backward] at raised
    split at raised
    · exact Action.exec_error (returnData_eq_error raised)
    · cases raised; exact ⟨_, rfl⟩

end Registration

/-- `CommandRegistry`, with `m_entries` as an association list. -/
structure CommandRegistry (D : Type) where
  mEntries : List (CommandId × Entry D)

namespace CommandRegistry

variable {D : Type}

/-- A registry with no commands yet. -/
def empty : CommandRegistry D := ⟨[]⟩

/-- `getCommand`: the entry of a command id, or the null pointer. -/
def getCommand (registry : CommandRegistry D) (commandId : CommandId) : Option (Entry D) :=
  registry.mEntries.lookup commandId

/-- `registerCommand`: add an entry, raising `StateException` for an id already
present. -/
def registerCommand (registry : CommandRegistry D) (commandId : CommandId) (entry : Entry D) :
    Except Exception (CommandRegistry D) :=
  if (registry.getCommand commandId).isSome then
    .error (.stateException
      "Attempted to register the same command ID twice in the same CommandRegistry.")
  else
    .ok ⟨(commandId, entry) :: registry.mEntries⟩

/-- Register the entry of a command subclass, as `Registration()` does. -/
def register (registry : CommandRegistry D) (command : CommandClass D) :
    Except Exception (CommandRegistry D) :=
  registry.registerCommand command.commandId (Registration.entry command)

theorem getCommand_registerCommand {registry registry' : CommandRegistry D}
    {commandId : CommandId} {entry : Entry D}
    (registered : registry.registerCommand commandId entry = .ok registry') (other : CommandId) :
    registry'.getCommand other =
      if other = commandId then some entry else registry.getCommand other := by
  unfold registerCommand at registered
  split at registered
  · cases registered
  · cases registered
    by_cases same : other = commandId
    · simp [getCommand, List.lookup_cons, same]
    · have : (other == commandId) = false := by simpa using same
      simp [getCommand, List.lookup_cons, same, this]

/-- A registration adds an entry for a fresh id and changes no other lookup. -/
theorem registerCommand_spec {registry registry' : CommandRegistry D}
    {commandId : CommandId} {entry : Entry D}
    (registered : registry.registerCommand commandId entry = .ok registry') :
    registry.getCommand commandId = none ∧ registry'.getCommand commandId = some entry ∧
      ∀ other found, registry.getCommand other = some found →
        registry'.getCommand other = some found := by
  have fresh : registry.getCommand commandId = none := by
    unfold registerCommand at registered
    split at registered
    · cases registered
    · exact Option.not_isSome_iff_eq_none.mp ‹_›
  refine ⟨fresh, by simp [getCommand_registerCommand registered], fun other found known => ?_⟩
  rw [getCommand_registerCommand registered]
  split
  · subst other; rw [fresh] at known; cases known
  · exact known

/-- Registering a command whose id is taken raises `StateException`; the caller keeps
the registry it had. -/
theorem register_of_taken {registry : CommandRegistry D} {command : CommandClass D}
    (taken : (registry.getCommand command.commandId).isSome) :
    registry.register command = .error (.stateException
      "Attempted to register the same command ID twice in the same CommandRegistry.") := by
  simp [register, registerCommand, taken]

/-- Every entry of the registry is well behaved. -/
def WellBehaved (registry : CommandRegistry D) : Prop :=
  ∀ commandId entry, registry.getCommand commandId = some entry → entry.WellBehaved

theorem empty_wellBehaved : (empty : CommandRegistry D).WellBehaved := by
  intro commandId entry found
  cases found

theorem register_wellBehaved {registry registry' : CommandRegistry D} {command : CommandClass D}
    (wellBehaved : registry.WellBehaved) (registered : registry.register command = .ok registry') :
    registry'.WellBehaved := by
  intro commandId entry found
  rw [getCommand_registerCommand (registered : registry.registerCommand _ _ = _)] at found
  split at found
  · cases found; exact Registration.entry_wellBehaved command
  · exact wellBehaved commandId entry found

end CommandRegistry

end Octo
