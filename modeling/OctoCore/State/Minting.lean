import OctoCore.FieldHash
import OctoCore.State.World

/-!
# Commands that mint an object id

`FundCompanyCommand` and `PurchaseCommand` of the state benchmark file a ledger entry
under an id from `getNextObjectId`, and mint it only when their result holds no
`new_ledger_entry_id` yet.  A first run, on the empty result of `_runCommand`, mints
the id and sets it; the replay of `redo()` finds the id its first run set and files
the entry under it again.  So undo and redo of such a record act at the recorded id,
and a redo mints nothing: the object-id counter stays where it is.

That rests on a fact of every reachable world: each record of either deque holds the
result map a first forward run of its command wrote.  The ledger and the inventory
hold `double`s, which are Lean's `Float` here; nothing below computes with them.
-/

namespace Octo

/-! ## Recorded results are first-run results -/

namespace World

variable {D : Type}

/-- Each record of either deque names a command the registry has an entry for, and
holds the result map a first forward run of that entry wrote, from some state. -/
def ResultsFirstWritten (world : World D) : Prop :=
  ∀ record ∈ world.state.records, ∃ entry,
    world.registry.getCommand record.commandId = some entry ∧
      ∃ state ran : State D, entry.forward record.args Map.empty true state = .ok record.result ran

/-- The record a call admits holds what the first run of its entry wrote. -/
theorem admitted_firstRun {world : World D} {call : Call D} {record : State.CommandRecord}
    (admits : world.admitted call = some record) :
    ∃ entry, world.registry.getCommand record.commandId = some entry ∧
      ∃ ran, entry.forward record.args Map.empty true world.state = .ok record.result ran := by
  unfold admitted at admits
  split at admits
  · split at admits
    · cases admits
      obtain ⟨entry, ran, found, forwarded, -⟩ := State._runCommand_ok ‹_›
      exact ⟨entry, found, ran, forwarded⟩
    · cases admits
  · cases admits

theorem ResultsFirstWritten.step {world : World D} (wellBehaved : world.registry.WellBehaved)
    (written : world.ResultsFirstWritten) (call : Call D) :
    (world.step call).1.ResultsFirstWritten := by
  intro record member
  rcases records_step wellBehaved call record member with old | new
  · obtain ⟨entry, found, first⟩ := written record old
    exact ⟨entry, getCommand_step found call, first⟩
  · obtain ⟨entry, found, ran, forwarded⟩ := admitted_firstRun new
    exact ⟨entry, getCommand_step found call, _, ran, forwarded⟩

end World

theorem Reachable.resultsFirstWritten {D : Type} {world : World D} (reachable : Reachable world) :
    world.ResultsFirstWritten := by
  induction reachable with
  | new built =>
      rw [State.new_eq, Except.ok.injEq] at built
      subst built
      simp [World.ResultsFirstWritten, State.records]
  | step call reachable written => exact written.step reachable.invariant.wellBehaved call

/-! ## The guarded minting of a ledger id -/

namespace Map

/-- The getter of an `OCTO_ARG` or `OCTO_RESULT` field: `unwrap` of `at(fieldId)`.
Protobuf's `Map::at` fails on a missing key; that failure is an exception here. -/
def atField (map : Map) (type : ValueType) (fieldId : FieldId) : Except Exception type.Carrier :=
  match map.getField type fieldId with
  | some value => .ok value
  | none => .error (.other "key not found")

/-- The getter of a field that `has_` accepts returns. -/
theorem atField_of_hasField {map : Map} {type : ValueType} {fieldId : FieldId}
    (has : map.hasField type fieldId = true) : ∃ value, map.atField type fieldId = .ok value := by
  cases found : map.find? fieldId with
  | none => simp [hasField, found] at has
  | some value => exact ⟨unwrap type value, by simp [atField, getField, found]⟩

end Map

namespace Action

variable {D : Type}

/-- Change the data by a computation that may raise. -/
def update (change : D → Except Exception D) : Action D :=
  .read fun data _ =>
    match change data with
    | .ok data => .write data .done
    | .error exception => .raise exception

/-- Read the `ObjectId` result field `fieldId` through its getter, then change the data
at the id it holds. -/
def atResultId (fieldId : FieldId) (change : ObjectId → D → Except Exception D) : Action D :=
  .read fun _ result =>
    match result.atField .int64 fieldId with
    | .ok objectId => update (change objectId)
    | .error exception => .raise exception

theorem exec_update (change : D → Except Exception D) (result : ResultBase) (state : State D) :
    (update change).exec result state =
      match change state.data with
      | .ok data => .ok result { state with data }
      | .error exception => .error (.exception exception) state := by
  simp only [update, exec]
  cases change state.data <;> rfl

end Action

variable {D : Type}

/-- `FundCompanyCommand` and `PurchaseCommand`, apart from what they do to the data:
`forward` sets an id from `getNextObjectId` into the result field `fieldId` unless the
result already has one, then applies `change` at the id the result holds; `backward`
applies `revert` at that id. -/
def mintingCommand (commandId : CommandId) (fieldId : FieldId)
    (change revert : Map → ObjectId → D → Except Exception D) : CommandClass D where
  commandId := commandId
  acceptStatePtr _ := true
  forward args := .read fun _ result =>
    if !result.hasField .int64 fieldId then
      .getNextObjectId fun objectId =>
        .setResultField fieldId .int64 objectId (.atResultId fieldId (change args))
    else .atResultId fieldId (change args)
  backward args := .atResultId fieldId (revert args)

section Minting

variable {commandId : CommandId} {fieldId : FieldId}
  {change revert : Map → ObjectId → D → Except Exception D}

/-- A first run, on the empty result: mint an id, set it, and change the data at it. -/
theorem forward_mintingCommand_empty (args : Map) (state : State D) :
    Registration.forward (mintingCommand commandId fieldId change revert) args Map.empty true
        state =
      match State.getNextObjectId state with
      | .ok objectId minted =>
          match change args objectId minted.data with
          | .ok data => .ok (Map.empty.insert fieldId (wrap .int64 objectId)) { minted with data }
          | .error exception => .error (.exception exception) minted
      | .error fault minted => .error fault minted := by
  have absent : Map.empty.hasField .int64 fieldId = false := rfl
  simp only [Registration.forward, mintingCommand, Action.exec, absent, Bool.not_false, if_true]
  cases State.getNextObjectId state with
  | ok objectId minted =>
      have recorded := (Map.empty.getField_insert_wrap .int64 fieldId objectId).1
      simp only [ResultBase.setResultField, Bool.not_true, Bool.false_eq_true, if_false,
        Map.atField, recorded, Action.exec_update]
      cases change args objectId minted.data <;> rfl
  | error fault minted => rfl

/-- A first run that returns wrote the id it minted, the counter's value, and nothing
else. -/
theorem result_of_forward_mintingCommand {args result : Map} {state ran : State D}
    (returned : Registration.forward (mintingCommand commandId fieldId change revert) args
      Map.empty true state = .ok result ran) :
    result = Map.empty.insert fieldId (wrap .int64 state.mNextObjectId) := by
  rw [forward_mintingCommand_empty] at returned
  split at returned
  · rename_i objectId minted called
    rw [(State.getNextObjectId_ok called).1] at returned
    split at returned
    · cases returned; rfl
    · cases returned
  · cases returned

/-- A run on a result that holds an id, as the replay of `redo()`: change the data at
that id, with no id minted and the result as it was. -/
theorem forward_mintingCommand_recorded {args result : Map} {objectId : ObjectId}
    (recorded : result.getField .int64 fieldId = some objectId)
    (has : result.hasField .int64 fieldId = true) (mutableResult : Bool) (state : State D) :
    Registration.forward (mintingCommand commandId fieldId change revert) args result
        mutableResult state =
      match change args objectId state.data with
      | .ok data => .ok result { state with data }
      | .error exception => .error (.exception exception) state := by
  simp only [Registration.forward, mintingCommand, Action.exec, has, Bool.not_true,
    Bool.false_eq_true, if_false, if_true, Map.atField, recorded, Action.exec_update]
  cases change args objectId state.data <;> rfl

/-- `backward` changes the data back at the id the result holds. -/
theorem backward_mintingCommand {args result : Map} {objectId : ObjectId}
    (recorded : result.getField .int64 fieldId = some objectId) (state : State D) :
    Registration.backward (mintingCommand commandId fieldId change revert) args result state =
      match revert args objectId state.data with
      | .ok data => .ok result { state with data }
      | .error exception => .error (.exception exception) state := by
  simp only [Registration.backward, mintingCommand, if_true, ResultBase.ofConst, Action.exec,
    Map.atField, recorded, Action.exec_update]
  cases revert args objectId state.data <;> rfl

/-- Every record of a minting command in a reachable world holds the id its first run
minted. -/
theorem recorded_mintingCommand {world : World D} (reachable : Reachable world)
    (registered : world.registry.getCommand commandId =
      some (Registration.entry (mintingCommand commandId fieldId change revert)))
    {record : State.CommandRecord} (member : record ∈ world.state.records)
    (same : record.commandId = commandId) :
    ∃ objectId, record.result.getField .int64 fieldId = some objectId ∧
      record.result.hasField .int64 fieldId = true := by
  obtain ⟨entry, found, state, ran, forwarded⟩ := reachable.resultsFirstWritten record member
  rw [same, registered, Option.some.injEq] at found
  subst found
  have written := result_of_forward_mintingCommand forwarded
  obtain ⟨read, has, -⟩ := Map.empty.getField_insert_wrap .int64 fieldId state.mNextObjectId
  exact ⟨state.mNextObjectId, written ▸ read, written ▸ has⟩

/-- Minting commands are undone and redone at the id their first run minted.  In every
reachable world whose registry holds a minting command under its id, a record of it at
the back of either deque holds an id.  `undo()` reverts the data at that id, and
`redo()` changes it at that id again without minting another: both leave the object-id
counter where it is, whether the command code returns or raises. -/
theorem minting_reuses_recorded_id {world : World D} (reachable : Reachable world)
    (registered : world.registry.getCommand commandId =
      some (Registration.entry (mintingCommand commandId fieldId change revert)))
    {rest : List State.CommandRecord} {record : State.CommandRecord}
    (same : record.commandId = commandId) :
    (world.state.mUndo = rest ++ [record] →
      ∃ objectId, record.result.getField .int64 fieldId = some objectId ∧
        State.undo world.registry world.state =
          match revert record.args objectId world.state.data with
          | .ok data => .ok ()
              { world.state with mUndo := rest, mRedo := world.state.mRedo ++ [record], data }
          | .error exception => .error (.exception exception) { world.state with mUndo := rest }) ∧
    (world.state.mRedo = rest ++ [record] →
      ∃ objectId, record.result.getField .int64 fieldId = some objectId ∧
        State.redo world.registry world.state =
          match change record.args objectId world.state.data with
          | .ok data => .ok ()
              { world.state with mUndo := world.state.mUndo ++ [record], mRedo := rest, data }
          | .error exception =>
              .error (.exception exception) { world.state with mRedo := rest }) := by
  have found : world.registry.getCommand record.commandId =
      some (Registration.entry (mintingCommand commandId fieldId change revert)) :=
    same ▸ registered
  constructor
  · intro popped
    obtain ⟨objectId, read, -⟩ :=
      recorded_mintingCommand reachable registered (by simp [State.records, popped]) same
    refine ⟨objectId, read, ?_⟩
    simp only [State.undo_of_append popped, State.undoRecord, found, Registration.entry,
      backward_mintingCommand read]
    cases revert record.args objectId world.state.data <;> rfl
  · intro popped
    obtain ⟨objectId, read, has⟩ :=
      recorded_mintingCommand reachable registered (by simp [State.records, popped]) same
    refine ⟨objectId, read, ?_⟩
    simp only [State.redo_of_append popped, State.redoRecord, found, Registration.entry,
      forward_mintingCommand_recorded read has]
    cases change record.args objectId world.state.data <;> rfl

end Minting

/-! ## The bakery of the state benchmark -/

/-- `InventoryState::Transaction`. -/
structure Transaction where
  mDate : BitVec 64
  mAmount : Float
  mDescription : String

/-- The members of `InventoryState`: `m_inventory`, item name to quantity, and
`m_ledger`, ledger entry id to transaction, each `std::map` an association list. -/
structure InventoryState where
  mInventory : List (String × Float)
  mLedger : List (ObjectId × Transaction)

/-- `std::map::erase`. -/
def mapErase {K V : Type} [DecidableEq K] (entries : List (K × V)) (key : K) : List (K × V) :=
  entries.filter (·.1 != key)

/-- `map[key] = value`. -/
def mapAssign {K V : Type} [DecidableEq K] (entries : List (K × V)) (key : K) (value : V) :
    List (K × V) :=
  (key, value) :: mapErase entries key

@[simp] theorem lookup_mapErase {K V : Type} [DecidableEq K] (entries : List (K × V))
    (key other : K) :
    (mapErase entries key).lookup other = if other = key then none else entries.lookup other := by
  induction entries with
  | nil => simp [mapErase]
  | cons entry entries ih =>
      obtain ⟨first, value⟩ := entry
      simp only [mapErase] at ih ⊢
      by_cases erased : first = key
      · subst erased
        simp only [List.filter_cons, bne_self_eq_false, Bool.false_eq_true, if_false, ih]
        by_cases same : other = first
        · simp only [same, if_true]
        · simp [same, List.lookup_cons, beq_false_of_ne same]
      · simp only [List.filter_cons, bne_iff_ne.mpr erased, if_true, List.lookup_cons, ih]
        by_cases same : other = first
        · subst same; simp [erased]
        · simp [beq_false_of_ne same]

@[simp] theorem lookup_mapAssign {K V : Type} [DecidableEq K] (entries : List (K × V)) (key : K)
    (value : V) (other : K) :
    (mapAssign entries key value).lookup other =
      if other = key then some value else entries.lookup other := by
  by_cases same : other = key
  · simp [mapAssign, List.lookup_cons, same]
  · simp [mapAssign, List.lookup_cons, same, beq_false_of_ne same]

/-- `map[key] += ...` or `-= ...` on a `double`, from `0.0` for a key not there. -/
def mapModify (entries : List (String × Float)) (key : String) (modify : Float → Float) :
    List (String × Float) :=
  mapAssign entries key (modify ((entries.lookup key).getD 0))

/-- The id `OCTO_ARG` and `OCTO_RESULT` give the field `name`: the literal operator on
its bytes, which for an ASCII name is their FNV-1a hash. -/
def fieldIdOf (name : String) : FieldId := fnv1a32 name.toUTF8.data.toList

/-- What `FundCompanyCommand::forward` does at the id: file
`Transaction(0, amount(), "Funded Company")` under it. -/
def fundCompanyChange (args : Map) (objectId : ObjectId) (state : InventoryState) :
    Except Exception InventoryState := do
  let amount : Float ← args.atField .real (fieldIdOf "amount")
  pure { state with mLedger := mapAssign state.mLedger objectId ⟨0, amount, "Funded Company"⟩ }

/-- `FundCompanyCommand::backward`: erase the entry. -/
def fundCompanyRevert (_ : Map) (objectId : ObjectId) (state : InventoryState) :
    Except Exception InventoryState :=
  pure { state with mLedger := mapErase state.mLedger objectId }

/-- `FundCompanyCommand`, command `17`. -/
def fundCompanyCommand : CommandClass InventoryState :=
  mintingCommand 17 (fieldIdOf "new_ledger_entry_id") fundCompanyChange fundCompanyRevert

/-- What `PurchaseCommand::forward` does at the id: add `qty()` to the stock of
`item()`, and file the cost `qty() * unit_price()` as a negative amount under the id. -/
def purchaseChange (args : Map) (objectId : ObjectId) (state : InventoryState) :
    Except Exception InventoryState := do
  let item : String ← args.atField .string (fieldIdOf "item")
  let qty : Float ← args.atField .real (fieldIdOf "qty")
  let unitPrice : Float ← args.atField .real (fieldIdOf "unit_price")
  pure { mInventory := mapModify state.mInventory item (· + qty)
         mLedger := mapAssign state.mLedger objectId
           ⟨0, -(qty * unitPrice), "Purchased " ++ item⟩ }

/-- `PurchaseCommand::backward`: take `qty()` off the stock of `item()`, and erase the
entry. -/
def purchaseRevert (args : Map) (objectId : ObjectId) (state : InventoryState) :
    Except Exception InventoryState := do
  let item : String ← args.atField .string (fieldIdOf "item")
  let qty : Float ← args.atField .real (fieldIdOf "qty")
  pure { mInventory := mapModify state.mInventory item (· - qty)
         mLedger := mapErase state.mLedger objectId }

/-- `PurchaseCommand`, command `37`. -/
def purchaseCommand : CommandClass InventoryState :=
  mintingCommand 37 (fieldIdOf "new_ledger_entry_id") purchaseChange purchaseRevert

/-- The arguments of `FundCompanyCommand fc {10000.0}`. -/
def fundCompanyArgs : Map := Map.empty.insert (fieldIdOf "amount") (wrap .real (10000.0 : Float))

/-- The record `runCommand(fc)` admits, with the first id of session `0` in its result. -/
def fundCompanyRecord : State.CommandRecord :=
  ⟨17, fundCompanyArgs,
    Map.empty.insert (fieldIdOf "new_ledger_entry_id") (wrap .int64 (objectIdOf 0 1))⟩

/-- `InventoryState bakery { 0 }` of the benchmark scenario with both commands
registered, after `runCommand(fc)` and one undo. -/
def bakeryWorld : World InventoryState :=
  (⟨.empty, ⟨0, objectIdOf 0 1, [], [], ⟨[], []⟩⟩⟩ : World InventoryState).run
    [.register fundCompanyCommand, .register purchaseCommand,
      .runCommand 17 fundCompanyArgs true, .undo]

theorem minting_reuses_recorded_id_of_bakery :
    Reachable bakeryWorld ∧
      bakeryWorld.registry.getCommand 17 = some (Registration.entry (mintingCommand 17
        (fieldIdOf "new_ledger_entry_id") fundCompanyChange fundCompanyRevert)) ∧
      fundCompanyRecord.commandId = 17 ∧
      ((bakeryWorld.state.mUndo = [] ++ [fundCompanyRecord] →
        ∃ objectId, fundCompanyRecord.result.getField .int64 (fieldIdOf "new_ledger_entry_id") =
            some objectId ∧
          State.undo bakeryWorld.registry bakeryWorld.state =
            match fundCompanyRevert fundCompanyRecord.args objectId bakeryWorld.state.data with
            | .ok data => .ok ()
                { bakeryWorld.state with
                  mUndo := [], mRedo := bakeryWorld.state.mRedo ++ [fundCompanyRecord], data }
            | .error exception =>
                .error (.exception exception) { bakeryWorld.state with mUndo := [] }) ∧
      (bakeryWorld.state.mRedo = [] ++ [fundCompanyRecord] →
        ∃ objectId, fundCompanyRecord.result.getField .int64 (fieldIdOf "new_ledger_entry_id") =
            some objectId ∧
          State.redo bakeryWorld.registry bakeryWorld.state =
            match fundCompanyChange fundCompanyRecord.args objectId bakeryWorld.state.data with
            | .ok data => .ok ()
                { bakeryWorld.state with
                  mUndo := bakeryWorld.state.mUndo ++ [fundCompanyRecord], mRedo := [], data }
            | .error exception =>
                .error (.exception exception) { bakeryWorld.state with mRedo := [] })) := by
  have reachable : Reachable bakeryWorld :=
    .step _ (.step _ (.step _ (.step _ (.new (State.new_eq 0 ⟨[], []⟩)))))
  have registered : bakeryWorld.registry.getCommand 17 = some (Registration.entry (mintingCommand
      17 (fieldIdOf "new_ledger_entry_id") fundCompanyChange fundCompanyRevert)) := rfl
  exact ⟨reachable, registered, rfl, minting_reuses_recorded_id reachable registered rfl⟩

end Octo
