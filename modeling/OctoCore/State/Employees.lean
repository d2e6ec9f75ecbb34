import OctoCore.State.Minting

/-!
# Inserting employees, and when it is atomic

`InsertEmployeesCommand` of the state tests first checks every name against the
employees of `BasicState` and throws `CommandWillNotApplyException` on the first
taken one, before it changes anything; only then does it take an id for each name
from `getNextObjectId`, file the employee under it, and set `employee_ids`.  So a
taken name leaves the state as it was, which is what the atomicity test checks.

Two details of the C++ decide what the check sees and what it throws.  It passes
`name.c_str()` to `hasName(const char*)`, so a name is compared only up to its first
NUL character.  The exception keeps the `c_str()` of the temporary
`string("Name already exists: ") + name`, which is destroyed once the `throw`
expression ends, so its reason points into freed memory.

The core does not roll a command back when it raises, so the insert loop is atomic
only while ids last: when the session's ids run out part way, `getNextObjectId`
raises with the employees before it already filed.
-/

namespace Octo

/-- `Employee` of the state tests: a name and a start date. -/
structure Employee where
  name : String
  startDate : BitVec 32

/-- `BasicState`: its `m_employees`, employee id to employee, a `std::map` as an
association list. -/
structure BasicState where
  mEmployees : List (ObjectId × Employee)

/-- `std::string::c_str()` as a reader of the `const char*` sees it: the characters
before the first NUL. -/
def cStr (text : String) : String := ⟨text.data.takeWhile (· != Char.ofNat 0)⟩

/-- `BasicState::hasName(const char* name)`: whether some employee's name, a
`std::string`, equals the C string `name`. -/
def BasicState.hasName (state : BasicState) (name : String) : Bool :=
  state.mEmployees.any fun employee => employee.2.name == name

/-- The second loop of `InsertEmployeesCommand::forward`: for each name an id from
`getNextObjectId`, appended to `new_ids`, and the employee filed under it; then
`set_employee_ids(new_ids)`. -/
def insertEmployees : List String → List ObjectId → Action BasicState
  | [], newIds => .setResultField (fieldIdOf "employee_ids") .intList newIds .done
  | name :: names, newIds => .getNextObjectId fun objectId => .read fun state _ =>
      .write ⟨mapAssign state.mEmployees objectId ⟨name, 0⟩⟩
        (insertEmployees names (newIds ++ [objectId]))

/-- `InsertEmployeesCommand`, command `1` of `BasicState`: throw on the first name
whose C string is taken, with the reason freed, else insert them all; `backward` is
not implemented. -/
def insertEmployeesCommand : CommandClass BasicState where
  commandId := 1
  acceptStatePtr _ := true
  forward args :=
    match args.atField .strList (fieldIdOf "names") with
    | .ok names => .read fun state _ =>
        match names.find? fun name => state.hasName (cStr name) with
        | some _ => .raise (.commandWillNotApply .freed)
        | none => insertEmployees names []
    | .error exception => .raise exception
  backward _ := .raise (.stateException "Not implemented")

/-- The ids `count`, `count + 1`, ... of a session, as the layout of `getNextObjectId`
gives them. -/
def mintedIds (sessionId : SessionId) (count : Nat) (n : Nat) : List ObjectId :=
  (List.range n).map fun i => objectIdOf sessionId (count + i)

/-- The employees after filing `names` under the ids from `count` on. -/
def hire (employees : List (ObjectId × Employee)) (sessionId : SessionId) (count : Nat) :
    List String → List (ObjectId × Employee)
  | [] => employees
  | name :: names =>
      hire (mapAssign employees (objectIdOf sessionId count) ⟨name, 0⟩) sessionId (count + 1) names

theorem mintedIds_succ (sessionId : SessionId) (count n : Nat) :
    mintedIds sessionId count (n + 1) =
      objectIdOf sessionId count :: mintedIds sessionId (count + 1) n := by
  simp only [mintedIds, List.range_succ_eq_map, List.map_cons, List.map_map, Nat.add_zero]
  congr 1
  exact List.map_congr_left fun i _ => by
    simp only [Function.comp, Nat.succ_eq_add_one]
    congr 1
    omega

theorem add_one_add_ofNat (objectId : ObjectId) (n : Nat) :
    objectId + 1 + BitVec.ofNat 64 n = objectId + BitVec.ofNat 64 (n + 1) := by
  rw [BitVec.add_assoc]
  congr 1
  apply BitVec.eq_of_toNat_eq
  simp only [BitVec.toNat_add, BitVec.toNat_ofNat, show (1 : BitVec 64).toNat = 1 from rfl]
  omega

/-- The insert loop on a mutable result, from a counter holding `count` in a session
below `2^14`: if the session has an id left for every name, it files them all under
consecutive ids and sets those ids; otherwise it files the names it has ids for, and
raises when the ids run out. -/
theorem exec_insertEmployees (names : List String) (newIds : List ObjectId) (result : Map)
    (state : State BasicState) {count : Nat} (small : state.mSessionId.toNat < 2 ^ 14)
    (counter : state.mNextObjectId.toNat = state.mSessionId.toNat * 2 ^ 48 + count)
    (bound : count + names.length < 2 ^ 62) :
    (insertEmployees names newIds).exec ⟨true, result⟩ state =
      if names.length ≤ 2 ^ 48 - count then
        .ok ⟨true, result.insert (fieldIdOf "employee_ids")
            (wrap .intList (newIds ++ mintedIds state.mSessionId count names.length))⟩
          { state with
            mNextObjectId := state.mNextObjectId + BitVec.ofNat 64 names.length
            data := ⟨hire state.data.mEmployees state.mSessionId count names⟩ }
      else
        .error State.objectIdsExhausted
          { state with
            mNextObjectId := state.mNextObjectId + BitVec.ofNat 64 (2 ^ 48 - count + 1)
            data := ⟨hire state.data.mEmployees state.mSessionId count
              (names.take (2 ^ 48 - count))⟩ } := by
  induction names generalizing newIds state count with
  | nil =>
      simp [insertEmployees, Action.exec, ResultBase.setResultField, mintedIds, hire]
  | cons name names ih =>
      rw [List.length_cons] at bound ⊢
      simp only [insertEmployees, Action.exec]
      rw [State.getNextObjectId_of_counter state small counter (by omega),
        State.stateAfter_getNextObjectId]
      by_cases fresh : count < 2 ^ 48
      · rw [if_pos fresh]
        have next := @ih (newIds ++ [objectIdOf state.mSessionId count])
          { state with
            mNextObjectId := state.mNextObjectId + 1
            data := ⟨mapAssign state.data.mEmployees (objectIdOf state.mSessionId count)
              ⟨name, 0⟩⟩ }
          (count + 1) small
          (by simp only [BitVec.toNat_add, show (1 : BitVec 64).toNat = 1 from rfl]; omega)
          (by omega)
        simp only [Action.exec]
        rw [next]
        by_cases enough : names.length + 1 ≤ 2 ^ 48 - count
        · rw [if_pos (by omega), if_pos enough]
          simp only [mintedIds_succ, List.append_assoc, List.singleton_append, add_one_add_ofNat,
            hire]
        · have left : 2 ^ 48 - count = 2 ^ 48 - (count + 1) + 1 := by omega
          rw [if_neg (by omega), if_neg enough, left]
          simp only [List.take_succ_cons, hire, add_one_add_ofNat]
      · have spent : 2 ^ 48 - count = 0 := by omega
        rw [if_neg fresh, if_neg (by omega), spent]
        rfl

namespace World

/-- Inserting employees is atomic on a taken name, and files the names under
consecutive ids while ids last.  Take a world whose registry holds
`InsertEmployeesCommand` under its id, a session below `2^14` whose counter holds
`count`, and arguments whose `names` field lists some names.  If a name is taken up
to its first NUL, the run raises `CommandWillNotApplyException`, whose reason points
into freed memory, and the world is as it was.  Otherwise, if the session has an id
left for each name, the run returns: each name is filed under the next id, those ids
are the result's `employee_ids`, and the record joins the undo deque.  If the ids run
out part way, the run raises the exhaustion `StateException` with the names it had ids
for already filed, and keeps no record. -/
theorem insertEmployees_atomic_on_names {world : World BasicState}
    (registered :
      world.registry.getCommand 1 = some (Registration.entry insertEmployeesCommand))
    {args : Map} {names : List String}
    (named : args.getField .strList (fieldIdOf "names") = some names) {count : Nat}
    (small : world.state.mSessionId.toNat < 2 ^ 14)
    (counter : world.state.mNextObjectId.toNat = world.state.mSessionId.toNat * 2 ^ 48 + count)
    (bound : count + names.length < 2 ^ 62) :
    world.step (.runCommand 1 args true) =
      match names.find? fun name => world.state.data.hasName (cStr name) with
      | some _ => (world, some (.exception (.commandWillNotApply .freed)))
      | none =>
          if names.length ≤ 2 ^ 48 - count then
            (⟨world.registry, { world.state with
              mNextObjectId := world.state.mNextObjectId + BitVec.ofNat 64 names.length
              mUndo := world.state.mUndo ++ [⟨1, args, Map.empty.insert (fieldIdOf "employee_ids")
                (wrap .intList (mintedIds world.state.mSessionId count names.length))⟩]
              mRedo := []
              data := ⟨hire world.state.data.mEmployees world.state.mSessionId count names⟩ }⟩,
              none)
          else
            (⟨world.registry, { world.state with
              mNextObjectId := world.state.mNextObjectId + BitVec.ofNat 64 (2 ^ 48 - count + 1)
              data := ⟨hire world.state.data.mEmployees world.state.mSessionId count
                (names.take (2 ^ 48 - count))⟩ }⟩, some State.objectIdsExhausted) := by
  have read : args.atField .strList (fieldIdOf "names") = .ok names := by
    simp [Map.atField, named]
  simp only [step, onState, State.runCommand, State._runCommand, registered, Registration.entry,
    Registration.forward, insertEmployeesCommand, if_true, Action.exec, read]
  cases names.find? fun name => world.state.data.hasName (cStr name) with
  | some _ => rfl
  | none =>
      rw [exec_insertEmployees names [] Map.empty world.state small counter bound]
      by_cases enough : names.length ≤ 2 ^ 48 - count
      · simp only [if_pos enough]
        rfl
      · simp only [if_neg enough]
        rfl

/-- `BasicState state;` of the atomicity test, session `10`, with
`InsertEmployeesCommand` registered. -/
def basicStateWorld : World BasicState :=
  ((⟨.empty, ⟨10, objectIdOf 10 1, [], [], ⟨[]⟩⟩⟩ : World BasicState).step
    (.register insertEmployeesCommand)).1

/-- The arguments of `InsertEmployeesCommand().addName("alice").addName("bob")`. -/
def aliceBobArgs : Map := Map.empty.insert (fieldIdOf "names") (wrap .strList ["alice", "bob"])

theorem insertEmployees_atomic_on_names_of_aliceBob :
    basicStateWorld.registry.getCommand 1 = some (Registration.entry insertEmployeesCommand) ∧
      aliceBobArgs.getField .strList (fieldIdOf "names") = some ["alice", "bob"] ∧
      basicStateWorld.state.mSessionId.toNat < 2 ^ 14 ∧
      basicStateWorld.state.mNextObjectId.toNat =
        basicStateWorld.state.mSessionId.toNat * 2 ^ 48 + 1 ∧
      1 + ["alice", "bob"].length < 2 ^ 62 ∧
      basicStateWorld.step (.runCommand 1 aliceBobArgs true) =
        match ["alice", "bob"].find? fun name =>
            basicStateWorld.state.data.hasName (cStr name) with
        | some _ => (basicStateWorld, some (.exception (.commandWillNotApply .freed)))
        | none =>
            if ["alice", "bob"].length ≤ 2 ^ 48 - 1 then
              (⟨basicStateWorld.registry, { basicStateWorld.state with
                mNextObjectId := basicStateWorld.state.mNextObjectId +
                  BitVec.ofNat 64 ["alice", "bob"].length
                mUndo := basicStateWorld.state.mUndo ++ [⟨1, aliceBobArgs,
                  Map.empty.insert (fieldIdOf "employee_ids") (wrap .intList
                    (mintedIds basicStateWorld.state.mSessionId 1 ["alice", "bob"].length))⟩]
                mRedo := []
                data := ⟨hire basicStateWorld.state.data.mEmployees
                  basicStateWorld.state.mSessionId 1 ["alice", "bob"]⟩ }⟩, none)
            else
              (⟨basicStateWorld.registry, { basicStateWorld.state with
                mNextObjectId :=
                  basicStateWorld.state.mNextObjectId + BitVec.ofNat 64 (2 ^ 48 - 1 + 1)
                data := ⟨hire basicStateWorld.state.data.mEmployees
                  basicStateWorld.state.mSessionId 1 (["alice", "bob"].take (2 ^ 48 - 1))⟩ }⟩,
                some State.objectIdsExhausted) := by
  have registered : basicStateWorld.registry.getCommand 1 =
      some (Registration.entry insertEmployeesCommand) := rfl
  have named : aliceBobArgs.getField .strList (fieldIdOf "names") = some ["alice", "bob"] := rfl
  have counter : basicStateWorld.state.mNextObjectId.toNat =
      basicStateWorld.state.mSessionId.toNat * 2 ^ 48 + 1 := State.toNat_objectIdOf (by decide)
  exact ⟨registered, named, by decide, counter, by decide,
    insertEmployees_atomic_on_names registered named (by decide) counter (by decide)⟩

-- The second insertion of the atomicity test names `bob`, who is taken: it raises and
-- files nobody.
example : (⟨⟨[(1, Registration.entry insertEmployeesCommand)]⟩,
      ⟨10, objectIdOf 10 3, [], [], ⟨[(objectIdOf 10 2, ⟨"bob", 0⟩)]⟩⟩⟩ : World BasicState).step
      (.runCommand 1
        (Map.empty.insert (fieldIdOf "names") (wrap .strList ["cameron", "bob"])) true) =
    (⟨⟨[(1, Registration.entry insertEmployeesCommand)]⟩,
      ⟨10, objectIdOf 10 3, [], [], ⟨[(objectIdOf 10 2, ⟨"bob", 0⟩)]⟩⟩⟩,
      some (.exception (.commandWillNotApply .freed))) := by
  rfl

end World

end Octo
