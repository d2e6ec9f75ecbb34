import OctoCore.DataTypes
import Mathlib.Logic.Function.Basic

/-!
# Copy-on-write command arguments

A `CommandBase` keeps its arguments behind a `std::shared_ptr<Map>`.  `args()` hands
the caller another owner of the same map, and every write through an `ArgField`
first calls `argsMutable()`, which copies the map when `use_count()` shows another
owner.  This module models the control blocks of those shared maps with their use
counts, the command's own handle, and the handles callers keep.

The main result is a refinement: under the invariant that each use count is the
number of live handles, the heap behaves like a model in which `args()` takes a
snapshot of the arguments and every write changes only the command's own map.  The
copies cost little: a write copies only a map that `args()` shared, so a command
allocates at most one copy per call of `args()`.
-/

namespace Octo

/-- The control block of a `std::shared_ptr<Map>`: the map and its `use_count()`. -/
structure SharedMap where
  map : Map
  useCount : Nat

/-- The data members of `CommandBase`; `mArgs` is the address of the shared map. -/
structure CommandBase where
  mCommandId : CommandId
  mArgs : Nat

/-- One command with the control blocks allocated for its arguments so far and the
handles returned by `args()` that callers still hold, oldest first. -/
structure ArgsHeap where
  blocks : Nat → SharedMap
  next : Nat
  command : CommandBase
  kept : List Nat

/-- What a caller does with a command before and while it is run.  `mutate` is
`operator*`, `operator->` or `operator[]` of an `ArgField` with the mutation through
the returned reference applied at once; `args` is a call of `args()` whose handle is
kept, as `State::_runCommand` keeps one in its `CommandRecord`. -/
inductive ArgsCall where
  | assign (fieldId : FieldId) (value : GenericValue)
  | mutate (fieldId : FieldId) (update : GenericValue → GenericValue)
  | read (fieldId : FieldId)
  | args
  | release (index : Nat)

/-- Whether a call is `args()`. -/
def ArgsCall.isArgs : ArgsCall → Bool
  | .args => true
  | _ => false

namespace ArgsHeap

/-- `CommandBase(CommandId)`: `m_args` owns a fresh empty map. -/
def new (commandId : CommandId) : ArgsHeap where
  blocks := fun address => ⟨Map.empty, if address = 0 then 1 else 0⟩
  next := 1
  command := ⟨commandId, 0⟩
  kept := []

/-- Change the use count of one control block. -/
def adjustUseCount (heap : ArgsHeap) (address : Nat) (change : Nat → Nat) :
    Nat → SharedMap :=
  Function.update heap.blocks address
    { heap.blocks address with useCount := change (heap.blocks address).useCount }

/-- `argsReadOnly()`: the map the command's handle points to. -/
def argsReadOnly (heap : ArgsHeap) : Map :=
  (heap.blocks heap.command.mArgs).map

/-- `args()`, with the returned `shared_ptr` kept by the caller. -/
def args (heap : ArgsHeap) : ArgsHeap :=
  { heap with
    blocks := heap.adjustUseCount heap.command.mArgs (· + 1),
    kept := heap.kept ++ [heap.command.mArgs] }

/-- The caller destroys its `index`-th kept handle. -/
def release (heap : ArgsHeap) (index : Nat) : ArgsHeap :=
  match heap.kept[index]? with
  | none => heap
  | some address =>
      { heap with
        blocks := heap.adjustUseCount address (· - 1),
        kept := heap.kept.eraseIdx index }

/-- `m_args = std::make_shared<Map>(*old_args)`: point `m_args` at a fresh copy of
its map, which releases the old one. -/
def copyArgs (heap : ArgsHeap) : ArgsHeap where
  blocks := Function.update (heap.adjustUseCount heap.command.mArgs (· - 1)) heap.next
    ⟨heap.argsReadOnly, 1⟩
  next := heap.next + 1
  command := { heap.command with mArgs := heap.next }
  kept := heap.kept

/-- `argsMutable()`: copy the arguments first if another owner shares them. -/
def argsMutable (heap : ArgsHeap) : ArgsHeap :=
  if (heap.blocks heap.command.mArgs).useCount > 1 then heap.copyArgs else heap

/-- A write through the pointer `argsMutable()` returns. -/
def writeArgs (heap : ArgsHeap) (write : Map → Map) : ArgsHeap :=
  let heap := heap.argsMutable
  { heap with
    blocks := Function.update heap.blocks heap.command.mArgs
      { heap.blocks heap.command.mArgs with map := write heap.argsReadOnly } }

/-- One call on the command. -/
def step (heap : ArgsHeap) : ArgsCall → ArgsHeap
  | .assign fieldId value => heap.writeArgs (·.insert fieldId value)
  | .mutate fieldId update =>
      heap.writeArgs fun map => map.insert fieldId (update (map.findD fieldId))
  | .read _ => heap
  | .args => heap.args
  | .release index => heap.release index

/-- A sequence of calls. -/
def run (heap : ArgsHeap) (calls : List ArgsCall) : ArgsHeap :=
  calls.foldl step heap

end ArgsHeap

/-! ## The snapshot model -/

/-- What copy-on-write promises: the command's current arguments and, for each kept
handle, the arguments as they were when `args()` returned it. -/
structure ArgsView where
  current : Map
  snapshots : List Map

namespace ArgsView

/-- The snapshot model of one call: writes change only the current arguments,
`args()` takes a snapshot, and releasing a handle drops its snapshot. -/
def step (view : ArgsView) : ArgsCall → ArgsView
  | .assign fieldId value => { view with current := view.current.insert fieldId value }
  | .mutate fieldId update =>
      { view with current := view.current.insert fieldId (update (view.current.findD fieldId)) }
  | .read _ => view
  | .args => { view with snapshots := view.snapshots ++ [view.current] }
  | .release index => { view with snapshots := view.snapshots.eraseIdx index }

/-- The snapshot model of a sequence of calls. -/
def run (view : ArgsView) (calls : List ArgsCall) : ArgsView :=
  calls.foldl step view

end ArgsView

namespace ArgsHeap

/-- The contents the command and each kept handle see. -/
def view (heap : ArgsHeap) : ArgsView :=
  ⟨heap.argsReadOnly, heap.kept.map fun address => (heap.blocks address).map⟩

/-- Every use count is the number of live handles on its map, the command's own
included, and nothing at or past `next` is owned. -/
structure WellFormed (heap : ArgsHeap) : Prop where
  useCount_eq : ∀ address, (heap.blocks address).useCount =
    (if address = heap.command.mArgs then 1 else 0) + heap.kept.count address
  fresh : ∀ address, heap.next ≤ address → (heap.blocks address).useCount = 0

theorem wellFormed_new (commandId : CommandId) : (new commandId).WellFormed where
  useCount_eq address := by by_cases zero : address = 0 <;> simp [new, zero]
  fresh address past := by
    have : address ≠ 0 := by simp only [new] at past; omega
    simp [new, this]

variable {heap : ArgsHeap}

theorem WellFormed.next_fresh (wellFormed : heap.WellFormed) :
    heap.next ≠ heap.command.mArgs ∧ heap.next ∉ heap.kept := by
  have owners := wellFormed.useCount_eq heap.next
  rw [wellFormed.fresh heap.next le_rfl] at owners
  constructor
  · intro same
    rw [if_pos same] at owners
    omega
  · intro member
    have := List.count_pos_iff.mpr member
    omega

/-- A map used by the command alone is in no kept handle. -/
theorem WellFormed.not_mem_kept (wellFormed : heap.WellFormed)
    (alone : (heap.blocks heap.command.mArgs).useCount ≤ 1) :
    heap.command.mArgs ∉ heap.kept := by
  intro member
  have owners := wellFormed.useCount_eq heap.command.mArgs
  have := List.count_pos_iff.mpr member
  rw [if_pos rfl] at owners
  omega

@[simp] theorem map_adjustUseCount (address : Nat) (change : Nat → Nat) (other : Nat) :
    (heap.adjustUseCount address change other).map = (heap.blocks other).map := by
  by_cases same : other = address
  · subst same; simp [adjustUseCount]
  · simp [adjustUseCount, Function.update_noteq same]

theorem useCount_adjustUseCount (address : Nat) (change : Nat → Nat) (other : Nat) :
    (heap.adjustUseCount address change other).useCount =
      if other = address then change (heap.blocks address).useCount
      else (heap.blocks other).useCount := by
  by_cases same : other = address
  · subst same; simp [adjustUseCount]
  · simp [adjustUseCount, Function.update_noteq same, same]

@[simp] theorem copyArgs_next : heap.copyArgs.next = heap.next + 1 := rfl
@[simp] theorem copyArgs_mArgs : heap.copyArgs.command.mArgs = heap.next := rfl
@[simp] theorem copyArgs_kept : heap.copyArgs.kept = heap.kept := rfl

theorem copyArgs_blocks (address : Nat) :
    heap.copyArgs.blocks address =
      if address = heap.next then ⟨heap.argsReadOnly, 1⟩
      else heap.adjustUseCount heap.command.mArgs (· - 1) address := by
  by_cases isNext : address = heap.next
  · subst isNext; simp [copyArgs]
  · simp [copyArgs, Function.update_noteq isNext, isNext]

/-- The copy changes nothing any handle sees and keeps the invariant. -/
theorem copyArgs_spec (wellFormed : heap.WellFormed) :
    heap.copyArgs.view = heap.view ∧ heap.copyArgs.WellFormed := by
  obtain ⟨nextNotArgs, nextNotKept⟩ := wellFormed.next_fresh
  refine ⟨?_, ⟨fun address => ?_, fun address past => ?_⟩⟩
  · simp only [view, argsReadOnly, copyArgs_blocks, copyArgs_mArgs, copyArgs_kept, if_true,
      ArgsView.mk.injEq, true_and]
    refine List.map_congr_left fun address member => ?_
    have : address ≠ heap.next := fun same => nextNotKept (same ▸ member)
    simp [this]
  · have owners := wellFormed.useCount_eq address
    rw [copyArgs_blocks, copyArgs_mArgs, copyArgs_kept]
    by_cases isNext : address = heap.next
    · subst isNext
      simp [List.count_eq_zero_of_not_mem nextNotKept]
    · simp only [isNext, if_false, useCount_adjustUseCount]
      split <;> simp_all
  · rw [copyArgs_next] at past
    have unowned := wellFormed.fresh address (by omega)
    rw [copyArgs_blocks, if_neg (by omega), useCount_adjustUseCount]
    split <;> simp_all

/-- `argsMutable()` changes nothing any handle sees, keeps the invariant, and leaves
the command the only owner of its map. -/
theorem argsMutable_spec (wellFormed : heap.WellFormed) :
    heap.argsMutable.view = heap.view ∧ heap.argsMutable.WellFormed ∧
      (heap.argsMutable.blocks heap.argsMutable.command.mArgs).useCount ≤ 1 := by
  unfold argsMutable
  split
  case isTrue =>
    obtain ⟨sameView, copied⟩ := copyArgs_spec wellFormed
    exact ⟨sameView, copied, by simp [copyArgs_blocks]⟩
  case isFalse alone => exact ⟨rfl, wellFormed, by omega⟩

/-- A write through `argsMutable()` changes the command's map and nothing a kept
handle sees. -/
theorem writeArgs_spec (wellFormed : heap.WellFormed) (write : Map → Map) :
    (heap.writeArgs write).view = { heap.view with current := write heap.view.current } ∧
      (heap.writeArgs write).WellFormed := by
  obtain ⟨sameView, mutable, alone⟩ := argsMutable_spec wellFormed
  have notKept := mutable.not_mem_kept alone
  rw [← sameView]
  refine ⟨?_, ⟨fun address => ?_, fun address past => ?_⟩⟩
  · simp only [writeArgs, view, argsReadOnly, Function.update_same, ArgsView.mk.injEq, true_and]
    refine List.map_congr_left fun address member => ?_
    have : address ≠ heap.argsMutable.command.mArgs := fun same => notKept (same ▸ member)
    simp [Function.update_noteq this]
  · have owners := mutable.useCount_eq address
    by_cases isArgs : address = heap.argsMutable.command.mArgs
    · subst isArgs; simp_all [writeArgs]
    · simp_all [writeArgs, Function.update_noteq isArgs]
  · have unowned := mutable.fresh address past
    have : address ≠ heap.argsMutable.command.mArgs := by
      intro same
      have owners := mutable.useCount_eq address
      simp [same] at owners unowned
      omega
    simp_all [writeArgs, Function.update_noteq this]

theorem args_spec (wellFormed : heap.WellFormed) :
    heap.args.view = { heap.view with snapshots := heap.view.snapshots ++ [heap.view.current] } ∧
      heap.args.WellFormed := by
  refine ⟨by simp [args, view, argsReadOnly], ⟨fun address => ?_, fun address past => ?_⟩⟩
  · have owners := wellFormed.useCount_eq address
    simp only [args, useCount_adjustUseCount, List.count_append, List.count_singleton']
    split <;> simp_all <;> omega
  · have unowned := wellFormed.fresh address past
    have : address ≠ heap.command.mArgs := by
      intro same
      have owners := wellFormed.useCount_eq address
      simp [same] at owners unowned
      omega
    simp [args, useCount_adjustUseCount, this, unowned]

private theorem map_eraseIdx {α β : Type} (f : α → β) :
    ∀ (list : List α) (index : Nat), (list.eraseIdx index).map f = (list.map f).eraseIdx index
  | [], _ => rfl
  | _ :: _, 0 => rfl
  | _ :: list, index + 1 => by simp [map_eraseIdx f list index]

private theorem count_eraseIdx (address : Nat) :
    ∀ {list : List Nat} {index removed : Nat}, list[index]? = some removed →
      (list.eraseIdx index).count address + (if address = removed then 1 else 0) =
        list.count address
  | [], _, _, found => by simp at found
  | head :: list, 0, removed, found => by
      simp only [List.getElem?_cons_zero, Option.some.injEq] at found
      subst found
      by_cases same : address = head <;> simp [List.count_cons, same]
  | head :: list, index + 1, removed, found => by
      simp only [List.getElem?_cons_succ] at found
      have := count_eraseIdx address found
      simp only [List.eraseIdx_cons_succ, List.count_cons]
      omega

theorem release_spec (wellFormed : heap.WellFormed) (index : Nat) :
    (heap.release index).view =
        { heap.view with snapshots := heap.view.snapshots.eraseIdx index } ∧
      (heap.release index).WellFormed := by
  unfold release
  split
  case h_1 missing =>
    have : heap.kept.length ≤ index := by simpa using missing
    simp [view, List.eraseIdx_of_length_le, this, wellFormed]
  case h_2 removed found =>
    refine ⟨by simp [view, argsReadOnly, map_eraseIdx], ⟨fun address => ?_, fun address past => ?_⟩⟩
    · have owners := wellFormed.useCount_eq address
      have remaining := count_eraseIdx address found
      simp only [useCount_adjustUseCount]
      split
      · simp_all
        omega
      · simp_all
    · have unowned := wellFormed.fresh address past
      simp only [useCount_adjustUseCount]
      split <;> simp_all

/-- One call on a well-formed heap keeps the invariant and acts on what the handles
see as the snapshot model does. -/
theorem step_spec (wellFormed : heap.WellFormed) (call : ArgsCall) :
    (heap.step call).view = heap.view.step call ∧ (heap.step call).WellFormed := by
  cases call with
  | assign fieldId value => exact writeArgs_spec wellFormed _
  | mutate fieldId update => exact writeArgs_spec wellFormed _
  | read fieldId => exact ⟨rfl, wellFormed⟩
  | args => exact args_spec wellFormed
  | release index => exact release_spec wellFormed index

theorem run_spec (wellFormed : heap.WellFormed) (calls : List ArgsCall) :
    (heap.run calls).view = heap.view.run calls ∧ (heap.run calls).WellFormed := by
  induction calls generalizing heap with
  | nil => exact ⟨rfl, wellFormed⟩
  | cons call calls ih =>
      obtain ⟨stepView, stepWellFormed⟩ := step_spec wellFormed call
      obtain ⟨runView, runWellFormed⟩ := ih stepWellFormed
      exact ⟨runView.trans (congrArg (ArgsView.run · calls) stepView), runWellFormed⟩

/-- Copy-on-write of command arguments: along every sequence of calls on a new
command, each kept handle keeps the arguments it saw when `args()` returned it and
the command's own map is every write applied in order, as in the snapshot model;
every use count stays the number of live handles. -/
theorem copy_on_write_refines_snapshots (commandId : CommandId) (calls : List ArgsCall) :
    ((new commandId).run calls).view = ArgsView.run ⟨Map.empty, []⟩ calls ∧
      ((new commandId).run calls).WellFormed :=
  run_spec (wellFormed_new commandId) calls

/-- The use counts and contents `CommandTest.test_args_guarantee` expects. -/
example :
    let afterSecond := (new 3000).run [.assign 1 (.boolean true), .assign 2 (.int64 42), .args,
      .assign 1 (.boolean false), .assign 2 (.int64 (-50)), .args]
    let afterThird := afterSecond.step (.assign 2 (.int64 0))
    let args1 := (afterThird.blocks (afterThird.kept.getD 0 0)).map
    let args2 := (afterThird.blocks (afterThird.kept.getD 1 0)).map
    let boolArgs : List (Option Bool) := [args1.getField .boolean 1, args2.getField .boolean 1]
    let intArgs : List (Option (BitVec 64)) := [args1.getField .int64 2, args2.getField .int64 2]
    (afterSecond.blocks (afterSecond.kept.getD 1 0)).useCount = 2 ∧
      (afterThird.blocks (afterThird.kept.getD 1 0)).useCount = 1 ∧
      (afterThird.blocks (afterThird.kept.getD 0 0)).useCount = 1 ∧
      boolArgs = [some true, some false] ∧ intArgs = [some 42, some (-50)] := by
  decide

/-! ## How often the arguments are copied -/

/-- Whether another owner shares the command's map, so that the next write copies it. -/
def shared (heap : ArgsHeap) : Bool := decide ((heap.blocks heap.command.mArgs).useCount > 1)

/-- The maps allocated so far, counting the copy the next write will make. -/
def allocations (heap : ArgsHeap) : Nat := heap.next + if heap.shared then 1 else 0

theorem allocations_argsMutable (heap : ArgsHeap) :
    heap.argsMutable.allocations = heap.allocations := by
  unfold argsMutable
  split
  case isTrue sharing => simp [allocations, shared, copyArgs_blocks, sharing]
  case isFalse alone => rfl

theorem allocations_writeArgs (heap : ArgsHeap) (write : Map → Map) :
    (heap.writeArgs write).allocations = heap.allocations := by
  rw [← allocations_argsMutable heap]
  simp [allocations, shared, writeArgs]

/-- Only `args()` can add to the allocations, and by one. -/
theorem allocations_step_le (heap : ArgsHeap) (call : ArgsCall) :
    (heap.step call).allocations ≤ heap.allocations + if call.isArgs then 1 else 0 := by
  cases call with
  | assign fieldId value => simp [step, allocations_writeArgs]
  | mutate fieldId update => simp [step, allocations_writeArgs]
  | read fieldId => simp [step]
  | args =>
      simp only [step, ArgsCall.isArgs, if_true, allocations, shared, args, adjustUseCount,
        Function.update_same]
      split <;> split <;> omega
  | release index =>
      simp only [step, release, ArgsCall.isArgs]
      split
      · simp
      · rename_i address _
        simp only [allocations, shared, useCount_adjustUseCount, decide_eq_true_eq]
        by_cases same : heap.command.mArgs = address
        · subst same
          split_ifs <;> omega
        · simp [same]

/-- Copy-on-write copies only what `args()` shared: along every sequence of calls on a
new command, the maps allocated are the command's first one and at most one copy per
call of `args()`, however many writes there are. -/
theorem copies_at_most_args (commandId : CommandId) (calls : List ArgsCall) :
    ((new commandId).run calls).next ≤ 1 + calls.countP ArgsCall.isArgs := by
  suffices bound : ∀ heap : ArgsHeap,
      (heap.run calls).allocations ≤ heap.allocations + calls.countP ArgsCall.isArgs by
    have first : (new commandId).allocations = 1 := rfl
    have counted : ((new commandId).run calls).next ≤ ((new commandId).run calls).allocations :=
      Nat.le_add_right _ _
    have := bound (new commandId)
    omega
  induction calls with
  | nil => simp [run]
  | cons call calls ih =>
      intro heap
      have first := allocations_step_le heap call
      have rest := ih (heap.step call)
      simp only [run, List.foldl_cons, List.countP_cons] at rest ⊢
      omega

end ArgsHeap

end Octo
