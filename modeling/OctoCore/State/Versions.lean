import OctoCore.State.Replay

/-!
# Undo and redo as a list of versions

What an undo history is for: an editor keeps the versions of its document with a
focus on the current one.  A change drops the versions after the focus and makes the
new one current; undo moves the focus to the previous version and redo to the next,
and neither moves past an end.  `Versions` is that list as a zipper, the versions
before the focus newest first and those after it next first, as the back of the
undo deque and the back of the redo deque hold them.

A state represents a version list when the records of its undo deque, newest first,
lead back through the earlier versions, those of its redo deque, last first, lead on
through the later ones, each by its first run, and the state's data is the current
version.  Under the replay-consistency contract every admitted run, undo and redo
keeps that relation with the matching change of the versions, so along any run of
those calls from a newly built state the domain data is always the current version
of the abstract history.
-/

namespace Octo

/-- A list of versions of the domain data with a focus on the current one: the
versions before it, newest first, the current one, and those after it, next first. -/
structure Versions (D : Type) where
  past : List D
  current : D
  future : List D

namespace Versions

variable {D : Type}

/-- The history of a document that has not changed yet. -/
def start (data : D) : Versions D := ⟨[], data, []⟩

/-- A change to `data`: the versions after the current one go and `data` follows it. -/
def push (versions : Versions D) (data : D) : Versions D :=
  ⟨versions.current :: versions.past, data, []⟩

/-- Back to the previous version, if there is one. -/
def undo (versions : Versions D) : Versions D :=
  match versions.past with
  | [] => versions
  | previous :: past => ⟨past, previous, versions.current :: versions.future⟩

/-- On to the next version, if there is one. -/
def redo (versions : Versions D) : Versions D :=
  match versions.future with
  | [] => versions
  | next :: future => ⟨versions.current :: versions.past, next, future⟩

end Versions

namespace State

variable {D : Type} {registry : CommandRegistry D}

/-- From `data`, each record leads by `link` to the next of `versions`. -/
def Linked (link : CommandRecord → D → D → Prop) : D → List CommandRecord → List D → Prop
  | _, [], [] => True
  | data, record :: records, next :: versions =>
      link record data next ∧ Linked link next records versions
  | _, _, _ => False

variable (registry) in
/-- The state represents the versions: its undo deque, newest first, leads back
through the earlier versions, each record from the first run that left the version
after it; its redo deque, last first, leads on through the later versions by their
first runs; and its domain data is the current version. -/
structure Represents (state : State D) (versions : Versions D) : Prop where
  done : Linked (fun record data previous => FirstRun registry record previous data)
    versions.current state.mUndo.reverse versions.past
  undone : Linked (FirstRun registry) versions.current state.mRedo.reverse versions.future
  data : state.data = versions.current

theorem represents_start {state : State D} (fresh : state.mUndo = [] ∧ state.mRedo = []) :
    Represents registry state (Versions.start state.data) :=
  ⟨by simp [fresh.1, Versions.start, Linked], by simp [fresh.2, Versions.start, Linked], rfl⟩

section Contract

variable (wellBehaved : registry.WellBehaved) (reversible : registry.Reversible)
include wellBehaved reversible

/-- `undo()` steps back to the previous version, or does nothing at the first. -/
theorem represents_undo {state : State D} {versions : Versions D}
    (represents : Represents registry state versions) :
    Represents registry (stateAfter (undo registry state)) versions.undo := by
  obtain ⟨done, undone, data⟩ := represents
  obtain ⟨past, current, future⟩ := versions
  rcases undo_cases registry state with ⟨empty, same⟩ | ⟨rest, record, popped, -⟩
  · rw [empty] at done
    cases past with
    | nil => rw [same, stateAfter_ok]; exact ⟨by rw [empty]; exact done, undone, data⟩
    | cons => exact done.elim
  · rw [popped, List.reverse_append, List.reverse_singleton, List.singleton_append] at done
    cases past with
    | nil => exact done.elim
    | cons previous past =>
        obtain ⟨first, done⟩ := done
        obtain ⟨after, returned, undone', redone', restored⟩ :=
          undo_of_chain wellBehaved reversible popped (by rw [data]; exact first)
        rw [returned, stateAfter_ok]
        refine ⟨by rw [undone']; exact done, ?_, restored⟩
        rw [redone', List.reverse_append, List.reverse_singleton, List.singleton_append]
        exact ⟨first, undone⟩

/-- `redo()` steps on to the next version, or does nothing at the last. -/
theorem represents_redo {state : State D} {versions : Versions D}
    (represents : Represents registry state versions) :
    Represents registry (stateAfter (redo registry state)) versions.redo := by
  obtain ⟨done, undone, data⟩ := represents
  obtain ⟨past, current, future⟩ := versions
  rcases redo_cases registry state with ⟨empty, same⟩ | ⟨rest, record, popped, -⟩
  · rw [empty] at undone
    cases future with
    | nil => rw [same, stateAfter_ok]; exact ⟨done, by rw [empty]; exact undone, data⟩
    | cons => exact undone.elim
  · rw [popped, List.reverse_append, List.reverse_singleton, List.singleton_append] at undone
    cases future with
    | nil => exact undone.elim
    | cons next future =>
        obtain ⟨first, undone⟩ := undone
        obtain ⟨after, returned, undone', redone', replayed⟩ :=
          redo_of_chain wellBehaved reversible popped (by rw [data]; exact first)
        rw [returned, stateAfter_ok]
        refine ⟨?_, by rw [redone']; exact undone, replayed⟩
        rw [undone', List.reverse_append, List.reverse_singleton, List.singleton_append]
        exact ⟨first, done⟩

omit reversible in
/-- An admitted run that returns makes the data it left the version after the
current one, and drops the later versions. -/
theorem represents_runCommand_ok {state after : State D} {versions : Versions D}
    {commandId : CommandId} {args : Map} {result : ResultBase}
    (represents : Represents registry state versions)
    (returned : runCommand registry commandId args true state = .ok result after) :
    Represents registry after (versions.push after.data) := by
  obtain ⟨entry, ran, found, forwarded, rfl⟩ := _runCommand_ok (runCommand_ok returned).2
  have history := (wellBehaved _ entry found).forward_history args Map.empty true state
  rw [forwarded, stateAfter_ok] at history
  refine ⟨?_, by simp [Versions.push, Linked], rfl⟩
  simp only [if_true, history.1, List.reverse_append, List.reverse_singleton,
    List.singleton_append, Versions.push]
  exact ⟨⟨entry, found, state, ran, represents.data, forwarded, rfl⟩, represents.done⟩

/-- An admitted run that raises leaves the versions as they were. -/
theorem represents_runCommand_error {state after : State D} {versions : Versions D}
    {commandId : CommandId} {args : Map} {fault : Fault}
    (represents : Represents registry state versions)
    (raised : runCommand registry commandId args true state = .error fault after) :
    Represents registry after versions := by
  have raised' := runCommand_error raised
  obtain ⟨undone, redone⟩ := _runCommand_error_deques wellBehaved raised'
  have same : after.data = state.data := by
    rcases _runCommand_error raised' with ⟨-, rfl⟩ | ⟨entry, found, forwarded⟩
    · rfl
    · exact (reversible _ entry found).forward_atomic forwarded
  exact ⟨undone ▸ represents.done, redone ▸ represents.undone, same.trans represents.data⟩

end Contract

end State

namespace World

variable {D : Type}

/-- The change a history call makes to the versions, read off how it ended: an
admitted run that returned pushes the data it left, an undo or a redo moves the
focus, and anything else changes nothing. -/
def afterCall (versions : Versions D) : Call D → World D × Option Fault → Versions D
  | .runCommand _ _ true, (after, none) => versions.push after.state.data
  | .undo, _ => versions.undo
  | .redo, _ => versions.redo
  | _, _ => versions

/-- The versions along a run of calls, each changed by `afterCall`. -/
def versionsAlong : World D → Versions D → List (Call D) → Versions D
  | _, versions, [] => versions
  | world, versions, call :: calls =>
      versionsAlong (world.step call).1 (afterCall versions call (world.step call)) calls

theorem represents_step {world : World D} {versions : Versions D}
    (wellBehaved : world.registry.WellBehaved) (reversible : world.registry.Reversible)
    (represents : State.Represents world.registry world.state versions) {call : Call D}
    (historyCall : call.isHistoryCall) :
    (world.step call).1.registry = world.registry ∧
      State.Represents world.registry (world.step call).1.state
        (afterCall versions call (world.step call)) := by
  cases call with
  | runCommand commandId args allowUndo =>
      cases allowUndo
      · simp [Call.isHistoryCall] at historyCall
      · refine ⟨rfl, ?_⟩
        cases ran : State.runCommand world.registry commandId args true world.state with
        | ok result after =>
            simpa [step, onState, ran, faultOf, afterCall] using
              State.represents_runCommand_ok wellBehaved represents ran
        | error fault after =>
            simpa [step, onState, ran, faultOf, afterCall] using
              State.represents_runCommand_error wellBehaved reversible represents ran
  | undo => exact ⟨rfl, State.represents_undo wellBehaved reversible represents⟩
  | redo => exact ⟨rfl, State.represents_redo wellBehaved reversible represents⟩
  | _ => simp [Call.isHistoryCall] at historyCall

theorem represents_run {world : World D} {versions : Versions D}
    (wellBehaved : world.registry.WellBehaved) (reversible : world.registry.Reversible)
    (represents : State.Represents world.registry world.state versions) {calls : List (Call D)}
    (historyCalls : ∀ call ∈ calls, call.isHistoryCall) :
    State.Represents world.registry (world.run calls).state
      (world.versionsAlong versions calls) := by
  induction calls generalizing world versions with
  | nil => exact represents
  | cons call calls ih =>
      obtain ⟨same, next⟩ :=
        represents_step wellBehaved reversible represents (historyCalls call (.head _))
      rw [← same] at wellBehaved reversible next
      have final := ih wellBehaved reversible next fun other member =>
        historyCalls other (.tail _ member)
      rw [same] at final
      exact final

/-- Undo and redo implement a list of versions.  If every registered command keeps
the replay-consistency contract, then along any admitted runs, undos and redos from a
reachable world with an empty history, the state represents the versions that start
at its first data and change with each call as `afterCall` reads it off: an admitted
run that returns drops the versions after the current one and makes the data it left
current, one that raises changes nothing, `undo()` steps back to the previous version
and `redo()` on to the next, neither past an end.  In particular the domain data is
always the current version. -/
theorem undo_redo_refines_versions {world : World D} (reachable : Reachable world)
    (fresh : world.state.mUndo = [] ∧ world.state.mRedo = [])
    (reversible : world.registry.Reversible) (calls : List (Call D))
    (historyCalls : ∀ call ∈ calls, call.isHistoryCall) :
    State.Represents world.registry (world.run calls).state
      (world.versionsAlong (Versions.start world.state.data) calls) :=
  represents_run reachable.invariant.wellBehaved reversible (State.represents_start fresh)
    historyCalls

theorem undo_redo_refines_versions_of_placeOrder :
    Reachable foodOrdersWorld ∧
      (foodOrdersWorld.state.mUndo = [] ∧ foodOrdersWorld.state.mRedo = []) ∧
      foodOrdersWorld.registry.Reversible ∧
      (∀ call ∈ ([.runCommand 1 Map.empty true, .undo, .redo] : List (Call Int)),
        call.isHistoryCall) ∧
      State.Represents foodOrdersWorld.registry
        (foodOrdersWorld.run [.runCommand 1 Map.empty true, .undo, .redo]).state
        (foodOrdersWorld.versionsAlong (Versions.start foodOrdersWorld.state.data)
          [.runCommand 1 Map.empty true, .undo, .redo]) :=
  ⟨reachable_foodOrdersWorld, ⟨rfl, rfl⟩, foodOrdersWorld_reversible, by decide,
    undo_redo_refines_versions reachable_foodOrdersWorld ⟨rfl, rfl⟩ foodOrdersWorld_reversible _
      (by decide)⟩

/-- Two orders of `FoodOrdersState` and one undo: the first version, no orders, lies
behind the current one, one order, and the undone version, two orders, lies ahead. -/
example :
    let versions := foodOrdersWorld.versionsAlong (Versions.start 0)
      [.runCommand 1 Map.empty true, .runCommand 1 Map.empty true, .undo]
    versions.past = [0] ∧ versions.current = 1 ∧ versions.future = [2] := by
  decide

end World

end Octo
