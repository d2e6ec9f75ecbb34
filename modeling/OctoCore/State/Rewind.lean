import OctoCore.State.Replay

/-!
# Undoing and redoing several records

`State_benchmark.cpp` undoes every record with `while (bakery.canUndo())
bakery.undo();`, redoes them all with `while (bakery.canRedo()) bakery.redo();`, and
expects the ledger and the inventory it had before.  Under the replay-consistency
contract of `Entry.Reversible` this holds for any number of records: undoing `count`
records and then redoing `count` puts back the domain data and both deques, and so
does redoing `count` records and then undoing `count`.

A run of undos pops records from the back of the undo deque and a run of redos from
the back of the redo deque; the two run lemmas follow those records along the chain
of first runs that `ReplayInvariant` keeps.
-/

namespace Octo

namespace World

variable {D : Type}

/-- Runs of undos and redos leave the registry alone. -/
theorem registry_run_of_historyCalls (world : World D) {calls : List (Call D)}
    (historyCalls : ∀ call ∈ calls, call.isHistoryCall) :
    (world.run calls).registry = world.registry := by
  induction calls generalizing world with
  | nil => rfl
  | cons call calls ih =>
      refine (ih _ fun other member => historyCalls other (.tail _ member)).trans ?_
      have historyCall := historyCalls call (.head _)
      cases call with
      | register => simp [Call.isHistoryCall] at historyCall
      | _ => rfl

theorem registry_run_replicate (world : World D) (count : Nat) {call : Call D}
    (historyCall : call.isHistoryCall) :
    (world.run (List.replicate count call)).registry = world.registry :=
  world.registry_run_of_historyCalls fun _ member => List.eq_of_mem_replicate member ▸ historyCall

section Contract

variable {world : World D} (wellBehaved : world.registry.WellBehaved)
  (reversible : world.registry.Reversible)
include wellBehaved reversible

/-- Undoing the records `post` at the back of the undo deque, one by one: they move
to the redo deque, last first, and the data goes back to where their chain began. -/
theorem run_undos {pre post : List State.CommandRecord} {data : D}
    (popped : world.state.mUndo = pre ++ post)
    (chain : State.Chain world.registry data post world.state.data) :
    (world.run (List.replicate post.length .undo)).state.mUndo = pre ∧
      (world.run (List.replicate post.length .undo)).state.mRedo =
        world.state.mRedo ++ post.reverse ∧
      (world.run (List.replicate post.length .undo)).state.data = data := by
  induction post using List.reverseRecOn generalizing world with
  | nil =>
      cases chain
      simpa [run] using popped
  | append_singleton post record ih =>
      obtain ⟨data', front, first⟩ := State.chain_concat.mp chain
      obtain ⟨after, returned, undone, redone, restored⟩ :=
        State.undo_of_chain wellBehaved reversible (popped.trans (List.append_assoc ..).symm) first
      have next := @ih ⟨world.registry, after⟩ wellBehaved reversible undone (restored ▸ front)
      simp only [List.length_append, List.length_singleton, List.replicate_succ, run,
        List.foldl_cons, step, onState, returned, stateAfter_ok] at next ⊢
      rw [redone, List.append_assoc] at next
      simpa using next

/-- Redoing the records `post` that the redo deque holds, last first, at its back:
they move back to the undo deque in order, and the data follows their chain. -/
theorem run_redos {rest post : List State.CommandRecord} {data : D}
    (popped : world.state.mRedo = rest ++ post.reverse)
    (chain : State.Chain world.registry world.state.data post data) :
    (world.run (List.replicate post.length .redo)).state.mUndo = world.state.mUndo ++ post ∧
      (world.run (List.replicate post.length .redo)).state.mRedo = rest ∧
      (world.run (List.replicate post.length .redo)).state.data = data := by
  induction post generalizing world with
  | nil =>
      cases chain
      simpa [run] using popped
  | cons record post ih =>
      obtain _ | ⟨first, later⟩ := chain
      rw [List.reverse_cons, ← List.append_assoc] at popped
      obtain ⟨after, returned, undone, redone, replayed⟩ :=
        State.redo_of_chain wellBehaved reversible popped first
      have next := @ih ⟨world.registry, after⟩ wellBehaved reversible redone (replayed ▸ later)
      simp only [List.length_cons, List.replicate_succ, run, List.foldl_cons, step, onState,
        returned, stateAfter_ok] at next ⊢
      rw [undone, List.append_assoc] at next
      simpa using next

end Contract

/-- Undoing records and redoing as many restores the data and both deques.  If every
registered command keeps the replay-consistency contract, then after any runs that
admit a record, undos and redos from a reachable world with an empty history, undoing
`count` records and redoing `count`, with `count` at most the length of the undo
deque, gives back the domain data, the undo deque and the redo deque; and so does
redoing `count` records and undoing `count`, with `count` at most the length of the
redo deque. -/
theorem undos_redos_restore {world : World D} (reachable : Reachable world)
    (fresh : world.state.mUndo = [] ∧ world.state.mRedo = [])
    (reversible : world.registry.Reversible) (calls : List (Call D))
    (historyCalls : ∀ call ∈ calls, call.isHistoryCall) (count : Nat) :
    (count ≤ (world.run calls).state.mUndo.length →
      let back := (world.run calls).run (List.replicate count .undo ++ List.replicate count .redo)
      back.state.data = (world.run calls).state.data ∧
        back.state.mUndo = (world.run calls).state.mUndo ∧
        back.state.mRedo = (world.run calls).state.mRedo) ∧
    (count ≤ (world.run calls).state.mRedo.length →
      let back := (world.run calls).run (List.replicate count .redo ++ List.replicate count .undo)
      back.state.data = (world.run calls).state.data ∧
        back.state.mUndo = (world.run calls).state.mUndo ∧
        back.state.mRedo = (world.run calls).state.mRedo) := by
  have start : State.ReplayInvariant world.registry world.state.data world.state :=
    ⟨fresh.1 ▸ .nil _, _, by rw [fresh.2]; exact .nil _⟩
  obtain ⟨same, invariant⟩ :=
    replayInvariant_run reachable.invariant.wellBehaved reversible start historyCalls
  have wellBehaved := same ▸ reachable.invariant.wellBehaved
  rw [← same] at reversible invariant
  generalize world.run calls = final at wellBehaved reversible invariant ⊢
  constructor
  · intro enough
    obtain ⟨pre, post, popped, rfl⟩ : ∃ pre post, final.state.mUndo = pre ++ post ∧
        post.length = count :=
      ⟨_, _, (List.take_append_drop (final.state.mUndo.length - count) _).symm, by simp; omega⟩
    obtain ⟨data, -, chain⟩ := State.chain_append.mp (popped ▸ invariant.done)
    obtain ⟨undone, redone, restored⟩ := run_undos wellBehaved reversible popped chain
    have registry := @registry_run_replicate _ final post.length .undo rfl
    obtain ⟨undone', redone', replayed⟩ := @run_redos _ _ (registry ▸ wellBehaved)
      (registry ▸ reversible) _ _ _ redone (by rw [registry, restored]; exact chain)
    rw [run_append]
    exact ⟨replayed, by rw [undone', undone, popped], redone'⟩
  · intro enough
    obtain ⟨data, later⟩ := invariant.undone
    obtain ⟨post, tail, reversed, rfl⟩ : ∃ post tail, final.state.mRedo.reverse = post ++ tail ∧
        post.length = count :=
      ⟨_, _, (List.take_append_drop count _).symm, by simp; omega⟩
    obtain ⟨data', chain, -⟩ := State.chain_append.mp (reversed ▸ later)
    have popped : final.state.mRedo = tail.reverse ++ post.reverse := by
      rw [← List.reverse_append, ← reversed, List.reverse_reverse]
    obtain ⟨undone, redone, replayed⟩ := run_redos wellBehaved reversible popped chain
    have registry := @registry_run_replicate _ final post.length .redo rfl
    obtain ⟨undone', redone', restored⟩ := @run_undos _ _ (registry ▸ wellBehaved)
      (registry ▸ reversible) _ _ _ undone (by rw [registry, replayed]; exact chain)
    rw [run_append]
    exact ⟨restored, undone', by rw [redone', redone, popped]⟩

theorem undos_redos_restore_of_placeOrder :
    Reachable foodOrdersWorld ∧
      (foodOrdersWorld.state.mUndo = [] ∧ foodOrdersWorld.state.mRedo = []) ∧
      foodOrdersWorld.registry.Reversible ∧
      (∀ call ∈ ([.runCommand 1 Map.empty true, .runCommand 1 Map.empty true] : List (Call Int)),
        call.isHistoryCall) ∧
      ((2 ≤ (foodOrdersWorld.run
          [.runCommand 1 Map.empty true, .runCommand 1 Map.empty true]).state.mUndo.length →
        let back := (foodOrdersWorld.run
          [.runCommand 1 Map.empty true, .runCommand 1 Map.empty true]).run
          (List.replicate 2 .undo ++ List.replicate 2 .redo)
        back.state.data = (foodOrdersWorld.run
            [.runCommand 1 Map.empty true, .runCommand 1 Map.empty true]).state.data ∧
          back.state.mUndo = (foodOrdersWorld.run
            [.runCommand 1 Map.empty true, .runCommand 1 Map.empty true]).state.mUndo ∧
          back.state.mRedo = (foodOrdersWorld.run
            [.runCommand 1 Map.empty true, .runCommand 1 Map.empty true]).state.mRedo) ∧
      (2 ≤ (foodOrdersWorld.run
          [.runCommand 1 Map.empty true, .runCommand 1 Map.empty true]).state.mRedo.length →
        let back := (foodOrdersWorld.run
          [.runCommand 1 Map.empty true, .runCommand 1 Map.empty true]).run
          (List.replicate 2 .redo ++ List.replicate 2 .undo)
        back.state.data = (foodOrdersWorld.run
            [.runCommand 1 Map.empty true, .runCommand 1 Map.empty true]).state.data ∧
          back.state.mUndo = (foodOrdersWorld.run
            [.runCommand 1 Map.empty true, .runCommand 1 Map.empty true]).state.mUndo ∧
          back.state.mRedo = (foodOrdersWorld.run
            [.runCommand 1 Map.empty true, .runCommand 1 Map.empty true]).state.mRedo)) :=
  ⟨reachable_foodOrdersWorld, ⟨rfl, rfl⟩, foodOrdersWorld_reversible, by decide,
    undos_redos_restore reachable_foodOrdersWorld ⟨rfl, rfl⟩ foodOrdersWorld_reversible _
      (by decide) 2⟩

end World

end Octo
