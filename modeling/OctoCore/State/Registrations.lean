import OctoCore.State.World
import Mathlib.Data.List.Nodup

/-!
# The order of registrations

`REGISTER_OCTO_COMMAND` registers a command from the constructor of a static
`Registration` object, so a program registers its commands in the order its static
initializers run, which C++ leaves open across translation units.  Whatever that
order, the first registration of an id holds and every later registration of the
same id raises `StateException`.  Registrations of pairwise distinct ids therefore
give the same registry in every order, and none of them raises.
-/

namespace Octo

namespace World

variable {D : Type}

/-- The fault each call of a run ended with, `none` for a call that returned. -/
def faultsAlong : World D → List (Call D) → List (Option Fault)
  | _, [] => []
  | world, call :: calls => (world.step call).2 :: faultsAlong (world.step call).1 calls

@[simp] theorem length_faultsAlong (world : World D) (calls : List (Call D)) :
    (world.faultsAlong calls).length = calls.length := by
  induction calls generalizing world with
  | nil => rfl
  | cons call calls ih => simp [faultsAlong, ih]

theorem faultsAlong_append (world : World D) (calls calls' : List (Call D)) :
    world.faultsAlong (calls ++ calls') =
      world.faultsAlong calls ++ (world.run calls).faultsAlong calls' := by
  induction calls generalizing world with
  | nil => rfl
  | cons call calls ih => simp [faultsAlong, ih, run]

/-- One registration: it raises, keeping the world, if the id is taken, and otherwise
adds the command's entry. -/
theorem step_register (world : World D) (command : CommandClass D) :
    world.step (.register command) =
      if (world.registry.getCommand command.commandId).isSome then
        (world, some (.exception (.stateException
          "Attempted to register the same command ID twice in the same CommandRegistry.")))
      else
        (⟨⟨(command.commandId, Registration.entry command) :: world.registry.mEntries⟩,
          world.state⟩, none) := by
  by_cases taken : (world.registry.getCommand command.commandId).isSome
  · simp [step, CommandRegistry.register_of_taken taken, taken]
  · simp [step, CommandRegistry.register, CommandRegistry.registerCommand, taken]

/-- After a run of registrations, an id keeps the entry it had, or else has the entry
of the first command registered with it. -/
theorem getCommand_run_register (world : World D) (commands : List (CommandClass D))
    (commandId : CommandId) :
    (world.run (commands.map .register)).registry.getCommand commandId =
      (world.registry.getCommand commandId).or
        ((commands.find? (·.commandId == commandId)).map Registration.entry) := by
  induction commands generalizing world with
  | nil => simp [run]
  | cons command commands ih =>
      simp only [List.map_cons, run, List.foldl_cons] at ih ⊢
      rw [ih, step_register]
      by_cases same : command.commandId = commandId
      · subst same
        by_cases taken : (world.registry.getCommand command.commandId).isSome
        · obtain ⟨entry, found⟩ := Option.isSome_iff_exists.mp taken
          simp [found]
        · have fresh := Option.not_isSome_iff_eq_none.mp taken
          simp only [CommandRegistry.getCommand] at fresh
          simp [CommandRegistry.getCommand, List.lookup_cons, fresh]
      · have other : (commandId == command.commandId) = false := by simpa using Ne.symm same
        split <;> simp [same, CommandRegistry.getCommand, List.lookup_cons, other]

/-- Registrations leave the state alone. -/
theorem state_run_register (world : World D) (commands : List (CommandClass D)) :
    (world.run (commands.map .register)).state = world.state := by
  induction commands generalizing world with
  | nil => rfl
  | cons command commands ih =>
      simp only [List.map_cons, run, List.foldl_cons] at ih ⊢
      rw [ih, step_register]
      split <;> rfl

/-- What a run of registrations does, in every order static initializers may take:
it leaves the state alone; each id keeps the entry it had, or else gets the entry of
the first command registered with it; and the registration of a command raises the
`StateException` of a second registration exactly when the registry already had its
id or a command registered before it has the same id. -/
theorem registrations_first_wins (world : World D) (commands : List (CommandClass D)) :
    (world.run (commands.map .register)).state = world.state ∧
    (∀ commandId, (world.run (commands.map .register)).registry.getCommand commandId =
      (world.registry.getCommand commandId).or
        ((commands.find? (·.commandId == commandId)).map Registration.entry)) ∧
    ∀ before command after, commands = before ++ command :: after →
      (world.faultsAlong (commands.map .register))[before.length]? =
        some (if (world.registry.getCommand command.commandId).isSome ∨
            command.commandId ∈ before.map CommandClass.commandId then
          some (.exception (.stateException
            "Attempted to register the same command ID twice in the same CommandRegistry."))
        else none) := by
  refine ⟨state_run_register world commands, getCommand_run_register world commands,
    fun before command after split => ?_⟩
  subst split
  rw [List.map_append, faultsAlong_append, List.getElem?_append_right (by simp),
    length_faultsAlong, List.length_map, Nat.sub_self, List.map_cons]
  simp only [faultsAlong, List.getElem?_cons_zero, step_register, getCommand_run_register,
    Option.isSome_or, Option.isSome_map, List.find?_isSome, beq_iff_eq, Bool.or_eq_true,
    List.mem_map]
  split <;> split <;> simp_all

/-- Among commands of pairwise distinct ids, the first one with an id is the only one,
wherever it stands. -/
theorem find?_commandId_perm {commands commands' : List (CommandClass D)}
    (reordered : commands.Perm commands') (distinct : (commands.map CommandClass.commandId).Nodup)
    (commandId : CommandId) :
    commands.find? (·.commandId == commandId) = commands'.find? (·.commandId == commandId) := by
  cases found : commands.find? (·.commandId == commandId) with
  | none =>
      rw [List.find?_eq_none] at found
      exact (List.find?_eq_none.mpr fun command member =>
        found command (reordered.mem_iff.mpr member)).symm
  | some command =>
      have member := reordered.mem_iff.mp (List.mem_of_find?_eq_some found)
      have hit := List.find?_some found
      obtain ⟨command', found'⟩ :=
        Option.isSome_iff_exists.mp
          ((@List.find?_isSome _ commands' (·.commandId == commandId)).mpr ⟨command, member, hit⟩)
      have hit' := List.find?_some found'
      simp only [beq_iff_eq] at hit hit'
      rw [found', List.inj_on_of_nodup_map ((reordered.map _).nodup_iff.mp distinct) member
        (List.mem_of_find?_eq_some found') (hit.trans hit'.symm)]

/-- Registrations of distinct ids that none of them finds taken all return. -/
theorem faultsAlong_register_fresh (world : World D) {commands : List (CommandClass D)}
    (distinct : (commands.map CommandClass.commandId).Nodup)
    (fresh : ∀ command ∈ commands, world.registry.getCommand command.commandId = none) :
    ∀ fault ∈ world.faultsAlong (commands.map .register), fault = none := by
  induction commands generalizing world with
  | nil => simp [faultsAlong]
  | cons command commands ih =>
      rw [List.map_cons, List.nodup_cons, List.mem_map] at distinct
      have taken : (world.registry.getCommand command.commandId).isSome = false := by
        simp [fresh command (.head _)]
      simp only [List.map_cons, faultsAlong, step_register, taken, if_false, Bool.false_eq_true,
        List.mem_cons]
      rintro fault (rfl | later)
      · rfl
      · refine ih _ distinct.2 (fun other member => ?_) fault later
        have different : (other.commandId == command.commandId) = false :=
          beq_false_of_ne fun same => distinct.1 ⟨other, member, same⟩
        simpa [CommandRegistry.getCommand, List.lookup_cons, different] using
          fresh other (.tail _ member)

/-- Static initializers may register commands in any order.  For commands of pairwise
distinct ids, every order leaves the same state and the same lookups in the registry;
and when the registry has none of their ids yet, no registration raises, in any
order. -/
theorem registration_order_irrelevant (world : World D)
    {commands commands' : List (CommandClass D)} (reordered : commands.Perm commands')
    (distinct : (commands.map CommandClass.commandId).Nodup) :
    (world.run (commands.map .register)).state = (world.run (commands'.map .register)).state ∧
    (∀ commandId, (world.run (commands.map .register)).registry.getCommand commandId =
      (world.run (commands'.map .register)).registry.getCommand commandId) ∧
    ((∀ command ∈ commands, world.registry.getCommand command.commandId = none) →
      ∀ fault ∈ world.faultsAlong (commands'.map .register), fault = none) := by
  refine ⟨by rw [state_run_register, state_run_register], fun commandId => ?_,
    fun fresh => faultsAlong_register_fresh world ((reordered.map _).nodup_iff.mp distinct)
      fun command member => fresh command (reordered.mem_iff.mpr member)⟩
  rw [getCommand_run_register, getCommand_run_register,
    find?_commandId_perm reordered distinct commandId]

/-- `ADD_EMPTY_COMMAND(number)` of the state benchmark: a command whose forward and
backward do nothing. -/
def emptyCommand (commandId : CommandId) : CommandClass D where
  commandId := commandId
  acceptStatePtr _ := true
  forward _ := .done
  backward _ := .done

theorem registration_order_irrelevant_of_emptyCommands :
    ([emptyCommand 1, emptyCommand 2] : List (CommandClass Unit)).Perm
        [emptyCommand 2, emptyCommand 1] ∧
      (([emptyCommand 1, emptyCommand 2] : List (CommandClass Unit)).map
        CommandClass.commandId).Nodup ∧
      ((sessionTenWorld.run ([emptyCommand 1, emptyCommand 2].map .register)).state =
          (sessionTenWorld.run ([emptyCommand 2, emptyCommand 1].map .register)).state ∧
        (∀ commandId,
          (sessionTenWorld.run ([emptyCommand 1, emptyCommand 2].map .register)).registry.getCommand
              commandId =
            (sessionTenWorld.run
              ([emptyCommand 2, emptyCommand 1].map .register)).registry.getCommand commandId) ∧
        ((∀ command ∈ ([emptyCommand 1, emptyCommand 2] : List (CommandClass Unit)),
            sessionTenWorld.registry.getCommand command.commandId = none) →
          ∀ fault ∈ sessionTenWorld.faultsAlong ([emptyCommand 2, emptyCommand 1].map .register),
            fault = none)) :=
  ⟨.swap _ _ _, by decide, registration_order_irrelevant sessionTenWorld (.swap _ _ _) (by decide)⟩

end World

end Octo
