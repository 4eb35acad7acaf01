import Mathlib.Data.List.Induction
import PodrumFormal.Lib.CellTable
import PodrumFormal.Lib.EventRun

/-!
# The command manager

Deleting a command allocates for one command less and counts one less, whatever
the names are.  That is right exactly for a name that one command has.
-/

set_option autoImplicit false

namespace PodrumCommand.Commands

open EventRun

structure Command where
  name : List UInt8
  description : List UInt8 := []
  usage : List UInt8 := []
  commandPrefix : List UInt8 := []
  flags : UInt8 := 0
  executor : Nat := 0
  deriving DecidableEq, Repr

abbrev CommandManager := CellTable Command

def registerCommand (command : Command) (manager : CommandManager) : CommandManager :=
  manager.append command

/-- `strcmp(command.name, name) == 0`. -/
def named (name : List UInt8) (command : Command) : Bool := command.name = name

/-- `none` where a command is written outside the new array, or an unwritten
cell is read. -/
def deleteCommand (name : List UInt8) (manager : CommandManager) : Option CommandManager :=
  if manager.count ≠ 0 then manager.deduct (named name) else some manager

inductive CommandEvent
  | registerCommand (command : Command)
  | deleteCommand (name : List UInt8)
  deriving DecidableEq, Repr

def step (manager : CommandManager) : CommandEvent → Option CommandManager
  | .registerCommand command => some (registerCommand command manager)
  | .deleteCommand name => deleteCommand name manager

/-! ## The commands there should be -/

/-- A command stays as long as its name is not deleted. -/
def kept : List CommandEvent → List Command
  | [] => []
  | .registerCommand command :: rest =>
      if .deleteCommand command.name ∈ rest then kept rest else command :: kept rest
  | .deleteCommand _ :: rest => kept rest

theorem kept_register (events : List CommandEvent) (command : Command) :
    kept (events ++ [.registerCommand command]) = kept events ++ [command] := by
  induction events with
  | nil => simp [kept]
  | cons event rest ih =>
      cases event with
      | registerCommand earlier =>
          rw [List.cons_append, kept, kept, ih]
          by_cases deleted : .deleteCommand earlier.name ∈ rest
          · rw [if_pos (List.mem_append_left _ deleted), if_pos deleted]
          · rw [if_neg (by simpa using deleted), if_neg deleted, List.cons_append]
      | deleteCommand name => exact ih

theorem kept_delete (events : List CommandEvent) (name : List UInt8) :
    kept (events ++ [.deleteCommand name]) =
      (kept events).filter fun command => ¬ named name command := by
  induction events with
  | nil => rfl
  | cons event rest ih =>
      cases event with
      | registerCommand earlier =>
          rw [List.cons_append, kept, kept, ih]
          by_cases deleted : .deleteCommand earlier.name ∈ rest
          · rw [if_pos (List.mem_append_left _ deleted), if_pos deleted]
          · rw [if_neg deleted]
            by_cases same : earlier.name = name
            · rw [if_pos (by simp [same]), List.filter_cons_of_neg (by simp [named, same])]
            · rw [if_neg (by simp [deleted, same]), List.filter_cons_of_pos (by simp [named, same])]
      | deleteCommand other => exact ih

/-! ## Runs -/

/-- The run stays inside its arrays, and the manager holds the commands that it
should with their number. -/
def AsKept (history : List CommandEvent) : Prop :=
  ∃ manager, run step history CellTable.empty = some manager ∧
    CellTable.Holds (kept history) manager ∧ manager.count = (kept history).length

/-- Nothing is there to delete, or one command has the name. -/
def DeletesOne (name : List UInt8) (commands : List Command) : Prop :=
  commands = [] ∨ commands.countP (named name) = 1

theorem asKept_nil : AsKept [] := ⟨CellTable.empty, rfl, CellTable.holds_empty, rfl⟩

section Steps

variable {history : List CommandEvent}

theorem AsKept.register (holds : AsKept history) (command : Command) :
    AsKept (history ++ [.registerCommand command]) := by
  obtain ⟨manager, reached, held, -⟩ := holds
  have next := held.append command
  rw [← kept_register] at next
  refine ⟨manager.append command, ?_, next, next.count⟩
  rw [run_snoc, reached]
  rfl

theorem AsKept.delete_iff (holds : AsKept history) (name : List UInt8) :
    AsKept (history ++ [.deleteCommand name]) ↔ DeletesOne name (kept history) := by
  obtain ⟨manager, reached, held, -⟩ := holds
  rw [AsKept, DeletesOne, run_snoc, reached, Option.bind_some, step, kept_delete, deleteCommand,
    held.count]
  by_cases nothing : kept history = []
  · rw [nothing] at held ⊢
    exact iff_of_true ⟨manager, rfl, held, held.count⟩ (.inl rfl)
  · have positive : (kept history).length ≠ 0 := mt List.length_eq_zero_iff.mp nothing
    rw [if_pos positive, ← held.deduct_iff nothing, or_iff_right nothing]
    constructor
    · rintro ⟨after, success, left, -⟩
      exact ⟨after, success, left⟩
    · rintro ⟨after, success, left⟩
      exact ⟨after, success, left, left.count⟩

end Steps

/-- Along a run the manager is as it should be exactly as long as every
deletion finds one command of the name, or no command at all. -/
theorem commandManager_keeps_iff (events : List CommandEvent) :
    (∀ history, history <+: events → AsKept history) ↔
      ∀ history name, history ++ [.deleteCommand name] <+: events →
        DeletesOne name (kept history) := by
  constructor
  · intro holds history name deletes
    have before := holds history ((List.prefix_append history _).trans deletes)
    exact (before.delete_iff name).mp (holds _ deletes)
  · intro deletes history
    induction history using List.reverseRecOn with
    | nil => exact fun _ => asKept_nil
    | append_singleton history event ih =>
        intro reached
        have before := ih ((List.prefix_append history _).trans reached)
        cases event with
        | registerCommand command => exact before.register command
        | deleteCommand name => exact (before.delete_iff name).mpr (deletes history name reached)

/-- Deleting `stop` where only `help` is registered writes outside the array. -/
theorem not_asKept_unknown :
    ¬ AsKept [.registerCommand ⟨[104, 101, 108, 112], [], [], [], 0, 0⟩,
      .deleteCommand [115, 116, 111, 112]] := by
  rintro ⟨manager, reached, -⟩
  have outside : run step [.registerCommand ⟨[104, 101, 108, 112], [], [], [], 0, 0⟩,
      .deleteCommand [115, 116, 111, 112]] CellTable.empty = none := by decide
  rw [outside] at reached
  cases reached

end PodrumCommand.Commands
