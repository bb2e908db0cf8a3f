import RobotMotion.Settings.Basic

/-!
# Stack of settings

Settings are put aside and taken back in the opposite order. The stack also
keeps the settings that were in force just before the last one was taken back,
since the difference tells what has to be sent to a controller.
-/

namespace RobotMotion

/-- Settings put aside, the most recent first. -/
structure SettingsStack (α : Type) where
  entries : List (Settings α)
  beforePop : Option (Settings α)
deriving DecidableEq, Repr

namespace SettingsStack

variable {α : Type}

/-- Nothing put aside. -/
def empty : SettingsStack α := ⟨[], none⟩

/-- Put settings aside. -/
def push (stack : SettingsStack α) (settings : Settings α) : SettingsStack α :=
  { stack with entries := settings :: stack.entries }

/-- Take back the settings put aside last. The present ones are remembered.
Absent when nothing is put aside. -/
def pop? (stack : SettingsStack α) (present : Settings α) :
    Option (Settings α × SettingsStack α) :=
  match stack.entries with
  | [] => none
  | restored :: rest => some (restored, ⟨rest, some present⟩)

/-- How many settings are put aside. -/
def depth (stack : SettingsStack α) : Nat := stack.entries.length

@[simp] theorem depth_push (stack : SettingsStack α) (s : Settings α) :
    (stack.push s).depth = stack.depth + 1 := rfl

/-- What was put aside last comes back, and what lies below is untouched. -/
theorem pop?_push (stack : SettingsStack α) (s present : Settings α) :
    (stack.push s).pop? present = some (s, ⟨stack.entries, some present⟩) := rfl

/-- Taking back fails exactly when nothing is put aside. -/
theorem pop?_eq_none_iff (stack : SettingsStack α) (present : Settings α) :
    stack.pop? present = none ↔ stack.depth = 0 := by
  obtain ⟨entries, before⟩ := stack
  cases entries <;> simp [pop?, depth]

end SettingsStack

end RobotMotion
