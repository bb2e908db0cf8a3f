/-!
# Registries

Values known by a name: the tools a device can attach, the outputs it has
written. The entries are kept in the order of their names, code point by code
point, and every name has at most one value.
-/

namespace RobotMotion

/-- Values by name, in the order of the names. -/
structure Registry (β : Type) where
  entries : List (String × β)
deriving DecidableEq, Repr

namespace Registry

variable {β : Type}

/-- Nothing registered. -/
def empty : Registry β := ⟨[]⟩

/-- Entries with a value put under a name, at the name's place. -/
def place (name : String) (value : β) : List (String × β) → List (String × β)
  | [] => [(name, value)]
  | (other, old) :: rest =>
    if name = other then (name, value) :: rest
    else if name < other then (name, value) :: (other, old) :: rest
    else (other, old) :: place name value rest

/-- Register a value, replacing what was known under the name. -/
def insert (r : Registry β) (name : String) (value : β) : Registry β :=
  ⟨place name value r.entries⟩

/-- The value known under a name. -/
def find? (r : Registry β) (name : String) : Option β := r.entries.lookup name

/-- The values in the order of their names. -/
def values (r : Registry β) : List β := r.entries.map Prod.snd

/-- Register many values by a name that each carries. Later values win. -/
def ofList (name : β → String) (values : List β) : Registry β :=
  values.foldl (fun r v => r.insert (name v) v) empty

/-- The first entry is found by its own name alone. -/
theorem lookup_entry (name key : String) (value : β) (rest : List (String × β)) :
    ((key, value) :: rest).lookup name = if name = key then some value else rest.lookup name := by
  by_cases h : name = key
  · simp [h]
  · simp [List.lookup_cons, h, beq_eq_false_iff_ne.2 h]

theorem lookup_place (name other : String) (value : β) (entries : List (String × β)) :
    (place name value entries).lookup other =
      if other = name then some value else entries.lookup other := by
  induction entries with
  | nil => rw [place, lookup_entry]
  | cons entry rest ih =>
    obtain ⟨key, old⟩ := entry
    simp only [place]
    split
    · rename_i same
      subst same
      simp only [lookup_entry]
      split <;> rfl
    · rename_i differ
      split
      · rw [lookup_entry]
      · simp only [lookup_entry, ih]
        by_cases h : other = key
        · subst h
          simp [Ne.symm differ]
        · simp [h]

/-- **The last value registered under a name is the one found.** -/
@[simp] theorem find?_insert (r : Registry β) (name other : String) (value : β) :
    (r.insert name value).find? other = if other = name then some value else r.find? other :=
  lookup_place name other value r.entries

end Registry

end RobotMotion
