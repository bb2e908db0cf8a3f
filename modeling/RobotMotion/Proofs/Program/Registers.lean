import RobotMotion.Proofs.Device.Watch
import RobotMotion.Proofs.Program.Origin
import RobotMotion.Proofs.Program.Rejections

/-!
# Registers of a controller

What is not passed with a motion stands in a register of the controller: a program sets it
by a statement of its own, and the motions after that take it as it stands. A `Register`
says which statements set it. Where the statements of a program that set it are those that
a `Watch` tells of the visits, its last setting before a motion is that of the value at the
motion (`Register.follows`).

A register that was not set yet holds what the controller starts with. So it is right at
all motions if the device starts with the same (`Register.Follows.inForce`).
-/

namespace RobotMotion.Program

variable {σ ν : Type}

/-- A register of the controller. -/
structure Register (σ ν : Type) where
  /-- the statement that sets the register to a value -/
  setting : ν → σ
  /-- whether a statement sets the register -/
  sets : σ → Bool

namespace Register

variable (r : Register σ ν)

/-- The statements of some entries that set the register. -/
def settings (entries : List (Entry σ)) : List σ :=
  (entries.flatMap Entry.statements).filter r.sets

/-- The statement that set the register last. -/
def last? (entries : List (Entry σ)) : Option σ := (r.settings entries).getLast?

/-- The setting that the register has after some entries, if it has that of a certain
value before. -/
def inForce (initial : ν) (entries : List (Entry σ)) : σ :=
  (r.last? entries).getD (r.setting initial)

/-- The last setting is that of the value in a state. As long as there is none, this value
is that of the start. -/
def Follows (w : Watch ν) (start : ν) (entries : List (Entry σ)) (s : State Float) : Prop :=
  match r.last? entries with
  | some statement => statement = r.setting (w.value s)
  | none => w.Alike (w.value s) start

theorem settings_append (entries more : List (Entry σ)) :
    r.settings (entries ++ more) = r.settings entries ++ r.settings more := by
  rw [settings, List.flatMap_append, List.filter_append]
  rfl

variable {r} {w : Watch ν}

/-- One more entry adds the settings in it. -/
theorem settings_concat {entries : List (Entry σ)} {entry : Entry σ} {added : List σ}
    (h : r.settings [entry] = added) :
    r.settings (entries ++ [entry]) = r.settings entries ++ added := by
  rw [settings_append, h]

/-- An entry without a setting adds none. -/
theorem settings_concat_of_nil {entries : List (Entry σ)} {entry : Entry σ}
    (h : r.settings [entry] = []) : r.settings (entries ++ [entry]) = r.settings entries := by
  rw [settings_append, h, List.append_nil]

/-- **A register that follows the device is right from the start**, if what the controller
starts with is set as the value of the start is. -/
theorem Follows.inForce_eq {start initial : ν} {entries : List (Entry σ)} {s : State Float}
    (h : r.Follows w start entries s) (hsame : ∀ x y, w.Alike x y → r.setting x = r.setting y)
    (hstart : r.setting start = r.setting initial) :
    r.inForce initial entries = r.setting (w.value s) := by
  rw [Follows] at h
  rw [inForce]
  cases hlast : r.last? entries with
  | some statement =>
    rw [hlast] at h
    exact h
  | none =>
    rw [hlast] at h
    exact hstart.symm.trans (hsame _ _ h).symm

/-- A program with motions that never sets a register is right only where what the controller
starts with will do. -/
theorem setting_eq_of_unset {moves : σ → Bool} {body : List (Visit Float) → List (Entry σ)}
    {visits : List (Visit Float)} {initial : ν} {value : State Float → ν}
    (h : AtMotions moves body visits fun before s =>
      r.inForce initial before = r.setting (value s))
    (hany : (body visits).any (·.statements.any moves) = true)
    (hunset : r.settings (body visits) = []) :
    ∃ v ∈ visits, r.setting initial = r.setting (value v.state) := by
  obtain ⟨entry, hmem, hmoves⟩ := List.any_eq_true.mp hany
  obtain ⟨before, after, hbody⟩ := List.append_of_mem hmem
  obtain ⟨past, v, future, -, hvisits, -, -, -, -, hforce⟩ := h before entry after hbody hmoves
  refine ⟨v, ?_, ?_⟩
  · rw [hvisits]
    exact List.mem_append_right _ List.mem_cons_self
  · rw [hbody, settings_append] at hunset
    rw [Register.inForce, last?, (List.append_eq_nil_iff.mp hunset).1] at hforce
    exact hforce

section

variable {D : Type} {step : D → Visit Float → D} {body : D → List (Entry σ)}

/-- The settings of a program are those of the values that its visits tell. -/
theorem last?_foldl
    (hstep : ∀ draft v, r.settings (body (step draft v)) =
      r.settings (body draft) ++ ((w.told? v).map r.setting).toList)
    {start : D} (hstart : r.settings (body start) = []) (visits : List (Visit Float)) :
    r.last? (body (visits.foldl step start)) = (w.last? visits).map r.setting := by
  have hall : r.settings (body (visits.foldl step start)) =
      r.settings (body start) ++ visits.flatMap fun v => ((w.told? v).map r.setting).toList :=
    @foldl_of_step _ _ _ step (fun draft => r.settings (body draft)) _ hstep start visits
  rw [hstart, List.nil_append, ← List.filterMap_eq_flatMap_toList] at hall
  rw [last?, hall, ← List.map_filterMap, List.getLast?_map]
  rfl

/-- **Where a program sets what its visits tell, it is right at every motion**, or nothing
was told yet. -/
theorem follows {moves : σ → Bool} {device : Device Float} {actions : List (Action Float)}
    {start : D}
    (hsettings : ∀ draft v, r.settings (body (step draft v)) =
      r.settings (body draft) ++ ((w.told? v).map r.setting).toList)
    (hsame : ∀ x y, w.Alike x y → r.setting x = r.setting y)
    (hstart : r.settings (body start) = [])
    (hmotions : AtMotions moves (fun visits => body (visits.foldl step start))
      (device.visits actions) fun _ _ => True) :
    AtMotions moves (fun visits => body (visits.foldl step start)) (device.visits actions)
      (r.Follows w (w.value device.state)) := by
  intro before entry after hbody hmoves
  obtain ⟨past, v, future, statement, hvisits, happlied, hmotion, hbefore, hentry, -⟩ :=
    hmotions before entry after hbody hmoves
  refine ⟨past, v, future, statement, hvisits, happlied, hmotion, hbefore, hentry, ?_⟩
  have halike := w.alike_at_motion hvisits hmotion
  rw [Follows, hbefore, last?_foldl hsettings hstart]
  cases hlast : w.last? past with
  | some x =>
    rw [hlast] at halike
    exact (hsame _ _ halike).symm
  | none =>
    rw [hlast] at halike
    exact halike

end

end Register

end RobotMotion.Program
