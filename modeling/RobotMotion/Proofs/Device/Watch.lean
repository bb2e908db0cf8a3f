import RobotMotion.Proofs.Decimal.Equality
import RobotMotion.Proofs.Device.Equipment
import RobotMotion.Proofs.Device.Tuning

/-!
# Values that visits tell

A program repeats a value of the device where a visit may have changed it, and nowhere
else. A `Watch` says of which visits a value is told, and that this keeps up with the
device: a visit tells the present value, or leaves the value as it was. So at every motion
of a run the value told last is the present one, and as long as none was told it is that
of the start (`Watch.alike_at_motion`).

Two values are watched: a setting, which is told where it is chosen and where settings are
taken back of which it differs (`Watch.setting`), and the attached tool, which is told
where tools are attached or detached (`Watch.tool`).
-/

namespace RobotMotion

open Decimal (Same)

/-- A value of a device, and what visits tell of it. -/
structure Watch (ν : Type) where
  /-- the value in a state -/
  value : State Float → ν
  /-- the value that a visit tells, if it tells one -/
  told? : Visit Float → Option ν
  /-- values that are not told apart -/
  Alike : ν → ν → Prop
  refl : ∀ x, Alike x x
  trans : ∀ {x y z}, Alike x y → Alike y z → Alike x z
  /-- a visit tells the present value, or leaves it as it was -/
  keeps_up : ∀ (d : Device Float) (a : Action Float),
    told? (d.visit a) = some (value (d.visit a).state) ∨
      told? (d.visit a) = none ∧ Alike (value (d.visit a).state) (value d.state)
  /-- motions tell nothing -/
  told?_of_motion : ∀ v : Visit Float, v.action.command.isMotion = true → told? v = none

namespace Watch

variable {ν : Type} (w : Watch ν)

/-- The value that some visits told last. -/
def last? (visits : List (Visit Float)) : Option ν := (visits.filterMap w.told?).getLast?

/-- The value told last of all is told by the first visit where no later one tells any. -/
theorem last?_cons (v : Visit Float) (rest : List (Visit Float)) :
    w.last? (v :: rest) = (w.last? rest).or (w.told? v) := by
  rw [last?, List.filterMap_cons]
  cases htold : w.told? v with
  | none => exact Option.or_none.symm
  | some x =>
    dsimp only
    rw [List.getLast?_cons, last?]
    cases (rest.filterMap w.told?).getLast? <;> rfl

variable {w} {d : Device Float}

/-- What is told of the visits after a first one and of the first one is told of them all. -/
theorem alike_last?_cons {a : Action Float} {rest : List (Visit Float)} {x : ν}
    (h : w.Alike x ((w.last? rest).getD (w.value (d.visit a).state))) :
    w.Alike x ((w.last? (d.visit a :: rest)).getD (w.value d.state)) := by
  rw [last?_cons]
  cases hlast : w.last? rest with
  | some y =>
    rw [hlast] at h
    exact h
  | none =>
    rw [hlast] at h
    rw [Option.none_or]
    rcases w.keeps_up d a with htold | ⟨hnone, hsame⟩
    · rw [htold]
      exact h
    · rw [hnone]
      exact w.trans h hsame

/-- **At a motion the value told last is the present one**, and that of the start where
none was told. -/
theorem alike_at_motion {actions : List (Action Float)} {past future : List (Visit Float)}
    {v : Visit Float} (hvisits : d.visits actions = past ++ v :: future)
    (hmotion : v.action.command.isMotion = true) :
    w.Alike (w.value v.state) ((w.last? past).getD (w.value d.state)) := by
  induction past generalizing d actions with
  | nil =>
    cases actions with
    | nil => cases hvisits
    | cons a rest =>
      -- the motion is the first visit: it tells nothing itself, so the value is that of the start
      obtain ⟨rfl, -⟩ := List.cons.inj hvisits
      have hnone := w.told?_of_motion _ hmotion
      rcases w.keeps_up d a with htold | ⟨-, hsame⟩
      · rw [hnone] at htold
        cases htold
      · exact hsame
  | cons first past ih =>
    cases actions with
    | nil => cases hvisits
    | cons a rest =>
      obtain ⟨rfl, hrest⟩ := List.cons.inj hvisits
      exact alike_last?_cons (ih hrest)

end Watch

/-! ### Settings -/

/-- A setting where a visit chose it, or took back settings of which it differs. -/
def Visit.retuned? (q : Quantity) (v : Visit Float) : Option Float :=
  if v.applied then
    match v.action.command with
    | .setting which .. => if which = q then some (v.state.settings.quantity q) else none
    | .popSettings =>
      match v.device.stack.beforePop with
      | some before =>
        if before.quantity q != v.state.settings.quantity q then
          some (v.state.settings.quantity q)
        else none
      | none => none
    | _ => none
  else none

/-- A rejected action tells nothing of a setting. -/
theorem Visit.retuned?_of_rejected {v : Visit Float} (h : v.applied = false) (q : Quantity) :
    v.retuned? q = none :=
  if_neg (by rw [h]; exact Bool.false_ne_true)

theorem Visit.retuned?_of_applied {v : Visit Float} (h : v.applied = true) (q : Quantity) :
    v.retuned? q = match v.action.command with
      | .setting which .. => if which = q then some (v.state.settings.quantity q) else none
      | .popSettings =>
        match v.device.stack.beforePop with
        | some before =>
          if before.quantity q != v.state.settings.quantity q then
            some (v.state.settings.quantity q)
          else none
        | none => none
      | _ => none :=
  if_pos h

/-- What is told of a setting is its present value. -/
theorem Visit.eq_of_retuned? {v : Visit Float} {q : Quantity} {x : Float}
    (h : v.retuned? q = some x) : v.state.settings.quantity q = x := by
  cases happlied : v.applied with
  | false =>
    rw [Visit.retuned?_of_rejected happlied] at h
    cases h
  | true =>
    rw [Visit.retuned?_of_applied happlied] at h
    cases hc : v.action.command with
    | setting which =>
      rw [hc] at h
      exact Option.some.inj (Option.ite_none_right_eq_some.mp h).2
    | popSettings =>
      rw [hc] at h
      cases hbefore : v.device.stack.beforePop with
      | none =>
        rw [hbefore] at h
        cases h
      | some before =>
        rw [hbefore] at h
        exact Option.some.inj (Option.ite_none_right_eq_some.mp h).2
    | _ =>
      rw [hc] at h
      cases h

/-- **What is told of a setting keeps up with the device.** -/
theorem Device.retuned?_visit (q : Quantity) (d : Device Float) (a : Action Float) :
    (d.visit a).retuned? q = some ((d.visit a).state.settings.quantity q) ∨
      (d.visit a).retuned? q = none ∧
        Same ((d.visit a).state.settings.quantity q) (d.state.settings.quantity q) := by
  cases happlied : (d.visit a).applied with
  | false =>
    have hdevice : (d.visit a).device = d := visit_device_of_rejected happlied
    refine .inr ⟨Visit.retuned?_of_rejected happlied q, .inl ?_⟩
    rw [Visit.state, hdevice]
  | true =>
    have htold := Visit.retuned?_of_applied happlied q
    have htunes := perform_tunes (perform_of_applied happlied)
    rw [visit_action] at htold
    cases hc : a.command with
    | setting which value relative =>
      rw [hc] at htold htunes
      have hsettings : (d.visit a).state.settings = _ := htunes
      dsimp only at htold
      split at htold
      · exact .inl htold
      · rename_i hne
        -- another quantity was chosen
        refine .inr ⟨htold, .inl ?_⟩
        rw [hsettings, Command.tuned, Settings.quantity_withQuantity, if_neg (Ne.symm hne)]
    | popSettings =>
      rw [hc] at htold htunes
      obtain ⟨rest, -, hstack⟩ := htunes
      have hbefore : (d.visit a).device.stack.beforePop = some d.state.settings := by
        rw [hstack]
      dsimp only at htold
      rw [hbefore] at htold
      dsimp only at htold
      split at htold
      · exact .inl htold
      · rename_i hsame
        rw [bne, Bool.not_eq_true, Bool.not_eq_false'] at hsame
        -- values that compare as equal are not told, and print alike
        exact .inr ⟨htold, .inr (Decimal.beq_symm hsame)⟩
    | _ =>
      rw [hc] at htold htunes
      have hsettings : (d.visit a).state.settings = _ := htunes
      refine .inr ⟨htold, .inl ?_⟩
      rw [hsettings, Command.quantity_tuned fun _ _ _ h => by cases h]

/-- A setting. -/
def Watch.setting (q : Quantity) : Watch Float where
  value s := s.settings.quantity q
  told? := Visit.retuned? q
  Alike := Same
  refl _ := .inl rfl
  trans := Same.trans
  keeps_up := Device.retuned?_visit q
  told?_of_motion v hmotion := by
    rw [Visit.retuned?]
    split
    · cases hc : v.action.command <;> rw [hc] at hmotion <;> first | rfl | cases hmotion
    · rfl

/-! ### Tools -/

/-- The tool where a visit attached it, and none where a visit detached it. -/
def Visit.retooled? (v : Visit Float) : Option (Option (Tool Float)) :=
  if v.applied then
    match v.action.command with
    | .attachTool _ => v.state.tool.map some
    | .detachTool => some none
    | _ => none
  else none

/-- Nor does it tell of a tool. -/
theorem Visit.retooled?_of_rejected {v : Visit Float} (h : v.applied = false) :
    v.retooled? = none :=
  if_neg (by rw [h]; exact Bool.false_ne_true)

theorem Visit.retooled?_of_applied {v : Visit Float} (h : v.applied = true) :
    v.retooled? = match v.action.command with
      | .attachTool _ => v.state.tool.map some
      | .detachTool => some none
      | _ => none :=
  if_pos h

/-- **What is told of the attached tool keeps up with the device.** -/
theorem Device.retooled?_visit (d : Device Float) (a : Action Float) :
    (d.visit a).retooled? = some (d.visit a).state.tool ∨
      (d.visit a).retooled? = none ∧ (d.visit a).state.tool = d.state.tool := by
  cases happlied : (d.visit a).applied with
  | false =>
    have hdevice : (d.visit a).device = d := visit_device_of_rejected happlied
    refine .inr ⟨Visit.retooled?_of_rejected happlied, ?_⟩
    rw [Visit.state, hdevice]
  | true =>
    have htold := Visit.retooled?_of_applied happlied
    have hperform := perform_of_applied happlied
    have hequips := perform_equips hperform
    rw [visit_action] at htold
    cases hc : a.command with
    | attachTool name =>
      rw [hc] at htold hperform
      obtain ⟨tool, htool⟩ := Option.isSome_iff_exists.mp (isSome_tool_of_attachTool hperform)
      left
      rw [htold]
      show (d.visit a).device.state.tool.map some = some (d.visit a).device.state.tool
      rw [htool, Option.map_some]
    | detachTool =>
      rw [hc] at htold hequips
      left
      rw [htold]
      exact congrArg some hequips.1.symm
    | _ =>
      rw [hc] at htold hequips
      exact .inr ⟨htold, hequips.1⟩

/-- The attached tool. -/
def Watch.tool : Watch (Option (Tool Float)) where
  value s := s.tool
  told? := Visit.retooled?
  Alike := Eq
  refl _ := rfl
  trans := Eq.trans
  keeps_up := Device.retooled?_visit
  told?_of_motion v hmotion := by
    rw [Visit.retooled?]
    split
    · cases hc : v.action.command <;> rw [hc] at hmotion <;> first | rfl | cases hmotion
    · rfl

end RobotMotion
