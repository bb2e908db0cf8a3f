import RobotMotion.Proofs.Device.Place
import RobotMotion.Proofs.Device.Sequence
import RobotMotion.Proofs.Program.Origin

/-!
# Targets in place and by name

A program writes its targets where they are used, or declares them under numbers and
names them. `Targeting` bundles what a dialect says about its targets: which statements
lead to one, how it is declared, and how both are written out.

`Targeting.Alike` says that two programs are the same but for this choice: the motions
of the first write their targets in place, those of the second name them in order, and
the second declares just these. Entries that both programs write, and a motion that each
writes its own way, keep programs alike (`Alike.write`, `Alike.move`).

`Effect` lists all that a dialect may write for one visit of the replay. A dialect whose
steps write nothing else (`Writes`) gives programs that are alike (`alike_foldl`), and each
motion in them is that of one visit (`exists_visit_of_motion`).
-/

namespace RobotMotion

open Program (Entry Place Look targetName)

namespace Program

variable {σ δ τ ρ : Type}

/-- What can be read off the statements of some entries, each reading with the action
that the statement is about. -/
def readings (read? : σ → Option ρ) (entries : List (Entry σ)) :
    List (Option (Action Float) × ρ) :=
  entries.flatMap fun entry => (entry.statements.filterMap read?).map (entry.action?, ·)

/-- From code of one statement there is one reading. -/
theorem readings_code {read? : σ → Option ρ} {statement : σ} {r : ρ}
    (h : read? statement = some r) (action : Action Float) :
    readings read? [.code action [statement]] = [(some action, r)] := by
  simp [readings, Entry.statements, Entry.action?, h]

/-- The parts of a program that targets stand in. -/
structure Sheet (σ δ : Type) where
  declarations : List (Entry δ)
  body : List (Entry σ)
  /-- how many motions were written -/
  motions : Nat

/-- A sheet with one more entry in its body. -/
def Sheet.write (sheet : Sheet σ δ) (entry : Entry σ) : Sheet σ δ :=
  { sheet with body := sheet.body ++ [entry] }

/-- A sheet with one more entry among its declarations. -/
def Sheet.declare (sheet : Sheet σ δ) (entry : Entry δ) : Sheet σ δ :=
  { sheet with declarations := sheet.declarations ++ [entry] }

/-- What a dialect says about its targets. -/
structure Targeting (σ δ τ : Type) where
  /-- the pose of a state as a target -/
  pose? : State Float → Option τ
  /-- the joint angles of a state as a target -/
  joints? : State Float → Option τ
  /-- the place of the target in a motion; other statements have none -/
  place? : σ → Option (Place τ)
  /-- the same motion to another place -/
  withPlace : Place τ → σ → σ
  /-- the number and the target of a target declaration -/
  declared? : δ → Option (Nat × τ)
  /-- the text of a target in place -/
  literal : τ → String
  /-- the text of a statement -/
  text : σ → String
  /-- the text of a declaration -/
  declaration : δ → String
  /-- a state with a pose has it as a target -/
  isSome_pose? : ∀ s, (pose? s).isSome = s.pose?.isSome
  /-- a state with joint angles has them as a target -/
  isSome_joints? : ∀ s, (joints? s).isSome = s.axes.isSome
  /-- a motion to a place has this place -/
  place?_withPlace : ∀ p s, (place? s).isSome = true → place? (withPlace p s) = some p
  /-- a motion to its own place is the motion itself -/
  withPlace_self : ∀ p s, place? s = some p → withPlace p s = s
  /-- a later place replaces an earlier one -/
  withPlace_withPlace : ∀ p q s, withPlace p (withPlace q s) = withPlace p s
  /-- other statements are left alone -/
  withPlace_of_none : ∀ p s, place? s = none → withPlace p s = s
  /-- the place is one stretch of the text of a motion, and nothing else depends on it -/
  text_withPlace : ∀ s, (place? s).isSome = true →
    ∃ front back, ∀ p, text (withPlace p s) = front ++ p.text literal ++ back
  /-- a declaration gives a name to the text of the target in place -/
  declaration_eq : ∀ x k t, declared? x = some (k, t) →
    ∃ front between back,
      declaration x = front ++ targetName k ++ between ++ literal t ++ back

namespace Targeting

variable (T : Targeting σ δ τ)

/-- The target that an action led to. Rejected actions and those that are no motions led
to none. -/
def goal? (v : Visit Float) : Option τ :=
  if v.applied then
    match v.action.command with
    | .translation .. | .rotation .. | .transformation .. => T.pose? v.state
    | .axes .. => T.joints? v.state
    | _ => none
  else none

/-- The actions that led to a target, each with its target. -/
def goals (visits : List (Visit Float)) : List (Action Float × τ) :=
  visits.filterMap fun v => (T.goal? v).map (v.action, ·)

/-- Whether a statement is a motion. -/
def moves (statement : σ) : Bool := (T.place? statement).isSome

/-- The motions among some entries: their actions and places. -/
def motions (body : List (Entry σ)) : List (Option (Action Float) × Place τ) :=
  readings T.place? body

/-- The targets that are declared: their actions and numbers. -/
def declared (declarations : List (Entry δ)) : List (Option (Action Float) × Nat × τ) :=
  readings T.declared? declarations

/-- The declarations that declare no target. -/
def others (declarations : List (Entry δ)) : List (Entry δ) :=
  declarations.filter fun entry => (T.declared [entry]).isEmpty

/-- The entries with all places made the same. -/
def shape (body : List (Entry σ)) : List (Entry σ) :=
  body.map (.map (T.withPlace (.named 0)))

/-- Lines that are the same but for texts of targets, in the place of which there are
their names, numbered in order. -/
inductive Swapped : Nat → List τ → List String → List String → Prop where
  | nil (n : Nat) : Swapped n [] [] []
  /-- a line that both have -/
  | same {n : Nat} {targets : List τ} {lines others : List String} (line : String)
      (h : Swapped n targets lines others) : Swapped n targets (line :: lines) (line :: others)
  /-- a line with the text of a target, or with its name -/
  | name {n : Nat} {targets : List τ} {lines others : List String} (front back : String)
      (target : τ) (h : Swapped (n + 1) targets lines others) :
    Swapped n (target :: targets) ((front ++ T.literal target ++ back) :: lines)
      ((front ++ targetName n ++ back) :: others)

/-- Two programs are the same, but that the motions of one write their targets in place,
and those of the other name them. -/
structure Alike (goals : List (Action Float × τ)) (inPlace named : Sheet σ δ) : Prop where
  /-- the motions are those to the targets, written in place -/
  motions_inPlace : T.motions inPlace.body = goals.map fun (a, t) => (some a, .inline t)
  /-- or to their names, which are numbered in order -/
  motions_named : T.motions named.body = goals.zipIdx.map fun ((a, _), k) => (some a, .named k)
  /-- targets in place are not declared -/
  declared_inPlace : T.declared inPlace.declarations = []
  /-- those that are named are declared once each, in order -/
  declared_named : T.declared named.declarations =
    goals.zipIdx.map fun ((a, t), k) => (some a, k, t)
  /-- the other declarations are the same -/
  others : T.others named.declarations = inPlace.declarations
  /-- the bodies are the same, entry by entry, but for the places -/
  shape : T.shape named.body = T.shape inPlace.body
  /-- however they become lines, the lines are the same but for texts and names of targets -/
  lines : ∀ look : Look, T.Swapped 0 (goals.map Prod.snd) (look.lines T.text inPlace.body)
    (look.lines T.text named.body)
  /-- the next name has the number of the targets so far -/
  next : named.motions = goals.length

/-- A motion is written: its target in place, or declared under the next number. -/
def move (action : Action Float) (statement : σ) (target : τ) (declaration : Nat → δ)
    (inlineTargets : Bool) (sheet : Sheet σ δ) : Sheet σ δ :=
  let code (place : Place τ) : Entry σ := .code action [T.withPlace place statement]
  let written : Sheet σ δ :=
    if inlineTargets then sheet.write (code (.inline target))
    else (sheet.declare (.code action [declaration sheet.motions])).write
      (code (.named sheet.motions))
  { written with motions := sheet.motions + 1 }

/-- What may be written for a visit, whether targets are in place or named. -/
inductive Effect (v : Visit Float) : (Bool → Sheet σ δ → Sheet σ δ) → Prop where
  | nothing (hgoal : T.goal? v = none) : Effect v fun _ sheet => sheet
  | entry (e : Entry σ) (habout : e.About v) (hmotions : T.motions [e] = [])
      (hgoal : T.goal? v = none) :
    Effect v fun _ sheet => sheet.write e
  | declaration (e : Entry δ) (habout : e.About v) (hdeclared : T.declared [e] = [])
      (hgoal : T.goal? v = none) :
    Effect v fun _ sheet => sheet.declare e
  | move (statement : σ) (target : τ) (declaration : Nat → δ)
      (hstatement : (T.place? statement).isSome = true)
      (hdeclaration : ∀ n, T.declared? (declaration n) = some (n, target))
      (hgoal : T.goal? v = some target) :
    Effect v (T.move v.action statement target declaration)

variable {T}

/-! ### Targets of visits -/

/-- A rejected action leads to no target. -/
theorem goal?_of_rejected {v : Visit Float} (h : v.applied = false) : T.goal? v = none := by
  rw [goal?, h]
  rfl

/-- An applied motion leads to where the device is then. -/
theorem goal?_of_applied {v : Visit Float} (h : v.applied = true) :
    T.goal? v = match v.action.command with
      | .translation .. | .rotation .. | .transformation .. => T.pose? v.state
      | .axes .. => T.joints? v.state
      | _ => none :=
  if_pos h

/-- What leads to a target is a motion that was carried out. -/
theorem isMotion_of_goal {v : Visit Float} (h : (T.goal? v).isSome = true) :
    v.applied = true ∧ v.action.command.isMotion = true := by
  cases happlied : v.applied with
  | false =>
    rw [goal?_of_rejected happlied] at h
    cases h
  | true =>
    rw [goal?_of_applied happlied] at h
    refine ⟨rfl, ?_⟩
    cases hc : v.action.command <;> rw [hc] at h <;> first | rfl | cases h

/-- **Just the motions that are carried out lead to a target.** -/
theorem isSome_goal? (device : Device Float) (action : Action Float) :
    (T.goal? (device.visit action)).isSome =
      ((device.visit action).applied && action.command.isMotion) := by
  cases happlied : (device.visit action).applied with
  | false =>
    rw [goal?_of_rejected happlied]
    rfl
  | true =>
    -- an applied motion leaves the pose or the joint angles that its target is made of
    have hplaces := Device.perform_places (Device.perform_of_applied happlied)
    rw [goal?_of_applied happlied, Device.visit_action]
    cases hc : action.command with
    | translation | rotation | transformation =>
      rw [hc] at hplaces
      obtain ⟨⟨hposition, hrotation⟩, -⟩ := hplaces
      obtain ⟨position, hp⟩ := Option.isSome_iff_exists.mp hposition
      obtain ⟨rotation, hr⟩ := Option.isSome_iff_exists.mp hrotation
      have hpose := State.pose?_eq_some_iff.mpr ⟨hp, hr⟩
      exact (T.isSome_pose? _).trans (Option.isSome_of_eq_some hpose)
    | axes joints relative =>
      rw [hc] at hplaces
      exact (T.isSome_joints? _).trans hplaces.1
    | _ => rfl

/-- The visits with a target are those of the motions that are carried out. -/
theorem filter_goal (T : Targeting σ δ τ) (device : Device Float) (actions : List (Action Float)) :
    (device.visits actions).filter (fun v => (T.goal? v).isSome) =
      (device.visits actions).filter fun v => v.applied && v.action.command.isMotion := by
  induction actions generalizing device with
  | nil => rfl
  | cons action rest ih =>
    rw [Device.visits, List.filter_cons, List.filter_cons, ih, isSome_goal?, Device.visit_action]

/-- The actions with a target are the motions that are carried out. -/
theorem map_fst_goals (T : Targeting σ δ τ) (device : Device Float)
    (actions : List (Action Float)) :
    (T.goals (device.visits actions)).map Prod.fst =
      ((device.visits actions).filter fun v => v.applied && v.action.command.isMotion).map
        (·.action) := by
  rw [← T.filter_goal]
  induction device.visits actions with
  | nil => rfl
  | cons v rest ih =>
    rw [goals, List.filterMap_cons, List.filter_cons]
    cases T.goal? v with
    | none => exact ih
    | some target => exact congrArg _ ih

/-! ### Lines -/

/-- Lines are the same as themselves, with no target swapped. -/
theorem Swapped.refl (n : Nat) (lines : List String) : T.Swapped n [] lines lines := by
  induction lines with
  | nil => exact .nil n
  | cons line rest ih => exact .same line ih

/-- **Swapped lines may be put one after the other**; numbering goes on where it stopped. -/
theorem Swapped.append {n : Nat} {targets more : List τ} {lines others after rest : List String}
    (h : T.Swapped n targets lines others)
    (hmore : T.Swapped (n + targets.length) more after rest) :
    T.Swapped n (targets ++ more) (lines ++ after) (others ++ rest) := by
  induction h with
  | nil n => exact hmore
  | same line _ ih => exact .same line (ih hmore)
  | name front back target _ ih =>
    refine .name front back target (ih ?_)
    -- the next name is one further, while one target less is left
    rwa [List.length_cons, Nat.add_comm _ 1, ← Nat.add_assoc] at hmore

/-- The lines of a motion. -/
theorem swapped_move (look : Look) (action : Action Float) {statement : σ}
    (h : (T.place? statement).isSome = true) (target : τ) (n : Nat) :
    T.Swapped n [target] (look.lines T.text [.code action [T.withPlace (.inline target) statement]])
      (look.lines T.text [.code action [T.withPlace (.named n) statement]]) := by
  -- the place is one stretch of the text of the motion
  obtain ⟨front, back, htext⟩ := T.text_withPlace statement h
  have hlines (p : Place τ) :
      look.lines T.text [.code action [T.withPlace p statement]] =
        [String.ofList (List.replicate look.indent ' ') ++ front ++ p.text T.literal ++
          (back ++ look.annotation action)] := by
    simp [Look.lines, Look.entryLines, Look.codeLines, Look.indented, htext, String.append_assoc]
  rw [hlines, hlines]
  exact .name _ _ target (.nil _)

/-! ### Writing two programs alike -/

/-- Motions are read off a body piece by piece. -/
theorem motions_append (body more : List (Entry σ)) :
    T.motions (body ++ more) = T.motions body ++ T.motions more :=
  List.flatMap_append

/-- A body without motions has no entry with one. -/
theorem motions_of_mem {body : List (Entry σ)} (h : T.motions body = []) {e : Entry σ}
    (he : e ∈ body) : T.motions [e] = [] := by
  rw [motions, readings, List.flatMap_singleton]
  exact List.flatMap_eq_nil_iff.mp h e he

/-- An entry with a statement that is a motion has a motion. -/
theorem motions_ne_nil_of_moves {entry : Entry σ} (h : entry.statements.any T.moves = true) :
    T.motions [entry] ≠ [] := by
  obtain ⟨statement, hmem, hmoves⟩ := List.any_eq_true.mp h
  obtain ⟨place, hplace⟩ := Option.isSome_iff_exists.mp hmoves
  have hread : (entry.action?, place) ∈ T.motions [entry] := by
    rw [motions, readings, List.flatMap_singleton]
    exact List.mem_map_of_mem (List.mem_filterMap.mpr ⟨statement, hmem, hplace⟩)
  exact List.ne_nil_of_mem hread

/-- Declared targets are read off piece by piece as well. -/
theorem declared_append (declarations more : List (Entry δ)) :
    T.declared (declarations ++ more) = T.declared declarations ++ T.declared more :=
  List.flatMap_append

/-- So are the other declarations. -/
theorem others_append (declarations more : List (Entry δ)) :
    T.others (declarations ++ more) = T.others declarations ++ T.others more :=
  List.filter_append _ _

/-- A body has the shape of its pieces. -/
theorem shape_append (body more : List (Entry σ)) :
    T.shape (body ++ more) = T.shape body ++ T.shape more :=
  List.map_append

/-- The shape of a motion does not depend on its place. -/
theorem shape_append_code {body others : List (Entry σ)} (h : T.shape body = T.shape others)
    (action : Action Float) (statement : σ) (p q : Place τ) :
    T.shape (body ++ [.code action [T.withPlace p statement]]) =
      T.shape (others ++ [.code action [T.withPlace q statement]]) := by
  have hentry (p : Place τ) : T.shape [.code action [T.withPlace p statement]] =
      [.code action [T.withPlace (.named 0) statement]] := by
    rw [shape, List.map_singleton, Entry.map, List.map_singleton, T.withPlace_withPlace]
  rw [shape_append, shape_append, h, hentry, hentry]

theorem lines_append (look : Look) (body more : List (Entry σ)) :
    look.lines T.text (body ++ more) = look.lines T.text body ++ look.lines T.text more :=
  List.flatMap_append

theorem goals_append (visits more : List (Visit Float)) :
    T.goals (visits ++ more) = T.goals visits ++ T.goals more :=
  List.filterMap_append

/-- A visit that leads nowhere adds no target. -/
theorem goals_of_none {v : Visit Float} (h : T.goal? v = none) : T.goals [v] = [] := by
  simp [goals, h]

/-- A visit that leads to a target adds it. -/
theorem goals_of_some {v : Visit Float} {target : τ} (h : T.goal? v = some target) :
    T.goals [v] = [(v.action, target)] := by
  simp [goals, h]

namespace Alike

variable {goals : List (Action Float × τ)} {inPlace named : Sheet σ δ}

/-- Programs with nothing written are alike. -/
theorem empty : T.Alike [] ⟨[], [], 0⟩ ⟨[], [], 0⟩ :=
  ⟨rfl, rfl, rfl, rfl, rfl, rfl, fun _ => .nil 0, rfl⟩

/-- An entry without a motion that both write keeps them alike. -/
theorem write (h : T.Alike goals inPlace named) {entry : Entry σ}
    (hentry : T.motions [entry] = []) :
    T.Alike goals (inPlace.write entry) (named.write entry) where
  motions_inPlace := by
    rw [Sheet.write, motions_append, hentry, List.append_nil, h.motions_inPlace]
  motions_named := by rw [Sheet.write, motions_append, hentry, List.append_nil, h.motions_named]
  declared_inPlace := h.declared_inPlace
  declared_named := h.declared_named
  others := h.others
  shape := by rw [Sheet.write, Sheet.write, shape_append, shape_append, h.shape]
  lines look := by
    have hall := (h.lines look).append (Swapped.refl _ (look.lines T.text [entry]))
    rw [List.append_nil] at hall
    rw [Sheet.write, Sheet.write, lines_append, lines_append]
    exact hall
  next := h.next

/-- A declaration of something else that both write keeps them alike. -/
theorem declare (h : T.Alike goals inPlace named) {entry : Entry δ}
    (hentry : T.declared [entry] = []) :
    T.Alike goals (inPlace.declare entry) (named.declare entry) where
  motions_inPlace := h.motions_inPlace
  motions_named := h.motions_named
  declared_inPlace := by
    rw [Sheet.declare, declared_append, hentry, List.append_nil, h.declared_inPlace]
  declared_named := by
    rw [Sheet.declare, declared_append, hentry, List.append_nil, h.declared_named]
  others := by
    have hkeep : T.others [entry] = [entry] :=
      List.filter_cons_of_pos (List.isEmpty_iff.mpr hentry)
    rw [Sheet.declare, Sheet.declare, others_append, h.others, hkeep]
  shape := h.shape
  lines := h.lines
  next := h.next

/-- **A motion that each writes its own way keeps them alike.** -/
theorem move (h : T.Alike goals inPlace named) (action : Action Float) {statement : σ}
    {target : τ} {declaration : Nat → δ} (hstatement : (T.place? statement).isSome = true)
    (hdeclaration : ∀ n, T.declared? (declaration n) = some (n, target)) :
    T.Alike (goals ++ [(action, target)])
      (T.move action statement target declaration true inPlace)
      (T.move action statement target declaration false named) where
  motions_inPlace := by
    rw [List.map_append, ← h.motions_inPlace]
    refine (motions_append _ _).trans (congrArg _ ?_)
    exact readings_code (T.place?_withPlace _ _ hstatement) action
  motions_named := by
    rw [List.zipIdx_append, List.map_append, Nat.zero_add, ← h.motions_named, ← h.next]
    refine (motions_append _ _).trans (congrArg _ ?_)
    exact readings_code (T.place?_withPlace _ _ hstatement) action
  declared_inPlace := h.declared_inPlace
  declared_named := by
    rw [List.zipIdx_append, List.map_append, Nat.zero_add, ← h.declared_named, ← h.next]
    refine (declared_append _ _).trans (congrArg _ ?_)
    exact readings_code (hdeclaration _) action
  others := by
    have hdrop : T.others [.code action [declaration named.motions]] = [] := by
      refine List.filter_cons_of_neg ?_
      rw [declared, readings_code (hdeclaration _)]
      exact Bool.false_ne_true
    refine (others_append _ _).trans ?_
    rw [hdrop, List.append_nil, h.others]
    rfl
  shape := shape_append_code h.shape action statement _ _
  lines look := by
    have hmotion := swapped_move look action hstatement target (0 + (goals.map Prod.snd).length)
    have hall := (h.lines look).append hmotion
    rw [List.length_map, Nat.zero_add, ← h.next, ← lines_append, ← lines_append] at hall
    rw [List.map_append]
    exact hall
  next := by
    rw [List.length_append, ← h.next]
    rfl

/-- **What is written for a visit keeps programs alike**, and adds the target of the visit. -/
theorem effect (h : T.Alike goals inPlace named) {v : Visit Float}
    {write : Bool → Sheet σ δ → Sheet σ δ} (heffect : T.Effect v write) :
    T.Alike (goals ++ T.goals [v]) (write true inPlace) (write false named) := by
  cases heffect with
  | nothing hgoal =>
    rw [goals_of_none hgoal, List.append_nil]
    exact h
  | entry e _ hmotions hgoal =>
    rw [goals_of_none hgoal, List.append_nil]
    exact h.write hmotions
  | declaration e _ hdeclared hgoal =>
    rw [goals_of_none hgoal, List.append_nil]
    exact h.declare hdeclared
  | move statement target declaration hstatement hdeclaration hgoal =>
    rw [goals_of_some hgoal]
    exact h.move v.action hstatement hdeclaration

end Alike

/-! ### Steps and runs of drafts -/

section

variable {D R : Type} {sheet : D → Sheet σ δ} {rest : D → R}

/-- A way of writing does to the sheet of a draft what may be written for a visit. What it
writes, and what it makes of the rest of the draft, depends on the rest alone. -/
def Writes (T : Targeting σ δ τ) (sheet : D → Sheet σ δ) (rest : D → R) (known : R)
    (v : Visit Float) (write : Bool → D → D) : Prop :=
  ∃ effect after, T.Effect v effect ∧
    ∀ inlineTargets draft, rest draft = known →
      sheet (write inlineTargets draft) = effect inlineTargets (sheet draft) ∧
        rest (write inlineTargets draft) = after

variable {known : R} {v : Visit Float} {write : Bool → D → D}

/-- A step may write nothing for a visit that leads to no target. -/
theorem Writes.nothing (hgoal : T.goal? v = none) :
    T.Writes sheet rest known v fun _ draft => draft :=
  ⟨_, _, .nothing hgoal, fun _ _ hrest => ⟨rfl, hrest⟩⟩

/-- Or an entry that holds no motion. -/
theorem Writes.entry {e : Entry σ} (habout : e.About v) (hmotions : T.motions [e] = [])
    (hgoal : T.goal? v = none)
    (hwrite : ∀ inlineTargets draft, sheet (write inlineTargets draft) = (sheet draft).write e ∧
      rest (write inlineTargets draft) = rest draft) :
    T.Writes sheet rest known v write := by
  refine ⟨_, known, .entry e habout hmotions hgoal, fun inlineTargets draft hrest => ?_⟩
  obtain ⟨hsheet, hsame⟩ := hwrite inlineTargets draft
  exact ⟨hsheet, hsame.trans hrest⟩

/-- **Drafts that come of the same visits are alike**, where each step writes what may be
written for its visit, and so are the rests of the drafts. -/
theorem alike_foldl {step : Bool → D → Visit Float → D}
    (hstep : ∀ known v, T.Writes sheet rest known v fun inlineTargets draft =>
      step inlineTargets draft v)
    {start : D} (hstart : T.Alike [] (sheet start) (sheet start)) (visits : List (Visit Float)) :
    T.Alike (T.goals visits) (sheet (visits.foldl (step true) start))
        (sheet (visits.foldl (step false) start)) ∧
      rest (visits.foldl (step false) start) = rest (visits.foldl (step true) start) := by
  -- over the visits from the end, as a draft is what the earlier visits made and one step
  induction visits using List.reverseRecOn with
  | nil => exact ⟨hstart, rfl⟩
  | append_singleton past v ih =>
    obtain ⟨halike, hsame⟩ := ih
    obtain ⟨effect, after, heffect, hwrite⟩ := hstep (rest (past.foldl (step true) start)) v
    obtain ⟨hinPlace, hafter⟩ := hwrite true _ rfl
    obtain ⟨hnamed, hafter'⟩ := hwrite false _ hsame
    rw [goals_append, List.foldl_concat, List.foldl_concat, hinPlace, hnamed]
    exact ⟨halike.effect heffect, hafter'.trans hafter.symm⟩

/-- A motion that is written for a visit is the only entry of its body, and is that of the
action. -/
theorem Effect.body_eq {effect : Bool → Sheet σ δ → Sheet σ δ} (h : T.Effect v effect)
    (inlineTargets : Bool) (s : Sheet σ δ) :
    ∃ added, (effect inlineTargets s).body = s.body ++ added ∧
      ∀ e ∈ added, T.motions [e] ≠ [] →
        added = [e] ∧ (T.goal? v).isSome = true ∧ ∃ statement, e = .code v.action [statement] := by
  cases h with
  | nothing | declaration =>
    exact ⟨[], (List.append_nil _).symm, fun e he => absurd he List.not_mem_nil⟩
  | entry e _ hmotions =>
    refine ⟨[e], rfl, fun e' he' hmotion => ?_⟩
    rw [List.mem_singleton.mp he'] at hmotion
    exact absurd hmotions hmotion
  | move statement target declaration _ _ hgoal =>
    have hsome : (T.goal? v).isSome = true := Option.isSome_of_eq_some hgoal
    cases inlineTargets <;>
      exact ⟨_, rfl, fun e he _ =>
        ⟨by rw [List.mem_singleton.mp he], hsome, _, List.mem_singleton.mp he⟩⟩

/-- **What is written for a visit is about the visit**, in the body and in the declarations. -/
theorem Effect.share {effect : Bool → Sheet σ δ → Sheet σ δ} (h : T.Effect v effect)
    (inlineTargets : Bool) (s : Sheet σ δ) :
    ∃ added declared, (effect inlineTargets s).body = s.body ++ added ∧
      (effect inlineTargets s).declarations = s.declarations ++ declared ∧
        Share v added ∧ Share v declared := by
  cases h with
  | nothing =>
    exact ⟨[], [], (List.append_nil _).symm, (List.append_nil _).symm, share_nil v, share_nil v⟩
  | entry e habout => exact ⟨[e], [], rfl, (List.append_nil _).symm, habout.share, share_nil v⟩
  | declaration e habout =>
    exact ⟨[], [e], (List.append_nil _).symm, rfl, share_nil v, habout.share⟩
  | move statement target declaration _ _ hgoal =>
    have happlied := (isMotion_of_goal (Option.isSome_of_eq_some hgoal)).1
    cases inlineTargets with
    | true =>
      exact ⟨_, [], rfl, (List.append_nil _).symm, (Entry.About.code happlied _).share,
        share_nil v⟩
    | false =>
      exact ⟨_, _, rfl, rfl, (Entry.About.code happlied _).share,
        (Entry.About.code happlied _).share⟩

/-- A step that writes what may be written for its visit adds a share to the body. -/
theorem Writes.body (h : T.Writes sheet rest known v write) (inlineTargets : Bool) {draft : D}
    (hrest : rest draft = known) :
    ∃ added, (sheet (write inlineTargets draft)).body = (sheet draft).body ++ added ∧
      Share v added := by
  obtain ⟨effect, _, heffect, hwrite⟩ := h
  obtain ⟨added, -, hadded, -, hshare, -⟩ := heffect.share inlineTargets (sheet draft)
  rw [(hwrite inlineTargets draft hrest).1]
  exact ⟨added, hadded, hshare⟩

/-- And a share to the declarations. -/
theorem Writes.declarations (h : T.Writes sheet rest known v write) (inlineTargets : Bool)
    {draft : D} (hrest : rest draft = known) :
    ∃ declared,
      (sheet (write inlineTargets draft)).declarations = (sheet draft).declarations ++ declared ∧
        Share v declared := by
  obtain ⟨effect, _, heffect, hwrite⟩ := h
  obtain ⟨-, declared, -, hdeclared, -, hshare⟩ := heffect.share inlineTargets (sheet draft)
  rw [(hwrite inlineTargets draft hrest).1]
  exact ⟨declared, hdeclared, hshare⟩

/-- Motions are counted where a visit leads to a target. -/
theorem Effect.motions_eq {effect : Bool → Sheet σ δ → Sheet σ δ} (h : T.Effect v effect)
    (inlineTargets : Bool) (s : Sheet σ δ) :
    (effect inlineTargets s).motions = s.motions + if (T.goal? v).isSome then 1 else 0 := by
  cases h with
  | nothing hgoal | entry _ _ _ hgoal | declaration _ _ _ hgoal =>
    rw [hgoal]
    rfl
  | move _ _ _ _ _ hgoal =>
    rw [hgoal]
    cases inlineTargets <;> rfl

/-- **Every motion in the body of a program is that of a visit**, and what stands before it
is the body of the program of the visits before. -/
theorem exists_visit_of_motion {step : Bool → D → Visit Float → D}
    (hstep : ∀ known v, T.Writes sheet rest known v fun inlineTargets draft =>
      step inlineTargets draft v)
    {start : D} (hstart : T.motions (sheet start).body = []) (inlineTargets : Bool)
    {visits : List (Visit Float)} {before after : List (Entry σ)} {entry : Entry σ}
    (hbody : (sheet (visits.foldl (step inlineTargets) start)).body = before ++ entry :: after)
    (hentry : T.motions [entry] ≠ []) :
    ∃ past v future, visits = past ++ v :: future ∧
      before = (sheet (past.foldl (step inlineTargets) start)).body ∧
      (T.goal? v).isSome = true ∧ ∃ statement, entry = .code v.action [statement] := by
  -- motions are never among entries that are there from the start, so one came with a visit
  refine exists_visit_of_entry (fun draft => (sheet draft).body) (T.motions [·] ≠ [])
    (fun v e => (T.goal? v).isSome = true ∧ ∃ statement, e = .code v.action [statement])
    (fun draft v => ?_) (fun e he => ?_) hbody hentry
  · obtain ⟨effect, _, heffect, hwrite⟩ := hstep (rest draft) v
    rw [(hwrite inlineTargets draft rfl).1]
    exact heffect.body_eq inlineTargets (sheet draft)
  · rw [not_not]
    exact motions_of_mem hstart he

/-- **The motions of a program are those of the motions that were carried out.** -/
theorem atMotions {step : Bool → D → Visit Float → D}
    (hstep : ∀ known v, T.Writes sheet rest known v fun inlineTargets draft =>
      step inlineTargets draft v)
    {start : D} (hstart : T.motions (sheet start).body = []) (inlineTargets : Bool)
    (visits : List (Visit Float)) :
    AtMotions T.moves (fun visits => (sheet (visits.foldl (step inlineTargets) start)).body)
      visits fun _ _ => True := by
  intro before entry after hbody hmoves
  obtain ⟨past, v, future, hvisits, hbefore, hgoal, statement, hentry⟩ :=
    exists_visit_of_motion hstep hstart inlineTargets hbody (motions_ne_nil_of_moves hmoves)
  obtain ⟨happlied, hmotion⟩ := isMotion_of_goal hgoal
  exact ⟨past, v, future, statement, hvisits, happlied, hmotion, hbefore, hentry, trivial⟩

end

end Targeting

end Program

end RobotMotion
