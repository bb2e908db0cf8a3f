import RobotMotion.Proofs.Cursor.Rehearsal
import RobotMotion.Proofs.Device.Trials
import RobotMotion.Proofs.Program.Layout

/-!
# Extrusion in G-code

The extrusion values of a G-code program count from an origin, which is moved along with
what the device extrudes on travel and is set anew where extrusion is switched. Read over
exact numbers, what the device extruded beyond the origin is at every moment what the
trials since the last switch fed (`GCode.extruded_sub_origin`, for one trial), so the value
of a move at work is a sum over moves at work (`GCode.getElem?_feeds`). The program itself
carries the values of the run over doubles, written out (`GCode.Draft.workWords_body_foldl`).
-/

namespace RobotMotion

variable {α : Type} [Scalar α]

/-- The trials of a rehearsal. -/
def Cursor.trials (c : Cursor α) (blockOnly : Bool) : List (Trial α) :=
  c.device.trials (c.rehearsal blockOnly).queue.pending

/-- The visits of a cursor are those of its trials. -/
theorem Cursor.map_visit_trials (c : Cursor α) (blockOnly : Bool) :
    (c.trials blockOnly).map Trial.visit = c.visits blockOnly := by
  rw [trials, Device.map_visit_trials, visits_eq_rehearsal]

namespace GCode

open RobotMotion.Trial (sinceSwitch)

/-! ### One trial -/

section

variable (origin : α) {t : Trial α}

theorem feed_of_not_applied (h : t.visit.applied = false) :
    feed origin t.visit = (none, origin) := by
  rw [feed, h]
  rfl

/-- Nothing but a move feeds, and only a switch lets the extrusion count anew. -/
theorem feed_of_not_move (happlied : t.visit.applied = true)
    (hmove : t.action.command.isMove = false) :
    feed origin t.visit = (none, if t.switches then t.visit.state.extruded else origin) := by
  rw [feed, happlied, t.action_visit, Trial.switches, happlied]
  cases hc : t.action.command with
  | translation | transformation =>
    rw [hc] at hmove
    cases hmove
  | _ => rfl

/-- A move feeds along a line, and moves the origin along when it travels. -/
theorem feed_of_move (happlied : t.visit.applied = true) (hmove : t.action.command.isMove = true) :
    feed origin t.visit =
      match t.before.state.extruding, t.before.state.settings.motion with
      | true, .linear => (some (t.visit.state.extruded - origin), origin)
      | true, .joint => (none, origin + t.visit.state.extrudedDelta)
      | false, _ => (none, origin) := by
  obtain ⟨there, hthere, -, hextruding, hsettings⟩ := t.move_eq happlied hmove
  rw [← hextruding, ← hsettings]
  cases hc : t.action.command with
  | translation | transformation =>
    simp only [feed, happlied, t.action_visit, hc, hthere]
    cases t.visit.state.extruding <;> cases t.visit.state.settings.motion <;> rfl
  | _ =>
    rw [hc] at hmove
    cases hmove

/-- **Exactly the trials that work feed**: by what the device extruded beyond the origin. -/
theorem feed_fst (t : Trial α) :
    (feed origin t.visit).1 =
      if t.works then some (t.visit.state.extruded - origin) else none := by
  cases happlied : t.visit.applied with
  | false =>
    rw [feed_of_not_applied origin happlied, t.works_of_not_line (t.isLine_of_rejected happlied)]
    rfl
  | true =>
    cases hmove : t.action.command.isMove with
    | false =>
      rw [feed_of_not_move origin happlied hmove,
        t.works_of_not_line (t.isLine_of_not_move hmove)]
      rfl
    | true =>
      rw [feed_of_move origin happlied hmove, Trial.works, t.isLine_of_move happlied hmove]
      cases t.before.state.extruding <;> cases t.before.state.settings.motion <;> rfl

/-- After a switch the extrusion counts from zero. -/
theorem feed_snd_of_switches (h : t.switches = true) :
    (feed origin t.visit).2 = t.visit.state.extruded := by
  obtain ⟨happlied, hswitch⟩ := Bool.and_eq_true_iff.mp h
  have hmove : t.action.command.isMove = false := by
    cases hc : t.action.command with
    | extrusion on => rfl
    | _ =>
      rw [hc] at hswitch
      cases hswitch
  rw [feed_of_not_move origin happlied hmove, h, if_pos rfl]

end

/-- **One step of the accounts.** Without a switch, the length beyond the origin grows by
what the trial feeds: the origin moves along with everything else that is extruded. -/
theorem extruded_sub_origin (origin : ℝ) {t : Trial ℝ} (h : t.switches = false) :
    t.visit.state.extruded - (feed origin t.visit).2 =
      t.fed + (t.before.state.extruded - origin) := by
  cases happlied : t.visit.applied with
  | false =>
    have hstate : t.visit.state = t.before.state :=
      congrArg Device.state (Device.visit_device_of_rejected happlied)
    have hworks := t.works_of_not_line (t.isLine_of_rejected happlied)
    rw [feed_of_not_applied origin happlied, hstate, Trial.fed_of_not_works hworks]
    ring
  | true =>
    cases hmove : t.action.command.isMove with
    | false =>
      have hworks := t.works_of_not_line (t.isLine_of_not_move hmove)
      rw [feed_of_not_move origin happlied hmove, h, if_neg Bool.false_ne_true,
        Trial.extruded_of_not_move happlied hmove, Trial.fed_of_not_works hworks]
      ring
    | true =>
      have hline := t.isLine_of_move happlied hmove
      rw [feed_of_move origin happlied hmove]
      cases hmotion : t.before.state.settings.motion with
      | linear =>
        -- along a line the origin stays, whether the device extrudes or not
        rw [hmotion] at hline
        rw [Trial.fed_of_line hline]
        cases t.before.state.extruding <;> ring
      | joint =>
        rw [hmotion] at hline
        rw [Trial.fed_of_not_works (t.works_of_not_line hline)]
        cases hextruding : t.before.state.extruding with
        | false =>
          obtain ⟨there, -, hextruded, -, -⟩ := t.move_eq happlied hmove
          rw [hextruded, State.extrusionTo_of_idle hextruding]
          ring
        | true =>
          have hdelta : t.visit.state.extrudedDelta =
              t.visit.state.extruded - t.before.state.extruded :=
            Device.extrudedDelta_of_perform (Device.perform_of_applied happlied)
          show t.visit.state.extruded - (origin + t.visit.state.extrudedDelta) = _
          rw [hdelta]
          ring

/-! ### A whole run -/

section

variable {origin : ℝ} {past : List (Trial ℝ)}

/-- What the trials since the last switch feed is what the device extruded beyond the
origin, after one more trial too. -/
theorem extruded_sub_origin_concat {t : Trial ℝ}
    (horigin : t.before.state.extruded - origin = ((sinceSwitch past).map Trial.fed).sum) :
    t.visit.state.extruded - (feed origin t.visit).2 =
      ((sinceSwitch (past ++ [t])).map Trial.fed).sum := by
  rw [Trial.sinceSwitch_concat]
  cases hswitches : t.switches with
  | true =>
    rw [feed_snd_of_switches origin hswitches, sub_self]
    rfl
  | false =>
    rw [extruded_sub_origin origin hswitches, horigin, if_neg Bool.false_ne_true, List.map_cons,
      List.sum_cons]

/-- The value of a trial that works is what it feeds and what was fed since the last switch. -/
theorem feed_fst_eq_sum {t : Trial ℝ}
    (horigin : t.before.state.extruded - origin = ((sinceSwitch past).map Trial.fed).sum) :
    (feed origin t.visit).1 =
      if t.works then some (((t :: sinceSwitch past).map Trial.fed).sum) else none := by
  rw [feed_fst]
  cases hworks : t.works with
  | false => rfl
  | true =>
    obtain ⟨hline, -⟩ := Bool.and_eq_true_iff.mp hworks
    have hsum : t.visit.state.extruded - origin = t.visit.state.extruded -
        t.before.state.extruded + (t.before.state.extruded - origin) := by ring
    rw [List.map_cons, List.sum_cons, Trial.fed_of_line hline, ← horigin, ← hsum]

/-- **The accounts of a run.** Where the length beyond the origin is what was fed since the
last switch, every value of the run is what was fed since the switch before it. -/
theorem getElem?_feeds (d : Device ℝ) (actions : List (Action ℝ)) (past : List (Trial ℝ))
    (horigin : d.state.extruded - origin = ((sinceSwitch past).map Trial.fed).sum) (n : Nat) :
    (feeds origin (d.visits actions))[n]? = (d.trials actions)[n]?.map fun t =>
      if t.works then
        some (((t :: sinceSwitch (past ++ (d.trials actions).take n)).map Trial.fed).sum)
      else none := by
  -- `past` are the trials before the run, and grow with every action that is tried
  induction actions generalizing d past origin n with
  | nil => rfl
  | cons action rest ih =>
    have hfirst : (⟨d, action⟩ : Trial ℝ).before.state.extruded - origin =
      ((sinceSwitch past).map Trial.fed).sum := horigin
    rw [Device.visits, Device.trials, feeds]
    cases n with
    | zero =>
      rw [List.take_zero, List.append_nil]
      exact congrArg some (feed_fst_eq_sum hfirst)
    | succ n =>
      rw [List.getElem?_cons_succ, List.getElem?_cons_succ, List.take_succ_cons,
        List.append_cons]
      exact ih _ _ (extruded_sub_origin_concat hfirst) n

end

/-! ### The words of a program -/

/-- The extrusion word of a move at work, which may be missing. -/
def Statement.extrusion? : Statement → Option (Option String)
  | .work _ _ _ extrusion _ => some extrusion
  | _ => none

/-- The extrusion words of the moves at work, in their order. -/
def workWords (entries : List (Program.Entry Statement)) : List (Option String) :=
  (entries.flatMap Program.Entry.statements).filterMap Statement.extrusion?

/-- The word for an extrusion value. -/
def word (d : Decimals) (value : Option Float) : Option String :=
  value.map (Decimal.fixed · d.unitless)

/-- The words for the values of trials that are moves along a line. -/
def lineWords (d : Decimals) (values : List (Trial Float × Option Float)) :
    List (Option String) :=
  values.filterMap fun (t, value) => if t.isLine then some (word d value) else none

theorem lineWords_cons (d : Decimals) (t : Trial Float) (value : Option Float)
    (rest : List (Trial Float × Option Float)) :
    lineWords d ((t, value) :: rest) =
      (if t.isLine then [word d value] else []) ++ lineWords d rest := by
  cases h : t.isLine <;> simp [lineWords, h]

theorem workWords_append (entries more : List (Program.Entry Statement)) :
    workWords (entries ++ more) = workWords entries ++ workWords more := by
  rw [workWords, List.flatMap_append, List.filterMap_append]
  rfl

namespace Draft

variable (d : Decimals) (origin : Float)

/-- What is put in front of a program is not at work. -/
theorem workWords_preambleEntries (v : Visit Float) : workWords (preambleEntries v) = [] := by
  rw [preambleEntries]
  split <;> rfl

theorem workWords_bodyEntries_of_not_move {v : Visit Float}
    (hmove : v.action.command.isMove = false) : workWords (bodyEntries d origin v) = [] := by
  simp only [bodyEntries]
  split
  · rfl
  · split
    case h_1 h | h_2 h =>
      rw [h] at hmove
      cases hmove
    all_goals repeat' split
    all_goals rfl

/-- A move along a line is at work, and carries what it feeds. -/
theorem workWords_bodyEntries_of_move {t : Trial Float} (happlied : t.visit.applied = true)
    (hmove : t.action.command.isMove = true) :
    workWords (bodyEntries d origin t.visit) =
      if t.before.state.settings.motion = .linear then [word d (feed origin t.visit).1]
      else [] := by
  obtain ⟨there, hthere, -, -, hsettings⟩ := t.move_eq happlied hmove
  rw [← hsettings]
  cases hc : t.action.command with
  | translation | transformation =>
    simp only [bodyEntries, happlied, t.action_visit, hc, hthere, move]
    cases t.visit.state.settings.motion <;> rfl
  | _ =>
    rw [hc] at hmove
    cases hmove

/-- **Exactly the moves along a line are at work**, each with what it feeds. -/
theorem workWords_bodyEntries (t : Trial Float) :
    workWords (bodyEntries d origin t.visit) =
      if t.isLine then [word d (feed origin t.visit).1] else [] := by
  cases happlied : t.visit.applied with
  | false =>
    rw [t.isLine_of_rejected happlied]
    simp only [bodyEntries, happlied]
    rfl
  | true =>
    cases hmove : t.action.command.isMove with
    | false =>
      rw [t.isLine_of_not_move hmove]
      exact workWords_bodyEntries_of_not_move d origin (by rw [t.action_visit, hmove])
    | true =>
      rw [workWords_bodyEntries_of_move d origin happlied hmove, t.isLine_of_move happlied hmove]
      simp only [decide_eq_true_eq]

theorem workWords_preamble_foldl (visits : List (Visit Float)) (draft : Draft) :
    workWords (visits.foldl (step d) draft).preamble = workWords draft.preamble := by
  induction visits generalizing draft with
  | nil => rfl
  | cons v rest ih =>
    rw [List.foldl_cons, ih, step, workWords_append, workWords_preambleEntries, List.append_nil]

/-- The words of the moves at work are those for the values of the run, trial by trial. -/
theorem workWords_body_foldl (device : Device Float) (actions : List (Action Float))
    (draft : Draft) :
    workWords ((device.visits actions).foldl (step d) draft).body =
      workWords draft.body ++
        lineWords d ((device.trials actions).zip (feeds draft.origin (device.visits actions))) := by
  induction actions generalizing device draft with
  | nil => exact (List.append_nil _).symm
  | cons action rest ih =>
    have hfirst : workWords (bodyEntries d draft.origin (device.visit action)) = _ :=
      workWords_bodyEntries d draft.origin ⟨device, action⟩
    rw [Device.visits, Device.trials, feeds, List.foldl_cons, ih, List.zip_cons_cons,
      lineWords_cons, step, workWords_append, hfirst, List.append_assoc]
    rfl

end Draft

/-- Travel between two moves at work is left out of the sum. -/
example :
    feeds 0 (Device.visits
      ⟨true, { State.blank .empty with
        position := some .zero
        rotation := some .identity
        settings := { Settings.standard with extrusionRate := 0.5 } }, .empty⟩
      [⟨1, .extrusion true⟩, ⟨2, .translation ⟨10, 0, 0⟩ true⟩, ⟨3, .motionMode .joint⟩,
        ⟨4, .translation ⟨0, 4, 0⟩ true⟩, ⟨5, .motionMode .linear⟩,
        ⟨6, .translation ⟨20, 0, 0⟩ true⟩]) =
      [none, some 5, none, none, none, some (15 : Float)] := by
  decide +kernel

end GCode

end RobotMotion
