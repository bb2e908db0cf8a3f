import RobotMotion.Proofs.Device.Brackets
import RobotMotion.Proofs.Fleet.Chain
import RobotMotion.Proofs.Fleet.Place

/-!
# Brackets along a run

What `Proofs.Device.Brackets` says of a device holds at every moment of a run, however
its actions come to be tried: at once or later, one by one or several together, and with
whatever else happens in the fleet meanwhile. As long as a device is not started again, the
trace tells which actions it tried, and that decides how it stands (`Steps.device_eq`).

Since a cursor was added, its device has put settings aside as often as it took some
back, and once more for each of those that are still aside (`Accounted`).
-/

namespace RobotMotion.Fleet

open RobotMotion.Action (openings closings Nested)

variable {α : Type}

/-- Whether an event starts the device of a cursor. -/
def Event.restarts (i : Nat) : Event α → Bool
  | .started j _ => j == i
  | _ => false

/-- The action that the device of a cursor tried in an event. -/
def Event.action? (i : Nat) (e : Event α) : Option (Action α) := (e.visit? i).map (·.action)

/-- The actions that the device of a cursor tried. -/
def triedBy (i : Nat) (t : List (Event α)) : List (Action α) := t.filterMap (Event.action? i)

/-- The settings put aside are those that were put aside and not taken back. -/
def Accounted (i : Nat) (t : List (Event α)) (c : Cursor α) : Prop :=
  c.device.stack.depth + closings (appliedBy i t) = openings (appliedBy i t)

theorem Event.eq_tried {i : Nat} {e : Event α} {a : Action α} (h : e.action? i = some a) :
    ∃ v, e = .tried i v ∧ v.action = a := by
  obtain ⟨v, hv, ha⟩ := Option.map_eq_some_iff.mp h
  cases e with
  | tried j w =>
    rw [Event.visit?] at hv
    split at hv
    · rename_i hj
      obtain rfl := Option.some.inj hv
      exact ⟨w, by rw [hj], ha⟩
    · cases hv
  | _ => cases hv

/-- A cursor that no event is about carried out nothing. -/
theorem appliedBy_of_not_about {i : Nat} {t : List (Event α)} (h : ∀ e ∈ t, e.about ≠ some i) :
    appliedBy i t = [] := by
  have hnone : visitsOf i t = [] := by
    rw [visitsOf, List.filterMap_eq_nil_iff]
    intro e he
    cases e with
    | tried j v => exact if_neg fun hj => h _ he (congrArg some hj)
    | _ => rfl
  rw [appliedBy, hnone]
  rfl

theorem triedBy_eq (i : Nat) (t : List (Event α)) :
    triedBy i t = (visitsOf i t).map (·.action) := by
  rw [triedBy, visitsOf, List.map_filterMap]
  rfl

theorem triedBy_cons (i : Nat) (e : Event α) (t : List (Event α)) :
    triedBy i (e :: t) = triedBy i [e] ++ triedBy i t := by
  rw [triedBy, triedBy, triedBy, ← List.filterMap_append]
  rfl

variable [Scalar α] {f g : Fleet α} {i : Nat} {c : Cursor α} {t : List (Event α)}

/-! ### What a device tried decides how it stands -/

/-- An event that does not start a device lets it try what it says. -/
theorem Step.device_eq {e : Event α} (h : Step f e g) (hc : f.cursor? i = some c)
    (he : e.restarts i = false) : (e.on i c).device = c.device.afterAll (triedBy i [e]) := by
  rcases h.device_cases hc with ⟨_, _, device, rfl, -⟩ | ⟨action, rfl, hon⟩ | ⟨hne, hon⟩
  · simp [Event.restarts] at he
  · have htried : triedBy i [.tried i (c.device.visit action)] = [action] := by
      simp [triedBy, Event.action?, Event.visit?, Device.visit_action]
    rw [hon, htried]
    rfl
  · rw [hon, triedBy_eq, visitsOf_of_ne hne]
    rfl

/-- **What a device tried decides how it stands**, as long as it is not started again. -/
theorem Steps.device_eq (h : Steps f t g) (hc : f.cursor? i = some c)
    (ht : ∀ e ∈ t, e.restarts i = false) :
    (follow i c t).device = c.device.afterAll (triedBy i t) := by
  induction h generalizing c with
  | refl f => rfl
  | @head f₁ f₂ f₃ e t first rest ih =>
    have he := ht e List.mem_cons_self
    rw [triedBy_cons, Device.afterAll, List.foldl_append]
    refine (ih (first.cursor? hc) fun e he => ht e (List.mem_cons_of_mem _ he)).trans ?_
    rw [first.device_eq hc he]
    rfl

/-! ### Settings put aside since the beginning -/

/-- An event keeps the account of a cursor that is there. -/
theorem Accounted.event {e : Event α} (h : Accounted i t c) (hs : Step f e g)
    (hc : f.cursor? i = some c) : Accounted i (t ++ [e]) (e.on i c) := by
  rw [Accounted, appliedBy_append, Action.openings_append, Action.closings_append]
  have hsame (hstack : (e.on i c).device.stack = c.device.stack)
      (hnone : appliedBy i [e] = []) :
      (e.on i c).device.stack.depth + (closings (appliedBy i t) + closings (appliedBy i [e])) =
        openings (appliedBy i t) + openings (appliedBy i [e]) := by
    rw [hstack, hnone]
    exact h
  rcases hs.device_cases hc with
    ⟨pose, settings, device, rfl, hstart, hon⟩ | ⟨action, rfl, hon⟩ | ⟨hne, hon⟩
  · refine hsame ?_ rfl
    rw [hon]
    exact Device.stack_start hstart
  · cases happlied : (c.device.visit action).applied with
    | false =>
      refine hsame ?_ ?_
      · rw [hon, Device.visit_device_of_rejected happlied]
      · simp [appliedBy, visitsOf_tried_self, happlied]
    | true =>
      have hone : appliedBy i [.tried i (c.device.visit action)] = [action] := by
        simp [appliedBy, visitsOf_tried_self, happlied, Device.visit_action]
      have hdepth := Device.perform_depth (Device.perform_of_applied happlied)
      rw [Accounted] at h
      rw [hone, hon]
      omega
  · refine hsame (congrArg (·.stack) hon) ?_
    rw [appliedBy, visitsOf_of_ne hne]
    rfl

/-- A new cursor has put nothing aside, and nothing was about it before. -/
theorem Accounted.new (h : ∀ e ∈ t, e.about ≠ some i) (name : String) (immediate : Bool)
    (child : Option Nat) (tools : List (Tool α)) :
    Accounted i t (.make name immediate child tools) := by
  rw [Accounted, appliedBy_of_not_about h]
  rfl

/-- **The account of every cursor is kept**, whatever happens. -/
theorem Steps.accounted {u : List (Event α)} (h : Steps f u g) (ht : Explained t f)
    (hf : ∀ {i c}, f.cursor? i = some c → Accounted i t c) {i : Nat} {c : Cursor α}
    (hc : g.cursor? i = some c) : Accounted i (t ++ u) c := by
  induction h generalizing t with
  | refl f =>
    rw [List.append_nil]
    exact hf hc
  | @head f₁ f₂ f₃ e u first rest ih =>
    rw [List.append_cons]
    refine ih (ht.step first) (fun {j d} hd => ?_) hc
    cases hj : f₁.cursor? j with
    | none =>
      -- `e` adds this very cursor
      obtain ⟨name, immediate, child, tools, rfl⟩ := first.cursor?_of_none hj hd
      refine .new (fun e' he' => ?_) name immediate child tools
      rcases List.mem_append.mp he' with he' | he'
      · exact ht.unseen hj e' he'
      · obtain rfl := List.mem_singleton.mp he'
        exact first.about_ne hj
    | some before =>
      obtain rfl := Option.some.inj ((first.cursor? hj).symm.trans hd)
      exact (hf hj).event first hj

/-! ### Brackets -/

/-- **Settings that were put aside come back.** For every cursor that was built, whatever
is asked of the fleet from there on, at every moment of the run:

* the device has settings put aside as often as it put some aside since it was added,
  less the times that it took some back;
* if the device tries to take settings back next, this is rejected exactly if none are put
  aside, and then changes nothing;
* if the device was started and puts its settings aside next, then tries nested actions
  of any kinds, of which some may be rejected, and then takes settings back, both
  brackets apply. In the end the settings are those of the beginning, those put aside are
  those of the beginning as well, and the settings just before the end are remembered. -/
theorem settings_come_back {built : List (Operation α)}
    (hc : (empty.run built).cursor? i = some c) (ops : List (Operation α)) :
    let f := empty.run built
    Steps f (f.runTrace ops) (f.run ops) ∧
    (f.run ops).cursor? i = some (follow i c (f.runTrace ops)) ∧
    ∀ before after, f.runTrace ops = before ++ after →
      let now := (follow i c before).device
      let applied := appliedBy i (empty.runTrace built ++ before)
      now.stack.depth + closings applied = openings applied ∧
      (∀ v rest, after = .tried i v :: rest → v.action.command = .popSettings →
        (v.applied = false ↔ now.stack.depth = 0) ∧ (v.applied = false → v.device = now)) ∧
      ∀ opening middle closing rest,
        after = .tried i opening :: (middle ++ .tried i closing :: rest) →
        now.ready = true → opening.action.command = .pushSettings →
        closing.action.command = .popSettings → (∀ e ∈ middle, e.restarts i = false) →
        Nested (triedBy i middle) →
        let inside := (follow i c (before ++ .tried i opening :: middle)).device
        let last := (follow i c (before ++ .tried i opening :: middle ++ [.tried i closing])).device
        opening.applied = true ∧ closing.applied = true ∧
          last.state.settings = now.state.settings ∧
          last.stack = ⟨now.stack.entries, some inside.state.settings⟩ := by
  intro f
  have hbuilt := run_steps empty built
  have hsteps := run_steps f ops
  refine ⟨hsteps, hsteps.cursor? hc, fun before after hsplit => ?_⟩
  rw [hsplit] at hsteps
  obtain ⟨g, hbefore, hafter⟩ := hsteps.split
  have hnow := hbefore.cursor? hc
  intro now applied
  refine ⟨?_, ?_, ?_⟩
  · exact (hbuilt.append hbefore).accounted explained_empty nofun hnow
  · rintro v rest rfl hpop
    have hreachable := (explained_empty.steps (hbuilt.append hbefore)).device hnow
    cases hafter with
    | head first _ =>
      have hv : v = now.visit v.action := first.visit_eq hnow
      have hdecides := hreachable.rejected_iff_of_popSettings hpop
      rw [← hv] at hdecides
      refine ⟨hdecides, fun hrejected => ?_⟩
      rw [hv] at hrejected
      rw [hv, Device.visit_device_of_rejected hrejected]
  · rintro opening middle closing rest rfl hready hopening hclosing hnot hnested
    intro inside last
    cases hafter with
    | head first hrest =>
      obtain ⟨h, hmiddle, hend⟩ := hrest.split
      cases hend with
      | head final _ =>
        -- the events are visits of the device as it stands then
        have hopen : opening = now.visit opening.action := first.visit_eq hnow
        have hopened := first.cursor? hnow
        have hinside : inside = opening.device.afterAll (triedBy i middle) := by
          simp only [inside]
          rw [follow_append]
          refine (hmiddle.device_eq hopened hnot).trans ?_
          rw [Event.on, if_pos rfl]
        have hclose : closing = inside.visit closing.action := by
          have hvisit := final.visit_eq (hmiddle.cursor? hopened)
          simp only [inside]
          rw [follow_append]
          exact hvisit
        have hlast : last = closing.device := by
          simp only [last]
          rw [follow_append]
          simp [follow, Event.on]
        obtain ⟨hopens, hcloses, hsettings, hstack⟩ :=
          Device.bracket hready hopening hclosing hnested
        rw [← hopen] at hopens
        rw [← hopen, ← hinside, ← hclose] at hcloses hsettings hstack
        rw [hlast]
        exact ⟨hopens, hcloses, hsettings, hstack⟩

/-- Requests after which a cursor has put settings aside and has more brackets waiting. -/
def bracketsWaiting : List (Operation Float) :=
  [.add "arm" false none [], .start 0 .origin .standard, .issue 0 ⟨1, .pushSettings⟩,
    .issue 0 ⟨2, .setting .speed 30 false⟩, .issue 0 ⟨3, .pushSettings⟩,
    .issue 0 ⟨4, .setting .speed 50 false⟩, .issue 0 ⟨5, .pushSettings⟩,
    .issue 0 ⟨6, .detachTool⟩, .issue 0 ⟨7, .motionMode .joint⟩, .issue 0 ⟨8, .popSettings⟩,
    .issue 0 ⟨9, .popSettings⟩, .advanceTo 0 2]

/-- What is tried between the outermost brackets that wait; there is no tool to detach. -/
def betweenBrackets : List (Action Float) :=
  [⟨4, .setting .speed 50 false⟩, ⟨5, .pushSettings⟩, ⟨6, .detachTool⟩, ⟨7, .motionMode .joint⟩,
    ⟨8, .popSettings⟩]

/-- After the outermost brackets the speed is the one of before, and one bracket is open. -/
theorem settings_come_back_bracketsWaiting :
    ∃ c d, (empty.run bracketsWaiting).cursor? 0 = some c ∧
      ((empty.run bracketsWaiting).run [.advanceTo 0 9]).cursor? 0 = some d ∧
      c.device.state.settings.speed = 30 ∧ c.device.stack.depth = 1 ∧
      d.device.state.settings = c.device.state.settings ∧
      d.device.stack.entries = c.device.stack.entries := by
  have hbuilt : ((empty.run bracketsWaiting).cursor? 0).map (fun c =>
      (c.device.ready, c.device.state.settings.speed, c.device.stack.depth)) =
        some (true, 30, 1) := by decide +kernel
  -- one release, and then the visits
  have htrace : ((empty.run bracketsWaiting).runTrace [.advanceTo 0 9]).map (Event.action? 0) =
      [none] ++ (some ⟨3, .pushSettings⟩ ::
        (betweenBrackets.map some ++ [some ⟨9, .popSettings⟩])) := by decide +kernel
  have hquiet : ∀ e ∈ (empty.run bracketsWaiting).runTrace [.advanceTo 0 9],
      e.restarts 0 = false := by decide +kernel
  have hnested : Nested betweenBrackets := by
    refine ⟨fun front hfront => ?_, by decide⟩
    have hinits := (List.mem_inits _ _).mpr hfront
    clear hfront
    revert front
    decide
  obtain ⟨c, hc, hstands⟩ := Option.map_eq_some_iff.mp hbuilt
  obtain ⟨hready, hspeed, hdepth⟩ : c.device.ready = true ∧ _ ∧ _ := by simpa using hstands
  obtain ⟨before, after, hsplit, hbefore, hafter⟩ := List.map_eq_append_iff.mp htrace
  obtain ⟨e, more, rfl, hopen, hmore⟩ := List.map_eq_cons_iff.mp hafter
  obtain ⟨middle, tail, rfl, hmiddle, htail⟩ := List.map_eq_append_iff.mp hmore
  obtain ⟨e', rest, rfl, hclose, hrest⟩ := List.map_eq_cons_iff.mp htail
  obtain rfl := List.map_eq_nil_iff.mp hrest
  obtain ⟨opening, rfl, hopening⟩ := Event.eq_tried hopen
  obtain ⟨closing, rfl, hclosing⟩ := Event.eq_tried hclose
  have htried {t : List (Event Float)} {tried : List (Option (Action Float))}
      (h : t.map (Event.action? 0) = tried) : triedBy 0 t = tried.filterMap id := by
    rw [← h, List.filterMap_map]
    rfl
  obtain ⟨hsteps, hcursor, hmoments⟩ := settings_come_back hc [.advanceTo 0 9]
  rw [hsplit] at hsteps hcursor hquiet
  obtain ⟨g, hrelease, -⟩ := hsteps.split
  have hnow : (follow 0 c before).device = c.device := by
    rw [hrelease.device_eq hc fun e he => hquiet e (List.mem_append_left _ he), htried hbefore]
    rfl
  obtain ⟨-, -, hbracket⟩ := hmoments before _ hsplit
  rw [hnow] at hbracket
  have hmore : ∀ e ∈ middle, e.restarts 0 = false := fun e he => hquiet e (by simp [he])
  obtain ⟨-, -, hsettings, hstack⟩ := hbracket opening middle closing [] rfl hready
    (by rw [hopening]) (by rw [hclosing]) hmore (by rw [htried hmiddle]; exact hnested)
  refine ⟨c, _, hc, hcursor, hspeed, hdepth, ?_, ?_⟩
  · rw [List.append_assoc] at hsettings
    exact hsettings
  · rw [List.append_assoc] at hstack
    have hentries := congrArg SettingsStack.entries hstack
    exact hentries

end RobotMotion.Fleet
