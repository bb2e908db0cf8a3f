import RobotMotion.Proofs.Device.NonNegative
import RobotMotion.Proofs.Fleet.Place

/-!
# Settings that never go negative along a run

What `Proofs.Device.NonNegative` says of one action holds at every moment of a run. A device
is started where that is asked for and nowhere else (`exists_start_of_runTrace`), so it is
enough that no start of the cursor gives it a negative number: from there on it holds none,
whichever actions it tries and however they reach it.
-/

namespace RobotMotion.Fleet

variable {α : Type} [Scalar α] {i : Nat} {device : Device α}

/-! ### Where starts come from -/

/-- Carrying out an action starts no device, if passing it on does not. -/
theorem started_not_mem_triedTrace {pass : Fleet α → Action α → List (Event α)}
    (hpass : ∀ f action, Event.started i device ∉ pass f action) (f : Fleet α) (j : Nat)
    (c : Cursor α) (action : Action α) :
    Event.started i device ∉ triedTrace pass f j c action := by
  rw [triedTrace]
  intro hmem
  rcases List.mem_cons.mp hmem with hfirst | hrest
  · cases hfirst
  · split at hrest
    · exact hpass _ _ hrest
    · cases hrest

/-- Issuing starts no device, however far the action is passed on. -/
theorem started_not_mem_issueTrace (f : Fleet α) (j : Nat) (action : Action α) :
    Event.started i device ∉ f.issueTrace j action := by
  induction j using Nat.strongRecOn generalizing f action with
  | ind j ih =>
    rw [issueTrace]
    cases f.cursor? j with
    | none => exact List.not_mem_nil
    | some c =>
      intro hmem
      rcases List.mem_cons.mp hmem with hfirst | hmem
      · cases hfirst
      · cases hadd : c.queue.add? action with
        | none => simp only [hadd, List.not_mem_nil] at hmem
        | some queue =>
          simp only [hadd] at hmem
          split at hmem
          · cases hnext : queue.next? with
            | none => simp only [hnext, List.not_mem_nil] at hmem
            | some released =>
              simp only [hnext] at hmem
              rcases List.mem_cons.mp hmem with hfirst | hmem
              · cases hfirst
              · refine started_not_mem_triedTrace (fun g a => ?_) _ _ _ _ hmem
                -- the child comes before its parent, so `ih` speaks of it
                split
                · exact List.not_mem_nil
                · rename_i k hk _
                  exact ih k hk g a
          · cases hmem

/-- Neither does passing an action on. -/
theorem started_not_mem_passTrace (c : Cursor α) (j : Nat) (f : Fleet α) (action : Action α) :
    Event.started i device ∉ passTrace c j f action := by
  rw [passTrace]
  split
  · exact List.not_mem_nil
  · exact started_not_mem_issueTrace f _ action

theorem started_not_mem_nextTrace (f : Fleet α) (j : Nat) :
    Event.started i device ∉ f.nextTrace j := by
  rw [nextTrace]
  cases f.cursor? j with
  | none => exact List.not_mem_nil
  | some c =>
    dsimp only
    cases c.queue.next? with
    | none => exact List.not_mem_nil
    | some released =>
      intro hmem
      rcases List.mem_cons.mp hmem with hfirst | hmem
      · cases hfirst
      · exact started_not_mem_triedTrace (started_not_mem_passTrace c j) _ _ _ _ hmem

theorem started_not_mem_carryOutAllTrace (f : Fleet α) (j : Nat) (actions : List (Action α)) :
    Event.started i device ∉ f.carryOutAllTrace j actions := by
  induction actions generalizing f with
  | nil => exact List.not_mem_nil
  | cons action rest ih =>
    rw [carryOutAllTrace]
    split
    · exact List.not_mem_nil
    · refine fun hmem => (List.mem_append.mp hmem).elim ?_ (ih _)
      exact started_not_mem_triedTrace (started_not_mem_passTrace _ j) _ _ _ _

theorem started_not_mem_advanceTrace (f : Fleet α) (j id : Nat) :
    Event.started i device ∉ f.advanceTrace j id := by
  rw [advanceTrace]
  split
  · exact List.not_mem_nil
  · intro hmem
    rcases List.mem_cons.mp hmem with hfirst | hmem
    · cases hfirst
    · exact started_not_mem_carryOutAllTrace _ j _ hmem

/-- A device is started at the settings that the request for it names. -/
theorem exists_start_of_requestTrace {f : Fleet α} {op : Operation α}
    (h : Event.started i device ∈ f.requestTrace op) :
    ∃ pose, op = .start i pose device.state.settings := by
  cases op with
  | start j pose settings =>
    rw [requestTrace, startTrace] at h
    split at h
    · cases h
    · split at h
      · cases h
      · rename_i hstart
        obtain ⟨rfl, rfl⟩ := Event.started.inj (List.mem_singleton.mp h)
        obtain ⟨-, -, rfl⟩ := Device.start_eq_ok hstart
        exact ⟨pose, rfl⟩
  | add name immediate child tools => cases List.mem_singleton.mp h
  | issue j action => exact absurd h (started_not_mem_issueTrace f j action)
  | next j => exact absurd h (started_not_mem_nextTrace f j)
  | advanceTo j id => exact absurd h (started_not_mem_advanceTrace f j id)
  | onQueue j op =>
    rw [requestTrace] at h
    split at h
    · cases h
    · cases List.mem_singleton.mp h

/-- **A device is started where that is asked for**, at the settings named there. -/
theorem exists_start_of_runTrace {f : Fleet α} {ops : List (Operation α)}
    (h : Event.started i device ∈ f.runTrace ops) :
    ∃ pose, .start i pose device.state.settings ∈ ops := by
  induction ops generalizing f with
  | nil => cases h
  | cons op rest ih =>
    rcases List.mem_append.mp h with hfirst | hrest
    · obtain ⟨pose, rfl⟩ := exists_start_of_requestTrace hfirst
      exact ⟨pose, List.mem_cons_self⟩
    · obtain ⟨pose, hmem⟩ := ih hrest
      exact ⟨pose, List.mem_cons_of_mem _ hmem⟩

/-! ### Events -/

variable {f g : Fleet α} {c : Cursor α} {t : List (Event α)}

/-- Events that start a cursor without a negative number in its settings. -/
def StartsNotNegative (i : Nat) (t : List (Event α)) : Prop :=
  ∀ device, .started i device ∈ t → device.state.settings.NotNegative

theorem StartsNotNegative.tail {e : Event α} (h : StartsNotNegative i (e :: t)) :
    StartsNotNegative i t :=
  fun device hdevice => h device (List.mem_cons_of_mem e hdevice)

/-- An event brings in no negative number: starts are at settings without one, and trying an action
keeps there being none. -/
theorem Step.notNegative (hzero : Scalar.NotNegative (Scalar.zero : α)) {e : Event α}
    (h : Step f e g) (hc : f.cursor? i = some c) (hstarts : StartsNotNegative i (e :: t))
    (hd : c.device.NotNegative) : (e.on i c).device.NotNegative := by
  rcases h.device_cases hc with ⟨pose, settings, device, he, hs, hon⟩ | ⟨action, -, hon⟩ | ⟨-, hon⟩
  · have hsettings := hstarts device (he ▸ List.mem_cons_self)
    obtain ⟨-, -, hdevice⟩ := Device.start_eq_ok hs
    rw [hdevice] at hsettings
    rw [hon]
    exact hd.start hsettings hs
  · rw [hon]
    exact hd.visit hzero action
  · rw [hon]
    exact hd

/-- **No event brings in a negative number**, whether the cursor is there already or comes
in between. -/
theorem Steps.notNegative (hstandard : (Settings.standard : Settings α).NotNegative)
    (h : Steps f t g) (hstarts : StartsNotNegative i t)
    (hf : ∀ c, f.cursor? i = some c → c.device.NotNegative) :
    ∀ c, g.cursor? i = some c → c.device.NotNegative := by
  induction h with
  | refl f => exact hf
  | @head f₁ f₂ f₃ e t first rest ih =>
    refine ih hstarts.tail fun c hc => ?_
    -- a cursor that comes in with this event is blank
    cases hbefore : f₁.cursor? i with
    | none =>
      obtain ⟨name, immediate, child, tools, rfl⟩ := first.cursor?_of_none hbefore hc
      exact Device.notNegative_blank hstandard _
    | some b =>
      obtain rfl := Option.some.inj ((first.cursor? hbefore).symm.trans hc)
      exact first.notNegative (hstandard .acceleration) hbefore hstarts (hf b hbefore)

/-- No event shortens the extruded length. -/
theorem Step.extruded_le {f g : Fleet ℝ} {c : Cursor ℝ} {e : Event ℝ} (h : Step f e g)
    (hc : f.cursor? i = some c) (hd : c.device.NotNegative) :
    c.device.state.extruded ≤ (e.on i c).device.state.extruded := by
  rcases h.device_cases hc with ⟨pose, settings, device, -, hs, hon⟩ | ⟨action, -, hon⟩ | ⟨-, hon⟩
  · exact (hon ▸ Device.extruded_start hs).ge
  · rw [hon]
    exact hd.extruded_le_visit action
  · rw [hon]

/-- No events shorten the extruded length. -/
theorem Steps.extruded_le {f g : Fleet ℝ} {c : Cursor ℝ} {t : List (Event ℝ)}
    (h : Steps f t g) (hc : f.cursor? i = some c) (hstarts : StartsNotNegative i t)
    (hd : c.device.NotNegative) :
    c.device.state.extruded ≤ (follow i c t).device.state.extruded := by
  induction h generalizing c with
  | refl f => exact le_rfl
  | head first rest ih =>
    have hzero := Settings.notNegative_standard_real .acceleration
    have hnext := first.notNegative hzero hc hstarts hd
    exact (first.extruded_le hc hd).trans (ih (first.cursor? hc) hstarts.tail hnext)

/-! ### Runs -/

/-- Requests that start a cursor without a negative number in its settings. -/
def AsksNotNegative (i : Nat) (ops : List (Operation α)) : Prop :=
  ∀ pose settings, .start i pose settings ∈ ops → settings.NotNegative

theorem AsksNotNegative.starts {ops : List (Operation α)} (h : AsksNotNegative i ops) :
    StartsNotNegative i (f.runTrace ops) := by
  intro device hdevice
  obtain ⟨pose, hmem⟩ := exists_start_of_runTrace hdevice
  exact h pose _ hmem

/-- A cursor holds no negative number at any moment of a run, in the middle of a request no
more than after it. -/
theorem notNegative_follow (hstandard : (Settings.standard : Settings α).NotNegative)
    {built ops : List (Operation α)} (hasks : AsksNotNegative i (built ++ ops))
    (hc : (empty.run built).cursor? i = some c) {before after : List (Event α)}
    (hsplit : (empty.run built).runTrace ops = before ++ after) :
    (follow i c before).device.NotNegative := by
  have hbuilt : AsksNotNegative i built := fun pose settings hmem =>
    hasks pose settings (List.mem_append_left _ hmem)
  have hops : AsksNotNegative i ops := fun pose settings hmem =>
    hasks pose settings (List.mem_append_right _ hmem)
  have hstart := (run_steps empty built).notNegative hstandard hbuilt.starts fun _ hnone => by
    cases hnone
  have hsteps := run_steps (empty.run built) ops
  have hstarts : StartsNotNegative i ((empty.run built).runTrace ops) := hops.starts
  rw [hsplit] at hsteps hstarts
  -- a moment within the run is the end of the events before it
  obtain ⟨g, hbefore, -⟩ := hsteps.split
  have hearlier : StartsNotNegative i before := fun device hdevice =>
    hstarts device (List.mem_append_left _ hdevice)
  exact hbefore.notNegative hstandard hearlier hstart _ (hbefore.cursor? hc)

/-- **Settings never go negative, and extruded material is never taken back.** For every
cursor that is started, as often as one likes, at settings in which no number is below zero,
at every moment of every run:

* no number is below zero in the settings in force, in those put aside and in those of
  before the last return, and no temperature asked of a heated part is;
* read over exact numbers, the length extruded is at no later moment shorter. -/
theorem notNegative_along_run (i : Nat) :
    (∀ (built ops : List (Operation Float)) (c : Cursor Float),
      AsksNotNegative i (built ++ ops) → (empty.run built).cursor? i = some c →
      ((empty.run built).run ops).cursor? i =
        some (follow i c ((empty.run built).runTrace ops)) ∧
      ∀ before after, (empty.run built).runTrace ops = before ++ after →
        (follow i c before).device.NotNegative) ∧
    (∀ (built ops : List (Operation ℝ)) (c : Cursor ℝ),
      AsksNotNegative i (built ++ ops) → (empty.run built).cursor? i = some c →
      ((empty.run built).run ops).cursor? i =
        some (follow i c ((empty.run built).runTrace ops)) ∧
      ∀ before between after, (empty.run built).runTrace ops = before ++ between ++ after →
        (follow i c before).device.NotNegative ∧
        (follow i c before).device.state.extruded ≤
          (follow i c (before ++ between)).device.state.extruded) := by
  refine ⟨fun built ops c hasks hc => ⟨(run_steps _ ops).cursor? hc, ?_⟩,
    fun built ops c hasks hc => ⟨(run_steps _ ops).cursor? hc, ?_⟩⟩
  · intro before after hsplit
    exact notNegative_follow Settings.notNegative_standard hasks hc hsplit
  · intro before between after hsplit
    have hnow := notNegative_follow Settings.notNegative_standard_real hasks hc
      (hsplit.trans (List.append_assoc ..))
    have hops : AsksNotNegative i ops := fun pose settings hmem =>
      hasks pose settings (List.mem_append_right _ hmem)
    have hstarts : StartsNotNegative i ((empty.run built).runTrace ops) := hops.starts
    have hsteps := run_steps (empty.run built) ops
    rw [hsplit] at hsteps hstarts
    obtain ⟨g, hmoments, -⟩ := hsteps.split
    -- the later moment is reached from the earlier one by the events between them
    obtain ⟨h, hbefore, hbetween⟩ := hmoments.split
    refine ⟨hnow, ?_⟩
    rw [follow_append]
    refine hbetween.extruded_le (hbefore.cursor? hc) (fun device hdevice => ?_) hnow
    exact hstarts device (List.mem_append_left _ (List.mem_append_right _ hdevice))

/-- A cursor that carries out at once. -/
def alone : List (Operation α) := [.add "arm" true none []]

/-- Requests for less than nothing, within brackets and outside of them. There is nothing
to be taken back in the end. -/
def belowZero : List (Operation α) :=
  [.start 0 .origin .standard,
    .issue 0 ⟨1, .setting .extrusionRate (Scalar.ofNat 2) false⟩,
    .issue 0 ⟨2, .extrusion true⟩,
    .issue 0 ⟨3, .translation ⟨Scalar.ofNat 3, Scalar.ofNat 4, Scalar.zero⟩ true⟩,
    .issue 0 ⟨4, .pushSettings⟩,
    .issue 0 ⟨5, .setting .speed (-Scalar.ofNat 500) true⟩,
    .issue 0 ⟨6, .pushSettings⟩,
    .issue 0 ⟨7, .setting .extrusionRate (-Scalar.ofNat 3) false⟩,
    .issue 0 ⟨8, .temperature .bed (-Scalar.ofNat 10) false false⟩,
    .issue 0 ⟨9, .translation ⟨Scalar.ofNat 5, Scalar.zero, Scalar.zero⟩ true⟩,
    .issue 0 ⟨10, .popSettings⟩, .issue 0 ⟨11, .popSettings⟩, .issue 0 ⟨12, .popSettings⟩]

theorem asksNotNegative_belowZero
    (hstandard : (Settings.standard : Settings α).NotNegative) :
    AsksNotNegative 0 (alone ++ belowZero : List (Operation α)) := by
  intro pose settings hmem
  simp only [alone, belowZero, List.mem_append, List.mem_cons, List.not_mem_nil, reduceCtorEq,
    Operation.start.injEq, true_and, or_false, false_or] at hmem
  rw [hmem.2]
  exact hstandard

/-- In the end the speed of before the brackets is back. The requests for less than nothing
left zeros, and only the first way was extruded. -/
theorem notNegative_along_run_belowZero :
    (∃ c : Cursor Float, ((empty.run alone).run belowZero).cursor? 0 = some c ∧
      c.device.NotNegative ∧ c.device.state.settings.speed = 20 ∧
      c.device.stack.beforePop.map (·.speed) = some 0 ∧
      c.device.state.temperatures.bed = some 0 ∧ c.device.state.extruded = 10) ∧
    ∃ c : Cursor ℝ, ((empty.run alone).run belowZero).cursor? 0 = some c ∧
      c.device.NotNegative ∧ 0 ≤ c.device.state.extruded := by
  have hend : (((empty.run alone).run belowZero).cursor? 0).map (fun c : Cursor Float =>
      (c.device.state.settings.speed, c.device.stack.beforePop.map (·.speed),
        c.device.state.temperatures.bed, c.device.state.extruded)) =
      some (20, some 0, some 0, 10) := by decide +kernel
  refine ⟨?_, ?_⟩
  · obtain ⟨hcursor, hmoments⟩ := (notNegative_along_run 0).1 alone belowZero _
      (asksNotNegative_belowZero Settings.notNegative_standard) rfl
    have hnow := hmoments _ [] (List.append_nil _).symm
    rw [hcursor] at hend
    obtain ⟨hspeed, hbefore, hbed, hextruded⟩ : _ ∧ _ ∧ _ ∧ _ := by
      simpa only [Option.map_some, Option.some.injEq, Prod.mk.injEq] using hend
    exact ⟨_, hcursor, hnow, hspeed, hbefore, hbed, hextruded⟩
  · obtain ⟨hcursor, hmoments⟩ := (notNegative_along_run 0).2 alone belowZero _
      (asksNotNegative_belowZero Settings.notNegative_standard_real) rfl
    set trace : List (Event ℝ) := (empty.run alone).runTrace belowZero
    have hlater := (hmoments [] trace [] (List.append_nil _).symm).2
    have hnow := (hmoments trace [] [] (by rw [List.append_nil, List.append_nil])).1
    refine ⟨_, hcursor, hnow, ?_⟩
    exact Scalar.zero_real.ge.trans hlater

end RobotMotion.Fleet
