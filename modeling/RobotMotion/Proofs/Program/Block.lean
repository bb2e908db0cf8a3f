import RobotMotion.Proofs.Cursor.Rehearsal
import RobotMotion.Proofs.Fleet.Buffering
import RobotMotion.Proofs.Program.Names
import RobotMotion.Proofs.Program.Steps.Krl
import RobotMotion.Proofs.Program.Steps.UrScript
import Mathlib.Data.List.Forall2
import Mathlib.Data.List.Infix

/-!
# The program of the block

The visits of the block are the first of all visits. Every section of a program is only
ever added to at its end: a step keeps the names that were given, the declarations and the
code that were written (`Draft.Extends` and `Sheet.Extends`). So each part of the program of
the block is the beginning of the same part of the whole program (`Dialect.parts_begin`).

The program of the block depends on nothing but the device and the block. While a cursor
only keeps what is issued these do not change, so its program stays the same
(`Reachable.block_program`).
-/

namespace RobotMotion

open Program (Part Look Entry Sheet Targeting)

/-! ### Parts -/

namespace Program

variable {σ δ τ : Type}

namespace Part

/-- A part is the beginning of another: it looks the same, and its entries come first. -/
structure Begins (part whole : Part) : Prop where
  look : part.look = whole.look
  entries : part.entries <+: whole.entries

/-- Every part is its own beginning. -/
theorem Begins.refl (part : Part) : part.Begins part := ⟨rfl, List.prefix_rfl⟩

/-- **The lines of a beginning come first.** -/
theorem Begins.lines {part whole : Part} (h : part.Begins whole) : part.lines <+: whole.lines := by
  obtain ⟨hlook, hentries⟩ := h
  rw [Part.lines, Part.lines, hlook]
  exact hentries.flatMap _

/-- Fewer entries make the beginning of a section. -/
theorem begins_of (look : Look) (render : σ → String) {entries more : List (Entry σ)}
    (h : entries <+: more) : (of look render entries).Begins (of look render more) :=
  ⟨rfl, h.map _⟩

/-- Fewer fixed lines do as well. -/
theorem begins_fixed (look : Look) {lines more : List String} (h : lines <+: more) :
    (fixed look lines).Begins (fixed look more) :=
  ⟨rfl, h.map _⟩

/-- Where there are declarations, there are in what they begin. -/
theorem begins_gap (look : Look) {lines more : List String} (h : lines <+: more) :
    (fixed look (if lines.isEmpty then [] else [""])).Begins
      (fixed look (if more.isEmpty then [] else [""])) := by
  refine begins_fixed look ?_
  -- without declarations there is no empty line yet, and with them there stays one
  cases lines with
  | nil => exact List.nil_prefix
  | cons line rest =>
    obtain ⟨others, rfl⟩ := h
    exact List.prefix_rfl

end Part

/-! ### Sections that are only added to -/

/-- **Where each step adds to what is there, more steps add to it.** What `R` calls adding
must allow for no steps and for several. -/
theorem extends_foldl {ε ν : Type} {R : ε → ε → Prop} {step : ε → ν → ε}
    (hrefl : ∀ draft, R draft draft) (htrans : ∀ {a b c}, R a b → R b c → R a c)
    (hstep : ∀ draft v, R draft (step draft v)) (draft : ε) (first more : List ν) :
    R (first.foldl step draft) ((first ++ more).foldl step draft) := by
  rw [List.foldl_append]
  exact foldl_invariant (R (first.foldl step draft)) (fun _ => True)
    (fun after h v _ => htrans h (hstep after v)) (hrefl _) fun _ _ => trivial

/-- A sheet that was only added to. -/
structure Sheet.Extends (before after : Sheet σ δ) : Prop where
  declarations : before.declarations <+: after.declarations
  body : before.body <+: after.body

/-- To add nothing is to add. -/
theorem Sheet.Extends.refl (sheet : Sheet σ δ) : sheet.Extends sheet :=
  ⟨List.prefix_rfl, List.prefix_rfl⟩

/-- To add twice is to add. -/
theorem Sheet.Extends.trans {a b c : Sheet σ δ} (h : a.Extends b) (k : b.Extends c) :
    a.Extends c :=
  ⟨h.declarations.trans k.declarations, h.body.trans k.body⟩

/-- **What may be written for a visit adds to a sheet.** -/
theorem Targeting.Effect.extends {T : Targeting σ δ τ} {v : Visit Float}
    {effect : Bool → Sheet σ δ → Sheet σ δ} (h : T.Effect v effect) (inlineTargets : Bool)
    (sheet : Sheet σ δ) : sheet.Extends (effect inlineTargets sheet) := by
  cases h with
  | nothing => exact .refl sheet
  | entry e => exact ⟨List.prefix_rfl, List.prefix_append ..⟩
  | declaration e => exact ⟨List.prefix_append .., List.prefix_rfl⟩
  | move statement target declaration =>
    cases inlineTargets with
    | true => exact ⟨List.prefix_rfl, List.prefix_append ..⟩
    | false => exact ⟨List.prefix_append .., List.prefix_append ..⟩

/-- A step whose effect is on a sheet adds to it. -/
theorem Targeting.Writes.extends {D ρ : Type} {T : Targeting σ δ τ} {sheet : D → Sheet σ δ}
    {rest : D → ρ} {v : Visit Float} {write : Bool → D → D} {draft : D}
    (h : T.Writes sheet rest (rest draft) v write) (inlineTargets : Bool) :
    (sheet draft).Extends (sheet (write inlineTargets draft)) := by
  obtain ⟨effect, _, heffect, hsheet⟩ := h
  rw [(hsheet inlineTargets draft rfl).1]
  exact heffect.extends inlineTargets (sheet draft)

end Program

/-! ### RAPID -/

namespace Rapid

/-- A module that was only added to. -/
structure Draft.Extends (before after : Draft) : Prop where
  speeds : before.speeds.entries <+: after.speeds.entries
  zones : before.zones.entries <+: after.zones.entries
  tools : before.tools <+: after.tools
  targets : before.targets <+: after.targets
  customDeclarations : before.customDeclarations <+: after.customDeclarations
  body : before.body <+: after.body

/-- To add nothing to a module is to add. -/
theorem Draft.Extends.refl (draft : Draft) : draft.Extends draft :=
  ⟨List.prefix_rfl, List.prefix_rfl, List.prefix_rfl, List.prefix_rfl, List.prefix_rfl,
    List.prefix_rfl⟩

/-- To add twice is to add. -/
theorem Draft.Extends.trans {a b c : Draft} (h : a.Extends b) (k : b.Extends c) : a.Extends c where
  speeds := h.speeds.trans k.speeds
  zones := h.zones.trans k.zones
  tools := h.tools.trans k.tools
  targets := h.targets.trans k.targets
  customDeclarations := h.customDeclarations.trans k.customDeclarations
  body := h.body.trans k.body

/-- **A step keeps all names, declarations and code.** -/
theorem Draft.step_extends (d : Decimals) (inlineTargets : Bool) (draft : Draft)
    (v : Visit Float) : draft.Extends (step d inlineTargets draft v) := by
  have hwrites : Writes d inlineTargets draft v (step d inlineTargets draft v) :=
    step_writes draft d inlineTargets v
  have hsame {ρ : Type} (xs : List ρ) : xs <+: xs := List.prefix_rfl
  have hmore {ρ : Type} (xs ys : List ρ) : xs <+: xs ++ ys := List.prefix_append xs ys
  -- what a step writes is one of five things, and each is put at the end
  generalize step d inlineTargets draft v = after at hwrites
  cases hwrites with
  | nothing => exact .refl draft
  | entry e => exact ⟨hsame _, hsame _, hsame _, hsame _, hsame _, hmore _ _⟩
  | tool t => exact ⟨hsame _, hsame _, hmore _ _, hsame _, hsame _, hsame _⟩
  | custom text => exact ⟨hsame _, hsame _, hsame _, hsame _, hmore _ _, hsame _⟩
  | motion kind target? =>
    cases target? with
    | none => exact ⟨hsame _, hsame _, hsame _, hsame _, hsame _, hmore _ _⟩
    | some target =>
      have hspeeds := draft.speeds.nameFor_prefix "vel" (speedData d v.state.settings.speed)
      have hzones := zoneFor_prefix d draft.zones v.state.settings.precision
      simp only [motion, speedName, zoneName_eq]
      -- the target is declared only where it is not written in place
      cases inlineTargets with
      | true => exact ⟨hspeeds, hzones, hsame _, hsame _, hsame _, hmore _ _⟩
      | false => exact ⟨hspeeds, hzones, hsame _, hmore _ _, hsame _, hmore _ _⟩

/-- Modules of more visits extend those of the first. -/
theorem draft_extends (d : Decimals) (inlineTargets : Bool) (first more : List (Visit Float)) :
    (draft d inlineTargets first).Extends (draft d inlineTargets (first ++ more)) :=
  Program.extends_foldl .refl .trans (Draft.step_extends d inlineTargets) .empty first more

/-- The parts of a module begin those of a module that extends it. -/
theorem parts_begin (time name : String) {block full : ProgramOptions}
    (hcomments : block.comments = full.comments) {draft more : Draft} (h : draft.Extends more) :
    List.Forall₂ Part.Begins (parts time name block draft) (parts time name full more) := by
  simp only [parts, hcomments, List.forall₂_cons, List.Forall₂.nil, and_true]
  refine ⟨.refl _, .refl _, ?_, ?_, ?_, ?_, ?_, .refl _, ?_, .refl _⟩
  · exact Part.begins_fixed _ (h.speeds.map _)
  · exact Part.begins_fixed _ (h.zones.map _)
  · exact Part.begins_fixed _ (h.tools.map _)
  · exact Part.begins_of _ _ h.targets
  · exact Part.begins_fixed _ (h.customDeclarations.map _)
  · exact Part.begins_of _ _ h.body

end Rapid

/-! ### KRL -/

namespace Krl

/-- **A step keeps all declarations and code.** -/
theorem Draft.step_extends (d : Decimals) (inlineTargets : Bool) (draft : Draft)
    (v : Visit Float) : draft.sheet.Extends (step d inlineTargets draft v).sheet :=
  (step_sheetWrites d v).extends inlineTargets

/-- KRL programs of more visits extend those of the first. -/
theorem draft_extends (d : Decimals) (inlineTargets : Bool) (settings : Settings Float)
    (first more : List (Visit Float)) :
    (draft d inlineTargets settings first).sheet.Extends
      (draft d inlineTargets settings (first ++ more)).sheet :=
  Program.extends_foldl (R := fun a b : Draft => a.sheet.Extends b.sheet) (fun _ => .refl _)
    .trans (Draft.step_extends d inlineTargets) _ first more

/-- The parts of a KRL program begin those of a program that extends it. -/
theorem parts_begin (time name : String) {block full : ProgramOptions}
    (hcomments : block.comments = full.comments) {draft more : Draft}
    (h : draft.sheet.Extends more.sheet) :
    List.Forall₂ Part.Begins (parts time name block draft) (parts time name full more) := by
  have hdeclarations (look : Look) :=
    Part.begins_of look Declaration.text h.declarations
  simp only [parts, hcomments, List.forall₂_cons, List.Forall₂.nil, and_true]
  refine ⟨.refl _, .refl _, .refl _, hdeclarations _, ?_, .refl _, ?_, .refl _⟩
  · exact Part.begins_gap _ (hdeclarations _).lines
  · exact Part.begins_of _ _ h.body

end Krl

/-! ### URScript -/

namespace UrScript

/-- **A step keeps all declarations and code.** -/
theorem Draft.step_extends (d : Decimals) (inlineTargets : Bool) (draft : Draft)
    (v : Visit Float) : draft.sheet.Extends (step d inlineTargets draft v).sheet :=
  (step_sheetWrites d v).extends inlineTargets

/-- URScript programs of more visits extend those of the first. -/
theorem draft_extends (d : Decimals) (inlineTargets : Bool) (first more : List (Visit Float)) :
    (draft d inlineTargets first).sheet.Extends (draft d inlineTargets (first ++ more)).sheet :=
  Program.extends_foldl (R := fun a b : Draft => a.sheet.Extends b.sheet) (fun _ => .refl _)
    .trans (Draft.step_extends d inlineTargets) _ first more

/-- The parts of a URScript program begin those of a program that extends it. -/
theorem parts_begin (time name : String) {block full : ProgramOptions}
    (hcomments : block.comments = full.comments) {draft more : Draft}
    (h : draft.sheet.Extends more.sheet) :
    List.Forall₂ Part.Begins (parts time name block draft) (parts time name full more) := by
  have hdeclarations (look : Look) :=
    Part.begins_of look Declaration.text h.declarations
  simp only [parts, hcomments, List.forall₂_cons, List.Forall₂.nil, and_true]
  refine ⟨.refl _, .refl _, hdeclarations _, ?_, ?_, .refl _⟩
  · exact Part.begins_gap _ (hdeclarations _).lines
  · exact Part.begins_of _ _ h.body

end UrScript

/-! ### G-code -/

namespace GCode

/-- The parts of a program that are added to. -/
def Draft.sheet (draft : Draft) : Sheet Statement Statement := ⟨draft.preamble, draft.body, 0⟩

/-- **A step keeps preamble and code.** -/
theorem Draft.step_extends (d : Decimals) (draft : Draft) (v : Visit Float) :
    draft.sheet.Extends (step d draft v).sheet :=
  ⟨List.prefix_append .., List.prefix_append ..⟩

/-- G-code programs of more visits extend those of the first. -/
theorem draft_extends (d : Decimals) (origin : Float) (first more : List (Visit Float)) :
    (draft d origin first).sheet.Extends (draft d origin (first ++ more)).sheet :=
  Program.extends_foldl (R := fun a b : Draft => a.sheet.Extends b.sheet) (fun _ => .refl _)
    .trans (Draft.step_extends d) _ first more

/-- The parts of a G-code program begin those of a program that extends it. -/
theorem parts_begin (time name : String) {block full : ProgramOptions}
    (hcomments : block.comments = full.comments) {draft more : Draft}
    (h : draft.sheet.Extends more.sheet) :
    List.Forall₂ Part.Begins (parts time name block draft) (parts time name full more) := by
  simp only [parts, hcomments, List.forall₂_cons, List.Forall₂.nil, and_true]
  refine ⟨.refl _, .refl _, ?_, .refl _, ?_⟩
  · exact Part.begins_of _ _ h.declarations
  · exact Part.begins_of _ _ h.body

end GCode

/-! ### Lists of calls -/

/-- The parts of a list of calls begin those of a longer list. -/
theorem CallList.parts_begin (time name : String) {block full : ProgramOptions}
    (hcomments : block.comments = full.comments) {body more : List (Entry Call)}
    (h : body <+: more) :
    List.Forall₂ Part.Begins (parts time name block body) (parts time name full more) := by
  simp only [parts, hcomments, List.forall₂_cons, List.Forall₂.nil, and_true]
  exact ⟨.refl _, .refl _, Part.begins_of _ _ h⟩

/-! ### All dialects -/

namespace Dialect

/-- The program of the first visits begins each part of the program of all of them. -/
theorem parts_begin (dialect : Dialect) (d : Decimals) (time name : String)
    {block full : ProgramOptions} (htargets : block.inlineTargets = full.inlineTargets)
    (hcomments : block.comments = full.comments) {c : Cursor Float}
    (h : c.visits block.blockOnly <+: c.visits full.blockOnly) :
    List.Forall₂ Part.Begins (dialect.parts d time name block c)
      (dialect.parts d time name full c) := by
  obtain ⟨more, hmore⟩ := h
  simp only [parts, htargets, ← hmore]
  cases dialect with
  | rapid => exact Rapid.parts_begin _ _ hcomments (Rapid.draft_extends ..)
  | krl => exact Krl.parts_begin _ _ hcomments (Krl.draft_extends ..)
  | urscript => exact UrScript.parts_begin _ _ hcomments (UrScript.draft_extends ..)
  | gcode => exact GCode.parts_begin _ _ hcomments (GCode.draft_extends ..)
  | calls =>
    exact CallList.parts_begin _ _ hcomments ((List.prefix_append _ more).map CallList.entry)

/-- A program depends on nothing but the device and the visits. -/
theorem program_congr (dialect : Dialect) (d : Decimals) (time name : String)
    {options : ProgramOptions} {c c' : Cursor Float} (hdevice : c'.device = c.device)
    (hvisits : c'.visits options.blockOnly = c.visits options.blockOnly) :
    dialect.program d time name options c' = dialect.program d time name options c := by
  cases dialect with
  | rapid => rw [program, program, Rapid.program, Rapid.program, hvisits]
  | krl => rw [program, program, Krl.program, Krl.program, hvisits, hdevice]
  | urscript => rw [program, program, UrScript.program, UrScript.program, hvisits]
  | gcode => rw [program, program, GCode.program, GCode.program, hvisits, hdevice]
  | calls => rw [program, program, CallList.program, CallList.program, hvisits]

end Dialect

/-! ### Cursors in use -/

namespace Fleet

/-- **The program of the block is the beginning of the whole program**, part by part: every
part of it is a prefix of the same part of the whole program, and a program consists of its
parts. So a block once made gives the same program, whatever is issued to a cursor that is
not immediate and whatever is asked of other cursors, as long as nothing is released there. -/
theorem Reachable.block_program {f : Fleet Float} (hf : f.Reachable) {i : Nat}
    {c : Cursor Float} (hc : f.cursor? i = some c) (dialect : Dialect) (d : Decimals)
    (time name : String) (options : ProgramOptions) :
    let block : ProgramOptions := { options with blockOnly := true }
    let full : ProgramOptions := { options with blockOnly := false }
    (dialect.program d time name block c).lines =
        (dialect.parts d time name block c).flatMap Part.lines ∧
      (dialect.program d time name full c).lines =
        (dialect.parts d time name full c).flatMap Part.lines ∧
      List.Forall₂ (fun part whole => part.lines <+: whole.lines)
        (dialect.parts d time name block c) (dialect.parts d time name full c) ∧
      (c.immediate = false → ∀ ops : List (Operation Float),
        (∀ op ∈ ops, op.KeepsWaiting i) → ∃ after, (f.run ops).cursor? i = some after ∧
          dialect.program d time name block after = dialect.program d time name block c) := by
  intro block full
  refine ⟨dialect.lines_program d time name block c, dialect.lines_program d time name full c,
    ?_, ?_⟩
  -- the block is the oldest of what waits, so its visits come first
  · have hfirst : c.visits true <+: c.visits false := by
      rw [Cursor.visits_block (hf.increasing hc)]
      exact List.take_prefix ..
    have htargets : block.inlineTargets = full.inlineTargets := rfl
    have hcomments : block.comments = full.comments := rfl
    have hbegins := dialect.parts_begin d time name htargets hcomments hfirst
    exact hbegins.imp fun _ _ h => h.lines
  · intro hbuffers ops hops
    -- as long as nothing is released the device and the block stay what they are
    obtain ⟨after, hafter, hdevice, hblock⟩ :=
      hf.exists_cursor_of_keepsWaiting hc hbuffers hops
    refine ⟨after, hafter, dialect.program_congr d time name hdevice ?_⟩
    rw [Cursor.visits_eq ((hf.run ops).increasing hafter), Cursor.visits_eq (hf.increasing hc),
      hdevice]
    exact congrArg c.device.visits hblock

/-- Requests that freeze a motion after which more waits, and let another cursor pass its
actions on. -/
def frozenFirst : List (Operation Float) :=
  [.add "arm" false none [], .start 0 .origin .standard, .add "hand" true (some 0) [],
    .start 1 .origin .standard, .issue 0 ⟨1, .setting .speed 50 false⟩,
    .issue 0 ⟨2, .translation ⟨10, 0, 0⟩ true⟩, .onQueue 0 .freeze]

/-- Requests that issue more, to the cursor itself and to the one that passes actions on. -/
def issuedLater : List (Operation Float) :=
  [.issue 0 ⟨3, .setting .speed 200 false⟩, .issue 0 ⟨4, .customCode "VAR num n;" true⟩,
    .issue 1 ⟨5, .translation ⟨0, 10, 0⟩ true⟩, .onQueue 0 (.all true)]

/-- Three more actions wait, but the module of the block is the same. -/
theorem block_program_frozenFirst :
    ∃ c after, (empty.run frozenFirst).cursor? 0 = some c ∧
      ((empty.run frozenFirst).run issuedLater).cursor? 0 = some after ∧
      c.queue.pending.map (·.id) = [1, 2] ∧ after.queue.pending.map (·.id) = [1, 2, 3, 4, 5] ∧
      Dialect.rapid.program .standard "" "job" ⟨true, false, .none⟩ after =
        Dialect.rapid.program .standard "" "job" ⟨true, false, .none⟩ c := by
  have hcomputed : ((empty.run frozenFirst).cursor? 0).map (fun c =>
      (c.immediate, c.queue.pending.map (·.id))) = some (false, [1, 2]) := by
    decide +kernel
  have hlater : (((empty.run frozenFirst).run issuedLater).cursor? 0).map
      (fun c => c.queue.pending.map (·.id)) = some [1, 2, 3, 4, 5] := by
    decide +kernel
  obtain ⟨c, hc, hread⟩ := Option.map_eq_some_iff.mp hcomputed
  obtain ⟨hbuffers, hwaiting⟩ := Prod.mk.inj hread
  have hkeeps : ∀ op ∈ issuedLater, op.KeepsWaiting 0 := by
    simp only [issuedLater, List.forall_mem_cons, Operation.KeepsWaiting, true_and]
    exact ⟨fun _ => rfl, List.forall_mem_nil _⟩
  have hreachable : (empty.run frozenFirst).Reachable := ⟨frozenFirst, rfl⟩
  obtain ⟨-, -, -, hsame⟩ :=
    hreachable.block_program hc .rapid .standard "" "job" ⟨false, false, .none⟩
  obtain ⟨after, hafter, hprogram⟩ := hsame hbuffers issuedLater hkeeps
  rw [hafter] at hlater
  exact ⟨c, after, hc, hafter, hwaiting, Option.some.inj hlater, hprogram⟩

end Fleet

end RobotMotion
