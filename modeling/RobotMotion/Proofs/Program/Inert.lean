import RobotMotion.Proofs.Cursor.Inert
import RobotMotion.Proofs.Fleet.Run
import RobotMotion.Proofs.Program.Module
import RobotMotion.Proofs.Program.Steps.GCode
import RobotMotion.Proofs.Program.Steps.Krl
import RobotMotion.Proofs.Program.Steps.UrScript
import Mathlib.Data.List.Flatten

/-!
# Inert actions in a program

A program writes entries for inert actions, and nothing else in it depends on them.
`Dialect.remainingParts` are the parts of a program with the entries of the inert
actions taken out. They are the parts of the program that the other actions would give
alone (`Dialect.parts_withoutInert`): the same motions with the same extrusion values,
under the same names of speeds, zones and targets, with the same declarations and
diagnostics.

The argument is the same for every dialect. A step of a draft for an inert action adds
nothing but what is taken out, any other step commutes with taking out, and visits that
are alike are written alike (`Program.foldl_remaining`). Where a draft is nothing but a
sheet, the first two hold of whatever a dialect may write for a visit
(`Targeting.Writes.remaining_of_isInert`, `Targeting.Writes.remaining`).
-/

namespace RobotMotion

open Program (Part)

/-- Inert actions are no motions. -/
theorem Command.isMotion_of_isInert {command : Command Float} (h : command.isInert = true) :
    command.isMotion = false := by
  cases command <;> first | rfl | cases h

namespace Program

variable {σ : Type}

/-- Whether an entry is the code of an inert action, or a diagnostic about one. -/
def Entry.isInert : Entry σ → Bool
  | .code action _ | .diagnostic action _ => action.isInert
  | .plain _ | .blank => false

/-- An entry about a visit is inert where the action of the visit is. -/
theorem Entry.About.isInert {v : Visit Float} {e : Entry σ} (h : e.About v) :
    e.isInert = v.action.isInert := by
  cases h <;> rfl

/-- Entries without those of inert actions. -/
def remaining (entries : List (Entry σ)) : List (Entry σ) := entries.filter (!·.isInert)

@[simp] theorem remaining_nil : remaining ([] : List (Entry σ)) = [] := rfl

/-- Taking out goes through a list piece by piece. -/
@[simp] theorem remaining_append (entries more : List (Entry σ)) :
    remaining (entries ++ more) = remaining entries ++ remaining more :=
  List.filter_append ..

/-- Nothing is taken out of entries of which none is inert. -/
theorem remaining_eq_self {entries : List (Entry σ)} (h : ∀ e ∈ entries, e.isInert = false) :
    remaining entries = entries :=
  List.filter_eq_self.mpr fun e he => by rw [h e he]; rfl

/-- Entries that are all inert leave nothing. -/
theorem remaining_eq_nil {entries : List (Entry σ)} (h : ∀ e ∈ entries, e.isInert = true) :
    remaining entries = [] :=
  List.filter_eq_nil_iff.mpr fun e he => by rw [h e he]; exact Bool.false_ne_true

theorem remaining_concat (entries : List (Entry σ)) {entry : Entry σ}
    (h : entry.isInert = false) :
    remaining (entries ++ [entry]) = remaining entries ++ [entry] := by
  rw [remaining_append, remaining_eq_self (List.forall_mem_singleton.mpr h)]

/-- An inert entry at the end makes no difference. -/
theorem remaining_concat_of_isInert (entries : List (Entry σ)) {entry : Entry σ}
    (h : entry.isInert = true) : remaining (entries ++ [entry]) = remaining entries := by
  rw [remaining_append, remaining_eq_nil (List.forall_mem_singleton.mpr h), List.append_nil]

/-- Plain statements belong to no action and stay. -/
@[simp] theorem remaining_plain (statements : List σ) :
    remaining (statements.map Entry.plain) = statements.map Entry.plain :=
  remaining_eq_self fun e he => by
    obtain ⟨s, -, rfl⟩ := List.mem_map.mp he
    rfl

/-- Taking entries out of a section takes lines out of it. -/
theorem lines_remaining_sublist (look : Look) (render : σ → String)
    (entries : List (Entry σ)) :
    (look.lines render (remaining entries)).Sublist (look.lines render entries) :=
  List.Sublist.flatMap List.filter_sublist _

/-- Parts with fewer lines make programs with fewer lines. -/
theorem Part.flatMap_lines_sublist {parts others : List Part}
    (h : List.Forall₂ (fun part other => part.lines.Sublist other.lines) parts others) :
    (parts.flatMap Part.lines).Sublist (others.flatMap Part.lines) := by
  induction h with
  | nil => exact .slnil
  | cons hpart _ ih => exact hpart.append ih

/-- Steps that add nothing for inert visits but what is taken out, and commute with
taking out for the others, give what the other visits give alone. -/
theorem foldl_remaining {δ : Type} {step : δ → Visit Float → δ} {remaining : δ → δ}
    (hinert : ∀ draft v, v.action.isInert = true → remaining (step draft v) = remaining draft)
    (hstep : ∀ draft v, v.action.isInert = false →
      remaining (step draft v) = step (remaining draft) v)
    (halike : ∀ draft v w, v.Alike w → step draft w = step draft v)
    {visits others : List (Visit Float)}
    (h : List.Forall₂ Visit.Alike (Visit.remaining visits) others) (draft : δ) :
    remaining (visits.foldl step draft) = others.foldl step (remaining draft) := by
  -- over the visits; the drafts differ after each step, so the induction is for every draft
  induction visits generalizing others draft with
  | nil =>
    cases h
    rfl
  | cons v rest ih =>
    rw [Visit.remaining] at h
    cases hv : v.action.isInert with
    | true =>
      -- an inert visit is not among the others: only the draft moves on
      rw [List.filter_cons_of_neg (by rw [hv]; exact Bool.false_ne_true)] at h
      rw [List.foldl_cons, ih h, hinert draft v hv]
    | false =>
      -- any other visit has one that is alike at the head of the others
      rw [List.filter_cons_of_pos (by rw [hv]; rfl)] at h
      cases h with
      | cons hw hrest =>
        rw [List.foldl_cons, List.foldl_cons, ih hrest, hstep draft v hv, halike _ v _ hw]

/-! ### Sheets -/

/-- A sheet without the entries of inert actions. -/
def Sheet.remaining {δ : Type} (sheet : Sheet σ δ) : Sheet σ δ :=
  { sheet with
    declarations := Program.remaining sheet.declarations
    body := Program.remaining sheet.body }

/-- Writing an entry that stays commutes with taking out. -/
theorem Sheet.remaining_write {δ : Type} (sheet : Sheet σ δ) {entry : Entry σ}
    (h : entry.isInert = false) : (sheet.write entry).remaining = sheet.remaining.write entry := by
  simp only [remaining, write, Program.remaining_concat _ h]

/-- So does declaring one. -/
theorem Sheet.remaining_declare {δ : Type} (sheet : Sheet σ δ) {entry : Entry δ}
    (h : entry.isInert = false) :
    (sheet.declare entry).remaining = sheet.remaining.declare entry := by
  simp only [remaining, declare, Program.remaining_concat _ h]

namespace Targeting

variable {δ τ D R : Type} {T : Targeting σ δ τ} {v : Visit Float}
  {effect : Bool → Sheet σ δ → Sheet σ δ}
  {sheet : D → Sheet σ δ} {rest : D → R} {known : R} {write : Bool → D → D}

/-- An inert action leads to no target. -/
theorem goal?_of_isInert (h : v.action.isInert = true) : T.goal? v = none := by
  cases hgoal : T.goal? v with
  | none => rfl
  | some target =>
    have hmotion := (isMotion_of_goal (Option.isSome_of_eq_some hgoal)).2
    rw [Command.isMotion_of_isInert h] at hmotion
    cases hmotion

/-- Whatever is written for an inert action is taken out. -/
theorem Effect.remaining_of_isInert (h : T.Effect v effect) (hinert : v.action.isInert = true)
    (inlineTargets : Bool) (s : Sheet σ δ) : (effect inlineTargets s).remaining = s.remaining := by
  obtain ⟨added, declared, hbody, hdeclarations, hadded, hdeclared⟩ := h.share inlineTargets s
  -- all that is added is about the visit, hence inert as its action is
  have hbodyRest : Program.remaining added = [] :=
    remaining_eq_nil fun e he => (about_of_share hadded he).isInert.trans hinert
  have hdeclarationsRest : Program.remaining declared = [] :=
    remaining_eq_nil fun e he => (about_of_share hdeclared he).isInert.trans hinert
  have hmotions : (effect inlineTargets s).motions = s.motions := by
    rw [h.motions_eq, goal?_of_isInert hinert]
    rfl
  simp only [Sheet.remaining, hbody, hdeclarations, hmotions, remaining_append, hbodyRest,
    hdeclarationsRest, List.append_nil]

/-- What is written for another action is written just so when the entries of inert
actions were taken out before. -/
theorem Effect.remaining (h : T.Effect v effect) (hinert : v.action.isInert = false)
    (inlineTargets : Bool) (s : Sheet σ δ) :
    (effect inlineTargets s).remaining = effect inlineTargets s.remaining := by
  cases h with
  | nothing => rfl
  | entry e habout => exact s.remaining_write (habout.isInert.trans hinert)
  | declaration e habout => exact s.remaining_declare (habout.isInert.trans hinert)
  -- a motion numbers its target, and motions are not taken out: the numbers are the same
  | move statement target declaration =>
    have hcode (place : Place τ) :
        (Entry.code v.action [T.withPlace place statement]).isInert = false := hinert
    have hdeclared : (Entry.code v.action [declaration s.motions]).isInert = false := hinert
    cases inlineTargets with
    | true =>
      simp only [Sheet.remaining, Targeting.move, Sheet.write, if_true,
        remaining_concat _ (hcode _)]
    | false =>
      simp only [Sheet.remaining, Targeting.move, Sheet.write, Sheet.declare,
        Bool.false_eq_true, if_false, remaining_concat _ (hcode _), remaining_concat _ hdeclared]

/-- A step for an inert action changes no sheet but for what is taken out. -/
theorem Writes.remaining_of_isInert (h : T.Writes sheet rest known v write)
    (hinert : v.action.isInert = true) (inlineTargets : Bool) (draft : D)
    (hrest : rest draft = known) :
    (sheet (write inlineTargets draft)).remaining = (sheet draft).remaining := by
  obtain ⟨effect, _, heffect, hwrite⟩ := h
  rw [(hwrite inlineTargets draft hrest).1]
  exact heffect.remaining_of_isInert hinert inlineTargets _

/-- Any other step commutes with taking out. -/
theorem Writes.remaining (h : T.Writes sheet rest known v write)
    (hinert : v.action.isInert = false) (inlineTargets : Bool) (draft other : D)
    (hrest : rest draft = known) (hother : rest other = known)
    (hsheet : sheet other = (sheet draft).remaining) :
    (sheet (write inlineTargets draft)).remaining = sheet (write inlineTargets other) := by
  obtain ⟨effect, _, heffect, hwrite⟩ := h
  rw [(hwrite inlineTargets draft hrest).1, (hwrite inlineTargets other hother).1, hsheet]
  exact heffect.remaining hinert inlineTargets _

end Targeting

end Program

/-! ### RAPID -/

namespace Rapid.Draft

/-- A module without what it has from inert actions: all custom declarations are from
such actions. -/
def remaining (draft : Draft) : Draft :=
  { draft with
    targets := Program.remaining draft.targets
    customDeclarations := []
    body := Program.remaining draft.body }

/-- Code that is not from an inert action may be written before or after taking out. -/
theorem remaining_write (draft : Draft) (entry : Program.Entry Statement)
    (h : entry.isInert = false) : (draft.write entry).remaining = draft.remaining.write entry := by
  simp only [remaining, write, Program.remaining_concat _ h]

/-- What is written for an inert action is taken out again. -/
theorem remaining_write_of_isInert (draft : Draft) (entry : Program.Entry Statement)
    (h : entry.isInert = true) : (draft.write entry).remaining = draft.remaining := by
  simp only [remaining, write, Program.remaining_concat_of_isInert _ h]

/-- A zone gets its name from the table of zones, from which nothing is taken out. -/
theorem zoneName_remaining (draft : Draft) (d : Decimals) (radius : Float) :
    draft.remaining.zoneName d radius =
      ((draft.zoneName d radius).1, (draft.zoneName d radius).2.remaining) := by
  rw [zoneName, zoneName]
  split <;> rfl

/-- A target is numbered by the motions so far, whatever is taken out. -/
theorem placeTarget_remaining {action : Action Float} (h : action.isInert = false)
    (draft : Draft) (inlineTargets : Bool) (target : Target) :
    draft.remaining.placeTarget inlineTargets action target =
      ((draft.placeTarget inlineTargets action target).1,
        (draft.placeTarget inlineTargets action target).2.remaining) := by
  cases inlineTargets with
  | true => rfl
  | false =>
    have hdeclared : (Program.Entry.code action
        [(⟨draft.motions, target⟩ : TargetDeclaration)]).isInert = false := h
    simp only [placeTarget, remaining, Bool.false_eq_true, if_false,
      Program.remaining_concat _ hdeclared]

/-- The code of a motion is the same after taking out: its names come from tables that stay. -/
theorem remaining_motion {v : Visit Float} (h : v.action.isInert = false) (draft : Draft)
    (d : Decimals) (inlineTargets : Bool) (kind : MoveKind) (target? : Option Target) :
    (draft.motion d inlineTargets v kind target?).remaining =
      draft.remaining.motion d inlineTargets v kind target? := by
  cases target? with
  | none => exact remaining_write draft _ h
  | some target =>
    have hspeed : draft.remaining.speedName d v.state.settings.speed =
        ((draft.speedName d v.state.settings.speed).1,
          (draft.speedName d v.state.settings.speed).2.remaining) := rfl
    simp only [motion, hspeed, zoneName_remaining, placeTarget_remaining h]
    exact remaining_write _ _ h

/-- A step for an inert action changes a module in nothing that stays. -/
theorem remaining_step_of_isInert (d : Decimals) (inlineTargets : Bool) (draft : Draft)
    {v : Visit Float} (h : v.action.isInert = true) :
    (step d inlineTargets draft v).remaining = draft.remaining := by
  cases ha : v.applied with
  | false =>
    simp only [step, ha, Bool.not_false, if_true]
    exact remaining_write_of_isInert draft _ h
  | true =>
    have hinert : v.action.command.isInert = true := h
    cases hc : v.action.command with
    | wait | message | comment =>
      simp only [step, ha, hc, Bool.not_true, Bool.false_eq_true, if_false]
      exact remaining_write_of_isInert draft _ h
    -- custom code goes to the declarations or to the main procedure, and is taken out of both
    | customCode text isDeclaration =>
      cases isDeclaration with
      | true =>
        simp only [step, ha, hc, Bool.not_true, Bool.false_eq_true, if_false]
        rfl
      | false =>
        simp only [step, ha, hc, Bool.not_true, Bool.false_eq_true, if_false]
        exact remaining_write_of_isInert draft _ h
    | _ =>
      rw [hc] at hinert
      cases hinert

/-- A step for any other action commutes with taking out. -/
theorem remaining_step (d : Decimals) (inlineTargets : Bool) (draft : Draft) {v : Visit Float}
    (h : v.action.isInert = false) :
    (step d inlineTargets draft v).remaining = step d inlineTargets draft.remaining v := by
  -- code and diagnostics of this action both stay
  have hcode (s : Statement) : (draft.write (.code v.action [s])).remaining =
      draft.remaining.write (.code v.action [s]) := remaining_write draft _ h
  have hdiagnostic (what : Program.Diagnostic) :
      (draft.write (.diagnostic v.action what)).remaining =
        draft.remaining.write (.diagnostic v.action what) := remaining_write draft _ h
  cases ha : v.applied with
  | false => simp [step, ha, hdiagnostic]
  | true =>
    have hinert : v.action.command.isInert = false := h
    cases hc : v.action.command with
    | setting which value relative => cases which <;> simp [step, ha, hc, hcode, hdiagnostic]
    | translation | rotation | transformation | axes =>
      simp [step, ha, hc, remaining_motion h]
    | popSettings =>
      cases hb : v.device.stack.beforePop with
      | none => simp [step, ha, hc, hb]
      | some before =>
        cases hne : before.acceleration != v.state.settings.acceleration <;>
          simp [step, ha, hc, hb, hne, hcode]
    | defineTool tool =>
      simp only [step, ha, hc]
      rfl
    | writeDigital pin on toolPin =>
      cases hp : isIdentifier pin <;> simp [step, ha, hc, hp, hcode, hdiagnostic]
    | writeAnalog pin value toolPin =>
      cases hp : isIdentifier pin <;> simp [step, ha, hc, hp, hcode, hdiagnostic]
    | wait | message | comment | customCode =>
      rw [hc] at hinert
      cases hinert
    | _ => simp [step, ha, hc, hdiagnostic]

/-- Modules are written alike for visits that are alike. -/
theorem step_alike (d : Decimals) (inlineTargets : Bool) (draft : Draft) {v w : Visit Float}
    (h : v.Alike w) : step d inlineTargets draft w = step d inlineTargets draft v := by
  cases h <;> rfl

end Rapid.Draft

/-- A module without what inert actions gave it is the module of the other visits. -/
theorem Rapid.remaining_draft (d : Decimals) (inlineTargets : Bool)
    {visits others : List (Visit Float)}
    (h : List.Forall₂ Visit.Alike (Visit.remaining visits) others) :
    (draft d inlineTargets visits).remaining = draft d inlineTargets others :=
  Program.foldl_remaining (fun draft _ => Draft.remaining_step_of_isInert d inlineTargets draft)
    (fun draft _ => Draft.remaining_step d inlineTargets draft)
    (fun draft _ _ => Draft.step_alike d inlineTargets draft) h .empty

/-! ### KRL -/

namespace Krl.Draft

/-- A program without what it has from inert actions. -/
def remaining (draft : Draft) : Draft :=
  { draft with
    declarations := Program.remaining draft.declarations
    body := Program.remaining draft.body }

theorem eq_of_sheet_eq {draft other : Draft} (h : draft.sheet = other.sheet) : draft = other := by
  cases draft
  cases other
  cases h
  rfl

/-- A step for an inert action changes nothing that stays. -/
theorem remaining_step_of_isInert (d : Decimals) (inlineTargets : Bool) (draft : Draft)
    {v : Visit Float} (h : v.action.isInert = true) :
    (step d inlineTargets draft v).remaining = draft.remaining :=
  eq_of_sheet_eq ((step_sheetWrites d v).remaining_of_isInert h inlineTargets draft rfl)

/-- Any other step commutes with taking out. -/
theorem remaining_step (d : Decimals) (inlineTargets : Bool) (draft : Draft) {v : Visit Float}
    (h : v.action.isInert = false) :
    (step d inlineTargets draft v).remaining = step d inlineTargets draft.remaining v :=
  eq_of_sheet_eq
    ((step_sheetWrites d v).remaining h inlineTargets draft draft.remaining rfl rfl rfl)

theorem step_alike (d : Decimals) (inlineTargets : Bool) (draft : Draft) {v w : Visit Float}
    (h : v.Alike w) : step d inlineTargets draft w = step d inlineTargets draft v := by
  cases h <;> rfl

/-- The settings written at the start are nobody's action and stay. -/
theorem remaining_start (d : Decimals) (settings : Settings Float) :
    (start d settings).remaining = start d settings := by
  have hblank : Program.remaining [(.blank : Program.Entry Statement)] = [.blank] := rfl
  simp only [remaining, start, Program.remaining_append, Program.remaining_plain, hblank,
    Program.remaining_nil]

end Krl.Draft

/-- A KRL program without the entries of inert actions is that of the other visits. -/
theorem Krl.remaining_draft (d : Decimals) (inlineTargets : Bool) (settings : Settings Float)
    {visits others : List (Visit Float)}
    (h : List.Forall₂ Visit.Alike (Visit.remaining visits) others) :
    (draft d inlineTargets settings visits).remaining = draft d inlineTargets settings others := by
  rw [draft, draft, Program.foldl_remaining
    (fun draft _ => Draft.remaining_step_of_isInert d inlineTargets draft)
    (fun draft _ => Draft.remaining_step d inlineTargets draft)
    (fun draft _ _ => Draft.step_alike d inlineTargets draft) h, Draft.remaining_start]

/-! ### URScript -/

namespace UrScript.Draft

/-- A program without what it has from inert actions. -/
def remaining (draft : Draft) : Draft :=
  { draft with
    declarations := Program.remaining draft.declarations
    body := Program.remaining draft.body }

theorem eq_of_sheet_eq {draft other : Draft} (h : draft.sheet = other.sheet) : draft = other := by
  cases draft
  cases other
  cases h
  rfl

theorem remaining_step_of_isInert (d : Decimals) (inlineTargets : Bool) (draft : Draft)
    {v : Visit Float} (h : v.action.isInert = true) :
    (step d inlineTargets draft v).remaining = draft.remaining :=
  eq_of_sheet_eq ((step_sheetWrites d v).remaining_of_isInert h inlineTargets draft rfl)

theorem remaining_step (d : Decimals) (inlineTargets : Bool) (draft : Draft) {v : Visit Float}
    (h : v.action.isInert = false) :
    (step d inlineTargets draft v).remaining = step d inlineTargets draft.remaining v :=
  eq_of_sheet_eq
    ((step_sheetWrites d v).remaining h inlineTargets draft draft.remaining rfl rfl rfl)

theorem step_alike (d : Decimals) (inlineTargets : Bool) (draft : Draft) {v w : Visit Float}
    (h : v.Alike w) : step d inlineTargets draft w = step d inlineTargets draft v := by
  cases h <;> rfl

end UrScript.Draft

/-- A URScript program without the entries of inert actions is that of the other visits. -/
theorem UrScript.remaining_draft (d : Decimals) (inlineTargets : Bool)
    {visits others : List (Visit Float)}
    (h : List.Forall₂ Visit.Alike (Visit.remaining visits) others) :
    (draft d inlineTargets visits).remaining = draft d inlineTargets others :=
  Program.foldl_remaining (fun draft _ => Draft.remaining_step_of_isInert d inlineTargets draft)
    (fun draft _ => Draft.remaining_step d inlineTargets draft)
    (fun draft _ _ => Draft.step_alike d inlineTargets draft) h .empty

/-! ### G-code -/

/-- Inert actions extrude nothing. -/
theorem GCode.feed_of_isInert (origin : Float) {v : Visit Float} (h : v.action.isInert = true) :
    feed origin v = (none, origin) := by
  rw [feed]
  cases ha : v.applied with
  | false => rfl
  | true =>
    have hinert : v.action.command.isInert = true := h
    cases hc : v.action.command with
    | wait | message | comment | customCode => rfl
    | _ =>
      rw [hc] at hinert
      cases hinert

/-- A rejected action extrudes nothing. -/
theorem GCode.feed_of_rejected (origin : Float) {v : Visit Float} (h : v.applied = false) :
    feed origin v = (none, origin) := by
  rw [feed, h]
  rfl

/-- How much is extruded depends neither on the reason of a rejection nor on the device then. -/
theorem GCode.feed_alike (origin : Float) {v w : Visit Float} (h : v.Alike w) :
    feed origin w = feed origin v := by
  cases h with
  | same v => rfl
  | rejected action rejection device memory =>
    rw [feed_of_rejected origin rfl, feed_of_rejected origin rfl]

namespace GCode.Draft

/-- A program without what it has from inert actions. -/
def remaining (draft : Draft) : Draft :=
  { draft with
    preamble := Program.remaining draft.preamble
    body := Program.remaining draft.body }

/-- The entries that say what became of an action are about this action. -/
theorem isInert_of_mem_bodyEntries (d : Decimals) (origin : Float) (v : Visit Float) :
    ∀ e ∈ bodyEntries d origin v, e.isInert = v.action.isInert :=
  fun _ he => (Program.about_of_share (share_bodyEntries d origin v) he).isInert

theorem isInert_of_mem_preambleEntries (v : Visit Float) :
    ∀ e ∈ preambleEntries v, e.isInert = v.action.isInert :=
  fun _ he => (Program.about_of_share (share_preambleEntries v) he).isInert

/-- A rejected action gives a diagnostic and nothing else. -/
theorem bodyEntries_of_rejected (d : Decimals) (origin : Float) {v : Visit Float}
    (h : v.applied = false) : bodyEntries d origin v = [.diagnostic v.action .failed] := by
  simp only [bodyEntries, h, Bool.not_false, if_true]

theorem bodyEntries_alike (d : Decimals) (origin : Float) {v w : Visit Float} (h : v.Alike w) :
    bodyEntries d origin w = bodyEntries d origin v := by
  cases h with
  | same v => rfl
  | rejected action rejection device memory =>
    rw [bodyEntries_of_rejected d origin rfl, bodyEntries_of_rejected d origin rfl]

theorem preambleEntries_alike {v w : Visit Float} (h : v.Alike w) :
    preambleEntries w = preambleEntries v := by
  cases h <;> rfl

/-- A step for an inert action changes nothing that stays, the extrusion origin included. -/
theorem remaining_step_of_isInert (d : Decimals) (draft : Draft) {v : Visit Float}
    (h : v.action.isInert = true) : (step d draft v).remaining = draft.remaining := by
  have hpreamble : Program.remaining (preambleEntries v) = [] :=
    Program.remaining_eq_nil fun e he => (isInert_of_mem_preambleEntries v e he).trans h
  have hbody : Program.remaining (bodyEntries d draft.origin v) = [] :=
    Program.remaining_eq_nil fun e he => (isInert_of_mem_bodyEntries d _ v e he).trans h
  simp only [step, remaining, Program.remaining_append, hpreamble, hbody, List.append_nil,
    feed_of_isInert _ h]

/-- Any other step commutes with taking out: it reads of the draft only the origin, which stays. -/
theorem remaining_step (d : Decimals) (draft : Draft) {v : Visit Float}
    (h : v.action.isInert = false) : (step d draft v).remaining = step d draft.remaining v := by
  have hpreamble : Program.remaining (preambleEntries v) = preambleEntries v :=
    Program.remaining_eq_self fun e he => (isInert_of_mem_preambleEntries v e he).trans h
  have hbody : Program.remaining (bodyEntries d draft.origin v) = bodyEntries d draft.origin v :=
    Program.remaining_eq_self fun e he => (isInert_of_mem_bodyEntries d _ v e he).trans h
  simp only [step, remaining, Program.remaining_append, hpreamble, hbody]

theorem step_alike (d : Decimals) (draft : Draft) {v w : Visit Float} (h : v.Alike w) :
    step d draft w = step d draft v := by
  rw [step, step, feed_alike draft.origin h, bodyEntries_alike d draft.origin h,
    preambleEntries_alike h]

end GCode.Draft

/-- A G-code program without the entries of inert actions is that of the other visits. -/
theorem GCode.remaining_draft (d : Decimals) (origin : Float) {visits others : List (Visit Float)}
    (h : List.Forall₂ Visit.Alike (Visit.remaining visits) others) :
    (draft d origin visits).remaining = draft d origin others :=
  Program.foldl_remaining (fun draft _ => Draft.remaining_step_of_isInert d draft)
    (fun draft _ => Draft.remaining_step d draft) (fun draft _ _ => Draft.step_alike d draft) h
    (.start origin)

/-! ### Lists of calls -/

/-- The call of an inert action is inert. -/
theorem CallList.isInert_entry (v : Visit Float) : (entry v).isInert = v.action.isInert := by
  rw [entry]
  split <;> rfl

theorem CallList.entry_alike {v w : Visit Float} (h : v.Alike w) : entry w = entry v := by
  cases h <;> rfl

/-- Visits that are alike give the same calls. -/
theorem CallList.body_alike {visits others : List (Visit Float)}
    (h : List.Forall₂ Visit.Alike visits others) : body others = body visits := by
  induction h with
  | nil => rfl
  | cons hv _ ih =>
    rw [body, body, List.map_cons, List.map_cons, entry_alike hv]
    exact congrArg _ ih

/-- Without the calls of inert actions the calls of the others are left. -/
theorem CallList.remaining_body {visits others : List (Visit Float)}
    (h : List.Forall₂ Visit.Alike (Visit.remaining visits) others) :
    Program.remaining (body visits) = body others := by
  rw [body_alike h, Program.remaining, body, List.filter_map]
  -- calls are one a visit, so taking out calls is taking out visits
  refine congrArg (List.map entry) (congrArg (List.filter · visits) (funext fun v => ?_))
  exact congrArg _ (isInert_entry v)

/-! ### All dialects -/

namespace Dialect

/-- The parts of a program without the entries of inert actions. -/
def remainingParts (dialect : Dialect) (d : Decimals) (time name : String)
    (options : ProgramOptions) (cursor : Cursor Float) : List Part :=
  let name := Program.safeName name
  let visits := cursor.visits options.blockOnly
  match dialect with
  | .rapid => Rapid.parts time name options (Rapid.draft d options.inlineTargets visits).remaining
  | .krl =>
    Krl.parts time name options
      (Krl.draft d options.inlineTargets cursor.device.state.settings visits).remaining
  | .urscript =>
    UrScript.parts time name options (UrScript.draft d options.inlineTargets visits).remaining
  | .gcode =>
    GCode.parts time name options (GCode.draft d cursor.device.state.extruded visits).remaining
  | .calls => CallList.parts time name options (Program.remaining (CallList.body visits))

/-- **What is left of a program without its inert actions is the program of the other
actions.** -/
theorem parts_withoutInert {cursor : Cursor Float}
    (hinc : cursor.queue.pending.Pairwise (·.id < ·.id)) (dialect : Dialect) (d : Decimals)
    (time name : String) (options : ProgramOptions) :
    dialect.parts d time name options cursor.withoutInert =
      dialect.remainingParts d time name options cursor := by
  obtain ⟨hvisits, -⟩ := Cursor.rehearsal_withoutInert hinc options.blockOnly
  cases dialect with
  | rapid => rw [parts, remainingParts, Rapid.remaining_draft d _ hvisits]
  | krl =>
    rw [parts, remainingParts, Krl.remaining_draft d _ _ hvisits]
    rfl
  | urscript => rw [parts, remainingParts, UrScript.remaining_draft d _ hvisits]
  | gcode =>
    rw [parts, remainingParts, GCode.remaining_draft d _ hvisits]
    rfl
  | calls => rw [parts, remainingParts, CallList.remaining_body hvisits]

/-- Taking out the entries of inert actions takes lines out of a program and leaves the
others as they are. -/
theorem lines_remainingParts_sublist (dialect : Dialect) (d : Decimals) (time name : String)
    (options : ProgramOptions) (cursor : Cursor Float) :
    ((dialect.remainingParts d time name options cursor).flatMap Part.lines).Sublist
      (dialect.program d time name options cursor).lines := by
  rw [lines_program]
  apply Part.flatMap_lines_sublist
  -- the declarations are followed by an empty line, which goes when all of them go
  have hseparator {lines more : List String} (h : lines.Sublist more) :
      (if lines = [] then [] else [""]).Sublist (if more = [] then [] else [""]) := by
    by_cases hmore : more = []
    · rw [if_pos hmore, if_pos (List.sublist_nil.mp (hmore ▸ h))]
    · rw [if_neg hmore]
      split <;> simp
  cases dialect with
  | rapid =>
    simp [remainingParts, parts, Rapid.parts, Rapid.Draft.remaining,
      Program.lines_remaining_sublist]
  | krl =>
    simp [remainingParts, parts, Krl.parts, Krl.Draft.remaining,
      Program.lines_remaining_sublist, hseparator]
  | urscript =>
    simp [remainingParts, parts, UrScript.parts, UrScript.Draft.remaining,
      Program.lines_remaining_sublist, hseparator]
  | gcode =>
    simp [remainingParts, parts, GCode.parts, GCode.Draft.remaining,
      Program.lines_remaining_sublist]
  | calls => simp [remainingParts, parts, CallList.parts, Program.lines_remaining_sublist]

end Dialect

/-! ### Cursors in use -/

namespace Fleet

variable {f : Fleet Float} {i : Nat} {c : Cursor Float}

/-- **Inert actions are transparent.** Whoever leaves out the waits, messages, comments
and custom code that wait at a cursor in use gets the same outcome for every other action,
the same device in the end but for its memory, and in every dialect the program without
the entries of the actions left out. -/
theorem Reachable.inert_transparent (hf : f.Reachable) (hc : f.cursor? i = some c)
    (options : ProgramOptions) :
    let outcome (v : Visit Float) := (v.action, v.rejection)
    let remaining := c.withoutInert
    (remaining.visits options.blockOnly).map outcome =
        (Visit.remaining (c.visits options.blockOnly)).map outcome ∧
      (∃ memory, (remaining.rehearsal options.blockOnly).runAll.2.device =
        (c.rehearsal options.blockOnly).runAll.2.device.remembering memory) ∧
      ∀ (dialect : Dialect) (d : Decimals) (time name : String),
        let lines := (dialect.remainingParts d time name options c).flatMap Part.lines
        (dialect.program d time name options remaining).lines = lines ∧
          lines.Sublist (dialect.program d time name options c).lines := by
  intro outcome remaining
  have hinc := hf.increasing hc
  obtain ⟨hvisits, hdevice⟩ := Cursor.rehearsal_withoutInert hinc options.blockOnly
  refine ⟨Visit.outcomes_of_alike hvisits, hdevice, ?_⟩
  intro dialect d time name lines
  refine ⟨?_, dialect.lines_remainingParts_sublist d time name options c⟩
  rw [dialect.lines_program, dialect.parts_withoutInert hinc]

/-- Requests that leave a motion waiting among a comment, a pause, and a rejected action. -/
def talkative : List (Operation Float) :=
  [.add "printer" false none [], .start 0 .origin .standard,
    .issue 0 ⟨1, .extrusion true⟩, .issue 0 ⟨2, .comment "outline"⟩,
    .issue 0 ⟨3, .translation ⟨1, 2, 3⟩ true⟩, .issue 0 ⟨4, .wait 5⟩, .issue 0 ⟨5, .popSettings⟩]

/-- Without the comment and the pause the motion applies as before and the other action
is rejected as before. -/
theorem inert_transparent_talkative :
    ∃ c, (empty.run talkative).cursor? 0 = some c ∧
      ((c.withoutInert.visits false).map fun v => (v.action.id, v.applied)) =
        [(1, true), (3, true), (5, false)] ∧
      (Dialect.gcode.program .standard "" "" .standard c.withoutInert).lines.Sublist
        (Dialect.gcode.program .standard "" "" .standard c).lines := by
  -- what is left of the run is computed once, with the outcomes only
  have hvisits : ((empty.run talkative).cursor? 0).map (fun c =>
      (Visit.remaining (c.visits false)).map fun v => (v.action.id, v.applied)) =
      some [(1, true), (3, true), (5, false)] := by decide +kernel
  obtain ⟨c, hc, hremaining⟩ := Option.map_eq_some_iff.mp hvisits
  obtain ⟨houtcomes, -, hprograms⟩ := Reachable.inert_transparent ⟨talkative, rfl⟩ hc .standard
  refine ⟨c, hc, ?_, ?_⟩
  -- identifiers and whether an action applied can be read off the outcomes
  · have hread := congrArg (List.map fun (a, r) => (a.id, Option.isNone r)) houtcomes
    rw [List.map_map, List.map_map] at hread
    exact hread.trans hremaining
  · obtain ⟨hlines, hsub⟩ := hprograms .gcode .standard "" ""
    rw [hlines]
    exact hsub

end Fleet

end RobotMotion
