import RobotMotion.Proofs.Cursor.Rehearsal
import RobotMotion.Proofs.Fleet.Run
import RobotMotion.Proofs.Program.Rejections
import RobotMotion.Proofs.Program.Steps.GCode
import RobotMotion.Proofs.Program.Steps.Krl
import RobotMotion.Proofs.Program.Steps.Rapid
import RobotMotion.Proofs.Program.Steps.UrScript
import Mathlib.Data.List.Forall2

/-!
# Annotations

What is written behind the code of actions never changes the code. A part of a program has
rows, which are lines with what they come from, and do not depend on the way of annotating.
The lines of the part are its rows, with a note behind the first row of the code of each
action and nothing anywhere else (`annotated`, `Part.lines_withMode`), because what is
written for a visit is one entry about its action and every action is visited once
(`Shared`). This holds in every part of every program (`Dialect.shared_parts`), so a program
with notes has the lines of the program without them, each as it is or with the note of one
action behind it (`Fleet.Reachable.comments_annotate`).
-/

namespace RobotMotion

namespace Program

variable {σ τ : Type}

/-! ### Rows -/

/-- What a line of a program comes from. -/
inductive Row.Origin where
  /-- no action -/
  | fixed
  /-- the code of an action -/
  | code (action : Action Float)
  /-- what is said in place of the code of an action -/
  | diagnostic (action : Action Float)

/-- A line of a program without a note, and what it comes from. -/
structure Row where
  line : String
  origin : Row.Origin

/-- The rows of an entry. -/
def Look.entryRows (look : Look) : Entry String → List Row
  | .code action statements => statements.map fun s => ⟨look.indented s, .code action⟩
  | .diagnostic action what => [⟨look.diagnosticLine action what, .diagnostic action⟩]
  | .plain statement => [⟨look.indented statement, .fixed⟩]
  | .blank => [⟨"", .fixed⟩]

/-- The rows of a part. -/
def Part.rows (part : Part) : List Row := part.entries.flatMap part.look.entryRows

/-- The lines of a part belong to no action. -/
def Part.IsFixed (part : Part) : Prop := ∃ look lines, part = .fixed look lines

/-- The lines of rows with notes. An action is noted behind the first row of its code, and
not again; other rows have no notes. The identifiers are those that were noted before. -/
def annotated (note : Action Float → String) : List Nat → List Row → List String
  | _, [] => []
  | seen, ⟨line, .code action⟩ :: rest =>
    if action.id ∈ seen then line :: annotated note seen rest
    else (line ++ note action) :: annotated note (action.id :: seen) rest
  | seen, ⟨line, .diagnostic _⟩ :: rest | seen, ⟨line, .fixed⟩ :: rest =>
    line :: annotated note seen rest

/-- The code that a row comes from is that of a visit that was carried out, and a diagnostic
is that of a visit. -/
def Row.IsOf (visits : List (Visit Float)) (row : Row) : Prop :=
  match row.origin with
  | .fixed => True
  | .code action => ∃ v ∈ visits, v.applied = true ∧ v.action = action
  | .diagnostic action => ∃ v ∈ visits, v.action = action

/-- The same part with another way of annotating. -/
def Part.withMode (mode : CommentMode) (part : Part) : Part :=
  { part with look := { part.look with mode } }

/-- A line is another one, or that one with a note about a visit that was carried out. -/
def Noted (visits : List (Visit Float)) (note : Action Float → String) (plain line : String) :
    Prop :=
  line = plain ∨ ∃ v ∈ visits, v.applied = true ∧ line = plain ++ note v.action

/-! ### Notes behind rows -/

section

variable {note : Action Float → String}

/-- Once an action was noted, the rest of its code has no notes. -/
theorem annotated_code_of_mem (note : Action Float → String) {seen : List Nat}
    {action : Action Float} (h : action.id ∈ seen) (lines : List String) (rest : List Row) :
    annotated note seen (lines.map (⟨·, .code action⟩) ++ rest) =
      lines ++ annotated note seen rest := by
  induction lines with
  | nil => rfl
  | cons line lines ih =>
    rw [List.map_cons, List.cons_append, annotated, if_pos h, ih, List.cons_append]

/-- Without notes there are the lines of the rows. -/
theorem annotated_nothing (seen : List Nat) (rows : List Row) :
    annotated (fun _ => "") seen rows = rows.map Row.line := by
  induction rows generalizing seen with
  | nil => rfl
  | cons row rest ih =>
    obtain ⟨line, origin⟩ := row
    cases origin with
    | fixed | diagnostic => exact congrArg _ (ih seen)
    | code action =>
      rw [annotated, ih, ih, String.append_empty]
      exact ite_self _

/-- **Each line is that of its row**, or has a note about a visit that was carried out. -/
theorem forall₂_annotated {visits : List (Visit Float)} {rows : List Row}
    (h : ∀ row ∈ rows, row.IsOf visits) (seen : List Nat) :
    List.Forall₂ (Noted visits note) (rows.map Row.line) (annotated note seen rows) := by
  -- over the rows; which actions were noted before plays no part
  induction rows generalizing seen with
  | nil => exact .nil
  | cons row rest ih =>
    obtain ⟨hrow, hrest⟩ := List.forall_mem_cons.mp h
    obtain ⟨line, origin⟩ := row
    cases origin with
    | fixed | diagnostic => exact .cons (.inl rfl) (ih hrest seen)
    | code action =>
      rw [annotated]
      split
      · exact .cons (.inl rfl) (ih hrest _)
      · obtain ⟨v, hv, happlied, rfl⟩ := hrow
        exact .cons (.inr ⟨v, hv, happlied, rfl⟩) (ih hrest _)

/-- Each line of a program is that of its row, or has such a note, part by part. -/
theorem forall₂_flatMap_annotated {visits : List (Visit Float)} {parts : List Part}
    (h : ∀ part ∈ parts, ∀ row ∈ part.rows, row.IsOf visits) :
    List.Forall₂ (Noted visits note) (parts.flatMap fun part => part.rows.map Row.line)
      (parts.flatMap fun part => annotated note [] part.rows) := by
  induction parts with
  | nil => exact .nil
  | cons part rest ih =>
    obtain ⟨hpart, hrest⟩ := List.forall_mem_cons.mp h
    rw [List.flatMap_cons, List.flatMap_cons]
    exact List.rel_append (forall₂_annotated hpart []) (ih hrest)

end

/-! ### Entries and their rows -/

/-- The identifier of the action whose code an entry is. -/
def Entry.codeId? : Entry σ → Option Nat
  | .code action _ => some action.id
  | .diagnostic .. | .plain _ | .blank => none

/-- An entry has as many rows as lines. -/
theorem length_entryRows (look : Look) (entry : Entry String) :
    (look.entryLines id entry).length = (look.entryRows entry).length := by
  cases entry with
  | code action statements =>
    cases statements <;> simp [Look.entryLines, Look.entryRows, Look.codeLines]
  | diagnostic | plain | blank => rfl

/-- So has a part. -/
theorem Part.length_rows (part : Part) : part.lines.length = part.rows.length := by
  simp only [Part.lines, Part.rows, Look.lines, List.length_flatMap, length_entryRows]

/-- **The lines of entries are their rows with a note behind the first row of each action**,
where each action has code once. -/
theorem lines_eq_annotated (look : Look) {entries : List (Entry String)} {seen : List Nat}
    (hnodup : (entries.filterMap Entry.codeId?).Nodup)
    (hseen : ∀ id ∈ entries.filterMap Entry.codeId?, id ∉ seen) :
    look.lines id entries = annotated look.annotation seen (entries.flatMap look.entryRows) := by
  -- over the entries, with the identifiers that were noted among those before
  induction entries generalizing seen with
  | nil => rfl
  | cons entry rest ih =>
    rw [Look.lines, List.flatMap_cons, List.flatMap_cons]
    cases entry with
    | diagnostic | plain | blank => exact congrArg _ (ih hnodup hseen)
    | code action statements =>
      obtain ⟨hnew, hrest⟩ := List.nodup_cons.mp hnodup
      obtain ⟨hunseen, hothers⟩ := List.forall_mem_cons.mp hseen
      cases statements with
      | nil => exact ih hrest hothers
      | cons first more =>
        -- the first row is noted, and from there on the action was seen
        have hmore := annotated_code_of_mem look.annotation
          (List.mem_cons_self (a := action.id) (l := seen)) (more.map look.indented)
          (rest.flatMap look.entryRows)
        have hseen' : ∀ id ∈ rest.filterMap Entry.codeId?, id ∉ action.id :: seen := by
          intro id hid hmem
          rcases List.mem_cons.mp hmem with rfl | hold
          · exact hnew hid
          · exact hothers id hid hold
        rw [List.map_map] at hmore
        rw [Look.entryRows, List.map_cons, List.cons_append, annotated, if_neg hunseen]
        refine congrArg₂ List.cons ?_ (Eq.trans ?_ hmore.symm)
        · exact (String.append_assoc ..).symm
        · rw [← ih hrest hseen', List.map_id]
          rfl

/-! ### Shares of visits -/

/-- Entries are shared among visits: after some that belong to no action, every visit has
what was written for it, in order. -/
def Shared (visits : List (Visit Float)) (entries : List (Entry σ)) : Prop :=
  ∃ opening shares, (∀ e ∈ opening, e.action? = none) ∧ List.Forall₂ Share visits shares ∧
    entries = opening ++ shares.flatten

/-- Rewriting the statements of an entry leaves it about the same visit. -/
theorem Entry.About.map {v : Visit Float} {e : Entry σ} (h : e.About v) (f : σ → τ) :
    (e.map f).About v := by
  cases h with
  | code happlied statements => exact .code happlied _
  | diagnostic what => exact .diagnostic what

/-- Rewriting statements leaves the share of a visit its share. -/
theorem Share.map {v : Visit Float} {added : List (Entry σ)} (h : Share v added) (f : σ → τ) :
    Share v (added.map (.map f)) := by
  rcases h with rfl | ⟨e, rfl, habout⟩
  · exact share_nil v
  · exact (habout.map f).share

/-- Rewriting statements leaves an entry with its action. -/
theorem Entry.action?_map (f : σ → τ) (e : Entry σ) : (e.map f).action? = e.action? := by
  cases e <;> rfl

/-- **Writing out statements does not change who has which entries.** -/
theorem Shared.map {visits : List (Visit Float)} {entries : List (Entry σ)}
    (h : Shared visits entries) (f : σ → τ) : Shared visits (entries.map (.map f)) := by
  obtain ⟨opening, shares, hopening, hshares, rfl⟩ := h
  refine ⟨opening.map (.map f), shares.map (List.map (.map f)), ?_, ?_, ?_⟩
  · intro e he
    obtain ⟨e', he', rfl⟩ := List.mem_map.mp he
    rw [Entry.action?_map, hopening e' he']
  · exact List.forall₂_map_right_iff.mpr (hshares.imp fun _ _ h => h.map f)
  · rw [List.map_append, List.map_flatten]

/-- Entries of no action are shared in that no visit has any. -/
theorem shared_of_plain (visits : List (Visit Float)) {entries : List (Entry σ)}
    (h : ∀ e ∈ entries, e.action? = none) : Shared visits entries := by
  refine ⟨entries, visits.map fun _ => [], h, ?_, ?_⟩
  · exact List.forall₂_map_right_iff.mpr (List.forall₂_same.mpr fun v _ => share_nil v)
  · simp

/-- What is written visit by visit is shared among the visits. -/
theorem shared_foldl {D : Type} {step : D → Visit Float → D} (body : D → List (Entry σ))
    (hstep : ∀ draft v, ∃ added, body (step draft v) = body draft ++ added ∧ Share v added)
    {start : D} (hstart : ∀ e ∈ body start, e.action? = none) (visits : List (Visit Float)) :
    Shared visits (body (visits.foldl step start)) := by
  obtain ⟨shares, hshares, hbody⟩ := exists_shares body hstep start visits
  exact ⟨body start, shares, hstart, hshares, hbody⟩

/-- The identifiers of code are among those of the visits, and in their order. -/
theorem codeIds_sublist_of_shares {visits : List (Visit Float)} {shares : List (List (Entry σ))}
    (h : List.Forall₂ Share visits shares) :
    (shares.flatten.filterMap Entry.codeId?).Sublist (visits.map fun v => v.action.id) := by
  -- each visit has at most one entry, so its identifier comes at most once
  induction h with
  | nil => exact .slnil
  | cons hshare _ ih =>
    rw [List.flatten_cons, List.filterMap_append, List.map_cons]
    rcases hshare with rfl | ⟨e, rfl, habout⟩
    · exact ih.cons _
    · cases habout with
      | code => exact ih.cons_cons _
      | diagnostic => exact ih.cons _

/-- **Each action has code once**, where every action is visited once. -/
theorem Shared.nodup_codeIds {visits : List (Visit Float)} {entries : List (Entry σ)}
    (h : Shared visits entries) (hnodup : (visits.map fun v => v.action.id).Nodup) :
    (entries.filterMap Entry.codeId?).Nodup := by
  obtain ⟨opening, shares, hopening, hshares, rfl⟩ := h
  -- what stands before the shares is not the code of any action
  have hnone : opening.filterMap Entry.codeId? = [] := by
    refine List.filterMap_eq_nil_iff.mpr fun e he => ?_
    have hplain := hopening e he
    cases e with
    | code => cases hplain
    | diagnostic | plain | blank => rfl
  rw [List.filterMap_append, hnone, List.nil_append]
  exact hnodup.sublist (codeIds_sublist_of_shares hshares)

/-- An entry of no action or about one of some visits. -/
theorem Shared.cases {visits : List (Visit Float)} {entries : List (Entry σ)}
    (h : Shared visits entries) {e : Entry σ} (he : e ∈ entries) :
    e.action? = none ∨ ∃ v ∈ visits, e.About v := by
  obtain ⟨opening, shares, hopening, hshares, rfl⟩ := h
  rcases List.mem_append.mp he with he | he
  · exact .inl (hopening e he)
  · exact .inr (exists_about_of_shares hshares he)

/-! ### Parts -/

namespace Part

variable {visits : List (Visit Float)}

/-- The rows of an entry do not depend on the way of annotating. -/
theorem entryRows_withMode (look : Look) (mode : CommentMode) (entry : Entry String) :
    ({ look with mode } : Look).entryRows entry = look.entryRows entry := by
  cases entry <;> rfl

/-- Rows do not depend on the way of annotating. -/
theorem rows_withMode (part : Part) (mode : CommentMode) :
    (part.withMode mode).rows = part.rows :=
  congrArg (List.flatMap · part.entries) (funext (entryRows_withMode part.look mode))

/-- Whether a part has any lines does not either. -/
theorem isEmpty_lines_withMode (part : Part) (mode : CommentMode) :
    (part.withMode mode).lines.isEmpty = part.lines.isEmpty := by
  rw [Bool.eq_iff_iff, List.isEmpty_iff_length_eq_zero, List.isEmpty_iff_length_eq_zero,
    length_rows, length_rows, rows_withMode]

/-- **The lines of a part are its rows with notes**, where its entries are shared among visits
to different actions. -/
theorem lines_withMode {part : Part} (h : Shared visits part.entries)
    (hnodup : (visits.map fun v => v.action.id).Nodup) (mode : CommentMode) :
    (part.withMode mode).lines =
      annotated (fun action => Look.annotation { part.look with mode } action) [] part.rows := by
  rw [← part.rows_withMode mode]
  exact lines_eq_annotated _ (h.nodup_codeIds hnodup) fun _ _ => List.not_mem_nil

/-- Every row is of the visit that its entry is about. -/
theorem isOf_of_mem_rows {part : Part} (h : Shared visits part.entries) {row : Row}
    (hrow : row ∈ part.rows) : row.IsOf visits := by
  obtain ⟨entry, hentry, hrow⟩ := List.mem_flatMap.mp hrow
  rcases h.cases hentry with hplain | ⟨v, hv, habout⟩
  · cases entry with
    | code | diagnostic => cases hplain
    | plain | blank =>
      obtain rfl := List.mem_singleton.mp hrow
      trivial
  · cases habout with
    | code happlied statements =>
      obtain ⟨text, -, rfl⟩ := List.mem_map.mp hrow
      exact ⟨v, hv, happlied, rfl⟩
    | diagnostic what =>
      obtain rfl := List.mem_singleton.mp hrow
      exact ⟨v, hv, rfl⟩

/-- Fixed lines belong to no action. -/
theorem shared_fixed (visits : List (Visit Float)) (look : Look) (lines : List String) :
    Shared visits (fixed look lines).entries := by
  refine shared_of_plain visits fun e he => ?_
  obtain ⟨line, -, rfl⟩ := List.mem_map.mp he
  rfl

/-- What is written out from shared entries is shared. -/
theorem shared_of {entries : List (Entry σ)} (h : Shared visits entries) (look : Look)
    (render : σ → String) : Shared visits (of look render entries).entries :=
  h.map render

end Part

end Program

open Program (Part Look Row Entry Shared annotated Noted)

/-- The targets of a module are shared among the visits. -/
theorem Rapid.shared_targets (d : Decimals) (inlineTargets : Bool)
    (visits : List (Visit Float)) : Shared visits (draft d inlineTargets visits).targets :=
  Program.shared_foldl Draft.targets (Draft.step_targets d inlineTargets)
    (fun _ he => absurd he List.not_mem_nil) visits

/-- So is its main procedure. -/
theorem Rapid.shared_body (d : Decimals) (inlineTargets : Bool) (visits : List (Visit Float)) :
    Shared visits (draft d inlineTargets visits).body :=
  Program.shared_foldl Draft.body (Draft.step_body d inlineTargets)
    (fun _ he => absurd he List.not_mem_nil) visits

/-- The declarations of a KRL program are shared among the visits. -/
theorem Krl.shared_declarations (d : Decimals) (inlineTargets : Bool) (settings : Settings Float)
    (visits : List (Visit Float)) :
    Shared visits (draft d inlineTargets settings visits).declarations :=
  Program.shared_foldl Draft.declarations (Draft.step_declarations d inlineTargets)
    (fun _ he => absurd he List.not_mem_nil) visits

theorem Krl.shared_body (d : Decimals) (inlineTargets : Bool) (settings : Settings Float)
    (visits : List (Visit Float)) : Shared visits (draft d inlineTargets settings visits).body := by
  refine Program.shared_foldl Draft.body (Draft.step_body d inlineTargets) ?_ visits
  -- the assignments at the start belong to no action
  intro e he
  rcases List.mem_append.mp he with he | he
  · obtain ⟨statement, -, rfl⟩ := List.mem_map.mp he
    rfl
  · obtain rfl := List.mem_singleton.mp he
    rfl

/-- The declarations of a URScript program are shared among the visits. -/
theorem UrScript.shared_declarations (d : Decimals) (inlineTargets : Bool)
    (visits : List (Visit Float)) :
    Shared visits (draft d inlineTargets visits).declarations :=
  Program.shared_foldl Draft.declarations (Draft.step_declarations d inlineTargets)
    (fun _ he => absurd he List.not_mem_nil) visits

theorem UrScript.shared_body (d : Decimals) (inlineTargets : Bool)
    (visits : List (Visit Float)) : Shared visits (draft d inlineTargets visits).body :=
  Program.shared_foldl Draft.body (Draft.step_body d inlineTargets)
    (fun _ he => absurd he List.not_mem_nil) visits

/-- The preamble of a G-code program is shared among the visits. -/
theorem GCode.shared_preamble (d : Decimals) (origin : Float) (visits : List (Visit Float)) :
    Shared visits (draft d origin visits).preamble :=
  Program.shared_foldl Draft.preamble (Draft.step_preamble d)
    (fun _ he => absurd he List.not_mem_nil) visits

theorem GCode.shared_body (d : Decimals) (origin : Float) (visits : List (Visit Float)) :
    Shared visits (draft d origin visits).body :=
  Program.shared_foldl Draft.body (Draft.step_body d)
    (fun _ he => absurd he List.not_mem_nil) visits

/-- A call is about the visit that it is written for. -/
theorem CallList.about_entry (v : Visit Float) : (entry v).About v := by
  rw [entry]
  split
  · exact .code ‹_› _
  · exact .diagnostic _

/-- Every visit has one call as its share. -/
theorem CallList.shared_body (visits : List (Visit Float)) : Shared visits (body visits) := by
  refine ⟨[], visits.map fun v => [entry v], fun _ he => absurd he List.not_mem_nil, ?_, ?_⟩
  · exact List.forall₂_map_right_iff.mpr
      (List.forall₂_same.mpr fun v _ => (about_entry v).share)
  · rw [List.nil_append, ← List.flatMap_def]
    exact List.map_eq_flatMap

namespace Dialect

/-- What is written behind the code of an action. -/
def note (dialect : Dialect) (mode : CommentMode) (action : Action Float) : String :=
  match mode with
  | .none => ""
  | .actionString => "  " ++ dialect.comment ++ " " ++ action.command.description
  | .actionId => "  " ++ dialect.comment ++ " [" ++ Decimal.natural action.id ++ "]"

/-- **Every part of a program is shared among the visits.** -/
theorem shared_parts (dialect : Dialect) (d : Decimals) (time name : String)
    (options : ProgramOptions) (cursor : Cursor Float) :
    ∀ part ∈ dialect.parts d time name options cursor,
      Shared (cursor.visits options.blockOnly) part.entries := by
  have hfixed := Part.shared_fixed (cursor.visits options.blockOnly)
  cases dialect with
  | rapid =>
    simp only [parts, Rapid.parts, List.forall_mem_cons]
    exact ⟨hfixed .., hfixed .., hfixed .., hfixed .., hfixed ..,
      Part.shared_of (Rapid.shared_targets ..) .., hfixed .., hfixed ..,
      Part.shared_of (Rapid.shared_body ..) .., hfixed .., List.forall_mem_nil _⟩
  | krl =>
    simp only [parts, Krl.parts, List.forall_mem_cons]
    exact ⟨hfixed .., hfixed .., hfixed .., Part.shared_of (Krl.shared_declarations ..) ..,
      hfixed .., hfixed .., Part.shared_of (Krl.shared_body ..) .., hfixed ..,
      List.forall_mem_nil _⟩
  | urscript =>
    simp only [parts, UrScript.parts, List.forall_mem_cons]
    exact ⟨hfixed .., hfixed .., Part.shared_of (UrScript.shared_declarations ..) .., hfixed ..,
      Part.shared_of (UrScript.shared_body ..) .., hfixed .., List.forall_mem_nil _⟩
  | gcode =>
    simp only [parts, GCode.parts, List.forall_mem_cons]
    exact ⟨hfixed .., hfixed .., Part.shared_of (GCode.shared_preamble ..) .., hfixed ..,
      Part.shared_of (GCode.shared_body ..) .., List.forall_mem_nil _⟩
  | calls =>
    simp only [parts, CallList.parts, List.forall_mem_cons]
    exact ⟨hfixed .., hfixed .., Part.shared_of (CallList.shared_body _) ..,
      List.forall_mem_nil _⟩

variable (dialect : Dialect) (d : Decimals) (name : String) (blockOnly inlineTargets : Bool)
  (cursor : Cursor Float)

/-- The parts of a program without notes. -/
def plainParts (time : String) : List Part :=
  dialect.parts d time name ⟨blockOnly, inlineTargets, .none⟩ cursor

/-- **The way of annotating decides on nothing but the notes** in the parts of a program. -/
theorem parts_withMode (time : String) (mode : CommentMode) :
    dialect.parts d time name ⟨blockOnly, inlineTargets, mode⟩ cursor =
      (dialect.plainParts d name blockOnly inlineTargets cursor time).map (.withMode mode) := by
  cases dialect with
  | rapid | gcode | calls => rfl
  | krl =>
    -- whether there is an empty line behind the declarations is read off their lines
    have hgap := Part.isEmpty_lines_withMode (.of ⟨Krl.comment, Krl.dialect, .none, 2⟩
      Krl.Declaration.text (Krl.draft d inlineTargets cursor.device.state.settings
        (cursor.visits blockOnly)).declarations) mode
    simp only [plainParts, parts, Krl.parts, ← hgap]
    rfl
  | urscript =>
    have hgap := Part.isEmpty_lines_withMode (.of ⟨UrScript.comment, UrScript.dialect, .none, 2⟩
      UrScript.Declaration.text
        (UrScript.draft d inlineTargets (cursor.visits blockOnly)).declarations) mode
    simp only [plainParts, parts, UrScript.parts, ← hgap]
    rfl

/-- The time stands in the header alone. -/
theorem plainParts_time : ∃ before look after, ∀ time,
    dialect.plainParts d name blockOnly inlineTargets cursor time =
      before ++
        .fixed look (Program.header time dialect.comment (Program.safeName name) dialect.name) ::
          after := by
  cases dialect with
  | rapid | urscript | gcode | calls => exact ⟨[], _, _, fun _ => rfl⟩
  | krl => exact ⟨[_], _, _, fun _ => rfl⟩

/-- **Two parts come from actions**, declarations and code. The lines of the others are fixed. -/
theorem plainParts_split (time : String) : ∃ front declarations between body closing,
    dialect.plainParts d name blockOnly inlineTargets cursor time =
        front ++ declarations :: (between ++ body :: closing) ∧
      ∀ part ∈ front ++ between ++ closing, part.IsFixed := by
  have hfixed (look : Look) (lines : List String) : (Part.fixed look lines).IsFixed :=
    ⟨look, lines, rfl⟩
  cases dialect with
  | rapid =>
    refine ⟨[_, _, _, _, _], _, [_, _], _, [_], rfl, ?_⟩
    simp only [List.cons_append, List.nil_append, List.forall_mem_cons]
    exact ⟨hfixed .., hfixed .., hfixed .., hfixed .., hfixed .., hfixed .., hfixed ..,
      hfixed .., List.forall_mem_nil _⟩
  | krl =>
    refine ⟨[_, _, _], _, [_, _], _, [_], rfl, ?_⟩
    simp only [List.cons_append, List.nil_append, List.forall_mem_cons]
    exact ⟨hfixed .., hfixed .., hfixed .., hfixed .., hfixed .., hfixed ..,
      List.forall_mem_nil _⟩
  | urscript =>
    refine ⟨[_, _], _, [_], _, [_], rfl, ?_⟩
    simp only [List.cons_append, List.nil_append, List.forall_mem_cons]
    exact ⟨hfixed .., hfixed .., hfixed .., hfixed .., List.forall_mem_nil _⟩
  | gcode =>
    refine ⟨[_, _], _, [_], _, [], rfl, ?_⟩
    simp only [List.cons_append, List.nil_append, List.append_nil, List.forall_mem_cons]
    exact ⟨hfixed .., hfixed .., hfixed .., List.forall_mem_nil _⟩
  | calls =>
    refine ⟨[_], _, [], _, [], rfl, ?_⟩
    simp only [List.append_nil, List.forall_mem_cons]
    exact ⟨hfixed .., List.forall_mem_nil _⟩

/-- The note of a part is that of its dialect. -/
theorem annotation_eq_note {part : Part} (h : part.look.comment = dialect.comment)
    (mode : CommentMode) (action : Action Float) :
    Look.annotation { part.look with mode } action = dialect.note mode action := by
  cases mode <;> simp only [note, Look.annotation, h]

end Dialect

/-- **Annotations never change the code.** For every reachable cursor, dialect, name, choice of
actions and style of targets, and for every way of annotating, at whatever time:

* the lines are those of the rows of the parts without notes, with a note behind the first
  row of the code of each action in a part, and nothing behind any other row;
* only the header tells the time, and all parts but two, the declarations and the body,
  consist of fixed lines;
* a row of code is that of an action that applied, and a diagnostic that of a visited action;
* so line by line the program is the one without notes, or has behind a line of it the note
  of an action that applied. -/
theorem Fleet.Reachable.comments_annotate {f : Fleet Float} (hf : f.Reachable) {i : Nat}
    {c : Cursor Float} (hc : f.cursor? i = some c) (dialect : Dialect) (d : Decimals)
    (name : String) (blockOnly inlineTargets : Bool) :
    let visits := c.visits blockOnly
    let parts := dialect.plainParts d name blockOnly inlineTargets c
    let lines (time : String) (mode : CommentMode) : List String :=
      (dialect.program d time name ⟨blockOnly, inlineTargets, mode⟩ c).lines
    (∀ time mode, lines time mode =
      (parts time).flatMap fun part => annotated (dialect.note mode) [] part.rows) ∧
    (∃ before look after, ∀ time, parts time = before ++
      .fixed look (Program.header time dialect.comment (Program.safeName name) dialect.name) ::
        after) ∧
    (∀ time, ∃ front declarations between body closing,
      parts time = front ++ declarations :: (between ++ body :: closing) ∧
        ∀ part ∈ front ++ between ++ closing, part.IsFixed) ∧
    (∀ time, ∀ part ∈ parts time, ∀ row ∈ part.rows, row.IsOf visits) ∧
    (∀ time mode, List.Forall₂ (Noted visits (dialect.note mode)) (lines time .none)
      (lines time mode)) := by
  intro visits parts lines
  -- identifiers increase, so no action is visited twice
  have hnodup := Cursor.nodup_visits (hf.increasing hc) blockOnly
  have hshared (time : String) : ∀ part ∈ parts time, Shared visits part.entries :=
    dialect.shared_parts d time name ⟨blockOnly, inlineTargets, .none⟩ c
  have hrows (time : String) : ∀ part ∈ parts time, ∀ row ∈ part.rows, row.IsOf visits :=
    fun part hpart _ => Part.isOf_of_mem_rows (hshared time part hpart)
  have hlines (time : String) (mode : CommentMode) : lines time mode =
      (parts time).flatMap fun part => annotated (dialect.note mode) [] part.rows := by
    -- each part is its rows with notes, and all parts note as the dialect does
    have hpart : ∀ part ∈ parts time, (part.withMode mode).lines =
        annotated (dialect.note mode) [] part.rows := by
      intro part hpart
      rw [Part.lines_withMode (hshared time part hpart) hnodup mode]
      refine congrArg (annotated · [] part.rows) (funext fun action => ?_)
      exact dialect.annotation_eq_note (Dialect.comment_of_mem_parts hpart) mode action
    simp only [lines]
    rw [dialect.lines_program, dialect.parts_withMode, List.flatMap_map]
    exact List.flatMap_congr hpart
  refine ⟨hlines, dialect.plainParts_time d name blockOnly inlineTargets c,
    dialect.plainParts_split d name blockOnly inlineTargets c, hrows, ?_⟩
  intro time mode
  have hplain : lines time .none = (parts time).flatMap fun part => part.rows.map Row.line := by
    rw [hlines]
    exact List.flatMap_congr fun part _ => Program.annotated_nothing [] part.rows
  rw [hplain, hlines]
  exact Program.forall₂_flatMap_annotated (hrows time)

namespace Fleet

/-- A tool that grips. -/
def gripper : Tool Float := ⟨"gripper", ⟨0, 0, 100⟩, .identity, 1.5, ⟨0, 0, 50⟩⟩

/-- Requests that leave two actions waiting: a tool that was attached before is detached, and
settings are taken back though none were put aside. -/
def gripperOff : List (Operation Float) :=
  [.add "arm" false none [gripper], .start 0 .origin .standard,
    .issue 0 ⟨1, .attachTool "gripper"⟩, .next 0, .issue 0 ⟨2, .detachTool⟩,
    .issue 0 ⟨3, .popSettings⟩]

/-- The first line of the detached tool has a note, the second has none, and neither has the
error. -/
theorem comments_annotate_gripperOff :
    ∃ c, (empty.run gripperOff).cursor? 0 = some c ∧
      (Dialect.krl.program .standard "" "job" ⟨false, true, .actionId⟩ c).lines.drop 9 =
        ["  BAS(#INITMOV, 0)", "  $VEL.CP = 0.020", "  $APO.CDIS = 5.000", "",
          "  $TOOL = $NULLFRAME  ; [2]", "  $LOAD.M = 0",
          "  ; ERROR: could not apply PopSettings();", "END"] := by
  -- the rows with notes are computed in place of the program
  have hcomputed : ((empty.run gripperOff).cursor? 0).map (fun c =>
      ((Dialect.krl.plainParts .standard "job" false true c "").flatMap fun part =>
        annotated (Dialect.krl.note .actionId) [] part.rows).drop 9) =
      some ["  BAS(#INITMOV, 0)", "  $VEL.CP = 0.020", "  $APO.CDIS = 5.000", "",
        "  $TOOL = $NULLFRAME  ; [2]", "  $LOAD.M = 0",
        "  ; ERROR: could not apply PopSettings();", "END"] := by
    decide +kernel
  obtain ⟨c, hc, hlines⟩ := Option.map_eq_some_iff.mp hcomputed
  obtain ⟨hannotated, -⟩ := Fleet.Reachable.comments_annotate
    (f := empty.run gripperOff) ⟨_, rfl⟩ hc .krl .standard "job" false true
  exact ⟨c, hc, (congrArg (List.drop 9) (hannotated "" .actionId)).trans hlines⟩

end Fleet

end RobotMotion
