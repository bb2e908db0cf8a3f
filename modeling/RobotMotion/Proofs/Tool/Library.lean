import RobotMotion.Proofs.Json.Saving
import RobotMotion.Proofs.Storage.FileTree
import Mathlib.Data.List.Nodup

/-!
# Names of tools in a library

No two tools of a library have the same name: loading refuses a file that defines a name twice
(`ToolLibrary.names_nodup_of_load`), and so does adding a tool. An update puts the new tool in
the place of the old one whatever its name, so it keeps names apart exactly when the tool keeps
its name or brings one that is free (`ToolLibrary.nodup_after_iff`).

What is loaded from a saved library has the names that were saved, even where a number does not
come back as it was. So a library whose names are apart is never refused for a name defined
twice (`ToolLibrary.load_ne_definedTwice`).
-/

namespace RobotMotion

/-- The name of a tool survives its way through a text. -/
theorem Tool.name_of_reread {t t' : Tool Float} (h : ofJson? t.toJson.reread = some t') :
    t'.name = t.name := by
  simp only [toJson, Json.reread, Json.rereadFields, ofJson?, Option.bind_eq_bind,
    Option.bind_eq_some_iff, pure, Option.some.injEq] at h
  obtain ⟨fields, hfields, name, hname, _, -, _, -, _, -, _, -, rfl⟩ := h
  obtain rfl := Option.some.inj hfields
  exact (Option.some.inj hname).symm

namespace ToolLibrary

variable {l l' : ToolLibrary} {t t' : FileTree} {name path : String} {tool : Tool Float}

/-! ### What changes do to the names -/

/-- A tool is found by each of the names and by no other. -/
theorem get?_isSome_iff : (l.get? name).isSome ↔ name ∈ l.names := by
  simp [get?, names]

/-- A tool whose name is taken is not added. -/
theorem add_of_mem (h : tool.name ∈ l.names) :
    l.add tool = .error (.alreadyExists tool.name) :=
  if_pos (get?_isSome_iff.mpr h)

/-- Any other is added at the end. -/
theorem add_of_not_mem (h : tool.name ∉ l.names) : l.add tool = .ok ⟨l.tools ++ [tool]⟩ :=
  if_neg (mt get?_isSome_iff.mp h)

/-- A tool that is there is replaced in its place. -/
theorem update_of_mem (h : name ∈ l.names) (tool : Tool Float) :
    l.update name tool = .ok ⟨replaceFirst name tool l.tools⟩ :=
  if_pos (get?_isSome_iff.mpr h)

/-- One that is not cannot be replaced. -/
theorem update_of_not_mem (h : name ∉ l.names) (tool : Tool Float) :
    l.update name tool = .error (.unknownTool name) :=
  if_neg (mt get?_isSome_iff.mp h)

/-- A tool that is there is taken out. -/
theorem remove_of_mem (h : name ∈ l.names) :
    ∃ tool, l.remove name = .ok (tool, ⟨l.tools.eraseP (·.name == name)⟩) := by
  obtain ⟨tool, htool⟩ := Option.isSome_iff_exists.mp (get?_isSome_iff.mpr h)
  exact ⟨tool, by rw [remove, htool]⟩

theorem remove_of_not_mem (h : name ∉ l.names) : l.remove name = .error (.unknownTool name) := by
  have hnone : l.get? name = none := Option.not_isSome_iff_eq_none.mp (mt get?_isSome_iff.mp h)
  rw [remove, hnone]

/-- Replacing a tool that is there leaves those around it. -/
theorem exists_replaceFirst_eq {tools : List (Tool Float)} (h : name ∈ tools.map Tool.name)
    (tool : Tool Float) : ∃ before old after, tools = before ++ old :: after ∧ old.name = name ∧
      replaceFirst name tool tools = before ++ tool :: after := by
  -- the first tool of the name is the one that is found and replaced
  induction tools with
  | nil => cases h
  | cons first rest ih =>
    by_cases hfirst : first.name = name
    · exact ⟨[], first, rest, rfl, hfirst, by rw [replaceFirst, if_pos hfirst, List.nil_append]⟩
    · have hrest : name ∈ rest.map Tool.name := (List.mem_cons.mp h).resolve_left (Ne.symm hfirst)
      obtain ⟨before, old, after, rfl, hold, hreplaced⟩ := ih hrest
      refine ⟨first :: before, old, after, rfl, hold, ?_⟩
      rw [replaceFirst, if_neg hfirst, hreplaced, List.cons_append]

/-- **Replacing a tool keeps names apart exactly when it keeps its name or brings a free
one.** -/
theorem nodup_replaceFirst_iff (hl : l.names.Nodup) (h : name ∈ l.names) :
    ((replaceFirst name tool l.tools).map Tool.name).Nodup ↔
      tool.name = name ∨ tool.name ∉ l.names := by
  obtain ⟨before, old, after, htools, hold, hreplaced⟩ := exists_replaceFirst_eq h tool
  have hnames : l.names = before.map Tool.name ++ name :: after.map Tool.name := by
    rw [names, htools, List.map_append, List.map_cons, hold]
  -- the other names are the same before and after, so only the one in the middle counts
  rw [hnames, List.nodup_middle, List.nodup_cons, List.mem_append] at hl
  rw [hreplaced, List.map_append, List.map_cons, List.nodup_middle, List.nodup_cons, hnames,
    List.mem_append, List.mem_append, List.mem_cons]
  constructor
  · rintro ⟨hfree, -⟩
    tauto
  · rintro (hsame | hfree)
    · rw [hsame]
      exact hl
    · exact ⟨by tauto, hl.2⟩

/-! ### Edits -/

/-- A change that someone asks of a library. -/
inductive Edit where
  | add (tool : Tool Float)
  | update (name : String) (tool : Tool Float)
  | remove (name : String)

/-- The library with a change made, or why it is not made. -/
def edit (l : ToolLibrary) : Edit → Except Failure ToolLibrary
  | .add tool => l.add tool
  | .update name tool => l.update name tool
  | .remove name => (l.remove name).map Prod.snd

/-- The library after a change was asked for, whether it was made or not. -/
def after (l : ToolLibrary) (e : Edit) : ToolLibrary :=
  match l.edit e with
  | .ok l => l
  | .error _ => l

/-- Whether a change keeps names apart: a tool that replaces another keeps the name or brings
one that is free. -/
def Edit.KeepsApart (l : ToolLibrary) : Edit → Prop
  | .update name tool => name ∈ l.names → tool.name = name ∨ tool.name ∉ l.names
  | .add _ | .remove _ => True

theorem after_of_ok {e : Edit} (h : l.edit e = .ok l') : l.after e = l' := by
  rw [after, h]

/-- A change that fails leaves the library. -/
theorem after_of_error {e : Edit} {failure : Failure} (h : l.edit e = .error failure) :
    l.after e = l := by
  rw [after, h]

/-- **A change keeps names apart exactly when it does not replace a tool by one whose name
another tool has.** -/
theorem nodup_after_iff (hl : l.names.Nodup) (e : Edit) :
    (l.after e).names.Nodup ↔ e.KeepsApart l := by
  -- adding and removing keep names apart on their own; only an update may bring a taken name
  cases e with
  | add tool =>
    refine iff_of_true ?_ trivial
    by_cases htaken : tool.name ∈ l.names
    · rw [after_of_error (e := .add tool) (add_of_mem htaken)]
      exact hl
    · rw [after_of_ok (e := .add tool) (add_of_not_mem htaken), names, List.map_append]
      exact List.nodup_append_comm.mp (List.nodup_cons.mpr ⟨htaken, hl⟩)
  | update name tool =>
    by_cases hthere : name ∈ l.names
    · rw [after_of_ok (e := .update name tool) (update_of_mem hthere tool)]
      exact (nodup_replaceFirst_iff hl hthere).trans ⟨fun h _ => h, fun h => h hthere⟩
    · rw [after_of_error (e := .update name tool) (update_of_not_mem hthere tool)]
      exact iff_of_true hl fun h => absurd h hthere
  | remove name =>
    refine iff_of_true ?_ trivial
    by_cases hthere : name ∈ l.names
    · obtain ⟨tool, hremove⟩ := remove_of_mem hthere
      have hedit : l.edit (.remove name) = .ok ⟨l.tools.eraseP (·.name == name)⟩ := by
        rw [edit, hremove]
        rfl
      rw [after_of_ok hedit]
      exact hl.sublist (List.eraseP_sublist.map Tool.name)
    · have hedit : l.edit (.remove name) = .error (.unknownTool name) := by
        rw [edit, remove_of_not_mem hthere]
        rfl
      rw [after_of_error hedit]
      exact hl

/-! ### Files -/

/-- **No name is found twice exactly where the names are different**, and none of them is one
of those seen before. -/
theorem repeatedName?_eq_none_iff {seen names : List String} :
    repeatedName? seen names = none ↔ names.Nodup ∧ ∀ name ∈ names, name ∉ seen := by
  -- the names seen before grow with each name
  induction names generalizing seen with
  | nil => exact iff_of_true rfl ⟨List.nodup_nil, fun _ h => nomatch h⟩
  | cons name rest ih =>
    rw [repeatedName?]
    by_cases hseen : name ∈ seen
    · rw [if_pos (List.contains_iff_mem.mpr hseen)]
      exact iff_of_false (fun h => nomatch h) fun h => h.2 name List.mem_cons_self hseen
    · rw [if_neg (mt List.contains_iff_mem.mp hseen), ih, List.nodup_cons, List.forall_mem_cons]
      constructor
      · rintro ⟨hrest, hfresh⟩
        refine ⟨⟨fun hmem => ?_, hrest⟩, hseen, fun other hother => ?_⟩
        · exact hfresh name hmem (List.mem_append_right _ List.mem_cons_self)
        · exact fun hmem => hfresh other hother (List.mem_append_left _ hmem)
      · rintro ⟨⟨hname, hrest⟩, -, hfresh⟩
        refine ⟨hrest, fun other hother hmem => ?_⟩
        rcases List.mem_append.mp hmem with hmem | hmem
        · exact hfresh other hother hmem
        · rw [List.mem_singleton.mp hmem] at hother
          exact hname hother

/-- **A library that was loaded has its names apart.** -/
theorem names_nodup_of_load (h : load t path = .ok l) : l.names.Nodup := by
  rw [load, ofFound.eq_def] at h
  split at h
  · obtain rfl := Except.ok.inj h
    exact List.nodup_nil
  · cases h
  · split at h
    · cases h
    · split at h
      · cases h
      · rename_i hnone
        obtain rfl := Except.ok.inj h
        exact (repeatedName?_eq_none_iff.mp hnone).1

/-- The names of tools survive their way through texts. -/
theorem map_name_of_reread {tools tools' : List (Tool Float)}
    (h : (Json.rereadItems (tools.map Tool.toJson)).mapM Tool.ofJson? = some tools') :
    tools'.map Tool.name = tools.map Tool.name := by
  induction tools generalizing tools' with
  | nil =>
    obtain rfl := Option.some.inj h
    rfl
  | cons tool tools ih =>
    simp only [List.map_cons, Json.rereadItems, List.mapM_cons, Option.bind_eq_bind,
      Option.bind_eq_some_iff, pure, Option.some.injEq] at h
    obtain ⟨first, hfirst, rest, hrest, rfl⟩ := h
    rw [List.map_cons, List.map_cons, Tool.name_of_reread hfirst, ih hrest]

/-- **What is read of a library that was written has its names**, if it can be read at all. -/
theorem names_of_parse_pretty (h : (Json.parse l.toJson.pretty).bind ofJson? = some l') :
    l'.names = l.names := by
  rw [Json.pretty, Json.parse_render_eq_reread, Option.bind_some] at h
  simp only [toJson, Json.reread, Json.rereadFields, ofJson?, Option.bind_eq_bind,
    Option.bind_eq_some_iff, pure, Option.some.injEq] at h
  obtain ⟨fields, hfields, tools, htools, rfl⟩ := h
  obtain rfl := Option.some.inj hfields
  exact map_name_of_reread htools

/-- A file that was saved is found with what was written. -/
theorem find_of_save (h : l.save t path = (t', none)) : t'.find path = .file l.toJson.pretty := by
  obtain ⟨htree, hnone⟩ := Prod.mk.inj h
  exact FileTree.find_of_save (Prod.ext htree (Option.map_eq_none_iff.mp hnone))

/-- **A saved library is not refused for a name defined twice** if its names are apart. -/
theorem load_ne_definedTwice (hl : l.names.Nodup) (h : l.save t path = (t', none))
    (where' name : String) : load t' path ≠ .error (.definedTwice where' name) := by
  rw [load, find_of_save h, ofFound]
  split
  · exact fun h => nomatch h
  · rename_i hread
    split
    -- what can be read has the names that were saved, and these are apart
    · rename_i hrepeated
      rw [repeatedName?_eq_none_iff.mpr ⟨names_of_parse_pretty hread ▸ hl, by simp⟩] at hrepeated
      cases hrepeated
    · exact fun h => nomatch h

/-- A saved library whose numbers read back is loaded again, unless it has a name twice. -/
theorem load_of_save (hprintable : l.toJson.Printable) (h : l.save t path = (t', none)) :
    load t' path =
      match repeatedName? [] l.names with
      | some name => .error (.definedTwice path name)
      | none => .ok l := by
  have hread : (Json.parse l.toJson.pretty).bind ofJson? = some l := by
    rw [Json.pretty, Json.parse_render _ hprintable]
    exact l.readsAs _ (Json.reordered_refl _)
  cases hname : repeatedName? [] l.names <;>
    simp only [load, find_of_save h, ofFound, hread, hname]

/-! ### Libraries in use -/

/-- Libraries that begin empty or in a file and go through changes of which each keeps names
apart. -/
inductive Reached : ToolLibrary → Prop
  | empty : Reached empty
  | loaded {t : FileTree} {path : String} {l : ToolLibrary} : load t path = .ok l → Reached l
  | edited {l : ToolLibrary} {e : Edit} : Reached l → e.KeepsApart l → Reached (l.after e)

/-- Libraries in use have their names apart. -/
theorem Reached.names_nodup (h : Reached l) : l.names.Nodup := by
  induction h with
  | empty => exact List.nodup_nil
  | loaded hload => exact names_nodup_of_load hload
  | edited _ hkeeps ih => exact (nodup_after_iff ih _).mpr hkeeps

/-- What it means that a library keeps its names apart. -/
structure NamesApart (l : ToolLibrary) : Prop where
  nodup : l.names.Nodup
  /-- the next change keeps this exactly when it does not bring a name that is taken -/
  after_iff : ∀ e, (l.after e).names.Nodup ↔ e.KeepsApart l
  /-- a change that fails changes nothing -/
  failed : ∀ e failure, l.edit e = .error failure → l.after e = l
  /-- once saved, the library is not refused for a name defined twice -/
  saved : ∀ t t' path, l.save t path = (t', none) →
    ∀ where' name, load t' path ≠ .error (.definedTwice where' name)

/-- **Names stay apart** as long as no tool is replaced by one whose name another tool has. -/
theorem Reached.namesApart (h : Reached l) : l.NamesApart where
  nodup := h.names_nodup
  after_iff := nodup_after_iff h.names_nodup
  failed _ _ := after_of_error
  saved _ _ _ := load_ne_definedTwice h.names_nodup

/-- A tool that is its flange. -/
def bare (name : String) : Tool Float := ⟨name, ⟨0, 0, 0⟩, ⟨0, 0, 0, 1⟩, 1, ⟨0, 0, 0⟩⟩

/-- A library whose only tool was given another name. -/
theorem namesApart_renamed :
    Reached ((empty.after (.add (bare "a"))).after (.update "a" (bare "b"))) ∧
      ((empty.after (.add (bare "a"))).after (.update "a" (bare "b"))).NamesApart := by
  have hreached : Reached ((empty.after (.add (bare "a"))).after (.update "a" (bare "b"))) := by
    refine .edited (.edited .empty trivial) fun _ => .inr ?_
    decide
  exact ⟨hreached, hreached.namesApart⟩

/-- Two tools, of which the first is replaced by another of the second one's name. -/
def collided : ToolLibrary :=
  [.add (bare "a"), .add (bare "b"), .update "a" (bare "b")].foldl after empty

/-- Both tools have the second one's name then. -/
theorem collided_eq : collided = ⟨[bare "b", bare "b"]⟩ := by decide +kernel

/-- A library that is given one name twice is saved, and refused when it is loaded. -/
theorem not_namesApart_collided :
    ¬collided.names.Nodup ∧ ∃ t, collided.save .empty "/tools" = (t, none) ∧
      load t "/tools" = .error (.definedTwice "/tools" "b") := by
  -- the numbers are whole, so the library reads back as it was written
  have hprintable : collided.toJson.Printable := by
    rw [collided_eq]
    have hzero : (Json.real 0).Printable := ⟨rfl, rfl⟩
    have hone : (Json.real 1).Printable := ⟨rfl, rfl⟩
    have hbare : (bare "b").toJson.Printable :=
      ⟨trivial, ⟨hzero, hzero, hzero, trivial⟩, ⟨hzero, hzero, hzero, hone, trivial⟩, hone,
        ⟨hzero, hzero, hzero, trivial⟩, trivial⟩
    exact ⟨⟨hbare, hbare, trivial⟩, trivial⟩
  have hsave : collided.save .empty "/tools" =
      (⟨[(["tools"], .file collided.toJson.pretty)]⟩, none) := by
    generalize hcontents : collided.toJson.pretty = contents
    have hparent : FileTree.empty.makeParent "/tools" = (.empty, none) := by decide +kernel
    have hpath : FileTree.isPath "/tools" = true := by decide +kernel
    have hparts : FileTree.parts "/tools" = ["", "tools"] := by decide +kernel
    have hwrite : FileTree.empty.write? "/tools" contents =
        some ⟨[(["tools"], .file contents)]⟩ := by
      rw [FileTree.write?, hpath, hparts]
      rfl
    simp only [save, hcontents, FileTree.save, hparent, hwrite, Option.map_none]
  refine ⟨by rw [collided_eq]; decide, _, hsave, ?_⟩
  rw [load_of_save hprintable hsave, collided_eq]
  decide

end ToolLibrary

end RobotMotion
