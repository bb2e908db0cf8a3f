import RobotMotion.Config
import RobotMotion.Proofs.Json.Reordering

/-!
# Records that are read back

Tools, settings, poses, options, programs and configurations are written with all their
fields, so each is read back from what was written, in whatever order the fields stand.
What is absent is written as null and stays absent.
-/

namespace RobotMotion

namespace Json

/-! ### Parts of records -/

variable {β γ : Type} {f : Json → Option β} {g : β → Json}

/-- A number is read as itself. -/
theorem readsAs_real (x : Float) : ReadsAs real? (.real x) x := by
  rintro _ rfl
  rfl

/-- So is a flag. -/
theorem readsAs_flag (b : Bool) : ReadsAs flag? (.bool b) b := by
  rintro _ rfl
  rfl

/-- So is a text. -/
theorem readsAs_string (s : String) : ReadsAs string? (.text s) s := by
  rintro _ rfl
  rfl

/-- The word for a value is read as this value. -/
theorem readsAs_word (lenient : Bool) {ofWord? : String → Option β} {word : String} {x : β}
    (h : ofWord? word = some x) :
    ReadsAs (fun j => (j.word? lenient).bind ofWord?) (.text word) x := by
  rintro _ rfl
  exact h

/-- What is read may be wrapped. -/
theorem ReadsAs.map {j : Json} {x : β} (h : ReadsAs f j x) (wrap : β → γ) :
    ReadsAs (fun j => (f j).map wrap) j (wrap x) := by
  intro k hk
  exact congrArg (Option.map wrap) (h k hk)

/-- **Absence is kept**: it is written as null, and nothing else is. -/
theorem ReadsAs.nullable (hnull : f .null = none) (h : ∀ x, ReadsAs f (g x) x) (value : Option β) :
    ReadsAs (nullable? f) (.ofOption g value) value := by
  cases value with
  | none =>
    rintro _ rfl
    rfl
  | some x =>
    intro k hk
    have hread := h x k hk
    have hsome : nullable? f k = (f k).map some := by
      cases k with
      | null =>
        rw [hnull] at hread
        cases hread
      | _ => rfl
    rw [hsome, hread]
    rfl

/-- **A list is read item by item.** -/
theorem ReadsAs.list {values : List β} (h : ∀ x ∈ values, ReadsAs f (g x) x) :
    ReadsAs (list? f) (.array (values.map g)) values := by
  rintro _ ⟨items, rfl, hitems⟩
  rw [list?]
  -- over the values, with whatever order the fields inside the items have
  induction values generalizing items with
  | nil =>
    obtain rfl := hitems
    rfl
  | cons x values ih =>
    obtain ⟨k, hk, rest, hrest, rfl⟩ := hitems
    rw [List.mapM_cons, h x List.mem_cons_self k hk,
      ih (fun y hy => h y (List.mem_cons_of_mem _ hy)) rest hrest]
    rfl

/-- Exactly so many values are read as so many. -/
theorem ReadsAs.exactly {n : Nat} (h : ∀ x, ReadsAs f (g x) x) (values : Vector β n) :
    ReadsAs (exactly? n f) (.array (values.toList.map g)) values := by
  intro k hk
  rw [exactly?, ReadsAs.list (fun x _ => h x) k hk]
  simp [Vector.toList]

/-- A vector is three numbers. -/
theorem readsAs_vector3 (v : Vector3 Float) : ReadsAs vector3? (.ofReals v.toList) v :=
  (ReadsAs.exactly readsAs_real #v[v.x, v.y, v.z]).map fun w => Vector3.mk w[0] w[1] w[2]

/-- A rotation is four. -/
theorem readsAs_rotation (q : Rotation Float) : ReadsAs rotation? (.ofReals q.toList) q :=
  (ReadsAs.exactly readsAs_real #v[q.x, q.y, q.z, q.w]).map fun w =>
    Rotation.mk w[0] w[1] w[2] w[3]

theorem readsAs_joints (joints : Joints Float) : ReadsAs joints? (.ofReals joints.toList) joints :=
  (ReadsAs.exactly readsAs_real joints.values).map Joints.mk

/-- An axis that is not set stays so. -/
theorem readsAs_externalAxes (axes : ExternalAxes Float) :
    ReadsAs externalAxes? (.ofReals? axes.toList) axes :=
  (ReadsAs.exactly (ReadsAs.nullable rfl readsAs_real) axes.values).map ExternalAxes.mk

end Json

open Json

/-! ### Records -/

/-- A tool. -/
theorem Tool.readsAs (tool : Tool Float) : ReadsAs ofJson? tool.toJson tool := by
  intro j h
  obtain ⟨record, -, hrecord, hname, hposition, horientation, hweight, hcenter, -⟩ :=
    h.record (rfl : _ = fieldNames) (by decide)
  simp only [ofJson?, hrecord, hname.required (readsAs_string _),
    hposition.required (readsAs_vector3 _), horientation.required (readsAs_rotation _),
    hweight.required (readsAs_real _), hcenter.required (readsAs_vector3 _),
    Option.bind_eq_bind, Option.bind_some]
  rfl

/-- The tools of a library in their order. -/
theorem ToolLibrary.readsAs (library : ToolLibrary) : ReadsAs ofJson? library.toJson library := by
  intro j h
  obtain ⟨record, -, hrecord, htools, -⟩ :=
    h.record (rfl : _ = ["tools"]) (by decide)
  simp only [ofJson?, hrecord, htools.required (ReadsAs.list fun tool _ => tool.readsAs),
    Option.bind_eq_bind, Option.bind_some]
  rfl

/-- Settings, every one of which is written. -/
theorem Settings.readsAs (settings : Settings Float) :
    ReadsAs ofJson? settings.toJson settings := by
  intro j h
  obtain ⟨record, -, hrecord, hspeed, hacceleration, hprecision, hmotion, hframe, hextrusion, -⟩ :=
    h.record (rfl : _ = fieldNames) (by decide)
  simp only [ofJson?, hrecord, hspeed.defaulted _ (readsAs_real _),
    hacceleration.defaulted _ (readsAs_real _), hprecision.defaulted _ (readsAs_real _),
    hmotion.defaulted _ (readsAs_word false (MotionType.ofWord?_text _)),
    hframe.defaulted _ (readsAs_word false (ReferenceFrame.ofWord?_text _)),
    hextrusion.defaulted _ (readsAs_real _), Option.bind_eq_bind, Option.bind_some]
  rfl

/-- A pose of which parts are absent. -/
theorem InitialPose.readsAs (pose : InitialPose Float) : ReadsAs ofJson? pose.toJson pose := by
  intro j h
  obtain ⟨record, -, hrecord, hposition, hrotation, haxes, hexternal, -⟩ :=
    h.record (rfl : _ = fieldNames) (by decide)
  simp only [ofJson?, hrecord, hposition.defaulted _ (ReadsAs.nullable rfl readsAs_vector3 _),
    hrotation.defaulted _ (ReadsAs.nullable rfl readsAs_rotation _),
    haxes.defaulted _ (ReadsAs.nullable rfl readsAs_joints _),
    hexternal.defaulted _ (ReadsAs.nullable rfl readsAs_externalAxes _),
    Option.bind_eq_bind, Option.bind_some]
  rfl

/-- The options of a program. -/
theorem ProgramOptions.readsAs (options : ProgramOptions) :
    ReadsAs ofJson? options.toJson options := by
  intro j h
  obtain ⟨record, -, hrecord, hblock, hinline, hcomments, -⟩ :=
    h.record (rfl : _ = ["block_only", "inline_targets", "comments"]) (by decide)
  simp only [ofJson?, hrecord, hblock.defaulted _ (readsAs_flag _),
    hinline.defaulted _ (readsAs_flag _),
    hcomments.defaulted _ (readsAs_word false (CommentMode.ofWord?_text _)),
    Option.bind_eq_bind, Option.bind_some]
  rfl

/-- A program with its lines in their order. -/
theorem Program.readsAs (p : Program) : ReadsAs ofJson? p.toJson p := by
  intro j h
  obtain ⟨record, -, hrecord, hname, hdialect, hlines, -⟩ :=
    h.record (rfl : _ = ["name", "dialect", "lines"]) (by decide)
  simp only [ofJson?, hrecord, hname.required (readsAs_string _),
    hdialect.required (readsAs_string _),
    hlines.required (ReadsAs.list fun line _ => readsAs_string line),
    Option.bind_eq_bind, Option.bind_some]
  rfl

/-- A configuration with everything it consists of. -/
theorem Config.readsAs (config : Config) : ReadsAs ofJson? config.toJson config := by
  intro j h
  obtain ⟨record, -, hrecord, hname, hpose, hsettings, htools, hlibrary, hoptions, -⟩ :=
    h.record (rfl : _ = fieldNames) (by decide)
  -- a path is written as a text, and no path as null
  have hpath : ReadsAs (nullable? string?) (.ofText? config.toolLibrary) config.toolLibrary := by
    have hread := ReadsAs.nullable (f := string?) (g := Json.text) rfl readsAs_string
    cases hc : config.toolLibrary with
    | none => exact hread none
    | some path => exact hread (some path)
  simp only [ofJson?, hrecord, hname.defaulted _ (readsAs_string _),
    hpose.defaulted _ (InitialPose.readsAs _), hsettings.defaulted _ (Settings.readsAs _),
    htools.defaulted _ (ReadsAs.list fun tool _ => tool.readsAs), hlibrary.defaulted _ hpath,
    hoptions.defaulted _ (ProgramOptions.readsAs _), Option.bind_eq_bind, Option.bind_some]
  rfl

end RobotMotion
