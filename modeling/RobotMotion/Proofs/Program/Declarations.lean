import RobotMotion.Proofs.Program.Module

/-!
# The lines that declare a name

A RAPID module declares speeds, zones and tools, each on one line that begins with the kind
of data and the name (`declares`). `lines_module` lays a module out: these declarations, the
targets, the custom declarations as they were given, and the main procedure.

No other line of a module begins like a declaration, apart from custom ones, which may say
anything. So counting the lines that declare a name comes down to counting in the table of
the module (`filter_declares`).
-/

namespace RobotMotion.Rapid

open Program (Entry Look isNameChar)

/-- What a module declares with a value of its own. -/
inductive DataKind where
  | speed
  | zone
  | tool

/-- How the declaration of a kind of data begins, up to the name. -/
def DataKind.opening : DataKind → String
  | .speed => "  CONST speeddata "
  | .zone => "  CONST zonedata "
  | .tool => "  PERS tooldata "

/-- Whether a line of a module declares a name. -/
def declares (kind : DataKind) (name line : String) : Bool :=
  (kind.opening ++ name ++ " := ").toList.isPrefixOf line.toList

/-- The lines that a module takes over from custom code. -/
def customLines (visits : List (Visit Float)) : List String :=
  (visits.flatMap customDeclaration).map ("  " ++ ·)

/-- The line of a declaration. -/
def declarationLine (kind : DataKind) (name value : String) : String :=
  kind.opening ++ name ++ " := " ++ value ++ ";"

/-- The names that a module declares, each with its value. -/
def declarations (d : Decimals) (visits : List (Visit Float)) (written : Draft) :
    DataKind → List (String × String)
  | .speed => written.speeds.entries
  | .zone => written.zones.entries
  | .tool => (visits.flatMap Visit.definedTool).map
    fun t => ((toolDeclaration d t).name, (toolDeclaration d t).data)

/-- The lines of a module that declare its data of a kind. -/
def declarationLines (d : Decimals) (visits : List (Visit Float)) (written : Draft)
    (kind : DataKind) : List String :=
  (declarations d visits written kind).map fun e => declarationLine kind e.1 e.2

variable {kind : DataKind} {name line : String}

/-! ### Lines that declare nothing -/

theorem declares_iff :
    declares kind name line = true ↔ (kind.opening ++ name ++ " := ").toList <+: line.toList :=
  List.isPrefixOf_iff_prefix

/-- A line that declares a name begins as declarations of the kind do. -/
theorem opening_of_declares (h : declares kind name line = true) :
    kind.opening.toList <+: line.toList := by
  refine List.IsPrefix.trans ?_ (declares_iff.mp h)
  rw [String.append_assoc, String.toList_append]
  exact List.prefix_append _ _

/-- A line that begins with something else declares nothing. -/
theorem not_declares (start : String) (hline : start.toList <+: line.toList)
    (hother : (kind.opening.toList.isPrefixOf start.toList ||
      start.toList.isPrefixOf kind.opening.toList) = false) :
    declares kind name line = false := by
  refine Bool.eq_false_iff.mpr fun hdeclares => ?_
  obtain ⟨hlong, hshort⟩ := Bool.or_eq_false_iff.mp hother
  -- both are how the line begins, so one of them would begin with the other
  rcases List.prefix_or_prefix_of_prefix (opening_of_declares hdeclares) hline with h | h
  · rw [List.isPrefixOf_iff_prefix.mpr h] at hlong
    cases hlong
  · rw [List.isPrefixOf_iff_prefix.mpr h] at hshort
    cases hshort

theorem not_declares_empty : declares kind name "" = false := by
  refine Bool.eq_false_iff.mpr fun hdeclares => ?_
  have hnil := List.prefix_nil.mp (opening_of_declares hdeclares)
  cases kind <;> exact absurd hnil (by decide)

/-- Lines that declare nothing are not counted. -/
theorem filter_declares_eq_nil {lines : List String}
    (h : ∀ line ∈ lines, declares kind name line = false) :
    lines.filter (declares kind name) = [] :=
  List.filter_eq_nil_iff.mpr fun line hline => by simp [h line hline]

/-- The header stands behind comment marks, and the title is no declaration. -/
theorem filter_front (time title : String) :
    (Program.header time comment title dialect ++ ["", "MODULE " ++ title, ""]).filter
      (declares kind name) = [] := by
  refine filter_declares_eq_nil fun line hline => ?_
  rcases List.mem_append.mp hline with hheader | htitle
  · obtain ⟨row, -, rfl⟩ := List.mem_map.mp hheader
    exact not_declares "!" (by simp [comment]) (by cases kind <;> decide)
  · simp only [List.mem_cons, List.not_mem_nil, or_false] at htitle
    rcases htitle with rfl | rfl | rfl
    · exact not_declares_empty
    · exact not_declares "MODULE " (by simp) (by cases kind <;> decide)
    · exact not_declares_empty

/-- Targets are constants of types of their own. -/
theorem filter_targets (mode : CommentMode) (entries : List (Entry TargetDeclaration)) :
    ((⟨comment, dialect, mode, 2⟩ : Look).lines TargetDeclaration.text entries).filter
      (declares kind name) = [] := by
  refine filter_declares_eq_nil fun line hline => ?_
  rcases Look.mem_lines hline with rfl | ⟨text, rest, rfl, rfl | ⟨t, rfl⟩⟩
  · exact not_declares_empty
  · exact not_declares "  !" (by simp [Look.indented, comment]) (by cases kind <;> decide)
  · obtain ⟨index, target⟩ := t
    cases target with
    | pose =>
      refine not_declares "  CONST robtarget" ?_ (by cases kind <;> decide)
      simp [Look.indented, TargetDeclaration.text, Target.type]
    | joints =>
      refine not_declares "  CONST jointtarget" ?_ (by cases kind <;> decide)
      simp [Look.indented, TargetDeclaration.text, Target.type]

/-- The main procedure is indented further than declarations. -/
theorem filter_body (mode : CommentMode) (entries : List (Entry Statement)) :
    ((⟨comment, dialect, mode, 4⟩ : Look).lines Statement.text entries).filter
      (declares kind name) = [] := by
  refine filter_declares_eq_nil fun line hline => ?_
  rcases Look.mem_lines hline with rfl | ⟨text, rest, rfl, -⟩
  · exact not_declares_empty
  · exact not_declares "    " (by simp [Look.indented]) (by cases kind <;> decide)

/-- Neither do the lines that open and close the main procedure declare anything. -/
theorem filter_fixed {lines : List String}
    (h : ∀ line ∈ lines, (kind.opening.toList.isPrefixOf line.toList ||
      line.toList.isPrefixOf kind.opening.toList) = false ∨ line = "") :
    lines.filter (declares kind name) = [] := by
  refine filter_declares_eq_nil fun line hline => ?_
  rcases h line hline with hother | rfl
  · exact not_declares line List.prefix_rfl hother
  · exact not_declares_empty

/-! ### Lines that declare a name -/

/-- A name ends where its characters do. -/
theorem prefix_name_iff {name other : String} (hname : ∀ c ∈ name.toList, isNameChar c = true)
    (hother : ∀ c ∈ other.toList, isNameChar c = true) (rest : List Char) :
    name.toList ++ " := ".toList <+: other.toList ++ (" := ".toList ++ rest) ↔ other = name := by
  constructor
  · rintro ⟨more, hmore⟩
    have htake := congrArg (List.takeWhile isNameChar) hmore
    have hblank (tail : List Char) : (" := ".toList ++ tail).takeWhile isNameChar = [] := rfl
    rw [List.append_assoc, List.takeWhile_append_of_pos hname, List.takeWhile_append_of_pos hother,
      hblank, hblank, List.append_nil, List.append_nil] at htake
    exact (String.toList_inj.mp htake).symm
  · rintro rfl
    rw [← List.append_assoc]
    exact List.prefix_append _ _

/-- **A declaration declares its own name and no other.** -/
theorem declares_declarationLine (kind : DataKind) {name other : String} (value : String)
    (hname : ∀ c ∈ name.toList, isNameChar c = true)
    (hother : ∀ c ∈ other.toList, isNameChar c = true) :
    declares kind name (declarationLine kind other value) = decide (other = name) := by
  rw [Bool.eq_iff_iff, declares_iff, decide_eq_true_iff, ← prefix_name_iff hname hother
    (value ++ ";").toList]
  simp only [declarationLine, String.toList_append, List.append_assoc,
    List.prefix_append_right_inj]

/-- **The lines that declare a name are those of a table under this name.** -/
theorem filter_declarationLines {d : Decimals} {visits : List (Visit Float)} {written : Draft}
    (hname : ∀ c ∈ name.toList, isNameChar c = true)
    (htable : ∀ e ∈ declarations d visits written kind, ∀ c ∈ e.1.toList, isNameChar c = true) :
    (declarationLines d visits written kind).filter (declares kind name) =
      ((declarations d visits written kind).filter (·.1 = name)).map
        fun e => declarationLine kind e.1 e.2 := by
  rw [declarationLines, List.filter_map]
  refine congrArg _ (List.filter_congr fun e he => ?_)
  exact declares_declarationLine kind e.2 hname (htable e he)

/-- Declarations of another kind are not counted. -/
theorem filter_declarationLines_of_ne {d : Decimals} {visits : List (Visit Float)}
    {written : Draft} {other : DataKind} (h : kind ≠ other) :
    (declarationLines d visits written other).filter (declares kind name) = [] := by
  refine filter_declares_eq_nil fun line hline => ?_
  obtain ⟨e, -, rfl⟩ := List.mem_map.mp hline
  refine not_declares other.opening ?_ ?_
  · simp only [declarationLine, String.append_assoc, String.toList_append]
    exact List.prefix_append _ _
  · cases kind <;> cases other <;> first | decide | exact absurd rfl h

/-! ### Modules -/

section

variable (c : Cursor Float) (d : Decimals) (time title : String) (options : ProgramOptions)

/-- **The lines of a module**: the header, the declarations of speeds, zones and tools, the
targets, the custom declarations, and the main procedure. -/
theorem lines_module :
    let visits := c.visits options.blockOnly
    let written := draft d options.inlineTargets visits
    let look (indent : Nat) : Look := ⟨comment, dialect, options.comments, indent⟩
    (Dialect.rapid.program d time title options c).lines =
      Program.header time comment (Program.safeName title) dialect ++
        ["", "MODULE " ++ Program.safeName title, ""] ++
        (written.speeds.entries.map fun e =>
          "  CONST speeddata " ++ e.1 ++ " := " ++ e.2 ++ ";") ++
        (written.zones.entries.map fun e =>
          "  CONST zonedata " ++ e.1 ++ " := " ++ e.2 ++ ";") ++
        ((visits.flatMap Visit.definedTool).map fun t =>
          "  PERS tooldata " ++ (toolDeclaration d t).name ++ " := " ++
            (toolDeclaration d t).data ++ ";") ++
        (look 2).lines TargetDeclaration.text written.targets ++
        customLines visits ++
        ["", "  PROC main()", "    ConfJ \\Off;", "    ConfL \\Off;", ""] ++
        (look 4).lines Statement.text written.body ++
        ["  ENDPROC", "", "ENDMODULE"] := by
  intro visits written look
  have hindent (first name value : String) :
      "  " ++ (first ++ name ++ " := " ++ value ++ ";") =
        "  " ++ first ++ name ++ " := " ++ value ++ ";" := by
    simp only [String.append_assoc]
  have htools : written.tools.map (fun t => "  " ++ t.text) =
      (visits.flatMap Visit.definedTool).map fun t =>
        "  PERS tooldata " ++ (toolDeclaration d t).name ++ " := " ++
          (toolDeclaration d t).data ++ ";" := by
    rw [show written.tools = _ from tools_draft d options.inlineTargets visits, List.map_map]
    exact List.map_congr_left fun t _ => hindent "PERS tooldata " _ _
  have hcustom : written.customDeclarations.map ("  " ++ ·) = customLines visits :=
    congrArg _ (customDeclarations_draft d options.inlineTargets visits)
  have hspeeds : (written.speeds.entries.map fun e =>
        "  " ++ ("CONST speeddata " ++ e.1 ++ " := " ++ e.2 ++ ";")) =
      written.speeds.entries.map fun e => "  CONST speeddata " ++ e.1 ++ " := " ++ e.2 ++ ";" :=
    List.map_congr_left fun e _ => hindent "CONST speeddata " e.1 e.2
  have hzones : (written.zones.entries.map fun e =>
        "  " ++ ("CONST zonedata " ++ e.1 ++ " := " ++ e.2 ++ ";")) =
      written.zones.entries.map fun e => "  CONST zonedata " ++ e.1 ++ " := " ++ e.2 ++ ";" :=
    List.map_congr_left fun e _ => hindent "CONST zonedata " e.1 e.2
  rw [← hspeeds, ← hzones, ← htools, ← hcustom]
  rfl

/-- **What a module declares under a name** is what its table has under the name. Only custom
declarations may come on top. -/
theorem filter_declares (kind : DataKind) {name : String}
    (hname : ∀ c ∈ name.toList, isNameChar c = true)
    (htable : ∀ e ∈ declarations d (c.visits options.blockOnly)
      (draft d options.inlineTargets (c.visits options.blockOnly)) kind,
        ∀ c ∈ e.1.toList, isNameChar c = true) :
    (Dialect.rapid.program d time title options c).lines.filter (declares kind name) =
      ((declarations d (c.visits options.blockOnly)
          (draft d options.inlineTargets (c.visits options.blockOnly)) kind).filter
            (·.1 = name)).map (fun e => declarationLine kind e.1 e.2) ++
        (customLines (c.visits options.blockOnly)).filter (declares kind name) := by
  set visits := c.visits options.blockOnly with hvisits
  set written := draft d options.inlineTargets visits with hwritten
  have htools : (visits.flatMap Visit.definedTool).map (fun t =>
      "  PERS tooldata " ++ (toolDeclaration d t).name ++ " := " ++
        (toolDeclaration d t).data ++ ";") = declarationLines d visits written .tool := by
    rw [declarationLines, declarations, List.map_map]
    rfl
  -- one of the tables is of the kind, and the others declare nothing of it
  have htables : (declarationLines d visits written .speed).filter (declares kind name) ++
      (declarationLines d visits written .zone).filter (declares kind name) ++
      (declarationLines d visits written .tool).filter (declares kind name) =
        (declarationLines d visits written kind).filter (declares kind name) := by
    cases kind <;> simp [filter_declarationLines_of_ne]
  have hopening : ["", "  PROC main()", "    ConfJ \\Off;", "    ConfL \\Off;", ""].filter
      (declares kind name) = [] :=
    filter_fixed (by cases kind <;> decide)
  have hclosing : ["  ENDPROC", "", "ENDMODULE"].filter (declares kind name) = [] :=
    filter_fixed (by cases kind <;> decide)
  rw [← filter_declarationLines hname htable, ← htables, lines_module]
  simp only [← hvisits, ← hwritten, htools, List.filter_append, hopening, hclosing,
    filter_targets, filter_body, List.append_nil]
  rw [← List.filter_append, filter_front, List.nil_append]
  rfl

end

end RobotMotion.Rapid
