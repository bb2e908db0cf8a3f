import RobotMotion.Proofs.Cursor.Rehearsal
import RobotMotion.Proofs.Program.Declarations
import RobotMotion.Proofs.Program.Steps.Rapid
import Mathlib.Data.List.Forall2
import Mathlib.Data.List.Infix
import Mathlib.Data.List.Nodup

/-!
# Names of speeds and zones

A RAPID module names its speeds and zones, and declares each value under one name. A table
of names gives a value the name that it has, or a new one with the next number, and keeps
all names given before (`NameTable.nameFor_prefix`). So names and values stay different
(`NameTable.Numbered.nameFor`), and a name means at the end of the module what it meant
where it was given.

`Draft.Resolves` is what holds along a module: its motions are those of the visits that
led to a target, each with names that the tables have for the settings of its visit, and
each name in the tables is that of a motion. The tables are what the module declares, so of
all its lines just one declares such a name (`names_resolve`).
-/

namespace RobotMotion.Rapid

open Program (Entry)

/-! ### Tables of names -/

/-- Numbers are told apart by their digits, also behind a stem. -/
theorem numbered_injective (stem : String) :
    Function.Injective fun n => stem ++ Decimal.natural n := by
  intro a b h
  have hlists : stem.toList ++ Nat.toDigits 10 a = stem.toList ++ Nat.toDigits 10 b := by
    simpa [Decimal.natural] using congrArg String.toList h
  have hdigits := congrArg (Nat.ofDigitChars 10 · 0) (List.append_cancel_left hlists)
  simpa using hdigits

namespace NameTable

/-- The names given so far, in the order of their numbers. -/
def names (t : NameTable) : List String := t.entries.map Prod.fst

/-- The values that have a name. -/
def values (t : NameTable) : List String := t.entries.map Prod.snd

/-- Names are numbered in order behind a stem, and no value has two. -/
structure Numbered (stem : String) (t : NameTable) : Prop where
  names_eq : t.names = (List.range t.entries.length).map fun n => stem ++ Decimal.natural n
  values_nodup : t.values.Nodup

variable {stem : String} {t : NameTable}

theorem numbered_empty (stem : String) : empty.Numbered stem := ⟨rfl, List.nodup_nil⟩

theorem Numbered.names_nodup (h : t.Numbered stem) : t.names.Nodup := by
  rw [h.names_eq]
  exact List.nodup_range.map (numbered_injective stem)

theorem Numbered.exists_name (h : t.Numbered stem) {name : String} (hname : name ∈ t.names) :
    ∃ n, name = stem ++ Decimal.natural n := by
  rw [h.names_eq] at hname
  obtain ⟨n, -, rfl⟩ := List.mem_map.mp hname
  exact ⟨n, rfl⟩

/-- Names made of a stem and a number may stand in a module. -/
theorem Numbered.nameChars (h : t.Numbered stem)
    (hstem : ∀ c ∈ stem.toList, Program.isNameChar c = true) :
    ∀ entry ∈ t.entries, ∀ c ∈ entry.1.toList, Program.isNameChar c = true := by
  intro entry hentry c hc
  obtain ⟨n, hname⟩ := h.exists_name (List.mem_map_of_mem hentry)
  rw [hname, String.toList_append, Decimal.natural, String.toList_ofList] at hc
  rcases List.mem_append.mp hc with hc | hc
  · exact hstem c hc
  · exact Program.isNameChar_of_isDigit (Decimal.isDigit_of_mem_toDigits hc)

/-- The name of a value is the one that it has, or a new one. -/
theorem nameFor_cases (t : NameTable) (stem value : String) :
    ((t.nameFor stem value).1, value) ∈ t.entries ∧ (t.nameFor stem value).2 = t ∨
      value ∉ t.values ∧ (t.nameFor stem value).1 = stem ++ Decimal.natural t.entries.length ∧
        (t.nameFor stem value).2 = ⟨t.entries ++ [((t.nameFor stem value).1, value)]⟩ := by
  rw [nameFor]
  -- a value that was named before is found under the name that it has
  cases hfind : t.entries.find? (·.2 == value) with
  | some entry =>
    obtain ⟨name, other⟩ := entry
    have hvalue : other = value := by simpa using List.find?_some hfind
    subst hvalue
    exact .inl ⟨List.mem_of_find?_eq_some hfind, rfl⟩
  | none =>
    refine .inr ⟨fun hmem => ?_, rfl, rfl⟩
    obtain ⟨entry, hentry, hvalue⟩ := List.mem_map.mp hmem
    simpa [hvalue] using List.find?_eq_none.mp hfind entry hentry

/-- **The names given before are kept.** -/
theorem nameFor_prefix (t : NameTable) (stem value : String) :
    t.entries <+: (t.nameFor stem value).2.entries := by
  rcases t.nameFor_cases stem value with ⟨-, hsame⟩ | ⟨-, -, hnew⟩
  · rw [hsame]
  · rw [hnew]
    exact List.prefix_append _ _

/-- A value has the name that it is given. -/
theorem mem_nameFor (t : NameTable) (stem value : String) :
    ((t.nameFor stem value).1, value) ∈ (t.nameFor stem value).2.entries := by
  rcases t.nameFor_cases stem value with ⟨hmem, hsame⟩ | ⟨-, -, hnew⟩
  · rw [hsame]
    exact hmem
  · rw [hnew]
    exact List.mem_append_right _ (List.mem_singleton_self _)

/-- No other name is given. -/
theorem name_of_mem_nameFor {value : String} {entry : String × String}
    (h : entry ∈ (t.nameFor stem value).2.entries) :
    entry ∈ t.entries ∨ entry.1 = (t.nameFor stem value).1 := by
  rcases t.nameFor_cases stem value with ⟨-, hsame⟩ | ⟨-, -, hnew⟩
  · rw [hsame] at h
    exact .inl h
  · rw [hnew] at h
    rcases List.mem_append.mp h with h | h
    · exact .inl h
    · rw [List.mem_singleton.mp h]
      exact .inr rfl

/-- **Giving a name keeps names and values different.** -/
theorem Numbered.nameFor (h : t.Numbered stem) (value : String) :
    (t.nameFor stem value).2.Numbered stem := by
  rcases t.nameFor_cases stem value with ⟨-, hsame⟩ | ⟨hfresh, hname, hnew⟩
  · rw [hsame]
    exact h
  · rw [hnew, hname]
    constructor
    · rw [names, List.map_append, List.length_append, List.length_singleton, List.range_succ,
        List.map_append, ← h.names_eq]
      rfl
    · rw [values, List.map_append]
      refine List.nodup_append.mpr ⟨h.values_nodup, List.nodup_singleton _, ?_⟩
      rintro a ha b hb rfl
      rw [List.mem_singleton.mp hb] at ha
      exact hfresh ha

end NameTable

/-! ### The names of a motion -/

/-- The names of a motion are those that tables have for its settings. Without a blend radius
the zone is one that the controller knows. -/
def Move.Named (d : Decimals) (speeds zones : NameTable) (s : Settings Float) (m : Move) : Prop :=
  (m.speed, speedData d s.speed) ∈ speeds.entries ∧
    if s.precision ≤ 0.0 then m.zone = "fine"
    else (m.zone, zoneData d s.precision) ∈ zones.entries

/-- Names that are kept stay those of a motion. -/
theorem Move.Named.mono {d : Decimals} {speeds zones speeds' zones' : NameTable}
    {s : Settings Float} {m : Move} (h : m.Named d speeds zones s)
    (hspeeds : speeds.entries <+: speeds'.entries) (hzones : zones.entries <+: zones'.entries) :
    m.Named d speeds' zones' s := by
  obtain ⟨hspeed, hzone⟩ := h
  refine ⟨hspeeds.subset hspeed, ?_⟩
  split
  · rename_i hfine
    rwa [if_pos hfine] at hzone
  · rename_i hradius
    rw [if_neg hradius] at hzone
    exact hzones.subset hzone

/-- The names of zones given before are kept. -/
theorem zoneFor_prefix (d : Decimals) (zones : NameTable) (radius : Float) :
    zones.entries <+: (zoneFor d zones radius).2.entries := by
  rw [zoneFor]
  split
  · exact List.prefix_rfl
  · exact zones.nameFor_prefix _ _

/-- Giving a zone its name keeps names and values different. -/
theorem numbered_zoneFor {zones : NameTable} (h : zones.Numbered "zone") (d : Decimals)
    (radius : Float) : (zoneFor d zones radius).2.Numbered "zone" := by
  rw [zoneFor]
  split
  · exact h
  · exact h.nameFor _

/-- No other name is given to a zone. -/
theorem name_of_mem_zoneFor {d : Decimals} {zones : NameTable} {radius : Float}
    {entry : String × String} (h : entry ∈ (zoneFor d zones radius).2.entries) :
    entry ∈ zones.entries ∨ entry.1 = (zoneFor d zones radius).1 := by
  rw [zoneFor] at h ⊢
  split at h
  · exact .inl h
  · rename_i hradius
    rw [if_neg hradius]
    exact NameTable.name_of_mem_nameFor h

/-- A motion is named in tables that gave it its names. -/
theorem Move.named_of_given {d : Decimals} {speeds zones : NameTable} {s : Settings Float}
    {m : Move} (hspeed : m.speed = (speeds.nameFor "vel" (speedData d s.speed)).1)
    (hzone : m.zone = (zoneFor d zones s.precision).1) :
    m.Named d (speeds.nameFor "vel" (speedData d s.speed)).2 (zoneFor d zones s.precision).2 s := by
  refine ⟨?_, ?_⟩
  · rw [hspeed]
    exact speeds.mem_nameFor _ _
  · rw [hzone, zoneFor]
    split
    · rfl
    · exact zones.mem_nameFor _ _

/-! ### Modules -/

namespace Draft

/-- What a step does to the motions and the names of a module: nothing, or it writes the
motion of a visit that led to a target, with names for its settings. -/
theorem step_names (d : Decimals) (inlineTargets : Bool) (draft : Draft) (v : Visit Float) :
    let after := step d inlineTargets draft v
    let speed := draft.speeds.nameFor "vel" (speedData d v.state.settings.speed)
    let zone := zoneFor d draft.zones v.state.settings.precision
    ((targeting d).goal? v).isSome = false ∧ after.moves = draft.moves ∧
        after.speeds = draft.speeds ∧ after.zones = draft.zones ∨
      ((targeting d).goal? v).isSome = true ∧
        (∃ m : Move, after.moves = draft.moves ++ [(v.action, m)] ∧ m.speed = speed.1 ∧
          m.zone = zone.1) ∧ after.speeds = speed.2 ∧ after.zones = zone.2 := by
  intro after speed zone
  obtain ⟨effect, _, heffect, hsheet⟩ := step_sheetWrites d draft.rest v
  have hmotions : after.motions =
      draft.motions + if ((targeting d).goal? v).isSome then 1 else 0 :=
    (congrArg Program.Sheet.motions (hsheet inlineTargets draft rfl).1).trans
      (heffect.motions_eq inlineTargets draft.sheet)
  have hwrites : Writes d inlineTargets draft v after := step_writes draft d inlineTargets v
  -- motions are counted exactly where there is a target
  have hnone (hsame : after.motions = draft.motions) :
      ((targeting d).goal? v).isSome = false := by
    cases hgoal : ((targeting d).goal? v).isSome with
    | false => rfl
    | true =>
      rw [hgoal, if_pos rfl] at hmotions
      omega
  generalize after = result at hmotions hwrites hnone ⊢
  cases hwrites with
  | nothing | tool | custom => exact .inl ⟨hnone rfl, rfl, rfl, rfl⟩
  | entry e he =>
    refine .inl ⟨hnone rfl, ?_, rfl, rfl⟩
    rw [moves, write, List.flatMap_append, List.flatMap_singleton, he, List.append_nil]
    rfl
  | motion kind target? =>
    cases target? with
    | none => exact .inl ⟨hnone rfl, List.flatMap_append.trans (List.append_nil _), rfl, rfl⟩
    | some target =>
      have hsome (hcounted : (draft.motion d inlineTargets v kind (some target)).motions =
          draft.motions + 1) : ((targeting d).goal? v).isSome = true := by
        cases hgoal : ((targeting d).goal? v).isSome with
        | true => rfl
        | false =>
          rw [hgoal, if_neg Bool.false_ne_true] at hmotions
          omega
      refine .inr ?_
      simp only [motion, speedName, zoneName_eq] at hsome ⊢
      cases inlineTargets <;>
        exact ⟨hsome rfl, ⟨_, List.flatMap_append, rfl, rfl⟩, rfl, rfl⟩

/-- The names in a module resolve: its motions are those of the visits that led to a target,
each named for the settings of its visit, and each name is that of a motion. -/
structure Resolves (d : Decimals) (draft : Draft) (visits : List (Visit Float)) : Prop where
  speeds : draft.speeds.Numbered "vel"
  zones : draft.zones.Numbered "zone"
  moves : List.Forall₂
    (fun m v => m.1 = v.action ∧ m.2.Named d draft.speeds draft.zones v.state.settings)
    draft.moves (visits.filter fun v => ((targeting d).goal? v).isSome)
  speed_used : ∀ name ∈ draft.speeds.names, ∃ m ∈ draft.moves, m.2.speed = name
  zone_used : ∀ name ∈ draft.zones.names, ∃ m ∈ draft.moves, m.2.zone = name

theorem resolves_empty (d : Decimals) : Resolves d empty [] where
  speeds := NameTable.numbered_empty _
  zones := NameTable.numbered_empty _
  moves := .nil
  speed_used _ h := absurd h List.not_mem_nil
  zone_used _ h := absurd h List.not_mem_nil

/-- A name is that of an earlier motion, or it is that of the motion that is added. -/
theorem used_concat (name : Action Float × Move → String) {earlier : List (Action Float × Move)}
    {last : Action Float × Move} {table more : NameTable}
    (hused : ∀ n ∈ table.names, ∃ m ∈ earlier, name m = n)
    (hmore : ∀ entry ∈ more.entries, entry ∈ table.entries ∨ entry.1 = name last) :
    ∀ n ∈ more.names, ∃ m ∈ earlier ++ [last], name m = n := by
  intro n hn
  obtain ⟨entry, hentry, rfl⟩ := List.mem_map.mp hn
  rcases hmore entry hentry with hold | hnew
  · obtain ⟨m, hmem, hname⟩ := hused _ (List.mem_map_of_mem hold)
    exact ⟨m, List.mem_append_left _ hmem, hname⟩
  · exact ⟨last, List.mem_append_right _ (List.mem_singleton_self _), hnew.symm⟩

/-- **A step keeps the names resolved.** -/
theorem Resolves.step {d : Decimals} {draft : Draft} {past : List (Visit Float)}
    (h : Resolves d draft past) (inlineTargets : Bool) (v : Visit Float) :
    Resolves d (draft.step d inlineTargets v) (past ++ [v]) := by
  obtain ⟨hgoal, hmoves, hspeeds, hzones⟩ | ⟨hgoal, ⟨m, hmoves, hspeed, hzone⟩, hspeeds, hzones⟩ :=
    step_names d inlineTargets draft v
  · have hfilter : (past ++ [v]).filter (fun v => ((targeting d).goal? v).isSome) =
        past.filter fun v => ((targeting d).goal? v).isSome := by
      rw [List.filter_append, List.filter_singleton, hgoal]
      exact List.append_nil _
    constructor
    · rw [hspeeds]
      exact h.speeds
    · rw [hzones]
      exact h.zones
    · rw [hmoves, hspeeds, hzones, hfilter]
      exact h.moves
    · rw [hmoves, hspeeds]
      exact h.speed_used
    · rw [hmoves, hzones]
      exact h.zone_used
  · have hfilter : (past ++ [v]).filter (fun v => ((targeting d).goal? v).isSome) =
        past.filter (fun v => ((targeting d).goal? v).isSome) ++ [v] := by
      rw [List.filter_append, List.filter_singleton, hgoal]
      rfl
    -- motions written before keep their names in the longer tables
    have hkept := draft.speeds.nameFor_prefix "vel" (speedData d v.state.settings.speed)
    have hkept' := zoneFor_prefix d draft.zones v.state.settings.precision
    constructor
    · rw [hspeeds]
      exact h.speeds.nameFor _
    · rw [hzones]
      exact numbered_zoneFor h.zones d _
    · rw [hmoves, hspeeds, hzones, hfilter]
      refine List.rel_append (h.moves.imp fun _ _ hm => ⟨hm.1, hm.2.mono hkept hkept'⟩) ?_
      exact .cons ⟨rfl, Move.named_of_given hspeed hzone⟩ .nil
    · rw [hmoves, hspeeds]
      refine used_concat (·.2.speed) h.speed_used fun entry hentry => ?_
      rw [hspeed]
      exact NameTable.name_of_mem_nameFor hentry
    · rw [hmoves, hzones]
      refine used_concat (·.2.zone) h.zone_used fun entry hentry => ?_
      rw [hzone]
      exact name_of_mem_zoneFor hentry

end Draft

/-- **The names in a module resolve.** -/
theorem resolves_draft (d : Decimals) (inlineTargets : Bool) (visits : List (Visit Float)) :
    (draft d inlineTargets visits).Resolves d visits := by
  induction visits using List.reverseRecOn with
  | nil => exact Draft.resolves_empty d
  | append_singleton past v ih =>
    rw [draft, List.foldl_concat]
    exact ih.step inlineTargets v

/-- Names with different stems are different. -/
theorem names_disjoint {speeds zones : NameTable} (hspeeds : speeds.Numbered "vel")
    (hzones : zones.Numbered "zone") : ∀ a ∈ speeds.names, ∀ b ∈ zones.names, a ≠ b := by
  rintro a ha b hb rfl
  obtain ⟨m, hm⟩ := hspeeds.exists_name ha
  obtain ⟨n, hn⟩ := hzones.exists_name hb
  have hfirst := congrArg (fun s => s.toList.head?) (hm.symm.trans hn)
  simp at hfirst

/-- A name from a table with different names is declared on one line, apart from custom
declarations. -/
theorem declared_once (c : Cursor Float) (d : Decimals) (time title : String)
    (options : ProgramOptions) {kind : DataKind} {table : NameTable} {stem : String}
    (htable : declarations d (c.visits options.blockOnly)
      (draft d options.inlineTargets (c.visits options.blockOnly)) kind = table.entries)
    (hnumbered : table.Numbered stem) (hstem : ∀ c ∈ stem.toList, Program.isNameChar c = true)
    {name value : String} (h : (name, value) ∈ table.entries) :
    (Dialect.rapid.program d time title options c).lines.filter (declares kind name) =
      declarationLine kind name value ::
        (customLines (c.visits options.blockOnly)).filter (declares kind name) := by
  have hchars := hnumbered.nameChars hstem
  have honce : table.entries.filter (·.1 = name) = [(name, value)] :=
    filter_key_eq hnumbered.names_nodup h
  rw [filter_declares c d time title options kind (hchars _ h) (by rwa [htable]), htable, honce]
  rfl

end RobotMotion.Rapid
