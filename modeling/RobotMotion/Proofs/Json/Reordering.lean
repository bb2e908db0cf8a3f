import RobotMotion.Json.Record
import RobotMotion.Proofs.Json.Documents

/-!
# Objects with their fields in another order

A writer may put the fields of objects in an order of its own (`Json.Reordered`). This
changes neither how deeply a value is nested nor whether it can be read or printed. A
record is read from its fields by name, so it is read the same in any order
(`Json.Reordered.record`).
-/

namespace RobotMotion.Json

mutual

/-- Whether a value is another one with the fields of objects in some order. -/
def Reordered : Json → Json → Prop
  | .array items, k => ∃ items', k = .array items' ∧ ReorderedItems items items'
  | .object fields, k =>
    ∃ fields', k = .object fields' ∧
      ∃ between, ReorderedFields fields between ∧ between.Perm fields'
  | .null, k => k = .null
  | .bool b, k => k = .bool b
  | .integer n, k => k = .integer n
  | .real x, k => k = .real x
  | .text s, k => k = .text s
  | .unreadable, k => k = .unreadable

/-- Item by item. -/
def ReorderedItems : List Json → List Json → Prop
  | [], ks => ks = []
  | j :: rest, ks => ∃ k, j.Reordered k ∧ ∃ rest', ReorderedItems rest rest' ∧ ks = k :: rest'

/-- Field by field, under the same keys. -/
def ReorderedFields : List (String × Json) → List (String × Json) → Prop
  | [], ks => ks = []
  | (key, j) :: rest, ks =>
    ∃ k, j.Reordered k ∧ ∃ rest', ReorderedFields rest rest' ∧ ks = (key, k) :: rest'

end

mutual

/-- Every value has its fields in some order. -/
theorem reordered_refl : ∀ j : Json, j.Reordered j
  | .array items => ⟨items, rfl, reorderedItems_refl items⟩
  | .object fields => ⟨fields, rfl, fields, reorderedFields_refl fields, .refl _⟩
  | .null | .bool _ | .integer _ | .real _ | .text _ | .unreadable => rfl

theorem reorderedItems_refl : ∀ items : List Json, ReorderedItems items items
  | [] => rfl
  | j :: rest => ⟨j, reordered_refl j, rest, reorderedItems_refl rest, rfl⟩

theorem reorderedFields_refl : ∀ fields : List (String × Json), ReorderedFields fields fields
  | [] => rfl
  | (_, j) :: rest => ⟨j, reordered_refl j, rest, reorderedFields_refl rest, rfl⟩

end

/-! ### What stays the same -/

/-- How deep fields go does not depend on their order. -/
theorem depthFields_perm {fields fields' : List (String × Json)} (h : fields.Perm fields') :
    depthFields fields' = depthFields fields := by
  induction h with
  | nil => rfl
  | cons f _ ih => simp only [depthFields, ih]
  | swap f g _ => simp only [depthFields, Nat.max_left_comm]
  | trans _ _ ih₁ ih₂ => rw [ih₂, ih₁]

/-- Nor does whether they can be read. -/
theorem readableFields_perm {fields fields' : List (String × Json)} (h : fields.Perm fields') :
    readableFields fields' = readableFields fields := by
  induction h with
  | nil => rfl
  | cons f _ ih => simp only [readableFields, ih]
  | swap f g _ => simp only [readableFields, Bool.and_left_comm]
  | trans _ _ ih₁ ih₂ => rw [ih₂, ih₁]

/-- Nor whether they can be printed. -/
theorem printableFields_perm {fields fields' : List (String × Json)} (h : fields.Perm fields') :
    PrintableFields fields' ↔ PrintableFields fields := by
  induction h with
  | nil => rfl
  | cons f _ ih => simp only [PrintableFields, ih]
  | swap f g _ => simp only [PrintableFields, and_left_comm]
  | trans _ _ ih₁ ih₂ => rw [ih₂, ih₁]

mutual

/-- **The order of fields changes neither depth nor readability**, nor whether a value has a
text. -/
theorem Reordered.same : ∀ {j k : Json}, j.Reordered k →
    k.depth = j.depth ∧ k.readable = j.readable ∧ (k.Printable ↔ j.Printable)
  | .array items, _, ⟨items', rfl, h⟩ => by
    obtain ⟨hdepth, hreadable, hprintable⟩ := ReorderedItems.same h
    exact ⟨congrArg (· + 1) hdepth, hreadable, hprintable⟩
  | .object fields, _, ⟨fields', rfl, between, h, hperm⟩ => by
    obtain ⟨hdepth, hreadable, hprintable⟩ := ReorderedFields.same h
    exact ⟨congrArg (· + 1) ((depthFields_perm hperm).trans hdepth),
      (readableFields_perm hperm).trans hreadable, (printableFields_perm hperm).trans hprintable⟩
  | .null, _, rfl | .bool _, _, rfl | .integer _, _, rfl | .real _, _, rfl | .text _, _, rfl
  | .unreadable, _, rfl => ⟨rfl, rfl, .rfl⟩

theorem ReorderedItems.same : ∀ {items items' : List Json}, ReorderedItems items items' →
    depthItems items' = depthItems items ∧ readableItems items' = readableItems items ∧
      (PrintableItems items' ↔ PrintableItems items)
  | [], _, rfl => ⟨rfl, rfl, .rfl⟩
  | j :: rest, _, ⟨k, hfirst, rest', hrest, rfl⟩ => by
    obtain ⟨hdepth, hreadable, hprintable⟩ := Reordered.same hfirst
    obtain ⟨hdepths, hreadables, hprintables⟩ := ReorderedItems.same hrest
    simp only [depthItems, readableItems, PrintableItems, hdepth, hreadable, hprintable, hdepths,
      hreadables, hprintables, and_self]

theorem ReorderedFields.same : ∀ {fields fields' : List (String × Json)},
    ReorderedFields fields fields' →
    depthFields fields' = depthFields fields ∧ readableFields fields' = readableFields fields ∧
      (PrintableFields fields' ↔ PrintableFields fields)
  | [], _, rfl => ⟨rfl, rfl, .rfl⟩
  | (key, j) :: rest, _, ⟨k, hfirst, rest', hrest, rfl⟩ => by
    obtain ⟨hdepth, hreadable, hprintable⟩ := Reordered.same hfirst
    obtain ⟨hdepths, hreadables, hprintables⟩ := ReorderedFields.same hrest
    simp only [depthFields, readableFields, PrintableFields, hdepth, hreadable, hprintable,
      hdepths, hreadables, hprintables, and_self]

end

/-! ### Records -/

/-- **Fields under different keys are found in any order.** -/
theorem lookup_perm {fields fields' : List (String × Json)} (h : fields.Perm fields')
    (hdistinct : (fields.map Prod.fst).Nodup) (name : String) :
    fields'.lookup name = fields.lookup name := by
  induction h with
  | nil => rfl
  | cons f _ ih =>
    rw [List.lookup_cons, List.lookup_cons, ih (List.nodup_cons.mp hdistinct).2]
  -- two neighbours have different keys, so at most one of them is found
  | swap f g rest =>
    have hne : g.1 ≠ f.1 := fun heq =>
      (List.nodup_cons.mp hdistinct).1 (heq ▸ List.mem_cons_self)
    rw [List.lookup_cons, List.lookup_cons, List.lookup_cons, List.lookup_cons]
    cases hf : name == f.1 with
    | false => rfl
    | true =>
      have hg : (name == g.1) = false :=
        beq_eq_false_iff_ne.mpr fun heq => hne (heq.symm.trans (beq_iff_eq.mp hf))
      rw [hg]
  | trans h₁ _ ih₁ ih₂ =>
    rw [ih₂ ((h₁.map Prod.fst).nodup_iff.mp hdistinct), ih₁ hdistinct]

/-- Whether a record has a field, with what is inside in some order. -/
def Holds (record : List (String × Json)) (name : String) (j : Json) : Prop :=
  ∃ k, j.Reordered k ∧ record.lookup name = some k

/-- Whether a record has all of some fields. -/
def HoldsAll (record : List (String × Json)) : List (String × Json) → Prop
  | [] => True
  | (name, j) :: rest => Holds record name j ∧ HoldsAll record rest

/-- Fields that a record has one by one it has together. -/
theorem holdsAll_of_forall {record fields : List (String × Json)}
    (h : ∀ f ∈ fields, Holds record f.1 f.2) : HoldsAll record fields := by
  induction fields with
  | nil => trivial
  | cons f rest ih =>
    exact ⟨h f List.mem_cons_self, ih fun g hg => h g (List.mem_cons_of_mem _ hg)⟩

/-- Whether a reader takes a value from a part, with what is inside in any order. -/
def ReadsAs {β : Type} (f : Json → Option β) (j : Json) (x : β) : Prop :=
  ∀ k, j.Reordered k → f k = some x

/-- A field that is there is read where it is required. -/
theorem Holds.required {β : Type} {record : List (String × Json)} {name : String} {j : Json}
    {f : Json → Option β} {x : β} (h : Holds record name j) (hf : ReadsAs f j x) :
    Json.required record name f = some x := by
  obtain ⟨k, hk, hlookup⟩ := h
  rw [Json.required, hlookup]
  exact hf k hk

/-- And where it has a default. -/
theorem Holds.defaulted {β : Type} {record : List (String × Json)} {name : String} {j : Json}
    {f : Json → Option β} {x : β} (h : Holds record name j) (default : β) (hf : ReadsAs f j x) :
    Json.defaulted record name default f = some x := by
  obtain ⟨k, hk, hlookup⟩ := h
  rw [Json.defaulted, hlookup]
  exact hf k hk

/-- The keys stay in their places while what is inside is put in another order. -/
theorem ReorderedFields.map_fst : ∀ {fields fields' : List (String × Json)},
    ReorderedFields fields fields' → fields'.map Prod.fst = fields.map Prod.fst
  | [], _, rfl => rfl
  | (key, _) :: _, _, ⟨_, _, _, hrest, rfl⟩ =>
    congrArg (key :: ·) (ReorderedFields.map_fst hrest)

/-- Every field is found under its key, with what is inside in some order. -/
theorem ReorderedFields.holds {fields fields' : List (String × Json)}
    (h : ReorderedFields fields fields') (hdistinct : (fields.map Prod.fst).Nodup) :
    ∀ f ∈ fields, Holds fields' f.1 f.2 := by
  induction fields generalizing fields' with
  | nil => exact fun f hf => absurd hf List.not_mem_nil
  | cons first rest ih =>
    obtain ⟨key, j⟩ := first
    obtain ⟨k, hk, rest', hrest, rfl⟩ := h
    obtain ⟨habsent, hdistinct⟩ := List.nodup_cons.mp hdistinct
    intro f hf
    rcases List.mem_cons.mp hf with rfl | hf
    · exact ⟨k, hk, List.lookup_cons_self⟩
    · obtain ⟨k', hk', hlookup⟩ := ih hrest hdistinct f hf
      -- a later field has another key than the first, so it is looked for further on
      have hne : (f.1 == key) = false :=
        beq_eq_false_iff_ne.mpr fun heq => habsent (List.mem_map.mpr ⟨f, hf, heq⟩)
      refine ⟨k', hk', ?_⟩
      rw [List.lookup_cons, hne]
      exact hlookup

/-- **A record that was written with all its fields is read in any order of these.** -/
theorem Reordered.record {fields : List (String × Json)} {names : List String} {j : Json}
    (h : (Json.object fields).Reordered j) (hnames : fields.map Prod.fst = names)
    (hdistinct : names.Nodup) :
    ∃ record, j.known? names = some record ∧ j.record? names = some record ∧
      HoldsAll record fields := by
  obtain ⟨record, rfl, between, hbetween, hperm⟩ := h
  have hkeys : between.map Prod.fst = names := hbetween.map_fst.trans hnames
  have hbetweenDistinct : (between.map Prod.fst).Nodup := hkeys ▸ hdistinct
  -- all keys are known, so nothing is set aside
  have hall : record.filter (names.contains ·.1) = record := by
    refine List.filter_eq_self.mpr fun f hf => List.contains_iff_mem.mpr ?_
    rw [← hkeys]
    exact List.mem_map_of_mem (hperm.mem_iff.mpr hf)
  have hpairs : record.Pairwise (·.1 ≠ ·.1) :=
    List.pairwise_map.mp ((hperm.map Prod.fst).nodup_iff.mp hbetweenDistinct)
  have hknown : (Json.object record).known? names = some record := by
    simp only [known?, hall, hpairs, if_true]
  refine ⟨record, hknown, hknown, holdsAll_of_forall fun f hf => ?_⟩
  obtain ⟨k, hk, hlookup⟩ := hbetween.holds (hnames ▸ hdistinct) f hf
  exact ⟨k, hk, (lookup_perm hperm hbetweenDistinct f.1).trans hlookup⟩

end RobotMotion.Json
