import RobotMotion.Proofs.Decimal.Numeral
import RobotMotion.Text.Quoted
import Mathlib.Data.List.Basic

/-!
# Texts on one line

A text is unbroken when it holds no line break. Joining unbroken texts, quoting them and
writing numbers between them makes unbroken texts. Lines that are unbroken come back when
they are joined by line breaks and cut apart again (`Text.splitOn_intercalate_newline`).
-/

namespace RobotMotion.Text

/-- Whether a character ends a line. -/
def isBreak (c : Char) : Bool := c == '\n' || c == '\r'

/-- A text on one line. -/
def Unbroken (s : String) : Prop := ∀ c ∈ s.toList, isBreak c = false

instance (s : String) : Decidable (Unbroken s) :=
  List.decidableBAll (isBreak · = false) s.toList

variable {s t : String}

@[simp] theorem unbroken_append : Unbroken (s ++ t) ↔ Unbroken s ∧ Unbroken t := by
  simp only [Unbroken, String.toList_append, List.forall_mem_append]

@[simp] theorem unbroken_ofList (cs : List Char) :
    Unbroken (String.ofList cs) ↔ ∀ c ∈ cs, isBreak c = false := by
  rw [Unbroken, String.toList_ofList]

/-- Unbroken texts joined by an unbroken one are unbroken. -/
theorem unbroken_intercalate (hs : Unbroken s) {texts : List String}
    (h : ∀ t ∈ texts, Unbroken t) : Unbroken (String.intercalate s texts) := by
  induction texts with
  | nil => exact nofun
  | cons first rest ih =>
    have hfirst := h first List.mem_cons_self
    have hrest := ih fun t ht => h t (List.mem_cons_of_mem _ ht)
    cases rest with
    | nil => simpa [Unbroken] using hfirst
    | cons second more =>
      have hsplit : String.intercalate s (first :: second :: more) =
          first ++ s ++ String.intercalate s (second :: more) := by
        simp
      rw [hsplit]
      simp only [unbroken_append]
      exact ⟨⟨hfirst, hs⟩, hrest⟩

theorem unbroken_of_numeral (h : Decimal.Numeral s) : Unbroken s := by
  intro c hc
  have hnumeral := h c hc
  rw [isBreak, Bool.or_eq_false_iff, beq_eq_false_iff_ne, beq_eq_false_iff_ne]
  constructor <;>
    · rintro rfl
      revert hnumeral
      decide

@[simp] theorem unbroken_natural (n : Nat) : Unbroken (Decimal.natural n) :=
  unbroken_of_numeral (Decimal.numeral_natural n)

@[simp] theorem unbroken_integer (n : Int) : Unbroken (Decimal.integer n) :=
  unbroken_of_numeral (Decimal.numeral_integer n)

@[simp] theorem unbroken_fixed (x : Float) (places : Nat) : Unbroken (Decimal.fixed x places) :=
  unbroken_of_numeral (Decimal.numeral_fixed x places)

@[simp] theorem unbroken_plain (x : Float) : Unbroken (Decimal.plain x) :=
  unbroken_of_numeral (Decimal.numeral_plain x)

@[simp] theorem unbroken_trimmed (x : Float) : Unbroken (Decimal.trimmed x) :=
  unbroken_of_numeral (Decimal.numeral_trimmed x)

/-- Escaping brings in backslashes only. -/
theorem mem_escape {c : Char} {cs : List Char} (h : c ∈ escape cs) : c = '\\' ∨ c ∈ cs := by
  induction cs with
  | nil => cases h
  | cons first rest ih =>
    rw [escape] at h
    split at h
    · rcases List.mem_cons.mp h with h | h
      · exact .inl h
      · rcases List.mem_cons.mp h with h | h
        · exact .inr (h ▸ List.mem_cons_self)
        · exact (ih h).imp_right (List.mem_cons_of_mem _)
    · rcases List.mem_cons.mp h with h | h
      · exact .inr (h ▸ List.mem_cons_self)
      · exact (ih h).imp_right (List.mem_cons_of_mem _)

/-- Quoting brings in no line break. -/
theorem Unbroken.quoted (h : Unbroken s) : Unbroken (quoted s) := by
  have hquote : Unbroken "\"" := by decide
  rw [quoted_eq]
  simp only [unbroken_append, unbroken_ofList]
  refine ⟨⟨hquote, fun c hc => ?_⟩, hquote⟩
  rcases mem_escape hc with rfl | hc
  · decide
  · exact h c hc

/-- A separator at the end is one before an empty text. -/
theorem intercalate_concat_nil (separator : Char) {texts : List (List Char)} (h : texts ≠ []) :
    [separator].intercalate (texts ++ [[]]) = [separator].intercalate texts ++ [separator] := by
  induction texts with
  | nil => exact absurd rfl h
  | cons first rest ih =>
    cases rest with
    | nil => simp
    | cons second more =>
      rw [List.cons_append, List.cons_append, List.intercalate_cons_cons,
        List.intercalate_cons_cons, ← List.cons_append, ih (List.cons_ne_nil _ _)]
      simp

/-- Lines joined by line breaks, with one at the end, are cut apart again. -/
theorem splitOn_intercalate_newline {lines : List String} (hsome : lines ≠ [])
    (h : ∀ line ∈ lines, Unbroken line) :
    (String.intercalate "\n" lines ++ "\n").toList.splitOn '\n' =
      lines.map String.toList ++ [[]] := by
  have hnot : ∀ cs ∈ lines.map String.toList ++ [[]], '\n' ∉ cs := by
    intro cs hcs hmem
    rcases List.mem_append.mp hcs with hcs | hcs
    · obtain ⟨line, hline, rfl⟩ := List.mem_map.mp hcs
      exact absurd (h line hline _ hmem) (by decide)
    · rw [List.mem_singleton.mp hcs] at hmem
      cases hmem
  -- with a break at the end, the last piece is the empty text behind it
  have hjoined : (String.intercalate "\n" lines ++ "\n").toList =
      ['\n'].intercalate (lines.map String.toList ++ [[]]) := by
    have hsome' : lines.map String.toList ≠ [] := fun hnil => hsome (List.map_eq_nil_iff.mp hnil)
    rw [intercalate_concat_nil '\n' hsome', String.toList_append, String.toList_intercalate]
    rfl
  rw [hjoined, List.splitOn_intercalate '\n' hnot (by simp)]

/-- What is cut apart at a character does not hold it. -/
theorem notMem_of_mem_splitOn {c : Char} (cs : List Char) : ∀ piece ∈ cs.splitOn c, c ∉ piece := by
  rw [List.splitOn]
  induction cs with
  | nil =>
    intro piece hpiece
    rw [List.splitOnP_nil] at hpiece
    rw [List.mem_singleton.mp hpiece]
    exact List.not_mem_nil
  | cons first rest ih =>
    rw [List.splitOnP_cons_eq_if_modifyHead]
    split
    · exact List.forall_mem_cons.mpr ⟨List.not_mem_nil, ih⟩
    · rename_i hfirst
      intro piece hpiece
      -- a character that does not separate joins the first piece of the rest
      cases hrest : rest.splitOnP (· == c) with
      | nil =>
        rw [hrest] at hpiece
        cases hpiece
      | cons head tail =>
        rw [hrest, List.modifyHead_cons] at hpiece
        rw [hrest, List.forall_mem_cons] at ih
        rcases List.mem_cons.mp hpiece with rfl | hpiece
        · intro hmem
          rcases List.mem_cons.mp hmem with rfl | hmem
          · exact hfirst (beq_self_eq_true c)
          · exact ih.1 hmem
        · exact ih.2 piece hpiece

end RobotMotion.Text
