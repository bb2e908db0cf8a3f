import RobotMotion.Text.Blank
import Mathlib.Data.List.TakeWhile

/-!
# Texts and the blanks around them

Taking the blanks off a text leaves the one text without blanks at its ends that the text is,
apart from blanks around it (`trimmed_eq_iff`). The first word of a text is what stands
between its leading blanks and the next blank (`firstWord_eq_iff`).
-/

namespace RobotMotion.Text

/-- A text of blanks. -/
def Blank (s : List Char) : Prop := ∀ c ∈ s, isBlank c = true

/-- A text that neither begins nor ends with a blank. -/
structure Tight (s : List Char) : Prop where
  first : ∀ c, s.head? = some c → isBlank c = false
  last : ∀ c, s.getLast? = some c → isBlank c = false

/-- A text that does not go on, or goes on with a blank. -/
def BlankNext (s : List Char) : Prop := ∀ c, s.head? = some c → isBlank c = true

/-- A text without any blank. -/
def Unspaced (s : List Char) : Prop := ∀ c ∈ s, isBlank c = false

variable {s core before after lead word rest : List Char}

/-- Neither digits nor letters are blank, nor is anything between them. -/
theorem isBlank_of_between {c : Char} (hlow : '0'.toNat ≤ c.toNat) (hhigh : c.toNat ≤ 'z'.toNat) :
    isBlank c = false := by
  have hlow' : 48 ≤ c.toNat := hlow
  have hhigh' : c.toNat ≤ 122 := hhigh
  simp [isBlank]
  omega

theorem isBlank_of_isDigit {c : Char} (h : c.isDigit = true) : isBlank c = false := by
  obtain ⟨hlow, hhigh⟩ := Char.isDigit_iff_toNat.mp h
  exact isBlank_of_between hlow (hhigh.trans (by decide))

theorem blank_nil : Blank [] := fun _ h => absurd h List.not_mem_nil

theorem blank_takeWhile (s : List Char) : Blank (s.takeWhile isBlank) :=
  fun _ h => List.mem_takeWhile_imp h

/-- Blanks read backwards are blanks. -/
theorem Blank.reverse (h : Blank s) : Blank s.reverse := fun c hc => h c (List.mem_reverse.mp hc)

/-- Blanks in front are dropped. -/
theorem Blank.dropWhile_append (h : Blank before) (s : List Char) :
    (before ++ s).dropWhile isBlank = s.dropWhile isBlank :=
  List.dropWhile_append_of_pos h

/-- What is left after the leading blanks does not begin with one. -/
theorem head?_dropWhile_isBlank (s : List Char) :
    ∀ c, (s.dropWhile isBlank).head? = some c → isBlank c = false := by
  intro c hc
  have hhead := List.head?_dropWhile_not isBlank s
  rw [hc] at hhead
  exact hhead

/-- A text that does not begin with a blank has no leading blanks to drop. -/
theorem dropWhile_isBlank_eq_self (h : ∀ c, s.head? = some c → isBlank c = false) :
    s.dropWhile isBlank = s := by
  cases s with
  | nil => rfl
  | cons c rest => exact List.dropWhile_cons_of_neg (by rw [h c rfl]; exact Bool.false_ne_true)

theorem Unspaced.tight (h : Unspaced s) : Tight s where
  first c hc := h c (List.mem_of_mem_head? hc)
  last c hc := h c (List.mem_of_getLast? hc)

/-! ### Blanks at the ends -/

/-- Behind what is left of a text stand the blanks at its end. -/
theorem exists_trimmed_append (s : List Char) :
    ∃ after, trimmed s ++ after = s.dropWhile isBlank ∧ Blank after := by
  set t : List Char := s.dropWhile isBlank with ht
  refine ⟨(t.reverse.takeWhile isBlank).reverse, ?_, (blank_takeWhile t.reverse).reverse⟩
  rw [trimmed, ← ht, ← List.reverse_append, List.takeWhile_append_dropWhile, List.reverse_reverse]

/-- A text is what is left of it, between blanks. -/
theorem exists_trimmed (s : List Char) :
    ∃ before after, s = before ++ trimmed s ++ after ∧ Blank before ∧ Blank after := by
  obtain ⟨after, htail, hafter⟩ := exists_trimmed_append s
  refine ⟨s.takeWhile isBlank, after, ?_, blank_takeWhile s, hafter⟩
  rw [List.append_assoc, htail, List.takeWhile_append_dropWhile]

/-- No blank is left at the ends. -/
theorem tight_trimmed (s : List Char) : Tight (trimmed s) := by
  constructor
  · intro c hc
    obtain ⟨after, htail, -⟩ := exists_trimmed_append s
    -- what is left begins as the text does behind its leading blanks
    refine head?_dropWhile_isBlank s c ?_
    rw [← htail, List.head?_append, hc]
    rfl
  · intro c hc
    rw [trimmed, List.getLast?_reverse] at hc
    exact head?_dropWhile_isBlank _ c hc

/-- Blanks around a text without blanks at its ends are taken off. -/
theorem Tight.trimmed_append (h : Tight core) (hbefore : Blank before) (hafter : Blank after) :
    trimmed (before ++ core ++ after) = core := by
  have hfront : (before ++ core ++ after).dropWhile isBlank =
      (core ++ after).dropWhile isBlank := by
    rw [List.append_assoc, hbefore.dropWhile_append]
  -- of blanks alone nothing is left; otherwise the first character stops the blanks in front
  cases core with
  | nil =>
    have hnone : after.dropWhile isBlank = [] := List.dropWhile_eq_nil_iff.mpr hafter
    rw [trimmed, hfront, List.nil_append, hnone]
    rfl
  | cons c rest =>
    have hkept : (c :: rest ++ after).dropWhile isBlank = c :: rest ++ after :=
      dropWhile_isBlank_eq_self h.first
    rw [trimmed, hfront, hkept, List.reverse_append, hafter.reverse.dropWhile_append,
      dropWhile_isBlank_eq_self, List.reverse_reverse]
    intro d hd
    rw [List.head?_reverse] at hd
    exact h.last d hd

/-- **What is left of a text is all of it but the blanks around it.** -/
theorem trimmed_eq_iff : trimmed s = core ↔
    Tight core ∧ ∃ before after, s = before ++ core ++ after ∧ Blank before ∧ Blank after := by
  constructor
  · rintro rfl
    exact ⟨tight_trimmed s, exists_trimmed s⟩
  · rintro ⟨hcore, before, after, rfl, hbefore, hafter⟩
    exact hcore.trimmed_append hbefore hafter

/-- A text without blanks at its ends is all that is left of it. -/
theorem Tight.trimmed_eq (h : Tight s) : trimmed s = s :=
  trimmed_eq_iff.mpr ⟨h, [], [], by simp, blank_nil, blank_nil⟩

/-! ### The first word -/

/-- A word ends at the next blank. -/
theorem Unspaced.takeWhile_append (hword : Unspaced word) (hrest : BlankNext rest) :
    (word ++ rest).takeWhile (!isBlank ·) = word := by
  have hall : ∀ c ∈ word, (!isBlank c) = true := fun c hc => by rw [hword c hc]; rfl
  rw [List.takeWhile_append_of_pos hall]
  cases rest with
  | nil => exact List.append_nil word
  | cons c rest =>
    rw [List.takeWhile_cons_of_neg (by rw [hrest c rfl]; exact Bool.false_ne_true),
      List.append_nil]

/-- **The first word stands between the leading blanks and the next blank.** -/
theorem firstWord_eq_iff (hne : word ≠ []) : firstWord s = word ↔
    Unspaced word ∧ ∃ lead rest, s = lead ++ word ++ rest ∧ Blank lead ∧ BlankNext rest := by
  constructor
  · rintro rfl
    refine ⟨fun c hc => ?_, s.takeWhile isBlank, (s.dropWhile isBlank).dropWhile (!isBlank ·), ?_,
      blank_takeWhile s, fun c hc => ?_⟩
    · simpa using List.mem_takeWhile_imp hc
    · rw [List.append_assoc, firstWord, List.takeWhile_append_dropWhile,
        List.takeWhile_append_dropWhile]
    · have hhead := List.head?_dropWhile_not (!isBlank ·) (s.dropWhile isBlank)
      rw [hc] at hhead
      simpa using hhead
  · rintro ⟨hword, lead, rest, rfl, hlead, hrest⟩
    rw [firstWord, List.append_assoc, hlead.dropWhile_append, dropWhile_isBlank_eq_self,
      hword.takeWhile_append hrest]
    intro c hc
    -- a word that is not empty begins with no blank, so no more than `lead` is dropped
    obtain ⟨d, more, rfl⟩ := List.exists_cons_of_ne_nil hne
    obtain rfl := Option.some.inj hc
    exact hword d List.mem_cons_self

end RobotMotion.Text
