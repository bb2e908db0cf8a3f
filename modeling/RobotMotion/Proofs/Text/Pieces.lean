/-!
# Texts cut at marks outside of quotes

A mark between double quotes belongs to the text around it, any other mark cuts the text
(`Text.pieces`). What holds no mark outside of quotes and closes its quotes stays whole
(`Text.Whole`), whatever stands within the quotes. Texts that are whole come back when they
are joined with a mark in between, or each ended by one, and cut again
(`Text.pieces_flatMap_cons`, `Text.terminated?_flatMap`).
-/

namespace RobotMotion.Text

/-- Whether quotes are open after a character. -/
def openAfter (quoted : Bool) (c : Char) : Bool := if c = '"' then !quoted else quoted

/-- What stands between marks outside of quotes, given whether quotes are open at the
beginning. -/
def pieces (mark : Char) : Bool → List Char → List (List Char)
  | _, [] => [[]]
  | quoted, c :: rest =>
    if !quoted && c = mark then [] :: pieces mark false rest
    else (pieces mark (openAfter quoted c) rest).modifyHead (c :: ·)

/-- Whether quotes are open after a text. Absent when a mark stands outside of quotes. -/
def scan? (mark : Char) : Bool → List Char → Option Bool
  | quoted, [] => some quoted
  | quoted, c :: rest =>
    if !quoted && c = mark then none else scan? mark (openAfter quoted c) rest

variable {mark : Char} {quoted : Bool} {s t : List Char}

theorem scan?_append (quoted : Bool) (s t : List Char) :
    scan? mark quoted (s ++ t) = (scan? mark quoted s).bind (scan? mark · t) := by
  induction s generalizing quoted with
  | nil => rfl
  | cons c rest ih =>
    rw [List.cons_append, scan?, scan?]
    split
    · rfl
    · exact ih _

/-- A text without marks outside of quotes is one piece. -/
theorem pieces_of_scan? (h : (scan? mark quoted s).isSome = true) :
    pieces mark quoted s = [s] := by
  induction s generalizing quoted with
  | nil => rfl
  | cons c rest ih =>
    rw [scan?] at h
    rw [pieces]
    split at h
    · cases h
    · rename_i hmark
      rw [if_neg hmark, ih h]
      rfl

/-- The first mark outside of quotes ends the first piece. -/
theorem pieces_append_cons (h : scan? mark quoted s = some false) (rest : List Char) :
    pieces mark quoted (s ++ mark :: rest) = s :: pieces mark false rest := by
  induction s generalizing quoted with
  | nil =>
    -- the quotes are closed here, so the mark cuts
    obtain rfl := Option.some.inj h
    simp [pieces]
  | cons c more ih =>
    rw [scan?] at h
    rw [List.cons_append, pieces]
    split at h
    · cases h
    · rename_i hmark
      rw [if_neg hmark, ih h]
      rfl

/-- A text that stays whole: it closes its quotes, and holds no mark outside of them. -/
def Whole (mark : Char) (s : List Char) : Prop := scan? mark false s = some false

theorem Whole.append (hs : Whole mark s) (ht : Whole mark t) : Whole mark (s ++ t) := by
  rw [Whole, scan?_append, hs]
  exact ht

/-- Where neither marks nor quotes stand, quotes stay as they are. -/
theorem scan?_of_not_mem (quoted : Bool) (hmark : mark ∉ s) (hquote : '"' ∉ s) :
    scan? mark quoted s = some quoted := by
  induction s generalizing quoted with
  | nil => rfl
  | cons c rest ih =>
    have hc : c ≠ mark := (List.ne_of_not_mem_cons hmark).symm
    have hcut : ¬(!quoted && decide (c = mark)) = true := by simp [hc]
    rw [scan?, if_neg hcut, openAfter, if_neg (List.ne_of_not_mem_cons hquote).symm]
    exact ih quoted (List.not_mem_of_not_mem_cons hmark) (List.not_mem_of_not_mem_cons hquote)

theorem whole_of_not_mem (hmark : mark ∉ s) (hquote : '"' ∉ s) : Whole mark s :=
  scan?_of_not_mem false hmark hquote

/-- Within quotes anything may stand but a quote. -/
theorem scan?_true_of_not_mem (hquote : '"' ∉ s) : scan? mark true s = some true := by
  induction s with
  | nil => rfl
  | cons c rest ih =>
    have hcut : ¬(!true && decide (c = mark)) = true := nofun
    rw [scan?, if_neg hcut, openAfter, if_neg (List.ne_of_not_mem_cons hquote).symm]
    exact ih (List.not_mem_of_not_mem_cons hquote)

/-- **What stands in quotes stays whole.** -/
theorem whole_quoted (hmark : mark ≠ '"') (hquote : '"' ∉ s) :
    Whole mark ('"' :: (s ++ ['"'])) := by
  -- the first quote opens, and only the last one closes again
  have hopen : ¬(!false && decide ('"' = mark)) = true := by simp [hmark.symm]
  rw [Whole, scan?, if_neg hopen, openAfter, if_pos rfl, Bool.not_false, scan?_append,
    scan?_true_of_not_mem hquote]
  rfl

/-- **Whole texts with a mark in front of each but the first are cut apart again.** -/
theorem pieces_flatMap_cons {texts : List (List Char)} (hs : Whole mark s)
    (h : ∀ t ∈ texts, Whole mark t) :
    pieces mark false (s ++ texts.flatMap (mark :: ·)) = s :: texts := by
  induction texts generalizing s with
  | nil =>
    rw [List.flatMap_nil, List.append_nil]
    exact pieces_of_scan? (Option.isSome_of_eq_some hs)
  | cons t rest ih =>
    rw [List.flatMap_cons, List.cons_append, pieces_append_cons hs,
      ih (h t List.mem_cons_self) fun u hu => h u (List.mem_cons_of_mem _ hu)]

/-- The texts that a mark outside of quotes ends. Absent when something comes after the
last mark. -/
def terminated? (mark : Char) (s : List Char) : Option (List (List Char)) :=
  let all := pieces mark false s
  if all.getLast? = some [] then some all.dropLast else none

/-- **Whole texts that a mark ends each are cut apart again.** -/
theorem terminated?_flatMap {texts : List (List Char)} (h : ∀ t ∈ texts, Whole mark t) :
    terminated? mark (texts.flatMap (· ++ [mark])) = some texts := by
  have hpieces : pieces mark false (texts.flatMap (· ++ [mark])) = texts ++ [[]] := by
    induction texts with
    | nil => rfl
    | cons t rest ih =>
      rw [List.flatMap_cons, List.append_assoc, List.singleton_append,
        pieces_append_cons (h t List.mem_cons_self),
        ih fun u hu => h u (List.mem_cons_of_mem _ hu), List.cons_append]
  simp [terminated?, hpieces]

end RobotMotion.Text
