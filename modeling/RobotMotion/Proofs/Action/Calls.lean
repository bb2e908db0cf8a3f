import RobotMotion.Action.Instruction
import RobotMotion.Proofs.Decimal.Numeral
import RobotMotion.Proofs.Text.Reading
import Mathlib.Data.List.Basic

/-!
# The text of a call

A call is read from left to right: the verb up to its bracket, then argument after argument.
A quoted text ends at the quote that closes it. Any other argument is a word of letters,
digits, points and minus signs, so it ends where one of those no longer stands
(`Argument.read?_render_append`), and no number is so strange that it makes no word. Calls
with one text therefore have one verb and as many arguments, which read the same one by one
(`Call.read_of_render_eq`).
-/

namespace RobotMotion

/-! ### Arguments -/

/-- An argument as it is read: a word, or a text between quotes. -/
inductive Argument.Read where
  | word (text : String)
  | quoted (text : String)

namespace Argument

/-- What is read of an argument. Numbers are words and count as they are shown. -/
def read : Argument → Read
  | .text s => .quoted s
  | a => .word a.render

/-- The argument in front of a text, and what follows it. -/
def read? (s : List Char) : Option (Read × List Char) :=
  match Text.readLiteral? s, s.takeWhile Decimal.isNumeral with
  | some (content, rest), _ => some (.quoted (String.ofList content), rest)
  | none, [] => none
  | none, characters => some (.word (String.ofList characters), s.dropWhile Decimal.isNumeral)

/-- A word is made of the characters that numbers are made of. -/
def IsWord (s : String) : Prop := Decimal.Numeral s ∧ s ≠ ""

instance (s : String) : Decidable (IsWord s) := inferInstanceAs (Decidable (_ ∧ _))

/-- No word goes on into a text. -/
def Ends (rest : List Char) : Prop := ∀ c ∈ rest.head?, Decimal.isNumeral c = false

section Words

variable {word : String} {rest : List Char}

/-- A word is cut off where it ends. -/
theorem takeWhile_word_append (hword : Decimal.Numeral word) (hrest : Ends rest) :
    (word.toList ++ rest).takeWhile Decimal.isNumeral = word.toList := by
  rw [List.takeWhile_append_of_pos hword]
  cases rest with
  | nil => exact List.append_nil _
  | cons c more => rw [List.takeWhile_cons_of_neg (by simp [hrest c rfl]), List.append_nil]

/-- What follows a word is left. -/
theorem dropWhile_word_append (hword : Decimal.Numeral word) (hrest : Ends rest) :
    (word.toList ++ rest).dropWhile Decimal.isNumeral = rest := by
  rw [List.dropWhile_append_of_pos hword]
  cases rest with
  | nil => rfl
  | cons c more => rw [List.dropWhile_cons_of_neg (by simp [hrest c rfl])]

/-- A word is read to its end. -/
theorem read?_word_append (h : IsWord word) (hrest : Ends rest) :
    read? (word.toList ++ rest) = some (.word word, rest) := by
  have hquote : '"' ∉ word.toList := h.1.not_mem rfl
  obtain ⟨c, more, hcons⟩ := List.exists_cons_of_ne_nil (String.toList_eq_nil_iff.not.mpr h.2)
  -- a word does not begin with a quote, so it is no literal
  have hliteral : Text.readLiteral? (word.toList ++ rest) = none := by
    rw [hcons, List.cons_append, Text.readLiteral?]
    rintro _ ⟨⟩
    exact hquote (hcons ▸ List.mem_cons_self)
  have hword : String.ofList (c :: more) = word := hcons ▸ String.ofList_toList
  rw [read?, hliteral, takeWhile_word_append h.1 hrest, dropWhile_word_append h.1 hrest, hcons,
    ← hword]

end Words

/-- **An argument is read to its end**, where no word goes on. -/
theorem read?_render_append (a : Argument) {rest : List Char} (hrest : Ends rest) :
    read? (a.render.toList ++ rest) = some (a.read, rest) := by
  cases a with
  | number x =>
    exact read?_word_append ⟨Decimal.numeral_trimmed x, Decimal.trimmed_ne_empty x⟩ hrest
  | whole n =>
    exact read?_word_append ⟨Decimal.numeral_natural n, Decimal.natural_ne_empty n⟩ hrest
  | flag b => cases b <;> exact read?_word_append (by decide) hrest
  | text s =>
    rw [render, read?, Text.readLiteral?_quoted_append]
    exact congrArg (fun content => some (Read.quoted content, rest)) String.ofList_toList

/-- An argument and what follows it can be told apart. -/
theorem read_eq_of_append_eq {a b : Argument} {s t : List Char} (hs : Ends s) (ht : Ends t)
    (h : a.render.toList ++ s = b.render.toList ++ t) : a.read = b.read ∧ s = t := by
  have hread := read?_render_append a hs
  rw [h, read?_render_append b ht, Option.some.injEq, Prod.mk.injEq] at hread
  exact ⟨hread.1.symm, hread.2.symm⟩

end Argument

/-! ### Calls -/

namespace Call

open Argument (Ends IsWord read?_word_append read?_render_append read_eq_of_append_eq)

/-- What follows an argument in a call: the other arguments, and the bracket. -/
def closing : List Argument → List Char
  | [] => [')', ';']
  | a :: others => ',' :: ' ' :: (a.render.toList ++ closing others)

/-- What follows the bracket that opens a call. -/
def inside : List Argument → List Char
  | [] => closing []
  | a :: others => a.render.toList ++ closing others

/-- No word goes on into a comma or the bracket at the end. -/
theorem ends_closing (arguments : List Argument) : Ends (closing arguments) := by
  cases arguments <;>
    · rintro c ⟨⟩
      rfl

theorem toList_intercalate (arguments : List Argument) :
    (String.intercalate ", " (arguments.map Argument.render)).toList ++ [')', ';'] =
      inside arguments := by
  induction arguments with
  | nil => rfl
  | cons a others ih =>
    cases others with
    | nil => simp [inside, closing]
    | cons b more =>
      rw [inside, closing, ← inside, ← ih]
      simp

/-- The characters of a call: verb, bracket, and what stands behind it. -/
theorem toList_render (c : Call) :
    c.render.toList = c.verb.toList ++ '(' :: inside c.arguments := by
  rw [← toList_intercalate]
  simp [render]

theorem read_eq_of_closing_eq {as bs : List Argument} (h : closing as = closing bs) :
    as.map Argument.read = bs.map Argument.read := by
  induction as generalizing bs with
  | nil =>
    cases bs with
    | nil => rfl
    | cons b bs => cases h
  | cons a as ih =>
    cases bs with
    | nil => cases h
    | cons b bs =>
      -- behind the comma and the blank both go on with an argument
      have hbehind := (List.cons.inj (List.cons.inj h).2).2
      obtain ⟨hread, hrest⟩ :=
        read_eq_of_append_eq (ends_closing as) (ends_closing bs) hbehind
      rw [List.map_cons, List.map_cons, hread, ih hrest]

/-- A call with arguments goes on otherwise than one without. -/
theorem inside_ne_closing (a : Argument) (others : List Argument) :
    inside (a :: others) ≠ closing [] := by
  intro h
  have hread := read?_render_append a (ends_closing others)
  rw [← inside, h] at hread
  cases hread

/-- Calls that go on in the same way have the same arguments, as far as they are read. -/
theorem read_eq_of_inside_eq {as bs : List Argument} (h : inside as = inside bs) :
    as.map Argument.read = bs.map Argument.read := by
  cases as with
  | nil =>
    cases bs with
    | nil => rfl
    | cons b bs => exact (inside_ne_closing b bs h.symm).elim
  | cons a as =>
    cases bs with
    | nil => exact (inside_ne_closing a as h).elim
    | cons b bs =>
      obtain ⟨hread, hrest⟩ := read_eq_of_append_eq (ends_closing as) (ends_closing bs) h
      rw [List.map_cons, List.map_cons, hread, read_eq_of_closing_eq hrest]

/-- **Calls with one text have one verb and read the same**, argument by argument. -/
theorem read_of_render_eq {c d : Call} (hc : IsWord c.verb) (hd : IsWord d.verb)
    (h : c.render = d.render) :
    c.verb = d.verb ∧ c.arguments.map Argument.read = d.arguments.map Argument.read := by
  have hopen (s : List Char) : Ends ('(' :: s) := by
    rintro c ⟨⟩
    rfl
  -- the verb is the word in front of the bracket
  have hread := read?_word_append hc (hopen (inside c.arguments))
  rw [← toList_render, h, toList_render, read?_word_append hd (hopen _)] at hread
  obtain ⟨hverb, hinside⟩ := Prod.mk.inj (Option.some.inj hread)
  exact ⟨(Argument.Read.word.inj hverb).symm,
    read_eq_of_inside_eq (List.cons.inj hinside).2.symm⟩

end Call

end RobotMotion
