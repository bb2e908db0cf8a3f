import RobotMotion.Program.Rapid
import Mathlib.Data.List.Infix

/-!
# String literals

A string literal stands between double quotes, and a double quote in the text is written
twice. `readLiteral?` reads a literal the way a controller does: a pair of quotes stands for
one, and a quote alone ends the literal.

Doubling comes before the cut, so the cut may fall between the two quotes of a pair
(`SplitsPair`). Wherever it does not, the literal reads back as a prefix of the text and ends
where it should. Where it does, the closing quote completes the pair, and the literal does
not end at all: it goes on into what follows (`readLiteral?_of_split`).
-/

namespace RobotMotion.Rapid

/-! ### Reading a literal -/

/-- The text up to the quote that closes a literal, and what follows that quote. -/
def readBody? : List Char → Option (List Char × List Char)
  | [] => none
  | [c] => if c = '"' then some ([], []) else none
  | c :: d :: rest =>
    if c = '"' then
      if d = '"' then (readBody? rest).map (Prod.map ('"' :: ·) id) else some ([], d :: rest)
    else (readBody? (d :: rest)).map (Prod.map (c :: ·) id)

/-- The text of the literal in front, and what follows it. -/
def readLiteral? : List Char → Option (List Char × List Char)
  | [] => none
  | c :: rest => if c = '"' then readBody? rest else none

/-- Double quotes occur in adjacent pairs only. -/
inductive Paired : List Char → Prop
  | nil : Paired []
  | char {c : Char} {s : List Char} : c ≠ '"' → Paired s → Paired (c :: s)
  | pair {s : List Char} : Paired s → Paired ('"' :: '"' :: s)

/-- What makes a literal a good one for a text: it stands between quotes with at most 80
characters of paired quotes inside, and reads back to its last character as a prefix of the
text, the whole of it where there is room. -/
structure WellFormed (text literal : List Char) : Prop where
  body : ∃ body, literal = '"' :: (body ++ ['"']) ∧ body.length ≤ 80 ∧ Paired body
  reads : ∃ s, readLiteral? literal = some (s, []) ∧ s <+: text
  whole : (doubleQuotes text).length ≤ 80 → readLiteral? literal = some (text, [])

/-! ### Doubled quotes -/

@[simp]
theorem doubleQuotes_nil : doubleQuotes [] = [] := rfl

theorem doubleQuotes_quote (s : List Char) :
    doubleQuotes ('"' :: s) = '"' :: '"' :: doubleQuotes s := rfl

theorem doubleQuotes_char {c : Char} (hc : c ≠ '"') (s : List Char) :
    doubleQuotes (c :: s) = c :: doubleQuotes s := by
  simp [doubleQuotes, hc]

/-- Each character is doubled for itself. -/
theorem doubleQuotes_append (s t : List Char) :
    doubleQuotes (s ++ t) = doubleQuotes s ++ doubleQuotes t := List.flatMap_append

/-- Doubling pairs the quotes. -/
theorem paired_doubleQuotes (s : List Char) : Paired (doubleQuotes s) := by
  induction s with
  | nil => exact .nil
  | cons c s ih =>
    by_cases hc : c = '"'
    · subst hc
      exact .pair ih
    · rw [doubleQuotes_char hc]
      exact .char hc ih

/-- Reading goes on behind any other character. -/
theorem readBody?_char {c : Char} (hc : c ≠ '"') (rest : List Char) :
    readBody? (c :: rest) = (readBody? rest).map (Prod.map (c :: ·) id) := by
  cases rest with
  | nil => simp [readBody?, hc]
  | cons d rest => simp only [readBody?, if_neg hc]

/-- A pair of quotes stands for one. -/
theorem readBody?_pair (rest : List Char) :
    readBody? ('"' :: '"' :: rest) = (readBody? rest).map (Prod.map ('"' :: ·) id) := by
  simp only [readBody?, if_true]

/-- A quote that no other follows closes the literal. -/
theorem readBody?_closing {rest : List Char} (hrest : rest.head? ≠ some '"') :
    readBody? ('"' :: rest) = some ([], rest) := by
  cases rest with
  | nil => rfl
  | cons d rest =>
    have hd : d ≠ '"' := fun h => hrest (congrArg some h)
    simp only [readBody?, if_true, if_neg hd]

/-- **A text with its quotes doubled is read back**, and reading goes on behind it. -/
theorem readBody?_doubleQuotes_append (s rest : List Char) :
    readBody? (doubleQuotes s ++ rest) = (readBody? rest).map (Prod.map (s ++ ·) id) := by
  induction s with
  | nil => exact (congrFun Option.map_id (readBody? rest)).symm
  | cons c s ih =>
    by_cases hc : c = '"'
    · subst hc
      rw [doubleQuotes_quote, List.cons_append, List.cons_append, readBody?_pair, ih,
        Option.map_map]
      rfl
    · rw [doubleQuotes_char hc, List.cons_append, readBody?_char hc, ih, Option.map_map]
      rfl

/-! ### The cut -/

/-- The cut falls between the two quotes that stand for one character of a text. -/
def SplitsPair (text : List Char) : Prop :=
  ∃ n, text[n]? = some '"' ∧ (doubleQuotes (text.take n)).length + 1 = maxStringLength

/-- A cut through doubled quotes leaves a prefix of the text with its quotes doubled, and
perhaps the first quote of one pair. -/
theorem take_doubleQuotes (s : List Char) (k : Nat) :
    (∃ n, (doubleQuotes s).take k = doubleQuotes (s.take n)) ∨
      ∃ n, s[n]? = some '"' ∧ (doubleQuotes (s.take n)).length + 1 = k := by
  induction s generalizing k with
  | nil => exact .inl ⟨0, by simp⟩
  | cons c s ih =>
    by_cases hc : c = '"'
    · subst hc
      -- a quote takes two places, and a cut behind the first of them splits the pair
      -- any other character takes one place, so no cut splits it
      match k with
      | 0 => exact .inl ⟨0, rfl⟩
      | 1 => exact .inr ⟨0, rfl, rfl⟩
      | k + 2 =>
        rcases ih k with ⟨n, hn⟩ | ⟨n, hquote, hlen⟩
        · refine .inl ⟨n + 1, ?_⟩
          rw [List.take_succ_cons, doubleQuotes_quote, doubleQuotes_quote, List.take_succ_cons,
            List.take_succ_cons, hn]
        · refine .inr ⟨n + 1, hquote, ?_⟩
          rw [List.take_succ_cons, doubleQuotes_quote, List.length_cons, List.length_cons]
          omega
    · match k with
      | 0 => exact .inl ⟨0, rfl⟩
      | k + 1 =>
        rcases ih k with ⟨n, hn⟩ | ⟨n, hquote, hlen⟩
        · refine .inl ⟨n + 1, ?_⟩
          rw [List.take_succ_cons, doubleQuotes_char hc, doubleQuotes_char hc,
            List.take_succ_cons, hn]
        · refine .inr ⟨n + 1, hquote, ?_⟩
          rw [List.take_succ_cons, doubleQuotes_char hc, List.length_cons]
          omega

/-- Where the cut splits a pair, its first quote is the last character inside. -/
theorem take_doubleQuotes_of_split {text : List Char} {n : Nat} (hquote : text[n]? = some '"')
    (hlen : (doubleQuotes (text.take n)).length + 1 = maxStringLength) :
    (doubleQuotes text).take maxStringLength = doubleQuotes (text.take n) ++ ['"'] := by
  have htext : text = text.take n ++ '"' :: text.drop (n + 1) := by
    obtain ⟨hn, hget⟩ := List.getElem?_eq_some_iff.mp hquote
    rw [← hget, List.getElem_cons_drop, List.take_append_drop]
  conv_lhs => rw [htext]
  rw [doubleQuotes_append, doubleQuotes_quote, ← hlen, List.take_length_add_append]
  rfl

theorem toList_stringLiteral (text : String) :
    (stringLiteral text).toList
      = '"' :: ((doubleQuotes text.toList).take maxStringLength ++ ['"']) := by
  simp [stringLiteral]

/-- Where the cut keeps a prefix of the text, the literal reads back as that prefix, and ends
where it should before anything but a quote. -/
theorem readLiteral?_of_cut {text : String} {s rest : List Char}
    (hcut : (doubleQuotes text.toList).take maxStringLength = doubleQuotes s)
    (hrest : rest.head? ≠ some '"') :
    readLiteral? ((stringLiteral text).toList ++ rest) = some (s, rest) := by
  rw [toList_stringLiteral, hcut, List.cons_append, List.append_assoc]
  change readBody? (doubleQuotes s ++ '"' :: rest) = _
  rw [readBody?_doubleQuotes_append, readBody?_closing hrest]
  simp

/-- **A literal whose last pair is split does not end.** Its closing quote completes the
pair, so it reads on to the next quote of what follows. -/
theorem readLiteral?_of_split {text : String} {n : Nat} (rest : List Char)
    (hquote : text.toList[n]? = some '"')
    (hlen : (doubleQuotes (text.toList.take n)).length + 1 = maxStringLength) :
    readLiteral? ((stringLiteral text).toList ++ rest)
      = (readBody? rest).map (Prod.map (text.toList.take n ++ '"' :: ·) id) := by
  rw [toList_stringLiteral, take_doubleQuotes_of_split hquote hlen, List.cons_append]
  change readBody? (doubleQuotes (text.toList.take n) ++ ['"'] ++ ['"'] ++ rest) = _
  rw [List.append_assoc, List.append_assoc, readBody?_doubleQuotes_append]
  change ((readBody? ('"' :: '"' :: rest)).map _) = _
  rw [readBody?_pair, Option.map_map]
  rfl

/-- **A string literal is well formed exactly where the cut splits no pair.** -/
theorem wellFormed_stringLiteral_iff (text : String) :
    WellFormed text.toList (stringLiteral text).toList ↔ ¬SplitsPair text.toList := by
  constructor
  · rintro ⟨-, ⟨s, hreads, -⟩, -⟩ ⟨n, hquote, hlen⟩
    have hopen := readLiteral?_of_split [] hquote hlen
    rw [List.append_nil, hreads] at hopen
    cases hopen
  · intro hwhole
    obtain ⟨n, hcut⟩ := (take_doubleQuotes text.toList maxStringLength).resolve_right hwhole
    have hreads {s : List Char}
        (hs : (doubleQuotes text.toList).take maxStringLength = doubleQuotes s) :
        readLiteral? (stringLiteral text).toList = some (s, []) := by
      have hread := readLiteral?_of_cut hs (show ([] : List Char).head? ≠ some '"' by simp)
      rwa [List.append_nil] at hread
    refine ⟨⟨_, toList_stringLiteral text, List.length_take_le _ _, ?_⟩,
      ⟨_, hreads hcut, List.take_prefix _ _⟩, fun hfits => hreads (List.take_of_length_le hfits)⟩
    rw [hcut]
    exact paired_doubleQuotes _

/-- A text of 79 letters with a quote at its end: the quote's pair does not fit. -/
def quoteAtCut : String := String.ofList (List.replicate 79 'a' ++ ['"'])

theorem toList_quoteAtCut : quoteAtCut.toList = List.replicate 79 'a' ++ ['"'] :=
  String.toList_ofList

theorem splitsPair_quoteAtCut : SplitsPair quoteAtCut.toList := by
  rw [toList_quoteAtCut]
  refine ⟨79, ?_, ?_⟩
  · decide +kernel
  · decide +kernel

/-- The literal of a text whose quote is the eightieth character does not end. -/
theorem not_wellFormed_quoteAtCut :
    ¬WellFormed quoteAtCut.toList (stringLiteral quoteAtCut).toList := by
  rintro ⟨-, ⟨s, hreads, -⟩, -⟩
  obtain ⟨n, hquote, hlen⟩ := splitsPair_quoteAtCut
  have hopen := readLiteral?_of_split [] hquote hlen
  rw [List.append_nil, hreads] at hopen
  cases hopen

end RobotMotion.Rapid
