import RobotMotion.Json.Printer
import RobotMotion.Proofs.Json.Numbers

/-!
# Texts and tokens

A quoted text is one token with the text as its content (`Token.next?_quote`): every
character comes back from its escape, and no character of a text is half of a surrogate pair.

`Token.Reads` says that a piece of a document is read as certain tokens in front of whatever
ends a number. Pieces are put together by `Token.Reads.append`.
-/

namespace RobotMotion.Json

namespace Token

variable {cs rest : List Char} {ts us : List Token}

/-! ### Quoted texts -/

/-- A character that needs no escape is a unit of its own. -/
theorem scanUnits_cons {c : Char} (hcontrol : ¬ c.toNat < 0x20) (hquote : c ≠ '"')
    (hbackslash : c ≠ '\\') (s : List Char) :
    scanUnits (c :: s) = (scanUnits s).map fun (units, rest) => (c.toNat :: units, rest) := by
  have hkeep : ¬ (c.toNat < 0x20 ∨ c = '\\') := not_or.mpr ⟨hcontrol, hbackslash⟩
  rw [scanUnits, if_neg hkeep]
  all_goals
    · intros
      simp_all

/-- A hexadecimal digit is read as what it stands for. -/
theorem hexDigit?_hexDigit : ∀ n < 16, hexDigit? (hexDigit n) = some n := by decide

/-- **An escaped character comes back.** -/
theorem scanUnits_escapeChar (c : Char) (s : List Char) :
    scanUnits (escapeChar c ++ s) =
      (scanUnits s).map fun (units, rest) => (c.toNat :: units, rest) := by
  -- seven characters have escapes of two, control characters one with four digits
  rw [escapeChar.eq_def]
  split
  case h_1 | h_2 | h_3 | h_4 | h_5 | h_6 | h_7 => rfl
  case h_8 hquote hbackslash _ _ _ _ _ =>
    split
    · rename_i hcontrol
      have hhigh := hexDigit?_hexDigit (c.toNat / 16) (by omega)
      have hlow := hexDigit?_hexDigit (c.toNat % 16) (by omega)
      -- control characters are below 32, so two of the digits are noughts
      have hunit : hexUnit? '0' '0' (hexDigit (c.toNat / 16)) (hexDigit (c.toNat % 16)) =
          some c.toNat := by
        have hzero : hexDigit? '0' = some 0 := by decide
        simp only [hexUnit?, hzero, hhigh, hlow, Option.bind_eq_bind, Option.bind_some, pure,
          Option.some.injEq]
        omega
      show scanUnits ('\\' :: 'u' :: '0' :: '0' :: _ :: _ :: s) = _
      rw [scanUnits, hunit]
    · rename_i hplain
      exact scanUnits_cons hplain hquote hbackslash s

/-- The units of an escaped text are its characters. -/
theorem scanUnits_flatMap (cs s : List Char) :
    scanUnits (cs.flatMap escapeChar ++ '"' :: s) = some (cs.map Char.toNat, s) := by
  induction cs with
  | nil => rfl
  | cons c cs ih =>
    rw [List.flatMap_cons, List.append_assoc, scanUnits_escapeChar, ih]
    rfl

/-- A character is not half of a surrogate pair. -/
theorem not_surrogate (c : Char) : ¬ (0xD800 ≤ c.toNat ∧ c.toNat < 0xE000) := by
  rcases c.valid with h | h
  · have : c.toNat < 0xD800 := h
    omega
  · have : 0xDFFF < c.toNat := h.1
    omega

/-- Units that are characters are put together to these characters. -/
theorem assemble_map_toNat (cs : List Char) : assemble (cs.map Char.toNat) = some cs := by
  induction cs with
  | nil => rfl
  | cons c cs ih =>
    have hc := not_surrogate c
    -- pairs of units are looked at first, but no character is half of one
    cases cs with
    | nil =>
      simp only [List.map_cons, List.map_nil, assemble, if_neg hc, Char.ofNat_toNat]
    | cons d cs =>
      have hhigh : ¬ (0xD800 ≤ c.toNat ∧ c.toNat < 0xDC00) := by omega
      have hlow : ¬ (0xDC00 ≤ c.toNat ∧ c.toNat < 0xE000) := by omega
      simp only [List.map_cons] at ih ⊢
      simp only [assemble, if_neg hhigh, if_neg hlow, ih, Option.map_some, Char.ofNat_toNat]

/-- **A quoted text is a token with its content.** -/
theorem next?_quote (s : String) (rest : List Char) :
    next? ((quote s).toList ++ rest) = some (.text (some s), rest) := by
  have hquoted : (quote s).toList ++ rest =
      '"' :: (s.toList.flatMap escapeChar ++ '"' :: rest) := by
    simp [quote]
  rw [hquoted, next?, scanText, scanUnits_flatMap]
  simp [assemble_map_toNat]

/-! ### Pieces of documents -/

/-- Whether characters are cut into certain tokens, whatever more is allowed for the number
of these. -/
def Scans (cs : List Char) (ts : List Token) : Prop :=
  ∀ n, cs.length ≤ n → scanUpTo n cs = some ts

/-- Nothing is read as no tokens. -/
theorem scans_nil : Scans [] [] := by
  intro n _
  cases n <;> rfl

/-- Blanks are passed over. -/
theorem Scans.blank {blanks : List Char} (hblank : ∀ c ∈ blanks, isBlank c = true)
    (h : Scans cs ts) : Scans (blanks ++ cs) ts := by
  intro n hn
  rw [List.length_append] at hn
  cases n with
  | zero =>
    have hnil : blanks = [] := List.eq_nil_of_length_eq_zero (by omega)
    rw [hnil]
    exact h 0 (by omega)
  | succ n =>
    rw [← h (n + 1) (by omega), scanUpTo, scanUpTo, List.dropWhile_append_of_pos hblank]

/-- A token that was read comes before those of the rest. -/
theorem Scans.token {c : Char} {word : List Char} {t : Token} (hc : isBlank c = false)
    (hnext : next? (c :: word ++ cs) = some (t, cs)) (h : Scans cs ts) :
    Scans (c :: word ++ cs) (t :: ts) := by
  intro n hn
  cases n with
  | zero => simp at hn
  | succ n =>
    -- a token takes at least one character, so the number of tokens allowed suffices
    have hlength : cs.length ≤ n := by
      simp only [List.length_append, List.length_cons] at hn
      omega
    have hdrop : (c :: word ++ cs).dropWhile isBlank = c :: word ++ cs := by
      rw [List.cons_append, List.dropWhile_cons_of_neg (by rw [hc]; decide)]
    rw [scanUpTo, hdrop, List.cons_append]
    simp only
    rw [← List.cons_append, hnext]
    simp only [Option.bind_eq_bind, Option.bind_some, h n hlength]
    rfl

/-- Whether a piece of a document is read as certain tokens in front of what ends a
number. -/
def Reads (piece : String) (ts : List Token) : Prop :=
  ∀ rest us, EndsNumber rest → Scans rest us → Scans (piece.toList ++ rest) (ts ++ us)

/-- Whether a piece of a document is read as certain tokens in front of anything. -/
def ReadsAlways (piece : String) (ts : List Token) : Prop :=
  ∀ rest us, Scans rest us → Scans (piece.toList ++ rest) (ts ++ us)

/-- Whether a number ends in front of a piece of a document. -/
def Stops (piece : String) : Prop := ∀ rest, EndsNumber rest → EndsNumber (piece.toList ++ rest)

variable {p q : String}

/-- A number ends in front of nothing as it did. -/
theorem stops_empty : Stops "" := fun _ hrest => hrest

/-- A number ends in front of what no number goes on with. -/
theorem stops_of_head {c : Char} {word : List Char} (hp : p.toList = c :: word)
    (hc : c.isDigit = false ∧ c ≠ '.' ∧ c ≠ 'e' ∧ c ≠ 'E') : Stops p := by
  intro rest _
  rw [hp]
  exact endsNumber_cons hc

/-- A number ends in front of two pieces if it does in front of each. -/
theorem Stops.append (hp : Stops p) (hq : Stops q) : Stops (p ++ q) := by
  intro rest hrest
  rw [String.toList_append, List.append_assoc]
  exact hp _ (hq _ hrest)

/-- Blanks are read as nothing. -/
theorem readsAlways_blank (hblank : ∀ c ∈ p.toList, isBlank c = true) : ReadsAlways p [] :=
  fun _ _ h => h.blank hblank

/-- A piece that is read as a token by itself is read as it in front of anything. -/
theorem readsAlways_token {c : Char} {word : List Char} {t : Token} (hp : p.toList = c :: word)
    (hc : isBlank c = false) (hnext : ∀ rest, next? (p.toList ++ rest) = some (t, rest)) :
    ReadsAlways p [t] := by
  intro rest us h
  have hnext := hnext rest
  rw [hp] at hnext ⊢
  exact h.token hc hnext

/-- A piece that needs its number to end is read as a token in front of such. -/
theorem reads_token {c : Char} {word : List Char} {t : Token} (hp : p.toList = c :: word)
    (hc : isBlank c = false)
    (hnext : ∀ rest, EndsNumber rest → next? (p.toList ++ rest) = some (t, rest)) :
    Reads p [t] := by
  intro rest us hrest h
  have hnext := hnext rest hrest
  rw [hp] at hnext ⊢
  exact h.token hc hnext

/-- No token begins with a blank. -/
theorem next?_of_isBlank {c : Char} (hc : isBlank c = true) (word : List Char) :
    next? (c :: word) = none := by
  simp only [isBlank, Bool.or_eq_true, decide_eq_true_eq] at hc
  rcases hc with ((rfl | rfl) | rfl) | rfl <;> rfl

/-- **A text that is a number by itself is read as that number.** -/
theorem reads_of_next? {j : Json} (h : next? p.toList = some (.scalar j, [])) :
    Reads p [.scalar j] := by
  cases hp : p.toList with
  | nil =>
    rw [hp] at h
    cases h
  | cons c word =>
    have hc : isBlank c = false := by
      by_contra hblank
      rw [hp, next?_of_isBlank (by simpa using hblank)] at h
      cases h
    exact reads_token hp hc fun rest hrest => next?_append h hrest

/-- What is read so in front of anything is so in front of what ends a number. -/
theorem ReadsAlways.reads (hp : ReadsAlways p ts) : Reads p ts := fun rest us _ => hp rest us

/-- Pieces that are read in front of anything are read one after the other. -/
theorem ReadsAlways.append (hp : ReadsAlways p ts) (hq : ReadsAlways q us) :
    ReadsAlways (p ++ q) (ts ++ us) := by
  intro rest vs h
  rw [String.toList_append, List.append_assoc, List.append_assoc]
  exact hp _ _ (hq rest vs h)

/-- The last of two pieces may need its number to end. -/
theorem ReadsAlways.append_reads (hp : ReadsAlways p ts) (hq : Reads q us) :
    Reads (p ++ q) (ts ++ us) := by
  intro rest vs hrest h
  rw [String.toList_append, List.append_assoc, List.append_assoc]
  exact hp _ _ (hq rest vs hrest h)

/-- **Two pieces are read one after the other** where a number ends in front of the second. -/
theorem Reads.append (hp : Reads p ts) (hq : Reads q us) (hstops : Stops q) :
    Reads (p ++ q) (ts ++ us) := by
  intro rest vs hrest h
  rw [String.toList_append, List.append_assoc, List.append_assoc]
  exact hp _ _ (hstops rest hrest) (hq rest vs hrest h)

/-- **Pieces between marks.** -/
theorem reads_intercalate {mark : Token} (hmark : ReadsAlways p [mark])
    (hstops : ∀ q, Stops (p ++ q)) {pieces : List String} {tokens : List (List Token)}
    (h : List.Forall₂ Reads pieces tokens) :
    Reads (String.intercalate p pieces) ([mark].intercalate tokens) := by
  -- every piece but the last is followed by a mark, in front of which a number ends
  induction h with
  | nil => exact (readsAlways_blank (by simp)).reads
  | @cons first ts pieces tokens hfirst hrest ih =>
    cases hrest with
    | nil => simpa using hfirst
    | @cons second us pieces tokens hsecond hmore =>
      have hpieces : String.intercalate p (first :: second :: pieces) =
          first ++ (p ++ String.intercalate p (second :: pieces)) := by
        simp [String.append_assoc]
      have htokens : [mark].intercalate (ts :: us :: tokens) =
          ts ++ ([mark] ++ [mark].intercalate (us :: tokens)) := by
        rw [List.intercalate_cons_cons, List.append_assoc]
      rw [hpieces, htokens]
      exact hfirst.append (hmark.append_reads ih) (hstops _)

end Token

namespace Spread

open Token

variable (s : Spread)

/-- Line breaks and indentations are read as nothing. -/
theorem readsAlways_lineBreak : ReadsAlways s.lineBreak [] := by
  refine readsAlways_blank fun c hc => ?_
  rw [lineBreak] at hc
  split at hc
  · rw [String.toList_append, List.mem_append] at hc
    rcases hc with hc | hc
    · rw [List.mem_singleton.mp hc]
      decide
    · rw [String.toList_ofList] at hc
      rw [List.eq_of_mem_replicate hc]
      decide
  · cases hc

/-- A number ends in front of a line break. -/
theorem stops_lineBreak : Stops s.lineBreak := by
  rw [lineBreak]
  split
  · exact stops_of_head (String.toList_append.trans rfl) (by decide)
  · exact stops_empty

/-- **Parts between brackets.** -/
theorem reads_enclose {left right : String} {opening closing : Token}
    (hleft : ReadsAlways left [opening]) (hright : ReadsAlways right [closing])
    (hstops : Stops right) {parts : List String} {tokens : List (List Token)}
    (h : List.Forall₂ Reads parts tokens) :
    Reads (s.enclose left right parts)
      (opening :: ([Token.comma].intercalate tokens ++ [closing])) := by
  have hcomma : ReadsAlways ("," ++ s.deeper.lineBreak) [.comma] := by
    have hmark : ReadsAlways "," [.comma] := readsAlways_token (c := ',') rfl rfl fun _ => rfl
    simpa using hmark.append s.deeper.readsAlways_lineBreak
  have hbody := reads_intercalate hcomma
    (fun q => stops_of_head (c := ',') (by simp; rfl) (by decide)) h
  rw [enclose]
  split
  · rename_i hempty
    obtain rfl := List.isEmpty_iff.mp hempty
    cases h
    exact (hleft.append hright).reads
  · have hopen := hleft.append s.deeper.readsAlways_lineBreak
    have hclose := s.readsAlways_lineBreak.append hright
    have hall := hopen.append_reads
      (hbody.append hclose.reads (s.stops_lineBreak.append hstops))
    simpa [String.append_assoc] using hall

end Spread

end RobotMotion.Json
