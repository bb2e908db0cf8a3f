import RobotMotion.Json.Reader
import RobotMotion.Proofs.Json.Doubles
import RobotMotion.Proofs.Json.Tokens

/-!
# Documents that are read back

Whatever is written can be read: the text of a value stands for the value itself, apart from
its numbers, which are what their texts stand for (`Json.reread`). The value is written as
certain tokens, however it is spread over lines (`Json.reads_render`), and the reader makes
the value from these (`Json.run_tokens`), with the fields of objects in the same order
(`Json.parse_render_eq_reread`). So a value whose numbers read back is read back from its text
(`Json.parse_render`).
-/

namespace RobotMotion.Json

open Token (Reads ReadsAlways)

mutual

/-- Whether a value has a text that stands for it: whole numbers take at most 64 bits,
doubles are finite and read back, and every part can be read. -/
def Printable : Json → Prop
  | .integer n => Token.IsWhole n
  | .real x => x.isFinite = true ∧ ReadsBack x
  | .array items => PrintableItems items
  | .object fields => PrintableFields fields
  | .unreadable => False
  | _ => True

/-- Whether every item of an array has a text. -/
def PrintableItems : List Json → Prop
  | [] => True
  | j :: rest => j.Printable ∧ PrintableItems rest

/-- Whether every field of an object has a text. -/
def PrintableFields : List (String × Json) → Prop
  | [] => True
  | (_, j) :: rest => j.Printable ∧ PrintableFields rest

end

mutual

/-- The tokens of a value. -/
def tokens : Json → List Token
  | .null => [.scalar .null]
  | .bool b => [.scalar (.bool b)]
  | .integer n => [.scalar (.integer n)]
  | .real x => [.scalar (.real x)]
  | .text s => [.text (some s)]
  | .array items => .openArray :: ([Token.comma].intercalate (itemTokens items) ++ [.closeArray])
  | .object fields =>
    .openObject :: ([Token.comma].intercalate (fieldTokens fields) ++ [.closeObject])
  | .unreadable => [.scalar .unreadable]

/-- The tokens of the items of an array. -/
def itemTokens : List Json → List (List Token)
  | [] => []
  | j :: rest => j.tokens :: itemTokens rest

/-- The tokens of the fields of an object. -/
def fieldTokens : List (String × Json) → List (List Token)
  | [] => []
  | (key, j) :: rest => (.text (some key) :: .colon :: j.tokens) :: fieldTokens rest

end

/-! ### What a text stands for -/

/-- What the text of a number stands for. -/
def readNumber (s : String) : Json :=
  match Token.next? s.toList with
  | some (.scalar j, _) => j
  | _ => .null

mutual

/-- What the text of a value stands for. -/
def reread : Json → Json
  | .null | .unreadable => .null
  | .bool b => .bool b
  | .integer n => readNumber (Decimal.integer n)
  | .real x => readNumber (renderReal x)
  | .text s => .text s
  | .array items => .array (rereadItems items)
  | .object fields => .object (rereadFields fields)

/-- What the texts of the items of an array stand for. -/
def rereadItems : List Json → List Json
  | [] => []
  | j :: rest => j.reread :: rereadItems rest

/-- What the texts of the fields of an object stand for. -/
def rereadFields : List (String × Json) → List (String × Json)
  | [] => []
  | (key, j) :: rest => (key, j.reread) :: rereadFields rest

end

mutual

/-- A value that has a text is what that text stands for. -/
theorem reread_of_printable : ∀ j : Json, j.Printable → j.reread = j
  | .null, _ | .bool _, _ | .text _, _ => rfl
  | .integer n, h => by
    rw [reread, readNumber, Token.next?_integer h]
  | .real x, h => by
    have htext : Token.next? (Decimal.saved x).toList = some (.scalar (.real x), []) := h.2
    rw [reread, readNumber, renderReal, if_pos h.1, htext]
  | .array items, h => congrArg Json.array (rereadItems_of_printable items h)
  | .object fields, h => congrArg Json.object (rereadFields_of_printable fields h)
  | .unreadable, h => h.elim

theorem rereadItems_of_printable : ∀ items : List Json, PrintableItems items →
    rereadItems items = items
  | [], _ => rfl
  | j :: rest, h => by
    rw [rereadItems, reread_of_printable j h.1, rereadItems_of_printable rest h.2]

theorem rereadFields_of_printable : ∀ fields : List (String × Json), PrintableFields fields →
    rereadFields fields = fields
  | [], _ => rfl
  | (key, j) :: rest, h => by
    rw [rereadFields, reread_of_printable j h.1, rereadFields_of_printable rest h.2]

end

/-! ### Texts to tokens -/

/-- A value that a number of the grammar has is a token by itself. -/
theorem tokens_value (n : Token.Numeral) : n.value.tokens = [.scalar n.value] := by
  rw [Token.Numeral.value]
  split
  · rfl
  · split
    · rfl
    · split <;> rfl

/-- A number that is scanned is a token by itself. -/
theorem tokens_of_scanUnsigned {negative : Bool} {s rest : List Char} {j : Json}
    (h : Token.scanUnsigned negative s = some (j, rest)) : j.tokens = [.scalar j] := by
  simp only [Token.scanUnsigned, Option.bind_eq_bind, Option.bind_eq_some_iff, Prod.exists, pure,
    Option.some.injEq, Prod.mk.injEq] at h
  obtain ⟨_, _, -, _, _, -, _, _, -, rfl, -⟩ := h
  exact tokens_value _

/-- A scalar that is scanned is a token by itself. -/
theorem tokens_of_next? {s rest : List Char} {j : Json}
    (h : Token.next? s = some (.scalar j, rest)) : j.tokens = [.scalar j] := by
  have hnumber {negative : Bool} {w : List Char}
      (h : (Token.scanUnsigned negative w).map (fun read => (Token.scalar read.1, read.2)) =
        some (.scalar j, rest)) : j.tokens = [.scalar j] := by
    obtain ⟨⟨value, tail⟩, hscan, heq⟩ := Option.map_eq_some_iff.mp h
    obtain rfl := Token.scalar.inj (Prod.mk.inj heq).1
    exact tokens_of_scanUnsigned hscan
  rw [Token.next?.eq_def] at h
  split at h
  case h_1 | h_2 | h_3 | h_4 | h_5 | h_6 => cases h
  -- the three words; marks and texts are no scalars, and all else is a number
  case h_7 | h_8 | h_9 =>
    obtain rfl := Token.scalar.inj (Prod.mk.inj (Option.some.inj h)).1
    rfl
  case h_10 =>
    obtain ⟨_, -, heq⟩ := Option.map_eq_some_iff.mp h
    cases (Prod.mk.inj heq).1
  case h_11 => exact hnumber h
  case h_12 => exact hnumber h

/-- The text of a number is read as what it stands for. -/
theorem reads_readNumber {s : String} (h : ∃ j, Token.next? s.toList = some (.scalar j, [])) :
    Reads s (readNumber s).tokens := by
  obtain ⟨j, hj⟩ := h
  have hread : readNumber s = j := by rw [readNumber, hj]
  rw [hread, tokens_of_next? hj]
  exact Token.reads_of_next? hj

/-- The text of a double is one scalar: `null` where the double is not finite. -/
theorem exists_next?_renderReal (x : Float) :
    ∃ j, Token.next? (renderReal x).toList = some (.scalar j, []) := by
  rw [renderReal]
  split
  · rename_i hfinite
    exact Token.exists_next?_saved hfinite
  · exact ⟨.null, rfl⟩

/-- A quoted text is a token, whatever follows it. -/
theorem readsAlways_quote (s : String) : ReadsAlways (quote s) [.text (some s)] := by
  have hquote : (quote s).toList = '"' :: (s.toList.flatMap escapeChar ++ ['"']) := by
    simp [quote]
  exact Token.readsAlways_token hquote (by decide) (Token.next?_quote s)

/-- A key with the colon behind it. -/
theorem readsAlways_key (s : Spread) (key : String) :
    ReadsAlways (quote key ++ s.separator) [.text (some key), .colon] := by
  have hcolon : ReadsAlways ":" [.colon] :=
    Token.readsAlways_token (c := ':') rfl rfl fun _ => rfl
  have hblank : ReadsAlways " " [] := Token.readsAlways_blank fun c hc => by
    rw [List.mem_singleton.mp hc]
    rfl
  refine (readsAlways_quote key).append ?_
  rw [Spread.separator]
  split
  · exact hcolon.append hblank
  · exact hcolon

mutual

/-- **The text of a value is read as the tokens of what it stands for.** -/
theorem reads_render (s : Spread) : ∀ j : Json, Reads (j.render s) j.reread.tokens
  | .null | .unreadable => by
    rw [render, reread, tokens]
    exact (Token.readsAlways_token (c := 'n') rfl rfl fun _ => rfl).reads
  | .bool b => by
    rw [render, reread, tokens]
    cases b with
    | false => exact (Token.readsAlways_token (c := 'f') rfl rfl fun _ => rfl).reads
    | true => exact (Token.readsAlways_token (c := 't') rfl rfl fun _ => rfl).reads
  | .integer n => by
    rw [render, reread]
    exact reads_readNumber (Token.exists_next?_integer n)
  | .real x => by
    rw [render, reread]
    exact reads_readNumber (exists_next?_renderReal x)
  | .text t => by
    rw [render, reread, tokens]
    exact (readsAlways_quote t).reads
  | .array items => by
    rw [render, reread, tokens]
    exact s.reads_enclose (Token.readsAlways_token (c := '[') rfl rfl fun _ => rfl)
      (Token.readsAlways_token (c := ']') rfl rfl fun _ => rfl)
      (Token.stops_of_head (c := ']') rfl (by decide)) (reads_renderItems s.deeper items)
  | .object fields => by
    rw [render, reread, tokens]
    exact s.reads_enclose (Token.readsAlways_token (c := '\x7b') rfl rfl fun _ => rfl)
      (Token.readsAlways_token (c := '\x7d') rfl rfl fun _ => rfl)
      (Token.stops_of_head (c := '\x7d') rfl (by decide)) (reads_renderFields s.deeper fields)

/-- Each item is read as the tokens of what its text stands for. -/
theorem reads_renderItems (s : Spread) : ∀ items : List Json,
    List.Forall₂ Reads (renderItems s items) (itemTokens (rereadItems items))
  | [] => .nil
  | j :: rest => .cons (reads_render s j) (reads_renderItems s rest)

/-- Each field is read as the tokens of what its text stands for. -/
theorem reads_renderFields (s : Spread) : ∀ fields : List (String × Json),
    List.Forall₂ Reads (renderFields s fields) (fieldTokens (rereadFields fields))
  | [] => .nil
  | (key, j) :: rest =>
    .cons ((readsAlways_key s key).append_reads (reads_render s j)) (reads_renderFields s rest)

end

/-- The text of a value is cut into the tokens of what it stands for. -/
theorem scan_render (s : Spread) (j : Json) : Token.scan (j.render s) = some j.reread.tokens := by
  have hscans := reads_render s j [] [] Token.endsNumber_nil Token.scans_nil
  rw [List.append_nil, List.append_nil] at hscans
  exact hscans _ le_rfl

/-! ### Tokens to values -/

/-- What stands between marks begins with the first part. -/
theorem exists_intercalate_cons (mark : Token) (ts : List Token) (tokens : List (List Token)) :
    ∃ tail, [mark].intercalate (ts :: tokens) = ts ++ tail := by
  cases tokens with
  | nil => exact ⟨[], by simp⟩
  | cons us tokens =>
    exact ⟨_, (List.intercalate_cons_cons ..).trans (List.append_assoc ..)⟩

namespace Reading

/-- Fields of which every key has a value. -/
def known (fields : List (String × Json)) : List (Option String × Json) :=
  fields.map fun f => (some f.1, f.2)

/-- Fields of which every key has a value are closed to an object. -/
theorem mapM_known (fields : List (String × Json)) :
    (known fields).mapM (fun (key, value) => key.map (·, value)) = some fields := by
  induction fields with
  | nil => rfl
  | cons f fields ih =>
    rw [known, List.map_cons, List.mapM_cons, ← known, ih]
    rfl

theorem close_known (fields : List (String × Json)) :
    close (known fields).reverse = .object fields := by
  rw [close, List.reverse_reverse, mapM_known]

/-- The first item of an array is read as any value is. -/
theorem run_firstItem (j : Json) (items : List Json) (stack : List Frame) (rest : List Token) :
    run (.firstItem stack) ([Token.comma].intercalate (itemTokens (j :: items)) ++ rest) =
      run (.expectValue (.array [] :: stack))
        ([Token.comma].intercalate (itemTokens (j :: items)) ++ rest) := by
  obtain ⟨tail, htail⟩ := exists_intercalate_cons .comma j.tokens (itemTokens items)
  rw [itemTokens, htail]
  cases j <;> rfl

/-- The first key of an object is read as any key is. -/
theorem run_firstKey (f : String × Json) (fields : List (String × Json)) (stack : List Frame)
    (rest : List Token) :
    run (.firstKey stack) ([Token.comma].intercalate (fieldTokens (f :: fields)) ++ rest) =
      run (.expectKey [] stack)
        ([Token.comma].intercalate (fieldTokens (f :: fields)) ++ rest) := by
  obtain ⟨key, j⟩ := f
  obtain ⟨tail, htail⟩ := exists_intercalate_cons .comma (.text (some key) :: .colon :: j.tokens)
    (fieldTokens fields)
  rw [fieldTokens, htail]
  rfl

mutual

/-- **The tokens of a value make the value.** -/
theorem run_tokens : ∀ (j : Json) (stack : List Frame) (rest : List Token),
    run (.expectValue stack) (j.tokens ++ rest) = run (deliver j stack) rest
  | .null, _, _ | .bool _, _, _ | .integer _, _, _ | .real _, _, _ | .text _, _, _
  | .unreadable, _, _ => rfl
  | .array [], _, _ => rfl
  | .array (j :: items), stack, rest => by
    rw [tokens, List.cons_append, List.append_assoc]
    -- behind the bracket the reader expects an item or the end
    show run (.firstItem stack) _ = _
    rw [run_firstItem]
    exact run_itemTokens (j :: items) (List.cons_ne_nil _ _) [] stack rest
  | .object [], _, _ => rfl
  | .object (f :: fields), stack, rest => by
    rw [tokens, List.cons_append, List.append_assoc]
    show run (.firstKey stack) _ = _
    rw [run_firstKey]
    exact run_fieldTokens (f :: fields) (List.cons_ne_nil _ _) [] stack rest

/-- The tokens of items, behind others. -/
theorem run_itemTokens : ∀ (items : List Json), items ≠ [] →
    ∀ (before : List Json) (stack : List Frame) (rest : List Token),
      run (.expectValue (.array before.reverse :: stack))
          ([Token.comma].intercalate (itemTokens items) ++ .closeArray :: rest) =
        run (deliver (.array (before ++ items)) stack) rest
  | [], hsome, _, _, _ => absurd rfl hsome
  | [j], _, before, stack, rest => by
    rw [itemTokens, itemTokens, List.intercalate_singleton, run_tokens]
    show run (deliver (.array (j :: before.reverse).reverse) stack) rest = _
    rw [List.reverse_cons, List.reverse_reverse]
  | j :: k :: more, _, before, stack, rest => by
    -- more) (List.cons_ne_nil _ _) (before ++ [j]) stack rest :: the first item joins those before,
    -- and a comma leads to the others
    have hmore := run_itemTokens (k :: more) (List.cons_ne_nil _ _) (before ++ [j]) stack rest
    rw [List.reverse_append, List.append_assoc] at hmore
    rw [itemTokens, itemTokens, List.intercalate_cons_cons, List.append_assoc, List.append_assoc,
      run_tokens]
    exact hmore

/-- The tokens of fields, behind others. -/
theorem run_fieldTokens : ∀ (fields : List (String × Json)), fields ≠ [] →
    ∀ (before : List (String × Json)) (stack : List Frame) (rest : List Token),
      run (.expectKey (known before).reverse stack)
          ([Token.comma].intercalate (fieldTokens fields) ++ .closeObject :: rest) =
        run (deliver (.object (before ++ fields)) stack) rest
  | [], hsome, _, _, _ => absurd rfl hsome
  | [(key, j)], _, before, stack, rest => by
    have hknown : known (before ++ [(key, j)]) = known before ++ [(some key, j)] :=
      List.map_append
    rw [fieldTokens, fieldTokens, List.intercalate_singleton, ← close_known, hknown,
      List.reverse_append]
    exact run_tokens j (.object (known before).reverse (some key) :: stack) (.closeObject :: rest)
  | (key, j) :: (next, k) :: more, _, before, stack, rest => by
    have hmore := run_fieldTokens ((next, k) :: more) (List.cons_ne_nil _ _)
      (before ++ [(key, j)]) stack rest
    have hknown : known (before ++ [(key, j)]) = known before ++ [(some key, j)] :=
      List.map_append
    rw [hknown, List.reverse_append, List.append_assoc] at hmore
    rw [fieldTokens, fieldTokens, List.intercalate_cons_cons, List.append_assoc,
      List.append_assoc]
    exact (run_tokens j (.object (known before).reverse (some key) :: stack) _).trans hmore

end

end Reading

/-- **Whatever is written is read as what its text stands for**, however it is spread over
lines. -/
theorem parse_render_eq_reread (s : Spread) (j : Json) : parse (j.render s) = some j.reread := by
  have hrun := Reading.run_tokens j.reread [] []
  rw [List.append_nil] at hrun
  rw [parse, scan_render s j]
  exact hrun

/-- **A value is read back from its text**, however it is spread over lines. -/
theorem parse_render (s : Spread) {j : Json} (h : j.Printable) : parse (j.render s) = some j := by
  rw [parse_render_eq_reread, reread_of_printable j h]

end RobotMotion.Json
