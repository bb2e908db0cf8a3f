import RobotMotion.Proofs.Decimal.Numeral
import RobotMotion.Proofs.Program.Rejections
import Mathlib.Data.List.Basic

/-!
# The instructions of a module

What the main procedure of a RAPID module tells a robot to do is read off its lines: the
first word says whether a line is a motion or a pause, and the numbers in brackets behind
it are those of the target (`Rapid.order?`). Indentation, the names of speed, zone and tool,
and what is written behind the code of an action are passed over.

A visit of the device asks for at most one such order (`Visit.order?`), and in the main
procedure there is just that one: `Rapid.orders_draft` says so for modules with targets in
place, code that users wrote themselves set aside.
-/

namespace RobotMotion

open Program (Entry Look)

/-- What a controller is told to do. -/
inductive Order where
  /-- a motion, with the numbers of its target as they are written: of a pose the position
  and the rotation with its scalar part first, else the angles of the joints -/
  | move (kind : Rapid.MoveKind) (numbers : List String)
  /-- a pause -/
  | wait (seconds : String)
deriving DecidableEq, Repr

/-- Whether an action is code that a user wrote. -/
def Action.isCustom (action : Action Float) : Bool := action.command matches .customCode ..

namespace Rapid

/-- The kind of a motion to a pose. -/
def MoveKind.to : MotionType → MoveKind
  | .linear => .linear
  | .joint => .joint

/-- The numbers of a target: without those of the arm and of external axes. -/
def Target.numbers : Target → List String
  | .pose position rotation _ => position ++ rotation
  | .joints angles _ => angles

end Rapid

/-- The order that comes of an action. -/
def Visit.order? (d : Decimals) (v : Visit Float) : Option Order :=
  if v.applied then
    match v.action.command with
    | .translation .. | .rotation .. | .transformation .. =>
      (Rapid.poseTarget? d v.state).map fun target =>
        .move (.to v.state.settings.motion) target.numbers
    | .axes .. =>
      (Rapid.jointTarget? d v.state).map fun target => .move .absoluteJoint target.numbers
    | .wait millis => some (.wait (Program.secondsText millis))
    | _ => none
  else none

namespace Rapid

/-! ### Reading numbers in brackets -/

/-- The texts in brackets at the front, and what comes after. -/
def group? : List Char → Option (List String × List Char)
  | '[' :: s =>
    match s.dropWhile (· != ']') with
    | _ :: rest => some (((s.takeWhile (· != ']')).splitOn ',').map String.ofList, rest)
    | [] => none
  | _ => none

/-- The numbers of a pose: those of the position and those of the rotation. -/
def poseNumbers? (s : List Char) : Option (List String) :=
  (group? s).bind fun
    | (position, ',' :: rest) => (group? rest).map fun (rotation, _) => position ++ rotation
    | _ => none

/-- The numbers of a target: the first two groups of a pose, or the first one of joint
angles. -/
def targetNumbers? (kind : MoveKind) : List Char → Option (List String)
  | '[' :: s =>
    match kind with
    | .absoluteJoint => (group? s).map fun (angles, _) => angles
    | .linear | .joint => poseNumbers? s
  | _ => none

/-- Where a character does not stand, every character is another one. -/
theorem bne_of_not_mem {c : Char} {s : List Char} (h : c ∉ s) : ∀ d ∈ s, (d != c) = true := by
  intro d hd
  rw [bne_iff_ne]
  rintro rfl
  exact h hd

/-- A separator is the only thing that joining adds. -/
theorem not_mem_intercalate {c separator : Char} (hc : c ≠ separator) {texts : List (List Char)}
    (h : ∀ t ∈ texts, c ∉ t) : c ∉ [separator].intercalate texts := by
  induction texts with
  | nil => exact List.not_mem_nil
  | cons t rest ih =>
    have ht := h t List.mem_cons_self
    have hrest := ih fun u hu => h u (List.mem_cons_of_mem _ hu)
    cases rest with
    | nil => simpa using ht
    | cons u more =>
      rw [List.intercalate_cons_cons]
      simp [ht, hc, hrest]

/-- Texts of numbers, at least one of them. -/
def Numerals (texts : List String) : Prop := texts ≠ [] ∧ ∀ t ∈ texts, Decimal.Numeral t

theorem numerals_map_fixed {values : List Float} (h : values ≠ []) (places : Nat) :
    Numerals (values.map (Decimal.fixed · places)) := by
  refine ⟨fun hnil => h (List.map_eq_nil_iff.mp hnil), fun t ht => ?_⟩
  obtain ⟨x, -, rfl⟩ := List.mem_map.mp ht
  exact Decimal.numeral_fixed x places

/-- **Numbers in brackets read back.** -/
theorem group?_bracketed {texts : List String} (h : Numerals texts) (rest : List Char) :
    group? ((bracketed texts).toList ++ rest) = some (texts, rest) := by
  obtain ⟨hsome, htexts⟩ := h
  have hbracketed : (bracketed texts).toList =
      '[' :: ([','].intercalate (texts.map String.toList) ++ [']']) := by
    simp [bracketed, String.toList_intercalate]
  have hnot {c : Char} (hc : Decimal.isNumeral c = false) :
      ∀ t ∈ texts.map String.toList, c ∉ t := by
    intro t ht
    obtain ⟨text, htext, rfl⟩ := List.mem_map.mp ht
    exact (htexts text htext).not_mem hc
  have hinside : ∀ c ∈ [','].intercalate (texts.map String.toList), (c != ']') = true :=
    bne_of_not_mem (not_mem_intercalate (by decide) (hnot rfl))
  have hsplit : ([','].intercalate (texts.map String.toList)).splitOn ',' =
      texts.map String.toList :=
    List.splitOn_intercalate ',' (hnot rfl) (by simpa using hsome)
  rw [hbracketed, List.cons_append, List.append_assoc, group?,
    List.dropWhile_append_of_pos hinside, List.takeWhile_append_of_pos hinside]
  simp [hsplit, Function.comp_def]

/-- The numbers of a target are such as its kind of motion has. -/
def Target.Fits (kind : MoveKind) : Target → Prop
  | .pose position rotation _ => kind ≠ .absoluteJoint ∧ Numerals position ∧ Numerals rotation
  | .joints angles _ => kind = .absoluteJoint ∧ Numerals angles

/-- **The numbers of a target read back.** -/
theorem targetNumbers?_text {kind : MoveKind} {target : Target} (h : target.Fits kind)
    (rest : List Char) :
    targetNumbers? kind (target.text.toList ++ rest) = some target.numbers := by
  cases target with
  | pose position rotation external =>
    obtain ⟨hkind, hposition, hrotation⟩ := h
    have htext : ∃ more, (Target.pose position rotation external).text.toList ++ rest =
        '[' :: ((bracketed position).toList ++ ',' :: ((bracketed rotation).toList ++ more)) := by
      refine ⟨(",[0,0,0,0],".toList ++ (bracketed external).toList) ++ ']' :: rest, ?_⟩
      rw [Target.text, bracketed]
      simp
    obtain ⟨more, htext⟩ := htext
    have hnumbers : poseNumbers?
        ((bracketed position).toList ++ ',' :: ((bracketed rotation).toList ++ more)) =
          some (position ++ rotation) := by
      rw [poseNumbers?, group?_bracketed hposition, Option.bind_some]
      simp only [group?_bracketed hrotation, Option.map_some]
    rw [htext]
    cases kind with
    | absoluteJoint => exact absurd rfl hkind
    | linear | joint => exact hnumbers
  | joints angles external =>
    obtain ⟨rfl, hangles⟩ := h
    have htext : ∃ more, (Target.joints angles external).text.toList ++ rest =
        '[' :: ((bracketed angles).toList ++ more) := by
      refine ⟨',' :: ((bracketed external).toList ++ ']' :: rest), ?_⟩
      rw [Target.text, bracketed]
      simp
    obtain ⟨more, htext⟩ := htext
    rw [htext, targetNumbers?]
    simp only [group?_bracketed hangles, Option.map_some]
    rfl

theorem fits_of_poseTarget? {d : Decimals} {s : State Float} {target : Target}
    (h : poseTarget? d s = some target) (motion : MotionType) : target.Fits (.to motion) := by
  obtain ⟨⟨position, rotation⟩, -, rfl⟩ := Option.map_eq_some_iff.mp h
  refine ⟨?_, numerals_map_fixed (List.cons_ne_nil _ _) d.mm,
    numerals_map_fixed (List.cons_ne_nil _ _) d.unitless⟩
  cases motion <;> decide

theorem fits_of_jointTarget? {d : Decimals} {s : State Float} {target : Target}
    (h : jointTarget? d s = some target) : target.Fits .absoluteJoint := by
  obtain ⟨joints, -, rfl⟩ := Option.map_eq_some_iff.mp h
  refine ⟨rfl, numerals_map_fixed (fun hnil => ?_) d.degrees⟩
  have hlength := joints.length_toList
  rw [hnil] at hlength
  cases hlength

/-! ### Reading a line -/

/-- What a word in front of a text asks for. A motion without a target that can be read has
no numbers, but is a motion all the same. -/
def orderOf? (word : String) (rest : List Char) : Option Order :=
  if word = "WaitTime" then some (.wait (String.ofList (rest.takeWhile (· != ';'))))
  else
    ([MoveKind.linear, .joint, .absoluteJoint].find? fun kind => kind.text == word).map fun kind =>
      .move kind ((targetNumbers? kind rest).getD [])

/-- What a line asks for: its first word, and what comes after a blank. -/
def order? (line : String) : Option Order :=
  let s := line.toList.dropWhile (· == ' ')
  orderOf? (String.ofList (s.takeWhile (· != ' '))) (s.dropWhile (· != ' ')).tail

/-- Indentation is passed over, and the first word decides. -/
theorem order?_indented (look : Look) {word text : String} {rest : List Char}
    (htext : text.toList = word.toList ++ ' ' :: rest) (hblank : ' ' ∉ word.toList)
    (hsome : word.toList ≠ []) : order? (look.indented text) = orderOf? word rest := by
  have hline : (look.indented text).toList =
      List.replicate look.indent ' ' ++ (word.toList ++ ' ' :: rest) := by
    rw [Look.indented, String.toList_append, String.toList_ofList, htext]
  have hindent : ∀ c ∈ List.replicate look.indent ' ', (c == ' ') = true := by
    intro c hc
    rw [List.eq_of_mem_replicate hc]
    rfl
  have hword := bne_of_not_mem hblank
  have hstart : (word.toList ++ ' ' :: rest).dropWhile (· == ' ') = word.toList ++ ' ' :: rest := by
    obtain ⟨c, more, hc⟩ := List.exists_cons_of_ne_nil hsome
    have hfirst : c ≠ ' ' := by
      rintro rfl
      exact hblank (hc ▸ List.mem_cons_self)
    rw [hc, List.cons_append, List.dropWhile_cons_of_neg (by simpa using hfirst)]
  rw [order?, hline, List.dropWhile_append_of_pos hindent, hstart,
    List.takeWhile_append_of_pos hword, List.dropWhile_append_of_pos hword]
  simp

/-- A text begins with a word that a blank follows. -/
def Begins (word text : String) : Prop := ∃ rest, text.toList = word.toList ++ ' ' :: rest

theorem Begins.append {word text : String} (h : Begins word text) (more : String) :
    Begins word (text ++ more) := by
  obtain ⟨rest, htext⟩ := h
  refine ⟨rest ++ more.toList, ?_⟩
  rw [String.toList_append, htext, List.append_assoc, List.cons_append]

/-- The words that lines begin with which ask for nothing. -/
def otherWords : List String := [comment, "WorldAccLim", "SetDO", "SetAO", "TPWrite"]

/-- A line with such a word asks for nothing. -/
theorem order?_eq_none (look : Look) {word text : String} (hword : word ∈ otherWords)
    (hbegins : Begins word text) : order? (look.indented text) = none := by
  obtain ⟨rest, htext⟩ := hbegins
  have hother : ∀ word ∈ otherWords, ' ' ∉ word.toList ∧ word.toList ≠ [] ∧ word ≠ "WaitTime" ∧
      ∀ kind ∈ [MoveKind.linear, .joint, .absoluteJoint], kind.text ≠ word := by decide
  obtain ⟨hblank, hsome, hwait, hmove⟩ := hother word hword
  have hfind : ([MoveKind.linear, .joint, .absoluteJoint].find? fun kind => kind.text == word) =
      none := by
    rw [List.find?_eq_none]
    intro kind hkind
    simpa using hmove kind hkind
  rw [order?_indented look htext hblank hsome, orderOf?, if_neg hwait, hfind, Option.map_none]

/-- **A motion is read with the numbers of its target.** -/
theorem order?_move (look : Look) {kind : MoveKind} {target : Target} (h : target.Fits kind)
    (speed zone tool behind : String) :
    order? (look.indented
      ((Statement.move ⟨kind, .inline target, speed, zone, tool⟩).text ++ behind)) =
        some (.move kind target.numbers) := by
  have hmove : (Statement.move ⟨kind, .inline target, speed, zone, tool⟩).text =
      kind.text ++ " " ++ target.text ++ ", " ++ speed ++ ", " ++ zone ++ ", " ++ tool
        ++ "\\WObj:=WObj0;" := rfl
  obtain ⟨more, htext⟩ : ∃ more,
      ((Statement.move ⟨kind, .inline target, speed, zone, tool⟩).text ++ behind).toList =
        kind.text.toList ++ ' ' :: (target.text.toList ++ more) := by
    simp only [hmove, String.toList_append, List.append_assoc]
    exact ⟨_, rfl⟩
  have hword : ' ' ∉ kind.text.toList ∧ kind.text.toList ≠ [] := by cases kind <;> decide
  have hkind (rest : List Char) :
      orderOf? kind.text rest = some (.move kind ((targetNumbers? kind rest).getD [])) := by
    cases kind <;> rfl
  rw [order?_indented look htext hword.1 hword.2, hkind, targetNumbers?_text h, Option.getD_some]

/-- **A pause is read with its seconds.** -/
theorem order?_wait (look : Look) {seconds : String} (h : Decimal.Numeral seconds)
    (behind : String) :
    order? (look.indented ((Statement.wait seconds).text ++ behind)) = some (.wait seconds) := by
  have hwait : (Statement.wait seconds).text = "WaitTime " ++ seconds ++ ";" := rfl
  have htext : ((Statement.wait seconds).text ++ behind).toList =
      "WaitTime".toList ++ ' ' :: (seconds.toList ++ ';' :: behind.toList) := by
    simp [hwait]
  have hseconds : ∀ c ∈ seconds.toList, (c != ';') = true := bne_of_not_mem (h.not_mem rfl)
  rw [order?_indented look htext (by decide) (by decide), orderOf?, if_pos rfl,
    List.takeWhile_append_of_pos hseconds]
  simp

/-- What a statement asks for. -/
def Statement.order? : Statement → Option Order
  | .move ⟨kind, .inline target, _, _, _⟩ => some (.move kind target.numbers)
  | .wait seconds => some (.wait seconds)
  | _ => none

/-- What a statement asks for can be read in its text. -/
def Statement.Readable : Statement → Prop
  | .move m => ∃ target, m.place = .inline target ∧ target.Fits m.kind
  | .wait seconds => Decimal.Numeral seconds
  | .custom _ => False
  | .accelerationLimit _ | .setDigital .. | .setAnalog .. | .display _ | .comment _ => True

/-- A statement that asks for nothing begins with one of the other words. -/
theorem exists_word {s : Statement} (h : s.Readable) (hnone : s.order? = none) :
    ∃ word ∈ otherWords, Begins word s.text := by
  cases s with
  | move m =>
    obtain ⟨kind, place, speed, zone, tool⟩ := m
    obtain ⟨target, rfl, -⟩ := h
    cases hnone
  | wait seconds => cases hnone
  | custom code => exact h.elim
  | accelerationLimit value =>
    refine ⟨"WorldAccLim", by decide, ?_⟩
    cases value with
    | none => exact ⟨_, rfl⟩
    | some value =>
      have hword : Begins "WorldAccLim" "WorldAccLim \\Acc:=" := ⟨_, rfl⟩
      exact (hword.append value).append ";"
  | setDigital signal on =>
    have hword : Begins "SetDO" "SetDO " := ⟨_, rfl⟩
    exact ⟨_, by decide, (((hword.append signal).append ", ").append _).append ";"⟩
  | setAnalog signal value =>
    have hword : Begins "SetAO" "SetAO " := ⟨_, rfl⟩
    exact ⟨_, by decide, (((hword.append signal).append ", ").append value).append ";"⟩
  | display literal =>
    have hword : Begins "TPWrite" "TPWrite " := ⟨_, rfl⟩
    exact ⟨_, by decide, (hword.append literal).append ";"⟩
  | comment text =>
    have hword : Begins comment "! " := ⟨_, rfl⟩
    exact ⟨_, by decide, hword.append text⟩

/-- **A line is read as its statement**, whatever is written behind it. -/
theorem order?_text (look : Look) {s : Statement} (h : s.Readable) (behind : String) :
    order? (look.indented (s.text ++ behind)) = s.order? := by
  cases horder : s.order? with
  | none =>
    obtain ⟨word, hword, hbegins⟩ := exists_word h horder
    exact order?_eq_none look hword (hbegins.append behind)
  | some order =>
    cases s with
    | move m =>
      obtain ⟨kind, place, speed, zone, tool⟩ := m
      obtain ⟨target, rfl, hfits⟩ := h
      rw [order?_move look hfits]
      exact horder
    | wait seconds =>
      rw [order?_wait look h]
      exact horder
    | _ => cases horder

/-! ### Writing a module -/

/-- Whether an entry belongs to code that a user wrote. -/
def isCustom : Entry Statement → Bool
  | .code action _ | .diagnostic action _ => action.isCustom
  | .plain _ | .blank => false

/-- The orders in the lines of entries, code that users wrote set aside. -/
def orders (look : Look) (entries : List (Entry Statement)) : List Order :=
  (look.lines Statement.text (entries.filter (!isCustom ·))).filterMap order?

variable {look : Look} {action : Action Float}

theorem orders_append (look : Look) (entries more : List (Entry Statement)) :
    orders look (entries ++ more) = orders look entries ++ orders look more := by
  simp [orders, Look.lines]

theorem orders_of_isCustom {entry : Entry Statement} (h : isCustom entry = true) :
    orders look [entry] = [] := by
  simp [orders, h, Look.lines]

/-- A diagnostic asks for nothing. -/
theorem orders_diagnostic (hlook : look.comment = comment) (what : Program.Diagnostic) :
    orders look [.diagnostic action what] = [] := by
  have hline : order? (look.diagnosticLine action what) = none := by
    have hword : comment ∈ otherWords := List.mem_cons_self
    simp only [Look.diagnosticLine, hlook]
    cases what with
    | _ =>
      refine order?_eq_none look hword ?_
      simp only [Begins, String.toList_append, List.append_assoc]
      exact ⟨_, rfl⟩
  cases hcustom : isCustom (.diagnostic action what) with
  | true => exact orders_of_isCustom hcustom
  | false => simp [orders, hcustom, Look.lines, Look.entryLines, hline]

/-- The code of an action asks for what its statement does. -/
theorem orders_code (hcustom : action.isCustom = false) {s : Statement}
    (h : s.Readable) : orders look [.code action [s]] = s.order?.toList := by
  have hthis : isCustom (.code action [s]) = false := hcustom
  have hline := order?_text look h <| look.annotation action
  cases horder : s.order? <;>
    simp [orders, hthis, Look.lines, Look.entryLines, Look.codeLines, hline, horder]

namespace Draft

/-- The orders in the main procedure. -/
def orders (look : Look) (draft : Draft) : List Order := Rapid.orders look draft.body

theorem orders_write (draft : Draft) (entry : Entry Statement) :
    (draft.write entry).orders look = draft.orders look ++ Rapid.orders look [entry] :=
  orders_append ..

/-- A motion with its target in place asks for that motion. -/
theorem orders_motion (draft : Draft) (d : Decimals) {v : Visit Float} {kind : MoveKind}
    {target? : Option Target} (hlook : look.comment = comment) (hcustom : v.action.isCustom = false)
    (hfits : ∀ target, target? = some target → target.Fits kind) :
    (draft.motion d true v kind target?).orders look =
      draft.orders look ++ (target?.map fun target => .move kind target.numbers).toList := by
  cases target? with
  | none =>
    rw [motion, orders_write, orders_diagnostic hlook]
    rfl
  | some target =>
    have hzone (draft : Draft) (radius : Float) :
        (draft.zoneName d radius).2.orders look = draft.orders look := by
      rw [zoneName]
      split <;> rfl
    have hreadable (speed zone tool : String) :
        (Statement.move ⟨kind, .inline target, speed, zone, tool⟩).Readable :=
      ⟨target, rfl, hfits target rfl⟩
    simp only [motion, orders_write, placeTarget, if_true]
    rw [orders_code hcustom (hreadable _ _ _)]
    exact congrArg (· ++ _) (hzone _ _)

theorem orders_write_diagnostic (draft : Draft) (hlook : look.comment = comment)
    (action : Action Float) (what : Program.Diagnostic) :
    (draft.write (.diagnostic action what)).orders look = draft.orders look := by
  rw [orders_write, orders_diagnostic hlook, List.append_nil]

/-- A statement that asks for nothing. -/
theorem orders_write_silent (draft : Draft) (hcustom : action.isCustom = false)
    {s : Statement} (h : s.Readable) (hsilent : s.order? = none) :
    (draft.write (.code action [s])).orders look = draft.orders look := by
  rw [orders_write, orders_code hcustom h, hsilent, Option.toList_none, List.append_nil]

/-- Code that a user wrote is set aside, and comes of no order. -/
theorem orders_step_of_isCustom (d : Decimals) (draft : Draft) {v : Visit Float}
    (ha : v.applied = true) (hcustom : v.action.isCustom = true) :
    (step d true draft v).orders look = draft.orders look ++ (v.order? d).toList := by
  have hwrite (statements : List Statement) :
      (draft.write (.code v.action statements)).orders look = draft.orders look := by
    have hentry : isCustom (.code v.action statements) = true := hcustom
    rw [orders_write, orders_of_isCustom hentry, List.append_nil]
  cases hc : v.action.command with
  | customCode text declared =>
    cases declared with
    | true =>
      simp only [step, Visit.order?, ha, hc]
      exact (List.append_nil _).symm
    | false => simp [step, Visit.order?, ha, hc, hwrite]
  | _ =>
    rw [Action.isCustom, hc] at hcustom
    cases hcustom

/-- **A step writes the order that comes of its visit, and no other.** -/
theorem orders_step (hlook : look.comment = comment) (d : Decimals) (draft : Draft)
    (v : Visit Float) :
    (step d true draft v).orders look = draft.orders look ++ (v.order? d).toList := by
  -- only motions and pauses ask for something; the rest writes silent code, diagnostics or nothing
  have hdiagnostic := draft.orders_write_diagnostic hlook v.action
  cases ha : v.applied with
  | false => simp [step, ha, Visit.order?, hdiagnostic]
  | true =>
    cases hcustom : v.action.isCustom with
    | true => exact orders_step_of_isCustom d draft ha hcustom
    | false =>
      have hsilent {s : Statement} (hs : s.Readable) (hnone : s.order? = none) :
          (draft.write (.code v.action [s])).orders look = draft.orders look :=
        draft.orders_write_silent hcustom hs hnone
      have hlimit := hsilent (s := accelerationLimit d v.state.settings.acceleration) trivial rfl
      cases hc : v.action.command with
      | translation | rotation | transformation =>
        have hfits (target : Target) (h : poseTarget? d v.state = some target) :=
          fits_of_poseTarget? h v.state.settings.motion
        have hstep : step d true draft v =
            draft.motion d true v (.to v.state.settings.motion) (poseTarget? d v.state) := by
          simp only [step, ha, hc]
          cases v.state.settings.motion <;> rfl
        simpa [hstep, Visit.order?, ha, hc] using draft.orders_motion d hlook hcustom hfits
      | axes =>
        have hfits (target : Target) (h : jointTarget? d v.state = some target) :=
          fits_of_jointTarget? h
        simpa [step, Visit.order?, ha, hc] using draft.orders_motion d hlook hcustom hfits
      | wait millis =>
        have hseconds : (Statement.wait (Program.secondsText millis)).Readable :=
          Decimal.numeral_fixed _ 3
        simp only [step, Visit.order?, ha, hc, Bool.not_true, Bool.false_eq_true, if_false, if_true]
        rw [orders_write, orders_code hcustom hseconds]
        rfl
      | setting which => cases which <;> simp [step, Visit.order?, ha, hc, hdiagnostic, hlimit]
      | popSettings =>
        cases hb : v.device.stack.beforePop with
        | none => simp [step, Visit.order?, ha, hc, hb]
        | some before =>
          cases hne : before.acceleration != v.state.settings.acceleration <;>
            simp [step, Visit.order?, ha, hc, hb, hne, hlimit]
      | writeDigital pin on toolPin =>
        have hset := hsilent (s := .setDigital pin on) trivial rfl
        cases hp : isIdentifier pin <;> simp [step, Visit.order?, ha, hc, hp, hdiagnostic, hset]
      | writeAnalog pin value toolPin =>
        have hset := hsilent (s := .setAnalog pin (Decimal.fixed value d.volts)) trivial rfl
        cases hp : isIdentifier pin <;> simp [step, Visit.order?, ha, hc, hp, hdiagnostic, hset]
      | message text =>
        have hshow := hsilent (s := .display (stringLiteral text)) trivial rfl
        simp [step, Visit.order?, ha, hc, hshow]
      | comment text =>
        have hsay := hsilent (s := .comment text) trivial rfl
        simp [step, Visit.order?, ha, hc, hsay]
      | customCode =>
        rw [Action.isCustom, hc] at hcustom
        cases hcustom
      | defineTool tool =>
        simp only [step, Visit.order?, ha, hc]
        exact (List.append_nil _).symm
      | _ => simp [step, Visit.order?, ha, hc, hdiagnostic]

end Draft

/-- **The main procedure asks for what comes of the actions**, in their order. -/
theorem orders_draft (hlook : look.comment = comment) (d : Decimals)
    (visits : List (Visit Float)) :
    (draft d true visits).orders look = visits.filterMap (Visit.order? d) := by
  rw [List.filterMap_eq_flatMap_toList]
  exact Program.foldl_of_step (Draft.orders_step hlook d) .empty visits

end Rapid

end RobotMotion
