import RobotMotion.Proofs.Device.Sequence
import RobotMotion.Proofs.Device.Tuning
import RobotMotion.Proofs.Wire.Reading
import Mathlib.Data.List.Basic

/-!
# The messages of one action

An action that applies has at most one message, unless it takes settings back. Then
there is one message for each setting that changed and has parameters
(`Protocol.sentQuantities`), compared with the settings just before
(`Protocol.messages_popSettings`). All of these but the last ask for no acknowledgment.
-/

namespace RobotMotion.Wire.Protocol

variable {p : Protocol} {id : Nat}

/-- The settings that have to be sent after a change, in the order in which they are. -/
def sentQuantities (p : Protocol) (after before : Settings Float) : List Quantity :=
  [Quantity.speed, .acceleration, .precision].filter fun q =>
    !(after.quantity q == before.quantity q) && (p.parameter? q (after.quantity q)).isSome

theorem mem_sentQuantities {after before : Settings Float} {q : Quantity} :
    q ∈ p.sentQuantities after before ↔
      (after.quantity q == before.quantity q) = false ∧
        (p.parameter? q (after.quantity q)).isSome = true := by
  rw [sentQuantities, List.mem_filter, Bool.and_eq_true, Bool.not_eq_true']
  refine and_iff_right_of_imp fun h => ?_
  cases q with
  | extrusionRate => cases p <;> cases h.2
  | _ => decide

theorem isSome_of_mem_sentQuantities {after before : Settings Float} :
    ∀ q ∈ p.sentQuantities after before, (p.parameter? q (after.quantity q)).isSome = true :=
  fun _ hq => (mem_sentQuantities.mp hq).2

/-- A setting has a message without acknowledgment exactly if it has parameters. -/
theorem isSome_encodeSetting? (p : Protocol) (q : Quantity) (value : Float) :
    (p.encodeSetting? noAcknowledgment (.quantity q value)).isSome =
      (p.parameter? q value).isSome := by
  rw [Bool.eq_iff_iff, Option.isSome_iff_exists]
  constructor
  · rintro ⟨m, hm⟩
    obtain ⟨-, parameters, -, hparameters, -⟩ := read?_encodeSetting? hm
    exact Option.isSome_of_eq_some hparameters
  · exact exists_encodeSetting? fun _ => by decide

theorem sendable_append (p : Protocol) (changes more : List (SettingChange Float)) :
    p.sendable (changes ++ more) = p.sendable changes ++ p.sendable more :=
  List.filter_append ..

/-- What may be sent of one quantity. -/
theorem sendable_quantity (p : Protocol) (after before : Settings Float) (q : Quantity) :
    p.sendable (if after.quantity q == before.quantity q then []
      else [.quantity q (after.quantity q)]) =
      ([q].filter fun q => !(after.quantity q == before.quantity q) &&
        (p.parameter? q (after.quantity q)).isSome).map
          fun q => .quantity q (after.quantity q) := by
  cases hsame : after.quantity q == before.quantity q with
  | true => simp [sendable, hsame]
  | false =>
    cases hsome : (p.parameter? q (after.quantity q)).isSome with
    | true => simp [sendable, isSome_encodeSetting?, hsame, hsome]
    | false => simp [sendable, isSome_encodeSetting?, hsame, hsome]

/-- The extrusion rate, the motion type and the reference frame are never sent. -/
theorem sendable_changesSince (p : Protocol) (after before : Settings Float) :
    p.sendable (after.changesSince before) =
      (p.sentQuantities after before).map fun q => .quantity q (after.quantity q) := by
  have hrate : ([Quantity.extrusionRate].filter fun q =>
      !(after.quantity q == before.quantity q) &&
        (p.parameter? q (after.quantity q)).isSome) = [] := by
    have hnone : (p.parameter? .extrusionRate (after.quantity .extrusionRate)).isSome = false := by
      cases p <;> rfl
    simp [hnone]
  have hmotion : p.sendable (if after.motion = before.motion then [] else [.motion after.motion]) =
      [] := by
    split
    · rfl
    · cases p <;> rfl
  have hframe : p.sendable (if after.frame = before.frame then [] else [.frame after.frame]) =
      [] := by
    split
    · rfl
    · cases p <;> rfl
  have hthree : [Quantity.speed, .acceleration, .precision] =
      [Quantity.speed] ++ [Quantity.acceleration] ++ [Quantity.precision] := rfl
  simp only [Settings.changesSince, sendable_append, sendable_quantity, hmotion, hframe, hrate,
    sentQuantities, hthree, List.filter_append, List.map_append, List.map_nil, List.append_nil]

/-! ### The messages for settings that changed -/

/-- What is read in the messages for changes, if it depends on the identifier and the
setting alone: the last message has the identifier, and the others have none. -/
theorem map_encodeChanges {β : Type} (hid : p.Carries id) {value : Quantity → Float}
    {init : List Quantity} {last : Quantity}
    (h : ∀ q ∈ init ++ [last], (p.parameter? q (value q)).isSome = true) {read : Message → β}
    {said : Nat → Quantity → β} (hread : ∀ {n q m},
      p.encodeSetting? n (.quantity q (value q)) = some m → read m = said n q) :
    (p.encodeChanges id ((init ++ [last]).map fun q => .quantity q (value q))).map read =
      init.map (said noAcknowledgment) ++ [said id last] := by
  induction init with
  | nil =>
    obtain ⟨m, hm⟩ := exists_encodeSetting? hid (h last List.mem_cons_self)
    simp [encodeChanges, hm, hread hm]
  | cons q rest ih =>
    have hzero : p.Carries noAcknowledgment := fun _ => by decide
    obtain ⟨m, hm⟩ := exists_encodeSetting? hzero (h q List.mem_cons_self)
    have hrest := ih fun r hr => h r (List.mem_cons_of_mem _ hr)
    rw [List.cons_append, List.map_cons, encodeChanges, hm, List.map_append, hrest]
    · simp [hread hm]
    · simp

/-- The messages for changes are read in their order. -/
theorem map_setting?_encodeChanges (hid : p.Carries id) {value : Quantity → Float}
    {sent : List Quantity} (h : ∀ q ∈ sent, (p.parameter? q (value q)).isSome = true) :
    (p.encodeChanges id (sent.map fun q => .quantity q (value q))).map p.setting? =
      sent.map fun q => (p.parameter? q (value q)).map (q, ·) := by
  rcases List.eq_nil_or_concat' sent with rfl | ⟨init, last, rfl⟩
  · rfl
  · rw [map_encodeChanges hid h setting?_encodeSetting?, List.map_append]
    rfl

/-- Only the last of the messages for changes asks for an acknowledgment. -/
theorem map_id?_encodeChanges (hid : p.Carries id) {value : Quantity → Float}
    {sent : List Quantity} (h : ∀ q ∈ sent, (p.parameter? q (value q)).isSome = true)
    (hsome : sent ≠ []) :
    (p.encodeChanges id (sent.map fun q => .quantity q (value q))).map p.id? =
      List.replicate (sent.length - 1) (some noAcknowledgment) ++ [some id] := by
  rcases List.eq_nil_or_concat' sent with rfl | ⟨init, last, rfl⟩
  · exact absurd rfl hsome
  · rw [map_encodeChanges hid h id?_encodeSetting?, List.map_const', List.length_append,
      List.length_singleton, Nat.add_sub_cancel]

/-! ### The messages of an action that applied -/

theorem messages_of_ne {a : Action Float} (hne : a.command ≠ .popSettings) (e : Device Float) :
    p.messages a e = (p.encode? a e.state).toList := by
  obtain ⟨id, command⟩ := a
  cases command with
  | popSettings => exact absurd rfl hne
  | _ => rfl

/-- **Settings that were taken back are compared with those just before.** -/
theorem messages_popSettings (p : Protocol) {d e : Device Float} {a : Action Float}
    (hpop : a.command = .popSettings) (h : d.perform a.command = .ok e) :
    p.messages a e = p.encodeChanges a.id
      ((p.sentQuantities e.state.settings d.state.settings).map fun q =>
        .quantity q (e.state.settings.quantity q)) := by
  -- the stack keeps the settings from before taking back, and those are the ones of `d`
  have htunes := Device.perform_tunes h
  rw [hpop] at htunes
  obtain ⟨rest, -, hstack⟩ := htunes
  simp only [messages, hpop, hstack, sendable_changesSince]

end RobotMotion.Wire.Protocol
