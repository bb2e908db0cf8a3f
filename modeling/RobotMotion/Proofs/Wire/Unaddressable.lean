import RobotMotion.Proofs.Wire.Acknowledgment
import RobotMotion.Proofs.Wire.Words

/-!
# Actions that cannot be addressed

An identifier that does not fit into a word cannot be sent in words, and so there is no
message for its action (`Protocol.encode?_of_unaddressable`). Nothing goes out then, but for
one case. The settings to be sent when some are taken back are chosen with the identifier
zero, which always fits; only the last of them then fails to be sent, since it should carry
the identifier of the action. What comes before it goes out, and asks for no acknowledgment
(`Protocol.unaddressable_released`).
-/

namespace RobotMotion.Wire.Protocol

variable {id : Nat}

/-- A message in words carries an identifier that fits. -/
theorem lt_wordLimit_of_encoded {m : Message} (h : ur.Encoded m) (hid : ur.id? m = some id) :
    (id : Int) < wordLimit := by
  obtain ⟨frame, rfl⟩ := exists_frame_of_encoded h
  have hframe : ur.id? frame.message = some frame.id := by
    rw [id?]
    exact congrArg (Option.map Reading.id) (Ur.read?_words ..)
  obtain rfl := Option.some.inj (hframe.symm.trans hid)
  exact frame.id_lt

/-- There is no message for an action that cannot be addressed. -/
theorem encode?_of_unaddressable {a : Action Float} (h : wordLimit ≤ (a.id : Int))
    (s : State Float) : ur.encode? a s = none := by
  refine Option.eq_none_iff_forall_ne_some.mpr fun m hm => ?_
  exact absurd (lt_wordLimit_of_encoded (.action hm) (id?_encode? hm)) (Int.not_lt.mpr h)

/-- Nor is there a message for a setting under its identifier. -/
theorem encodeSetting?_of_unaddressable (h : wordLimit ≤ (id : Int))
    (change : SettingChange Float) : ur.encodeSetting? id change = none := by
  refine Option.eq_none_iff_forall_ne_some.mpr fun m hm => ?_
  exact absurd (lt_wordLimit_of_encoded (.setting hm) (id?_of_encodeSetting? hm))
    (Int.not_lt.mpr h)

/-- Of the messages for changes only the last is left out. -/
theorem encodeChanges_of_unaddressable (h : wordLimit ≤ (id : Int))
    (changes : List (SettingChange Float)) :
    ur.encodeChanges id changes =
      changes.dropLast.filterMap (ur.encodeSetting? noAcknowledgment) := by
  fun_induction encodeChanges ur id changes with
  | case1 => rfl
  | case2 change => exact congrArg Option.toList (encodeSetting?_of_unaddressable h change)
  | case3 change rest hrest ih =>
    rw [ih, List.dropLast_cons_of_ne_nil (by simpa using hrest), List.filterMap_cons]
    cases ur.encodeSetting? noAcknowledgment change <;> rfl

/-- What goes out for settings that are taken back by an action that cannot be addressed:
all of it but the last message, and nothing asks for an acknowledgment. -/
def unaddressed (after before : Settings Float) : List Message :=
  (ur.sentQuantities after before).dropLast.filterMap fun q =>
    ur.encodeSetting? noAcknowledgment (.quantity q (after.quantity q))

/-- What goes out asks for no acknowledgment. -/
theorem id?_of_mem_unaddressed {after before : Settings Float} {m : Message}
    (h : m ∈ unaddressed after before) : ur.id? m = some noAcknowledgment := by
  obtain ⟨q, -, hm⟩ := List.mem_filterMap.mp h
  exact id?_encodeSetting? hm

/-- Each of these settings has a message. -/
theorem length_unaddressed (after before : Settings Float) :
    (unaddressed after before).length = (ur.sentQuantities after before).length - 1 := by
  rw [← List.length_dropLast, unaddressed, List.filterMap_length_eq_length]
  intro q hq
  rw [isSome_encodeSetting?]
  exact isSome_of_mem_sentQuantities q (List.dropLast_subset _ hq)

section

variable {d : Device Float} {a : Action Float}

/-- Settings that were taken back by an action that cannot be addressed. -/
theorem messages_delivery_of_popSettings (h : wordLimit ≤ (a.id : Int))
    (happlied : (d.visit a).applied = true) (hpop : a.command = .popSettings) :
    (ur.delivery (d.visit a)).messages =
      unaddressed (d.visit a).device.state.settings d.state.settings := by
  have hmessages := messages_popSettings ur hpop (Device.perform_of_applied happlied)
  rw [encodeChanges_of_unaddressable h, ← List.map_dropLast, List.filterMap_map] at hmessages
  rw [delivery, Device.visit_action, happlied]
  exact hmessages

/-- Any other action that cannot be addressed. -/
theorem messages_delivery_of_ne (h : wordLimit ≤ (a.id : Int))
    (hne : ¬ ((d.visit a).applied = true ∧ a.command = .popSettings)) :
    (ur.delivery (d.visit a)).messages = [] := by
  rw [delivery, Device.visit_action]
  cases happlied : (d.visit a).applied with
  | false => rfl
  | true =>
    have hpop : a.command ≠ .popSettings := fun hpop => hne ⟨happlied, hpop⟩
    have hmessages := messages_of_ne (p := ur) hpop (d.visit a).device
    rw [encode?_of_unaddressable h] at hmessages
    exact hmessages

end

variable {f : Fleet Float} {i : Nat} {c : Cursor Float}

/-- **An action that cannot be addressed is used up in silence, unless it takes settings
back.** A call for the next messages in words that releases such an action carries it out,
and no message asks for an acknowledgment. Nothing goes out at all, but where the action
takes back two or more settings that have messages: of these all but the last go out. -/
theorem unaddressable_released (hc : f.cursor? i = some c) {a : Action Float}
    {rest : List (Action Float)} (hp : c.queue.pending = a :: rest)
    (hid : wordLimit ≤ (a.id : Int)) :
    let v := c.device.visit a
    let after := v.device.state.settings
    let before := c.device.state.settings
    ∃ messages g queue, ur.stream? f i = some (messages, g) ∧
      f.next? i = some ((a, v.applied), g) ∧
      g.cursor? i = some { c with device := v.device, queue } ∧ queue.pending = rest ∧
      (∀ m ∈ messages, ur.id? m = some noAcknowledgment) ∧
      (messages ≠ [] ↔ v.applied = true ∧ a.command = .popSettings ∧
        2 ≤ (ur.sentQuantities after before).length) ∧
      (messages ≠ [] → messages = unaddressed after before) := by
  intro v after before
  obtain ⟨g, queue, hstream, hnext, hg, -, hq⟩ := stream?_eq ur hc hp
  refine ⟨_, g, queue, hstream, hnext, hg, hq, ?_⟩
  -- only settings that are taken back are sent under zero
  by_cases hback : v.applied = true ∧ a.command = .popSettings
  · have hmessages : (ur.delivery v).messages = unaddressed after before :=
      messages_delivery_of_popSettings hid hback.1 hback.2
    have hlength := length_unaddressed after before
    rw [hmessages]
    refine ⟨fun m => id?_of_mem_unaddressed, ?_, fun _ => rfl⟩
    rw [← List.length_pos_iff, hlength]
    refine ⟨fun hsome => ⟨hback.1, hback.2, by omega⟩, fun hsome => ?_⟩
    have htwo := hsome.2.2
    omega
  · have hmessages : (ur.delivery v).messages = [] := messages_delivery_of_ne hid hback
    rw [hmessages]
    refine ⟨nofun, ?_, fun hsome => absurd rfl hsome⟩
    exact ⟨fun hsome => absurd rfl hsome, fun hsome => absurd ⟨hsome.1, hsome.2.1⟩ hback⟩

/-- Requests that leave a change of speed and acceleration to be taken back by an action far
along, whose identifier is the first that does not fit. -/
def takenBackFarAlong : List (Fleet.Operation Float) :=
  [.add "arm" false none [], .start 0 .origin .standard, .issue 0 ⟨1, .pushSettings⟩,
    .issue 0 ⟨2, .setting .speed 50 false⟩, .issue 0 ⟨3, .setting .acceleration 250 false⟩,
    .advanceTo 0 3, .issue 0 ⟨2147483648, .popSettings⟩]

theorem pending_takenBackFarAlong :
    ((Fleet.empty.run takenBackFarAlong).cursor? 0).map (·.queue.pending) =
      some [⟨2147483648, .popSettings⟩] := by decide +kernel

theorem messages_takenBackFarAlong :
    (ur.stream? (Fleet.empty.run takenBackFarAlong) 0).map Prod.fst =
      some [.binary [0, 4, 200]] := by decide +kernel

/-- The speed goes out, the acceleration does not, and nothing will be acknowledged. -/
theorem unaddressable_released_takenBackFarAlong :
    ∃ messages g, ur.stream? (Fleet.empty.run takenBackFarAlong) 0 = some (messages, g) ∧
      messages = [.binary [0, 4, 200]] ∧ ∀ m ∈ messages, ur.id? m = some noAcknowledgment := by
  have hsent := messages_takenBackFarAlong
  obtain ⟨c, hc, hp⟩ := Option.map_eq_some_iff.mp pending_takenBackFarAlong
  obtain ⟨messages, g, queue, hstream, -, -, -, hids, -⟩ :=
    unaddressable_released hc hp (by decide)
  rw [hstream] at hsent
  exact ⟨messages, g, hstream, Option.some.inj hsent, hids⟩

/-- So it is not that an action that cannot be addressed always sends nothing. -/
theorem not_silent_takenBackFarAlong :
    ¬ ∀ (f : Fleet Float) (i : Nat) (c : Cursor Float) (a : Action Float)
      (rest : List (Action Float)), f.Reachable → f.cursor? i = some c →
        c.queue.pending = a :: rest → wordLimit ≤ (a.id : Int) →
        ∃ g, ur.stream? f i = some ([], g) := by
  intro h
  have hsent := messages_takenBackFarAlong
  obtain ⟨c, hc, hp⟩ := Option.map_eq_some_iff.mp pending_takenBackFarAlong
  obtain ⟨g, hstream⟩ := h _ 0 c _ [] ⟨takenBackFarAlong, rfl⟩ hc hp (by decide)
  rw [hstream] at hsent
  cases hsent

end RobotMotion.Wire.Protocol
