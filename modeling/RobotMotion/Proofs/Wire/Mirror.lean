import RobotMotion.Proofs.Wire.Drain
import RobotMotion.Proofs.Wire.Visit
import Mathlib.Logic.Function.Basic

/-!
# What a controller holds of the settings

A controller holds the parameters of the last message for each setting
(`Protocol.take`). It mirrors the settings of a device when it holds, of each setting
that has parameters, just those (`Protocol.Mirrors`). A value without parameters cannot
be sent, and then the controller keeps what it held before.

Whatever a device tries, the messages for it keep the mirror true
(`Mirrors.visit`). A setting that comes back equal to what it was is not sent; it need
not be, since equal values have the same parameters.
-/

namespace RobotMotion.Wire.Protocol

variable {p : Protocol} {held : Quantity → Option Payload}

/-- What a controller holds after a message. -/
def take (p : Protocol) (held : Quantity → Option Payload) (m : Message) :
    Quantity → Option Payload :=
  match p.setting? m with
  | none => held
  | some (q, parameters) => Function.update held q (some parameters)

/-- What a controller holds after messages one after the other. -/
def takeAll (p : Protocol) (held : Quantity → Option Payload) (messages : List Message) :
    Quantity → Option Payload :=
  messages.foldl p.take held

/-- The parameters of all settings. -/
def told (p : Protocol) (s : Settings Float) : Quantity → Option Payload :=
  fun q => p.parameter? q (s.quantity q)

/-- A controller holds the parameters of every setting that has parameters. -/
def Mirrors (p : Protocol) (held : Quantity → Option Payload) (s : Settings Float) : Prop :=
  ∀ q, (p.parameter? q (s.quantity q)).isSome = true → held q = p.parameter? q (s.quantity q)

theorem mirrors_told (s : Settings Float) : p.Mirrors (p.told s) s := fun _ _ => rfl

theorem takeAll_append (held : Quantity → Option Payload) (messages more : List Message) :
    p.takeAll held (messages ++ more) = p.takeAll (p.takeAll held messages) more :=
  List.foldl_append

theorem take_of_not_setting {m : Message} (h : p.setting? m = none) : p.take held m = held := by
  rw [take, h]

theorem take_of_setting {m : Message} {q : Quantity} {parameters : Payload}
    (h : p.setting? m = some (q, parameters)) :
    p.take held m = Function.update held q (some parameters) := by
  rw [take, h]

/-- Messages for some settings, each with its parameters, leave the others as they are. -/
theorem takeAll_of_map_eq {value : Quantity → Float} {sent : List Quantity}
    {messages : List Message}
    (h : messages.map p.setting? = sent.map fun q => (p.parameter? q (value q)).map (q, ·))
    (hsome : ∀ q ∈ sent, (p.parameter? q (value q)).isSome = true) (q : Quantity) :
    p.takeAll held messages q =
      if q ∈ sent then p.parameter? q (value q) else held q := by
  induction sent generalizing messages held with
  | nil =>
    rw [List.map_nil, List.map_eq_nil_iff] at h
    subst h
    rfl
  | cons r rest ih =>
    obtain ⟨m, more, rfl, hm, hmore⟩ := List.map_eq_cons_iff.mp h
    obtain ⟨parameters, hparameters⟩ :=
      Option.isSome_iff_exists.mp (hsome r List.mem_cons_self)
    simp only [hparameters, Option.map_some] at hm
    rw [takeAll, List.foldl_cons, take_of_setting hm]
    refine (ih hmore fun q hq => hsome q (List.mem_cons_of_mem _ hq)).trans ?_
    -- should the same setting come again, it comes with the same parameters
    by_cases hq : q ∈ rest
    · rw [if_pos hq, if_pos (List.mem_cons_of_mem _ hq)]
    · rw [if_neg hq]
      by_cases hr : q = r
      · subst hr
        rw [Function.update_self, if_pos List.mem_cons_self, hparameters]
      · rw [Function.update_of_ne hr, if_neg fun hmem => (List.mem_cons.mp hmem).elim hr hq]

/-! ### One action -/

/-- Where no quantity changes and no message is for a setting, the mirror stays true. -/
theorem Mirrors.of_not_setting {s t : Settings Float} (hm : p.Mirrors held s)
    (hquantity : ∀ q, t.quantity q = s.quantity q) {message : Option Message}
    (hmessage : ∀ m, message = some m → p.setting? m = none) :
    p.Mirrors (p.takeAll held message.toList) t := by
  have htake : p.takeAll held message.toList = held := by
    cases message with
    | none => rfl
    | some m => exact take_of_not_setting (hmessage m rfl)
  intro q hsome
  rw [hquantity] at hsome ⊢
  rw [htake]
  exact hm q hsome

/-- A quantity that takes a value is mirrored by its message, if it has one. -/
theorem Mirrors.setting {s : Settings Float} {id : Nat} (hm : p.Mirrors held s)
    (hid : p.Carries id) (which : Quantity) (value : Float) :
    p.Mirrors (p.takeAll held (p.encodeSetting? id (.quantity which value)).toList)
      (s.withQuantity which value) := by
  intro q hsome
  rw [Settings.quantity_withQuantity] at hsome ⊢
  by_cases hq : q = which
  · subst hq
    rw [if_pos rfl] at hsome ⊢
    obtain ⟨m, hencode⟩ := exists_encodeSetting? hid hsome
    obtain ⟨parameters, hparameters⟩ := Option.isSome_iff_exists.mp hsome
    have hsetting := setting?_encodeSetting? hencode
    rw [hparameters, Option.map_some] at hsetting
    rw [hencode, hparameters]
    exact (congrFun (take_of_setting hsetting) q).trans (Function.update_self ..)
  · rw [if_neg hq] at hsome ⊢
    cases hencode : p.encodeSetting? id (.quantity which value) with
    | none => exact hm q hsome
    | some m =>
      obtain ⟨_, parameters, -, hparameters, -⟩ := read?_encodeSetting? hencode
      have hsetting := setting?_encodeSetting? hencode
      rw [hparameters, Option.map_some] at hsetting
      refine (congrFun (take_of_setting hsetting) q).trans ?_
      rw [Function.update_of_ne hq]
      exact hm q hsome

/-- Settings that were taken back are mirrored by the messages for those that changed. -/
theorem Mirrors.changes {before after : Settings Float} {id : Nat}
    (hm : p.Mirrors held before) (hid : p.Carries id) :
    p.Mirrors (p.takeAll held (p.encodeChanges id
      ((p.sentQuantities after before).map fun q => .quantity q (after.quantity q)))) after := by
  intro q hsome
  rw [takeAll_of_map_eq (map_setting?_encodeChanges hid isSome_of_mem_sentQuantities)
    isSome_of_mem_sentQuantities]
  by_cases hq : q ∈ p.sentQuantities after before
  · rw [if_pos hq]
  · -- what was not sent is equal to what it was, if it has parameters at all
    have hsame : (after.quantity q == before.quantity q) = true := by
      rw [mem_sentQuantities, hsome, and_iff_left rfl, Bool.not_eq_false] at hq
      exact hq
    rw [if_neg hq, p.parameter?_of_beq q hsame]
    rw [p.parameter?_of_beq q hsame] at hsome
    exact hm q hsome

/-- **Whatever a device tries, the messages for it keep the mirror true.** -/
theorem Mirrors.visit {d : Device Float} {a : Action Float}
    (hm : p.Mirrors held d.state.settings) (hid : p.Carries a.id) :
    p.Mirrors (p.takeAll held (p.delivery (d.visit a)).messages)
      (d.visit a).device.state.settings := by
  cases happlied : (d.visit a).applied with
  | false =>
    rw [Device.visit_device_of_rejected happlied, delivery, happlied]
    exact hm
  | true =>
    have hperform := Device.perform_of_applied happlied
    have htunes := Device.perform_tunes hperform
    generalize he : (d.visit a).device = e at hperform htunes ⊢
    have hmessages : (p.delivery (d.visit a)).messages = p.messages a e := by
      simp only [delivery, happlied, if_true, Device.visit_action, he]
    rw [hmessages]
    by_cases hpop : a.command = .popSettings
    · rw [messages_popSettings p hpop hperform]
      exact hm.changes hid
    · rw [messages_of_ne hpop]
      have hsettings : e.state.settings = a.command.tuned d.state.settings := by
        cases hc : a.command with
        | popSettings => exact absurd hc hpop
        | _ => rw [hc] at htunes; exact htunes
      by_cases hsetting : ∃ which value relative, a.command = .setting which value relative
      · obtain ⟨which, value, relative, hc⟩ := hsetting
        obtain ⟨id, command⟩ := a
        obtain rfl := hc
        rw [encode?_setting, hsettings, Command.tuned, Settings.quantity_withQuantity, if_pos rfl]
        exact hm.setting hid which _
      · have hnot : ∀ which value relative, a.command ≠ .setting which value relative :=
          fun which value relative hc => hsetting ⟨which, value, relative, hc⟩
        refine hm.of_not_setting (fun q => ?_) fun m => setting?_encode? hnot
        rw [hsettings, Command.quantity_tuned hnot]

/-! ### Calls one after the other -/

variable {f : Fleet Float} {i : Nat} {c : Cursor Float}

/-- Calls for the messages of a cursor keep the mirror of its settings true. -/
theorem Mirrors.calls (n : Nat) (hc : f.cursor? i = some c)
    (hm : p.Mirrors held c.device.state.settings)
    (hids : ∀ a ∈ c.queue.pending, p.Carries a.id) :
    ∃ d, (f.run (.replicate n (.next i))).cursor? i = some d ∧
      p.Mirrors (p.takeAll held (p.sent i f (.replicate n (.next i)))) d.device.state.settings := by
  -- a call releases an action, and what it leaves to wait still fits
  induction n generalizing f c held with
  | zero => exact ⟨c, hc, hm⟩
  | succ n ih =>
    rw [List.replicate_succ, sent, takeAll_append, Fleet.run, List.foldl_cons]
    cases hp : c.queue.pending with
    | nil =>
      obtain ⟨hanswer, hafter⟩ := call_of_nothing_waits p (waiting_eq_zero hc hp)
      rw [hanswer, hafter]
      exact ih hc hm hids
    | cons a rest =>
      obtain ⟨g, queue, hstream, -, hg, -, hrest⟩ := stream?_eq p hc hp
      rw [answer_next hstream, after_next_of_stream? hstream]
      rw [hp] at hids
      refine ih hg (hm.visit (hids a List.mem_cons_self)) fun b hb => ?_
      rw [hrest] at hb
      exact hids b (List.mem_cons_of_mem _ hb)

/-- Every speed, acceleration and precision has parameters in texts. -/
theorem isSome_parameter?_abb {q : Quantity} (hq : q ≠ .extrusionRate) (value : Float) :
    (abb.parameter? q value).isSome = true := by
  rw [← isSome_encodeSetting?, encodeSetting?, Abb.settingFrame?_quantity]
  cases q with
  | extrusionRate => exact absurd rfl hq
  | _ => rfl

/-- **What is streamed mirrors the settings of the cursor.** A controller starts with the
parameters of the settings that a cursor has, and takes over those of each message for a
setting. After any number of calls for the next messages, whatever waits at the cursor,
it holds the parameters of the present speed, acceleration and precision: in texts of
all three, in words of those that fit, as long as the identifiers do. -/
theorem settings_mirrored (p : Protocol) (hc : f.cursor? i = some c)
    (hids : ∀ a ∈ c.queue.pending, p.Carries a.id) (n : Nat) :
    let calls : List (Fleet.Operation Float) := .replicate n (.next i)
    let held := p.takeAll (p.told c.device.state.settings) (p.sent i f calls)
    ∃ d, (f.run calls).cursor? i = some d ∧
      ∀ q, q ≠ .extrusionRate →
        let present := p.parameter? q (d.device.state.settings.quantity q)
        (p = .abb → present.isSome = true) ∧ (present.isSome = true → held q = present) := by
  obtain ⟨d, hd, hmirrors⟩ := (mirrors_told (p := p) c.device.state.settings).calls n hc hids
  refine ⟨d, hd, fun q hq => ⟨?_, hmirrors q⟩⟩
  rintro rfl
  exact isSome_parameter?_abb hq _

/-- Actions that choose a speed that does not fit into a word and take back the one before. -/
def tooFastForAWhile : List (Fleet.Operation Float) :=
  [.add "arm" false none [], .start 0 .origin .standard,
    .issue 0 ⟨1, .pushSettings⟩, .issue 0 ⟨2, .setting .speed 1e9 false⟩,
    .issue 0 ⟨3, .setting .acceleration 250 false⟩, .issue 0 ⟨4, .setting .precision (-7) true⟩,
    .issue 0 ⟨5, .popSettings⟩, .issue 0 ⟨6, .popSettings⟩]

/-- In the end the controller holds the speed of the beginning again. -/
theorem settings_mirrored_tooFastForAWhile :
    ∃ c, (Fleet.empty.run tooFastForAWhile).cursor? 0 = some c ∧
      let calls : List (Fleet.Operation Float) := .replicate 6 (.next 0)
      let held := ur.takeAll (ur.told c.device.state.settings)
        (ur.sent 0 (Fleet.empty.run tooFastForAWhile) calls)
      held .speed = some (.words [200]) := by
  have hwaiting : ((Fleet.empty.run tooFastForAWhile).cursor? 0).map
      (·.queue.pending.all fun a => decide ((a.id : Int) < wordLimit)) = some true := by
    decide +kernel
  have hend : (((Fleet.empty.run tooFastForAWhile).run (.replicate 6 (.next 0))).cursor? 0).map
      (fun d => ur.parameter? .speed d.device.state.settings.speed) =
        some (some (.words [200])) := by
    decide +kernel
  obtain ⟨c, hc, hfit⟩ := Option.map_eq_some_iff.mp hwaiting
  have hids : ∀ a ∈ c.queue.pending, ur.Carries a.id :=
    fun a ha _ => of_decide_eq_true (List.all_eq_true.mp hfit a ha)
  obtain ⟨d, hd, hmirrored⟩ := settings_mirrored ur hc hids 6
  rw [hd] at hend
  have hspeed := Option.some.inj hend
  refine ⟨c, hc, ?_⟩
  exact ((hmirrored .speed nofun).2 (Option.isSome_of_eq_some hspeed)).trans hspeed

end RobotMotion.Wire.Protocol
