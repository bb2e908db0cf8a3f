import RobotMotion.Proofs.Wire.Drain
import RobotMotion.Proofs.Wire.Visit

/-!
# What is acknowledged, and how often

A controller acknowledges the messages that carry an identifier other than zero.
`Protocol.Acknowledges` says what the answer to one call looks like: every message but
the last carries zero, the last one carries the identifier of the action that applied,
and only taking settings back has several. Over a run the identifiers that are asked to
be acknowledged increase, because what a call releases comes after all that was
released before.
-/

namespace RobotMotion.Wire.Protocol

variable {p : Protocol}

/-- The identifiers that messages ask to be acknowledged. -/
def asked (p : Protocol) (messages : List Message) : List Nat :=
  (messages.filterMap p.id?).filter (· != noAcknowledgment)

theorem asked_append (p : Protocol) (messages more : List Message) :
    p.asked (messages ++ more) = p.asked messages ++ p.asked more := by
  simp [asked]

/-! ### One action -/

/-- The messages for an action that a device tried. -/
structure Acknowledges (p : Protocol) (d : Device Float) (a : Action Float)
    (messages : List Message) : Prop where
  /-- a rejected action has none -/
  applied : messages ≠ [] → (d.visit a).applied = true
  /-- an identifier can be read in each -/
  readable : ∀ m ∈ messages, (p.id? m).isSome = true
  /-- the last one carries the identifier, and all before ask for no acknowledgment -/
  ids : p.Carries a.id → messages ≠ [] → messages.map p.id? =
    List.replicate (messages.length - 1) (some noAcknowledgment) ++ [some a.id]
  /-- there are several only for settings that were taken back -/
  several : 1 < messages.length → a.command = .popSettings
  /-- and these are the speed, the acceleration and the precision, as far as they changed
  and have parameters -/
  changes : a.command = .popSettings → (d.visit a).applied = true → p.Carries a.id →
    let after := (d.visit a).device.state.settings
    messages.map p.setting? = (p.sentQuantities after d.state.settings).map fun q =>
      (p.parameter? q (after.quantity q)).map (q, ·)

/-- A message for a change carries the identifier that it was given. -/
theorem id?_of_encodeSetting? {id : Nat} {change : SettingChange Float} {m : Message}
    (h : p.encodeSetting? id change = some m) : p.id? m = some id := by
  cases change with
  | quantity q value => exact id?_encodeSetting? h
  | motion type => cases p <;> cases h
  | frame frame => cases p <;> cases h

/-- Identifiers of messages of which only the last may ask for an acknowledgment. -/
def Stamped (id : Nat) (ids : List (Option Nat)) : Prop :=
  ∃ k, ids = .replicate k (some noAcknowledgment) ∨
    ids = .replicate k (some noAcknowledgment) ++ [some id]

theorem Stamped.cons {id : Nat} {ids : List (Option Nat)} (h : Stamped id ids) :
    Stamped id (some noAcknowledgment :: ids) := by
  obtain ⟨k, rfl | rfl⟩ := h
  · exact ⟨k + 1, .inl rfl⟩
  · exact ⟨k + 1, .inr rfl⟩

/-- A message that carries the identifier, if there is one at all. -/
theorem stamped_toList {id : Nat} {message : Option Message}
    (h : ∀ m, message = some m → p.id? m = some id) :
    Stamped id (message.toList.map p.id?) := by
  cases message with
  | none => exact ⟨0, .inl rfl⟩
  | some m => exact ⟨0, .inr (congrArg (fun x => [x]) (h m rfl))⟩

/-- Of the messages for changes only the last may carry the identifier. -/
theorem stamped_encodeChanges (p : Protocol) (id : Nat) (changes : List (SettingChange Float)) :
    Stamped id ((p.encodeChanges id changes).map p.id?) := by
  fun_induction encodeChanges p id changes with
  | case1 => exact ⟨0, .inl rfl⟩
  | case2 change => exact stamped_toList fun m => id?_of_encodeSetting?
  | case3 change rest _ ih =>
    -- a change without a message adds no identifier
    cases h : p.encodeSetting? noAcknowledgment change with
    | none => exact ih
    | some m =>
      rw [Option.toList_some, List.singleton_append, List.map_cons, id?_of_encodeSetting? h]
      exact ih.cons

/-- Only the last message of an action may ask for an acknowledgment, also where the
identifier does not fit. -/
theorem stamped_messages (p : Protocol) (a : Action Float) (e : Device Float) :
    Stamped a.id ((p.messages a e).map p.id?) := by
  by_cases hpop : a.command = .popSettings
  · rw [messages, hpop]
    simp only
    split
    · exact stamped_encodeChanges p a.id _
    · exact ⟨0, .inl rfl⟩
  · rw [messages_of_ne hpop]
    exact stamped_toList fun m => id?_encode?

/-- The same of whatever a call sends. -/
theorem stamped_delivery (p : Protocol) (d : Device Float) (a : Action Float) :
    Stamped a.id ((p.delivery (d.visit a)).messages.map p.id?) := by
  rw [delivery, Device.visit_action]
  simp only
  split
  · exact stamped_messages p a _
  · exact ⟨0, .inl rfl⟩

/-- An identifier can be read in each of such messages. -/
theorem Stamped.isSome {id : Nat} {messages : List Message}
    (h : Stamped id (messages.map p.id?)) : ∀ m ∈ messages, (p.id? m).isSome = true := by
  intro m hm
  have hmem : p.id? m ∈ messages.map p.id? := List.mem_map_of_mem hm
  obtain ⟨k, hk | hk⟩ := h
  · rw [hk] at hmem
    rw [List.eq_of_mem_replicate hmem]
    rfl
  · rw [hk] at hmem
    rcases List.mem_append.mp hmem with hmem | hmem
    · rw [List.eq_of_mem_replicate hmem]
      rfl
    · rw [List.mem_singleton.mp hmem]
      rfl

/-- The identifier of an action is asked to be acknowledged once at most. -/
theorem Stamped.asked_sublist {id : Nat} {messages : List Message}
    (h : Stamped id (messages.map p.id?)) : (p.asked messages).Sublist [id] := by
  have hasked : p.asked messages =
      ((messages.map p.id?).filterMap fun x => x).filter (· != noAcknowledgment) := by
    rw [asked, List.filterMap_map]
    rfl
  rw [hasked]
  obtain ⟨k, hk | hk⟩ := h
  · simp [hk]
  · rw [hk, List.filterMap_append, List.filter_append]
    have hzeros : ((List.replicate k (some noAcknowledgment)).filterMap fun x => x).filter
        (· != noAcknowledgment) = [] := by simp
    rw [hzeros, List.nil_append]
    exact List.filter_sublist

section

variable {d : Device Float} {a : Action Float}

/-- A rejected action has no messages, and nothing to be acknowledged. -/
theorem acknowledges_of_rejected (p : Protocol) (h : (d.visit a).applied = false) :
    p.Acknowledges d a [] where
  applied hne := absurd rfl hne
  readable := nofun
  ids _ hne := absurd rfl hne
  several := nofun
  changes _ happlied := by
    rw [h] at happlied
    cases happlied

/-- What has one message at most is acknowledged by it. -/
theorem acknowledges_of_ne (happlied : (d.visit a).applied = true)
    (hne : a.command ≠ .popSettings) {message : Option Message}
    (h : ∀ m, message = some m → p.id? m = some a.id) : p.Acknowledges d a message.toList where
  applied _ := happlied
  readable := (stamped_toList h).isSome
  ids _ hsome := by
    cases message with
    | none => exact absurd rfl hsome
    | some m => exact congrArg (fun x => [x]) (h m rfl)
  several hlong := by
    cases message with
    | none => cases hlong
    | some m => exact absurd hlong (Nat.lt_irrefl 1)
  changes hpop := absurd hpop hne

/-- The last of the messages for settings that were taken back acknowledges all of them. -/
theorem acknowledges_of_popSettings (p : Protocol) (happlied : (d.visit a).applied = true)
    (hpop : a.command = .popSettings) :
    p.Acknowledges d a (p.messages a (d.visit a).device) := by
  have hreadable := (stamped_messages p a (d.visit a).device).isSome
  rw [messages_popSettings p hpop (Device.perform_of_applied happlied)] at hreadable ⊢
  refine ⟨fun _ => happlied, hreadable, fun hid hne => ?_, fun _ => hpop, fun _ _ hid => ?_⟩
  · have hsome : p.sentQuantities (d.visit a).device.state.settings d.state.settings ≠ [] := by
      intro hnil
      rw [hnil] at hne
      exact hne rfl
    -- every quantity that is sent has a message, so there are as many messages as such quantities
    have hids := map_id?_encodeChanges hid isSome_of_mem_sentQuantities hsome
    have hlength := congrArg List.length hids
    simp only [List.length_map, List.length_append, List.length_replicate,
      List.length_singleton] at hlength
    rw [hids, hlength, Nat.add_sub_cancel]
  · exact map_setting?_encodeChanges hid isSome_of_mem_sentQuantities

/-- **The messages for an action that a device tried are acknowledged as they should
be.** -/
theorem acknowledges_visit (p : Protocol) (d : Device Float) (a : Action Float) :
    p.Acknowledges d a (p.delivery (d.visit a)).messages := by
  rw [delivery, Device.visit_action]
  cases happlied : (d.visit a).applied with
  | false => exact acknowledges_of_rejected p happlied
  | true =>
    by_cases hpop : a.command = .popSettings
    · exact acknowledges_of_popSettings p happlied hpop
    · show p.Acknowledges d a (p.messages a (d.visit a).device)
      rw [messages_of_ne hpop]
      exact acknowledges_of_ne happlied hpop fun m => id?_encode?

end

/-! ### Calls among other requests -/

variable {f : Fleet Float} {i : Nat}

/-- A request has messages only where it releases an action, and they ask for at most
that one to be acknowledged. It comes after all that was past, and then is past itself. -/
theorem asked_answer (p : Protocol) (hf : f.Reachable) (i : Nat) (op : Fleet.Operation Float) :
    p.asked (p.answer i f op) = [] ∨ ∃ c d n, f.cursor? i = some c ∧
      (f.after op).cursor? i = some d ∧ p.asked (p.answer i f op) = [n] ∧
      (∀ id, c.queue.Past id → id < n) ∧ d.queue.Past n := by
  by_cases hop : op = .next i
  · subst hop
    cases hstream : p.stream? f i with
    | none => exact .inl (by rw [(call_of_nothing_waits p (stream?_eq_none_iff.mp hstream)).1]; rfl)
    | some called =>
      obtain ⟨messages, g⟩ := called
      obtain ⟨c, a, rest, hc, hp⟩ := exists_pending_of_stream? hstream
      obtain ⟨g', queue, hstream', -, hg, hnext, -⟩ := stream?_eq p hc hp
      obtain ⟨rfl, rfl⟩ := Prod.mk.inj (Option.some.inj (hstream.symm.trans hstream'))
      rw [answer_next hstream, after_next_of_stream? hstream]
      -- a frame whose identifier does not fit is never sent, so nothing may be asked at all
      rcases List.sublist_singleton.mp (stamped_delivery p c.device a).asked_sublist with h | h
      · exact .inl h
      · refine .inr ⟨c, _, a.id, hc, hg, h, fun id hpast => hpast.waiting a ?_,
          Fleet.past_of_next? hf hc hnext⟩
        rw [hp]
        exact List.mem_cons_self
  · rw [answer_of_ne hop]
    exact .inl rfl

/-- Over a run the identifiers increase, from above all that is past at its beginning. -/
theorem asked_sent (p : Protocol) (hf : f.Reachable) (i : Nat)
    (ops : List (Fleet.Operation Float)) :
    (p.asked (p.sent i f ops)).Pairwise (· < ·) ∧
      ∀ c id, f.cursor? i = some c → c.queue.Past id → ∀ n ∈ p.asked (p.sent i f ops), id < n := by
  induction ops generalizing f with
  | nil => exact ⟨.nil, fun _ _ _ _ n hn => absurd hn List.not_mem_nil⟩
  | cons op rest ih =>
    obtain ⟨hincreasing, habove⟩ := ih (hf.after op)
    rw [sent, asked_append]
    rcases asked_answer p hf i op with hnone | ⟨c, d, n, hc, hd, hone, hbefore, hpast⟩
    · -- the request may be anything, but what is past at the cursor stays past
      rw [hnone, List.nil_append]
      refine ⟨hincreasing, fun c id hc hid m hm => ?_⟩
      have hd := (Fleet.run_steps f [op]).cursor? hc
      exact habove _ id hd (Fleet.past_run hc hid hd) m hm
    · rw [hone, List.singleton_append]
      refine ⟨List.pairwise_cons.mpr ⟨habove d n hd hpast, hincreasing⟩, ?_⟩
      intro c' id hc' hid m hm
      obtain rfl := Option.some.inj (hc.symm.trans hc')
      rcases List.mem_cons.mp hm with rfl | hm
      · exact hbefore id hid
      · exact Nat.lt_trans (hbefore id hid) (habove d n hd hpast m hm)

/-- **Every action is acknowledged once at most.** A call for the next messages of a
cursor releases its oldest action, and the messages are for that action alone: the last
one asks for it to be acknowledged, and several there are only when settings are taken
back. Over any run of calls the identifiers to be acknowledged increase. -/
theorem acknowledged_once (p : Protocol) (hf : f.Reachable) (i : Nat) :
    (∀ messages g, p.stream? f i = some (messages, g) →
      ∃ c a rest d, f.cursor? i = some c ∧ c.queue.pending = a :: rest ∧
        f.next? i = some ((a, (c.device.visit a).applied), g) ∧
        g.cursor? i = some d ∧ d.device = (c.device.visit a).device ∧
        p.Acknowledges c.device a messages) ∧
      ∀ ops, (p.asked (p.sent i f ops)).Pairwise (· < ·) := by
  refine ⟨fun messages g h => ?_, fun ops => (asked_sent p hf i ops).1⟩
  obtain ⟨c, a, rest, hc, hp⟩ := exists_pending_of_stream? h
  obtain ⟨g', queue, hstream, hnext, hg, -, -⟩ := stream?_eq p hc hp
  obtain ⟨rfl, rfl⟩ := Prod.mk.inj (Option.some.inj (h.symm.trans hstream))
  exact ⟨c, a, rest, _, hc, hp, hnext, hg, rfl, acknowledges_visit p c.device a⟩

/-- Requests that leave three settings to be taken back, the speed to a value that does
not fit into a word. -/
def threeTakenBack : List (Fleet.Operation Float) :=
  [.add "arm" false none [], .start 0 .origin .standard,
    .issue 0 ⟨1, .setting .speed 1e9 false⟩, .issue 0 ⟨2, .pushSettings⟩,
    .issue 0 ⟨3, .setting .speed 50 false⟩, .issue 0 ⟨5, .setting .acceleration 250 false⟩,
    .issue 0 ⟨7, .setting .precision 3 false⟩, .issue 0 ⟨8, .popSettings⟩,
    .issue 0 ⟨9, .popSettings⟩]

/-- Words go out for two of the three, and only the second asks for an acknowledgment. -/
theorem acknowledged_once_threeTakenBack :
    let f := Fleet.empty.run threeTakenBack
    let asked := ur.asked (ur.sent 0 f (.replicate 7 (.next 0)))
    (∃ messages g, ur.stream? (f.run (.replicate 5 (.next 0))) 0 = some (messages, g) ∧
      messages.map ur.id? = [some 0, some 8]) ∧
    asked = [3, 5, 7, 8] ∧ asked.Pairwise (· < ·) := by
  intro f asked
  have hreachable : f.Reachable := ⟨threeTakenBack, rfl⟩
  have hasked : asked = [3, 5, 7, 8] := by decide +kernel
  have hlength : (ur.stream? (f.run (.replicate 5 (.next 0))) 0).map (·.1.length) = some 2 := by
    decide +kernel
  have hnext : ((f.run (.replicate 5 (.next 0))).next? 0).map (·.1.1.id) = some 8 := by
    decide +kernel
  obtain ⟨⟨messages, g⟩, hstream, htwo⟩ := Option.map_eq_some_iff.mp hlength
  refine ⟨⟨messages, g, hstream, ?_⟩, hasked, (acknowledged_once ur hreachable 0).2 _⟩
  obtain ⟨c, a, rest, d, -, -, hn, -, -, hmessages⟩ :=
    (acknowledged_once ur (hreachable.run _) 0).1 messages g hstream
  rw [hn] at hnext
  have hid : a.id = 8 := Option.some.inj hnext
  have hids := hmessages.ids (fun _ => by rw [hid]; decide) (by rintro rfl; cases htwo)
  rw [hids, hid, show messages.length = 2 from htwo]
  rfl

end RobotMotion.Wire.Protocol
