import RobotMotion.Proofs.Cursor.Rehearsal
import RobotMotion.Proofs.Fleet.Release
import RobotMotion.Wire.Stream

/-!
# Streaming until nothing waits

`Protocol.drain` asks for the next messages of a cursor again and again until
there are none, and notes after every call what the call released and how the
device stands. On its way the cursor feeds its children; a rehearsal feeds nobody.
Still both see the same: a call releases the oldest action and leaves its own
cursor as the visit of the device says (`deliver?_eq`), so draining goes through
the visits of the device (`drain_eq`).

Calls also come among other requests; `Protocol.sent` is what goes out for one cursor
while they do.
-/

namespace RobotMotion

namespace Wire.Protocol

/-- What is seen of a call for the next messages: the action that it released,
whether it applied, the device afterwards, and the messages. -/
structure Delivery where
  action : Action Float
  applied : Bool
  device : Device Float
  messages : List Message

/-- What a protocol makes of a visit. -/
def delivery (p : Protocol) (v : Visit Float) : Delivery where
  action := v.action
  applied := v.applied
  device := v.device
  messages := if v.applied then p.messages v.action v.device else []

/-- Ask for the next messages of a cursor, and look at what the call did. -/
def deliver? (p : Protocol) (f : Fleet Float) (i : Nat) : Option (Delivery × Fleet Float) :=
  match p.stream? f i, f.next? i with
  | some (messages, g), some ((action, applied), _) =>
    (g.cursor? i).map fun c => (⟨action, applied, c.device, messages⟩, g)
  | _, _ => none

/-- How many actions wait at a cursor. -/
def waiting (f : Fleet Float) (i : Nat) : Nat :=
  match f.cursor? i with
  | none => 0
  | some c => c.queue.pending.length

variable {p : Protocol} {f : Fleet Float} {i : Nat}

theorem waiting_eq_zero {c : Cursor Float} (hc : f.cursor? i = some c)
    (hp : c.queue.pending = []) : waiting f i = 0 := by
  rw [waiting, hc]
  exact congrArg List.length hp

/-- A call without an answer changes nothing, and comes about exactly when nothing
waits. -/
theorem stream?_eq_none_iff : p.stream? f i = none ↔ waiting f i = 0 := by
  rw [stream?, Option.map_eq_none_iff, Fleet.next?, waiting]
  cases f.cursor? i with
  | none => simp
  | some c =>
    simp only [Queue.next?]
    cases c.queue.pending <;> simp

/-- Where a call has an answer, something waits. -/
theorem exists_pending_of_stream? {messages : List Message} {g : Fleet Float}
    (h : p.stream? f i = some (messages, g)) :
    ∃ c a rest, f.cursor? i = some c ∧ c.queue.pending = a :: rest := by
  have hwaits : waiting f i ≠ 0 := by
    rw [Ne, ← stream?_eq_none_iff (p := p), h]
    nofun
  rw [waiting] at hwaits
  cases hc : f.cursor? i with
  | none =>
    rw [hc] at hwaits
    exact absurd rfl hwaits
  | some c =>
    rw [hc] at hwaits
    obtain ⟨a, rest, hp⟩ := List.exists_cons_of_length_pos (Nat.pos_of_ne_zero hwaits)
    exact ⟨c, a, rest, rfl, hp⟩

/-- A call releases one action. -/
theorem next?_of_stream? {messages : List Message} {g : Fleet Float}
    (h : p.stream? f i = some (messages, g)) : ∃ outcome, f.next? i = some (outcome, g) := by
  rw [stream?, Option.map_eq_some_iff] at h
  obtain ⟨⟨outcome, after⟩, hn, hmessages⟩ := h
  have hg : after = g := by
    simp only at hmessages
    split at hmessages
    · exact (Prod.mk.inj hmessages).2
    · exact (Prod.mk.inj hmessages).2
  exact ⟨outcome, hg ▸ hn⟩

/-- **A call releases the oldest action and sends what the protocol has for the visit of
the device**, which is then as the visit says. -/
theorem stream?_eq (p : Protocol) {c : Cursor Float} (hc : f.cursor? i = some c)
    {a : Action Float} {rest : List (Action Float)} (hp : c.queue.pending = a :: rest) :
    ∃ g queue, p.stream? f i = some ((p.delivery (c.device.visit a)).messages, g) ∧
      f.next? i = some ((a, (c.device.visit a).applied), g) ∧
      g.cursor? i = some { c with device := (c.device.visit a).device, queue } ∧
      c.queue.next? = some (a, queue) ∧ queue.pending = rest := by
  obtain ⟨queue, hn, hq⟩ := Queue.exists_next? hp
  have hnext := Fleet.next?_eq hc hn
  have hself := Fleet.carryOut_cursor?_self hc { c with queue } a
  refine ⟨_, queue, ?_, hnext, hself, hn, hq⟩
  simp only [stream?, hnext, Option.map_some, hself, delivery, Device.visit_action]
  cases (c.device.visit a).applied <;> rfl

/-- **A call does as the visit of the device says.** -/
theorem deliver?_eq {c : Cursor Float} (hc : f.cursor? i = some c) {a : Action Float}
    {rest : List (Action Float)} (hp : c.queue.pending = a :: rest) :
    ∃ g queue, p.deliver? f i = some (p.delivery (c.device.visit a), g) ∧
      g.cursor? i = some { c with device := (c.device.visit a).device, queue } ∧
      queue.pending = rest := by
  -- what is seen of a call is put together from the same release
  obtain ⟨g, queue, hs, hn, hg, -, hq⟩ := stream?_eq p hc hp
  refine ⟨g, queue, ?_, hg, hq⟩
  simp only [deliver?, hs, hn, hg, Option.map_some, delivery, Device.visit_action]

/-- After a call less waits than before. -/
theorem waiting_deliver? {d : Delivery} {g : Fleet Float} (h : p.deliver? f i = some (d, g)) :
    waiting g i < waiting f i := by
  cases hc : f.cursor? i with
  | none =>
    simp [deliver?, stream?, Fleet.next?, hc] at h
  | some c =>
    cases hp : c.queue.pending with
    | nil => simp [deliver?, stream?, Fleet.next?, Queue.next?, hc, hp] at h
    | cons a rest =>
      obtain ⟨g', queue, hd, hg, hq⟩ := deliver?_eq (p := p) hc hp
      rw [h] at hd
      obtain ⟨-, rfl⟩ := Prod.mk.inj (Option.some.inj hd)
      simp [waiting, hc, hg, hp, hq]

/-- Ask for the next messages until there are none. -/
def drain (p : Protocol) (f : Fleet Float) (i : Nat) : List Delivery × Fleet Float :=
  match _h : p.deliver? f i with
  | none => ([], f)
  | some (delivery, g) =>
    let (deliveries, g) := drain p g i
    (delivery :: deliveries, g)
termination_by waiting f i
decreasing_by exact waiting_deliver? _h

/-- **Draining a cursor goes through the visits of its device**, until nothing waits. -/
theorem drain_eq {c : Cursor Float} (hc : f.cursor? i = some c) :
    (p.drain f i).1 = (c.device.visits c.queue.pending).map p.delivery ∧
      p.stream? (p.drain f i).2 i = none := by
  -- by induction on what waits, of which every call takes one
  generalize hp : c.queue.pending = actions
  induction actions generalizing f c with
  | nil =>
    have hn : p.stream? f i = none := stream?_eq_none_iff.mpr (waiting_eq_zero hc hp)
    have hd : p.deliver? f i = none := by rw [deliver?, hn]
    rw [drain]
    split
    · exact ⟨rfl, hn⟩
    · rename_i h
      rw [hd] at h
      cases h
  | cons a rest ih =>
    obtain ⟨g, queue, hd, hg, hq⟩ := deliver?_eq (p := p) hc hp
    obtain ⟨hvisits, hend⟩ := ih hg hq
    rw [drain]
    split
    · rename_i h
      rw [hd] at h
      cases h
    · rename_i d g' h
      obtain ⟨rfl, rfl⟩ := Prod.mk.inj (Option.some.inj (hd.symm.trans h))
      exact ⟨congrArg _ hvisits, hend⟩

/-! ### Calls among other requests -/

/-- The messages for a cursor that a request calls for. -/
def answer (p : Protocol) (i : Nat) (f : Fleet Float) : Fleet.Operation Float → List Message
  | .next j => if j = i then ((p.stream? f i).map Prod.fst).getD [] else []
  | _ => []

/-- The messages for a cursor while requests come one after the other: a request for its
oldest action is a call for its messages. -/
def sent (p : Protocol) (i : Nat) : Fleet Float → List (Fleet.Operation Float) → List Message
  | _, [] => []
  | f, op :: rest => p.answer i f op ++ p.sent i (f.after op) rest

/-- A call is a request for the oldest action. -/
theorem after_next_of_stream? {messages : List Message} {g : Fleet Float}
    (h : p.stream? f i = some (messages, g)) : f.after (.next i) = g := by
  obtain ⟨outcome, hn⟩ := next?_of_stream? h
  rw [Fleet.after, hn]

theorem answer_next {messages : List Message} {g : Fleet Float}
    (h : p.stream? f i = some (messages, g)) : p.answer i f (.next i) = messages := by
  rw [answer, if_pos rfl, h]
  rfl

/-- Other requests call for no messages. -/
theorem answer_of_ne {op : Fleet.Operation Float} (h : op ≠ .next i) : p.answer i f op = [] := by
  cases op with
  | next j => exact if_neg fun hj => h (congrArg _ hj)
  | _ => rfl

/-- Where nothing waits, a call does nothing. -/
theorem call_of_nothing_waits (p : Protocol) (h : waiting f i = 0) :
    p.answer i f (.next i) = [] ∧ f.after (.next i) = f := by
  have hnone : p.stream? f i = none := stream?_eq_none_iff.mpr h
  refine ⟨by rw [answer, if_pos rfl, hnone]; rfl, ?_⟩
  rw [Fleet.after, Option.map_eq_none_iff.mp hnone]

/-! ### Where messages come from -/

/-- The messages that a protocol has: for an action, or for a setting that took a value. -/
inductive Encoded (p : Protocol) : Message → Prop where
  | action {a : Action Float} {s : State Float} {m : Message} (h : p.encode? a s = some m) :
    Encoded p m
  | setting {id : Nat} {change : SettingChange Float} {m : Message}
    (h : p.encodeSetting? id change = some m) : Encoded p m

/-- The messages for changes are messages for settings that took a value. -/
theorem exists_of_mem_encodeChanges {id : Nat} {changes : List (SettingChange Float)}
    {m : Message} (h : m ∈ p.encodeChanges id changes) :
    ∃ n change, p.encodeSetting? n change = some m := by
  fun_induction encodeChanges p id changes with
  | case1 => cases h
  | case2 change => exact ⟨id, change, Option.mem_toList.mp h⟩
  | case3 change rest _ ih =>
    rcases List.mem_append.mp h with h | h
    · exact ⟨noAcknowledgment, change, Option.mem_toList.mp h⟩
    · exact ih h

/-- The messages for an applied action are among those that the protocol has. -/
theorem encoded_of_mem_messages {a : Action Float} {d : Device Float} {m : Message}
    (h : m ∈ p.messages a d) : p.Encoded m := by
  rw [messages] at h
  split at h
  · split at h
    · obtain ⟨n, change, hencode⟩ := exists_of_mem_encodeChanges h
      exact .setting hencode
    · cases h
  · exact .action (Option.mem_toList.mp h)

theorem encoded_of_mem_delivery {v : Visit Float} {m : Message}
    (h : m ∈ (p.delivery v).messages) : p.Encoded m := by
  rw [delivery] at h
  simp only at h
  split at h
  · exact encoded_of_mem_messages h
  · cases h

theorem encoded_of_mem_answer {op : Fleet.Operation Float} {m : Message}
    (h : m ∈ p.answer i f op) : p.Encoded m := by
  by_cases hop : op = .next i
  · subst hop
    -- a request for the oldest action is a call, which may find nothing waiting
    cases hstream : p.stream? f i with
    | none =>
      rw [(call_of_nothing_waits p (stream?_eq_none_iff.mp hstream)).1] at h
      cases h
    | some called =>
      obtain ⟨c, a, rest, hc, hp⟩ := exists_pending_of_stream? hstream
      obtain ⟨g, queue, hvisit, -⟩ := stream?_eq p hc hp
      rw [answer_next hvisit] at h
      exact encoded_of_mem_delivery h
  · rw [answer_of_ne hop] at h
    cases h

/-- Messages that are each made of a frame are made of a row of frames. -/
theorem exists_frames {φ : Type} {P : φ → Prop} {message : φ → Message} {messages : List Message}
    (h : ∀ m ∈ messages, ∃ frame, P frame ∧ message frame = m) :
    ∃ frames : List φ, (∀ frame ∈ frames, P frame) ∧ messages = frames.map message := by
  induction messages with
  | nil => exact ⟨[], nofun, rfl⟩
  | cons m rest ih =>
    obtain ⟨frame, hframe, rfl⟩ := h m List.mem_cons_self
    obtain ⟨frames, hframes, rfl⟩ := ih fun n hn => h n (List.mem_cons_of_mem _ hn)
    refine ⟨frame :: frames, fun other hother => ?_, rfl⟩
    rcases List.mem_cons.mp hother with rfl | hother
    · exact hframe
    · exact hframes other hother

/-- **Whatever goes out while requests come is one of the messages that the protocol
has.** -/
theorem encoded_of_mem_sent {ops : List (Fleet.Operation Float)} {m : Message}
    (h : m ∈ p.sent i f ops) : p.Encoded m := by
  induction ops generalizing f with
  | nil => cases h
  | cons op rest ih =>
    rcases List.mem_append.mp h with h | h
    · exact encoded_of_mem_answer h
    · exact ih h

end Wire.Protocol

end RobotMotion
