import RobotMotion.Cursor.Fleet
import RobotMotion.Proofs.Device.Pose
import RobotMotion.Proofs.Queue.History

/-!
# Traces of a fleet

Whatever a fleet does comes down to four elementary events: a cursor is added, a
device is started, a queue is operated on, and a device tries an action. `Step`
says what an event does to a fleet, and when it may happen.

What became of one cursor can be read off a trace (`follow`): its queue went through
the queue operations of the trace (`queueOps`), and its device was started and put to
work. Beside each operation stands its trace, the list of the events it consists of.
From there on, invariants are proved event by event.
-/

namespace RobotMotion.Fleet

variable {α : Type}

/-! ### Looking up and replacing cursors -/

/-- A cursor that was replaced is the one it was replaced by. -/
theorem cursor?_put_self {f : Fleet α} {i : Nat} {c : Cursor α} (hc : f.cursor? i = some c)
    (d : Cursor α) : (f.put i d).cursor? i = some d := by
  have hlt : i < f.cursors.length := (List.getElem?_eq_some_iff.mp hc).1
  exact List.getElem?_set_self hlt

/-- Replacing one cursor leaves the others. -/
theorem cursor?_put_ne (f : Fleet α) {i j : Nat} (hne : i ≠ j) (d : Cursor α) :
    (f.put i d).cursor? j = f.cursor? j :=
  List.getElem?_set_ne hne

/-- Of two replacements the second counts. -/
theorem put_put (f : Fleet α) (i : Nat) (c d : Cursor α) : (f.put i c).put i d = f.put i d := by
  simp [put, List.set_set]

/-- Putting back what is there changes nothing. -/
theorem put_cursor? {f : Fleet α} {i : Nat} {c : Cursor α} (hc : f.cursor? i = some c) :
    f.put i c = f := by
  obtain ⟨hlt, rfl⟩ := List.getElem?_eq_some_iff.mp hc
  simp [put]

@[simp] theorem cursor?_note (f : Fleet α) (rejection : Option Rejection) (i : Nat) :
    (f.note rejection).cursor? i = f.cursor? i := rfl

/-! ### Events -/

/-- What can happen to a fleet. -/
inductive Event (α : Type) where
  /-- a cursor is added -/
  | added (cursor : Cursor α)
  /-- the device of a cursor is started, and what comes of it -/
  | started (i : Nat) (device : Device α)
  /-- the queue of a cursor is operated on -/
  | queued (i : Nat) (op : Queue.Operation α)
  /-- the device of a cursor tries an action, and what comes of it -/
  | tried (i : Nat) (visit : Visit α)

/-! ### What events say about one cursor -/

/-- The queue operation of an event on one cursor. -/
def Event.queueOp? (i : Nat) : Event α → Option (Queue.Operation α)
  | .queued j op => if j = i then some op else none
  | _ => none

/-- The queue operations of a trace on one cursor. -/
def queueOps (i : Nat) (t : List (Event α)) : List (Queue.Operation α) :=
  t.filterMap (Event.queueOp? i)

theorem queueOps_cons (i : Nat) (e : Event α) (t : List (Event α)) :
    queueOps i (e :: t) = queueOps i [e] ++ queueOps i t := by
  rw [queueOps, queueOps, queueOps, ← List.filterMap_append]
  rfl

/-- The queue operations of two traces follow one another. -/
theorem queueOps_append (i : Nat) (t u : List (Event α)) :
    queueOps i (t ++ u) = queueOps i t ++ queueOps i u :=
  List.filterMap_append

@[simp] theorem queueOps_queued_self (i : Nat) (op : Queue.Operation α) :
    queueOps i [.queued i op] = [op] := by
  simp [queueOps, Event.queueOp?]

/-- What is done to one queue is not done to another. -/
theorem queueOps_queued_ne {i j : Nat} (hne : j ≠ i) (op : Queue.Operation α) :
    queueOps i [.queued j op] = [] := by
  simp [queueOps, Event.queueOp?, hne]

/-- What an event makes of the cursor of a number. -/
def Event.on (i : Nat) (c : Cursor α) : Event α → Cursor α
  | .added _ => c
  | .started j device => if j = i then { c with device } else c
  | .queued j op => if j = i then { c with queue := c.queue.after op } else c
  | .tried j visit => if j = i then { c with device := visit.device } else c

/-- What the events of a trace make of the cursor of a number. -/
def follow (i : Nat) (c : Cursor α) (t : List (Event α)) : Cursor α := t.foldl (Event.on i) c

/-- A cursor is followed through one trace and then the other. -/
theorem follow_append (i : Nat) (c : Cursor α) (t u : List (Event α)) :
    follow i c (t ++ u) = follow i (follow i c t) u :=
  List.foldl_append

/-- An event changes a queue by its operation on this queue, if it is one. -/
theorem Event.queue_on (i : Nat) (c : Cursor α) (e : Event α) :
    (e.on i c).queue = c.queue.run (queueOps i [e]) := by
  cases e with
  | queued j op =>
    by_cases hj : j = i
    · subst hj
      rw [queueOps_queued_self, on, if_pos rfl]
      rfl
    · rw [queueOps_queued_ne hj, on, if_neg hj]
      rfl
  | added cursor => rfl
  | started j device => rw [on]; split <;> rfl
  | tried j visit => rw [on]; split <;> rfl

/-- The queue goes through the queue operations of the trace. -/
theorem queue_follow (i : Nat) (c : Cursor α) (t : List (Event α)) :
    (follow i c t).queue = c.queue.run (queueOps i t) := by
  -- over the trace, following the cursor from event to event
  induction t generalizing c with
  | nil => rfl
  | cons e t ih =>
    rw [queueOps_cons i e t, Queue.run_append, ← e.queue_on i c]
    exact ih (e.on i c)

/-- Whether a cursor is immediate never changes. -/
theorem immediate_follow (i : Nat) (c : Cursor α) (t : List (Event α)) :
    (follow i c t).immediate = c.immediate := by
  induction t generalizing c with
  | nil => rfl
  | cons e t ih =>
    have he : (e.on i c).immediate = c.immediate := by
      cases e <;> rw [Event.on] <;> split <;> rfl
    exact (ih (e.on i c)).trans he

/-- Nor does its child. -/
theorem child_follow (i : Nat) (c : Cursor α) (t : List (Event α)) :
    (follow i c t).child = c.child := by
  induction t generalizing c with
  | nil => rfl
  | cons e t ih =>
    have he : (e.on i c).child = c.child := by
      cases e <;> rw [Event.on] <;> split <;> rfl
    exact (ih (e.on i c)).trans he

/-- The cursor that an event is about, if it is about one that is there. -/
def Event.about : Event α → Option Nat
  | .added _ => none
  | .started i _ | .queued i _ | .tried i _ => some i

/-- An event leaves every cursor that it is not about. -/
theorem Event.on_of_not_about {i : Nat} {e : Event α} (h : e.about ≠ some i) (c : Cursor α) :
    e.on i c = c := by
  cases e with
  | added cursor => rfl
  | started j device => exact if_neg fun hj => h (congrArg some hj)
  | queued j op => exact if_neg fun hj => h (congrArg some hj)
  | tried j visit => exact if_neg fun hj => h (congrArg some hj)

/-- A cursor that no event of a trace is about stays as it is. -/
theorem follow_of_not_about {i : Nat} {t : List (Event α)} (h : ∀ e ∈ t, e.about ≠ some i)
    (c : Cursor α) : follow i c t = c := by
  induction t with
  | nil => rfl
  | cons e t ih =>
    rw [follow, List.foldl_cons, Event.on_of_not_about (h e List.mem_cons_self)]
    exact ih fun e he => h e (List.mem_cons_of_mem _ he)

/-- Events about other cursors operate on other queues. -/
theorem queueOps_of_not_about {i : Nat} {t : List (Event α)} (h : ∀ e ∈ t, e.about ≠ some i) :
    queueOps i t = [] := by
  rw [queueOps, List.filterMap_eq_nil_iff]
  intro e he
  cases e with
  | queued j op => exact if_neg fun hj => h _ he (congrArg some hj)
  | _ => rfl

/-! ### What events do -/

variable [Scalar α]

/-- What an event does to a fleet. A device that tries an action does as
`Device.visit` says, and its rejections are noted. -/
inductive Step : Fleet α → Event α → Fleet α → Prop where
  | added (f : Fleet α) (name : String) (immediate : Bool) (child : Option Nat)
      (tools : List (Tool α)) :
      Step f (.added (.make name immediate child tools))
        (f.add (.make name immediate child tools))
  | started {f : Fleet α} {i : Nat} {c : Cursor α} {pose : InitialPose α}
      {settings : Settings α} {device : Device α} (hc : f.cursor? i = some c)
      (h : c.device.start pose settings = .ok device) :
      Step f (.started i device) (f.put i { c with device })
  | queued {f : Fleet α} {i : Nat} {c : Cursor α} (hc : f.cursor? i = some c)
      (op : Queue.Operation α) :
      Step f (.queued i op) (f.put i { c with queue := c.queue.after op })
  | tried {f : Fleet α} {i : Nat} {c : Cursor α} (hc : f.cursor? i = some c)
      (action : Action α) :
      Step f (.tried i (c.device.visit action))
        ((f.put i { c with device := (c.device.visit action).device }).note
          (c.device.visit action).rejection)

/-- What a list of events does to a fleet. -/
inductive Steps : Fleet α → List (Event α) → Fleet α → Prop where
  | refl (f : Fleet α) : Steps f [] f
  | head {f g h : Fleet α} {e : Event α} {t : List (Event α)} (first : Step f e g)
      (rest : Steps g t h) : Steps f (e :: t) h

/-- One step is a trace of one event. -/
theorem Step.single {f g : Fleet α} {e : Event α} (h : Step f e g) : Steps f [e] g :=
  .head h (.refl g)

/-- Steps follow one another. -/
theorem Steps.append {f g h : Fleet α} {t u : List (Event α)} (hf : Steps f t g)
    (hg : Steps g u h) : Steps f (t ++ u) h := by
  induction hf with
  | refl f => exact hg
  | head first _ ih => exact .head first (ih hg)

/-- Between two parts of a trace there is a fleet. -/
theorem Steps.split {f h : Fleet α} {t u : List (Event α)} (hs : Steps f (t ++ u) h) :
    ∃ g, Steps f t g ∧ Steps g u h := by
  induction t generalizing f with
  | nil => exact ⟨f, .refl f, hs⟩
  | cons e t ih =>
    cases hs with
    | head first rest =>
      obtain ⟨g, ht, hu⟩ := ih rest
      exact ⟨g, .head first ht, hu⟩

/-! ### Traces of the operations -/

/-- The trace of carrying out a released action, given those of passing it on. -/
def triedTrace (pass : Fleet α → Action α → List (Event α)) (f : Fleet α) (i : Nat)
    (c : Cursor α) (action : Action α) : List (Event α) :=
  let visit := c.device.visit action
  let f := (f.put i { c with device := visit.device }).note visit.rejection
  .tried i visit :: if visit.applied then pass f action else []

/-- The trace of `issue`. -/
def issueTrace (f : Fleet α) (i : Nat) (action : Action α) : List (Event α) :=
  match f.cursor? i with
  | none => []
  | some c =>
    .queued i (.add action) ::
      match c.queue.add? action with
      | none => []
      | some queue =>
        if c.immediate then
          match queue.next? with
          | none => []
          | some (oldest, queue) =>
            let pass (f : Fleet α) (a : Action α) : List (Event α) :=
              match childBelow c i with
              | none => []
              | some ⟨j, _⟩ => issueTrace f j a
            .queued i .next :: triedTrace pass f i { c with queue } oldest
        else []
termination_by i

/-- The trace of `pass`. -/
def passTrace (c : Cursor α) (i : Nat) (f : Fleet α) (action : Action α) : List (Event α) :=
  match childBelow c i with
  | none => []
  | some ⟨j, _⟩ => f.issueTrace j action

/-- The trace of `next?`. -/
def nextTrace (f : Fleet α) (i : Nat) : List (Event α) :=
  match f.cursor? i with
  | none => []
  | some c =>
    match c.queue.next? with
    | none => []
    | some (action, queue) =>
      .queued i .next :: triedTrace (passTrace c i) f i { c with queue } action

/-- The trace of `carryOutAll`. -/
def carryOutAllTrace (f : Fleet α) (i : Nat) : List (Action α) → List (Event α)
  | [] => []
  | action :: rest =>
    match f.cursor? i with
    | none => []
    | some c =>
      triedTrace (passTrace c i) f i c action
        ++ carryOutAllTrace (f.carryOut i c action).2 i rest

/-- The trace of `advanceTo`. -/
def advanceTrace (f : Fleet α) (i : Nat) (id : Nat) : List (Event α) :=
  match f.cursor? i with
  | none => []
  | some c =>
    let (leaving, queue) := c.queue.releaseUpTo id
    .queued i (.upTo id) :: carryOutAllTrace (f.put i { c with queue }) i leaving

/-! ### A trace tells what becomes of a cursor -/

/-- **An event makes of a cursor what it says.** -/
theorem Step.cursor? {f g : Fleet α} {e : Event α} (h : Step f e g) {i : Nat} {c : Cursor α}
    (hc : f.cursor? i = some c) : g.cursor? i = some (e.on i c) := by
  cases h with
  -- a new cursor comes last and moves none of the others
  | added name immediate child tools =>
    have hlt : i < f.cursors.length := (List.getElem?_eq_some_iff.mp hc).1
    exact (List.getElem?_append_left hlt).trans hc
  | @started j d pose settings device hd hs =>
    by_cases hj : j = i
    · subst hj
      obtain rfl := Option.some.inj (hc.symm.trans hd)
      rw [cursor?_put_self hc, Event.on, if_pos rfl]
    · rw [cursor?_put_ne f hj, hc, Event.on, if_neg hj]
  | @queued j d hd op =>
    by_cases hj : j = i
    · subst hj
      obtain rfl := Option.some.inj (hc.symm.trans hd)
      rw [cursor?_put_self hc, Event.on, if_pos rfl]
    · rw [cursor?_put_ne f hj, hc, Event.on, if_neg hj]
  | @tried j d hd action =>
    rw [cursor?_note]
    by_cases hj : j = i
    · subst hj
      obtain rfl := Option.some.inj (hc.symm.trans hd)
      rw [cursor?_put_self hc, Event.on, if_pos rfl]
    · rw [cursor?_put_ne f hj, hc, Event.on, if_neg hj]

/-- A trace of steps makes of a cursor what following it says. -/
theorem Steps.cursor? {f g : Fleet α} {t : List (Event α)} (h : Steps f t g) {i : Nat}
    {c : Cursor α} (hc : f.cursor? i = some c) : g.cursor? i = some (follow i c t) := by
  induction h generalizing c with
  | refl f => exact hc
  | head first rest ih => exact ih (first.cursor? hc)

/-- Only adding cursors changes their number. -/
theorem Steps.length_eq {f g : Fleet α} {t : List (Event α)} (h : Steps f t g)
    (ht : ∀ e ∈ t, e.about.isSome = true) : g.cursors.length = f.cursors.length := by
  induction h with
  | refl f => rfl
  | head first rest ih =>
    refine (ih fun e he => ht e (List.mem_cons_of_mem _ he)).trans ?_
    have habout := ht _ List.mem_cons_self
    cases first with
    | added name immediate child tools => cases habout
    | started hc hs => exact List.length_set
    | queued hc op => exact List.length_set
    | tried hc action => exact List.length_set

/-- A cursor that is there after an event on a cursor was there before. -/
theorem Step.exists_before {f g : Fleet α} {e : Event α} (h : Step f e g)
    (he : e.about.isSome = true) {i : Nat} {c : Cursor α} (hc : g.cursor? i = some c) :
    ∃ b, f.cursor? i = some b ∧ c = e.on i b := by
  -- no cursor comes or goes with an event that is about one
  have hlength := h.single.length_eq (List.forall_mem_singleton.mpr he)
  have hlt : i < g.cursors.length := (List.getElem?_eq_some_iff.mp hc).1
  rw [hlength] at hlt
  have hb : f.cursor? i = some f.cursors[i] := List.getElem?_eq_getElem hlt
  exact ⟨_, hb, Option.some.inj (hc.symm.trans (h.cursor? hb))⟩

end RobotMotion.Fleet
