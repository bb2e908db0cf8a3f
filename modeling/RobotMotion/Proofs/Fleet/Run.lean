import RobotMotion.Proofs.Fleet.Order
import RobotMotion.Proofs.Queue.Past

/-!
# Runs of a fleet

A fleet starts without cursors and is asked one thing after the other. Every
request does what its trace says (`Fleet.after_steps`), so what became of one cursor
can be read off the trace of a run.

Two facts about reachable fleets follow from there. The queue of a cursor has a
history, and the pose of its device is whole.
-/

namespace RobotMotion

namespace Fleet

variable {α : Type} [Scalar α]

/-! ### Fleets that a trace explains -/

/-- **What an event does to the device of a cursor.** It starts it, it has it try an action,
or it leaves it alone. -/
theorem Step.device_cases {f g : Fleet α} {e : Event α} (h : Step f e g) {i : Nat}
    {c : Cursor α} (hc : f.cursor? i = some c) :
    (∃ pose settings device, e = .started i device ∧
      c.device.start pose settings = .ok device ∧ (e.on i c).device = device) ∨
    (∃ action, e = .tried i (c.device.visit action) ∧
      (e.on i c).device = (c.device.visit action).device) ∨
    ((∀ v, e ≠ .tried i v) ∧ (e.on i c).device = c.device) := by
  cases h with
  | added name immediate child tools =>
    refine .inr (.inr ⟨fun v hv => ?_, rfl⟩)
    cases hv
  | @started j d pose settings device hd hs =>
    -- only events about this very cursor touch its device
    by_cases hj : j = i
    · subst hj
      obtain rfl := Option.some.inj (hc.symm.trans hd)
      refine .inl ⟨pose, settings, device, rfl, hs, ?_⟩
      rw [Event.on, if_pos rfl]
    · refine .inr (.inr ⟨fun v hv => ?_, ?_⟩)
      · cases hv
      · rw [Event.on, if_neg hj]
  | queued hd op =>
    refine .inr (.inr ⟨fun v hv => ?_, ?_⟩)
    · cases hv
    · rw [Event.on]
      split <;> rfl
  | @tried j d hd action =>
    by_cases hj : j = i
    · subst hj
      obtain rfl := Option.some.inj (hc.symm.trans hd)
      refine .inr (.inl ⟨action, rfl, ?_⟩)
      rw [Event.on, if_pos rfl]
    · refine .inr (.inr ⟨fun v hv => hj (Event.tried.inj hv).1, ?_⟩)
      rw [Event.on, if_neg hj]

/-- A device that can come about is not led astray by an event. -/
theorem Step.reachable {f g : Fleet α} {e : Event α} (h : Step f e g) {i : Nat} {c : Cursor α}
    (hc : f.cursor? i = some c) (hr : c.device.Reachable) : (e.on i c).device.Reachable := by
  rcases h.device_cases hc with ⟨pose, settings, device, -, hs, hon⟩ | ⟨action, -, hon⟩ | ⟨-, hon⟩
  · rw [hon]
    exact hr.start hs
  · rw [hon]
    exact hr.visit action
  · rw [hon]
    exact hr

/-- A fleet is explained by a trace when its cursors are what the events of the trace
made of new ones. -/
structure Explained (t : List (Event α)) (f : Fleet α) : Prop where
  queue : ∀ {i c}, f.cursor? i = some c → c.queue = Queue.empty.run (queueOps i t)
  device : ∀ {i c}, f.cursor? i = some c → c.device.Reachable
  unseen : ∀ {i}, f.cursor? i = none → ∀ e ∈ t, e.about ≠ some i

/-- A fleet without cursors is explained by a trace without events. -/
theorem explained_empty : Explained [] (empty : Fleet α) where
  queue := nofun
  device := nofun
  unseen := fun _ _ he => absurd he List.not_mem_nil

/-- Events are about cursors that are there. -/
theorem Step.about_ne {f g : Fleet α} {e : Event α} (h : Step f e g) {i : Nat}
    (hn : f.cursor? i = none) : e.about ≠ some i := by
  have hne {j : Nat} {c : Cursor α} (hc : f.cursor? j = some c) : some j ≠ some i := by
    intro hj
    rw [Option.some.inj hj, hn] at hc
    cases hc
  cases h with
  | added name immediate child tools => exact (Option.some_ne_none i).symm
  | started hc hs => exact hne hc
  | queued hc op => exact hne hc
  | tried hc action => exact hne hc

/-- A cursor that was not there before an event is new after it. -/
theorem Step.cursor?_of_none {f g : Fleet α} {e : Event α} (h : Step f e g) {i : Nat}
    (hn : f.cursor? i = none) {c : Cursor α} (hc : g.cursor? i = some c) :
    ∃ name immediate child tools, c = .make name immediate child tools := by
  have hne := h.about_ne hn
  cases h with
  | added name immediate child tools =>
    refine ⟨name, immediate, child, tools, ?_⟩
    have hle : f.cursors.length ≤ i := List.getElem?_eq_none_iff.mp hn
    have hlt : i < (f.add (.make name immediate child tools)).cursors.length :=
      (List.getElem?_eq_some_iff.mp hc).1
    have hi : i = f.cursors.length := by
      simp only [add, List.length_append, List.length_singleton] at hlt
      omega
    subst hi
    exact (Option.some.inj (List.getElem?_concat_length.symm.trans hc)).symm
  | @started j d pose settings device hd hs =>
    rw [cursor?_put_ne f (fun hj => hne (congrArg some hj)), hn] at hc
    cases hc
  | @queued j d hd op =>
    rw [cursor?_put_ne f (fun hj => hne (congrArg some hj)), hn] at hc
    cases hc
  | @tried j d hd action =>
    rw [cursor?_note, cursor?_put_ne f (fun hj => hne (congrArg some hj)), hn] at hc
    cases hc

/-- One more event explains the fleet after it. -/
theorem Explained.step {t : List (Event α)} {f g : Fleet α} {e : Event α}
    (h : Explained t f) (hs : Step f e g) : Explained (t ++ [e]) g := by
  have hcursor (i : Nat) {c : Cursor α} (hc : g.cursor? i = some c) :
      c.queue = Queue.empty.run (queueOps i (t ++ [e])) ∧ c.device.Reachable := by
    rw [queueOps_append, Queue.run_append]
    cases hf : f.cursor? i with
    | none =>
      -- `e` adds this very cursor, and nothing before it was about its number
      obtain ⟨name, immediate, child, tools, rfl⟩ := hs.cursor?_of_none hf hc
      rw [queueOps_of_not_about (h.unseen hf),
        queueOps_of_not_about (List.forall_mem_singleton.mpr (hs.about_ne hf))]
      exact ⟨rfl, .blank _⟩
    -- a cursor that was there has followed the trace so far, and follows the event
    | some before =>
      obtain rfl := Option.some.inj ((hs.cursor? hf).symm.trans hc)
      rw [← h.queue hf, ← e.queue_on]
      exact ⟨rfl, hs.reachable hf (h.device hf)⟩
  refine ⟨fun {i} c hc => (hcursor i hc).1, fun {i} c hc => (hcursor i hc).2, ?_⟩
  intro i hn e' he'
  cases hf : f.cursor? i with
  | none =>
    rcases List.mem_append.mp he' with he' | he'
    · exact h.unseen hf e' he'
    · obtain rfl := List.mem_singleton.mp he'
      exact hs.about_ne hf
  | some before =>
    rw [hs.cursor? hf] at hn
    cases hn

/-- What explains a fleet goes on with every event. -/
theorem Explained.steps {t u : List (Event α)} {f g : Fleet α} (h : Explained t f)
    (hs : Steps f u g) : Explained (t ++ u) g := by
  induction hs generalizing t with
  | refl f =>
    rw [List.append_nil]
    exact h
  | head first rest ih =>
    rw [List.append_cons]
    exact ih (h.step first)

/-! ### Requests -/

/-- What can be asked of a fleet. -/
inductive Operation (α : Type) where
  /-- add a cursor -/
  | add (name : String) (immediate : Bool) (child : Option Nat) (tools : List (Tool α))
  /-- give a cursor its starting pose -/
  | start (i : Nat) (pose : InitialPose α) (settings : Settings α)
  /-- issue an action to a cursor -/
  | issue (i : Nat) (action : Action α)
  /-- release the oldest action of a cursor and carry it out -/
  | next (i : Nat)
  /-- release the actions up to an identifier and carry them out -/
  | advanceTo (i : Nat) (id : Nat)
  /-- operate on the queue of a cursor and on nothing else -/
  | onQueue (i : Nat) (op : Queue.Operation α)

/-- The fleet after a request. -/
def after (f : Fleet α) : Operation α → Fleet α
  | .add name immediate child tools => f.add (.make name immediate child tools)
  | .start i pose settings =>
    match f.start i pose settings with
    | .error _ => f
    | .ok g => g
  | .issue i action => (f.issue i action).2
  | .next i =>
    match f.next? i with
    | none => f
    | some (_, g) => g
  | .advanceTo i id => (f.advanceTo i id).2
  | .onQueue i op =>
    match f.cursor? i with
    | none => f
    | some c => f.put i { c with queue := c.queue.after op }

/-- The fleet after requests one after the other. -/
def run (f : Fleet α) (ops : List (Operation α)) : Fleet α := ops.foldl after f

/-- The trace of giving a cursor its starting pose. -/
def startTrace (f : Fleet α) (i : Nat) (pose : InitialPose α) (settings : Settings α) :
    List (Event α) :=
  match f.cursor? i with
  | none => []
  | some c =>
    match c.device.start pose settings with
    | .error _ => []
    | .ok device => [.started i device]

theorem start_orderly {direct : Nat → Prop} {f g : Fleet α} {i : Nat} {pose : InitialPose α}
    {settings : Settings α} (h : f.start i pose settings = .ok g) :
    Orderly direct f .none (f.startTrace i pose settings) g .none := by
  rw [start] at h
  rw [startTrace]
  cases hc : f.cursor? i with
  | none =>
    rw [hc] at h
    obtain rfl := Except.ok.inj h
    exact .refl f .none
  | some c =>
    rw [hc] at h
    simp only [Cursor.start] at h ⊢
    cases hd : c.device.start pose settings with
    | error e => rw [hd] at h; cases h
    | ok device =>
      rw [hd] at h
      obtain rfl := Except.ok.inj h
      exact .single (.started hc hd) (.started .none i device)

theorem start_steps {f g : Fleet α} {i : Nat} {pose : InitialPose α} {settings : Settings α}
    (h : f.start i pose settings = .ok g) : Steps f (f.startTrace i pose settings) g := by
  have horderly : Orderly (fun _ => True) f .none (f.startTrace i pose settings) g .none :=
    start_orderly h
  exact horderly.steps

/-- The trace of a request. -/
def requestTrace (f : Fleet α) : Operation α → List (Event α)
  | .add name immediate child tools => [.added (.make name immediate child tools)]
  | .start i pose settings => f.startTrace i pose settings
  | .issue i action => f.issueTrace i action
  | .next i => f.nextTrace i
  | .advanceTo i id => f.advanceTrace i id
  | .onQueue i op =>
    match f.cursor? i with
    | none => []
    | some _ => [.queued i op]

/-- A start that is refused leaves no trace. -/
theorem startTrace_of_error {f : Fleet α} {i : Nat} {pose : InitialPose α}
    {settings : Settings α} {e : StartError} (h : f.start i pose settings = .error e) :
    f.startTrace i pose settings = [] := by
  rw [start] at h
  rw [startTrace]
  cases hc : f.cursor? i with
  | none => rfl
  | some c =>
    rw [hc] at h
    simp only [Cursor.start] at h ⊢
    cases hd : c.device.start pose settings with
    | error reason => rfl
    | ok device =>
      rw [hd] at h
      cases h

/-- Neither does a cursor at which nothing waits. -/
theorem nextTrace_of_none {f : Fleet α} {i : Nat} (h : f.next? i = none) :
    f.nextTrace i = [] := by
  rw [next?] at h
  rw [nextTrace]
  cases hc : f.cursor? i with
  | none => rfl
  | some c =>
    rw [hc] at h
    simp only at h ⊢
    cases hn : c.queue.next? with
    | none => rfl
    | some released =>
      rw [hn] at h
      cases h

/-- **A request does what its trace says.** -/
theorem after_steps (f : Fleet α) (op : Operation α) :
    Steps f (f.requestTrace op) (f.after op) := by
  cases op with
  | add name immediate child tools => exact (Step.added f name immediate child tools).single
  | start i pose settings =>
    rw [after, requestTrace]
    cases h : f.start i pose settings with
    | ok g => exact start_steps h
    | error e =>
      rw [startTrace_of_error h]
      exact .refl f
  | issue i action => exact issue_steps f i action
  | next i =>
    rw [after, requestTrace]
    cases h : f.next? i with
    | some answer => exact next?_steps h
    | none =>
      rw [nextTrace_of_none h]
      exact .refl f
  | advanceTo i id => exact advanceTo_steps f i id
  | onQueue i op =>
    rw [after, requestTrace]
    cases h : f.cursor? i with
    | none => exact .refl f
    | some c => exact (Step.queued h op).single

/-- The trace of requests one after the other. -/
def runTrace (f : Fleet α) : List (Operation α) → List (Event α)
  | [] => []
  | op :: rest => f.requestTrace op ++ (f.after op).runTrace rest

/-- **A run does what its trace says.** -/
theorem run_steps (f : Fleet α) (ops : List (Operation α)) :
    Steps f (f.runTrace ops) (f.run ops) := by
  induction ops generalizing f with
  | nil => exact .refl f
  | cons op rest ih => exact (after_steps f op).append (ih (f.after op))

/-- The fleets that come about from an empty one. -/
def Reachable (f : Fleet α) : Prop := ∃ ops, f = empty.run ops

theorem Reachable.run {f : Fleet α} (hf : f.Reachable) (ops : List (Operation α)) :
    (f.run ops).Reachable := by
  obtain ⟨before, rfl⟩ := hf
  exact ⟨before ++ ops, List.foldl_append.symm⟩

theorem Reachable.after {f : Fleet α} (hf : f.Reachable) (op : Operation α) :
    (f.after op).Reachable :=
  hf.run [op]

/-- **The queue of a cursor in use has a history, and its device came about from a
blank one.** -/
theorem Reachable.cursor {f : Fleet α} (hf : f.Reachable) {i : Nat} {c : Cursor α}
    (hc : f.cursor? i = some c) :
    (∃ ops, c.queue = (Queue.History.run ops).queue) ∧ c.device.Reachable := by
  obtain ⟨ops, rfl⟩ := hf
  have h := explained_empty.steps (run_steps empty ops)
  exact ⟨⟨_, (h.queue hc).trans (Queue.History.queue_run _).symm⟩, h.device hc⟩

/-- The actions that wait at a cursor in use wait in the order of their
identifiers. -/
theorem Reachable.increasing {f : Fleet α} (hf : f.Reachable) {i : Nat} {c : Cursor α}
    (hc : f.cursor? i = some c) : c.queue.pending.Pairwise (·.id < ·.id) := by
  obtain ⟨⟨ops, hops⟩, -⟩ := hf.cursor hc
  rw [hops]
  exact (List.pairwise_append.mp (Queue.History.valid_run ops).increasing_kept).2.1

/-- What is past at a cursor stays past, whatever is asked of the fleet. -/
theorem past_run {f : Fleet α} {i id : Nat} {c c' : Cursor α} (hc : f.cursor? i = some c)
    (h : c.queue.Past id) {ops : List (Operation α)} (hc' : (f.run ops).cursor? i = some c') :
    c'.queue.Past id := by
  obtain rfl := Option.some.inj (((run_steps f ops).cursor? hc).symm.trans hc')
  rw [queue_follow]
  exact h.run _

end Fleet

end RobotMotion
