import RobotMotion.Proofs.Fleet.Run

/-!
# A cursor that feeds a buffer

The simplest family: a cursor that carries out its actions at once, and a child that
only keeps what is passed on to it. `Feeds` says so, and that nothing waits at the
parent. Then issuing to the parent is at most four events (`Feeds.issueTrace`): the
new action is queued, released and tried, and queued again at the child if it
applied. Releasing at the child is two (`nextTrace_of_childless`).
-/

namespace RobotMotion.Fleet

variable {α : Type}

/-- A cursor `u` of number `i` feeds a buffering cursor `w` of number `j`. -/
structure Feeds (f : Fleet α) (i j : Nat) (u w : Cursor α) : Prop where
  below : j < i
  parent : f.cursor? i = some u
  child : f.cursor? j = some w
  immediate : u.immediate = true
  passes : u.child = some j
  buffers : w.immediate = false
  childless : w.child = none
  idle : u.queue.pending = []

/-- An accepted action is the only one that waits at the parent. -/
theorem Feeds.next?_of_add? {f : Fleet α} {i j : Nat} {u w : Cursor α}
    (h : f.Feeds i j u w) {action : Action α} {queue : Queue α}
    (ha : u.queue.add? action = some queue) :
    ∃ rest, queue.next? = some (action, rest) ∧ rest.pending = [] ∧
      rest.lastAdded = some action.id ∧ rest.lastReleased = some action := by
  have hp := Queue.pending_add? ha
  rw [h.idle, List.nil_append] at hp
  have hl : queue.lastAdded = some action.id := Queue.lastAdded_add? ha
  rw [Queue.next?, hp]
  exact ⟨_, rfl, rfl, hl, rfl⟩

variable [Scalar α]

/-- A buffering cursor keeps what it is issued. -/
theorem issueTrace_of_buffering {f : Fleet α} {j : Nat} {w : Cursor α}
    (hw : f.cursor? j = some w) (hb : w.immediate = false) (action : Action α) :
    f.issueTrace j action = [.queued j (.add action)] := by
  rw [issueTrace, hw]
  simp only
  cases w.queue.add? action with
  | none => rfl
  | some queue => simp [hb]

/-- A cursor without a child passes nothing on. -/
theorem nextTrace_of_childless {f : Fleet α} {j : Nat} {w : Cursor α}
    (hw : f.cursor? j = some w) (hchild : w.child = none) {action : Action α}
    {rest : List (Action α)} (hp : w.queue.pending = action :: rest) :
    f.nextTrace j = [.queued j .next, .tried j (w.device.visit action)] := by
  have hpass (queue : Queue α) (g : Fleet α) : passTrace { w with queue } j g action = [] := by
    simp only [passTrace, childBelow, hchild]
  rw [nextTrace, hw]
  simp only [Queue.next?, hp, triedTrace, hpass, ite_self]

namespace Feeds

variable {f : Fleet α} {i j : Nat} {u w : Cursor α}

/-- **Issuing to the parent is queueing, releasing and trying the new action**, and
queueing it at the child if it applied. -/
theorem issueTrace (h : f.Feeds i j u w) {action : Action α} {queue : Queue α}
    (ha : u.queue.add? action = some queue) :
    f.issueTrace i action =
      [.queued i (.add action), .queued i .next, .tried i (u.device.visit action)] ++
        if (u.device.visit action).applied then [.queued j (.add action)] else [] := by
  obtain ⟨rest, hn, -⟩ := h.next?_of_add? ha
  have hchild : ∀ c : Cursor α, ∀ r, ((f.put i c).note r).cursor? j = some w := by
    intro c r
    rw [cursor?_note, cursor?_put_ne f (Nat.ne_of_gt h.below), h.child]
  rw [Fleet.issueTrace, h.parent]
  simp only [ha, h.immediate, if_true, hn, triedTrace, h.passes, Fleet.childBelow, h.below,
    dif_pos, issueTrace_of_buffering (hchild _ _) h.buffers]
  rfl

theorem issue_fst (h : f.Feeds i j u w) {action : Action α} {queue : Queue α}
    (ha : u.queue.add? action = some queue) :
    (f.issue i action).1 = (u.device.visit action).applied := by
  obtain ⟨rest, hn, -⟩ := h.next?_of_add? ha
  rw [issue, h.parent]
  simp only [ha, h.immediate, if_true, hn, carryOutWith]
  cases (u.device.visit action).applied <;> rfl

/-- What issuing makes of the parent. -/
theorem follow_parent (h : f.Feeds i j u w) {action : Action α} {queue : Queue α}
    (ha : u.queue.add? action = some queue) :
    ∃ rest, follow i u (f.issueTrace i action) =
        { u with device := (u.device.visit action).device, queue := rest } ∧
      rest.pending = [] ∧ rest.lastAdded = some action.id ∧ rest.lastReleased = some action := by
  obtain ⟨rest, hn, hrest⟩ := h.next?_of_add? ha
  have hne : j ≠ i := Nat.ne_of_lt h.below
  refine ⟨rest, ?_, hrest⟩
  rw [h.issueTrace ha]
  cases (u.device.visit action).applied <;>
    simp [follow, Event.on, hne, Queue.after_add ha, Queue.after_next hn]

/-- What issuing makes of the child. -/
theorem follow_child (h : f.Feeds i j u w) {action : Action α} {queue : Queue α}
    (ha : u.queue.add? action = some queue) :
    follow j w (f.issueTrace i action) =
      { w with
        queue := if (u.device.visit action).applied then w.queue.after (.add action)
          else w.queue } := by
  have hne : i ≠ j := Nat.ne_of_gt h.below
  rw [h.issueTrace ha]
  cases (u.device.visit action).applied <;> simp [follow, Event.on, hne]

theorem queueOps_child (h : f.Feeds i j u w) {action : Action α} {queue : Queue α}
    (ha : u.queue.add? action = some queue) :
    queueOps j (f.issueTrace i action) =
      if (u.device.visit action).applied then [.add action] else [] := by
  have hne : i ≠ j := Nat.ne_of_gt h.below
  rw [h.issueTrace ha]
  cases (u.device.visit action).applied <;>
    simp [queueOps, List.filterMap_cons, Event.queueOp?, hne]

/-- The child tries nothing when the parent is issued an action. -/
theorem not_tried_child (h : f.Feeds i j u w) {action : Action α} {queue : Queue α}
    (ha : u.queue.add? action = some queue) (v : Visit α) :
    Event.tried j v ∉ f.issueTrace i action := by
  have hne : j ≠ i := Nat.ne_of_lt h.below
  rw [h.issueTrace ha]
  cases (u.device.visit action).applied <;> simp [hne]

/-- Issuing to the parent is about the two cursors. -/
theorem about_issueTrace (h : f.Feeds i j u w) {action : Action α} {queue : Queue α}
    (ha : u.queue.add? action = some queue) {e : Event α} (he : e ∈ f.issueTrace i action) :
    e.about = some i ∨ e.about = some j := by
  rw [h.issueTrace ha, List.mem_append] at he
  rcases he with he | he
  · simp only [List.mem_cons, List.not_mem_nil, or_false] at he
    rcases he with rfl | rfl | rfl <;> exact .inl rfl
  · split at he
    · obtain rfl := List.mem_singleton.mp he
      exact .inr rfl
    · cases he

/-- Starting both cursors where their devices take the pose alike. -/
theorem start (h : f.Feeds i j u w) {pose : InitialPose α} {settings : Settings α}
    {device : Device α} (hu : u.device.start pose settings = .ok device)
    (hw : w.device.start pose settings = .ok device) :
    ∃ first g, f.start i pose settings = .ok first ∧ first.start j pose settings = .ok g ∧
      f.startTrace i pose settings = [.started i device] ∧
      first.startTrace j pose settings = [.started j device] ∧
      Steps f [.started i device, .started j device] g := by
  set first := f.put i { u with device }
  have hchild : first.cursor? j = some w :=
    (cursor?_put_ne f (Nat.ne_of_gt h.below) _).trans h.child
  refine ⟨first, first.put j { w with device }, ?_, ?_, ?_, ?_, ?_⟩
  · simp only [Fleet.start, h.parent, Cursor.start, hu]
    rfl
  · simp only [Fleet.start, hchild, Cursor.start, hw]
    rfl
  · simp only [startTrace, h.parent, hu]
  · simp only [startTrace, hchild, hw]
  · exact .head (.started h.parent hu) (Step.started hchild hw).single

/-- Events on the two cursors leave them feeding, as long as nothing is left to wait
at the parent. -/
theorem steps (h : f.Feeds i j u w) {g : Fleet α} {t : List (Event α)} (ht : Steps f t g)
    (hidle : (follow i u t).queue.pending = []) :
    g.Feeds i j (follow i u t) (follow j w t) where
  below := h.below
  parent := ht.cursor? h.parent
  child := ht.cursor? h.child
  immediate := (immediate_follow i u t).trans h.immediate
  passes := (child_follow i u t).trans h.passes
  buffers := (immediate_follow j w t).trans h.buffers
  childless := (child_follow j w t).trans h.childless
  idle := hidle

end Feeds

end RobotMotion.Fleet
