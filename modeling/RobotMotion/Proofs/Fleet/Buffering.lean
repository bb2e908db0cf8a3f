import RobotMotion.Proofs.Fleet.Feeding
import RobotMotion.Proofs.Queue.Block

/-!
# Cursors that only keep actions

A cursor that is not immediate keeps what it is issued, or is passed by others, and does
nothing more. `Operation.KeepsWaiting` says which requests release nothing there: whatever
is issued, and all that is asked of other cursors. In their traces nothing but looking
happens to the queue of the cursor besides actions that are offered
(`keepsWaiting_requestTrace`), since passing on ends at a cursor that is not immediate.

So its device and its block stay as they are, whatever is issued
(`Reachable.exists_cursor_of_keepsWaiting`).
-/

namespace RobotMotion

variable {α : Type}

/-! ### Queues -/

namespace Queue

/-- Whether an operation leaves what waits as it is: it offers an action, or only looks. -/
def Operation.keepsWaiting : Operation α → Bool
  | .add _ | .all true | .block true => true
  | _ => false

variable {q : Queue α}

/-- What is offered comes behind the block, so the block is still all there. -/
theorem blocked_after_of_keepsWaiting (hb : q.blocked ≤ q.pending.length) {op : Operation α}
    (h : op.keepsWaiting = true) :
    (q.after op).blocked ≤ (q.after op).pending.length ∧ (q.after op).block = q.block := by
  cases op with
  | add action =>
    cases ha : q.add? action with
    | none =>
      rw [after_add_of_refused ha]
      exact ⟨hb, rfl⟩
    | some r =>
      rw [after_add ha]
      refine ⟨?_, block_add hb ha⟩
      rw [add?_eq_some ha, List.length_append]
      exact Nat.le_add_right_of_le hb
  | all peek =>
    cases peek with
    | true => exact ⟨hb, rfl⟩
    | false => cases h
  | block peek =>
    cases peek with
    | true => exact ⟨hb, rfl⟩
    | false => cases h
  | _ => cases h

/-- **The block stays as it is while actions are only offered.** -/
theorem block_run_of_keepsWaiting (hb : q.blocked ≤ q.pending.length) {ops : List (Operation α)}
    (h : ∀ op ∈ ops, op.keepsWaiting = true) : (q.run ops).block = q.block := by
  induction ops generalizing q with
  | nil => rfl
  | cons op rest ih =>
    obtain ⟨hafter, hblock⟩ := blocked_after_of_keepsWaiting hb (h op List.mem_cons_self)
    exact (ih hafter fun op hop => h op (List.mem_cons_of_mem _ hop)).trans hblock

end Queue

namespace Fleet

/-! ### Events -/

/-- Whether an event leaves what waits at the cursor of a number: if it is about this cursor,
then it is an operation on its queue that leaves what waits. -/
def Event.KeepsWaiting (i : Nat) (e : Event α) : Prop :=
  e.about = some i → ∃ op : Queue.Operation α, e = .queued i op ∧ op.keepsWaiting = true

variable {i j : Nat} {t : List (Event α)}

/-- What happens to another cursor leaves this one alone. -/
theorem Event.keepsWaiting_of_ne {e : Event α} (h : e.about ≠ some i) : e.KeepsWaiting i :=
  fun habout => absurd habout h

theorem Event.keepsWaiting_queued {op : Queue.Operation α}
    (h : j = i → op.keepsWaiting = true) : (Event.queued j op).KeepsWaiting i := by
  intro habout
  obtain rfl := Option.some.inj habout
  exact ⟨op, rfl, h rfl⟩

/-- Nothing happens to the device of a cursor where all waits. -/
theorem device_follow_of_keepsWaiting (h : ∀ e ∈ t, e.KeepsWaiting i) (c : Cursor α) :
    (follow i c t).device = c.device := by
  induction t generalizing c with
  | nil => rfl
  | cons e t ih =>
    refine (ih (fun e he => h e (List.mem_cons_of_mem _ he)) _).trans ?_
    -- an event about this cursor works on its queue alone
    by_cases habout : e.about = some i
    · obtain ⟨op, rfl, -⟩ := h e List.mem_cons_self habout
      rw [Event.on, if_pos rfl]
    · rw [Event.on_of_not_about habout]

/-- What happens to the queue of the cursor leaves what waits as it is. -/
theorem keepsWaiting_of_mem_queueOps (h : ∀ e ∈ t, e.KeepsWaiting i) :
    ∀ op ∈ queueOps i t, op.keepsWaiting = true := by
  intro op hop
  obtain ⟨e, he, hread⟩ := List.mem_filterMap.mp hop
  cases e with
  | queued j other =>
    rw [Event.queueOp?] at hread
    split at hread
    · rename_i hj
      obtain rfl := hj
      obtain rfl := Option.some.inj hread
      obtain ⟨op, hsame, hkeeps⟩ := h _ he rfl
      obtain ⟨-, rfl⟩ := Event.queued.inj hsame
      exact hkeeps
    · cases hread
  | _ => cases hread

/-! ### Traces -/

variable [Scalar α] {f : Fleet α} {c : Cursor α}

/-- Trying an action at another cursor keeps all waiting, if passing it on does. -/
theorem keepsWaiting_triedTrace {pass : Fleet α → Action α → List (Event α)} (hj : j ≠ i)
    (hpass : ∀ g : Fleet α, g.cursor? i = f.cursor? i → ∀ action, ∀ e ∈ pass g action,
      e.KeepsWaiting i) (d : Cursor α) (action : Action α) :
    ∀ e ∈ triedTrace pass f j d action, e.KeepsWaiting i := by
  refine List.forall_mem_cons.mpr ⟨?_, ?_⟩
  · exact Event.keepsWaiting_of_ne fun habout => hj (Option.some.inj habout)
  · split
    · refine hpass _ ?_ action
      rw [cursor?_note, cursor?_put_ne f hj]
    · exact List.forall_mem_nil _

/-- **Whatever is issued, a cursor that is not immediate keeps it waiting**, also where it
is passed on to it by others. -/
theorem keepsWaiting_issueTrace (hc : f.cursor? i = some c) (hb : c.immediate = false) (j : Nat)
    (action : Action α) : ∀ e ∈ f.issueTrace j action, e.KeepsWaiting i := by
  induction j using Nat.strongRecOn generalizing f action with
  | ind j ih =>
    -- passing on that reaches the cursor ends there, since it is not immediate
    by_cases hj : j = i
    · subst hj
      rw [issueTrace_of_buffering hc hb]
      exact List.forall_mem_singleton.mpr (Event.keepsWaiting_queued fun _ => rfl)
    have helsewhere (op : Queue.Operation α) : (Event.queued j op).KeepsWaiting i :=
      Event.keepsWaiting_queued fun h => absurd h hj
    rw [issueTrace]
    cases f.cursor? j with
    | none => exact List.forall_mem_nil _
    | some d =>
      refine List.forall_mem_cons.mpr ⟨helsewhere _, ?_⟩
      cases d.queue.add? action with
      | none => exact List.forall_mem_nil _
      | some queue =>
        dsimp only
        split
        · cases queue.next? with
          | none => exact List.forall_mem_nil _
          | some released =>
            obtain ⟨oldest, rest⟩ := released
            refine List.forall_mem_cons.mpr ⟨helsewhere _, ?_⟩
            -- what applied is passed on to a cursor of a smaller number
            refine keepsWaiting_triedTrace hj (fun g hg passed => ?_) _ oldest
            cases childBelow d j with
            | none => exact List.forall_mem_nil _
            | some child => exact ih child.1 child.2 (hg.trans hc) passed
        · exact List.forall_mem_nil _

/-- Passing on is issuing to the child. -/
theorem keepsWaiting_passTrace (hc : f.cursor? i = some c) (hb : c.immediate = false)
    (d : Cursor α) (j : Nat) (action : Action α) :
    ∀ e ∈ passTrace d j f action, e.KeepsWaiting i := by
  rw [passTrace]
  cases childBelow d j with
  | none => exact List.forall_mem_nil _
  | some child => exact keepsWaiting_issueTrace hc hb child.1 action

theorem keepsWaiting_tried (hc : f.cursor? i = some c) (hb : c.immediate = false) (hj : j ≠ i)
    (parent d : Cursor α) (action : Action α) :
    ∀ e ∈ triedTrace (passTrace parent j) f j d action, e.KeepsWaiting i :=
  keepsWaiting_triedTrace hj
    (fun _ hg passed => keepsWaiting_passTrace (hg.trans hc) hb parent j passed) d action

theorem keepsWaiting_nextTrace (hc : f.cursor? i = some c) (hb : c.immediate = false)
    (hj : j ≠ i) : ∀ e ∈ f.nextTrace j, e.KeepsWaiting i := by
  rw [nextTrace]
  cases f.cursor? j with
  | none => exact List.forall_mem_nil _
  | some d =>
    dsimp only
    cases d.queue.next? with
    | none => exact List.forall_mem_nil _
    | some released =>
      refine List.forall_mem_cons.mpr ⟨Event.keepsWaiting_queued fun h => absurd h hj, ?_⟩
      exact keepsWaiting_tried hc hb hj d _ _

theorem keepsWaiting_carryOutAllTrace (hc : f.cursor? i = some c) (hb : c.immediate = false)
    (hj : j ≠ i) (actions : List (Action α)) :
    ∀ e ∈ f.carryOutAllTrace j actions, e.KeepsWaiting i := by
  induction actions generalizing f c with
  | nil => exact List.forall_mem_nil _
  | cons action rest ih =>
    rw [carryOutAllTrace]
    cases hd : f.cursor? j with
    | none => exact List.forall_mem_nil _
    | some d =>
      refine List.forall_mem_append.mpr ⟨keepsWaiting_tried hc hb hj d d action, ?_⟩
      exact ih ((carryOut_steps hd action).cursor? hc) ((immediate_follow i c _).trans hb)

theorem keepsWaiting_advanceTrace (hc : f.cursor? i = some c) (hb : c.immediate = false)
    (hj : j ≠ i) (id : Nat) : ∀ e ∈ f.advanceTrace j id, e.KeepsWaiting i := by
  rw [advanceTrace]
  cases f.cursor? j with
  | none => exact List.forall_mem_nil _
  | some d =>
    refine List.forall_mem_cons.mpr ⟨Event.keepsWaiting_queued fun h => absurd h hj, ?_⟩
    exact keepsWaiting_carryOutAllTrace ((cursor?_put_ne f hj _).trans hc) hb hj _

/-! ### Requests -/

/-- Whether a request releases nothing that waits at the cursor of a number, and leaves its
device alone. Whatever is issued does, and so does all that is asked of other cursors. -/
def Operation.KeepsWaiting (i : Nat) : Operation α → Prop
  | .add .. | .issue .. => True
  | .start j .. | .next j | .advanceTo j _ => j ≠ i
  | .onQueue j op => j = i → op.keepsWaiting = true

theorem keepsWaiting_requestTrace (hc : f.cursor? i = some c) (hb : c.immediate = false)
    {op : Operation α} (h : op.KeepsWaiting i) :
    ∀ e ∈ f.requestTrace op, e.KeepsWaiting i := by
  cases op with
  | add name immediate child tools =>
    exact List.forall_mem_singleton.mpr (Event.keepsWaiting_of_ne nofun)
  | start j pose settings =>
    rw [requestTrace, startTrace]
    split
    · exact List.forall_mem_nil _
    · split
      · exact List.forall_mem_nil _
      · exact List.forall_mem_singleton.mpr
          (Event.keepsWaiting_of_ne fun habout => h (Option.some.inj habout))
  | issue j action => exact keepsWaiting_issueTrace hc hb j action
  | next j => exact keepsWaiting_nextTrace hc hb h
  | advanceTo j id => exact keepsWaiting_advanceTrace hc hb h id
  | onQueue j op =>
    rw [requestTrace]
    split
    · exact List.forall_mem_nil _
    · exact List.forall_mem_singleton.mpr (Event.keepsWaiting_queued h)

theorem keepsWaiting_runTrace (hc : f.cursor? i = some c) (hb : c.immediate = false)
    {ops : List (Operation α)} (h : ∀ op ∈ ops, op.KeepsWaiting i) :
    ∀ e ∈ f.runTrace ops, e.KeepsWaiting i := by
  induction ops generalizing f c with
  | nil => exact List.forall_mem_nil _
  | cons op rest ih =>
    obtain ⟨hop, hrest⟩ := List.forall_mem_cons.mp h
    refine List.forall_mem_append.mpr ⟨keepsWaiting_requestTrace hc hb hop, ?_⟩
    exact ih ((after_steps f op).cursor? hc) ((immediate_follow i c _).trans hb) hrest

/-- **While a cursor only keeps actions, its device and its block stay as they are.** -/
theorem Reachable.exists_cursor_of_keepsWaiting (hf : f.Reachable) (hc : f.cursor? i = some c)
    (hb : c.immediate = false) {ops : List (Operation α)} (h : ∀ op ∈ ops, op.KeepsWaiting i) :
    ∃ after, (f.run ops).cursor? i = some after ∧ after.device = c.device ∧
      after.queue.block = c.queue.block := by
  have hkeeps := keepsWaiting_runTrace hc hb h
  refine ⟨_, (run_steps f ops).cursor? hc, device_follow_of_keepsWaiting hkeeps c, ?_⟩
  obtain ⟨⟨history, hhistory⟩, -⟩ := hf.cursor hc
  have hblocked : c.queue.blocked ≤ c.queue.pending.length := by
    rw [hhistory]
    exact (Queue.History.valid_run history).blocked
  rw [queue_follow]
  exact Queue.block_run_of_keepsWaiting hblocked (keepsWaiting_of_mem_queueOps hkeeps)

end Fleet

end RobotMotion
