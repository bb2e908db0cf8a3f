import RobotMotion.Proofs.Fleet.Run
import Mathlib.Data.List.Nodup

/-!
# Chains of cursors lose nothing

Cursors that were built once and are no longer added to form a forest when each is the
child of at most one other. What happened to them is read off the trace of a run:
the actions that a cursor carried out (`appliedBy`), rejected (`rejectedBy`) and was
offered (`offeredTo`), those that its queue accepted (`acceptedBy`), and what left the
queue to be carried out (`carriedBy`) or was taken away (`withdrawnFrom`).

The books of a run are `Balanced`: what left a queue to be carried out is tried in this
order, and what a cursor carried out is what its child accepted, up to the debts that
are open in the middle of a request. Since what leaves a queue increases in identifiers,
the child never has a reason to refuse what is passed on to it.
-/

namespace RobotMotion.Fleet

variable {α : Type}

/-! ### Records -/

/-- What came of an action that the device of a cursor tried. -/
def Event.visit? (i : Nat) : Event α → Option (Visit α)
  | .tried j visit => if j = i then some visit else none
  | _ => none

/-- Everything that the device of a cursor tried. -/
def visitsOf (i : Nat) (t : List (Event α)) : List (Visit α) := t.filterMap (Event.visit? i)

/-- The actions that a cursor carried out. -/
def appliedBy (i : Nat) (t : List (Event α)) : List (Action α) :=
  ((visitsOf i t).filter (·.applied)).map (·.action)

/-- The actions that a cursor rejected. -/
def rejectedBy (i : Nat) (t : List (Event α)) : List (Action α) :=
  ((visitsOf i t).filter (!·.applied)).map (·.action)

/-- The actions that the queue of a cursor was offered. -/
def offeredTo (i : Nat) (t : List (Event α)) : List (Action α) :=
  (queueOps i t).filterMap Queue.Operation.offered?

/-- The actions that the queue of a cursor accepted. -/
def acceptedBy (i : Nat) (t : List (Event α)) : List (Action α) :=
  (Queue.History.run (queueOps i t)).accepted

/-- The actions that left the queue of a cursor to be carried out. -/
def carriedBy (i : Nat) (t : List (Event α)) : List (Action α) :=
  Queue.empty.releasedBy Queue.Operation.isTurn (queueOps i t)

/-- The actions that were taken away from the queue of a cursor. -/
def withdrawnFrom (i : Nat) (t : List (Event α)) : List (Action α) :=
  Queue.empty.releasedBy Queue.Operation.isQuery (queueOps i t)

section Records

variable {i j : Nat} {t : List (Event α)}

/-- Visits are read off two traces one after the other. -/
theorem visitsOf_append (i : Nat) (t u : List (Event α)) :
    visitsOf i (t ++ u) = visitsOf i t ++ visitsOf i u :=
  List.filterMap_append

/-- So are the actions that were carried out. -/
theorem appliedBy_append (i : Nat) (t u : List (Event α)) :
    appliedBy i (t ++ u) = appliedBy i t ++ appliedBy i u := by
  simp [appliedBy, visitsOf_append]

/-- And those that were offered. -/
theorem offeredTo_append (i : Nat) (t u : List (Event α)) :
    offeredTo i (t ++ u) = offeredTo i t ++ offeredTo i u := by
  simp [offeredTo, queueOps_append]

theorem visitsOf_tried_self (i : Nat) (v : Visit α) : visitsOf i [.tried i v] = [v] := by
  simp [visitsOf, Event.visit?]

theorem visitsOf_tried_ne (hne : j ≠ i) (v : Visit α) : visitsOf i [.tried j v] = [] := by
  simp [visitsOf, Event.visit?, hne]

/-- Only trying an action adds to what a device tried. -/
theorem visitsOf_of_ne {e : Event α} (h : ∀ v, e ≠ .tried i v) : visitsOf i [e] = [] := by
  cases e with
  | tried j v =>
    refine visitsOf_tried_ne (fun hj => ?_) v
    exact h v (congrArg (Event.tried · v) hj)
  | _ => rfl

/-- What a queue accepts depends on what it went through before. -/
theorem acceptedBy_queued_self (i : Nat) (t : List (Event α)) (op : Queue.Operation α) :
    acceptedBy i (t ++ [.queued i op]) =
      acceptedBy i t ++ (Queue.empty.run (queueOps i t)).taken op := by
  rw [acceptedBy, queueOps_append, queueOps_queued_self, Queue.History.accepted_concat]
  rfl

/-- So does what leaves it; it is carried out if the operation is a turn. -/
theorem carriedBy_queued_self (i : Nat) (t : List (Event α)) (op : Queue.Operation α) :
    carriedBy i (t ++ [.queued i op]) = carriedBy i t ++
      if op.isTurn then ((Queue.empty.run (queueOps i t)).operate op).1 else [] := by
  rw [carriedBy, queueOps_append, queueOps_queued_self, Queue.releasedBy_concat]
  rfl

/-- An event that is not about the queue of a cursor leaves its records. -/
theorem carriedBy_of_not_queued {e : Event α} (h : queueOps i [e] = []) :
    carriedBy i (t ++ [e]) = carriedBy i t := by
  rw [carriedBy, queueOps_append, h, List.append_nil]
  rfl

/-- Nor does such an event change what the queue accepted. -/
theorem acceptedBy_of_not_queued {e : Event α} (h : queueOps i [e] = []) :
    acceptedBy i (t ++ [e]) = acceptedBy i t := by
  rw [acceptedBy, queueOps_append, h, List.append_nil]
  rfl

/-- Or what it was offered. -/
theorem offeredTo_of_not_queued {e : Event α} (h : queueOps i [e] = []) :
    offeredTo i (t ++ [e]) = offeredTo i t := by
  rw [offeredTo, queueOps_append, h, List.append_nil]
  rfl

/-- An event that tries nothing adds no visit. -/
theorem visitsOf_of_not_tried {e : Event α} (h : visitsOf i [e] = []) :
    visitsOf i (t ++ [e]) = visitsOf i t := by
  rw [visitsOf_append, h, List.append_nil]

/-- And carries nothing out. -/
theorem appliedBy_of_not_tried {e : Event α} (h : visitsOf i [e] = []) :
    appliedBy i (t ++ [e]) = appliedBy i t := by
  rw [appliedBy, visitsOf_of_not_tried h]
  rfl

end Records

/-! ### The books -/

/-- What left a queue to be carried out is what was tried and what is still owed. What
was carried out is what the child accepted and what is still due, and the child accepted
everything that it was offered. -/
structure Balanced (child : Nat → Option Nat) (t : List (Event α)) (d : Debt α) : Prop where
  carried : ∀ i, carriedBy i t = (visitsOf i t).map (·.action) ++ d.owed i
  passed : ∀ i j, child i = some j → appliedBy i t = acceptedBy j t ++ d.due j
  received : ∀ i j, child i = some j → offeredTo j t = acceptedBy j t

namespace Balanced

variable {child : Nat → Option Nat} {t : List (Event α)} {d : Debt α} {i : Nat}

/-- Before anything happens the books are empty. -/
theorem nil : Balanced child ([] : List (Event α)) .none where
  carried _ := rfl
  passed _ _ _ := rfl
  received _ _ _ := rfl

/-- What a cursor carried out increases in identifiers. -/
theorem increasing (h : Balanced child t d) (i : Nat) :
    (appliedBy i t).Pairwise (·.id < ·.id) := by
  -- what leaves a queue increases, and only what left it is tried
  have hcarried : (carriedBy i t).Pairwise (·.id < ·.id) :=
    Queue.History.increasing_releasedBy _ _
  rw [h.carried] at hcarried
  exact (List.pairwise_append.mp hcarried).1.sublist (List.filter_sublist.map _)

/-- No identifier is tried twice. -/
theorem nodup_ids (h : Balanced child t d) (i : Nat) :
    ((visitsOf i t).map (·.action.id)).Nodup := by
  have hcarried : (carriedBy i t).Pairwise (·.id < ·.id) :=
    Queue.History.increasing_releasedBy _ _
  rw [h.carried] at hcarried
  have hvisits := List.pairwise_map.mp (List.pairwise_append.mp hcarried).1
  exact List.pairwise_map.mpr (hvisits.imp Nat.ne_of_lt)

/-- Starting a device is not in the books. -/
theorem started (h : Balanced child t d) (i : Nat) (device : Device α) :
    Balanced child (t ++ [.started i device]) d where
  carried k := by
    rw [carriedBy_of_not_queued rfl, visitsOf_of_not_tried rfl]
    exact h.carried k
  passed k j hk := by
    rw [appliedBy_of_not_tried rfl, acceptedBy_of_not_queued rfl]
    exact h.passed k j hk
  received k j hk := by
    rw [offeredTo_of_not_queued rfl, acceptedBy_of_not_queued rfl]
    exact h.received k j hk

/-- An operation that offers nothing leaves a cursor with what it takes out to be
carried out. -/
theorem queued (h : Balanced child t d) {op : Queue.Operation α} (hop : op.offered? = none) :
    Balanced child (t ++ [.queued i op]) (d.withOwed i (d.owed i ++
      if op.isTurn then ((Queue.empty.run (queueOps i t)).operate op).1 else [])) := by
  -- only offers change what is accepted, so both records of offers stay
  have haccepted (j : Nat) : acceptedBy j (t ++ [.queued i op]) = acceptedBy j t := by
    by_cases hj : i = j
    · subst hj
      rw [acceptedBy_queued_self, Queue.taken_of_not_offered _ hop, List.append_nil]
    · exact acceptedBy_of_not_queued (queueOps_queued_ne hj op)
  have hoffered (j : Nat) : offeredTo j (t ++ [.queued i op]) = offeredTo j t := by
    by_cases hj : i = j
    · subst hj
      rw [offeredTo_append, offeredTo, offeredTo, queueOps_queued_self, List.filterMap_cons, hop]
      exact List.append_nil _
    · exact offeredTo_of_not_queued (queueOps_queued_ne hj op)
  refine ⟨fun k => ?_, fun k j hk => ?_, fun k j hk => ?_⟩
  · rw [visitsOf_of_not_tried rfl]
    by_cases hk : i = k
    · subst hk
      rw [carriedBy_queued_self, h.carried, Debt.owed_withOwed_self, List.append_assoc]
    · rw [carriedBy_of_not_queued (queueOps_queued_ne hk op), h.carried,
        Debt.owed_withOwed_ne d (Ne.symm hk)]
  · rw [appliedBy_of_not_tried rfl, haccepted]
    exact h.passed k j hk
  · rw [hoffered, haccepted]
    exact h.received k j hk

/-- **A child accepts what is due there**, because it is above everything that was passed
on before. -/
theorem exists_add? (h : Balanced child t d) {p : Nat} {action : Action α}
    (hp : child p = some i) (hdue : d.due i = [action]) :
    ∃ queue, (Queue.empty.run (queueOps i t)).add? action = some queue := by
  rw [← Option.ne_none_iff_exists', ne_eq, ← Queue.History.queue_run,
    (Queue.History.valid_run (queueOps i t)).refused_iff]
  -- the queue would refuse because of an action that came before, but that one was smaller
  rintro ⟨b, hb, hle⟩
  have hincreasing := h.increasing p
  rw [h.passed p i hp, hdue] at hincreasing
  have hlt := (List.pairwise_append.mp hincreasing).2.2 b hb action (List.mem_singleton_self _)
  exact Nat.not_lt.mpr hle hlt

/-- Offering a child what is due there settles it. A cursor that is nobody's child may
be offered anything. -/
theorem offered (h : Balanced child t d) {action : Action α}
    (hdue : ∀ p, child p = some i → d.due i = [action]) :
    Balanced child (t ++ [.queued i (.add action)]) (d.withDue i []) := by
  -- if the cursor is a child, what is offered is due there and so it is accepted
  have haccepted (p : Nat) (hp : child p = some i) :
      acceptedBy i (t ++ [.queued i (.add action)]) = acceptedBy i t ++ [action] := by
    obtain ⟨queue, hadd⟩ := h.exists_add? hp (hdue p hp)
    rw [acceptedBy_queued_self, Queue.taken, hadd]
    rfl
  refine ⟨fun k => ?_, fun k j hk => ?_, fun k j hk => ?_⟩
  · rw [visitsOf_of_not_tried rfl]
    by_cases hk : i = k
    · subst hk
      rw [carriedBy_queued_self]
      exact (List.append_nil _).trans (h.carried _)
    · rw [carriedBy_of_not_queued (queueOps_queued_ne hk _)]
      exact h.carried k
  · rw [appliedBy_of_not_tried rfl]
    by_cases hj : i = j
    · subst hj
      rw [haccepted k hk, h.passed k _ hk, hdue k hk, Debt.due_withDue_self, List.append_nil]
    · rw [acceptedBy_of_not_queued (queueOps_queued_ne hj _),
        Debt.due_withDue_ne d (Ne.symm hj)]
      exact h.passed k j hk
  · by_cases hj : i = j
    · subst hj
      rw [haccepted k hk, offeredTo_append, h.received k _ hk, offeredTo, queueOps_queued_self]
      rfl
    · rw [offeredTo_of_not_queued (queueOps_queued_ne hj _),
        acceptedBy_of_not_queued (queueOps_queued_ne hj _)]
      exact h.received k j hk

/-- What is tried was owed before. -/
theorem carried_tried (h : Balanced child t d) {v : Visit α} {rest : List (Action α)}
    (howed : d.owed i = v.action :: rest) (k : Nat) :
    carriedBy k (t ++ [.tried i v]) =
      (visitsOf k (t ++ [.tried i v])).map (·.action) ++ (d.withOwed i rest).owed k := by
  rw [carriedBy_of_not_queued rfl, h.carried]
  by_cases hk : i = k
  · subst hk
    rw [visitsOf_append, visitsOf_tried_self, howed, Debt.owed_withOwed_self, List.map_append,
      List.append_assoc]
    rfl
  · rw [visitsOf_of_not_tried (visitsOf_tried_ne hk v), Debt.owed_withOwed_ne d (Ne.symm hk)]

/-- An action that was rejected is tried, and nothing else becomes of it. -/
theorem rejected (h : Balanced child t d) {v : Visit α} {rest : List (Action α)}
    (howed : d.owed i = v.action :: rest) (hv : v.applied = false) :
    Balanced child (t ++ [.tried i v]) (d.withOwed i rest) where
  carried := h.carried_tried howed
  passed k j hk := by
    rw [acceptedBy_of_not_queued rfl, appliedBy_append]
    have hnone : appliedBy k [.tried i v] = [] := by
      by_cases hi : i = k
      · subst hi
        simp [appliedBy, visitsOf_tried_self, hv]
      · rw [appliedBy, visitsOf_tried_ne hi]
        rfl
    rw [hnone, List.append_nil]
    exact h.passed k j hk
  received k j hk := by
    rw [offeredTo_of_not_queued rfl, acceptedBy_of_not_queued rfl]
    exact h.received k j hk

/-- What a cursor carries out is due at its child, and at no other cursor since no two
have the same child. -/
theorem applied (h : Balanced child t d)
    (hforest : ∀ p k j, child p = some j → child k = some j → p = k) {v : Visit α}
    {rest : List (Action α)} (howed : d.owed i = v.action :: rest) (hv : v.applied = true)
    (hdue : ∀ j, child i = some j → d.due j = []) :
    Balanced child (t ++ [.tried i v]) ((d.withOwed i rest).passingOn (child i) v.action) := by
  have howed' : ((d.withOwed i rest).passingOn (child i) v.action).owed =
      (d.withOwed i rest).owed := by
    cases child i <;> rfl
  refine ⟨fun k => ?_, fun k j hk => ?_, fun k j hk => ?_⟩
  · rw [howed']
    exact h.carried_tried howed k
  · rw [acceptedBy_of_not_queued rfl, appliedBy_append, h.passed k j hk]
    by_cases hi : i = k
    · subst hi
      rw [hk, Debt.passingOn, Debt.due_withDue_self, hdue j hk, List.append_nil]
      simp [appliedBy, visitsOf_tried_self, hv]
    -- any other parent passes on to another child, so what is due there stays
    · have hsame : ((d.withOwed i rest).passingOn (child i) v.action).due j = d.due j := by
        cases hc : child i with
        | none => rfl
        | some l =>
          have hne : j ≠ l := by
            rintro rfl
            exact hi (hforest i k j hc hk)
          exact Debt.due_withDue_ne _ hne _
      rw [hsame, appliedBy, visitsOf_tried_ne hi]
      exact List.append_nil _
  · rw [offeredTo_of_not_queued rfl, acceptedBy_of_not_queued rfl]
    exact h.received k j hk

/-- **A cursor is never offered what its parent did not carry out**: what the parent
rejected, what was taken away from it, and what still waits there. -/
theorem ne_of_offered (h : Balanced child t d) {i j : Nat} (hc : child i = some j)
    {a b : Action α} (ha : a ∈ offeredTo j t)
    (hb : b ∈ rejectedBy i t ∨ b ∈ withdrawnFrom i t ∨
      b ∈ (Queue.empty.run (queueOps i t)).pending) : a.id ≠ b.id := by
  -- what the child was offered is what the parent carried out
  have happlied : a ∈ appliedBy i t := by
    rw [h.passed i j hc]
    rw [h.received i j hc] at ha
    exact List.mem_append_left _ ha
  obtain ⟨v, hv, rfl⟩ := List.mem_map.mp happlied
  rw [List.mem_filter] at hv
  have hcarried : v.action ∈ carriedBy i t := by
    rw [h.carried]
    exact List.mem_append_left _ (List.mem_map_of_mem hv.1)
  rcases hb with hb | hb | hb
  · obtain ⟨w, hw, rfl⟩ := List.mem_map.mp hb
    rw [List.mem_filter] at hw
    intro hid
    -- no identifier is tried twice, so it would be one action that applied and did not
    obtain rfl : v = w :=
      List.inj_on_of_nodup_map (h.nodup_ids i) hv.1 hw.1 hid
    rw [hv.2] at hw
    cases hw.2
  · refine (Queue.History.releasedBy_ne (fun op hop => ?_) hb hcarried).symm
    exact Queue.Operation.isTurn_of_isQuery hop
  · exact Nat.ne_of_lt (Queue.History.releasedBy_lt_pending hcarried hb)

end Balanced

/-! ### Runs of a forest -/

variable [Scalar α]

/-- No cursor is the child of two. -/
def IsForest (f : Fleet α) : Prop :=
  ∀ i k j, f.child? i = some j → f.child? k = some j → i = k

/-- Nobody passes actions on to the cursor. -/
def IsRoot (f : Fleet α) (i : Nat) : Prop := ∀ k, f.child? k ≠ some i

/-- The requests that add no cursor, issue only where that is allowed, and otherwise
start, carry out, look at what waits or take it away. -/
def Operation.Within (direct : Nat → Prop) : Operation α → Prop
  | .add .. => False
  | .start .. | .next _ | .advanceTo .. => True
  | .issue i _ => direct i
  | .onQueue _ op => op.isQuery = true

/-- Whether a request adds a cursor. -/
def Operation.isAdd : Operation α → Bool
  | .add .. => true
  | _ => false

/-- The books of a fleet that was built before the trace began. -/
structure InOrder (child : Nat → Option Nat) (t : List (Event α)) (f : Fleet α) (d : Debt α) :
    Prop where
  queue : ∀ {i c}, f.cursor? i = some c → c.queue = Queue.empty.run (queueOps i t)
  children : ∀ i, f.child? i = child i
  balanced : Balanced child t d

variable {child : Nat → Option Nat} {direct : Nat → Prop} {f g : Fleet α}
  {t u : List (Event α)} {d d' : Debt α}

/-- An event that settles something keeps the books of a forest, if only roots are
issued to from outside. -/
theorem InOrder.step (h : InOrder child t f d)
    (hforest : ∀ p k j, child p = some j → child k = some j → p = k)
    (hdirect : ∀ i, direct i → ∀ p, child p ≠ some i) {e : Event α} (hs : Step f e g)
    (he : Settles direct f d e d') : InOrder child (t ++ [e]) g d' where
  queue {i c} hc := by
    obtain ⟨b, hb, rfl⟩ := hs.exists_before he.about_isSome hc
    rw [e.queue_on, h.queue hb, queueOps_append, Queue.run_append]
  children i := (he.child?_eq hs i).trans (h.children i)
  balanced := by
    cases he with
    | started i device => exact h.balanced.started i device
    | asked i hop =>
      have hqueued := h.balanced.queued (i := i) (Queue.Operation.offered?_of_isQuery hop)
      rwa [Queue.Operation.isTurn_of_isQuery hop, if_neg Bool.false_ne_true, List.append_nil,
        Debt.withOwed_of_eq rfl] at hqueued
    | offered hdue =>
      refine h.balanced.offered fun p hp => hdue.resolve_left fun hd => ?_
      exact hdirect _ hd p hp
    | @taken i c op hc hop howed =>
      have hqueued := h.balanced.queued (i := i) (Queue.Operation.offered?_of_isTurn hop)
      rwa [hop, if_pos rfl, howed, List.nil_append, ← h.queue hc] at hqueued
    | rejected howed hv => exact h.balanced.rejected howed hv
    | applied howed hv hdue =>
      rw [h.children] at hdue ⊢
      exact h.balanced.applied hforest howed hv hdue

/-- **An orderly trace keeps the books**, by one event after the other. -/
theorem InOrder.orderly (h : InOrder child t f d)
    (hforest : ∀ p k j, child p = some j → child k = some j → p = k)
    (hdirect : ∀ i, direct i → ∀ p, child p ≠ some i) (ho : Orderly direct f d u g d') :
    InOrder child (t ++ u) g d' := by
  induction ho generalizing t with
  | refl f d =>
    rw [List.append_nil]
    exact h
  | head first settles _ ih =>
    rw [List.append_cons]
    exact ih (h.step hforest hdirect first settles)

/-- Requests leave nothing to be done. -/
theorem after_orderly {op : Operation α} (hop : op.Within direct) :
    Orderly direct f .none (f.requestTrace op) (f.after op) .none := by
  cases op with
  | add name immediate child tools => exact hop.elim
  | start i pose settings =>
    rw [after, requestTrace]
    cases h : f.start i pose settings with
    | ok g => exact start_orderly h
    | error e =>
      rw [startTrace_of_error h]
      exact .refl f .none
  | issue i action => exact issue_orderly hop f action
  | next i =>
    rw [after, requestTrace]
    cases h : f.next? i with
    | some answer => exact next?_orderly h
    | none =>
      rw [nextTrace_of_none h]
      exact .refl f .none
  | advanceTo i id => exact advanceTo_orderly f i id
  | onQueue i op =>
    rw [after, requestTrace]
    cases h : f.cursor? i with
    | none => exact .refl f .none
    | some c => exact .single (.queued h op) (.asked .none i hop)

/-- So do the requests of a whole run, one after the other. -/
theorem run_orderly {ops : List (Operation α)} (hops : ∀ op ∈ ops, op.Within direct) :
    Orderly direct f .none (f.runTrace ops) (f.run ops) .none := by
  induction ops generalizing f with
  | nil => exact .refl f .none
  | cons op rest ih =>
    have hfirst : Orderly direct f .none _ _ .none := after_orderly (hops op List.mem_cons_self)
    exact hfirst.append (ih fun op hop => hops op (List.mem_cons_of_mem _ hop))

/-- Building a fleet operates on no queue. -/
theorem queueOps_built {built : List (Operation α)} (hbuilt : ∀ op ∈ built, op.isAdd = true)
    (f : Fleet α) (i : Nat) : queueOps i (f.runTrace built) = [] := by
  induction built generalizing f with
  | nil => rfl
  | cons op rest ih =>
    have hop := hbuilt op List.mem_cons_self
    rw [runTrace, queueOps_append, ih fun op hop => hbuilt op (List.mem_cons_of_mem _ hop)]
    cases op with
    | add name immediate child tools => rfl
    | _ => cases hop

/-- The queues of a fleet that was built are new. -/
theorem queue_of_built {built : List (Operation α)} (hbuilt : ∀ op ∈ built, op.isAdd = true)
    {i : Nat} {c : Cursor α} (hc : (empty.run built).cursor? i = some c) :
    c.queue = Queue.empty := by
  have hqueue := (explained_empty.steps (run_steps empty built)).queue hc
  rwa [List.nil_append, queueOps_built hbuilt] at hqueue

/-- **Passing on loses nothing.** Build a fleet in which no cursor is the child of two,
and issue to roots only, but otherwise start, carry out, look at what waits, take it away
and freeze it anywhere, in any order. Then for every cursor `i` with a child `j`:

* after the requests, the child has accepted exactly what its parent carried out, in
  this order;
* at every moment before, the child has accepted everything that it was offered, and that
  is a beginning of what its parent has carried out so far;
* nothing that the child was offered was rejected by its parent, was taken away from
  it or still waits there. -/
theorem passing_on_loses_nothing {built ops : List (Operation α)}
    (hbuilt : ∀ op ∈ built, op.isAdd = true) (hforest : (empty.run built).IsForest)
    (hops : ∀ op ∈ ops, op.Within (empty.run built).IsRoot) {i j : Nat}
    (hchild : (empty.run built).child? i = some j) :
    let f := empty.run built
    let t := f.runTrace ops
    Steps f t (f.run ops) ∧
    acceptedBy j t = appliedBy i t ∧
    ∃ c w, f.cursor? i = some c ∧ f.cursor? j = some w ∧
      ∀ before after, t = before ++ after →
        (follow j w before).queue = (Queue.History.run (queueOps j before)).queue ∧
        offeredTo j before = acceptedBy j before ∧
        acceptedBy j before <+: appliedBy i before ∧
        ∀ a ∈ offeredTo j before, ∀ b, b ∈ rejectedBy i before ∨ b ∈ withdrawnFrom i before ∨
          b ∈ (follow i c before).queue.pending → a.id ≠ b.id := by
  intro f t
  have hrun : Orderly f.IsRoot f .none t (f.run ops) .none := run_orderly hops
  -- after building the fleet nothing has happened yet, so the books begin empty
  have hnew : InOrder f.child? [] f .none :=
    ⟨fun hc => queue_of_built hbuilt hc, fun _ => rfl, .nil⟩
  have hroots : ∀ i, f.IsRoot i → ∀ p, f.child? p ≠ some i := fun _ h => h
  obtain ⟨w, hw⟩ := exists_child hchild
  obtain ⟨c, hc, -⟩ := Option.bind_eq_some_iff.mp hchild
  refine ⟨hrun.steps, ?_, c, w, hc, hw, fun before after hsplit => ?_⟩
  · have hend := (hnew.orderly hforest hroots hrun).balanced.passed i j hchild
    exact (hend.trans (List.append_nil _)).symm
  -- every moment is the end of a beginning of the trace, where the books are kept too
  · rw [hsplit] at hrun
    obtain ⟨g, d, hbefore, -⟩ := hrun.split
    have hbooks := (hnew.orderly hforest hroots hbefore).balanced
    refine ⟨?_, hbooks.received i j hchild, ?_, fun a ha b hb => ?_⟩
    · rw [queue_follow, queue_of_built hbuilt hw, Queue.History.queue_run]
    · exact ⟨d.due j, (hbooks.passed i j hchild).symm⟩
    · rw [queue_follow, queue_of_built hbuilt hc] at hb
      exact hbooks.ne_of_offered hchild ha hb

/-- A planner that waits for its turn, a pilot that passes everything on at once, and a
robot at the end. -/
def chainOfThree : List (Operation Float) :=
  [.add "robot" false none [], .add "pilot" true (some 0) [], .add "planner" false (some 1) []]

/-- Of five actions, the planner rejects the second and has the third and fourth taken
away. -/
def plannedMoves : List (Operation Float) :=
  [.start 2 .origin .standard, .start 1 .origin .standard,
    .issue 2 ⟨3, .translation ⟨5, 0, 0⟩ true⟩, .issue 2 ⟨4, .detachTool⟩,
    .issue 2 ⟨7, .wait 100⟩, .issue 2 ⟨8, .wait 200⟩, .advanceTo 2 4, .onQueue 2 .freeze,
    .issue 2 ⟨9, .message "done"⟩, .onQueue 2 (.block false), .next 2, .onQueue 0 (.all true)]

/-- The first and the last action reach the robot. -/
theorem passing_on_loses_nothing_plannedMoves :
    let t := (empty.run chainOfThree).runTrace plannedMoves
    acceptedBy 0 t = appliedBy 1 t ∧ acceptedBy 1 t = appliedBy 2 t ∧
      (acceptedBy 0 t).map (·.id) = [3, 9] := by
  intro t
  have hbuilt : ∀ op ∈ chainOfThree, op.isAdd = true := by decide
  have hchildren : ∀ i, (empty.run chainOfThree).child? i =
      match i with
      | 1 => some 0
      | 2 => some 1
      | _ => none
    | 0 | 1 | 2 | _ + 3 => rfl
  -- each cursor passes on to the one before it
  have hbelow : ∀ i j, (empty.run chainOfThree).child? i = some j → i = j + 1 := by
    intro i j hi
    rw [hchildren] at hi
    split at hi <;> cases hi <;> rfl
  have hforest : (empty.run chainOfThree).IsForest :=
    fun i k j hi hk => (hbelow i j hi).trans (hbelow k j hk).symm
  have hroot : (empty.run chainOfThree).IsRoot 2 := by
    intro k hk
    obtain rfl := hbelow k 2 hk
    cases (hchildren 3).symm.trans hk
  have hops : ∀ op ∈ plannedMoves, op.Within (empty.run chainOfThree).IsRoot := by
    simp [plannedMoves, Operation.Within, hroot, Queue.Operation.isQuery]
  obtain ⟨-, hpilot, -⟩ := passing_on_loses_nothing hbuilt hforest hops (hchildren 1)
  obtain ⟨-, hplanner, -⟩ := passing_on_loses_nothing hbuilt hforest hops (hchildren 2)
  exact ⟨hpilot, hplanner, by decide +kernel⟩

end RobotMotion.Fleet
