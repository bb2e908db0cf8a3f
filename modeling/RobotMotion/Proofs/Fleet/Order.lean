import RobotMotion.Proofs.Fleet.Trace
import RobotMotion.Proofs.Queue.Purpose
import Mathlib.Logic.Function.Basic

/-!
# The operations do what their traces say, in order

An operation of a fleet consists of the events of its trace and of nothing else
(`issue_steps`, `next?_steps`, `advanceTo_steps`). More is true: the events come in
order. What leaves a queue to be carried out is tried next, one action after the other,
and what applied is passed on before anything else happens at the cursor that applied it
or at its child.

A `Debt` says what is still to be done in the middle of an operation, and `Settles` how
an event changes that. A trace is `Orderly` when every event settles what the ones
before left open. Issuing and passing on need an induction on the number of the cursor,
since children come before their parents.
-/

namespace RobotMotion.Fleet

variable {α : Type}

/-! ### Children -/

/-- The number of the cursor that a cursor passes actions on to. -/
def child? (f : Fleet α) (i : Nat) : Option Nat :=
  (f.cursor? i).bind fun c => (childBelow c i).map Subtype.val

/-- The child of a cursor is found from what the cursor says. -/
theorem child?_eq {f : Fleet α} {i : Nat} {c : Cursor α} (hc : f.cursor? i = some c) :
    f.child? i = (childBelow c i).map Subtype.val := by
  rw [child?, hc, Option.bind_some]

/-- A child comes before its parent. -/
theorem child?_lt {f : Fleet α} {i j : Nat} (h : f.child? i = some j) : j < i := by
  rw [child?, Option.bind_eq_some_iff] at h
  obtain ⟨c, -, hj⟩ := h
  obtain ⟨k, -, rfl⟩ := Option.map_eq_some_iff.mp hj
  exact k.2

/-- A child is there, since its parent is. -/
theorem exists_child {f : Fleet α} {i j : Nat} (h : f.child? i = some j) :
    ∃ c, f.cursor? j = some c := by
  rw [child?, Option.bind_eq_some_iff] at h
  obtain ⟨c, hc, hj⟩ := h
  obtain ⟨k, -, rfl⟩ := Option.map_eq_some_iff.mp hj
  have hlt : i < f.cursors.length := (List.getElem?_eq_some_iff.mp hc).1
  exact ⟨_, List.getElem?_eq_getElem (Nat.lt_trans k.2 hlt)⟩

/-- What becomes of a device and a queue changes no child. -/
theorem child?_put {f : Fleet α} {i : Nat} {c : Cursor α} (hc : f.cursor? i = some c)
    (device : Device α) (queue : Queue α) (k : Nat) :
    (f.put i { c with device, queue }).child? k = f.child? k := by
  by_cases hk : i = k
  · subst hk
    rw [child?_eq hc, child?_eq (cursor?_put_self hc _), childBelow, childBelow]
  · rw [child?, child?, cursor?_put_ne f hk]

/-! ### Debts -/

/-- What the events so far leave to be done, by the number of the cursor. -/
structure Debt (α : Type) where
  /-- the actions that left the queue to be carried out and are not tried yet -/
  owed : Nat → List (Action α)
  /-- the action that the parent carried out and has not passed on yet -/
  due : Nat → List (Action α)

namespace Debt

/-- Nothing is to be done. -/
def none : Debt α := ⟨fun _ => [], fun _ => []⟩

/-- The debts with the actions that a cursor has to try replaced. -/
def withOwed (d : Debt α) (i : Nat) (actions : List (Action α)) : Debt α :=
  { d with owed := Function.update d.owed i actions }

/-- The debts with the actions that are due at a cursor replaced. -/
def withDue (d : Debt α) (i : Nat) (actions : List (Action α)) : Debt α :=
  { d with due := Function.update d.due i actions }

/-- An action has to be passed on to a child, if there is one. -/
def passingOn (d : Debt α) (child : Option Nat) (action : Action α) : Debt α :=
  match child with
  | .none => d
  | .some j => d.withDue j [action]

/-- Nothing is to be done at the cursors before a number. -/
def ClearBelow (d : Debt α) (i : Nat) : Prop := ∀ k < i, d.owed k = [] ∧ d.due k = []

/-- Replacing what is owed by itself changes nothing. -/
theorem withOwed_of_eq {d : Debt α} {i : Nat} {actions : List (Action α)}
    (h : d.owed i = actions) : d.withOwed i actions = d := by
  rw [withOwed, ← h, Function.update_eq_self]

/-- Of two replacements the second counts. -/
theorem withOwed_withOwed (d : Debt α) (i : Nat) (actions more : List (Action α)) :
    (d.withOwed i actions).withOwed i more = d.withOwed i more := by
  simp [withOwed]

/-- Replacing what is due by itself changes nothing. -/
theorem withDue_of_eq {d : Debt α} {i : Nat} {actions : List (Action α)}
    (h : d.due i = actions) : d.withDue i actions = d := by
  rw [withDue, ← h, Function.update_eq_self]

/-- Of two replacements the second counts. -/
theorem withDue_withDue (d : Debt α) (i : Nat) (actions more : List (Action α)) :
    (d.withDue i actions).withDue i more = d.withDue i more := by
  simp [withDue]

@[simp] theorem owed_withOwed_self (d : Debt α) (i : Nat) (actions : List (Action α)) :
    (d.withOwed i actions).owed i = actions := Function.update_self ..

/-- What other cursors owe stays. -/
theorem owed_withOwed_ne (d : Debt α) {i k : Nat} (hne : k ≠ i) (actions : List (Action α)) :
    (d.withOwed i actions).owed k = d.owed k := Function.update_of_ne hne ..

@[simp] theorem due_withDue_self (d : Debt α) (i : Nat) (actions : List (Action α)) :
    (d.withDue i actions).due i = actions := Function.update_self ..

/-- What is due at other cursors stays. -/
theorem due_withDue_ne (d : Debt α) {i k : Nat} (hne : k ≠ i) (actions : List (Action α)) :
    (d.withDue i actions).due k = d.due k := Function.update_of_ne hne ..

/-- Nothing is to be done, so nothing need be taken back. -/
theorem withOwed_none (i : Nat) : (none : Debt α).withOwed i [] = none := withOwed_of_eq rfl

theorem withDue_none (i : Nat) : (none : Debt α).withDue i [] = none := withDue_of_eq rfl

/-- Where nothing is to be done, nothing is below any number. -/
theorem clearBelow_none (i : Nat) : (none : Debt α).ClearBelow i := fun _ _ => ⟨rfl, rfl⟩

/-- What a cursor owes itself is not below it. -/
theorem ClearBelow.withOwed {d : Debt α} {i : Nat} (h : d.ClearBelow i)
    (actions : List (Action α)) : (d.withOwed i actions).ClearBelow i := by
  intro k hk
  refine ⟨?_, (h k hk).2⟩
  rw [owed_withOwed_ne d (Nat.ne_of_lt hk)]
  exact (h k hk).1

/-- What is due at a child is not below the child. -/
theorem ClearBelow.withDue {d : Debt α} {i j : Nat} (h : d.ClearBelow i) (hj : j < i)
    (actions : List (Action α)) : (d.withDue j actions).ClearBelow j := by
  intro k hk
  have hclear := h k (Nat.lt_trans hk hj)
  refine ⟨hclear.1, ?_⟩
  rw [due_withDue_ne d (Nat.ne_of_lt hk)]
  exact hclear.2

end Debt

/-! ### Orderly traces -/

variable [Scalar α]

/-- How an event changes what is to be done. Actions come to a cursor from outside only
where that is allowed directly. -/
inductive Settles (direct : Nat → Prop) (f : Fleet α) : Debt α → Event α → Debt α → Prop where
  | started (d : Debt α) (i : Nat) (device : Device α) :
      Settles direct f d (.started i device) d
  | asked (d : Debt α) (i : Nat) {op : Queue.Operation α} (hop : op.isQuery = true) :
      Settles direct f d (.queued i op) d
  | offered {d : Debt α} {i : Nat} {action : Action α} (h : direct i ∨ d.due i = [action]) :
      Settles direct f d (.queued i (.add action)) (d.withDue i [])
  | taken {d : Debt α} {i : Nat} {c : Cursor α} {op : Queue.Operation α}
      (hc : f.cursor? i = some c) (hop : op.isTurn = true) (h : d.owed i = []) :
      Settles direct f d (.queued i op) (d.withOwed i (c.queue.operate op).1)
  | rejected {d : Debt α} {i : Nat} {v : Visit α} {rest : List (Action α)}
      (h : d.owed i = v.action :: rest) (hv : v.applied = false) :
      Settles direct f d (.tried i v) (d.withOwed i rest)
  | applied {d : Debt α} {i : Nat} {v : Visit α} {rest : List (Action α)}
      (h : d.owed i = v.action :: rest) (hv : v.applied = true)
      (hdue : ∀ j, f.child? i = some j → d.due j = []) :
      Settles direct f d (.tried i v) ((d.withOwed i rest).passingOn (f.child? i) v.action)

/-- A list of events of which each settles what the ones before left to be done. -/
inductive Orderly (direct : Nat → Prop) :
    Fleet α → Debt α → List (Event α) → Fleet α → Debt α → Prop where
  | refl (f : Fleet α) (d : Debt α) : Orderly direct f d [] f d
  | head {f g h : Fleet α} {a b c : Debt α} {e : Event α} {t : List (Event α)}
      (first : Step f e g) (settles : Settles direct f a e b) (rest : Orderly direct g b t h c) :
      Orderly direct f a (e :: t) h c

variable {direct : Nat → Prop} {f g h : Fleet α} {a b c : Debt α} {e : Event α}
  {t u : List (Event α)}

/-- An orderly trace is a trace of steps. -/
theorem Orderly.steps (ho : Orderly direct f a t g b) : Steps f t g := by
  induction ho with
  | refl f d => exact .refl f
  | head first _ _ ih => exact .head first ih

/-- One event that settles what is due is orderly. -/
theorem Orderly.single (hs : Step f e g) (he : Settles direct f a e b) :
    Orderly direct f a [e] g b :=
  .head hs he (.refl g b)

/-- **Traces follow one another** where the first leaves what the second starts from. -/
theorem Orderly.append (hf : Orderly direct f a t g b) (hg : Orderly direct g b u h c) :
    Orderly direct f a (t ++ u) h c := by
  induction hf with
  | refl f d => exact hg
  | head first settles _ ih => exact .head first settles (ih hg)

/-- The other way round, a trace may be cut anywhere. -/
theorem Orderly.split (ho : Orderly direct f a (t ++ u) h c) :
    ∃ g b, Orderly direct f a t g b ∧ Orderly direct g b u h c := by
  -- over the first piece, from whatever fleet and debts
  induction t generalizing f a with
  | nil => exact ⟨f, a, .refl f a, ho⟩
  | cons e t ih =>
    cases ho with
    | head first settles rest =>
      obtain ⟨g, b, ht, hu⟩ := ih rest
      exact ⟨g, b, .head first settles ht, hu⟩

omit [Scalar α] in
/-- No event that settles something adds a cursor. -/
theorem Settles.about_isSome (he : Settles direct f a e b) : e.about.isSome = true := by
  cases he <;> rfl

/-- An event that settles something leaves all children what they are. -/
theorem Settles.child?_eq (he : Settles direct f a e b) (hs : Step f e g) (k : Nat) :
    g.child? k = f.child? k := by
  cases hs with
  | added name immediate child tools => cases he
  | started hc hs => exact child?_put hc _ _ k
  | queued hc op => exact child?_put hc _ _ k
  | tried hc action => exact child?_put hc _ _ k

/-! ### Carrying out -/

/-- A cursor whose queue was operated on. -/
theorem queued_steps {i : Nat} {c : Cursor α} (hc : f.cursor? i = some c)
    {op : Queue.Operation α} {queue : Queue α} (hq : c.queue.after op = queue) :
    Step f (.queued i op) (f.put i { c with queue }) := by
  subst hq
  exact .queued hc op

/-- Carrying out an action on a cursor that is in its place. The way of passing on is
arbitrary as long as it settles what is due then. -/
theorem carryOutWith_orderly {pass : Fleet α → Action α → Fleet α}
    {passTrace : Fleet α → Action α → List (Event α)} {i : Nat} {c : Cursor α} {d : Debt α}
    {action : Action α} {rest : List (Action α)} (hc : f.cursor? i = some c)
    (howed : d.owed i = action :: rest) (hdue : ∀ j, f.child? i = some j → d.due j = [])
    (hpass : ∀ g : Fleet α, g.child? i = f.child? i →
      Orderly direct g ((d.withOwed i rest).passingOn (f.child? i) action)
        (passTrace g action) (pass g action) (d.withOwed i rest)) :
    Orderly direct f d (triedTrace passTrace f i c action)
      (carryOutWith pass f i c action).2 (d.withOwed i rest) := by
  have haction : (c.device.visit action).action = action := by
    rw [Device.visit]
    split <;> rfl
  have htried : Step f (.tried i (c.device.visit action))
      ((f.put i { c with device := (c.device.visit action).device }).note
        (c.device.visit action).rejection) := .tried hc action
  rw [← haction] at howed
  simp only [triedTrace, carryOutWith]
  -- only what applied is passed on
  cases happlied : (c.device.visit action).applied with
  | false => exact .single htried (.rejected howed happlied)
  | true =>
    have hsettles : Settles direct f d (.tried i (c.device.visit action))
        ((d.withOwed i rest).passingOn (f.child? i) action) := by
      have happ : Settles direct f d (.tried i (c.device.visit action))
          ((d.withOwed i rest).passingOn (f.child? i) (c.device.visit action).action) :=
        .applied howed happlied hdue
      rwa [haction] at happ
    exact .head htried hsettles (hpass _ (child?_put hc _ _ i))

/-- Releasing an action puts the shorter queue in place first; carrying the action
out then replaces the cursor a second time. -/
theorem released_orderly {pass : Fleet α → Action α → Fleet α}
    {passTrace : Fleet α → Action α → List (Event α)} {i : Nat} {c : Cursor α} {d : Debt α}
    {action : Action α} {queue : Queue α} (hc : f.cursor? i = some c)
    (hn : c.queue.next? = some (action, queue)) (howed : d.owed i = [])
    (hdue : ∀ j, f.child? i = some j → d.due j = [])
    (hpass : ∀ g : Fleet α, g.child? i = f.child? i →
      Orderly direct g (d.passingOn (f.child? i) action) (passTrace g action)
        (pass g action) d) :
    Orderly direct f d (.queued i .next :: triedTrace passTrace f i { c with queue } action)
      (carryOutWith pass f i { c with queue } action).2 d := by
  -- the action is owed from when it left the queue to when it was tried
  have hback : (d.withOwed i [action]).withOwed i [] = d := by
    rw [Debt.withOwed_withOwed, Debt.withOwed_of_eq howed]
  have htaken : Settles direct f d (.queued i .next) (d.withOwed i [action]) := by
    have hreleased : (c.queue.operate .next).1 = [action] := by simp [Queue.operate, hn]
    rw [← hreleased]
    exact .taken hc rfl howed
  have hchild : (f.put i { c with queue }).child? i = f.child? i := child?_put hc _ _ i
  have htried : Orderly direct (f.put i { c with queue }) (d.withOwed i [action])
      (triedTrace passTrace (f.put i { c with queue }) i { c with queue } action)
      (carryOutWith pass (f.put i { c with queue }) i { c with queue } action).2
      ((d.withOwed i [action]).withOwed i []) := by
    refine carryOutWith_orderly (cursor?_put_self hc _) (Debt.owed_withOwed_self ..) ?_ ?_
    · exact fun j hj => hdue j (hchild ▸ hj)
    · intro g hg
      rw [hback, hchild]
      exact hpass g (hg.trans hchild)
  rw [hback] at htried
  simp only [triedTrace, carryOutWith, put_put] at htried ⊢
  exact .head (queued_steps hc (Queue.after_next hn)) htaken htried

/-! ### Issuing and passing on -/

/-- Passing an action on settles that it is due at the child, if issuing it there does. -/
theorem pass_orderly_of {c : Cursor α} {i : Nat} {d : Debt α} {action : Action α}
    (hg : g.child? i = (childBelow c i).map Subtype.val) (hclear : d.ClearBelow i)
    (hissue : ∀ j < i, ∀ {child : Cursor α} {d : Debt α}, g.cursor? j = some child →
      d.ClearBelow j → d.owed j = [] → d.due j = [action] →
      Orderly direct g d (g.issueTrace j action) (g.issue j action).2 (d.withDue j [])) :
    Orderly direct g (d.passingOn ((childBelow c i).map Subtype.val) action)
      (passTrace c i g action) (pass c i g action) d := by
  rw [passTrace, pass]
  cases hb : childBelow c i with
  | none => exact .refl g d
  | some j =>
    rw [hb] at hg
    obtain ⟨child, hchild⟩ := exists_child hg
    have hsettled := hissue j.1 j.2 hchild (hclear.withDue j.2 [action])
      (hclear j.1 j.2).1 (Debt.due_withDue_self ..)
    rw [Debt.withDue_withDue, Debt.withDue_of_eq (hclear j.1 j.2).2] at hsettled
    exact hsettled

/-- Issuing an action to a cursor settles that it is due there. -/
theorem issue_orderly_of_cursor {i : Nat} {c : Cursor α} {d : Debt α} {action : Action α}
    (hc : f.cursor? i = some c) (hclear : d.ClearBelow i) (howed : d.owed i = [])
    (hdue : direct i ∨ d.due i = [action]) :
    Orderly direct f d (f.issueTrace i action) (f.issue i action).2 (d.withDue i []) := by
  -- children have smaller numbers, and issuing to one is what passing on comes down to
  induction i using Nat.strongRecOn generalizing f c d action with
  | ind i ih =>
    rw [issueTrace, issue, hc]
    simp only
    cases ha : c.queue.add? action with
    | none =>
      have hstep := queued_steps hc (Queue.after_add_of_refused ha)
      rw [put_cursor? hc] at hstep
      exact .single hstep (.offered hdue)
    | some queue =>
      have hstep := queued_steps hc (Queue.after_add ha)
      by_cases him : c.immediate = true
      -- an immediate cursor releases the oldest that waits, whichever was issued
      · simp only [if_pos him]
        cases hn : queue.next? with
        | none => exact .single hstep (.offered hdue)
        | some released =>
          obtain ⟨oldest, rest⟩ := released
          have hput := cursor?_put_self hc { c with queue }
          have hkept : (d.withDue i []).ClearBelow i := fun k hk => by
            rw [Debt.due_withDue_ne d (Nat.ne_of_lt hk)]
            exact hclear k hk
          -- the child has a smaller number, so passing on is an issue that `ih` speaks of
          have hpass (g : Fleet α)
              (hg : g.child? i = (f.put i { c with queue }).child? i) :
              Orderly direct g
                ((d.withDue i []).passingOn ((f.put i { c with queue }).child? i) oldest)
                (passTrace c i g oldest) (pass c i g oldest) (d.withDue i []) := by
            rw [child?_eq hput] at hg ⊢
            exact pass_orderly_of hg hkept fun j hj _ _ hj' hcl how hdu =>
              ih j hj hj' hcl how (.inr hdu)
          have hreleased := released_orderly hput hn (show (d.withDue i []).owed i = [] from howed)
            (fun j hj => (hkept j (child?_lt hj)).2) hpass
          simp only [triedTrace, carryOutWith, put_put] at hreleased ⊢
          exact .head hstep (.offered hdue) hreleased
      · simp only [if_neg him]
        exact .single hstep (.offered hdue)

/-- Issuing an action where that is allowed directly leaves nothing to be done. -/
theorem issue_orderly {i : Nat} (hi : direct i) (f : Fleet α) (action : Action α) :
    Orderly direct f .none (f.issueTrace i action) (f.issue i action).2 .none := by
  cases hc : f.cursor? i with
  | none =>
    rw [issueTrace, issue, hc]
    exact .refl f .none
  | some c =>
    have hissue : Orderly direct f .none (f.issueTrace i action) (f.issue i action).2
        (Debt.none.withDue i []) :=
      issue_orderly_of_cursor hc (Debt.clearBelow_none i) rfl (.inl hi)
    rwa [Debt.withDue_none] at hissue

/-- Passing an action on settles that it is due at the child. -/
theorem pass_orderly {c : Cursor α} {i : Nat} {d : Debt α} (hc : f.cursor? i = some c)
    (hg : g.child? i = f.child? i) (hclear : d.ClearBelow i) (action : Action α) :
    Orderly direct g (d.passingOn (f.child? i) action) (passTrace c i g action)
      (pass c i g action) d := by
  rw [child?_eq hc] at hg ⊢
  exact pass_orderly_of hg hclear fun j _ _ _ hj hcl how hdu =>
    issue_orderly_of_cursor hj hcl how (.inr hdu)

/-! ### Releasing -/

/-- Releasing one action tries and passes on just this one. -/
theorem next?_orderly {i : Nat} {outcome : Action α × Bool}
    (h : f.next? i = some (outcome, g)) :
    Orderly direct f .none (f.nextTrace i) g .none := by
  rw [next?] at h
  rw [nextTrace]
  cases hc : f.cursor? i with
  | none => rw [hc] at h; cases h
  | some c =>
    rw [hc] at h
    simp only at h ⊢
    cases hn : c.queue.next? with
    | none => rw [hn] at h; cases h
    | some released =>
      rw [hn] at h
      obtain ⟨-, rfl⟩ := Prod.mk.inj (Option.some.inj h)
      exact released_orderly hc hn rfl (fun _ _ => rfl) fun g hg =>
        pass_orderly hc hg (Debt.clearBelow_none i) _

/-- Carrying out all that a cursor owes leaves it nothing to try. -/
theorem carryOutAll_orderly {i : Nat} {c : Cursor α} {d : Debt α} {actions : List (Action α)}
    (hc : f.cursor? i = some c) (hclear : d.ClearBelow i) (howed : d.owed i = actions) :
    Orderly direct f d (f.carryOutAllTrace i actions) (f.carryOutAll i actions).2
      (d.withOwed i []) := by
  -- each action leaves one less to try, and the cursor in its place
  induction actions generalizing f c d with
  | nil =>
    rw [Debt.withOwed_of_eq howed]
    exact .refl f d
  | cons action rest ih =>
    have hone : Orderly direct f d (triedTrace (passTrace c i) f i c action)
        (f.carryOut i c action).2 (d.withOwed i rest) :=
      carryOutWith_orderly hc howed (fun j hj => (hclear j (child?_lt hj)).2) fun g hg =>
        pass_orderly hc hg (hclear.withOwed rest) action
    have hrest := ih (hone.steps.cursor? hc) (hclear.withOwed rest) (Debt.owed_withOwed_self ..)
    rw [Debt.withOwed_withOwed] at hrest
    rw [carryOutAllTrace, carryOutAll, hc]
    exact hone.append hrest

/-- Catching up tries all that is due, one action after the other. -/
theorem advanceTo_orderly (f : Fleet α) (i : Nat) (id : Nat) :
    Orderly direct f .none (f.advanceTrace i id) (f.advanceTo i id).2 .none := by
  rw [advanceTrace, advanceTo]
  cases hc : f.cursor? i with
  | none => exact .refl f .none
  | some c =>
    set leaving := (c.queue.releaseUpTo id).1
    set g := f.put i { c with queue := (c.queue.releaseUpTo id).2 }
    have hall : Orderly direct g (Debt.none.withOwed i leaving) (g.carryOutAllTrace i leaving)
        (g.carryOutAll i leaving).2 ((Debt.none.withOwed i leaving).withOwed i []) :=
      carryOutAll_orderly (cursor?_put_self hc _) ((Debt.clearBelow_none i).withOwed leaving)
        (Debt.owed_withOwed_self ..)
    rw [Debt.withOwed_withOwed, Debt.withOwed_none] at hall
    exact .head (.queued hc (.upTo id)) (.taken hc rfl rfl) hall

/-! ### The operations do what their traces say -/

/-- Issuing does what its trace says. -/
theorem issue_steps (f : Fleet α) (i : Nat) (action : Action α) :
    Steps f (f.issueTrace i action) (f.issue i action).2 := by
  have horderly : Orderly (fun _ => True) f .none (f.issueTrace i action) _ .none :=
    issue_orderly trivial f action
  exact horderly.steps

/-- So does carrying out an action. -/
theorem carryOut_steps {i : Nat} {c : Cursor α} (hc : f.cursor? i = some c) (action : Action α) :
    Steps f (triedTrace (passTrace c i) f i c action) (f.carryOut i c action).2 := by
  have hclear := ((Debt.clearBelow_none i).withOwed [action]).withOwed []
  have horderly : Orderly (fun _ => True) f (Debt.none.withOwed i [action])
      (triedTrace (passTrace c i) f i c action) (f.carryOut i c action).2 _ :=
    carryOutWith_orderly hc (Debt.owed_withOwed_self ..) (fun _ _ => rfl) fun g hg =>
      pass_orderly hc hg hclear action
  exact horderly.steps

/-- So does releasing one. -/
theorem next?_steps {i : Nat} {outcome : Action α × Bool}
    (h : f.next? i = some (outcome, g)) : Steps f (f.nextTrace i) g := by
  have horderly : Orderly (fun _ => True) f .none (f.nextTrace i) g .none := next?_orderly h
  exact horderly.steps

/-- So does catching up. -/
theorem advanceTo_steps (f : Fleet α) (i : Nat) (id : Nat) :
    Steps f (f.advanceTrace i id) (f.advanceTo i id).2 := by
  have horderly : Orderly (fun _ => True) f .none (f.advanceTrace i id) _ .none :=
    advanceTo_orderly f i id
  exact horderly.steps

end RobotMotion.Fleet
