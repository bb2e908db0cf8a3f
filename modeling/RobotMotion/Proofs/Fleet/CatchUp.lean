import RobotMotion.Proofs.Fleet.Release

/-!
# Catching up at once and one by one

A cursor catches up to an identifier in two ways: `Fleet.advanceTo` releases all the
actions at once and then carries them out, and `Fleet.catchUp` releases the oldest action
and carries it out again and again, as long as its identifier is not above the given one.

Both leave the same fleet. Carrying out an action reads and writes the queue of no cursor
but those it is passed on to, and these come before the cursor itself. So it does not
matter whether the queue was emptied before (`carryOut_withQueue`), and to catch up at once
is to release the oldest action and to catch up from there (`advanceTo_of_due`).
-/

namespace RobotMotion

variable {α : Type}

/-! ### Releases up to an identifier -/

namespace Queue

variable {q r : Queue α} {a : Action α} {rest : List (Action α)} {id : Nat}

/-- What is released is what stands before the first action above the identifier. -/
theorem releaseUpTo_fst (q : Queue α) (id : Nat) :
    (q.releaseUpTo id).1 = q.pending.takeWhile (·.id ≤ id) :=
  (List.prefix_iff_eq_take.mp (List.takeWhile_prefix _)).symm

/-- What still waits begins with the first action above the identifier. -/
theorem pending_releaseUpTo (q : Queue α) (id : Nat) :
    (q.releaseUpTo id).2.pending = q.pending.dropWhile (·.id ≤ id) := by
  have happend : (q.releaseUpTo id).1 ++ (q.releaseUpTo id).2.pending = q.pending :=
    q.release_append _
  rw [releaseUpTo_fst] at happend
  exact List.append_cancel_left (happend.trans List.takeWhile_append_dropWhile.symm)

/-- The oldest action is released first, and then the others up to the identifier. -/
theorem releaseUpTo_of_le (hn : q.next? = some (a, r)) (hle : a.id ≤ id) :
    q.releaseUpTo id = (a :: (r.releaseUpTo id).1, (r.releaseUpTo id).2) := by
  obtain ⟨pending, blocked, added, last, count⟩ := q
  cases pending with
  | nil => cases hn
  | cons oldest rest =>
    obtain ⟨rfl, rfl⟩ := Prod.mk.inj (Option.some.inj hn)
    have htake : (oldest :: rest).takeWhile (·.id ≤ id) = oldest :: rest.takeWhile (·.id ≤ id) := by
      simp [hle]
    simp only [releaseUpTo, release, htake, List.length_cons, List.take_succ_cons,
      List.drop_succ_cons, List.getLast?_cons, Prod.mk.injEq, mk.injEq, true_and]
    refine ⟨by omega, ?_, by omega⟩
    cases (rest.take (rest.takeWhile (·.id ≤ id)).length).getLast? <;> rfl

/-- Where the oldest action is above the identifier, nothing is released. -/
theorem releaseUpTo_of_lt (h : ∀ a, q.pending.head? = some a → id < a.id) :
    q.releaseUpTo id = ([], q) := by
  have htake : q.pending.takeWhile (·.id ≤ id) = [] := by
    cases hp : q.pending with
    | nil => rfl
    | cons a rest =>
      have hlt := h a (by rw [hp]; rfl)
      simp [hlt]
  rw [releaseUpTo, htake]
  rfl

/-- In the order of the identifiers, those up to one of them come before the others. -/
theorem splits_at {actions : List (Action α)} (h : actions.Pairwise (·.id < ·.id)) (id : Nat) :
    actions.takeWhile (·.id ≤ id) = actions.filter (·.id ≤ id) ∧
      actions.dropWhile (·.id ≤ id) = actions.filter (id < ·.id) := by
  induction actions with
  | nil => exact ⟨rfl, rfl⟩
  | cons a rest ih =>
    obtain ⟨hfirst, hrest⟩ := List.pairwise_cons.mp h
    obtain ⟨htake, hdrop⟩ := ih hrest
    by_cases hle : a.id ≤ id
    · have hnot : ¬ id < a.id := Nat.not_lt.mpr hle
      simp [hle, hnot, htake, hdrop]
    · -- the identifiers that follow are greater still
      have habove : ∀ b ∈ rest, id < b.id := fun b hb =>
        Nat.lt_trans (Nat.not_le.mp hle) (hfirst b hb)
      have hnone : rest.filter (·.id ≤ id) = [] := by
        refine List.filter_eq_nil_iff.mpr fun b hb => ?_
        rw [decide_eq_true_eq]
        exact Nat.not_le.mpr (habove b hb)
      have hall : rest.filter (id < ·.id) = rest :=
        List.filter_eq_self.mpr fun b hb => decide_eq_true (habove b hb)
      simp [Nat.not_le.mp hle, hnone, hall]

end Queue

namespace Fleet

variable {f g : Fleet α} {i j id : Nat}

/-! ### What stands at a later number does not matter -/

/-- Cursors are put in their places in any order. -/
theorem put_comm (f : Fleet α) (hne : i ≠ j) (c d : Cursor α) :
    (f.put i c).put j d = (f.put j d).put i c := by
  simp only [put, List.set_comm c d hne]

variable [Scalar α]

theorem carryOutWith_put {pass : Fleet α → Action α → Fleet α} {d : Cursor α}
    (hpass : ∀ f a, pass (f.put i d) a = (pass f a).put i d) (hne : i ≠ j) (f : Fleet α)
    (c : Cursor α) (a : Action α) :
    carryOutWith pass (f.put i d) j c a =
      ((carryOutWith pass f j c a).1, (carryOutWith pass f j c a).2.put i d) := by
  have hput (c : Cursor α) (rejection : Option Rejection) :
      ((f.put i d).put j c).note rejection = ((f.put j c).note rejection).put i d := by
    rw [put_comm f hne]
    rfl
  simp only [carryOutWith, hput]
  cases (c.device.visit a).applied with
  | false => rfl
  | true => exact congrArg (Prod.mk true) (hpass _ a)

/-- **Issuing an action to a cursor takes no notice of the cursors after it.** -/
theorem issue_put (f : Fleet α) (hlt : j < i) (d : Cursor α) (a : Action α) :
    (f.put i d).issue j a = ((f.issue j a).1, (f.issue j a).2.put i d) := by
  induction j using Nat.strongRecOn generalizing f a with
  | ind j ih =>
    have hne : i ≠ j := Nat.ne_of_gt hlt
    rw [issue, issue, cursor?_put_ne f hne]
    cases f.cursor? j with
    | none => rfl
    | some c =>
      simp only
      cases c.queue.add? a with
      | none => rfl
      | some queue =>
        by_cases him : c.immediate = true
        · simp only [if_pos him]
          cases queue.next? with
          | none => exact congrArg (Prod.mk false) (put_comm f hne _ _)
          | some released =>
            -- what is passed on goes to a cursor before `j`
            refine carryOutWith_put (fun g b => ?_) hne f _ _
            cases childBelow c j with
            | none => rfl
            | some k => exact congrArg Prod.snd (ih k.1 k.2 g (Nat.lt_trans k.2 hlt) b)
        · simp only [if_neg him]
          exact congrArg (Prod.mk true) (put_comm f hne _ _)

/-- Passing an action on takes no notice of the cursors after the child. -/
theorem pass_put (c : Cursor α) (f : Fleet α) (d : Cursor α) (a : Action α) :
    pass c i (f.put i d) a = (pass c i f a).put i d := by
  rw [pass, pass]
  cases childBelow c i with
  | none => rfl
  | some k => exact congrArg Prod.snd (issue_put f k.2 d a)

/-- A cursor that carries out an action is put in its place first, whatever stood there. -/
theorem carryOut_put (f : Fleet α) (c d : Cursor α) (a : Action α) :
    (f.put i d).carryOut i c a = f.carryOut i c a := by
  simp only [carryOut, carryOutWith, put_put]

/-- **The queue of a cursor does not matter when it carries out an action.** -/
theorem carryOut_withQueue (f : Fleet α) (c : Cursor α) (queue : Queue α) (a : Action α) :
    f.carryOut i { c with queue } a =
      ((f.carryOut i c a).1,
        (f.carryOut i c a).2.put i { c with device := (c.device.visit a).device, queue }) := by
  have hpass : pass { c with queue } i = pass c i := rfl
  have hput (rejection : Option Rejection) :
      (f.put i { c with device := (c.device.visit a).device, queue }).note rejection =
        ((f.put i { c with device := (c.device.visit a).device }).note rejection).put i
          { c with device := (c.device.visit a).device, queue } :=
    congrArg (Fleet.note · rejection) (put_put f i _ _).symm
  simp only [carryOut, carryOutWith, hpass, hput]
  cases (c.device.visit a).applied with
  | false => rfl
  | true => exact congrArg (Prod.mk true) (pass_put c _ _ a)

/-! ### One action after the other -/

/-- The oldest action that waits at a cursor. -/
def oldest? (f : Fleet α) (i : Nat) : Option (Action α) :=
  (f.cursor? i).bind fun c => c.queue.pending.head?

omit [Scalar α] in
theorem oldest?_eq {c : Cursor α} (hc : f.cursor? i = some c) :
    f.oldest? i = c.queue.pending.head? := by
  rw [oldest?, hc]
  rfl

/-- How many actions wait at a cursor. -/
def waits (f : Fleet α) (i : Nat) : Nat :=
  (f.cursor? i).elim 0 fun c => c.queue.pending.length

/-- A released action waits no longer. -/
theorem waits_next? {outcome : Action α × Bool} (h : f.next? i = some (outcome, g)) :
    g.waits i < f.waits i := by
  cases hc : f.cursor? i with
  | none =>
    rw [next?, hc] at h
    cases h
  | some c =>
    cases hn : c.queue.next? with
    | none =>
      rw [next?, hc] at h
      simp only [hn] at h
      cases h
    | some released =>
      obtain ⟨a, queue⟩ := released
      rw [next?_eq hc hn] at h
      obtain ⟨-, rfl⟩ := Prod.mk.inj (Option.some.inj h)
      rw [waits, waits, carryOut_cursor?_self hc, hc]
      simp [Queue.pending_of_next? hn]

/-- Release the oldest action of a cursor and carry it out, again and again, as long as its
identifier is not above the given one. The answers are kept. -/
def catchUp (f : Fleet α) (i id : Nat) : List (Action α × Bool) × Fleet α :=
  if (f.oldest? i).any (·.id ≤ id) then
    match _h : f.next? i with
    | none => ([], f)
    | some (outcome, g) =>
      let (outcomes, g) := catchUp g i id
      (outcome :: outcomes, g)
  else ([], f)
termination_by f.waits i
decreasing_by exact waits_next? _h

/-- While the oldest action is due, catching up releases it and goes on. -/
theorem catchUp_of_le {a : Action α} {outcome : Action α × Bool} (ha : f.oldest? i = some a)
    (hle : a.id ≤ id) (hn : f.next? i = some (outcome, g)) :
    f.catchUp i id = (outcome :: (g.catchUp i id).1, (g.catchUp i id).2) := by
  have hdue : (f.oldest? i).any (·.id ≤ id) = true := by simp [ha, hle]
  rw [catchUp, if_pos hdue]
  split
  · rename_i h
    rw [hn] at h
    cases h
  · rename_i outcome' g' h
    obtain ⟨rfl, rfl⟩ := Prod.mk.inj (Option.some.inj (hn.symm.trans h))
    rfl

/-- Where the oldest action is not due, catching up does nothing. -/
theorem catchUp_of_lt (h : ∀ a, f.oldest? i = some a → id < a.id) :
    f.catchUp i id = ([], f) := by
  have hnot : ¬ (f.oldest? i).any (·.id ≤ id) = true := by
    rw [Option.any_eq_true]
    rintro ⟨a, ha, hle⟩
    exact Nat.not_le.mpr (h a ha) (of_decide_eq_true hle)
  rw [catchUp, if_neg hnot]

/-! ### At once is one by one -/

variable {c : Cursor α}

theorem advanceTo_of_lt (hc : f.cursor? i = some c)
    (h : ∀ a, c.queue.pending.head? = some a → id < a.id) : f.advanceTo i id = (true, f) := by
  rw [advanceTo, hc]
  simp only [Queue.releaseUpTo_of_lt h]
  rw [put_cursor? hc, carryOutAll]

/-- **To catch up at once is to release the oldest action and to catch up from there.** -/
theorem advanceTo_of_due (hc : f.cursor? i = some c) {a : Action α} {queue : Queue α}
    (hn : c.queue.next? = some (a, queue)) (hle : a.id ≤ id)
    (hnext : f.next? i = some ((a, (c.device.visit a).applied), g)) :
    f.advanceTo i id =
      ((c.device.visit a).applied && (g.advanceTo i id).1, (g.advanceTo i id).2) := by
  rw [next?_eq hc hn] at hnext
  obtain ⟨-, rfl⟩ := Prod.mk.inj (Option.some.inj hnext)
  have hafter := carryOut_cursor?_self hc { c with queue } a
  have hfirst := carryOut_fst f i { c with queue } a
  -- the queue is emptied before the action is carried out, and not step by step
  have hwith := carryOut_withQueue f (i := i) { c with queue } (queue.releaseUpTo id).2 a
  rw [advanceTo, hc, advanceTo, hafter]
  simp only [Queue.releaseUpTo_of_le hn hle, carryOutAll, cursor?_put_self hc, carryOut_put,
    hwith, hfirst]

/-- Both ways to catch up leave the same fleet, and agree on whether everything applied. -/
theorem advanceTo_eq_catchUp (hc : f.cursor? i = some c) (id : Nat) :
    f.advanceTo i id = ((f.catchUp i id).1.all (·.2), (f.catchUp i id).2) ∧
      (f.catchUp i id).1.map (·.1) = c.queue.pending.takeWhile (·.id ≤ id) := by
  -- by induction on what waits, of which every release takes one
  generalize hp : c.queue.pending = actions
  induction actions generalizing f c with
  | nil =>
    have hnone (a : Action α) (ha : c.queue.pending.head? = some a) : id < a.id := by
      rw [hp] at ha
      cases ha
    have hsame := catchUp_of_lt fun a ha => hnone a (oldest?_eq hc ▸ ha)
    rw [advanceTo_of_lt hc hnone, hsame]
    exact ⟨rfl, rfl⟩
  | cons a rest ih =>
    have holdest : f.oldest? i = some a := by
      rw [oldest?_eq hc, hp]
      rfl
    by_cases hle : a.id ≤ id
    · obtain ⟨queue, hn, hrest⟩ := Queue.exists_next? hp
      have hnext := next?_eq hc hn
      obtain ⟨hsame, hreleased⟩ := ih (carryOut_cursor?_self hc { c with queue } a) hrest
      rw [advanceTo_of_due hc hn hle hnext, catchUp_of_le holdest hle hnext, hsame]
      refine ⟨rfl, ?_⟩
      rw [List.map_cons, hreleased]
      simp [hle]
    · have hlt (b : Action α) (hb : c.queue.pending.head? = some b) : id < b.id := by
        rw [hp] at hb
        obtain rfl := Option.some.inj hb
        exact Nat.not_le.mp hle
      have hsame := catchUp_of_lt fun b hb => hlt b (oldest?_eq hc ▸ hb)
      rw [advanceTo_of_lt hc hlt, hsame]
      refine ⟨rfl, ?_⟩
      simp [Nat.not_le.mp hle]

/-- Carrying out actions that were released before does not touch the queue. -/
theorem queue_carryOutAll (hc : f.cursor? i = some c) (leaving : List (Action α)) :
    ∃ d, (f.carryOutAll i leaving).2.cursor? i = some d ∧ d.queue = c.queue := by
  induction leaving generalizing f c with
  | nil => exact ⟨c, hc, rfl⟩
  | cons a rest ih =>
    simp only [carryOutAll, hc]
    obtain ⟨d, hd, hqueue⟩ := ih (carryOut_cursor?_self hc c a)
    exact ⟨d, hd, hqueue⟩

/-- A cursor that caught up has the queue that the release left. -/
theorem queue_advanceTo (hc : f.cursor? i = some c) (id : Nat) :
    ∃ d, (f.advanceTo i id).2.cursor? i = some d ∧ d.queue = (c.queue.releaseUpTo id).2 := by
  rw [advanceTo, hc]
  exact queue_carryOutAll (cursor?_put_self hc _) _

/-- **To catch up at once is to catch up one by one.** At a reachable cursor, whatever it
feeds and whatever waits there, releasing and carrying out the actions up to an identifier
at once

* leaves the same fleet as releasing the oldest action again and again while it is due: the
  same cursor with its device and queue, the same cursors below it, the same journal;
* carries out all the actions up to the identifier, also behind rejected ones, and answers
  whether each of them applied, so the answer is yes where there are none;
* releases those actions, wherever they stand in the queue, and leaves all others waiting. -/
theorem Reachable.catches_up (hf : f.Reachable) (hc : f.cursor? i = some c) (id : Nat) :
    let outcomes := (f.catchUp i id).1
    let due := c.queue.pending.filter (·.id ≤ id)
    f.advanceTo i id = (outcomes.all (·.2), (f.catchUp i id).2) ∧
    outcomes.map (·.1) = due ∧
    (due = [] → f.advanceTo i id = (true, f)) ∧
    ∃ d, (f.advanceTo i id).2.cursor? i = some d ∧
      (c.queue.releaseUpTo id).1 = due ∧ d.queue = (c.queue.releaseUpTo id).2 ∧
      d.queue.pending = c.queue.pending.filter (id < ·.id) := by
  intro outcomes due
  -- what waits is in the order of the identifiers, so what is due stands in front
  obtain ⟨htake, hdrop⟩ := Queue.splits_at (hf.increasing hc) id
  obtain ⟨hsame, hreleased⟩ := advanceTo_eq_catchUp hc id
  obtain ⟨d, hd, hqueue⟩ := queue_advanceTo hc id
  refine ⟨hsame, hreleased.trans htake, ?_, d, hd, ?_, hqueue, ?_⟩
  · intro hnone
    refine advanceTo_of_lt hc fun a ha => ?_
    by_contra hle
    have hdue : a ∈ due :=
      List.mem_filter.mpr ⟨List.mem_of_head? ha, decide_eq_true (Nat.not_lt.mp hle)⟩
    rw [hnone] at hdue
    cases hdue
  · rw [Queue.releaseUpTo_fst, htake]
  · rw [hqueue, Queue.pending_releaseUpTo, hdrop]

/-- Requests that leave six actions waiting at the last of three cursors. Two of the five up
to the identifier 6 are rejected, the block ends among them, and the cursor in the middle
carries out at once what it is passed. -/
def threeInARow : List (Operation Float) :=
  [.add "robot" false none [], .add "relay" true (some 0) [], .add "user" false (some 1) [],
    .start 1 .origin .standard, .start 2 .origin .standard,
    .issue 2 ⟨1, .pushSettings⟩, .issue 2 ⟨2, .detachTool⟩, .onQueue 2 .freeze,
    .issue 2 ⟨4, .translation ⟨10, 0, 0⟩ true⟩, .issue 2 ⟨5, .attachTool "none"⟩,
    .issue 2 ⟨6, .popSettings⟩, .issue 2 ⟨9, .wait 250⟩]

/-- All five are tried although two are rejected, and the answer is no. -/
theorem catches_up_threeInARow :
    ∃ c, (empty.run threeInARow).cursor? 2 = some c ∧
      ((empty.run threeInARow).catchUp 2 6).1.map (·.1.id) = [1, 2, 4, 5, 6] ∧
      (empty.run threeInARow).advanceTo 2 6 =
        (false, ((empty.run threeInARow).catchUp 2 6).2) := by
  have hcomputed : ((empty.run threeInARow).cursor? 2).map
      (fun c => (c.queue.pending.filter (·.id ≤ 6)).map Action.id) = some [1, 2, 4, 5, 6] := by
    decide +kernel
  have hanswer : ((empty.run threeInARow).advanceTo 2 6).1 = false := by decide +kernel
  obtain ⟨c, hc, hdue⟩ := Option.map_eq_some_iff.mp hcomputed
  obtain ⟨hsame, hreleased, -, -⟩ := Reachable.catches_up ⟨threeInARow, rfl⟩ hc 6
  refine ⟨c, hc, ?_, ?_⟩
  · rw [← hdue, ← hreleased, List.map_map]
    rfl
  · rw [hsame] at hanswer ⊢
    exact congrArg (Prod.mk · _) hanswer

end Fleet

end RobotMotion
