import RobotMotion.Proofs.Program.Layout
import Mathlib.Data.List.Basic
import Mathlib.Data.List.Induction
import Mathlib.Data.List.Nodup

/-!
# Where the entries of a program come from

A program is written visit by visit, each visit adding to what was written before. If
certain entries only ever stand alone in what a visit adds, each of them is that of one
visit, and what stands before it is the program of the visits before
(`exists_visit_of_entry`). The entries in question are the motions of a program
(`AtMotions`).
-/

namespace RobotMotion.Program

variable {σ : Type}

/-- The action that an entry is about. -/
def Entry.action? : Entry σ → Option (Action Float)
  | .code action _ | .diagnostic action _ => some action
  | .plain _ | .blank => none

/-- An entry is about a visit: the code of its action, if that was carried out, or what is
said in place of code. -/
inductive Entry.About (v : Visit Float) : Entry σ → Prop
  | code (happlied : v.applied = true) (statements : List σ) : About v (.code v.action statements)
  | diagnostic (what : Diagnostic) : About v (.diagnostic v.action what)

/-- What a visit adds to a part of a program: nothing, or one entry about itself. -/
def Share (v : Visit Float) (added : List (Entry σ)) : Prop :=
  added = [] ∨ ∃ e : Entry σ, added = [e] ∧ e.About v

/-- A visit may add nothing. -/
theorem share_nil (v : Visit Float) : Share v ([] : List (Entry σ)) := .inl rfl

theorem Entry.About.share {v : Visit Float} {e : Entry σ} (h : e.About v) : Share v [e] :=
  .inr ⟨e, rfl, h⟩

/-- Whether an entry is that of the action with a certain identifier. -/
def Entry.isOf (id : Nat) (entry : Entry σ) : Bool := entry.action?.map (·.id) == some id

theorem Entry.About.isOf {v : Visit Float} {e : Entry σ} (h : e.About v) (id : Nat) :
    e.isOf id = (v.action.id == id) := by
  cases h <;> rfl

theorem about_of_share {v : Visit Float} {added : List (Entry σ)} (h : Share v added)
    {e : Entry σ} (he : e ∈ added) : e.About v := by
  rcases h with rfl | ⟨e', rfl, habout⟩
  · cases he
  · rwa [List.mem_singleton.mp he]

/-- An entry after something was added is all that was added, or was there before. -/
theorem cases_of_alone {old added before after : List (Entry σ)} {entry : Entry σ}
    (hbody : old ++ added = before ++ entry :: after)
    (halone : entry ∈ added → added = [entry]) :
    before = old ∧ entry ∈ added ∨ ∃ more, old = before ++ entry :: more := by
  rcases List.append_eq_append_iff.mp hbody with ⟨more, hbefore, hmore⟩ | ⟨more, hpast, hmore⟩
  · have hmem : entry ∈ added := by
      rw [hmore]
      exact List.mem_append_right _ List.mem_cons_self
    -- what was added is the entry alone, so nothing of it stands before the entry
    have hnil : more = [] := by
      have hlength := congrArg List.length (hmore.symm.trans (halone hmem))
      rw [List.length_append, List.length_cons, List.length_singleton] at hlength
      exact List.eq_nil_of_length_eq_zero (by omega)
    rw [hnil, List.append_nil] at hbefore
    exact .inl ⟨hbefore, hmem⟩
  · cases more with
    | nil =>
      rw [List.append_nil] at hpast
      rw [List.nil_append] at hmore
      exact .inl ⟨hpast.symm, hmore ▸ List.mem_cons_self⟩
    | cons e more =>
      obtain ⟨rfl, -⟩ := List.cons.inj hmore
      exact .inr ⟨more, hpast⟩

section

variable {D : Type} {step : D → Visit Float → D} (body : D → List (Entry σ))

/-- **Every entry that stands alone is that of a visit**, and what stands before it is the
body of the program of the visits before. -/
theorem exists_visit_of_entry (marked : Entry σ → Prop) (P : Visit Float → Entry σ → Prop)
    (hstep : ∀ draft v, ∃ added, body (step draft v) = body draft ++ added ∧
      ∀ e ∈ added, marked e → added = [e] ∧ P v e)
    {start : D} (hstart : ∀ e ∈ body start, ¬ marked e) {visits : List (Visit Float)}
    {before after : List (Entry σ)} {entry : Entry σ}
    (hbody : body (visits.foldl step start) = before ++ entry :: after) (hentry : marked entry) :
    ∃ past v future, visits = past ++ v :: future ∧
      before = body (past.foldl step start) ∧ P v entry := by
  induction visits using List.reverseRecOn generalizing after with
  | nil =>
    have hmem : entry ∈ body start := by
      rw [show body start = before ++ entry :: after from hbody]
      exact List.mem_append_right _ List.mem_cons_self
    exact absurd hentry (hstart entry hmem)
  | append_singleton past v ih =>
    obtain ⟨added, hadded, hmarked⟩ := hstep (past.foldl step start) v
    rw [List.foldl_concat, hadded] at hbody
    rcases cases_of_alone hbody fun hmem => (hmarked entry hmem hentry).1 with
      ⟨hbefore, hmem⟩ | ⟨_, hpast⟩
    · exact ⟨past, v, [], rfl, hbefore, (hmarked entry hmem hentry).2⟩
    · obtain ⟨past', v', future, hvisits, hfacts⟩ := ih hpast
      refine ⟨past', v', future ++ [v], ?_, hfacts⟩
      rw [hvisits, List.append_assoc, List.cons_append]

/-- **What is written for some visits is a share for each**, in order. -/
theorem exists_shares
    (hstep : ∀ draft v, ∃ added, body (step draft v) = body draft ++ added ∧ Share v added)
    (start : D) (visits : List (Visit Float)) :
    ∃ shares, List.Forall₂ Share visits shares ∧
      body (visits.foldl step start) = body start ++ shares.flatten := by
  induction visits generalizing start with
  | nil => exact ⟨[], .nil, (List.append_nil _).symm⟩
  | cons v rest ih =>
    obtain ⟨added, hadded, hshare⟩ := hstep start v
    obtain ⟨shares, hshares, hbody⟩ := ih (step start v)
    refine ⟨added :: shares, .cons hshare hshares, ?_⟩
    rw [List.foldl_cons, hbody, hadded, List.flatten_cons, List.append_assoc]

/-- What a step writes for a visit in any case stays. -/
theorem mem_of_mem_step
    (hstep : ∀ draft v, ∃ added, body (step draft v) = body draft ++ added ∧ Share v added)
    {v : Visit Float} {e : Entry σ} (he : ∀ draft, e ∈ body (step draft v)) (start : D)
    {visits : List (Visit Float)} (hv : v ∈ visits) : e ∈ body (visits.foldl step start) := by
  obtain ⟨past, future, rfl⟩ := List.append_of_mem hv
  obtain ⟨shares, -, hbody⟩ := exists_shares body hstep (step (past.foldl step start) v) future
  rw [List.foldl_append, List.foldl_cons, hbody]
  exact List.mem_append_left _ (he _)

/-- What is written for some visits is about one of them. -/
theorem exists_about_of_shares {visits : List (Visit Float)} {shares : List (List (Entry σ))}
    (h : List.Forall₂ Share visits shares) {e : Entry σ} (he : e ∈ shares.flatten) :
    ∃ v ∈ visits, e.About v := by
  induction h with
  | nil => cases he
  | cons hshare _ ih =>
    rcases List.mem_append.mp he with he | he
    · exact ⟨_, List.mem_cons_self, about_of_share hshare he⟩
    · obtain ⟨v, hv, habout⟩ := ih he
      exact ⟨v, List.mem_cons_of_mem _ hv, habout⟩

/-- What is written for some visits is not about other actions. -/
theorem not_isOf_of_shares {visits : List (Visit Float)} {shares : List (List (Entry σ))}
    (h : List.Forall₂ Share visits shares) {id : Nat} (hid : ∀ v ∈ visits, v.action.id ≠ id) :
    ∀ e ∈ shares.flatten, e.isOf id = false := by
  intro e he
  obtain ⟨v, hv, habout⟩ := exists_about_of_shares h he
  rw [habout.isOf]
  exact beq_eq_false_iff_ne.mpr (hid v hv)

/-- **What is written for a visit stands in one place**, and nothing else is of its action,
where actions have different identifiers. -/
theorem exists_place_of_visit
    (hstep : ∀ draft v, ∃ added, body (step draft v) = body draft ++ added ∧ Share v added)
    {start : D} (hstart : ∀ e ∈ body start, e.action? = none) {visits : List (Visit Float)}
    (hnodup : (visits.map fun v => v.action.id).Nodup) {v : Visit Float} (hv : v ∈ visits) :
    ∃ draft added before after, body (step draft v) = body draft ++ added ∧
      body (visits.foldl step start) = before ++ added ++ after ∧
        ∀ e ∈ before ++ after, e.isOf v.action.id = false := by
  obtain ⟨past, future, rfl⟩ := List.append_of_mem hv
  -- what other visits wrote is about other actions, in front and behind
  have hother : ∀ w ∈ past ++ future, w.action.id ≠ v.action.id := by
    rw [List.map_append, List.map_cons, List.nodup_middle, ← List.map_append] at hnodup
    intro w hw heq
    exact (List.nodup_cons.mp hnodup).1 (heq ▸ List.mem_map_of_mem hw)
  obtain ⟨added, hadded, -⟩ := hstep (past.foldl step start) v
  obtain ⟨before, hbefore, hpast⟩ := exists_shares body hstep start past
  obtain ⟨after, hafter, hfuture⟩ :=
    exists_shares body hstep (step (past.foldl step start) v) future
  refine ⟨past.foldl step start, added, body start ++ before.flatten, after.flatten, hadded, ?_,
    ?_⟩
  · rw [List.foldl_append, List.foldl_cons, hfuture, hadded, hpast]
  · intro e he
    simp only [List.mem_append] at he
    rcases he with (he | he) | he
    · rw [Entry.isOf, hstart e he]
      rfl
    · exact not_isOf_of_shares hbefore
        (fun w hw => hother w (List.mem_append_left _ hw)) e he
    · exact not_isOf_of_shares hafter
        (fun w hw => hother w (List.mem_append_right _ hw)) e he

end

/-! ### The motions of a program -/

/-- At each motion of a program: it is the code of a motion that was carried out, what
stands before it is the code of the visits before, and `P` holds of this code and of the
state that the motion leads to. -/
def AtMotions (moves : σ → Bool) (body : List (Visit Float) → List (Entry σ))
    (visits : List (Visit Float)) (P : List (Entry σ) → State Float → Prop) : Prop :=
  ∀ before entry after, body visits = before ++ entry :: after →
    entry.statements.any moves = true →
      ∃ past v future statement, visits = past ++ v :: future ∧ v.applied = true ∧
        v.action.command.isMotion = true ∧ before = body past ∧
        entry = .code v.action [statement] ∧ P before v.state

/-- What holds at each motion may be weakened there. -/
theorem AtMotions.imp {moves : σ → Bool} {body : List (Visit Float) → List (Entry σ)}
    {visits : List (Visit Float)} {P Q : List (Entry σ) → State Float → Prop}
    (h : AtMotions moves body visits P) (himp : ∀ entries s, P entries s → Q entries s) :
    AtMotions moves body visits Q := by
  intro before entry after hbody hmoves
  obtain ⟨past, v, future, statement, hvisits, happlied, hmotion, hbefore, hentry, hP⟩ :=
    h before entry after hbody hmoves
  exact ⟨past, v, future, statement, hvisits, happlied, hmotion, hbefore, hentry, himp _ _ hP⟩

/-- The motion of an action with a certain identifier. -/
def isMotionOf (moves : σ → Bool) (id : Nat) (entry : Entry σ) : Bool :=
  entry.statements.any moves && entry.action?.map (·.id) == some id

/-- Where there is a motion of an action, `P` holds of what stands before it. -/
theorem AtMotions.of_isMotionOf {moves : σ → Bool} {body : List (Visit Float) → List (Entry σ)}
    {visits : List (Visit Float)} {P : List (Entry σ) → State Float → Prop}
    (h : AtMotions moves body visits P) {id : Nat}
    (hany : (body visits).any (isMotionOf moves id) = true) :
    ∃ before entry after, body visits = before ++ entry :: after ∧
      entry.action?.map (·.id) = some id ∧ ∃ v ∈ visits, v.action.id = id ∧ P before v.state := by
  obtain ⟨entry, hmem, hentry⟩ := List.any_eq_true.mp hany
  obtain ⟨before, after, hbody⟩ := List.append_of_mem hmem
  obtain ⟨hmoves, hid⟩ := Bool.and_eq_true_iff.mp hentry
  obtain ⟨past, v, future, statement, hvisits, -, -, -, rfl, hP⟩ := h _ _ _ hbody hmoves
  refine ⟨before, _, after, hbody, beq_iff_eq.mp hid, v, ?_, ?_, hP⟩
  · rw [hvisits]
    exact List.mem_append_right _ List.mem_cons_self
  · exact Option.some.inj (beq_iff_eq.mp hid)

end RobotMotion.Program
