import RobotMotion.Proofs.Device.Sequence
import RobotMotion.Proofs.Fleet.Feeding
import RobotMotion.Proofs.Session.Site
import RobotMotion.Proofs.Wire.Drain

/-!
# The two cursors of a session

The write cursor of a session runs behind the user cursor. What separates them is what
waits at the write cursor: carrying it out takes the write cursor's device to the user
cursor's (`Paired.caughtUp`). Every call keeps this. Issuing lets the user cursor go
ahead by one action and appends it, streaming lets the write cursor follow by one, and
starting over is allowed only where the two stand at the same place.

A call on one session leaves the cursors of the others alone (`Moves`), so the relation
is kept for all of them (`Inv.of_moves`).
-/

namespace RobotMotion

namespace Site

/-- What happened to the queue of the write cursor of a session. -/
def history (s : Site) (session : Session) : Queue.History Float :=
  .run (Fleet.queueOps session.write s.trace)

/-- How the two cursors of a session stand to each other. -/
structure Paired (s : Site) (k : Nat) (session : Session) (user write : Cursor Float) :
    Prop where
  feeds : s.cell.fleet.Feeds session.user session.write user write
  userBounded : ∀ last, user.queue.lastAdded = some last → last ≤ s.cell.lastId session.source
  writeBounded : ∀ last, write.queue.lastAdded = some last →
    last ≤ s.cell.lastId session.source
  caughtUp : write.device.performAll write.queue.pending = .ok user.device
  accepted : (s.history session).accepted = s.returnedBy k
  discarded : (s.history session).discarded = []
  applied : ∀ v, .tried session.write v ∈ s.trace → v.applied = true

/-- What holds of every site. The cursors of the session `k` have the numbers `2 * k`
and `2 * k + 1`. -/
structure Inv (s : Site) : Prop where
  steps : Fleet.Steps .empty s.trace s.cell.fleet
  size : s.cell.fleet.cursors.length = 2 * s.sessions.length
  numbered : ∀ {k session}, s.sessions[k]? = some session →
    session.write = 2 * k ∧ session.user = 2 * k + 1 ∧
      session.source < s.cell.sources.length
  known : ∀ p ∈ s.returned, p.1 < s.sessions.length
  paired : ∀ {k session}, s.sessions[k]? = some session →
    ∃ user write, s.Paired k session user write

theorem inv_empty : Inv empty where
  steps := .refl _
  size := rfl
  numbered := nofun
  known := nofun
  paired := nofun

variable {s t : Site} {k : Nat} {session : Session}

theorem Inv.explained (h : s.Inv) : Fleet.Explained s.trace s.cell.fleet :=
  Fleet.explained_empty.steps h.steps

/-- The history of the write cursor is that of its queue. -/
theorem Inv.queue_history (h : s.Inv) {user write : Cursor Float}
    (hp : s.Paired k session user write) : (s.history session).queue = write.queue := by
  rw [history, Queue.History.queue_run, h.explained.queue hp.feeds.child]

/-- A session stays as it is where its cursors do and nothing is recorded of it. -/
theorem Paired.frame {user write : Cursor Float} (hp : s.Paired k session user write)
    (hfeeds : t.cell.fleet.Feeds session.user session.write user write)
    (hids : s.cell.lastId session.source ≤ t.cell.lastId session.source)
    (hhistory : t.history session = s.history session)
    (hreturned : t.returnedBy k = s.returnedBy k)
    (htried : ∀ v, .tried session.write v ∈ t.trace → .tried session.write v ∈ s.trace) :
    t.Paired k session user write := by
  refine ⟨hfeeds, ?_, ?_, hp.caughtUp, ?_, ?_, fun v hv => hp.applied v (htried v hv)⟩
  · exact fun last hl => Nat.le_trans (hp.userBounded last hl) hids
  · exact fun last hl => Nat.le_trans (hp.writeBounded last hl) hids
  · rw [hhistory, hreturned]
    exact hp.accepted
  · rw [hhistory]
    exact hp.discarded

/-! ### Calls on one session -/

/-- From `s` to `t` only the session `k` moved: the events `v` are about its cursors, and
the actions `answers` were given back to it. -/
structure Moves (s t : Site) (k : Nat) (session : Session) (v : List (Fleet.Event Float))
    (answers : List (Action Float)) : Prop where
  steps : Fleet.Steps s.cell.fleet v t.cell.fleet
  about : ∀ e ∈ v, e.about = some session.user ∨ e.about = some session.write
  sessions : t.sessions = s.sessions
  sources : t.cell.sources.length = s.cell.sources.length
  ids : ∀ source, s.cell.lastId source ≤ t.cell.lastId source
  trace : t.trace = s.trace ++ v
  returned : t.returned = s.returned ++ answers.map (k, ·)

section Moves

variable {v : List (Fleet.Event Float)} {answers : List (Action Float)}

theorem Moves.history_eq (hm : Moves s t k session v answers) (other : Session) :
    t.history other =
      (Fleet.queueOps other.write v).foldl Queue.History.step (s.history other) := by
  rw [history, hm.trace, Fleet.queueOps_append, Queue.History.run, List.foldl_append]
  rfl

theorem Moves.returnedBy_self (hm : Moves s t k session v answers) :
    t.returnedBy k = s.returnedBy k ++ answers := by
  rw [returnedBy, hm.returned, List.filter_append, List.map_append]
  simp [returnedBy, List.filter_map, Function.comp_def]

theorem Moves.returnedBy_ne (hm : Moves s t k session v answers) {j : Nat} (hne : j ≠ k) :
    t.returnedBy j = s.returnedBy j := by
  rw [returnedBy, hm.returned, List.filter_append, List.map_append]
  simp [returnedBy, List.filter_map, Function.comp_def, hne.symm]

theorem Moves.not_about (hm : Moves s t k session v answers) {i : Nat}
    (hu : session.user ≠ i) (hw : session.write ≠ i) : ∀ e ∈ v, e.about ≠ some i := by
  intro e he habout
  rcases hm.about e he with ha | ha
  · exact hu (Option.some.inj (ha.symm.trans habout))
  · exact hw (Option.some.inj (ha.symm.trans habout))

/-- A session whose cursors no event is about stays as it is. -/
theorem Moves.paired_other (hm : Moves s t k session v answers) {j : Nat} {other : Session}
    (hne : j ≠ k) (huser : ∀ e ∈ v, e.about ≠ some other.user)
    (hwrite : ∀ e ∈ v, e.about ≠ some other.write) {user write : Cursor Float}
    (hp : s.Paired j other user write) : t.Paired j other user write := by
  have hu := Fleet.follow_of_not_about huser user
  have hw := Fleet.follow_of_not_about hwrite write
  have hhistory : t.history other = s.history other := by
    rw [hm.history_eq, Fleet.queueOps_of_not_about hwrite]
    rfl
  have hfeeds := hp.feeds.steps hm.steps (by rw [hu]; exact hp.feeds.idle)
  rw [hu, hw] at hfeeds
  refine hp.frame hfeeds (hm.ids _) hhistory (hm.returnedBy_ne hne) fun visit hvisit => ?_
  rw [hm.trace] at hvisit
  exact (List.mem_append.mp hvisit).resolve_right fun hv => hwrite _ hv rfl

/-- **A call on one session keeps the relation for all of them** if it keeps it for that
one. -/
theorem Inv.of_moves (h : s.Inv) (hk : s.sessions[k]? = some session)
    (hm : Moves s t k session v answers) {user write : Cursor Float}
    (hp : t.Paired k session user write) : t.Inv := by
  obtain ⟨hwrite, huser, -⟩ := h.numbered hk
  refine ⟨?_, ?_, ?_, ?_, ?_⟩
  · rw [hm.trace]
    exact h.steps.append hm.steps
  · rw [hm.sessions, ← h.size]
    refine hm.steps.length_eq fun e he => ?_
    rcases hm.about e he with ha | ha <;> rw [ha] <;> rfl
  · intro j other hj
    rw [hm.sessions] at hj
    rw [hm.sources]
    exact h.numbered hj
  · intro p hmem
    rw [hm.returned, List.mem_append] at hmem
    rw [hm.sessions]
    rcases hmem with hmem | hmem
    · exact h.known p hmem
    · obtain ⟨a, -, rfl⟩ := List.mem_map.mp hmem
      exact (List.getElem?_eq_some_iff.mp hk).1
  · intro j other hj
    rw [hm.sessions] at hj
    by_cases hne : j = k
    · subst hne
      obtain rfl := Option.some.inj (hk.symm.trans hj)
      exact ⟨user, write, hp⟩
    · -- the numbers of its cursors lie apart from those of the session that moved
      obtain ⟨hotherWrite, hotherUser, -⟩ := h.numbered hj
      obtain ⟨u, w, hother⟩ := h.paired hj
      refine ⟨u, w, hm.paired_other hne ?_ ?_ hother⟩
      · exact hm.not_about (by omega) (by omega)
      · exact hm.not_about (by omega) (by omega)

end Moves

/-! ### Every call keeps the relation -/

/-- The next action of a session is new to both of its cursors. -/
theorem Paired.exists_add? {user write : Cursor Float} (hp : s.Paired k session user write)
    (command : Command Float) :
    (∃ queue, user.queue.add? (s.cell.nextAction session.source command) = some queue) ∧
      ∃ queue, write.queue.add? (s.cell.nextAction session.source command) = some queue :=
  ⟨Queue.exists_add? fun last hl => Nat.lt_succ_of_le (hp.userBounded last hl),
    Queue.exists_add? fun last hl => Nat.lt_succ_of_le (hp.writeBounded last hl)⟩

/-- **Issuing to a session** gives the action back if the user cursor carries it out. -/
theorem Paired.issue_fst {user write : Cursor Float} (hp : s.Paired k session user write)
    (command : Command Float) :
    (s.cell.issue session command).1 =
      if (user.device.visit (s.cell.nextAction session.source command)).applied then
        some (s.cell.nextAction session.source command) else none := by
  obtain ⟨⟨queue, ha⟩, -⟩ := hp.exists_add? command
  rw [← hp.feeds.issue_fst ha]
  rfl

/-- Issuing touches the two cursors, and moves the source on. -/
theorem Paired.moves_issue {user write : Cursor Float} (hp : s.Paired k session user write)
    (hk : s.sessions[k]? = some session) (command : Command Float) :
    Moves s (s.after (.issue k command)) k session
      (s.cell.fleet.issueTrace session.user (s.cell.nextAction session.source command))
      (s.cell.issue session command).1.toList := by
  obtain ⟨⟨queue, ha⟩, -⟩ := hp.exists_add? command
  simp only [after, hk]
  refine ⟨Fleet.issue_steps _ _ _, fun e he => hp.feeds.about_issueTrace ha he, rfl, ?_, ?_, rfl,
    rfl⟩
  · exact List.length_set
  · exact fun source => s.cell.lastId_le_stamp session.source source command

theorem lastId_after_issue (hk : s.sessions[k]? = some session)
    (hsource : session.source < s.cell.sources.length) (command : Command Float) :
    (s.after (.issue k command)).cell.lastId session.source =
      s.cell.lastId session.source + 1 := by
  simp only [after, hk]
  exact Cell.lastId_stamp_self hsource command

/-- **Issuing** lets the user cursor go ahead by one action, which waits at the write
cursor from then on. -/
theorem Inv.issue (h : s.Inv) (hk : s.sessions[k]? = some session) (command : Command Float) :
    (s.after (.issue k command)).Inv := by
  obtain ⟨user, write, hp⟩ := h.paired hk
  obtain ⟨-, -, hsource⟩ := h.numbered hk
  obtain ⟨⟨queue, ha⟩, queue', ha'⟩ := hp.exists_add? command
  have hm := hp.moves_issue hk command
  have hlast := lastId_after_issue hk hsource command
  have hreturned := hm.returnedBy_self
  have hhistory := hm.history_eq session
  rw [hp.issue_fst command] at hreturned
  set t := s.after (.issue k command)
  set action := s.cell.nextAction session.source command
  rw [hp.feeds.queueOps_child ha] at hhistory
  obtain ⟨rest, hparent, hidle, hadded, -⟩ := hp.feeds.follow_parent ha
  have hfeeds := hp.feeds.steps hm.steps (by rw [hparent]; exact hidle)
  rw [hparent, hp.feeds.follow_child ha] at hfeeds
  have huser : ∀ last, rest.lastAdded = some last → last ≤ t.cell.lastId session.source := by
    intro last hl
    obtain rfl := Option.some.inj (hadded.symm.trans hl)
    exact Nat.le_of_eq hlast.symm
  have happlied : ∀ v, .tried session.write v ∈ t.trace → v.applied = true := by
    intro v hv
    rw [hm.trace] at hv
    rcases List.mem_append.mp hv with hv | hv
    · exact hp.applied v hv
    · exact absurd hv (hp.feeds.not_tried_child ha v)
  cases hv : (user.device.visit action).applied with
  | false =>
    -- a rejected action goes no further than the queue of the user cursor
    rw [hv] at hfeeds hhistory hreturned
    refine h.of_moves hk hm ⟨hfeeds, huser, ?_, ?_, ?_, ?_, happlied⟩
    · exact fun last hl => Nat.le_trans (hp.writeBounded last hl) (hm.ids _)
    · rw [Device.visit_device_of_rejected hv]
      exact hp.caughtUp
    · rw [hhistory, hreturned]
      exact hp.accepted.trans (List.append_nil _).symm
    · rw [hhistory]
      exact hp.discarded
  | true =>
    -- the write cursor catches up by the action that was appended for it
    rw [hv] at hfeeds hhistory hreturned
    simp only [if_true, Queue.after_add ha'] at hfeeds
    refine h.of_moves hk hm ⟨hfeeds, huser, ?_, ?_, ?_, ?_, happlied⟩
    · intro last hl
      obtain rfl := Option.some.inj ((Queue.lastAdded_add? ha').symm.trans hl)
      exact Nat.le_of_eq hlast.symm
    · rw [Queue.pending_add? ha', Device.performAll_append_singleton hp.caughtUp]
      exact Device.perform_of_applied hv
    · rw [hhistory, hreturned, ← hp.accepted]
      simp [Queue.History.step, Queue.taken, h.queue_history hp, ha']
    · rw [hhistory]
      simp [Queue.History.step, Queue.dropped, hp.discarded]

/-- Releasing and freezing bring nothing into a queue and drop nothing. -/
theorem quiet_run {ops : List (Queue.Operation Float)}
    (hops : ∀ op ∈ ops, op = .next ∨ op = .freeze) (q : Queue Float) (h : Queue.History Float) :
    (q.run ops).lastAdded = q.lastAdded ∧
      (ops.foldl Queue.History.step h).accepted = h.accepted ∧
      (ops.foldl Queue.History.step h).discarded = h.discarded := by
  induction ops generalizing q h with
  | nil => exact ⟨rfl, rfl, rfl⟩
  | cons op rest ih =>
    obtain ⟨hlast, haccepted, hdiscarded⟩ :=
      ih (fun op hop => hops op (List.mem_cons_of_mem _ hop)) (q.after op) (h.step op)
    have hop : (q.after op).lastAdded = q.lastAdded ∧ h.queue.taken op = [] ∧
        h.queue.dropped op = [] := by
      rcases hops op List.mem_cons_self with rfl | rfl
      · rw [Queue.after, Queue.operate_next]
        exact ⟨rfl, rfl, rfl⟩
      · exact ⟨rfl, rfl, rfl⟩
    refine ⟨hlast.trans hop.1, haccepted.trans ?_, hdiscarded.trans ?_⟩
    · rw [Queue.History.step, hop.2.1, List.append_nil]
    · rw [Queue.History.step, hop.2.2, List.append_nil]

/-- A call that issues nothing keeps the relation if the write cursor still catches up
with the user cursor. -/
theorem Moves.paired {v : List (Fleet.Event Float)} (hm : Moves s t k session v [])
    {user write : Cursor Float} (hp : s.Paired k session user write)
    (hu : Fleet.queueOps session.user v = [])
    (hw : ∀ op ∈ Fleet.queueOps session.write v, op = .next ∨ op = .freeze)
    (happlied : ∀ visit, .tried session.write visit ∈ v → visit.applied = true)
    (hcaughtUp : (Fleet.follow session.write write v).device.performAll
        (Fleet.follow session.write write v).queue.pending =
      .ok (Fleet.follow session.user user v).device) :
    t.Paired k session (Fleet.follow session.user user v)
      (Fleet.follow session.write write v) := by
  obtain ⟨hlast, haccepted, hdiscarded⟩ := quiet_run hw write.queue (s.history session)
  have huser : (Fleet.follow session.user user v).queue = user.queue := by
    rw [Fleet.queue_follow, hu]
    rfl
  have hhistory := hm.history_eq session
  refine ⟨hp.feeds.steps hm.steps ?_, ?_, ?_, hcaughtUp, ?_, ?_, ?_⟩
  · rw [huser]
    exact hp.feeds.idle
  · rw [huser]
    exact fun last hl => Nat.le_trans (hp.userBounded last hl) (hm.ids _)
  · rw [Fleet.queue_follow, hlast]
    exact fun last hl => Nat.le_trans (hp.writeBounded last hl) (hm.ids _)
  · rw [hhistory, haccepted, hm.returnedBy_self, List.append_nil]
    exact hp.accepted
  · rw [hhistory, hdiscarded]
    exact hp.discarded
  · intro visit hvisit
    rw [hm.trace] at hvisit
    exact (List.mem_append.mp hvisit).elim (hp.applied visit) (happlied visit)

/-- **Starting over** takes both cursors to the same place. It fails for both or for
none, since what they did before has no part in it. -/
theorem Inv.start (h : s.Inv) (hk : s.sessions[k]? = some session) (hidle : s.isWaiting k = false)
    (pose : InitialPose Float) (settings : Settings Float) :
    (s.after (.start k pose settings)).Inv := by
  obtain ⟨user, write, hp⟩ := h.paired hk
  have hpending : write.queue.pending = [] := by
    simpa [isWaiting, hk, hp.feeds.child] using hidle
  have hsame : write.device = user.device := by
    have hcaughtUp := hp.caughtUp
    rw [hpending] at hcaughtUp
    exact Except.ok.inj hcaughtUp
  cases hd : user.device.start pose settings with
  | error e =>
    have hstart : s.cell.start session pose settings = .error ⟨user.name, e⟩ := by
      simp only [Cell.start, Fleet.start, hp.feeds.parent, Cursor.start, hd]
      rfl
    simpa only [after, hk, hstart] using h
  | ok device =>
    have hne : session.user ≠ session.write := Nat.ne_of_gt hp.feeds.below
    obtain ⟨first, fleet, hfirst, hfleet, huserTrace, hwriteTrace, hsteps⟩ :=
      hp.feeds.start hd (hsame ▸ hd)
    have hstart : s.cell.start session pose settings = .ok { s.cell with fleet } := by
      simp only [Cell.start, hfirst]
      exact congrArg (Except.map fun fleet => { s.cell with fleet }) hfleet
    have htrace : s.cell.startTrace session pose settings =
        [.started session.user device, .started session.write device] := by
      simp only [Cell.startTrace, huserTrace, hfirst, hwriteTrace]
      rfl
    have hm : Moves s (s.after (.start k pose settings)) k session
        [.started session.user device, .started session.write device] [] := by
      simp only [after, hk, hstart, htrace]
      refine ⟨hsteps, ?_, rfl, rfl, fun _ => Nat.le_refl _, rfl, (List.append_nil _).symm⟩
      intro e he
      simp only [List.mem_cons, List.not_mem_nil, or_false] at he
      rcases he with rfl | rfl
      · exact .inl rfl
      · exact .inr rfl
    refine h.of_moves hk hm (hm.paired hp rfl ?_ (by simp) ?_)
    · exact fun op hop => absurd hop List.not_mem_nil
    · simp [Fleet.follow, Fleet.Event.on, hne, hne.symm, hpending, Device.performAll]

/-- Making a block of what waits does not touch it. -/
theorem Inv.setBlock (h : s.Inv) (hk : s.sessions[k]? = some session) :
    (s.after (.setBlock k)).Inv := by
  obtain ⟨user, write, hp⟩ := h.paired hk
  have hne : session.write ≠ session.user := Nat.ne_of_lt hp.feeds.below
  have hm : Moves s (s.after (.setBlock k)) k session [.queued session.write .freeze] [] := by
    simp only [after, hk, Cell.setBlock, hp.feeds.child]
    refine ⟨(Fleet.Step.queued hp.feeds.child .freeze).single, ?_, rfl, rfl,
      fun _ => Nat.le_refl _, rfl, (List.append_nil _).symm⟩
    intro e he
    obtain rfl := List.mem_singleton.mp he
    exact .inr rfl
  refine h.of_moves hk hm (hm.paired hp (Fleet.queueOps_queued_ne hne _) ?_ (by simp) ?_)
  · intro op hop
    rw [Fleet.queueOps_queued_self] at hop
    exact .inr (List.mem_singleton.mp hop)
  · simp only [Fleet.follow, List.foldl_cons, List.foldl_nil, Fleet.Event.on, if_true,
      if_neg hne]
    exact hp.caughtUp

/-- **Streaming** lets the write cursor follow by one action, which is never
rejected. -/
theorem Inv.stream (h : s.Inv) (hk : s.sessions[k]? = some session) (p : Wire.Protocol) :
    (s.after (.stream k p)).Inv := by
  obtain ⟨user, write, hp⟩ := h.paired hk
  have hne : session.write ≠ session.user := Nat.ne_of_lt hp.feeds.below
  cases hstream : s.cell.stream? session p with
  | none => simpa only [after, hk, hstream] using h
  | some result =>
    obtain ⟨messages, cell⟩ := result
    have hafter : s.after (.stream k p) =
        { s with cell, trace := s.trace ++ s.cell.fleet.nextTrace session.write } := by
      simp only [after, hk, hstream]
    rw [Cell.stream?, Option.map_eq_some_iff] at hstream
    obtain ⟨⟨sent, fleet⟩, hsent, hcell⟩ := hstream
    obtain ⟨-, rfl⟩ := Prod.mk.inj hcell
    obtain ⟨outcome, hnext⟩ := Wire.Protocol.next?_of_stream? hsent
    cases hpending : write.queue.pending with
    | nil => simp [Fleet.next?, hp.feeds.child, Queue.next?, hpending] at hnext
    | cons action rest =>
      have hcaughtUp := hp.caughtUp
      rw [hpending] at hcaughtUp
      obtain ⟨device, hperform, hrest⟩ := Device.performAll_cons_eq_ok hcaughtUp
      have htrace := Fleet.nextTrace_of_childless hp.feeds.child hp.feeds.childless hpending
      rw [Device.visit_of_perform hperform] at htrace
      have hm : Moves s (s.after (.stream k p)) k session
          [.queued session.write .next, .tried session.write ⟨action, none, device⟩] [] := by
        rw [hafter, ← htrace]
        refine ⟨Fleet.next?_steps hnext, ?_, rfl, rfl, fun _ => Nat.le_refl _, rfl,
          (List.append_nil _).symm⟩
        rw [htrace]
        intro e he
        simp only [List.mem_cons, List.not_mem_nil, or_false] at he
        rcases he with rfl | rfl <;> exact .inr rfl
      refine h.of_moves hk hm (hm.paired hp ?_ ?_ ?_ ?_)
      · simp [Fleet.queueOps, Fleet.Event.queueOp?, hne]
      · intro op hop
        simp only [Fleet.queueOps, Fleet.Event.queueOp?, List.filterMap_cons, if_true,
          List.filterMap_nil, List.mem_singleton] at hop
        exact .inl hop
      · intro visit hvisit
        simp only [List.mem_cons, reduceCtorEq, false_or, List.not_mem_nil, or_false] at hvisit
        injection hvisit with _ hvisit
        rw [hvisit]
        rfl
      · simp only [Fleet.follow, List.foldl_cons, List.foldl_nil, Fleet.Event.on, if_true,
          if_neg hne, Queue.after, Queue.operate, Queue.next?, hpending]
        exact hrest

/-! ### Further sources and sessions -/

theorem Inv.addSource (h : s.Inv) : (s.after .addSource).Inv := by
  refine ⟨h.steps, h.size, ?_, h.known, ?_⟩
  · intro k session hk
    obtain ⟨hwrite, huser, hsource⟩ := h.numbered hk
    refine ⟨hwrite, huser, Nat.lt_of_lt_of_le hsource ?_⟩
    simp [after, Cell.addSource]
  · intro k session hk
    obtain ⟨-, -, hsource⟩ := h.numbered hk
    obtain ⟨user, write, hp⟩ := h.paired hk
    have hid : (s.after .addSource).cell.lastId session.source = s.cell.lastId session.source := by
      simp [after, Cell.addSource, Cell.lastId, List.getElem?_append_left hsource]
    exact ⟨user, write, hp.frame hp.feeds (Nat.le_of_eq hid.symm) rfl rfl fun _ => id⟩

/-- What is found in a list with a new last element is old, or is that element. -/
theorem getElem?_append_singleton_cases {β : Type} {l : List β} {x y : β} {i : Nat}
    (h : (l ++ [x])[i]? = some y) : l[i]? = some y ∨ (i = l.length ∧ x = y) := by
  rcases Nat.lt_trichotomy i l.length with hlt | rfl | hgt
  · rw [List.getElem?_append_left hlt] at h
    exact .inl h
  · rw [List.getElem?_concat_length] at h
    exact .inr ⟨rfl, Option.some.inj h⟩
  · have hlen : (l ++ [x]).length ≤ i := by
      rw [List.length_append, List.length_singleton]
      exact hgt
    rw [List.getElem?_eq_none hlen] at h
    cases h

/-- A session that is not open yet was given nothing back. -/
theorem Inv.returnedBy_fresh (h : s.Inv) : s.returnedBy s.sessions.length = [] := by
  have hfilter : s.returned.filter (·.1 = s.sessions.length) = [] := by
    rw [List.filter_eq_nil_iff]
    intro p hp
    have := h.known p hp
    simp only [decide_eq_true_eq]
    omega
  exact congrArg (List.map Prod.snd) hfilter

/-- A new session has two new cursors at the same place. -/
theorem Inv.addSession (h : s.Inv) {source : Nat} (hsource : source < s.cell.sources.length)
    (name : String) (tools : List (Tool Float)) (options : ProgramOptions) :
    (s.after (.addSession name source tools options)).Inv := by
  set t := s.after (.addSession name source tools options) with ht
  set n := s.cell.fleet.cursors.length with hn
  set w : Cursor Float := .make (name ++ "-write") false none tools with hw
  set u : Cursor Float := .make (name ++ "-user") true (some n) tools with hu
  have hsize : n = 2 * s.sessions.length := h.size
  have hcursors : t.cell.fleet.cursors = s.cell.fleet.cursors ++ [w, u] :=
    List.append_assoc _ [w] [u]
  have hsessions : t.sessions = s.sessions ++ [⟨name, source, n + 1, n, options⟩] := by
    simp [ht, after, Cell.addSession, Fleet.add, hn]
  have hsteps : Fleet.Steps s.cell.fleet [.added w, .added u] t.cell.fleet :=
    .head (.added _ _ _ _ _) (Fleet.Step.added _ _ _ _ _).single
  have htrace : t.trace = s.trace ++ [.added w, .added u] := rfl
  have htried (i : Nat) (v : Visit Float) (hv : .tried i v ∈ t.trace) : .tried i v ∈ s.trace := by
    rw [htrace] at hv
    simpa using hv
  have hhistory (other : Session) : t.history other = s.history other := by
    rw [history, history, htrace, Fleet.queueOps_append]
    exact congrArg _ (List.append_nil _)
  refine ⟨h.steps.append hsteps, ?_, ?_, ?_, ?_⟩
  · rw [hcursors, hsessions, List.length_append, List.length_append, ← hn, hsize]
    rfl
  · intro k session hk
    rw [hsessions] at hk
    rcases getElem?_append_singleton_cases hk with hk | ⟨rfl, rfl⟩
    · exact h.numbered hk
    · exact ⟨hsize, congrArg (· + 1) hsize, hsource⟩
  · intro p hp
    rw [hsessions, List.length_append]
    exact Nat.lt_succ_of_lt (h.known p hp)
  · intro k session hk
    rw [hsessions] at hk
    rcases getElem?_append_singleton_cases hk with hk | ⟨rfl, rfl⟩
    · obtain ⟨user, write, hp⟩ := h.paired hk
      exact ⟨user, write, hp.frame (hp.feeds.steps hsteps hp.feeds.idle) (Nat.le_refl _)
        (hhistory _) rfl (htried _)⟩
    · have hnone : s.cell.fleet.cursor? n = none := List.getElem?_eq_none (Nat.le_refl n)
      have hnew : (t.history ⟨name, source, n + 1, n, options⟩) = .empty := by
        rw [hhistory, history, Fleet.queueOps_of_not_about (h.explained.unseen hnone)]
        rfl
      have hreturned : t.returnedBy s.sessions.length = [] := h.returnedBy_fresh
      refine ⟨u, w, ⟨Nat.lt_succ_self n, ?_, ?_, rfl, rfl, rfl, rfl, rfl⟩,
        fun last hl => absurd hl (Option.some_ne_none last).symm,
        fun last hl => absurd hl (Option.some_ne_none last).symm, rfl, ?_, ?_,
        fun v hv => absurd rfl (h.explained.unseen hnone _ (htried n v hv))⟩
      · rw [Fleet.cursor?, hcursors, hn]
        simp
      · rw [Fleet.cursor?, hcursors, hn]
        simp
      · rw [hnew, hreturned]
        rfl
      · rw [hnew]
        rfl

/-- **Every site keeps the relation.** -/
theorem Reachable.inv (h : s.Reachable) : s.Inv := by
  refine h.induction inv_empty fun s call hs hallowed => ?_
  cases call with
  | addSource => exact hs.addSource
  | addSession name source tools options =>
    exact hs.addSession (by simpa [allows] using hallowed) name tools options
  | compile k dialect time name options => exact hs
  | start k pose settings =>
    cases hk : s.sessions[k]? with
    | none => simpa only [after, hk] using hs
    | some session => exact hs.start hk (by simpa [allows] using hallowed) pose settings
  | issue k command =>
    cases hk : s.sessions[k]? with
    | none => simpa only [after, hk] using hs
    | some session => exact hs.issue hk command
  | setBlock k =>
    cases hk : s.sessions[k]? with
    | none => simpa only [after, hk] using hs
    | some session => exact hs.setBlock hk
  | stream k p =>
    cases hk : s.sessions[k]? with
    | none => simpa only [after, hk] using hs
    | some session => exact hs.stream hk p

end Site

end RobotMotion
